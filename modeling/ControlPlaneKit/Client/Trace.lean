import Mathlib.Data.List.Induction
import ControlPlaneKit.Client.Journal

/-!
# The command protocol as an automaton

The journal stores neither the order of commands nor which of them may still follow; it stores a
phase. Read as an automaton over history records, the phases have one transition for each record:
a record is admitted in the phases `_PENDING_PHASES` lists for its route and leads to the phase
`_phase_after` gives its response. `tracePhase` runs the automaton, and the words it accepts are
the prefixes of

  `prepare [decide] admit claim start execute* [advance]`.
-/

namespace ControlPlaneKit

namespace Client

/-- The routes of a history. -/
def routes (history : List Record) : List CommandRoute :=
  history.map (·.routeId)

@[simp]
theorem routes_append (h h' : List Record) : routes (h ++ h') = routes h ++ routes h' :=
  List.map_append

@[simp]
theorem routes_singleton (r : Record) : routes [r] = [r.routeId] :=
  rfl

/-- The phase a recorded response leads to. -/
def Projection.phase : Projection → Phase
  | .prepare .. => .prepared
  | .decide .. => .approved
  | .admission .. => .admitted
  | .claim .. => .claimed
  | .start .. => .started
  | .execute _ _ coordinatorStatus _ _ =>
    if coordinatorStatus.text = "completed" then .executed
    else if coordinatorStatus.text = "progressed" then .executing
    else .attentionRequired
  | .advance .. => .advanced

/-- A completed execution reports a run that succeeded. -/
def Projection.Consistent : Projection → Prop
  | .execute _ runStatus coordinatorStatus _ _ =>
    coordinatorStatus.text = "completed" → runStatus.text = "succeeded"
  | _ => True

instance : DecidablePred Projection.Consistent := fun p =>
  match p with
  | .execute _ runStatus coordinatorStatus _ _ =>
    inferInstanceAs (Decidable (coordinatorStatus.text = "completed" →
      runStatus.text = "succeeded"))
  | .prepare .. => .isTrue trivial
  | .decide .. => .isTrue trivial
  | .admission .. => .isTrue trivial
  | .claim .. => .isTrue trivial
  | .start .. => .isTrue trivial
  | .advance .. => .isTrue trivial

/-- One transition: the record is of its route, the route may be pending in the phase, and the
response decides the next phase. -/
def Phase.after (phase : Phase) (record : Record) : Option Phase :=
  if record.response.route = record.routeId ∧ record.response.Consistent ∧
      phase ∈ pendingPhases record.routeId then
    some record.response.phase
  else none

/-- The phase after a history, where it is a history of the protocol. -/
def tracePhase (history : List Record) : Option Phase :=
  history.foldlM Phase.after .planning

@[simp]
theorem tracePhase_nil : tracePhase [] = some .planning :=
  rfl

theorem tracePhase_append (h h' : List Record) :
    tracePhase (h ++ h') = (tracePhase h).bind fun phase => h'.foldlM Phase.after phase :=
  List.foldlM_append

theorem after_eq_some {phase phase' : Phase} {record : Record} :
    phase.after record = some phase' ↔ record.response.route = record.routeId ∧
      record.response.Consistent ∧ phase ∈ pendingPhases record.routeId ∧
        phase' = record.response.phase := by
  unfold Phase.after
  split
  · rename_i h
    simp [h, eq_comm]
  · rename_i h
    simp only [reduceCtorEq, false_iff]
    rintro ⟨h₁, h₂, h₃, -⟩
    exact h ⟨h₁, h₂, h₃⟩

/-- The last record of a history of the protocol, and the phase it was made in. -/
theorem tracePhase_concat {h : List Record} {r : Record} {phase : Phase} :
    tracePhase (h ++ [r]) = some phase ↔
      ∃ before, tracePhase h = some before ∧ before.after r = some phase := by
  rw [tracePhase_append]
  cases tracePhase h with
  | none => simp
  | some before =>
    have hone : List.foldlM Phase.after before [r] = before.after r := bind_pure _
    rw [Option.bind_some, hone]
    constructor
    · exact fun h => ⟨before, rfl, h⟩
    · rintro ⟨_, hb, h⟩
      cases hb
      exact h

/-- Histories of the protocol are closed under prefixes. -/
theorem tracePhase_of_append {h h' : List Record} {phase : Phase}
    (ht : tracePhase (h ++ h') = some phase) :
    ∃ before, tracePhase h = some before ∧ h'.foldlM Phase.after before = some phase := by
  rw [tracePhase_append] at ht
  exact Option.bind_eq_some_iff.mp ht

/-! ### Words of the protocol -/

/-- The commands before the first execute step. -/
def opening (decided : Bool) : List CommandRoute :=
  .prepare :: ((if decided then [.decide] else []) ++ [.admission, .claim, .start])

/-- The words of the protocol. -/
def IsWord (word : List CommandRoute) : Prop :=
  ∃ (decided : Bool) (steps : ℕ) (advanced : Bool), word =
    opening decided ++ List.replicate steps .execute ++ if advanced then [.advance] else []

/-- The routes that lead to a phase. -/
inductive Spelled : Phase → List CommandRoute → Prop where
  | planning : Spelled .planning []
  | prepared : Spelled .prepared [.prepare]
  | approved : Spelled .approved [.prepare, .decide]
  | admitted (decided : Bool) {word : List CommandRoute}
      (h : word ++ [.claim, .start] = opening decided) : Spelled .admitted word
  | claimed (decided : Bool) {word : List CommandRoute} (h : word ++ [.start] = opening decided) :
      Spelled .claimed word
  | started (decided : Bool) : Spelled .started (opening decided)
  | stepped (decided : Bool) (steps : ℕ) {phase : Phase}
      (h : phase ∈ [Phase.executing, .executed, .attentionRequired]) :
      Spelled phase (opening decided ++ List.replicate (steps + 1) .execute)
  | advanced (decided : Bool) (steps : ℕ) :
      Spelled .advanced (opening decided ++ List.replicate (steps + 1) .execute ++ [.advance])

/-- The phases a command can lead to. -/
def CommandRoute.targets : CommandRoute → List Phase
  | .prepare => [.prepared]
  | .decide => [.approved]
  | .admission => [.admitted]
  | .claim => [.claimed]
  | .start => [.started]
  | .execute => [.executing, .executed, .attentionRequired]
  | .advance => [.advanced]

theorem Projection.phase_mem_targets {p : Projection} {route : CommandRoute}
    (h : p.route = route) : p.phase ∈ route.targets := by
  subst h
  cases p with
  | execute a b c d e =>
    simp only [Projection.phase]
    split
    · simp [Projection.route, CommandRoute.targets]
    · split <;> simp [Projection.route, CommandRoute.targets]
  | _ => simp [Projection.phase, Projection.route, CommandRoute.targets]

/-- One record extends the spelled word. -/
theorem Spelled.concat {phase phase' : Phase} {word : List CommandRoute} {r : Record}
    (h : Spelled phase word) (hr : phase.after r = some phase') :
    Spelled phase' (word ++ [r.routeId]) := by
  obtain ⟨hroute, -, hphase, rfl⟩ := after_eq_some.mp hr
  have htarget := Projection.phase_mem_targets hroute
  generalize r.response.phase = next at htarget
  generalize r.routeId = route at hphase htarget
  cases h with
  | planning =>
    cases route <;> simp_all [pendingPhases, CommandRoute.targets]
    exact .prepared
  | prepared =>
    cases route <;> simp_all [pendingPhases, CommandRoute.targets]
    · exact .approved
    · exact .admitted false rfl
  | approved =>
    cases route <;> simp_all [pendingPhases, CommandRoute.targets]
    exact .admitted true rfl
  | admitted d h =>
    cases route <;> simp_all [pendingPhases, CommandRoute.targets]
    exact .claimed d (by simpa using h)
  | claimed d h =>
    cases route <;> simp_all [pendingPhases, CommandRoute.targets]
    exact .started d
  | started d =>
    cases route <;> simp_all [pendingPhases, CommandRoute.targets]
    exact .stepped d 0 (by simpa using htarget)
  | stepped d n h =>
    have hnext : route = .execute ∨ route = .advance := by
      simp only [List.mem_cons, List.not_mem_nil, or_false] at h
      rcases h with rfl | rfl | rfl <;> cases route <;> simp [pendingPhases] at hphase ⊢
    rcases hnext with rfl | rfl
    · rw [List.append_assoc, ← List.replicate_succ']
      exact .stepped d (n + 1) htarget
    · obtain rfl : next = .advanced := by simpa [CommandRoute.targets] using htarget
      exact .advanced d n
  | advanced d n =>
    cases route <;> simp [pendingPhases] at hphase

/-- **The phase spells the history.** -/
theorem spelled_of_tracePhase {h : List Record} {phase : Phase} (ht : tracePhase h = some phase) :
    Spelled phase (routes h) := by
  induction h using List.reverseRecOn generalizing phase with
  | nil =>
    cases ht
    exact .planning
  | append_singleton h r ih =>
    obtain ⟨before, hb, hr⟩ := tracePhase_concat.mp ht
    rw [routes_append, routes_singleton]
    exact (ih hb).concat hr

/-- Every history of the protocol can be continued to a word. -/
theorem Spelled.prefix_word {phase : Phase} {word : List CommandRoute} (h : Spelled phase word) :
    ∃ w, IsWord w ∧ word <+: w := by
  cases h with
  | planning => exact ⟨opening false, ⟨false, 0, false, rfl⟩, List.nil_prefix⟩
  | prepared => exact ⟨opening false, ⟨false, 0, false, rfl⟩, ⟨[.admission, .claim, .start], rfl⟩⟩
  | approved => exact ⟨opening true, ⟨true, 0, false, rfl⟩, ⟨[.admission, .claim, .start], rfl⟩⟩
  | admitted d h => exact ⟨opening d, ⟨d, 0, false, by simp⟩, ⟨_, h⟩⟩
  | claimed d h => exact ⟨opening d, ⟨d, 0, false, by simp⟩, ⟨_, h⟩⟩
  | started d => exact ⟨opening d, ⟨d, 0, false, by simp⟩, List.prefix_rfl⟩
  | stepped d n h => exact ⟨_, ⟨d, n + 1, false, by simp⟩, List.prefix_rfl⟩
  | advanced d n => exact ⟨_, ⟨d, n + 1, true, rfl⟩, List.prefix_rfl⟩

/-- No command but the execute step occurs twice in a word. -/
theorem IsWord.count_le_one {word : List CommandRoute} (h : IsWord word) {route : CommandRoute}
    (hroute : route ≠ .execute) : word.count route ≤ 1 := by
  obtain ⟨decided, steps, advanced, rfl⟩ := h
  have hsteps : (List.replicate steps CommandRoute.execute).count route = 0 := by
    rw [List.count_replicate]
    simp [hroute.symm]
  rw [List.count_append, List.count_append, hsteps]
  cases route <;> cases decided <;> cases advanced <;> simp_all [opening]

/-! ### Neighbouring records -/

/-- The record of an execute step with this coordinator status. -/
def Record.Executed (r : Record) (status : String) : Prop :=
  r.routeId = .execute ∧ ∃ runId runStatus coordinatorStatus effects activityId,
    r.response = .execute runId runStatus coordinatorStatus effects activityId ∧
      coordinatorStatus.text = status

/-- The record of the last execute step of a run that succeeded. -/
def Record.Completed (r : Record) : Prop :=
  r.routeId = .execute ∧ ∃ runId runStatus coordinatorStatus effects activityId,
    r.response = .execute runId runStatus coordinatorStatus effects activityId ∧
      coordinatorStatus.text = "completed" ∧ runStatus.text = "succeeded"

/-- A history that has led to the phase executed ends with a completed step. -/
theorem tracePhase_executed {h : List Record} (ht : tracePhase h = some .executed) :
    ∃ h' r, h = h' ++ [r] ∧ r.Completed := by
  induction h using List.reverseRecOn with
  | nil => cases ht
  | append_singleton h r _ =>
    obtain ⟨before, -, hr⟩ := tracePhase_concat.mp ht
    obtain ⟨hroute, hcons, -, hphase⟩ := after_eq_some.mp hr
    refine ⟨h, r, rfl, ?_⟩
    cases hresp : r.response with
    | execute runId runStatus coordinatorStatus effects activityId =>
      rw [hresp] at hroute hphase hcons
      simp only [Projection.phase] at hphase
      have hcompleted : coordinatorStatus.text = "completed" := by
        by_contra hne
        rw [if_neg hne] at hphase
        split at hphase <;> cases hphase
      exact ⟨hroute.symm, _, _, _, _, _, hresp, hcompleted, hcons hcompleted⟩
    | _ => rw [hresp] at hphase; cases hphase

/-- An advancement directly follows a completed step. -/
theorem completed_before_advance {pre post : List Record} {r : Record} {phase : Phase}
    (ht : tracePhase (pre ++ r :: post) = some phase) (hr : r.routeId = .advance) :
    ∃ pre' r', pre = pre' ++ [r'] ∧ r'.Completed := by
  rw [List.append_cons] at ht
  obtain ⟨after, hpre, -⟩ := tracePhase_of_append ht
  obtain ⟨before, hb, hstep⟩ := tracePhase_concat.mp hpre
  obtain ⟨-, -, hphase, -⟩ := after_eq_some.mp hstep
  rw [hr] at hphase
  obtain rfl : before = .executed := by simpa [pendingPhases] using hphase
  exact tracePhase_executed hb

/-- Nothing follows a phase in which no command may be pending. -/
theorem foldlM_of_final {phase after : Phase} {h : List Record}
    (hfinal : ∀ route, phase ∉ pendingPhases route) (ht : h.foldlM Phase.after phase = some after) :
    h = [] := by
  cases h with
  | nil => rfl
  | cons r h =>
    obtain ⟨next, hnext, -⟩ := Option.bind_eq_some_iff.mp ht
    exact absurd (after_eq_some.mp hnext).2.2.1 (hfinal _)

theorem final_attentionRequired (route : CommandRoute) :
    Phase.attentionRequired ∉ pendingPhases route := by
  cases route <;> decide

theorem final_noChanges (route : CommandRoute) : Phase.noChanges ∉ pendingPhases route := by
  cases route <;> decide

theorem final_advanced (route : CommandRoute) : Phase.advanced ∉ pendingPhases route := by
  cases route <;> decide

theorem final_converged (route : CommandRoute) : Phase.converged ∉ pendingPhases route := by
  cases route <;> decide

/-- An execute step that another one follows has progressed. -/
theorem progressed_before_execute {pre post : List Record} {r r' : Record} {phase : Phase}
    (ht : tracePhase (pre ++ r :: post) = some phase) (hr : r.routeId = .execute)
    (hmem : r' ∈ post) (hr' : r'.routeId = .execute) : r.Executed "progressed" := by
  rw [List.append_cons] at ht
  obtain ⟨after, hpre, hpost⟩ := tracePhase_of_append ht
  obtain ⟨before, -, hstep⟩ := tracePhase_concat.mp hpre
  obtain ⟨hroute, -, -, hafter⟩ := after_eq_some.mp hstep
  rw [hr] at hroute
  cases hresp : r.response with
  | execute runId runStatus coordinatorStatus effects activityId =>
    refine ⟨hr, _, _, _, _, _, hresp, ?_⟩
    by_contra hne
    simp only [hresp, Projection.phase, if_neg hne] at hafter
    split at hafter
    · -- After a completed step only the advancement follows, and nothing follows that.
      subst hafter
      obtain ⟨r₁, post', rfl⟩ := List.exists_cons_of_ne_nil (List.ne_nil_of_mem hmem)
      obtain ⟨next, hnext, hrest⟩ := Option.bind_eq_some_iff.mp hpost
      obtain ⟨hroute₁, -, hphase₁, rfl⟩ := after_eq_some.mp hnext
      have hadvance : r₁.routeId = .advance := by
        cases hroute₂ : r₁.routeId <;> simp [hroute₂, pendingPhases] at hphase₁ ⊢
      have hphase := Projection.phase_mem_targets (hroute₁.trans hadvance)
      rw [List.mem_singleton.mp hphase] at hrest
      obtain rfl := foldlM_of_final final_advanced hrest
      obtain rfl := List.mem_singleton.mp hmem
      rw [hadvance] at hr'
      cases hr'
    · subst hafter
      obtain rfl := foldlM_of_final final_attentionRequired hpost
      cases hmem
  | _ => rw [hresp] at hroute; cases hroute

end Client

end ControlPlaneKit
