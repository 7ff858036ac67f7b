import ControlPlaneKit.Client.ApplyCommands

/-!
# The clients keep the discipline of the locks

Every invocation reads at most until it has taken the lock of its operation, and abides by the
protocol from there on. With the run lemmas for processes that share locked objects this gives
the invariant of every operation in every directory that can be reached, and the lawfulness of
every single operation of every interleaving.
-/

namespace ControlPlaneKit

namespace Client

open Interaction

section Discipline

variable {rt : Runtime} {docs : Set (List UInt8)} {ref : OperationRef} {T : Terms}
  {profile : ClientProfile}

/-- A program that keeps the discipline, from outside every lock. -/
abbrev Disciplined (rt : Runtime) (docs : Set (List UInt8)) (p : Invocation) : Prop :=
  Outside (answers docs) (Lawful rt docs) (WorldInv rt docs) grants owned p

/-- Reads may come at any time. -/
theorem Op.Neutral.leaves {op : Op} {a : op.Answer} (hop : op.Neutral) :
    Client.grants op a = none ∧ ∀ ref w w', WorldInv rt docs ref w → answers docs ref w op a w' →
      w' = w ∧ Lawful rt docs ref w ⟨op, a⟩ w' :=
  ⟨hop.grants a, fun _ _ _ _ hstep => hop.lawful hstep⟩

/-- An invocation that abides by the protocol meets the guarantee, and its results satisfy the exit
condition. -/
theorem Abides.conclude {E : Trace → World → ClientResult → Prop} {p : Block ClientResult}
    {h : Trace} {w : World} (hp : Abides rt docs ref T E p E h w) (hw : WorldInv rt docs ref w) :
    Meets (answers docs ref) (T.guarantee rt docs ref) (Client.conclude p)
      (fun h w r => ∀ result, r = .ok result → E h w result) h w := by
  unfold Client.conclude
  rw [meets_handle]
  refine (hp hw).post fun h w r hr => ?_
  rcases r with (_ | returned) | result
  · exact fun _ => nofun
  · rintro result ⟨⟩
    exact hr.2
  · rintro result ⟨⟩
    exact hr.2

/-- A block that abides by the protocol may run inside the lock. -/
theorem Abides.inside {E : Trace → World → ClientResult → Prop} {p : Block ClientResult}
    {h : Trace} {w : World} (hp : Abides rt docs ref T E p E h w) (hw : WorldInv rt docs ref w) :
    Inside (answers docs) (Lawful rt docs) owned ref (Client.conclude p) w :=
  ⟨_, h, (hp.conclude hw).mono (fun _ _ _ _ _ hg => ⟨hg.1, hg.2.1⟩) fun _ _ _ hr => hr⟩

/-- What runs once the lock is taken runs inside it. -/
theorem disciplined_lock {f : Unit → Block ClientResult}
    (hf : ∀ w, WorldInv rt docs ref w →
      Inside (answers docs) (Lawful rt docs) owned ref (conclude (f ())) w) :
    Disciplined rt docs (conclude (mutationLock ref >>= f)) := by
  intro a s s' _ hstep
  refine ⟨fun k => ⟨hstep k, hstep k⟩, fun hnone => ?_, fun k hk w hw => ?_⟩
  · cases a with
    | acquired => cases hnone
    | refused message => trivial
  · cases a with
    | acquired =>
      obtain rfl : ref = k := Option.some.inj hk
      exact hf w hw
    | refused message => cases hk

/-- What reads before it goes on is disciplined if the rest is. -/
theorem disciplined_reads {α : Type} {p : Block α} {f : α → Block ClientResult}
    (hp : p.Uses Op.Neutral) (hf : ∀ a, Disciplined rt docs (conclude (f a))) :
    Disciplined rt docs (conclude (p >>= f)) :=
  Outside.bind_handle (fun _ _ hop => hop.leaves) hp hf fun e => by cases e <;> trivial

theorem disciplined_status (reference : Text) : Disciplined rt docs (status rt profile reference) :=
  Outside.of_uses (fun _ _ hop => hop.leaves) (reads_status rt profile reference)

theorem disciplined_resumePrepare (reference : Text) :
    Disciplined rt docs (resumePrepare rt profile reference) :=
  disciplined_reads (Reads.lift _).neutral fun _ => disciplined_lock fun _ hw =>
    (Abides.resumeLocked (T := .any) (E := fun _ _ _ => True) (h := [])
      (fun _ _ _ => trivial) fun _ _ _ => trivial).inside hw

/-- The invocation runs under the terms of the journal it finds, whatever happened before it took
the lock. -/
theorem applyLocked_abides {args : ApplyArguments} {h : Trace} {w : World} {j₀ : Journal}
    (hj : w.journal = some j₀) (hunsent : commands h = 0) (hquiet : Quiet .planRuns h) :
    Abides rt docs ref (applyTerms rt docs args j₀) (ApplyEnd rt docs args j₀)
      (applyLocked rt profile ref args) (ApplyEnd rt docs args j₀) h w := by
  refine .bind (.load fun j hholds => ?_)
  obtain rfl : j = j₀ := Option.some.inj (hholds.durable.symm.trans hj)
  refine .applyLocked hholds ?_ (hquiet.append ?_) fun _ _ _ hend => hend
  · rw [commands_append, hunsent]
    rfl
  · intro e he hread
    obtain rfl := List.mem_singleton.mp he
    obtain ⟨call, hcall, -⟩ := hread
    cases hcall

/-- Without a journal the invocation ends with an exception. -/
theorem applyLocked_abides_none {E : Trace → World → ClientResult → Prop} {args : ApplyArguments}
    {h : Trace} {w : World} (hj : w.journal = none) :
    Abides rt docs ref T E (applyLocked rt profile ref args) E h w := by
  refine .bind (.load fun j hholds => ?_)
  cases hholds.durable.symm.trans hj

theorem disciplined_apply (reference : Text) (args : ApplyArguments) :
    Disciplined rt docs (apply rt profile reference args) := by
  refine disciplined_reads (Reads.lift _).neutral fun ref => ?_
  split
  · trivial
  · refine disciplined_lock fun w hw => ?_
    cases hj : w.journal with
    | none => exact (applyLocked_abides_none (T := .any) (E := fun _ _ _ => True) (h := []) hj).inside hw
    | some j₀ => exact (applyLocked_abides (h := []) hj rfl (by simp [Quiet])).inside hw

/-- `plan` reads the desired graph, a reference and the workspace before it takes the lock. -/
theorem disciplined_plan (desiredPath title : Text) :
    Disciplined rt docs (plan rt profile desiredPath title) := by
  unfold plan readDesired
  intro a s s' _ hstep
  have hneutral : Op.Neutral (.openDesired desiredPath) := trivial
  refine ⟨fun k => (hneutral.lawful (hstep k)), fun _ => ?_, fun k hk => by cases hk⟩
  cases a with
  | unavailable => trivial
  | invalid => trivial
  | valueError => trivial
  | content absolute raw =>
    dsimp only
    split
    · trivial
    split
    · trivial
    swap
    · trivial
    rename_i desired hload
    have hread : (Program.perform .identity fun value => .pure value : Block Text).Uses Op.Neutral :=
      ⟨trivial, fun _ => trivial⟩
    rw [Program.bind]
    refine disciplined_reads hread fun reference => disciplined_reads (Reads.lift _).neutral
      fun ref => disciplined_reads (reads_readWorkspace profile _).neutral fun workspace =>
        disciplined_reads (Reads.lift _).neutral fun current => ?_
    cases current with
    | none => trivial
    | some current =>
      refine disciplined_reads (Reads.lift _).neutral fun expected => disciplined_reads
        (Reads.lift _).neutral fun revision => disciplined_reads (Reads.lift _).neutral
          fun title => disciplined_reads reads_newKey.neutral fun key => disciplined_lock
            fun w hw => ?_
      have hraw : raw ∈ docs := (hstep ref).2.1 absolute raw rfl
      exact (Abides.planLocked (T := .any) (E := fun _ _ _ => True) (h := []) hraw hload rfl rfl
        (fun _ _ _ => trivial) fun _ _ _ => trivial).inside hw

/-! ### Runs of one invocation -/

/-- `apply` meets what its locked part abides by, and calls for its own operation only. -/
theorem apply_meets {args : ApplyArguments} {reference : Text} {w : World}
    {E : Trace → World → ClientResult → Prop}
    (hlocked : ∀ h, commands h = 0 → Quiet .planRuns h →
      Abides rt docs ref T E (applyLocked rt profile ref args) E h w)
    (hw : WorldInv rt docs ref w) (href : canonicalOperationRef reference = .ok ref) :
    Meets (answers docs ref) (fun h w e w' => Lawful rt docs ref w e w' ∧
        (∀ call, e.op = .call call → owned ref e.op) ∧ T.allows h e)
      (apply rt profile reference args) (fun h w r => ∀ result, r = .ok result → E h w result)
      [] w := by
  unfold apply
  rw [href]
  by_cases hempty : args.executePlan = .utf8 ""
  · simp only [hempty, if_true]
    exact fun _ => nofun
  · simp only [hempty, if_false]
    intro a w' hstep
    obtain rfl : w' = w := hstep
    refine ⟨⟨rfl, nofun, T.free _ _ id⟩, ?_⟩
    cases a with
    | refused message => exact fun _ => nofun
    | acquired =>
      refine ((hlocked _ rfl ?_).conclude hw).mono
        (fun _ _ _ _ _ hg => ⟨hg.1, fun _ _ => hg.2.1, hg.2.2⟩) fun _ _ _ hr => hr
      intro e he hread
      obtain rfl := List.mem_singleton.mp he
      obtain ⟨call, hcall, -⟩ := hread
      cases hcall

/-- The terms that allow nothing restricted. -/
def Terms.none : Terms :=
  ⟨fun _ e => ¬ Restricted e, fun _ _ h => h⟩

/-- **A run of `apply`** keeps the invariant; what it causes is allowed by the terms of the journal
it found, and it returns a result only in one of the listed ways. -/
theorem apply_run {args : ApplyArguments} {reference : Text} {w w' : World} {tr : Trace}
    {out : Option (Except ClientError ClientResult)} (hw : WorldInv rt docs ref w)
    (href : canonicalOperationRef reference = .ok ref)
    (hrun : Exec (answers docs ref) w (apply rt profile reference args) tr w' out) :
    WorldInv rt docs ref w' ∧
      (∀ pre e post, tr = pre ++ e :: post → Restricted e → ∃ j₀, w.journal = some j₀ ∧
        (applyTerms rt docs args j₀).allows pre e) ∧
      ∀ result, out = some (.ok result) → ∃ j₀, w.journal = some j₀ ∧
        ApplyEnd rt docs args j₀ tr w' result := by
  cases hj : w.journal with
  | none =>
    have hmeets : Meets (answers docs ref) _ (apply rt profile reference args) _ [] w :=
      apply_meets (T := .none)
        (fun h _ _ => applyLocked_abides_none (E := fun _ _ _ => False) hj) hw href
    refine ⟨hmeets.invariant (fun _ _ _ _ hw hg => hg.1.inv hw) hw hrun, ?_, ?_⟩
    · intro pre e post htr hrestricted
      obtain ⟨_, _, -, -, -, hallowed⟩ := hmeets.event hrun htr
      exact absurd hrestricted hallowed
    · rintro result rfl
      exact (hmeets.outcome hrun result rfl).elim
  | some j₀ =>
    have hmeets : Meets (answers docs ref) _ (apply rt profile reference args) _ [] w :=
      apply_meets (fun h hunsent hquiet => applyLocked_abides hj hunsent hquiet) hw href
    refine ⟨hmeets.invariant (fun _ _ _ _ hw hg => hg.1.inv hw) hw hrun, ?_, ?_⟩
    · intro pre e post htr _
      obtain ⟨_, _, -, -, -, hallowed⟩ := hmeets.event hrun htr
      exact ⟨j₀, rfl, by simpa using hallowed⟩
    · rintro result rfl
      exact ⟨j₀, rfl, by simpa using hmeets.outcome hrun result rfl⟩

/-- **A command that `apply` dispatches** is pending in a phase of its route, to which the phase of
the journal it found leads. -/
theorem apply_dispatched {args : ApplyArguments} {reference : Text} {w w' : World}
    {tr pre post : Trace} {out : Option (Except ClientError ClientResult)} {j₀ : Journal} {call : Call}
    {a : CallAnswer} {route : CommandRoute} (hw : WorldInv rt docs ref w)
    (href : canonicalOperationRef reference = .ok ref) (hj : w.journal = some j₀)
    (hrun : Exec (answers docs ref) w (apply rt profile reference args) tr w' out)
    (htr : tr = pre ++ ⟨.call call, a⟩ :: post) (hroute : call.route = .command route) :
    ∃ phase ∈ pendingPhases route, j₀.phase.Leads phase := by
  have hmeets : Meets (answers docs ref) _ (apply rt profile reference args) _ [] w :=
    apply_meets (fun h hunsent hquiet => applyLocked_abides hj hunsent hquiet) hw href
  obtain ⟨w₁, w₂, ⟨hinv, hleads⟩, -, hlawful, howned, -⟩ := hmeets.event_of_invariant
    (I := fun v => WorldInv rt docs ref v ∧ w.Leads v)
    (fun _ _ _ _ hv hg => ⟨hg.1.inv hv.1, hv.2.trans (hg.1.leads hv.1)⟩) ⟨hw, .refl w⟩ hrun htr
  have hcommand : call.route.isRead = false := by
    rw [hroute]
    rfl
  have hown : call.operationRef = ref :=
    (howned call rfl).resolve_left (by rw [hcommand]; exact Bool.false_ne_true)
  simp only [Lawful, hown, hcommand, Bool.not_false, and_self, if_true] at hlawful
  obtain ⟨j, p, hj₁, hp, hmatch, -⟩ := hlawful.1
  obtain ⟨j', hj', hforward⟩ := hleads.1 j₀ hj
  obtain rfl : j = j' := Option.some.inj (hj₁.symm.trans hj')
  obtain rfl : p.routeId = route := Route.command.inj (hmatch.route.symm.trans hroute)
  exact ⟨j.phase, ((hinv.journal j hj₁).valid.pending p hp).phase, hforward.phase⟩

/-! ### The invariant of every directory -/

/-- Every invocation keeps the discipline. -/
theorem IsInvocation.disciplined {p : Invocation} (hp : IsInvocation rt p) :
    Disciplined rt docs p := by
  cases hp with
  | plan profile desiredPath title => exact disciplined_plan desiredPath title
  | resumePrepare profile reference => exact disciplined_resumePrepare reference
  | apply profile reference args => exact disciplined_apply reference args
  | status profile reference => exact disciplined_status reference

/-- A directory in which the clients have kept the discipline. -/
abbrev Directory.Safe (rt : Runtime) (docs : Set (List UInt8)) (c : Directory) : Prop :=
  Pool.Safe (answers docs) (Lawful rt docs) (WorldInv rt docs) grants owned c

theorem Directory.safe_initial : Directory.Safe rt docs Directory.initial :=
  .idle fun _ => .empty

theorem Directory.Reaches.safe {c d : Directory} (hc : Directory.Safe rt docs c)
    (h : Directory.Reaches rt docs c d) : Directory.Safe rt docs d :=
  Pool.Reaches.safe (fun _ _ _ _ hw hlawful => hlawful.inv hw) owned_frame
    (fun _ hp => hp.disciplined) hc h

/-- **The invariant of every operation holds in every reachable directory.** -/
theorem Reachable.inv {w : World} (h : Reachable rt docs ref w) : WorldInv rt docs ref w := by
  obtain ⟨c, hc, rfl⟩ := h
  exact (Directory.Reaches.safe Directory.safe_initial hc).state ref

/-- **Every operation of every interleaving is lawful**, for each of the journals of the
directory. -/
theorem Directory.Reachable.lawful {c d : Directory} {i : ℕ} {e : Event Op Op.Answer}
    (hc : Directory.Reachable rt docs c) (hstep : Directory.Step rt docs c i (some e) d)
    (ref : OperationRef) : Lawful rt docs ref (c.state ref) e (d.state ref) :=
  Pool.Reaches.guarantee (fun _ _ _ _ hw hlawful => hlawful.inv hw) owned_frame
    (fun _ hp => hp.disciplined) Directory.safe_initial hc hstep ref

/-- **Along every run the worlds of all operations move forward.** -/
theorem Directory.Reaches.leads {c d : Directory} (hc : Directory.Reachable rt docs c)
    (h : Directory.Reaches rt docs c d) (ref : OperationRef) :
    (c.state ref).Leads (d.state ref) := by
  refine (Pool.Reaches.relates (J := Directory.Reachable rt docs)
    (R := fun s s' => (s ref).Leads (s' ref)) (fun _ => .refl _) (fun _ _ _ h h' => h.trans h')
    (fun c d i label hc hstep => ⟨.tail hc hstep, ?_⟩) hc h).2
  have hinv : WorldInv rt docs ref (c.state ref) := Reachable.inv ⟨c, hc, rfl⟩
  cases label with
  | some e => exact (Directory.Reachable.lawful hc hstep ref).leads hinv
  | none =>
    cases hstep with
    | start => exact .refl _
    | leave => exact .refl _

end Discipline

end Client

end ControlPlaneKit
