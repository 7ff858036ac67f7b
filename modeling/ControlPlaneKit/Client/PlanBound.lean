import ControlPlaneKit.Client.Guarantees
import ControlPlaneKit.Interaction.Section

/-!
# Commands are bound to the plan

What an invocation does once it has the lock of an operation it may account for (`Accounts`): an
invocation of `apply` by the terms of the journal it found, the others without any decision or
effect. With the sections of a pool this holds of every command of every interleaving, and a
decision that is replayed is traced back to the invocation that made it pending (`Sanctioned`).
-/

namespace ControlPlaneKit

namespace Client

open Interaction

section Accounts

variable {rt : Runtime} {docs : Set (List UInt8)} {ref : OperationRef}

/-- From the lock on, `q` keeps to terms: those of an `apply` with these arguments, or none. -/
def Accounts (rt : Runtime) (docs : Set (List UInt8)) (arguments : Option ApplyArguments)
    (ref : OperationRef) (q : Invocation) : Prop :=
  ∀ w, WorldInv rt docs ref w → ∃ T : Terms, ∃ Q,
    (T = .none ∨ ∃ args j₀, arguments = some args ∧ w.journal = some j₀ ∧
      T = applyTerms rt docs args j₀) ∧
    Meets (answers docs ref) (T.guarantee rt docs ref) q Q [] w

/-- Whatever lock is granted first, what follows satisfies `P`. -/
def Entering (P : OperationRef → Invocation → Prop) (p : Invocation) : Prop :=
  ∀ ref q, Enters grants ref p q → P ref q

variable {P : OperationRef → Invocation → Prop}

theorem Entering.reads {α : Type} {p : Block α} {f : α → Block ClientResult}
    (hp : p.Uses Op.Neutral) (hf : ∀ a, Entering P (conclude (f a))) :
    Entering P (conclude (p >>= f)) := by
  intro ref q henters
  obtain ⟨a, ha⟩ := Enters.of_bind_handle (fun _ a hop => hop.grants a) hp
    (fun e he => by cases e <;> cases he) henters
  exact hf a ref q ha

theorem Entering.lock {f : Unit → Block ClientResult} (hf : P ref (conclude (f ()))) :
    Entering P (conclude (mutationLock ref >>= f)) := by
  intro k q henters
  cases henters with
  | granted op next a hgrant =>
    cases a with
    | acquired =>
      obtain rfl : ref = k := Option.some.inj hgrant
      exact hf
    | refused message => cases hgrant
  | later op next a hnone henters =>
    cases a with
    | acquired => cases hnone
    | refused message => cases henters

theorem Entering.raise {e : ClientError} : Entering P (conclude (Client.raise e)) := by
  intro ref q henters
  cases henters

theorem Entering.of_neutral {p : Invocation} (hp : p.Uses Op.Neutral) : Entering P p :=
  fun _ _ henters => absurd henters (Enters.not_of_uses (fun _ a hop => hop.grants a) hp)

/-- A block that abides by the protocol whatever its terms are causes nothing restricted. -/
theorem Accounts.none {p : Block ClientResult} {arguments : Option ApplyArguments}
    {E : Trace → World → ClientResult → Prop}
    (hp : ∀ w, Abides rt docs ref .none E p E [] w) :
    Accounts rt docs arguments ref (conclude p) :=
  fun w hw => ⟨.none, _, .inl rfl, (hp w).conclude hw⟩

theorem Accounts.apply {profile : ClientProfile} {args : ApplyArguments} :
    Accounts rt docs (some args) ref (conclude (applyLocked rt profile ref args)) := by
  intro w hw
  cases hj : w.journal with
  | none =>
    exact ⟨.none, _, .inl rfl,
      (applyLocked_abides_none (E := fun _ _ _ => True) (h := []) hj).conclude hw⟩
  | some j₀ =>
    exact ⟨_, _, .inr ⟨args, j₀, rfl, rfl, rfl⟩,
      (applyLocked_abides (h := []) hj rfl (by simp [Quiet])).conclude hw⟩

theorem entering_apply (profile : ClientProfile) (reference : Text) (args : ApplyArguments) :
    Entering (Accounts rt docs (some args)) (apply rt profile reference args) := by
  refine Entering.reads (Reads.lift _).neutral fun ref => ?_
  split
  · exact Entering.raise
  · exact Entering.lock Accounts.apply

theorem entering_resumePrepare (profile : ClientProfile) (reference : Text) :
    Entering (Accounts rt docs none) (resumePrepare rt profile reference) :=
  Entering.reads (Reads.lift _).neutral fun _ => Entering.lock (Accounts.none fun _ =>
    Abides.resumeLocked (E := fun _ _ _ => True) (fun _ _ _ => trivial) fun _ _ _ => trivial)

/-- `plan` reads the desired graph, a reference and the workspace before it takes the lock. -/
theorem entering_plan (profile : ClientProfile) (desiredPath title : Text) :
    Entering (Accounts rt Set.univ none) (plan rt profile desiredPath title) := by
  intro ref q henters
  unfold plan readDesired at henters
  cases henters with
  | granted op next a hgrant => cases hgrant
  | later op next a hnone henters =>
    revert henters
    suffices hrest : Entering (Accounts rt Set.univ none) _ from hrest ref q
    cases a with
    | unavailable => exact Entering.raise
    | invalid => exact Entering.raise
    | valueError => exact Entering.raise
    | content absolute raw =>
      dsimp only
      split
      · exact Entering.raise
      split
      · exact Entering.raise
      swap
      · exact Entering.raise
      rename_i desired hload
      have hread : (Program.perform .identity fun value => .pure value : Block Text).Uses
          Op.Neutral :=
        ⟨trivial, fun _ => trivial⟩
      rw [Program.bind]
      refine Entering.reads hread fun reference => Entering.reads (Reads.lift _).neutral
        fun ref => Entering.reads (reads_readWorkspace profile _).neutral fun workspace =>
          Entering.reads (Reads.lift _).neutral fun current => ?_
      cases current with
      | none => exact Entering.raise
      | some current =>
        refine Entering.reads (Reads.lift _).neutral fun expected => Entering.reads
          (Reads.lift _).neutral fun revision => Entering.reads (Reads.lift _).neutral
            fun title => Entering.reads reads_newKey.neutral fun key => Entering.lock ?_
        exact Accounts.none fun _ => Abides.planLocked (E := fun _ _ _ => True) trivial hload rfl
          rfl (fun _ _ _ => trivial) fun _ _ _ => trivial

/-- Every invocation accounts for what it does under the lock, and only `apply` has terms. -/
theorem IsInvocation.accounts {p : Invocation} (hp : IsInvocation rt p) :
    (∃ profile reference args, p = Client.apply rt profile reference args) ∨
      Entering (Accounts rt Set.univ none) p := by
  cases hp with
  | plan profile desiredPath title => exact .inr (entering_plan profile desiredPath title)
  | resumePrepare profile reference => exact .inr (entering_resumePrepare profile reference)
  | apply profile reference args => exact .inl ⟨profile, reference, args, rfl⟩
  | status profile reference => exact .inr (.of_neutral (reads_status rt profile reference))

end Accounts

section Directories

variable {rt : Runtime} {ref : OperationRef}

/-- The process `i` took the lock of `ref` at `b` to apply with `args`, found `j₀` there, and has
done `tr` since. -/
structure Applying (rt : Runtime) (ref : OperationRef) (i : ℕ) (args : ApplyArguments)
    (j₀ : Journal) (tr : Trace) (b c : Directory) : Prop where
  reachable : Directory.Reachable rt Set.univ b
  owner : b.owner ref = some i
  entered : ∃ profile reference q, Enters grants ref (apply rt profile reference args) q ∧
    b.process i = some q
  found : (b.state ref).journal = some j₀
  did : Pool.Section (answers Set.univ) grants (IsInvocation rt) i b tr c

/-- The request was made pending by an invocation that was given the flag for it. -/
def Sanctioned (rt : Runtime) (ref : OperationRef) (p : Pending) (c : Directory) : Prop :=
  ∃ i args j₀ tr b c' d e j, Applying rt ref i args j₀ tr b c' ∧
    Directory.Step rt Set.univ c' i (some e) d ∧ e.op = .write ref j ∧
    j.pendingRequest = some p ∧ FlagPassed args j₀ tr ∧ Directory.Reaches rt Set.univ d c

theorem Sanctioned.extend {p : Pending} {c d : Directory} (hp : Sanctioned rt ref p c)
    (h : Directory.Reaches rt Set.univ c d) : Sanctioned rt ref p d := by
  obtain ⟨i, args, j₀, tr, b, c', d', e, j, happlying, hstep, hop, hj, hflag, hreach⟩ := hp
  exact ⟨i, args, j₀, tr, b, c', d', e, j, happlying, hstep, hop, hj, hflag, hreach.trans h⟩

/-- Every pending decision was made pending by an invocation that was given the flag for it. -/
def DecisionsSanctioned (rt : Runtime) (c : Directory) : Prop :=
  ∀ ref j p, (c.state ref).journal = some j → j.pendingRequest = some p → p.routeId = .decide →
    Sanctioned rt ref p c

/-- What is tracked of a directory. -/
abbrev Directory.Tracked (rt : Runtime) (c : Directory) : Prop :=
  Pool.Tracked (answers Set.univ) grants (IsInvocation rt) (DecisionsSanctioned rt)
    (fun _ => World.empty) c

/-- A restricted operation under a lock comes from an `apply`, whose terms allow it. -/
theorem Directory.Tracked.restricted {c d : Directory} {i : ℕ} {e : Event Op Op.Answer}
    (hc : Directory.Reachable rt Set.univ c) (ht : Directory.Tracked rt c)
    (hstep : Directory.Step rt Set.univ c i (some e) d) (hk : c.owner ref = some i)
    (hrestricted : Restricted e) :
    ∃ args j₀ tr b, Applying rt ref i args j₀ tr b c ∧ DecisionsSanctioned rt b ∧
      owned ref e.op ∧ (applyTerms rt Set.univ args j₀).allows tr e := by
  have hsafe := Directory.Reaches.safe Directory.safe_initial hc
  obtain ⟨b, q, tr, hb, hJ, hwithin⟩ := ht.inside ref i hk
  have hsafeb := Directory.Reaches.safe Directory.safe_initial hb
  obtain ⟨-, r, hr, hexec⟩ := hwithin.section_.exec (fun _ _ _ _ hw hlawful => hlawful.inv hw)
    owned_frame (fun _ hp => hp.disciplined) hsafeb hwithin.owner hwithin.process
  obtain ⟨-, next, hnext, -, hM⟩ := hsafe.own_step (fun _ _ _ _ hw hlawful => hlawful.inv hw)
    owned_frame hk hstep
  obtain rfl : r = .perform e.op next := Option.some.inj (hr.symm.trans hnext)
  have hrun := hexec [e] _ none (.performed hM (.stopped _ _))
  obtain ⟨p, hp, henters⟩ := hwithin.origin
  have hevent : ∀ {T : Terms} {Q}, Meets (answers Set.univ ref) (T.guarantee rt Set.univ ref) q Q
      [] (b.state ref) → owned ref e.op ∧ T.allows tr e := by
    intro T Q hmeets
    obtain ⟨_, _, -, -, howned, hallows⟩ := hmeets.event hrun rfl
    exact ⟨howned, by simpa using hallows⟩
  rcases hp.accounts with ⟨profile, reference, args, rfl⟩ | haccounts
  · obtain ⟨T, Q, hT, hmeets⟩ := entering_apply profile reference args ref q henters _
      (hsafeb.state ref)
    obtain ⟨howned, hallows⟩ := hevent hmeets
    rcases hT with rfl | ⟨args', j₀, hargs, hj₀, rfl⟩
    · exact absurd hrestricted hallows
    · obtain rfl := Option.some.inj hargs
      exact ⟨args, j₀, tr, b, ⟨hb, hwithin.owner, ⟨profile, reference, q, henters,
        hwithin.process⟩, hj₀, hwithin.section_⟩, hJ, howned, hallows⟩
  · obtain ⟨T, Q, hT, hmeets⟩ := haccounts ref q henters _ (hsafeb.state ref)
    obtain ⟨-, hallows⟩ := hevent hmeets
    rcases hT with rfl | ⟨args', j₀, hargs, -⟩
    · exact absurd hrestricted hallows
    · cases hargs

/-- A command changes the world of its operation, so that only the owner of a lock sends one. -/
theorem Directory.Reachable.owner_of_command {c d : Directory} {i : ℕ} {call : Call}
    {a : CallAnswer} (hc : Directory.Reachable rt Set.univ c)
    (hstep : Directory.Step rt Set.univ c i (some ⟨.call call, a⟩) d)
    (hcommand : call.route.isRead = false) : ∃ ref, c.owner ref = some i := by
  have hsafe := Directory.Reaches.safe Directory.safe_initial hc
  by_contra hout
  have hnone : ∀ ref, c.owner ref ≠ some i := fun ref hk => hout ⟨ref, hk⟩
  have hmoved : ∀ s : OperationRef → World,
      Semantics.product (answers Set.univ) c.state (.call call) a s → s ≠ c.state := by
    intro s hs heq
    have hdispatch := hs call.operationRef
    rw [heq] at hdispatch
    simp only [answers, hcommand, Bool.not_false, and_self, if_true] at hdispatch
    have hlength := congrArg (fun w => w.dispatched.length) hdispatch
    simp [World.dispatch] at hlength
  cases hstep with
  | act op next _ s hi hs hgrant => exact hmoved s hs (hsafe.act_outside hnone hi hs).1
  | acquire op next _ s k hi hs hgrant hfree => cases hgrant

/-- An operation of a process that does not own the lock leaves the world alone. -/
theorem Directory.Reachable.unowned {c d : Directory} {i : ℕ} {label : Option (Event Op Op.Answer)}
    (hc : Directory.Reachable rt Set.univ c) (hstep : Directory.Step rt Set.univ c i label d)
    (hk : c.owner ref ≠ some i) : d.state ref = c.state ref := by
  have hsafe := Directory.Reaches.safe Directory.safe_initial hc
  have hsame : ∀ {op : Op} {next : op.Answer → Invocation} {a : op.Answer}
      {s : OperationRef → World}, c.process i = some (.perform op next) →
        Semantics.product (answers Set.univ) c.state op a s → s ref = c.state ref := by
    intro op next a s hi hs
    by_cases hout : ∃ k, c.owner k = some i
    · obtain ⟨k, hk'⟩ := hout
      have hne : ref ≠ k := by
        rintro rfl
        exact hk hk'
      obtain ⟨Q, h, hmeets⟩ := hsafe.inside k i _ hk' hi
      obtain ⟨⟨-, howned⟩, -⟩ := hmeets a (s k) (hs k)
      exact ((owned_frame k op a howned).2 ref hne _ _ (hsafe.state ref) (hs ref)).1
    · obtain ⟨rfl, -⟩ := hsafe.act_outside (fun k hk' => hout ⟨k, hk'⟩) hi hs
      rfl
  cases hstep with
  | start => rfl
  | act op next a s hi hs hgrant => exact hsame hi hs
  | acquire op next a s k hi hs hgrant hfree => exact hsame hi hs
  | leave => rfl

/-- A journal with a pending request is written by the owner of its lock. -/
theorem Directory.Reachable.stored {c d : Directory} {i : ℕ} {label : Option (Event Op Op.Answer)}
    {j : Journal} (hc : Directory.Reachable rt Set.univ c)
    (hstep : Directory.Step rt Set.univ c i label d) (hj : (d.state ref).journal = some j)
    (hchanged : (c.state ref).journal ≠ some j) (hpending : j.pendingRequest ≠ none) :
    ∃ e, label = some e ∧ c.owner ref = some i ∧ e.op = .write ref j := by
  have howner : c.owner ref = some i := by
    by_contra hk
    rw [Directory.Reachable.unowned hc hstep hk] at hj
    exact hchanged hj
  cases label with
  | none =>
    have hsame : d.state = c.state := by cases hstep <;> rfl
    rw [hsame] at hj
    exact absurd hj hchanged
  | some e =>
    refine ⟨e, rfl, howner, ?_⟩
    -- only a write of this operation changes the journal to one with a request pending
    have hlawful := Directory.Reachable.lawful hc hstep ref
    have hmoved : d.state ref ≠ c.state ref := by
      intro heq
      rw [heq] at hj
      exact hchanged hj
    obtain ⟨op, a⟩ := e
    cases op with
    | create r j' =>
      simp only [Lawful] at hlawful
      split at hlawful
      · rcases hlawful with heq | ⟨-, hcreated, heq⟩
        · exact absurd heq hmoved
        · rw [heq] at hj
          obtain rfl : j' = j := Option.some.inj hj
          exact absurd hcreated.pending hpending
      · exact absurd hlawful hmoved
    | write r j' =>
      simp only [Lawful] at hlawful
      split at hlawful
      · rename_i hr
        subst hr
        rcases hlawful with heq | ⟨_, -, -, heq⟩
        · exact absurd heq hmoved
        · rw [heq] at hj
          obtain rfl : j' = j := Option.some.inj hj
          rfl
      · exact absurd hlawful hmoved
    | call call =>
      simp only [Lawful] at hlawful
      split at hlawful
      · rw [hlawful.2] at hj
        exact absurd hj hchanged
      · exact absurd hlawful hmoved
    | _ => exact absurd hlawful hmoved

/-- Every pending decision of a reachable directory was persisted with its flag. -/
theorem Directory.Reachable.tracked {c : Directory} (hc : Directory.Reachable rt Set.univ c) :
    DecisionsSanctioned rt c ∧ Directory.Tracked rt c := by
  refine Pool.Reaches.sections (fun _ _ _ _ hw hlawful => hlawful.inv hw) owned_frame
    (fun _ hp => hp.disciplined) (fun _ => WorldInv.empty) ?_ ?_ hc
  · intro ref j p hj
    cases hj
  · intro c d i label hc hJ ht hstep ref j p hj hp hroute
    have hreach : Directory.Reaches rt Set.univ c d := .tail .refl hstep
    by_cases hsame : (c.state ref).journal = some j
    · exact (hJ ref j p hsame hp hroute).extend hreach
    · obtain ⟨e, rfl, howner, hop⟩ :=
        Directory.Reachable.stored hc hstep hj hsame (by rw [hp]; exact nofun)
      have hrestricted : Restricted e := by
        rw [Restricted, hop]
        exact ⟨p, hp, hroute⟩
      obtain ⟨args, j₀, tr, b, happlying, hJb, -, hallows⟩ :=
        Directory.Tracked.restricted hc ht hstep howner hrestricted
      have hallows : FlagPassed args j₀ tr ∨ j₀.pendingRequest = some p := by
        obtain ⟨op, a⟩ := e
        subst hop
        exact hallows p hp hroute
      rcases hallows with hflag | hloaded
      · exact ⟨i, args, j₀, tr, b, c, d, e, j, happlying, hstep, hop, hp, hflag, .refl⟩
      · -- the decision was pending when the lock was taken
        have hpersisted := hJb ref j₀ p happlying.found hloaded hroute
        exact hpersisted.extend (happlying.did.reaches.trans hreach)

/-- **Commands are bound to the plan.** A command that is no preparation is sent by an `apply`
under the lock of its operation. Before an effect the same invocation has confirmed the plan of
the journal and its approval. A decision is sent by an invocation that was given the flag for it,
or it replays a pending one that such an invocation has persisted. -/
theorem Directory.Reachable.planBound {c d : Directory} {i : ℕ} {call : Call} {a : CallAnswer}
    {route : CommandRoute} (hc : Directory.Reachable rt Set.univ c)
    (hstep : Directory.Step rt Set.univ c i (some ⟨.call call, a⟩) d)
    (hroute : call.route = .command route) (hprepare : route ≠ .prepare) :
    ∃ args j₀ tr b, Applying rt call.operationRef i args j₀ tr b c ∧
      (route.isEffect = true → Authorized args j₀ tr) ∧
      (route = .decide → FlagPassed args j₀ tr ∨ ∃ p, j₀.pendingRequest = some p ∧
        p.routeId = .decide ∧ Matches rt Set.univ p call ∧
          Sanctioned rt call.operationRef p b) := by
  have hcommand : call.route.isRead = false := by rw [hroute]; rfl
  obtain ⟨-, ht⟩ := Directory.Reachable.tracked hc
  obtain ⟨ref, hk⟩ := Directory.Reachable.owner_of_command hc hstep hcommand
  obtain ⟨args, j₀, tr, b, happlying, hJb, howned, hallows⟩ :=
    Directory.Tracked.restricted hc ht hstep hk ⟨route, hroute, hprepare⟩
  obtain rfl : call.operationRef = ref := by
    rcases howned with hread | href
    · rw [hcommand] at hread
      cases hread
    · exact href
  obtain ⟨hdecide, heffect⟩ := hallows route hroute
  refine ⟨args, j₀, tr, b, happlying, fun h => (heffect h).1, fun h => ?_⟩
  rcases hdecide h with hflag | ⟨p, hp, hmatches⟩
  · exact .inl hflag
  · have hpdecide : p.routeId = .decide := by
      have heq := hmatches.route
      rw [hroute, h] at heq
      exact (Route.command.inj heq).symm
    exact .inr ⟨p, hp, hpdecide, hmatches, hJb _ j₀ p happlying.found hp hpdecide⟩

/-- A run with some contents of the desired graph file is a run with any content. -/
theorem Directory.Step.widen {docs : Set (List UInt8)} {c d : Directory} {i : ℕ}
    {label : Option (Event Op Op.Answer)} (h : Directory.Step rt docs c i label d) :
    Directory.Step rt Set.univ c i label d := by
  have hanswers : ∀ {s s' : OperationRef → World} {op : Op} {a : op.Answer},
      Semantics.product (answers docs) s op a s' →
        Semantics.product (answers Set.univ) s op a s' := by
    intro s s' op a hs k
    cases op with
    | openDesired path => exact ⟨(hs k).1, fun _ _ _ => trivial, (hs k).2.2⟩
    | _ => exact hs k
  cases h with
  | start p hi hp => exact .start c i p hi hp
  | act op next a s hi hs hgrant => exact .act c i op next a s hi (hanswers hs) hgrant
  | acquire op next a s k hi hs hgrant hfree =>
    exact .acquire c i op next a s k hi (hanswers hs) hgrant hfree
  | leave => exact .leave c i

theorem Directory.Reaches.widen {docs : Set (List UInt8)} {c d : Directory}
    (h : Directory.Reaches rt docs c d) : Directory.Reaches rt Set.univ c d := by
  induction h with
  | refl => exact .refl
  | tail _ hstep ih => exact ih.tail (Directory.Step.widen hstep)

end Directories

open Instance in
/-- The claim of a run: the invocation has confirmed the plan and its approval. -/
theorem planBound_claim : ∃ c d e call, Directory.Reachable runtime Set.univ c ∧
    Directory.Step runtime Set.univ c 0 (some e) d ∧ e.op = .call call ∧
    call.route = .command .claim ∧ ∃ args j₀ tr b,
      Applying runtime call.operationRef 0 args j₀ tr b c ∧ Authorized args j₀ tr := by
  obtain ⟨c, d, hc, hstep⟩ := claim_step
  have hc' := Directory.Reaches.widen hc
  have hstep' := Directory.Step.widen hstep
  obtain ⟨args, j₀, tr, b, happlying, heffect, -⟩ :=
    Directory.Reachable.planBound hc' hstep' rfl (by decide)
  exact ⟨c, d, _, _, hc', hstep', rfl, rfl, args, j₀, tr, b, happlying, heffect rfl⟩

end Client

end ControlPlaneKit
