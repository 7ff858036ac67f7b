import ControlPlaneKit.Client.ApplyRun

/-!
# The commands of apply

The second half of `apply`: the replay of a pending request, the decision, and the commands from
the admission to the read-back. A replay is allowed because the request is the loaded one, the
decision because its flag was passed, and every later command because all gates let it through.
`Abides.applyLocked` is the whole invocation inside its lock.
-/

namespace ControlPlaneKit

namespace Client

open Interaction

variable {rt : Runtime} {profile : ClientProfile} {docs : Set (List UInt8)} {ref : OperationRef}
  {args : ApplyArguments} {j₀ j : Journal} {planId : Coordinate} {plan : Fields} {h h' : Trace}
  {w : World} {α β : Type}

/-! ### What is allowed -/

/-- A decision that was answered after its flag was passed authorizes the rest. -/
theorem FlagPassed.authorized (hf : FlagPassed args j₀ h) {e : Event Op Op.Answer}
    (he : ShowsDecision e) (post : Trace) : Authorized args j₀ (h ++ e :: post) := by
  obtain ⟨planId, plan, approvalId, approval, destructive, hconfirmed, hid, ⟨e₀, he₀, hshown⟩,
    hconsistent, hstate, hdestructive, happrove⟩ := hf
  obtain ⟨pre, mid, rfl⟩ := List.append_of_mem he₀
  refine ⟨planId, plan, approvalId, approval, pre, e₀, mid ++ e :: post,
    hconfirmed.extend (List.prefix_append _ _), hid, by simp, hshown, hconsistent, .inr ⟨hstate, ?_⟩⟩
  exact ⟨⟨destructive, hdestructive, happrove⟩, e, by simp, he⟩

theorem ProgressPassed.extend (hp : ProgressPassed j₀ h) (hh : h <+: h') : ProgressPassed j₀ h' := by
  intro runId hid hnone
  obtain ⟨hphase, tr, execution, htr, hrest⟩ := hp runId hid hnone
  exact ⟨hphase, tr, execution, htr.trans hh.isInfix, hrest⟩

theorem PendingRecovered.extend (hp : PendingRecovered rt docs j₀ h) (hh : h <+: h') :
    PendingRecovered rt docs j₀ h' := by
  intro p hpending
  obtain ⟨call, response, hmem, hrest⟩ := hp p hpending
  exact ⟨call, response, hh.subset hmem, hrest⟩

theorem Cleared.extend (hc : Cleared rt docs args j₀ h) (hh : h <+: h') :
    Cleared rt docs args j₀ h' :=
  ⟨hc.authorized.extend hh, hc.progress.extend hh, hc.recovered.extend hh, hc.open_⟩

/-- Once every gate is passed, the effects are allowed. -/
theorem Cleared.permits (hc : Cleared rt docs args j₀ h) {route : CommandRoute}
    (hroute : route.isEffect = true) : (applyTerms rt docs args j₀).Permits route h := by
  intro h' hh e he
  obtain ⟨op, a⟩ := e
  cases op with
  | call call =>
    intro route' hcall
    obtain rfl : route' = route := Route.command.inj (hcall.symm.trans he)
    exact ⟨fun hdecide => (by rw [hdecide] at hroute; cases hroute),
      fun _ => ⟨hc.authorized.extend hh, .inr (hc.extend hh)⟩⟩
  | write r j =>
    intro p hp hdecide
    obtain ⟨q, hq, hqroute⟩ := he
    obtain rfl : p = q := Option.some.inj (hp.symm.trans hq)
    rw [← hqroute, hdecide] at hroute
    cases hroute
  | _ => trivial

/-- Once its flag was passed, the decision is allowed. -/
theorem FlagPassed.permits (hf : FlagPassed args j₀ h) :
    (applyTerms rt docs args j₀).Permits .decide h := by
  intro h' hh e he
  obtain ⟨op, a⟩ := e
  cases op with
  | call call =>
    intro route hcall
    obtain rfl : route = .decide := Route.command.inj (hcall.symm.trans he)
    exact ⟨fun _ => .inl (hf.extend hh), fun heffect => by cases heffect⟩
  | write r j => exact fun _ _ _ => .inl (hf.extend hh)
  | _ => trivial

/-- The loaded request may be replayed. -/
theorem applyTerms_replay {p : Pending} {call : Call} {a : CallAnswer}
    (hp : j₀.pendingRequest = some p) (hmatch : Matches rt docs p call)
    (hauthorized : p.routeId.isEffect = true → Authorized args j₀ h) :
    (applyTerms rt docs args j₀).allows h ⟨.call call, a⟩ := by
  intro route hcall
  obtain rfl : p.routeId = route := Route.command.inj (hmatch.route.symm.trans hcall)
  exact ⟨fun _ => .inr ⟨p, hp, hmatch⟩, fun heffect => ⟨hauthorized heffect, .inl ⟨p, hp, hmatch⟩⟩⟩

/-! ### Accepted answers -/

theorem responseIsBound_congr {route : CommandRoute} {response body : Fields} {path : PathParameters}
    {c c' : Coordinates} {workspaceId : Coordinate}
    (h : c.get .executionRequestId = c'.get .executionRequestId) :
    responseIsBound route response path body c workspaceId =
      responseIsBound route response path body c' workspaceId := by
  cases route <;> simp only [responseIsBound, h]

theorem bound_decide {response body : Fields} {path : PathParameters} {c : Coordinates}
    {workspaceId : Coordinate}
    (h : responseIsBound .decide response path body c workspaceId = .ok true) :
    response.get "state" = .str "approved" := by
  simp only [responseIsBound, Except.ok.injEq, Bool.and_eq_true] at h
  exact Json.pyEq_str.mp h.2

theorem bound_start {response body : Fields} {path : PathParameters} {c : Coordinates}
    {workspaceId : Coordinate}
    (h : responseIsBound .start response path body c workspaceId = .ok true) :
    response.get "run_status" = .str "running" := by
  simp only [responseIsBound, Except.ok.injEq, Bool.and_eq_true] at h
  exact Json.pyEq_str.mp h.1.2

/-- The run of an accepted completed step succeeded. -/
theorem bound_completed {response body : Fields} {path : PathParameters} {c : Coordinates}
    {workspaceId status : Coordinate}
    (h : responseIsBound .execute response path body c workspaceId = .ok true)
    (hstatus : response.get "coordinator_status" = status.json) (hcompleted : status.text = "completed") :
    response.get "run_status" = .str "succeeded" := by
  obtain ⟨-, effects, hexec⟩ := bound_execute h
  rw [hstatus, Coordinate.json, hcompleted] at hexec
  exact executeIsBound_completed hexec

theorem phaseAfter_ne_noChanges (route : CommandRoute) (response : Fields) :
    phaseAfter route response ≠ .noChanges := by
  cases route with
  | execute =>
    unfold phaseAfter
    dsimp only
    split
    · decide
    · split <;> decide
  | _ => exact Phase.noConfusion

theorem route_of_attention {route : CommandRoute} {response : Fields}
    (h : phaseAfter route response = .attentionRequired) : route = .execute := by
  cases route <;> first | rfl | cases h

/-! ### Replay -/

/-- What has become of the loaded request. -/
def Recovered (rt : Runtime) (docs : Set (List UInt8)) (j₀ : Journal) (h : Trace) (j : Journal) :
    Prop :=
  (j₀.pendingRequest = none ∧ j.phase = j₀.phase) ∨
    ∃ p pre call response e, j₀.pendingRequest = some p ∧
      h = pre ++ [⟨.call call, .reply response⟩, e] ∧ Matches rt docs p call ∧
        responseIsBound p.routeId response p.pathParameters call.payload j₀.coordinates
          j₀.target.workspaceId = .ok true ∧
        j.phase = phaseAfter p.routeId response

/-- The replay of a pending request. -/
theorem Abides.recoverPending {flag : Bool} {R : Trace → World → Journal → Prop}
    (hg : Going rt profile args j₀ planId plan h w j) (he : Early j₀ h j)
    (hprepare : ∀ p, j₀.pendingRequest = some p → p.routeId ≠ .prepare)
    (ha : ApprovalPassed args j₀ h flag)
    (hok : ∀ h' w' j', h <+: h' → Going rt profile args j₀ planId plan h' w' j' →
      j'.pendingRequest = none → Recovered rt docs j₀ h' j' →
      ApprovalPassed args j₀ h' (flag && j₀.pendingRequest.isNone) → R h' w' j') :
    Abides rt docs ref (applyTerms rt docs args j₀) (ApplyEnd rt docs args j₀)
      (Client.recoverPending rt profile j) R h w := by
  refine .of_inv fun hw => ?_
  have hpending : j.pendingRequest = j₀.pendingRequest := he.ahead.pending
  unfold Client.recoverPending
  cases hp : j₀.pendingRequest with
  | none =>
    rw [hpending, hp]
    refine .pure (hok h w j List.prefix_rfl hg (hpending.trans hp) (.inl ⟨hp, he.phase⟩) ?_)
    simpa [hp] using ha
  | some p =>
    have hjp : j.pendingRequest = some p := hpending.trans hp
    rw [hjp]
    have hinv := hw.journal j hg.holds.durable
    -- A pending effect was authorized: its operation has an approval request.
    have hauthorized : ∀ h', h <+: h' → p.routeId.isEffect = true → Authorized args j₀ h' := by
      intro h' hh heffect
      have hsome := hinv.approval_of_effect hjp heffect
      cases flag with
      | true =>
        rw [ha.2 p hp] at heffect
        cases heffect
      | false =>
        refine (ha.resolve_left fun hnone => ?_).extend hh
        rw [hg.approval, hnone] at hsome
        cases hsome
    refine .bind (.replayPending hg.holds hjp
      (fun h' j' a _ hsame => applyTerms_write fun q hq => hp.trans (hsame.symm.trans hq))
      (fun h' body a hh hmatch => applyTerms_replay hp hmatch (hauthorized h' hh))
      (fun h' w' next => .doubtful rfl Execution.noConfusion) (fun h' body a w' _ hlost hw' => ?_)
      fun h' body response projection w' _ hsame hmatch hbound hproj hholds => .pure ?_)
    · exact .unresolved profile j p h' _ a hw' hjp rfl rfl hlost rfl
    obtain rfl : h' = h := hsame (hprepare p hp)
    have hpre : h' <+: h' ++ [⟨.call (pendingCall profile j p body), .reply response⟩] ++
        [wrote ref (Client.recorded j p response projection)] :=
      (List.prefix_append _ _).trans (List.prefix_append _ _)
    have hexecution : j.coordinates.get .executionRequestId =
        j₀.coordinates.get .executionRequestId := by
      rw [Coordinates.get, Coordinates.get, he.ahead.other _ (by decide)]
    have hworkspace : profile.workspaceId = j₀.target.workspaceId :=
      congrArg Target.workspaceId (hg.holds.target.trans he.ahead.target)
    refine hok _ _ _ hpre
      (hg.recorded hpre (hprepare p hp) hproj hholds ?_) rfl (.inr ⟨p, h', _, response, _, hp,
        List.append_assoc .., hmatch, ?_, rfl⟩) ?_
    · rw [commands_append, commands_append, commands_call rfl, commands_wrote]
    · rw [← responseIsBound_congr hexecution, ← hworkspace]
      exact hbound
    · rw [hp]
      simp only [Option.isNone_some, Bool.and_false]
      cases flag with
      | false => exact ha.extend hpre
      | true =>
        have hdecide := ha.2 p hp
        refine .inr ?_
        rw [List.append_assoc]
        refine ha.1.authorized ⟨_, response, rfl, ?_, ?_⟩ [_]
        · exact congrArg Route.command hdecide
        · rw [hdecide] at hbound
          exact bound_decide hbound

/-- The returns in a phase that is over. -/
theorem Abides.stopIfOver {R : Trace → World → Unit → Prop}
    (hg : Going rt profile args j₀ planId plan h w j) (hr : Recovered rt docs j₀ h j)
    (hp : ProgressPassed j₀ h)
    (hopen : ∀ p, j₀.pendingRequest = some p → j₀.phase ∈ pendingPhases p.routeId)
    (hok : PendingRecovered rt docs j₀ h → j₀.phase ≠ .noChanges ∧ j₀.phase ≠ .attentionRequired →
      R h w ()) :
    Abides rt docs ref (applyTerms rt docs args j₀) (ApplyEnd rt docs args j₀)
      (Client.stopIfOver profile j) R h w := by
  unfold Client.stopIfOver
  have hcause : j.phase = .noChanges ∨ j.phase = .attentionRequired →
      (j₀.pendingRequest = none ∧ j₀.phase = j.phase ∧
        (j₀.phase = .attentionRequired → j₀.coordinates.runId = none)) ∨
      ∃ p pre call response e, j₀.pendingRequest = some p ∧ p.routeId = .execute ∧
        h = pre ++ [⟨.call call, .reply response⟩, e] ∧ Matches rt docs p call ∧
          phaseAfter .execute response = .attentionRequired := by
    intro hphase
    rcases hr with ⟨hnone₀, hsame⟩ | ⟨p, pre, call, response, e, hp₀, hlast, hmatch, -, hafter⟩
    · refine .inl ⟨hnone₀, hsame.symm, fun hattention => ?_⟩
      cases hrun : j₀.coordinates.runId with
      | none => rfl
      | some runId => exact absurd hattention (hp runId hrun hnone₀).1
    · rw [hafter] at hphase
      have hattention := hphase.resolve_left (phaseAfter_ne_noChanges _ _)
      have hroute := route_of_attention hattention
      exact .inr ⟨p, pre, call, response, e, hp₀, hroute, hlast, hmatch, hroute ▸ hattention⟩
  split
  · rename_i hphase
    refine .returnNow (.over profile j hg.holds.durable (.inl hphase) ?_ (hcause (.inl hphase)))
    rw [hphase]
    rfl
  split
  · rename_i hphase
    refine .returnNow (.over profile j hg.holds.durable (.inr hphase) ?_ (hcause (.inr hphase)))
    rw [hphase]
    rfl
  rename_i hchanges hattention
  refine .pure (hok ?_ ?_)
  · intro p hp₀
    rcases hr with ⟨hnone₀, -⟩ | ⟨q, pre, call, response, e, hq, rfl, hmatch, hbound, hafter⟩
    · cases hp₀.symm.trans hnone₀
    · obtain rfl : q = p := Option.some.inj (hq.symm.trans hp₀)
      exact ⟨call, response, by simp, hmatch, hbound, hafter ▸ hattention⟩
  · rcases hr with ⟨-, hsame⟩ | ⟨p, -, -, -, -, hp₀, -⟩
    · exact ⟨hsame ▸ hchanges, hsame ▸ hattention⟩
    · have hmem := hopen p hp₀
      exact ⟨fun h => final_noChanges p.routeId (h ▸ hmem),
        fun h => final_attentionRequired p.routeId (h ▸ hmem)⟩

/-! ### New commands -/

theorem carries_intended {route : CommandRoute} (hroute : route ≠ .prepare) {path : PathParameters}
    {body : Fields} {key : OperationRef} {role : Role} {digest : Digest}
    {source : Option DesiredSource} :
    Carries rt docs (intended route path body key role digest source) body := by
  unfold Carries
  rw [if_neg (show (intended route path body key role digest source).routeId ≠ .prepare from hroute)]
  exact (if_neg hroute).symm

/-- The rule for a new command of `apply`: a key is drawn, the request is made pending, dispatched
and recorded. -/
theorem Abides.command {route : CommandRoute} {path : PathParameters} {role : Role}
    {body : OperationRef → Fields} {f : OperationRef → Fields × Journal → Block β}
    {R : Trace → World → β → Prop} (hg : Going rt profile args j₀ planId plan h w j)
    (hnone : j.pendingRequest = none) (hroute : route ≠ .prepare)
    (happroval : route = .admission → j.coordinates.approvalRequestId.isSome)
    (hpermits : (applyTerms rt docs args j₀).Permits route h)
    (hok : ∀ key pre call e response projection w' j', h <+: pre →
      call.route = .command route →
      responseIsBound route response path (body key) j.coordinates profile.workspaceId = .ok true →
      responseCoordinates route response = .ok projection →
      Going rt profile args j₀ planId plan (pre ++ [⟨.call call, .reply response⟩] ++ [e]) w' j' →
      j'.pendingRequest = none → j'.phase = phaseAfter route response →
      Abides rt docs ref (applyTerms rt docs args j₀) (ApplyEnd rt docs args j₀)
        (f key (response, j')) R (pre ++ [⟨.call call, .reply response⟩] ++ [e]) w') :
    Abides rt docs ref (applyTerms rt docs args j₀) (ApplyEnd rt docs args j₀)
      (do
        let key ← Client.newKey
        let answered ← Client.mutate rt profile j route path (body key) key role none
        f key answered) R h w := by
  refine .bind (.newKey hg.holds.durable fun value key hkey => .bind ?_)
  have hkeyed : h <+: h ++ [⟨.identity, value⟩] := List.prefix_append _ _
  refine .mutate hg.holds hnone hkey happroval (fun _ => hg.planned)
    (fun _ => carries_intended hroute) (hpermits.extend hkeyed) (fun hfull e w' _ _ => ?_) (fun digest e a w' hlost hw' => ?_)
    fun digest response projection w' hbound hproj hholds => ?_
  · exact .exhausted h value e (by simp) (hg.counted ▸ hfull) rfl
  · exact .unresolved profile _ _ _ _ a hw' rfl rfl rfl hlost rfl
  · have hpre := hkeyed.trans (List.prefix_append (h ++ [⟨.identity, value⟩]) [wrote ref
      { j with pendingRequest := some (intended route path (body key) key role digest none) }])
    refine hok key _ _ _ response projection w' _ hpre rfl hbound hproj ?_ rfl rfl
    refine hg.recorded ((hpre.trans (List.prefix_append _ _)).trans (List.prefix_append _ _))
      hroute hproj hholds ?_
    simp only [commands_append, commands_identity, commands_wrote, Nat.add_zero]
    rw [commands_call rfl]

/-- The decision. -/
theorem Abides.decideIf {decides : Bool} {R : Trace → World → Journal → Prop}
    (hg : Going rt profile args j₀ planId plan h w j) (hnone : j.pendingRequest = none)
    (ha : ApprovalPassed args j₀ h decides)
    (hok : ∀ h' w' j', h <+: h' → Going rt profile args j₀ planId plan h' w' j' →
      j'.pendingRequest = none → ApprovalPassed args j₀ h' false → R h' w' j') :
    Abides rt docs ref (applyTerms rt docs args j₀) (ApplyEnd rt docs args j₀)
      (Client.decideIf rt profile decides j plan) R h w := by
  unfold Client.decideIf
  cases decides with
  | false => exact .pure (hok h w j List.prefix_rfl hg hnone ha)
  | true =>
    unfold Client.decideApproval
    rw [if_pos rfl]
    split
    · exact .raise
    · refine .bind (.lift fun sessionId _ => .command hg hnone (by decide) nofun ha.1.permits
        fun key pre call e response projection w' j' hh hcall hbound hproj hg' hnone' _ => ?_)
      dsimp only
      rw [if_pos (Json.pyEq_str.mpr (bound_decide hbound))]
      have hpre := (hh.trans (List.prefix_append _ [⟨.call call, .reply response⟩])).trans
        (List.prefix_append _ [e])
      refine .pure (hok _ _ _ hpre hg' hnone' (.inr ?_))
      rw [List.append_assoc]
      exact (ha.1.extend hh).authorized ⟨call, response, rfl, hcall, bound_decide hbound⟩ [e]

/-- The invocation goes on, and all gates have let it through. -/
structure Ready (rt : Runtime) (docs : Set (List UInt8)) (profile : ClientProfile)
    (args : ApplyArguments) (j₀ : Journal) (planId : Coordinate) (plan : Fields) (h : Trace)
    (w : World) (j : Journal) : Prop where
  going : Going rt profile args j₀ planId plan h w j
  idle : j.pendingRequest = none
  cleared : Cleared rt docs args j₀ h

/-- The rule for a command behind all gates. -/
theorem Abides.effect {route : CommandRoute} {path : PathParameters} {role : Role}
    {body : OperationRef → Fields} {f : OperationRef → Fields × Journal → Block β}
    {R : Trace → World → β → Prop} (hr : Ready rt docs profile args j₀ planId plan h w j)
    (hroute : route.isEffect = true)
    (happroval : route = .admission → j.coordinates.approvalRequestId.isSome)
    (hok : ∀ key h' response w' j',
      responseIsBound route response path (body key) j.coordinates profile.workspaceId = .ok true →
      Ready rt docs profile args j₀ planId plan h' w' j' → j'.phase = phaseAfter route response →
      Abides rt docs ref (applyTerms rt docs args j₀) (ApplyEnd rt docs args j₀)
        (f key (response, j')) R h' w') :
    Abides rt docs ref (applyTerms rt docs args j₀) (ApplyEnd rt docs args j₀)
      (do
        let key ← Client.newKey
        let answered ← Client.mutate rt profile j route path (body key) key role none
        f key answered) R h w := by
  refine .command hr.going hr.idle (fun hprepare => by subst hprepare; cases hroute) happroval
    (hr.cleared.permits hroute) fun key pre call e response projection w' j' hh _ hbound _ hg' hnone'
      hphase => hok key _ response w' j' hbound ⟨hg', hnone', hr.cleared.extend ?_⟩ hphase
  exact (hh.trans (List.prefix_append _ _)).trans (List.prefix_append _ _)

/-- The admission. Only an operation with an approval request gets past it. -/
theorem Abides.admitDeployment {R : Trace → World → Journal → Prop}
    (hg : Going rt profile args j₀ planId plan h w j) (hnone : j.pendingRequest = none)
    (hcleared : j₀.coordinates.approvalRequestId.isSome → Cleared rt docs args j₀ h)
    (hok : ∀ h' w' j', Ready rt docs profile args j₀ planId plan h' w' j' → R h' w' j') :
    Abides rt docs ref (applyTerms rt docs args j₀) (ApplyEnd rt docs args j₀)
      (Client.admitDeployment rt profile j plan planId) R h w := by
  refine .of_inv fun hw => ?_
  have hinv := hw.journal j hg.holds.durable
  unfold Client.admitDeployment
  split
  · rename_i hadmitted
    have happroval := hinv.approval (.inl (by
      simpa [Coordinates.has, Coordinates.value?] using hadmitted))
    exact .pure (hok h w j ⟨hg, hnone, hcleared (hg.approval ▸ happroval)⟩)
  · refine .bind (.lift fun sessionId _ => .bind (.lift fun approvalId hid => ?_))
    have happroval : j.coordinates.approvalRequestId.isSome := by
      cases h : j.coordinates.approvalRequestId with
      | some _ => rfl
      | none => simp [Coordinates.get, Coordinates.value?, h, textCoordinate] at hid
    exact .effect ⟨hg, hnone, hcleared (hg.approval ▸ happroval)⟩ rfl (fun _ => happroval)
      fun key h' response w' j' _ hr _ => .pure (hok h' w' j' hr)

/-- The claim. -/
theorem Abides.claimRun {R : Trace → World → Journal → Prop}
    (hr : Ready rt docs profile args j₀ planId plan h w j)
    (hok : ∀ h' w' j', Ready rt docs profile args j₀ planId plan h' w' j' → R h' w' j') :
    Abides rt docs ref (applyTerms rt docs args j₀) (ApplyEnd rt docs args j₀)
      (Client.claimRun rt profile j) R h w := by
  unfold Client.claimRun
  split
  · exact .pure (hok h w j hr)
  · exact .bind (.lift fun requestId _ => .effect hr rfl nofun
      fun key h' response w' j' _ hr _ => .pure (hok h' w' j' hr))

/-- The start. -/
theorem Abides.startRun {runId : Coordinate} {generation : ℕ} {R : Trace → World → Journal → Prop}
    (hr : Ready rt docs profile args j₀ planId plan h w j)
    (hok : ∀ h' w' j', Ready rt docs profile args j₀ planId plan h' w' j' → R h' w' j') :
    Abides rt docs ref (applyTerms rt docs args j₀) (ApplyEnd rt docs args j₀)
      (Client.startRun rt profile j runId generation) R h w := by
  unfold Client.startRun
  split
  · refine .effect hr rfl nofun fun key h' response w' j' hbound hr _ => ?_
    dsimp only
    rw [if_pos (Json.pyEq_str.mpr (bound_start hbound))]
    exact .pure (hok h' w' j' hr)
  · exact .pure (hok h w j hr)

theorem stoppedExecution_ne_notStarted (status : Coordinate) :
    stoppedExecution status ≠ .notStarted := by
  unfold stoppedExecution
  split <;> decide

/-- The execute loop: every step is a command of its own. -/
theorem Abides.executeSteps {runId : Coordinate} {generation : ℕ} {steps : ℕ}
    {R : Trace → World → Journal → Prop} (hr : Ready rt docs profile args j₀ planId plan h w j)
    (hok : ∀ h' w' j', Ready rt docs profile args j₀ planId plan h' w' j' → R h' w' j') :
    Abides rt docs ref (applyTerms rt docs args j₀) (ApplyEnd rt docs args j₀)
      (Client.executeSteps rt profile runId generation steps j) R h w := by
  induction steps generalizing h w j with
  | zero =>
    exact .doubt hr.going.holds.durable (.refl j) hr.going.pending (by decide)
  | succ steps ih =>
    unfold Client.executeSteps
    refine .effect hr rfl nofun fun key h' response w' j' hbound hr _ => ?_
    refine .bind (.lift fun status hstatus => ?_)
    split
    · rename_i hcompleted
      rw [if_pos (Json.pyEq_str.mpr (bound_completed hbound (text_ok hstatus) hcompleted))]
      exact .pure (hok h' w' j' hr)
    split
    · exact ih hr
    · exact .doubt hr.going.holds.durable (.refl j') hr.going.pending
        (stoppedExecution_ne_notStarted status)

/-- The execution. -/
theorem Abides.executeRun {runId : Coordinate} {generation : ℕ} {R : Trace → World → Journal → Prop}
    (hr : Ready rt docs profile args j₀ planId plan h w j)
    (hok : ∀ h' w' j', Ready rt docs profile args j₀ planId plan h' w' j' → R h' w' j') :
    Abides rt docs ref (applyTerms rt docs args j₀) (ApplyEnd rt docs args j₀)
      (Client.executeRun rt profile j runId generation) R h w := by
  unfold Client.executeRun
  split
  · exact .pure (hok h w j hr)
  · exact .executeSteps hr hok

theorem runs_readWorkspace_ok {ref : OperationRef} {workspace : Fields} {tr : Trace}
    (hr : (readWorkspace profile ref).Runs tr (.ok workspace)) :
    ∃ e, tr = [e] ∧ ∀ current, currentPointer workspace = .ok current → ShowsWorkspace current e := by
  obtain ⟨value, tr₁, tr₂, rfl, h₁, h₂⟩ := hr.bind_ok
  obtain ⟨rfl, hmapping⟩ := runs_lift_ok.mp h₂
  refine ⟨_, by rw [runs_readPublic_ok h₁, List.append_nil], fun current hcurrent => ?_⟩
  exact ⟨_, value, workspace, ⟨_, rfl, rfl, rfl⟩, mapping_ok hmapping, hcurrent⟩

/-- The advancement. -/
theorem Abides.advanceCurrent {runId : Coordinate} {generation : ℕ}
    {R : Trace → World → Journal → Prop} (hr : Ready rt docs profile args j₀ planId plan h w j)
    (hok : ∀ h' w' j', Ready rt docs profile args j₀ planId plan h' w' j' → j'.phase = .advanced →
      R h' w' j') :
    Abides rt docs ref (applyTerms rt docs args j₀) (ApplyEnd rt docs args j₀)
      (Client.advanceCurrent rt profile j plan planId runId generation) R h w := by
  unfold Client.advanceCurrent
  split
  · rename_i hphase
    exact .pure (hok h w j hr hphase)
  have hblock : Reads (do
      let workspace ← readWorkspace profile j.operationRef
      Client.lift (currentPointer workspace)) :=
    (reads_readWorkspace profile _).bind fun _ => .lift _
  refine .bind (.exceptUnresolved hblock.neutral hblock.stays (fun tr current hrun => ?_)
    fun _ _ _ _ => .doubt hr.going.holds.durable (.refl j) hr.going.pending (by decide))
  have hcommands := commands_of_neutral hblock.neutral hrun
  obtain ⟨workspace, tr₁, tr₂, rfl, h₁, h₂⟩ := hrun.bind_ok
  obtain ⟨rfl, hcurrent⟩ := runs_lift_ok.mp h₂
  obtain ⟨e, rfl, hshown⟩ := runs_readWorkspace_ok h₁
  cases current with
  | none =>
    exact .halt hr.going.holds.durable (.refl j) hr.going.pending fun e' w' result _ =>
      .noCurrent h e e' (by simp) (hshown none hcurrent) rfl
  | some current =>
    refine .bind (.lift fun baseGraphId _ => .bind (.lift fun baseProjectionId _ => ?_))
    split
    · exact .doubt hr.going.holds.durable (.refl j) hr.going.pending (by decide)
    refine .bind (.lift fun graphId _ => .bind (.lift fun projectionId _ => .bind (.lift
      fun revision _ => ?_)))
    refine .effect ⟨hr.going.reads hcommands, hr.idle, hr.cleared.extend (List.prefix_append _ _)⟩
      rfl nofun fun key h' response w' j' _ hr hphase => .pure (hok h' w' j' hr hphase)

/-! ### The read-back -/

/-- A plan coordinate that the validator wants is the plan's. -/
theorem Going.planCoordinate (hg : Going rt profile args j₀ planId plan h w j)
    {n : CoordinateName} (hn : n ∈ planCoordinates) (hnumber : Coordinates.isNumber n = false)
    (hhas : j.coordinates.has n = true) : plan.get n.key = j.coordinates.get n :=
  (Coordinates.pyEq_get hnumber).mp (hg.agrees n hn hhas)

/-- An advanced journal has a desired pointer, and it is the plan's. -/
theorem Going.desired (hg : Going rt profile args j₀ planId plan h w j) (hj : j.Valid ref)
    (hphase : j.phase = .advanced) :
    ∃ pointer, j.coordinates.desired? = some pointer ∧
      plan.get "desired_graph_id" = pointer.authoredGraphId.json ∧
        plan.get "desired_realized_projection_id" = pointer.realizedProjectionId.json := by
  have hhas := hj.plan (by rw [hphase]; rfl)
  have hgraph := hg.planCoordinate (n := .desiredGraphId) (by decide) rfl (hhas _ (by decide))
  have hprojection := hg.planCoordinate (n := .desiredRealizedProjectionId) (by decide) rfl
    (hhas _ (by decide))
  obtain ⟨v, hv⟩ := Option.isSome_iff_exists.mp (hhas .desiredGraphId (by decide))
  obtain ⟨v', hv'⟩ := Option.isSome_iff_exists.mp (hhas .desiredRealizedProjectionId (by decide))
  obtain ⟨graphId, hgraphId, -⟩ := Option.map_eq_some_iff.mp hv
  obtain ⟨projectionId, hprojectionId, -⟩ := Option.map_eq_some_iff.mp hv'
  refine ⟨⟨graphId, projectionId⟩, by rw [Coordinates.desired?, hgraphId, hprojectionId], ?_, ?_⟩
  · exact hgraph.trans (congrArg textJson hgraphId)
  · exact hprojection.trans (congrArg textJson hprojectionId)

/-- The read-back ends the invocation. -/
theorem Abides.readBack {R : Trace → World → ClientResult → Prop}
    (hr : Ready rt docs profile args j₀ planId plan h w j) (hphase : j.phase = .advanced)
    (hR : ∀ h w result, ApplyEnd rt docs args j₀ h w result → R h w result) :
    Abides rt docs ref (applyTerms rt docs args j₀) (ApplyEnd rt docs args j₀)
      (Client.readBack rt profile j plan) R h w := by
  refine .of_inv fun hw => ?_
  have hinv := hw.journal j hr.going.holds.durable
  obtain rfl : j.operationRef = ref := hinv.valid.identity
  obtain ⟨pointer, hpointer, hgraph, hprojection⟩ := hr.going.desired hinv.valid hphase
  have hreads := reads_readPublic profile j.operationRef .currentGraph (workspacePath profile) []
  unfold Client.readBack
  refine .bind (.exceptUnresolved hreads.neutral hreads.stays (fun tr observed hrun => ?_)
    fun _ _ _ _ => .doubt hr.going.holds.durable (.refl j) hr.going.pending (by decide))
  obtain rfl := runs_readPublic_ok hrun
  rw [hgraph, hprojection]
  split
  · rename_i hsame
    rw [Bool.and_eq_true, Coordinate.pyEq_json, Coordinate.pyEq_json] at hsame
    refine .bind (.write (fun _ hvalid => ⟨j, hr.going.holds.durable, ?_⟩)
      (fun a => applyTerms_write hr.going.pending) (.pure (hR _ _ _ ?_)))
    · exact .settle j j.coordinates .converged _ (.refl _) (fun _ _ => rfl) (.inl rfl)
        (hphase ▸ .converged) hvalid
    · refine .converged profile _ pointer rfl rfl hpointer ⟨⟨.call (readCall profile j.operationRef
        .currentGraph (workspacePath profile) []), .reply observed⟩, by simp, ?_⟩ rfl
      exact ⟨_, observed, ⟨_, rfl, rfl, rfl⟩, hsame⟩
  · rename_i hother
    rw [Bool.and_eq_true, Coordinate.pyEq_json, Coordinate.pyEq_json] at hother
    refine .halt hr.going.holds.durable (.refl j) hr.going.pending fun e w' result hw' =>
      .moved _ h _ observed e hw' hphase (List.append_assoc ..) rfl (fun pointer' hpointer' => ?_) rfl
    obtain rfl : pointer = pointer' := Option.some.inj (hpointer.symm.trans hpointer')
    exact hother

/-! ### The whole invocation -/

/-- The part of `apply` from the admission on. -/
theorem Abides.applyFromAdmission {R : Trace → World → ClientResult → Prop}
    (hg : Going rt profile args j₀ planId plan h w j) (hnone : j.pendingRequest = none)
    (hcleared : j₀.coordinates.approvalRequestId.isSome → Cleared rt docs args j₀ h)
    (hR : ∀ h w result, ApplyEnd rt docs args j₀ h w result → R h w result) :
    Abides rt docs ref (applyTerms rt docs args j₀) (ApplyEnd rt docs args j₀)
      (Client.applyFromAdmission rt profile j plan planId) R h w := by
  unfold Client.applyFromAdmission
  refine .bind (.admitDeployment hg hnone hcleared fun h w j hr => .bind (.claimRun hr
    fun h w j hr => .bind (.lift fun runId _ => .bind (.lift fun generation _ => ?_))))
  refine .bind (.startRun hr fun h w j hr => .bind (.executeRun hr fun h w j hr =>
    .bind (.advanceCurrent hr fun h w j hr hphase => .readBack hr hphase hR)))

/-- The part of `apply` after its gates. -/
theorem Abides.applyCommands {flag : Bool} {R : Trace → World → ClientResult → Prop}
    (hg : Going rt profile args j₀ planId plan h w j) (he : Early j₀ h j)
    (hprepare : ∀ p, j₀.pendingRequest = some p → p.routeId ≠ .prepare)
    (hopen : ∀ p, j₀.pendingRequest = some p → j₀.phase ∈ pendingPhases p.routeId)
    (ha : ApprovalPassed args j₀ h flag) (hp : ProgressPassed j₀ h)
    (hR : ∀ h w result, ApplyEnd rt docs args j₀ h w result → R h w result) :
    Abides rt docs ref (applyTerms rt docs args j₀) (ApplyEnd rt docs args j₀)
      (Client.applyCommands rt profile j plan planId flag) R h w := by
  unfold Client.applyCommands
  have hpending : j.pendingRequest = j₀.pendingRequest := he.ahead.pending
  refine .bind (.recoverPending hg he hprepare ha fun h' w' j' hh hg hnone hr ha => .bind
    (.stopIfOver hg hr (hp.extend hh) hopen fun hrecovered hopen => .bind ?_))
  refine .decideIf hg hnone (hpending ▸ ha) fun h'' w'' j'' hh' hg hnone ha => ?_
  refine .applyFromAdmission hg hnone (fun hsome => ⟨ha.resolve_left fun hnone => ?_,
    (hp.extend hh).extend hh', hrecovered.extend hh', hopen⟩) hR
  rw [hnone] at hsome
  cases hsome

/-- **The whole of `apply` inside the lock**: it keeps to its terms, and every result it returns
is one of the listed ends. -/
theorem Abides.applyLocked {R : Trace → World → ClientResult → Prop} (hj : Holds rt profile w j₀)
    (hunsent : commands h = 0) (hquiet : Quiet .planRuns h)
    (hR : ∀ h w result, ApplyEnd rt docs args j₀ h w result → R h w result) :
    Abides rt docs ref (applyTerms rt docs args j₀) (ApplyEnd rt docs args j₀)
      (do
        if (j₀.pendingRequest.map (·.routeId)) = some .prepare then
          Client.raise (.input "pending preparation must be resumed with plan")
        else
          let planId ← Client.lift (textCoordinate (j₀.coordinates.get .planId))
          if args.executePlan ≠ .utf8 planId.text then
            Client.raise (.input "execution confirmation does not match the prepared plan")
          else
            let plan ← Client.confirmPlan rt profile j₀ planId
            let journal ← Client.retainPlan rt j₀ plan
            let approvalPending ← Client.approvalGate rt profile journal plan planId args
            Client.progressGate rt profile journal
            Client.applyCommands rt profile journal plan planId approvalPending) R h w := by
  refine .of_inv fun hw => ?_
  have hinv := hw.journal j₀ hj.durable
  split
  · exact .raise
  rename_i hprepare
  refine .bind (.lift fun planId hplanId => ?_)
  split
  · exact .raise
  rename_i hexecute
  have hnames : j₀.coordinates.planId = some planId :=
    textJson_injective (textCoordinate_ok hplanId)
  refine .bind (.confirmPlan hj hnames (not_not.mp hexecute) fun tr plan htr hq hconfirmed => .bind
    (.retainPlan hj hconfirmed (by rw [commands_append, hunsent, htr])
      fun tr₁ w' j hg he hq₁ => .bind (.approvalGate hg he fun tr₂ flag hg he hq₂ ha => .bind
        (.progressGate hg he (((hquiet.append hq).append hq₁).append hq₂) fun tr₃ hg he hp => ?_))))
  refine .applyCommands hg he (fun p hp hroute => hprepare ?_)
    (fun p hp => (hinv.valid.pending p hp).phase) (ha.extend (List.prefix_append _ _)) hp hR
  rw [hp, Option.map_some, hroute]

end Client

end ControlPlaneKit
