import ControlPlaneKit.Client.Recording

/-!
# Resuming a preparation

A pending preparation is kept without its desired graph: the graph is read again from the file
that the journal names, and the digest of the request tells whether the rebuilt request is the
original one. The file is named by any absolute path when it is planned, and by the journal; but
the replay reads the path as a text coordinate, of at most 512 bytes. A preparation of a file with
a longer path can be persisted and never be resumed (`resumes_iff`).
-/

namespace ControlPlaneKit

namespace Client

open Interaction

/-! ### The persisted request -/

/-- `plan` makes `p` durable for a file that holds `raw`, the whole request being `body`. -/
def Planned (rt : Runtime) (profile : ClientProfile) (absolute : Text) (raw : List UInt8)
    (body : Fields) (p : Pending) : Prop :=
  ∃ desired current expectedDesired revision title key digest,
    raw.length ≤ maximumDesiredBytes ∧ rt.loadDesired raw = some (.obj desired) ∧
      body = prepareBody desired current expectedDesired revision title key ∧
      canonicalDigest rt body = .ok digest ∧
      p = intended .prepare (workspacePath profile) body key .operator digest
        (some ⟨absolute, raw.length, rt.sha256 raw⟩)

/-- The call sends the request `body`, member for member and byte for byte. -/
structure Sends (rt : Runtime) (profile : ClientProfile) (body : Fields) (call : Call) : Prop where
  route : call.route = .command .prepare
  endpoint : call.endpoint = profile.endpoint
  path : call.pathParameters = workspacePath profile
  role : call.credentialRole = .operator
  payload : Fields.Same call.payload body
  bytes : (Json.obj call.payload).encode rt.floatText = (Json.obj body).encode rt.floatText

section Persisted

variable {rt : Runtime} {docs : Set (List UInt8)} {ref : OperationRef} {w w' : World}
  {profile : ClientProfile}

/-- The operations that write no journal. -/
def Op.Unwritten (op : Op) : Prop :=
  ∀ r j, op ≠ .write r j

theorem Op.Neutral.unwritten {op : Op} (h : op.Neutral) : op.Unwritten := by
  rintro r j rfl
  exact h

theorem Uses.mono {α : Type} {P Q : Op → Prop} (hPQ : ∀ op, P op → Q op) {p : Block α}
    (h : p.Uses P) : p.Uses Q := by
  induction p with
  | perform op next ih => exact ⟨hPQ op h.1, fun a => ih a (h.2 a)⟩
  | _ => trivial

/-- A first part that writes no journal is over when one is written. -/
theorem Exec.after_unwritten {α : Type} {p : Block α} {f : α → Block ClientResult} {pre post : Trace}
    {j : Journal} {a : StoreAnswer} {out : Option (Except ClientError ClientResult)}
    (hp : p.Uses Op.Unwritten)
    (h : Exec (answers docs ref) w (conclude (p >>= f)) (pre ++ ⟨.write ref j, a⟩ :: post) w' out) :
    ∃ b w₁ pre₁ pre₂, pre = pre₁ ++ pre₂ ∧ Exec (answers docs ref) w p pre₁ w₁ (some (.ok b)) ∧
      Exec (answers docs ref) w₁ (conclude (f b)) (pre₂ ++ ⟨.write ref j, a⟩ :: post) w' out := by
  -- the write is no operation of the first part, so it comes behind it
  induction p generalizing w pre with
  | pure b => exact ⟨b, w, [], pre, rfl, .returned w b, h⟩
  | raise e =>
    generalize htr : pre ++ ⟨.write ref j, a⟩ :: post = tr at h
    cases e <;> cases h <;> simp at htr
  | perform op next ih =>
    generalize htr : pre ++ ⟨.write ref j, a⟩ :: post = tr at h
    cases h with
    | stopped => simp at htr
    | performed hstep hrest =>
      cases pre with
      | nil =>
        rw [List.nil_append, List.cons.injEq, Event.mk.injEq] at htr
        exact absurd htr.1.1.symm (hp.1 ref j)
      | cons e pre =>
        rw [List.cons_append, List.cons.injEq] at htr
        obtain ⟨rfl, rfl⟩ := htr
        obtain ⟨b, w₁, pre₁, pre₂, rfl, hfirst, hthen⟩ := ih _ (hp.2 _) hrest
        exact ⟨b, w₁, _, pre₂, rfl, .performed hstep hfirst, hthen⟩

/-- The value of a pure computation that went on. -/
theorem Exec.lift_ok {α : Type} {x : Except ClientError α} {tr : Trace} {a : α}
    (h : Exec (answers docs ref) w (Client.lift x) tr w' (some (.ok a))) : x = .ok a := by
  cases x with
  | ok b =>
    cases h
    rfl
  | error e => cases h

/-- A file that was read holds an object within the bound. -/
theorem Exec.readDesired_ok {path : Text} {tr : Trace} {b : DesiredSource × Fields}
    (h : Exec (answers docs ref) w (readDesired rt path) tr w' (some (.ok b))) :
    ∃ absolute raw, tr = [⟨.openDesired path, .content absolute raw⟩] ∧
      raw.length ≤ maximumDesiredBytes ∧ rt.loadDesired raw = some (.obj b.2) ∧
        b.1 = ⟨absolute, raw.length, rt.sha256 raw⟩ := by
  cases h with
  | @performed _ _ _ _ _ answer _ _ _ h =>
    cases answer with
    | unavailable => cases h
    | invalid => cases h
    | valueError => cases h
    | content absolute raw =>
      simp only at h
      split at h
      · cases h
      · rename_i hsize
        split at h
        · cases h
        · rename_i desired hload
          cases h
          exact ⟨absolute, raw, rfl, by omega, hload, rfl⟩
        · cases h

theorem unwritten_lift {α : Type} (x : Except ClientError α) : (Client.lift x).Uses Op.Unwritten :=
  Uses.mono (fun _ => Op.Neutral.unwritten) (Reads.lift x).neutral

theorem unwritten_create {r : OperationRef} {j : Journal} :
    (createJournal rt r j).Uses Op.Unwritten := by
  unfold createJournal
  refine Program.Uses.bind (unwritten_lift _) fun _ => ⟨?_, fun a => ?_⟩
  · exact fun _ _ h => Op.noConfusion h
  · cases a <;> trivial

/-- **What `plan` persists**: its first journal write is the new journal with the prepare request
pending. -/
theorem plan_persists {path title absolute : Text} {raw : List UInt8} {pre post : Trace}
    {j : Journal} {a : StoreAnswer} {out : Option (Except ClientError ClientResult)}
    (h : Exec (answers docs ref) w (plan rt profile path title)
      (⟨.openDesired path, .content absolute raw⟩ :: (pre ++ ⟨.write ref j, a⟩ :: post)) w' out)
    (hfirst : ∀ e ∈ pre, e.op.Unwritten) :
    ∃ p body, j.pendingRequest = some p ∧ Planned rt profile absolute raw body p := by
  have hreads : ∀ {α : Type} {p : Block α}, Reads p → p.Uses Op.Unwritten := fun hp =>
    Uses.mono (fun _ => Op.Neutral.unwritten) hp.neutral
  have hlock : ∀ r, (mutationLock r).Uses Op.Unwritten := fun r =>
    ⟨fun _ _ h => Op.noConfusion h, fun a => by cases a <;> trivial⟩
  have hreference : (Program.perform .identity fun value => .pure value : Block Text).Uses
      Op.Unwritten := ⟨fun _ _ h => Op.noConfusion h, fun _ => trivial⟩
  rw [← List.cons_append] at h
  obtain ⟨⟨source, desired⟩, w₁, pre₁, pre₂, heq, hopen, h⟩ :=
    Exec.after_unwritten (hreads (reads_readDesired rt path)) h
  obtain ⟨absolute', raw', rfl, hsize, hload, hsource⟩ := Exec.readDesired_ok hopen
  simp only [List.cons_append, List.nil_append, List.cons.injEq, Event.mk.injEq, heq_eq_eq,
    true_and, DesiredAnswer.content.injEq] at heq
  obtain ⟨⟨rfl, rfl⟩, rfl⟩ := heq
  obtain rfl : source = _ := hsource
  -- Everything up to the first write of the command is a read, the lock or the creation.
  obtain ⟨reference, w₂, _, pre₃, rfl, -, h⟩ := Exec.after_unwritten hreference h
  obtain ⟨operationRef, w₃, _, pre₄, rfl, -, h⟩ := Exec.after_unwritten (unwritten_lift _) h
  obtain ⟨workspace, w₄, _, pre₅, rfl, -, h⟩ :=
    Exec.after_unwritten (hreads (reads_readWorkspace profile operationRef)) h
  obtain ⟨current, w₅, _, pre₆, rfl, -, h⟩ := Exec.after_unwritten (unwritten_lift _) h
  cases current with
  | none =>
    generalize htr : pre₆ ++ ⟨.write ref j, a⟩ :: post = tr at h
    cases h <;> simp at htr
  | some current =>
    obtain ⟨expectedDesired, w₆, _, pre₇, rfl, -, h⟩ := Exec.after_unwritten (unwritten_lift _) h
    obtain ⟨revision, w₇, _, pre₈, rfl, -, h⟩ := Exec.after_unwritten (unwritten_lift _) h
    obtain ⟨title', w₈, _, pre₉, rfl, -, h⟩ := Exec.after_unwritten (unwritten_lift _) h
    obtain ⟨key, w₉, _, pre₁₀, rfl, -, h⟩ := Exec.after_unwritten (hreads reads_newKey) h
    obtain ⟨-, w₁₀, _, pre₁₁, rfl, -, h⟩ := Exec.after_unwritten (hlock _) h
    obtain ⟨-, w₁₁, _, pre₁₂, rfl, -, h⟩ := Exec.after_unwritten unwritten_create h
    unfold mutate writeJournal at h
    have hroom : ∀ source, ¬ maximumRequestRecords ≤
        (newJournal rt profile operationRef source).requestHistory.length := fun source => by
      simp [newJournal, maximumRequestRecords]
    rw [if_neg (hroom _), bind_assoc] at h
    obtain ⟨digest, w₁₂, _, pre₁₃, rfl, hdigest, h⟩ := Exec.after_unwritten (unwritten_lift _) h
    have hsome : ∀ source : DesiredSource, ¬ (CommandRoute.prepare = .prepare ∧ some source = none) :=
      fun source hnone => Option.some_ne_none source hnone.2
    rw [if_neg (hsome _)] at h
    simp only [bind_assoc] at h
    obtain ⟨bytes, w₁₃, _, pre₁₄, rfl, -, h⟩ := Exec.after_unwritten (unwritten_lift _) h
    generalize htr : pre₁₄ ++ ⟨.write ref j, a⟩ :: post = tr at h
    cases h with
    | stopped => simp at htr
    | performed hstep hrest =>
      cases pre₁₄ with
      | cons e pre₁₄ =>
        rw [List.cons_append, List.cons.injEq] at htr
        exact absurd (congrArg Event.op htr.1) (hfirst e (by simp) _ _)
      | nil =>
        rw [List.nil_append, List.cons.injEq, Event.mk.injEq] at htr
        obtain ⟨⟨hop, -⟩, -⟩ := htr
        rw [Op.write.injEq] at hop
        obtain ⟨-, rfl⟩ := hop
        exact ⟨_, _, rfl, desired, current, expectedDesired, revision, title', key, digest, hsize,
          hload, rfl, Exec.lift_ok hdigest, rfl⟩

/-! ### The rebuilt request -/

/-- The retained body with the desired graph put back is the request, in another order. -/
theorem prepareBody_perm (desired : Fields) (current : Pointer) (expectedDesired : Option Pointer)
    (revision : ℕ) (title : Coordinate) (key : OperationRef) :
    (((prepareBody desired current expectedDesired revision title key).pop "desired_graph").set
      "desired_graph" (.obj desired)).Perm
        (prepareBody desired current expectedDesired revision title key) :=
  List.perm_append_singleton (("desired_graph", .obj desired) : Text × Json)
    ((prepareBody desired current expectedDesired revision title key).drop 1)

theorem prepareBody_same (desired : Fields) (current : Pointer) (expectedDesired : Option Pointer)
    (revision : ℕ) (title : Coordinate) (key : OperationRef) :
    Fields.Same (((prepareBody desired current expectedDesired revision title key).pop
      "desired_graph").set "desired_graph" (.obj desired))
        (prepareBody desired current expectedDesired revision title key) :=
  (Fields.same_set_pop (by rfl)).symm

/-- Its canonical bytes are the same. -/
theorem prepareBody_encode (floatText : ℚ → List Char) (desired : Fields) (current : Pointer)
    (expectedDesired : Option Pointer) (revision : ℕ) (title : Coordinate) (key : OperationRef) :
    (Json.obj (((prepareBody desired current expectedDesired revision title key).pop
      "desired_graph").set "desired_graph" (.obj desired))).encode floatText =
        (Json.obj (prepareBody desired current expectedDesired revision title key)).encode
          floatText := by
  refine (Json.encode_obj_of_perm (prepareBody_perm _ _ _ _ _ _).symm ?_).symm
  simp only [prepareBody, List.map_cons, List.map_nil]
  decide

/-- It nests as deep. -/
theorem prepareBody_depth (desired : Fields) (current : Pointer) (expectedDesired : Option Pointer)
    (revision : ℕ) (title : Coordinate) (key : OperationRef) :
    (Json.obj (((prepareBody desired current expectedDesired revision title key).pop
      "desired_graph").set "desired_graph" (.obj desired))).depth =
        (Json.obj (prepareBody desired current expectedDesired revision title key)).depth :=
  Json.depth_obj_of_perm (prepareBody_perm _ _ _ _ _ _)

/-! ### Commands of a resumed preparation -/

/-- The operations that dispatch no command. -/
def Op.Silent : Op → Prop
  | .call request => request.route.isRead = true
  | _ => True

theorem Op.Neutral.silent {op : Op} (h : op.Neutral) : op.Silent := by
  cases op with
  | call call => exact h
  | _ => trivial

theorem silent_reads {α : Type} {p : Block α} (hp : Reads p) : p.Uses Op.Silent :=
  Uses.mono (fun _ => Op.Neutral.silent) hp.neutral

theorem silent_write (r : OperationRef) (j : Journal) : (writeJournal rt r j).Uses Op.Silent := by
  unfold writeJournal
  refine (silent_reads (.lift _)).bind fun _ => ⟨trivial, fun a => ?_⟩
  cases a <;> trivial

theorem silent_stop {α : Type} (j : Journal) (execution : Execution) (advancement : Advancement)
    (next : ReadRoute) : (stop rt profile j execution advancement next : Block α).Uses Op.Silent := by
  unfold stop attention
  exact Program.Uses.bind ((silent_write _ _).bind fun _ => trivial) fun _ => trivial

theorem silent_unresolved {α : Type} (j : Journal) (route : CommandRoute) :
    (stopUnresolved rt profile j route : Block α).Uses Op.Silent := by
  unfold stopUnresolved stopUnpersisted attention
  exact Program.Uses.bind trivial fun _ => trivial

theorem silent_exceptUnresolved {α : Type} {block handler : Block α} (hblock : block.Uses Op.Silent)
    (hhandler : handler.Uses Op.Silent) : (exceptUnresolved block handler).Uses Op.Silent := by
  refine hblock.handle fun e => ?_
  cases e with
  | error e =>
    dsimp only
    split
    · exact hhandler
    · trivial
  | returned => trivial

theorem silent_finishPrepare (j : Journal) (prepared : Fields) :
    (finishPrepare rt profile j prepared).Uses Op.Silent := by
  have hlift : ∀ {α : Type} (x : Except ClientError α), (Client.lift x).Uses Op.Silent := fun x =>
    silent_reads (.lift x)
  unfold finishPrepare
  refine (hlift _).bind fun status => ?_
  split
  · refine (hlift _).bind fun coordinates => (hlift _).bind fun planId => ?_
    refine Program.Uses.bind ?_ fun planned => (hlift _).bind fun coordinates => ?_
    · refine silent_exceptUnresolved ?_ (silent_stop _ _ _ _)
      exact (silent_reads (reads_planDetail profile _ _)).bind fun plan => (hlift _).bind fun _ =>
        (hlift _).bind fun _ => trivial
    · refine Program.Uses.bind ?_ fun approval => (hlift _).bind fun result =>
        (silent_write _ _).bind fun _ => trivial
      unfold preparedApproval
      split
      · trivial
      · refine silent_exceptUnresolved ?_ (silent_stop _ _ _ _)
        exact (silent_reads (reads_approvalDetail profile _ _)).bind fun approval =>
          (hlift _).bind fun _ => trivial
  · exact silent_stop _ _ _ _

theorem silent_conclude {p : Block ClientResult} (hp : p.Uses Op.Silent) :
    (conclude p).Uses Op.Silent :=
  hp.handle fun e => by cases e <;> trivial

variable (rt profile) in
/-- A dispatch is one command, with no other after it. -/
theorem conclude_dispatch {j : Journal} {p : Pending} (hp : j.pendingRequest = some p) (body : Fields)
    {f : Fields × Journal → Block ClientResult} (hf : ∀ x, (f x).Uses Op.Silent) :
    ∃ next, conclude (dispatchPending rt profile j body >>= f) =
        .perform (.call (pendingCall profile j p body)) next ∧
      ∀ a, (next a).Uses Op.Silent := by
  have hlift : ∀ {α : Type} (x : Except ClientError α), (Client.lift x).Uses Op.Silent := fun x =>
    silent_reads (.lift x)
  unfold dispatchPending exceptTransport callTransport
  rw [hp]
  refine ⟨_, rfl, fun a => silent_conclude (Program.Uses.bind ?_ hf)⟩
  refine Program.Uses.bind (Program.Uses.handle ?_ fun e => ?_) fun response => ?_
  · cases a <;> trivial
  · split
    · exact silent_unresolved _ _
    · trivial
    · trivial
  · refine (hlift _).bind fun bound => ?_
    split
    · refine (hlift _).bind fun projection => ?_
      split
      · unfold stopUnpersisted attention
        exact Program.Uses.bind trivial fun _ => trivial
      · exact (silent_write _ _).bind fun _ => trivial
    · exact silent_unresolved _ _

/-! ### The runs of `resume_prepare` -/

/-- `resume_prepare` once the journal has been loaded. -/
def resumeLoaded (rt : Runtime) (profile : ClientProfile) (j : Journal) : Block ClientResult := do
  let (prepared, journal) ← replayPending rt profile j
  finishPrepare rt profile journal prepared

/-- The body rebuilt from what has been read. -/
def rebuiltBody (rt : Runtime) (profile : ClientProfile) (j : Journal) (p : Pending)
    (source : DesiredSource) (opened : DesiredSource × Fields) : Block Fields :=
  if opened.1 ≠ source then stop rt profile j .unverified .notAttempted .workspace
  else return p.body.set "desired_graph" (.obj opened.2)

/-- The rebuilt body is dispatched if its digest is the recorded one. -/
def dispatchRebuilt (rt : Runtime) (profile : ClientProfile) (j : Journal) (p : Pending)
    (body : Fields) : Block (Fields × Journal) := do
  let digest ← lift (canonicalDigest rt body)
  if digest ≠ p.bodySha256 then stop rt profile j .unverified .notAttempted (nextRead j)
  else dispatchPending rt profile j body

/-- `resume_prepare` once the desired graph has been read. -/
def resumeOpened (rt : Runtime) (profile : ClientProfile) (j : Journal) (p : Pending)
    (source : DesiredSource) (opened : DesiredSource × Fields) : Block ClientResult := do
  let body ← rebuiltBody rt profile j p source opened
  let (prepared, journal) ← dispatchRebuilt rt profile j p body
  finishPrepare rt profile journal prepared

section Loaded

variable {j : Journal} {p : Pending} {source : DesiredSource}

theorem resumeLoaded_opens (hp : j.pendingRequest = some p) (hroute : p.routeId = .prepare)
    (hsource : p.desiredSource = some source) {path : Coordinate}
    (hpath : textCoordinate (.str source.path) = .ok path) :
    resumeLoaded rt profile j =
      readDesired rt source.path >>= resumeOpened rt profile j p source := by
  have hsame : (Text.utf8 path.text) = source.path := by
    have := textCoordinate_ok hpath
    rw [Coordinate.json, Json.str.injEq] at this
    exact this.symm
  unfold resumeLoaded replayPending replayBody resumeOpened dispatchRebuilt rebuiltBody
  rw [hp]
  simp only [hroute, if_true, hsource, hpath, Client.lift, Program.pure_bind', hsame, bind_assoc]

variable (rt profile) in
theorem resumeLoaded_refuses (hp : j.pendingRequest = some p) (hroute : p.routeId = .prepare)
    (hsource : p.desiredSource = some source) (hpath : isTextCoordinate (.str source.path) = false) :
    ∃ e, conclude (resumeLoaded rt profile j) = .raise e := by
  have herror : ∃ e, textCoordinate (.str source.path) = .error e := by
    cases h : textCoordinate (.str source.path) with
    | error e => exact ⟨e, rfl⟩
    | ok path =>
      rw [isTextCoordinate_iff.mpr ⟨path, h⟩] at hpath
      cases hpath
  obtain ⟨e, he⟩ := herror
  unfold resumeLoaded replayPending replayBody
  rw [hp]
  simp only [hroute, if_true, hsource, he, Client.lift]
  exact ⟨e, rfl⟩

/-- The locked part of `resume_prepare`. -/
theorem resumePrepare_eq {reference : Text} (href : canonicalOperationRef reference = .ok ref) :
    resumePrepare rt profile reference = conclude (mutationLock ref >>= fun _ =>
      load rt profile ref >>= fun journal =>
        if (journal.pendingRequest.map (·.routeId)) = some .prepare then
          resumeLoaded rt profile journal
        else raise (.input "operation has no pending prepare request")) := by
  unfold resumePrepare resumeLoaded
  rw [href]
  rfl

/-- A run of `resume_prepare` ends before the journal is loaded, or goes on with it. -/
theorem Exec.resume_cases {reference : Text} {tr : Trace}
    {out : Option (Except ClientError ClientResult)} (hj : w.journal = some j)
    (hvalid : j.Valid ref) (htarget : profile.target rt = j.target) (hp : j.pendingRequest = some p)
    (hroute : p.routeId = .prepare) (href : canonicalOperationRef reference = .ok ref)
    (h : Exec (answers docs ref) w (resumePrepare rt profile reference) tr w' out) :
    (w' = w ∧ (∀ e ∈ tr, e.op.Silent ∧ ∀ path, e.op ≠ .openDesired path) ∧
        ∀ k, ⟨.read ref, .found k⟩ ∉ tr) ∨
      ∃ rest, tr = ⟨.lock ref, .acquired⟩ :: ⟨.read ref, .found j⟩ :: rest ∧
        Exec (answers docs ref) w (conclude (resumeLoaded rt profile j)) rest w' out := by
  rw [resumePrepare_eq href] at h
  cases h with
  | stopped => exact .inl ⟨rfl, by simp, by simp⟩
  | @performed _ w₁ _ _ _ lockAnswer _ _ hlock h =>
    obtain rfl : w₁ = w := hlock
    cases lockAnswer with
    | refused message =>
      refine .inl ?_
      cases h <;> exact ⟨rfl, by simp [Op.Silent], by simp⟩
    | acquired =>
      cases h with
      | stopped => exact .inl ⟨rfl, by simp [Op.Silent], by simp⟩
      | @performed _ w₂ _ _ _ readAnswer _ _ hread h =>
        obtain ⟨rfl, hfound⟩ := hread
        cases readAnswer with
        | failed message =>
          refine .inl ?_
          cases h <;> exact ⟨rfl, by simp [Op.Silent], by simp⟩
        | found k =>
          obtain rfl : j = k := Option.some.inj (hj.symm.trans (hfound rfl k rfl))
          refine .inr ⟨_, rfl, ?_⟩
          -- the loaded journal is valid and of the profile's target, so the two checks pass
          have hsame : ∀ {β : Type} (f : Journal → Block β), (do
              let journal ← (do
                lift (validateJournal j ref)
                return j)
              if journal.target ≠ profile.target rt then
                raise (.journal "operation target does not match the selected profile")
              else return journal) >>= f = f j := by
            intro β f
            rw [validateJournal_eq_ok.mpr hvalid]
            simp only [Client.lift, Program.pure_bind', Program.pure_eq]
            rw [if_neg (by simp [htarget])]
            rfl
          have hload := hsame fun journal =>
            if (journal.pendingRequest.map (·.routeId)) = some .prepare then
              resumeLoaded rt profile journal
            else raise (.input "operation has no pending prepare request")
          rw [if_pos (by simp [hp, hroute])] at hload
          rw [← hload]
          exact h

/-- A run of what opens the desired graph: it goes on with an object within the bound, and ends
with anything else. -/
theorem Exec.opened_cases {path : Text} {f : DesiredSource × Fields → Block ClientResult} {tr : Trace}
    {out : Option (Except ClientError ClientResult)}
    (h : Exec (answers docs ref) w (conclude (readDesired rt path >>= f)) tr w' out) :
    (tr = [] ∧ w' = w ∧ out = none) ∨
      ∃ opened rest, tr = ⟨.openDesired path, opened⟩ :: rest ∧
        ((rest = [] ∧ w' = w ∧ ∀ absolute raw desired, opened = .content absolute raw →
            raw.length ≤ maximumDesiredBytes → rt.loadDesired raw ≠ some (.obj desired)) ∨
          ∃ absolute raw desired, opened = .content absolute raw ∧
            rt.loadDesired raw = some (.obj desired) ∧ Exec (answers docs ref) w
              (conclude (f (⟨absolute, raw.length, rt.sha256 raw⟩, desired))) rest w' out) := by
  cases h with
  | stopped => exact .inl ⟨rfl, rfl, rfl⟩
  | @performed _ w₁ _ _ _ opened rest _ hopen h =>
    obtain ⟨rfl, -⟩ := hopen
    refine .inr ⟨opened, rest, rfl, ?_⟩
    have hended : ∀ {e : ClientError}, Exec (answers docs ref) w₁
        (conclude ((raise e : Block (DesiredSource × Fields)) >>= f)) rest w' out →
        rest = [] ∧ w' = w₁ := by
      intro e h
      cases h <;> exact ⟨rfl, rfl⟩
    cases opened with
    | unavailable => exact .inl ⟨(hended h).1, (hended h).2, nofun⟩
    | invalid => exact .inl ⟨(hended h).1, (hended h).2, nofun⟩
    | valueError => exact .inl ⟨(hended h).1, (hended h).2, nofun⟩
    | content absolute raw =>
      simp only at h
      split at h
      · rename_i hlarge
        refine .inl ⟨(hended h).1, (hended h).2, ?_⟩
        rintro _ _ _ ⟨⟩ hsize
        omega
      · split at h
        · rename_i hload
          refine .inl ⟨(hended h).1, (hended h).2, ?_⟩
          rintro _ _ _ ⟨⟩ -
          simp [hload]
        · rename_i desired hload
          exact .inr ⟨absolute, raw, desired, rfl, hload, h⟩
        · rename_i value hobject hload
          refine .inl ⟨(hended h).1, (hended h).2, ?_⟩
          rintro _ _ desired ⟨⟩ - hobj
          rw [hload, Option.some.injEq] at hobj
          exact hobject desired hobj

/-- What writes only journals that keep the pending request, and dispatches nothing. -/
def Op.Keeps (p : Pending) : Op → Prop
  | .create _ _ => False
  | .write _ journal => journal.pendingRequest = some p
  | .call request => request.route.isRead = true
  | _ => True

/-- The operation is as it was, but for what its journal says of the last result. -/
def World.Kept (p : Pending) (w : World) (w' : World) : Prop :=
  w'.dispatched = w.dispatched ∧ ∃ k, w'.journal = some k ∧ k.pendingRequest = some p

theorem Exec.kept {q : Invocation} {tr : Trace} {out : Option (Except ClientError ClientResult)}
    (h : Exec (answers docs ref) w q tr w' out) (hq : q.Uses (Op.Keeps p))
    (hj : w.journal = some j) (hp : j.pendingRequest = some p) : w.Kept p w' := by
  refine Exec.keep (I := World.Kept p w) (fun w₁ op a w₂ hop hkept hstep => ?_) h hq
    ⟨rfl, j, hj, hp⟩
  cases op with
  | identity => exact hstep.2 ▸ hkept
  | lock r => exact (show w₂ = w₁ from hstep) ▸ hkept
  | read r => exact hstep.1 ▸ hkept
  | create r k => exact absurd hop id
  | write r k =>
    simp only [answers] at hstep
    split at hstep
    · rw [hstep.2]
      exact ⟨hkept.1, k, rfl, hop⟩
    · exact hstep ▸ hkept
  | openDesired path => exact hstep.1 ▸ hkept
  | call call =>
    have hread : call.route.isRead = true := hop
    have hsame : w₂ = w₁ := by simpa [answers, hread] using hstep
    exact hsame ▸ hkept

variable (rt profile) in
/-- An attention result keeps the pending request. -/
theorem keeps_stop {α : Type} (hp : j.pendingRequest = some p) (execution : Execution)
    (advancement : Advancement) (next : ReadRoute) (f : α → Block ClientResult) :
    (conclude (stop rt profile j execution advancement next >>= f)).Uses (Op.Keeps p) ∧
      (conclude (stop rt profile j execution advancement next >>= f)).Uses Op.Silent := by
  unfold stop attention writeJournal
  rw [if_pos rfl]
  cases encodeJournal rt.floatText j.operationRef _ with
  | error e => exact ⟨trivial, trivial⟩
  | ok bytes =>
    refine ⟨⟨hp, fun a => ?_⟩, ⟨trivial, fun a => ?_⟩⟩ <;> cases a <;> trivial

theorem isCommand_of_silent {e : Event Op Op.Answer} (he : e.op.Silent) : isCommand e = false := by
  obtain ⟨op, a⟩ := e
  cases op with
  | call call =>
    have hread : call.route.isRead = true := he
    simp [isCommand, hread]
  | _ => rfl

theorem commands_of_silent {tr : Trace} (h : ∀ e ∈ tr, e.op.Silent) : commands tr = 0 :=
  List.countP_eq_zero.mpr fun e he => by
    rw [isCommand_of_silent (h e he)]
    exact Bool.false_ne_true

variable (rt docs ref profile) in
/-- While the file holds the planned bytes under the planned path, `resume_prepare` dispatches the
original request, and nothing else. -/
def ResumesOriginal (w : World) (absolute : Text) (raw : List UInt8) (body : Fields) : Prop :=
  ∀ reference tr w' r, canonicalOperationRef reference = .ok ref →
    Exec (answers docs ref) w (resumePrepare rt profile reference) tr w' (some r) →
    (∃ k, ⟨.read ref, .found k⟩ ∈ tr) →
    (∀ path opened, ⟨.openDesired path, opened⟩ ∈ tr → opened = .content absolute raw) →
    commands tr = 1 ∧ ∃ call a, ⟨.call call, a⟩ ∈ tr ∧ call.operationRef = ref ∧
      Sends rt profile body call

variable (rt docs ref profile) in
/-- Where the file holds other bytes, of another size or digest, `resume_prepare` dispatches
nothing and leaves the pending request in place. -/
def LeavesChanged (w : World) (p : Pending) (raw : List UInt8) : Prop :=
  ∀ reference tr w' out, canonicalOperationRef reference = .ok ref →
    Exec (answers docs ref) w (resumePrepare rt profile reference) tr w' out →
    (∀ path opened, ⟨.openDesired path, opened⟩ ∈ tr → ∃ absolute' raw',
      opened = .content absolute' raw' ∧
        (raw'.length ≠ raw.length ∨ rt.sha256 raw' ≠ rt.sha256 raw)) →
    commands tr = 0 ∧ w.Kept p w'

/-- What is known of a persisted preparation in a reachable state. -/
structure Persisted (rt : Runtime) (ref : OperationRef) (profile : ClientProfile) (w : World)
    (j : Journal) (p : Pending) (absolute : Text) (raw : List UInt8) (body : Fields) : Prop where
  durable : w.journal = some j
  valid : j.Valid ref
  target : profile.target rt = j.target
  pending : j.pendingRequest = some p
  planned : Planned rt profile absolute raw body p

variable {absolute : Text} {raw : List UInt8} {body : Fields}

theorem Persisted.route (h : Persisted rt ref profile w j p absolute raw body) :
    p.routeId = .prepare := by
  obtain ⟨desired, current, expectedDesired, revision, title, key, digest, -, -, -, -, rfl⟩ := h.planned
  rfl

theorem Persisted.desiredSource (h : Persisted rt ref profile w j p absolute raw body) :
    p.desiredSource = some ⟨absolute, raw.length, rt.sha256 raw⟩ := by
  obtain ⟨desired, current, expectedDesired, revision, title, key, digest, -, -, -, -, rfl⟩ := h.planned
  rfl

/-- Taking the lock and loading the journal are no commands. -/
theorem commands_loaded (rest : Trace) :
    commands (⟨.lock ref, .acquired⟩ :: ⟨.read ref, .found j⟩ :: rest) = commands rest := by
  simp [commands, isCommand]

theorem commands_opened (path : Text) (opened : DesiredAnswer) (rest : Trace) :
    commands (⟨.openDesired path, opened⟩ :: rest) = commands rest := by
  simp [commands, isCommand]

/-- **A changed file** stops the resumption. -/
theorem Persisted.leavesChanged (h : Persisted rt ref profile w j p absolute raw body) :
    LeavesChanged rt docs ref profile w p raw := by
  intro reference tr w' out href hrun hchanged
  have hkept : w.Kept p w := ⟨rfl, j, h.durable, h.pending⟩
  rcases Exec.resume_cases h.durable h.valid h.target h.pending h.route href hrun with
    ⟨rfl, hevents, -⟩ | ⟨rest, rfl, hrest⟩
  · exact ⟨commands_of_silent fun e he => (hevents e he).1, hkept⟩
  rw [commands_loaded]
  cases hpath : textCoordinate (.str absolute) with
  | error e =>
    obtain ⟨e', he'⟩ := resumeLoaded_refuses rt profile h.pending h.route
      h.desiredSource (by rw [Bool.eq_false_iff, Ne, isTextCoordinate_iff, hpath]; simp)
    rw [he'] at hrest
    cases hrest <;> exact ⟨rfl, hkept⟩
  | ok path =>
    rw [resumeLoaded_opens h.pending h.route h.desiredSource hpath] at hrest
    rcases Exec.opened_cases hrest with ⟨rfl, rfl, -⟩ | ⟨opened, rest, rfl, hopened⟩
    · exact ⟨rfl, hkept⟩
    obtain ⟨absolute', raw', rfl, hdiffers⟩ := hchanged absolute opened (by simp)
    rw [commands_opened]
    rcases hopened with ⟨rfl, rfl, -⟩ | ⟨_, _, desired, ⟨⟩, -, hrest⟩
    · exact ⟨rfl, hkept⟩
    -- The reference to what was read is not the recorded one.
    have hne : (⟨absolute', raw'.length, rt.sha256 raw'⟩ : DesiredSource) ≠
        ⟨absolute, raw.length, rt.sha256 raw⟩ := by
      intro heq
      rw [DesiredSource.mk.injEq] at heq
      exact hdiffers.elim (fun hsize => hsize heq.2.1) fun hsha => hsha heq.2.2
    unfold resumeOpened rebuiltBody at hrest
    rw [if_pos hne] at hrest
    obtain ⟨hkeeps, hsilent⟩ := keeps_stop rt profile h.pending .unverified
      .notAttempted .workspace fun body => do
        let (prepared, journal) ← dispatchRebuilt rt profile j p body
        finishPrepare rt profile journal prepared
    exact ⟨commands_of_silent (hrest.uses hsilent), Exec.kept hrest hkeeps h.durable h.pending⟩

/-- **An unchanged file** under a path that is a text coordinate is sent as it was. -/
theorem Persisted.resumesOriginal (h : Persisted rt ref profile w j p absolute raw body)
    (hpath : isTextCoordinate (.str absolute) = true) :
    ResumesOriginal rt docs ref profile w absolute raw body := by
  intro reference tr w' r href hrun ⟨k, hk⟩ hsame
  rcases Exec.resume_cases h.durable h.valid h.target h.pending h.route href hrun with
    ⟨-, -, hnone⟩ | ⟨rest, rfl, hrest⟩
  · exact absurd hk (hnone k)
  obtain ⟨path, hpath⟩ := isTextCoordinate_iff.mp hpath
  rw [resumeLoaded_opens h.pending h.route h.desiredSource hpath] at hrest
  rcases Exec.opened_cases hrest with ⟨-, -, ⟨⟩⟩ | ⟨opened, rest, rfl, hopened⟩
  obtain rfl := hsame absolute opened (by simp)
  have hbody := prepareBody_encode rt.floatText
  have hdepth := prepareBody_depth
  have hpayload := prepareBody_same
  obtain ⟨desired, current, expectedDesired, revision, title, key, digest, hsize, hload, hb, hdigest,
    hp⟩ := h.planned
  rcases hopened with ⟨-, -, hbad⟩ | ⟨_, _, desired', ⟨⟩, hload', hrest⟩
  · exact absurd hload (hbad _ _ _ rfl hsize)
  obtain rfl : desired' = desired := by
    rw [hload] at hload'
    simpa using hload'.symm
  -- taking the graph out of the body and putting it back leaves the encoding alone
  specialize hbody desired' current expectedDesired revision title key
  specialize hdepth desired' current expectedDesired revision title key
  specialize hpayload desired' current expectedDesired revision title key
  have hretained : p.body = body.pop "desired_graph" := by
    rw [hp]
    rfl
  rw [← hb, ← hretained] at hbody hdepth hpayload
  have hsent : canonicalDigest rt (p.body.set "desired_graph" (.obj desired')) = .ok p.bodySha256 := by
    unfold canonicalDigest at hdigest ⊢
    rw [hdepth, hbody, hdigest, hp]
    rfl
  have hsends : Sends rt profile body
      (pendingCall profile j p (p.body.set "desired_graph" (.obj desired'))) := by
    refine ⟨congrArg Route.command h.route, rfl, ?_, ?_, hpayload, hbody⟩
    · rw [pendingCall, hp]
      rfl
    · rw [pendingCall, hp]
      rfl
  have hrebuilt : dispatchRebuilt rt profile j p (p.body.set "desired_graph" (.obj desired')) =
      dispatchPending rt profile j (p.body.set "desired_graph" (.obj desired')) := by
    unfold dispatchRebuilt
    rw [hsent]
    exact if_neg (not_not.mpr rfl)
  obtain ⟨next, hdispatch, hsilent⟩ := conclude_dispatch rt profile h.pending
    (p.body.set "desired_graph" (.obj desired')) fun x => silent_finishPrepare x.2 x.1
  have hprogram : conclude (resumeOpened rt profile j p ⟨absolute, raw.length, rt.sha256 raw⟩
      (⟨absolute, raw.length, rt.sha256 raw⟩, desired')) = .perform _ next := by
    rw [← hdispatch, ← hrebuilt]
    unfold resumeOpened rebuiltBody
    rw [if_neg (not_not.mpr rfl)]
    rfl
  rw [hprogram] at hrest
  cases hrest with
  | @performed _ w₁ _ _ _ a rest _ hcall hrest =>
    refine ⟨?_, _, a, by simp, ?_, hsends⟩
    -- the one command of the rest is this dispatch: finishing a preparation only reads
    · have hone : commands [⟨.call (pendingCall profile j p
          (p.body.set "desired_graph" (.obj desired'))), a⟩] = 1 := commands_call rfl a
      rw [commands_loaded, commands_opened, ← List.singleton_append, commands_append, hone,
        commands_of_silent (hrest.uses (hsilent a))]
    · exact h.valid.identity

/-- **A path that is no text coordinate** is never resumed. -/
theorem Persisted.not_resumesOriginal (h : Persisted rt ref profile w j p absolute raw body)
    (hpath : isTextCoordinate (.str absolute) = false) :
    ¬ ResumesOriginal rt docs ref profile w absolute raw body := by
  intro hall
  obtain ⟨e, he⟩ := resumeLoaded_refuses rt profile h.pending h.route
    h.desiredSource hpath
  have hlock : Returns docs ref w (mutationLock ref) [⟨.lock ref, .acquired⟩] w () :=
    .performed rfl (.returned _ ())
  have hload : Returns docs ref w (load rt profile ref) [⟨.read ref, .found j⟩] w j :=
    returns_load h.durable h.valid h.target.symm
  have hrun : Exec (answers docs ref) w (resumePrepare rt profile (.utf8 ref.text))
      ([⟨.lock ref, .acquired⟩] ++ ([⟨.read ref, .found j⟩] ++ [])) w (some (.error e)) := by
    rw [resumePrepare_eq (canonicalOperationRef_text ref)]
    refine Exec.then_conclude hlock (Exec.then_conclude hload ?_)
    rw [if_pos (by simp [h.pending, h.route]), he]
    exact .raised w e
  obtain ⟨hone, -⟩ := hall _ _ _ _ (canonicalOperationRef_text ref) hrun ⟨j, by simp⟩ (by simp)
  simp [commands, isCommand] at hone


/-- **Resuming a persisted preparation**: for every file and absolute path for which `plan` has made
a prepare request durable, and every later state in which it is still pending, `resume_prepare`
sends the original request while the file is unchanged, and nothing once it has changed, exactly
where the recorded path is a text coordinate. -/
theorem resumes_iff {w₀ w₁ : World} {c : Directory} {path title : Text} {pre post : Trace}
    {j₀ : Journal} {a : StoreAnswer} {out : Option (Except ClientError ClientResult)}
    (hplan : Exec (answers docs ref) w₀ (plan rt profile path title)
      (⟨.openDesired path, .content absolute raw⟩ :: (pre ++ ⟨.write ref j₀, a⟩ :: post)) w₁ out)
    (hfirst : ∀ e ∈ pre, e.op.Unwritten) (hp₀ : j₀.pendingRequest = some p)
    (hc : Directory.Reachable rt docs c) (hj : (c.state ref).journal = some j)
    (hp : j.pendingRequest = some p) (htarget : profile.target rt = j.target) :
    ∃ body, Planned rt profile absolute raw body p ∧
      ((ResumesOriginal rt docs ref profile (c.state ref) absolute raw body ∧
          LeavesChanged rt docs ref profile (c.state ref) p raw) ↔
        isTextCoordinate (.str absolute) = true) := by
  obtain ⟨q, body, hq, hplanned⟩ := plan_persists hplan hfirst
  obtain rfl : p = q := Option.some.inj (hp₀.symm.trans hq)
  have hinv : WorldInv rt docs ref (c.state ref) := Reachable.inv ⟨c, hc, rfl⟩
  have h : Persisted rt ref profile (c.state ref) j p absolute raw body :=
    ⟨hj, (hinv.journal j hj).valid, htarget, hp, hplanned⟩
  refine ⟨body, hplanned, fun hall => ?_, fun hpath => ⟨h.resumesOriginal hpath, h.leavesChanged⟩⟩
  by_contra hpath
  exact h.not_resumesOriginal (Bool.eq_false_iff.mpr hpath) hall.1

end Loaded

end Persisted

/-! ### A path that is too long -/

namespace Scenario

variable {rt : Runtime} {profile : ClientProfile} {docs : Set (List UInt8)} {s : Scenario}

/-- The events of `plan` before its first journal write, without the opening. -/
def planBefore (rt : Runtime) (profile : ClientProfile) (s : Scenario) : Trace :=
  [⟨.identity, .utf8 s.ref.text⟩,
    answered profile s.ref .workspace (workspacePath profile) [("workspace", .obj s.workspace)],
    ⟨.identity, .utf8 (s.key .prepare).text⟩, ⟨.lock s.ref, .acquired⟩,
    ⟨.create s.ref (newJournal rt profile s.ref (s.source rt)), .stored⟩]

/-- `plan` makes its request durable for every absolute path that leaves room in the journal, and
goes on to dispatch it. -/
theorem exec_intended (hfound : s.raw ∈ docs) (hopen : (Text.utf8 s.file).Openable)
    (hloads : rt.loadDesired s.raw = some (.obj s.desired))
    (hsize : s.raw.length ≤ maximumDesiredBytes)
    (habsolute : isAbsolutePath (.utf8 s.file) = true) (hsource : (s.source rt).Brief)
    (hdigest : canonicalDigest rt (s.body .prepare) = .ok (s.digest rt .prepare))
    (hbrief : (s.request rt profile .prepare).Brief rt.floatText) {tr : Trace} {w' : World}
    {out : Option (Except ClientError ClientResult)}
    (hrest : Exec (answers docs s.ref) ⟨some (s.intendedJournal rt profile), []⟩
      (conclude (dispatchPending rt profile (s.intendedJournal rt profile) (s.body .prepare) >>=
        fun x => finishPrepare rt profile x.2 x.1)) tr w' out) :
    Exec (answers docs s.ref) World.empty
      (Client.plan rt profile (.utf8 s.file) (.utf8 s.title.text))
      (⟨.openDesired (.utf8 s.file), .content (.utf8 s.file) s.raw⟩ ::
        (s.planBefore rt profile ++ ⟨.write s.ref (s.intendedJournal rt profile), .stored⟩ :: tr))
      w' out := by
  -- The operations of the preparation, one by one.
  have hfresh : ∀ value, World.empty.Fresh value := by
    intro value
    refine ⟨?_, ?_⟩
    · rintro j ⟨⟩
    · intro call hcall
      cases hcall
  have hread : Returns docs s.ref World.empty (readDesired rt (.utf8 s.file))
      [⟨.openDesired (.utf8 s.file), .content (.utf8 s.file) s.raw⟩] World.empty
        (s.source rt, s.desired) := by
    refine .performed ⟨rfl, opens hfound hopen⟩ ?_
    simp only [Nat.not_lt.mpr hsize, if_false, hloads]
    exact .returned _ _
  have hreference : Returns docs s.ref World.empty (.perform .identity fun value => .pure value)
      [⟨.identity, .utf8 s.ref.text⟩] World.empty (.utf8 s.ref.text) :=
    .performed ⟨hfresh _, rfl⟩ (.returned _ _)
  have hworkspace : Returns docs s.ref World.empty (readWorkspace profile s.ref)
      [answered profile s.ref .workspace (workspacePath profile) [("workspace", .obj s.workspace)]]
      World.empty s.workspace := returns_readWorkspace (by simp)
  have hrevision : integer s.workspace "desired_graph_revision" 0 = .ok s.revision := by
    simp [integer, workspace, natJson]
  have htitle : boundedTitle (.utf8 s.title.text) = .ok s.title := by
    simp [boundedTitle, s.title.nonempty, s.title.bounded]
  have hlock : Returns docs s.ref World.empty (mutationLock s.ref) [⟨.lock s.ref, .acquired⟩]
      World.empty () := .performed rfl (.returned _ _)
  have hkey : Returns docs s.ref World.empty newKey [⟨.identity, .utf8 (s.key .prepare).text⟩]
      World.empty (s.key .prepare) := returns_newKey (hfresh _)
  have hcreate : Returns docs s.ref World.empty
      (createJournal rt s.ref (newJournal rt profile s.ref (s.source rt))) _ _ () :=
    returns_create rfl (new_valid habsolute hsize) (new_modest hsource)
  have hwrite : Returns docs s.ref (World.empty.store (newJournal rt profile s.ref (s.source rt)))
      (writeJournal rt s.ref (s.intendedJournal rt profile)) _ _ () :=
    returns_write rfl ((new_valid habsolute hsize).intend prepare_valid)
      ((new_modest hsource).intend hbrief)
  have hlift : ∀ {α : Type} {w : World} {x : Except ClientError α} {a : α}, x = .ok a →
      Exec (answers docs s.ref) w (lift x) [] w (some (.ok a)) := fun h => Returns.lift h
  -- the steps of plan up to the intended request
  refine Exec.then_conclude hread (Exec.then_conclude hreference ?_)
  refine Exec.then_conclude (hlift (canonicalOperationRef_text s.ref))
    (Exec.then_conclude hworkspace ?_)
  refine Exec.then_conclude (hlift currentPointer_workspace) ?_
  refine Exec.then_conclude (hlift desiredPointer_workspace)
    (Exec.then_conclude (hlift hrevision) (Exec.then_conclude (hlift htitle) ?_))
  refine Exec.then_conclude hkey (Exec.then_conclude hlock (Exec.then_conclude hcreate ?_))
  unfold mutate
  rw [if_neg (show ¬ maximumRequestRecords ≤ (newJournal rt profile s.ref (s.source rt)).requestHistory.length
    by simp [newJournal, maximumRequestRecords]), bind_assoc]
  refine Exec.then_conclude (hlift hdigest) ?_
  rw [if_neg (show ¬ (CommandRoute.prepare = .prepare ∧ some (s.source rt) = none) from
    fun h => Option.some_ne_none _ h.2)]
  simp only [bind_assoc]
  exact Exec.then_conclude hwrite hrest

/-- It may be abandoned there. -/
theorem exec_persist (hfound : s.raw ∈ docs) (hopen : (Text.utf8 s.file).Openable)
    (hloads : rt.loadDesired s.raw = some (.obj s.desired))
    (hsize : s.raw.length ≤ maximumDesiredBytes)
    (habsolute : isAbsolutePath (.utf8 s.file) = true) (hsource : (s.source rt).Brief)
    (hdigest : canonicalDigest rt (s.body .prepare) = .ok (s.digest rt .prepare))
    (hbrief : (s.request rt profile .prepare).Brief rt.floatText) :
    Exec (answers docs s.ref) World.empty
      (Client.plan rt profile (.utf8 s.file) (.utf8 s.title.text))
      (⟨.openDesired (.utf8 s.file), .content (.utf8 s.file) s.raw⟩ ::
        (s.planBefore rt profile ++ ⟨.write s.ref (s.intendedJournal rt profile), .stored⟩ :: []))
      ⟨some (s.intendedJournal rt profile), []⟩ none :=
  exec_intended hfound hopen hloads hsize habsolute hsource hdigest hbrief (.stopped _ _)

theorem planBefore_unwritten : ∀ e ∈ s.planBefore rt profile, e.op.Unwritten := by
  intro e he
  simp only [planBefore, List.mem_cons, List.not_mem_nil, or_false] at he
  rcases he with rfl | rfl | rfl | rfl | rfl <;> exact fun _ _ h => Op.noConfusion h

/-- The state that `plan` leaves when it is abandoned there is reachable. -/
theorem reachable_persist (hfound : s.raw ∈ docs) (hopen : (Text.utf8 s.file).Openable)
    (h : Exec (answers docs s.ref) World.empty
      (Client.plan rt profile (.utf8 s.file) (.utf8 s.title.text))
      (⟨.openDesired (.utf8 s.file), .content (.utf8 s.file) s.raw⟩ ::
        (s.planBefore rt profile ++ ⟨.write s.ref (s.intendedJournal rt profile), .stored⟩ :: []))
      ⟨some (s.intendedJournal rt profile), []⟩ none) :
    Directory.Reachable rt docs (.only s.ref ⟨some (s.intendedJournal rt profile), []⟩) := by
  have hinitial : Directory.Reachable rt docs (.only s.ref World.empty) := by
    rw [← Directory.initial_eq_only]
    exact .refl
  refine hinitial.trans (Directory.Reaches.run (.plan profile (.utf8 s.file) (.utf8 s.title.text)) h
    ?_ (by simp [granted, planBefore, grants, answered]))
  intro e he
  simp only [planBefore, List.mem_cons, List.mem_append, List.not_mem_nil, or_false] at he
  rcases he with rfl | (rfl | rfl | rfl | rfl | rfl) | rfl
  · exact .openDesired _ _ (opens hfound hopen)
  · exact .identity _
  · exact .call _ _ rfl
  · exact .identity _
  · exact .lock _
  · exact .create _ _
  · exact .write _ _

end Scenario

namespace Instance

/-- The preparation of a file with a short path can be resumed. -/
theorem resumes_graph : ∃ body, Planned runtime profile (.utf8 "/graph.json") [123, 125] body
      (scenario.request runtime profile .prepare) ∧
    ((ResumesOriginal runtime docs scenario.ref profile
        ⟨some (scenario.intendedJournal runtime profile), []⟩ (.utf8 "/graph.json") [123, 125] body ∧
      LeavesChanged runtime docs scenario.ref profile
        ⟨some (scenario.intendedJournal runtime profile), []⟩
        (scenario.request runtime profile .prepare) [123, 125]) ↔
      isTextCoordinate (.str (.utf8 "/graph.json")) = true) := by
  have hexec : Exec (answers docs scenario.ref) World.empty
      (Client.plan runtime profile (.utf8 "/graph.json") (.utf8 scenario.title.text)) _ _ _ :=
    Scenario.exec_persist fair.found fair.openable fair.loads fair.size fair.absolute
      (Scenario.source_brief fair) (Scenario.canonicalDigest_body profile fair .prepare)
      (Scenario.body_fits fair .prepare).2
  have h := resumes_iff hexec Scenario.planBefore_unwritten rfl
    (Scenario.reachable_persist fair.found fair.openable hexec)
    (congrArg World.journal Directory.only_state) rfl rfl
  rwa [Directory.only_state] at h

/-- A component of a path. -/
def component (n : ℕ) : List Char :=
  '/' :: List.replicate n 'g'

/-- A path of 601 bytes, whose components have at most 200. -/
@[irreducible]
def longFile : String :=
  String.ofList (component 199 ++ component 199 ++ component 200)

theorem longFile_codes : (Text.utf8 longFile).codes.length = 601 := by
  unfold longFile
  rw [Text.codes, List.length_map, String.toList_ofList]
  simp only [component, List.length_append, List.length_cons, List.length_replicate]

theorem longFile_absolute : isAbsolutePath (.utf8 longFile) = true := by
  unfold longFile
  rw [isAbsolutePath, Text.codes, String.toList_ofList]
  rfl

theorem longFile_openable : (Text.utf8 longFile).Openable := by
  have hcomponent : ∀ n, ∀ c ∈ component n, c.toNat ≠ 0 := by
    intro n c hc
    rcases List.mem_cons.mp hc with rfl | hc
    · decide
    · rw [(List.mem_replicate.mp hc).2]
      decide
  refine Text.openable_utf8 fun c hc => ?_
  unfold longFile at hc
  rw [String.toList_ofList, List.mem_append, List.mem_append] at hc
  rcases hc with (hc | hc) | hc <;> exact hcomponent _ c hc

/-- The operation with its desired graph under another path. -/
def moved (file : String) : Scenario :=
  { scenario with file := file }

/-- The request can be persisted under every absolute path of moderate size. -/
theorem exec_moved {file : String} (hopen : (Text.utf8 file).Openable)
    (habsolute : isAbsolutePath (.utf8 file) = true)
    (hsize : (Text.utf8 file).codes.length ≤ 1024) :
    Exec (answers docs (moved file).ref) World.empty
      (Client.plan runtime profile (.utf8 file) (.utf8 (moved file).title.text))
      (⟨.openDesired (.utf8 file), .content (.utf8 file) [123, 125]⟩ ::
        ((moved file).planBefore runtime profile ++
          ⟨.write (moved file).ref ((moved file).intendedJournal runtime profile), .stored⟩ :: []))
      ⟨some ((moved file).intendedJournal runtime profile), []⟩ none := by
  have hsource : ((moved file).source runtime).Brief := ⟨hsize, fair.length⟩
  have hfits : (scenario.request runtime profile .prepare).Brief runtime.floatText :=
    (Scenario.body_fits fair .prepare).2
  refine Scenario.exec_persist (s := moved file) fair.found hopen fair.loads fair.size habsolute hsource
    (Scenario.canonicalDigest_body profile fair .prepare) ⟨hfits.path, hfits.body, ?_⟩
  rintro d ⟨⟩
  exact hsource

/-- **A preparation that cannot be resumed**: the path has 601 bytes. -/
theorem longFile_stuck : ¬ ∀ (rt : Runtime) (docs : Set (List UInt8)) (ref : OperationRef)
    (profile : ClientProfile) (path title absolute : Text) (raw : List UInt8) (w₀ w₁ : World)
    (c : Directory) (pre post : Trace) (j₀ j : Journal) (p : Pending) (a : StoreAnswer)
    (out : Option (Except ClientError ClientResult)),
    Exec (answers docs ref) w₀ (plan rt profile path title)
      (⟨.openDesired path, .content absolute raw⟩ :: (pre ++ ⟨.write ref j₀, a⟩ :: post)) w₁ out →
    (∀ e ∈ pre, e.op.Unwritten) → j₀.pendingRequest = some p →
    Directory.Reachable rt docs c → (c.state ref).journal = some j → j.pendingRequest = some p →
    profile.target rt = j.target →
    ∃ body, Planned rt profile absolute raw body p ∧
      ResumesOriginal rt docs ref profile (c.state ref) absolute raw body ∧
        LeavesChanged rt docs ref profile (c.state ref) p raw := by
  intro hall
  have hexec := exec_moved longFile_openable longFile_absolute (by rw [longFile_codes]; decide)
  have hreachable : Directory.Reachable runtime docs (.only (moved longFile).ref
      ⟨some ((moved longFile).intendedJournal runtime profile), []⟩) :=
    Scenario.reachable_persist (s := moved longFile) fair.found longFile_openable hexec
  obtain ⟨body, hplanned, hresumes, -⟩ := hall runtime docs (moved longFile).ref profile _ _ _ _ _ _ _
    _ _ _ _ _ _ _ hexec Scenario.planBefore_unwritten rfl hreachable
    (congrArg World.journal Directory.only_state) rfl rfl
  have hinv : WorldInv runtime docs (moved longFile).ref _ := hreachable.only.inv
  rw [Directory.only_state] at hresumes
  have h : Persisted runtime (moved longFile).ref profile
      ⟨some ((moved longFile).intendedJournal runtime profile), []⟩ _ _ (.utf8 longFile) [123, 125]
      body := ⟨rfl, (hinv.journal _ rfl).valid, rfl, rfl, hplanned⟩
  refine h.not_resumesOriginal ?_ hresumes
  have hcodes := longFile_codes
  have hbytes := Json.length_codes_le longFile
  simp only [isTextCoordinate, decide_eq_false_iff_not]
  omega

end Instance

end Client

end ControlPlaneKit
