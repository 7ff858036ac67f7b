import ControlPlaneKit.Gateway.Binding

/-!
# The replay cache under concurrency

Threads call `remember_once` in any order, each with a clock reading of its own that was taken
before the lock: readings may be stale, or ahead of the others. What a turn under the lock does to
the entries is said once (`Turn`); the bound of the cache and the distinctness of its keys follow for
every interleaving. For calls of `verify`, every entry was put there by a capability that had
passed all the checks.
-/

namespace ControlPlaneKit

namespace Gateway

/-! ### Interleavings -/

/-- A call of `remember_once` that has read its clock. -/
structure Call where
  jti : String
  expiresAt : ℤ
  now : ℤ

/-- The entries of a cache and the calls that are on their way to its lock. -/
structure Cache where
  entries : Entries
  calls : ℕ → Option Call

/-- A cache that has just been built. -/
def Cache.empty : Cache :=
  ⟨[], fun _ => none⟩

/-- A step of one thread: it reads the clock, or it takes its turn under the lock. -/
inductive Cache.Step (maxEntries : ℕ) : Cache → Option (Call × Except Code Unit) → Cache → Prop where
  | read (s : Cache) (i : ℕ) (call : Call) (hi : s.calls i = none) :
      Cache.Step maxEntries s none { s with calls := Function.update s.calls i (some call) }
  | turn (s : Cache) (i : ℕ) (call : Call) (hi : s.calls i = some call) (entries : Entries)
      (outcome : Except Code Unit)
      (h : rememberOnce maxEntries s.entries call.now call.jti call.expiresAt = (entries, outcome)) :
      Cache.Step maxEntries s (some (call, outcome)) ⟨entries, Function.update s.calls i none⟩

/-- The interleavings of the calls on one cache. -/
abbrev Cache.Runs (maxEntries : ℕ) : Cache → Cache → Prop :=
  Relation.ReflTransGen fun s s' => ∃ label, Cache.Step maxEntries s label s'

/-! ### A turn under the lock -/

/-- What a turn does to the entries. -/
structure Effect (call : Call) (outcome : Except Code Unit) (before after : Entries) : Prop where
  /-- An entry is removed at or after its expiry, by the reading of this call. -/
  removed : ∀ m ∈ before, m ∉ after → m.2 ≤ call.now
  /-- A call that raises adds nothing and leaves every unexpired entry in its place. -/
  raised : outcome ≠ .ok () → after = before.evict call.now
  /-- A call that returns has inserted its capability, beside the unexpired entries, none of which
  was the same one. -/
  returned : outcome = .ok () → after = before.evict call.now ++ [(call.jti, call.expiresAt)] ∧
    call.jti ∉ (before.evict call.now).map (·.1)

section Turns

variable {maxEntries : ℕ} {entries entries' : Entries} {call : Call} {outcome : Except Code Unit}

theorem rememberOnce_effect
    (h : rememberOnce maxEntries entries call.now call.jti call.expiresAt = (entries', outcome)) :
    Effect call outcome entries entries' := by
  have hremoved : ∀ m ∈ entries, m ∉ entries.evict call.now → m.2 ≤ call.now := by
    intro m hm hnot
    by_contra hlater
    exact hnot (mem_evict.mpr ⟨hm, by omega⟩)
  rcases rememberOnce_cases h with ⟨rfl, rfl⟩ | ⟨rfl, rfl, hnew⟩
  · exact ⟨hremoved, fun _ => rfl, fun hok => by cases hok⟩
  · refine ⟨fun m hm hnot => hremoved m hm fun hkept => hnot (List.mem_append_left _ hkept),
      fun hne => absurd rfl hne, fun _ => ⟨rfl, fun hmem => ?_⟩⟩
    obtain ⟨m, hm, hjti⟩ := List.mem_map.mp hmem
    exact hnew m hm hjti

theorem evict_length_le (entries : Entries) (now : ℤ) :
    (entries.evict now).length ≤ entries.length :=
  List.length_filter_le _ _

/-- A turn keeps the number of the entries within the bound. -/
theorem rememberOnce_length (hbound : entries.length ≤ maxEntries)
    (h : rememberOnce maxEntries entries call.now call.jti call.expiresAt = (entries', outcome)) :
    entries'.length ≤ maxEntries := by
  have hkept : (entries.evict call.now).length ≤ entries.length := evict_length_le _ _
  unfold rememberOnce at h
  simp only at h
  split at h
  · cases h
    omega
  split at h
  · cases h
    omega
  · rename_i hroom
    cases h
    rw [List.length_append, List.length_singleton]
    omega

/-- A turn keeps the keys apart. -/
theorem rememberOnce_nodup (hnodup : (entries.map (·.1)).Nodup)
    (h : rememberOnce maxEntries entries call.now call.jti call.expiresAt = (entries', outcome)) :
    (entries'.map (·.1)).Nodup := by
  have hkept : ((entries.evict call.now).map (·.1)).Nodup :=
    hnodup.sublist (List.filter_sublist.map _)
  rcases rememberOnce_cases h with ⟨-, rfl⟩ | ⟨-, rfl, hnew⟩
  · exact hkept
  · rw [List.map_append, List.map_singleton, ← List.concat_eq_append]
    refine hkept.concat fun hmem => ?_
    obtain ⟨m, hm, hjti⟩ := List.mem_map.mp hmem
    exact hnew m hm hjti

end Turns

/-! ### All interleavings -/

section Interleavings

variable {maxEntries : ℕ} {s s' : Cache} {label : Option (Call × Except Code Unit)}

/-- What holds of the entries in every state. -/
structure Cache.Inv (maxEntries : ℕ) (s : Cache) : Prop where
  bounded : s.entries.length ≤ maxEntries
  nodup : (s.entries.map (·.1)).Nodup

theorem Cache.Step.inv (h : Cache.Step maxEntries s label s') (hs : s.Inv maxEntries) :
    s'.Inv maxEntries := by
  cases h with
  | read => exact ⟨hs.bounded, hs.nodup⟩
  | turn i call hi entries outcome h =>
    exact ⟨rememberOnce_length hs.bounded h, rememberOnce_nodup hs.nodup h⟩

theorem Cache.Runs.inv (h : Cache.Runs maxEntries .empty s) : s.Inv maxEntries := by
  induction h with
  | refl => exact ⟨Nat.zero_le _, List.nodup_nil⟩
  | tail _ hstep ih =>
    obtain ⟨label, hstep⟩ := hstep
    exact hstep.inv ih

/-- What one step does to the entries: only a turn touches them. -/
def StepEffect (before : Entries) (label : Option (Call × Except Code Unit)) (after : Entries) :
    Prop :=
  match label with
  | none => after = before
  | some (call, outcome) => Effect call outcome before after

theorem Cache.Step.effect (h : Cache.Step maxEntries s label s') :
    StepEffect s.entries label s'.entries := by
  cases h with
  | read => rfl
  | turn i call hi entries outcome h => exact rememberOnce_effect h

end Interleavings

/-! ### Calls of `verify` -/

section Verifiers

variable {codecs : Codecs} {v : Verifier} {s s' : Process}

/-- A step of a gateway process under an arbitrary clock. -/
inductive FreeStep (codecs : Codecs) (v : Verifier) : Process → Process → Prop where
  | step (s s' : Process) (h : Step codecs v s s') : FreeStep codecs v s s'
  | clock (s : Process) (clock : ℤ) : FreeStep codecs v s { s with clock := clock }
  /-- A call is rejected by a check. -/
  | rejected (s : Process) (i : ℕ) (header : Option String) (body : List UInt8) (code : Code)
      (hi : s.calls i = .idle) (h : verifyChecks codecs v s.clock header body = .error code) :
      FreeStep codecs v s { s with
        entries := (verify codecs v s.clock s.clock s.entries header body).1 }

abbrev FreeRuns (codecs : Codecs) (v : Verifier) : Process → Process → Prop :=
  Relation.ReflTransGen (FreeStep codecs v)

/-- A call that a check rejects does not reach the cache. -/
theorem verify_rejected {now reading : ℤ} {entries : Entries} {header : Option String}
    {body : List UInt8} {code : Code} (h : verifyChecks codecs v now header body = .error code) :
    verify codecs v now reading entries header body = (entries, .error code) := by
  rw [verify, h]

/-- The grant has passed all the checks of a call. -/
def Vouched (codecs : Codecs) (v : Verifier) (grant : Grant) : Prop :=
  ∃ now header body request, verifyChecks codecs v now header body = .ok (request, grant)

/-- The grant of a call that is past the checks. -/
def Stage.grant? : Stage → Option Grant
  | .idle => none
  | .checked _ grant => some grant
  | .timed _ grant _ => some grant

/-- The grants a process holds have passed the checks: those of its entries, and those of the calls
that are past them. -/
structure Process.Sound (codecs : Codecs) (v : Verifier) (s : Process) : Prop where
  entries : ∀ m ∈ s.entries, ∃ grant, Vouched codecs v grant ∧ m = (grant.jti, grant.expiresAt)
  calls : ∀ i grant, (s.calls i).grant? = some grant → Vouched codecs v grant

/-- A call moves on to a stage whose grant is vouched for. -/
theorem Process.Sound.move (hs : s.Sound codecs v) (i : ℕ) {stage : Stage}
    (hstage : ∀ grant, stage.grant? = some grant → Vouched codecs v grant) :
    Process.Sound codecs v { s with calls := Function.update s.calls i stage } where
  entries := hs.entries
  calls := by
    intro k grant hk
    simp only [Function.update_apply] at hk
    split at hk
    · exact hstage grant hk
    · exact hs.calls k grant hk

theorem FreeStep.sound (h : FreeStep codecs v s s') (hs : s.Sound codecs v) :
    s'.Sound codecs v := by
  cases h with
  | clock clock => exact ⟨hs.entries, hs.calls⟩
  | rejected i header body code hi h =>
    rw [verify_rejected h]
    exact hs
  | step _ h =>
    cases h with
    | tick clock => exact ⟨hs.entries, hs.calls⟩
    | check i header body request grant hi h =>
      refine hs.move i ?_
      rintro grant' ⟨⟩
      exact ⟨_, header, body, request, h⟩
    | read i request grant hi =>
      refine hs.move i ?_
      rintro grant' ⟨⟩
      exact hs.calls i grant (by rw [hi]; rfl)
    | remember i request grant now hi entries outcome h =>
      have hmoved : Process.Sound codecs v { s with calls := Function.update s.calls i .idle } :=
        hs.move i (by rintro grant ⟨⟩)
      have hold : ∀ m ∈ s.entries.evict now, ∃ grant, Vouched codecs v grant ∧
          m = (grant.jti, grant.expiresAt) := fun m hm => hs.entries m (mem_evict.mp hm).1
      refine ⟨fun m hm => ?_, hmoved.calls⟩
      rcases rememberOnce_cases h with ⟨-, rfl⟩ | ⟨-, rfl, -⟩
      · exact hold m hm
      · rcases List.mem_append.mp hm with hm | hm
        · exact hold m hm
        · exact ⟨grant, hs.calls i grant (by rw [hi]; rfl), List.mem_singleton.mp hm⟩

theorem FreeRuns.sound {clock : ℤ} (h : FreeRuns codecs v (.start clock) s) :
    s.Sound codecs v := by
  induction h with
  | refl => exact ⟨by simp [Process.start], by simp [Process.start, Stage.grant?]⟩
  | tail _ hstep ih => exact hstep.sound ih

end Verifiers

/-- **The replay cache under concurrency**: in every interleaving the entries are bounded and their
keys differ, each step does to them what its turn says, and with calls of `verify` every entry is a
grant that has passed the checks, since a rejected call changes none. -/
theorem replayCache_interleavings (codecs : Codecs) (v : Verifier) :
    (∀ s, Cache.Runs v.maxEntries .empty s → s.entries.length ≤ v.maxEntries ∧
      (s.entries.map (·.1)).Nodup ∧ ∀ label s', Cache.Step v.maxEntries s label s' →
        StepEffect s.entries label s'.entries) ∧
    (∀ clock s, FreeRuns codecs v (.start clock) s → ∀ m ∈ s.entries, ∃ grant,
      Vouched codecs v grant ∧ m = (grant.jti, grant.expiresAt)) ∧
    ∀ now reading entries header body code, verifyChecks codecs v now header body = .error code →
      verify codecs v now reading entries header body = (entries, .error code) := by
  refine ⟨fun s hs => ?_, fun clock s hs => hs.sound.entries, ?_⟩
  · have hinv := Cache.Runs.inv hs
    exact ⟨hinv.bounded, hinv.nodup, fun label s' hstep => hstep.effect⟩
  · intro now reading entries header body code h
    exact verify_rejected h

namespace Instance

/-- Two calls with one capability; the second has an older reading. -/
def first : Call :=
  ⟨"capability", 100, 99⟩

def second : Call :=
  ⟨"capability", 100, 98⟩

/-- The calls of the two threads. -/
def calls (a b : Option Call) : ℕ → Option Call :=
  Function.update (Function.update (fun _ => none) 0 a) 1 b

/-- Both have read the clock before either has its turn, which the second one takes first. -/
theorem runs_overlapping :
    Cache.Runs 4096 .empty ⟨[("capability", 100)], calls (some first) none⟩ := by
  have hread : Cache.Step 4096 .empty none ⟨[], calls (some first) none⟩ := by
    have hcalls : calls (some first) none = Function.update (fun _ => none) 0 (some first) := by
      rw [calls, Function.update_eq_self_iff]
      rfl
    rw [hcalls]
    exact .read .empty 0 first rfl
  have hread' : Cache.Step 4096 ⟨[], calls (some first) none⟩ none
      ⟨[], calls (some first) (some second)⟩ := by
    have hcalls : calls (some first) (some second) =
        Function.update (calls (some first) none) 1 (some second) := by
      rw [calls, calls, Function.update_idem]
    rw [hcalls]
    exact .read ⟨[], calls (some first) none⟩ 1 second rfl
  have hturn : Cache.Step 4096 ⟨[], calls (some first) (some second)⟩ (some (second, .ok ()))
      ⟨[("capability", 100)], calls (some first) none⟩ := by
    have hcalls : calls (some first) none =
        Function.update (calls (some first) (some second)) 1 none := by
      rw [calls, calls, Function.update_idem]
    rw [hcalls]
    exact .turn _ 1 second rfl [("capability", 100)] (.ok ()) (by decide)
  exact ((Relation.ReflTransGen.single ⟨_, hread⟩).tail ⟨_, hread'⟩).tail ⟨_, hturn⟩

/-- Then the first one is refused. -/
theorem step_refused : Cache.Step 4096 ⟨[("capability", 100)], calls (some first) none⟩
    (some (first, .error .replayed))
    ⟨[("capability", 100)], Function.update (calls (some first) none) 0 none⟩ :=
  .turn _ 0 first rfl [("capability", 100)] (.error .replayed) (by decide)

theorem replayCache_overlapping : [("capability", (100 : ℤ))].length ≤ verifier.maxEntries ∧
    StepEffect [("capability", 100)] (some (first, .error .replayed)) [("capability", 100)] :=
  have hcache := (replayCache_interleavings codecs verifier).1 _ runs_overlapping
  ⟨hcache.1, hcache.2.2 _ _ step_refused⟩

end Instance

end Gateway

end ControlPlaneKit
