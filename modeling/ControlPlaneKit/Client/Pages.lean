import ControlPlaneKit.Client.HealthyRun
import ControlPlaneKit.Client.StatusRun
import ControlPlaneKit.Interaction.Runs
import ControlPlaneKit.Python.Sorted

/-!
# Public paging

`_page` follows the cursors of a paginated read within a budget of reads. Its runs are exactly these
(`readPages_complete`): either the answers form a complete chain of pages and the items of all of
them are returned, or it raises.
-/

namespace ControlPlaneKit

namespace Json

/-! ### Canonical texts -/

section Canonical

variable {floatText : ℚ → List Char}

/-- A value has one canonical text, whatever the order of its members. -/
theorem encode_inj_sorted {a b : Json} {key key' : List Char} (hsorted : a.sorted = b.sorted)
    (ha : a.encode floatText = some key) (hb : b.encode floatText = some key') : key = key' := by
  rw [encode_eq_dumps (isFinite_of_encode (by rw [ha]; rfl))] at ha
  rw [encode_eq_dumps (isFinite_of_encode (by rw [hb]; rfl))] at hb
  rw [← Option.some.inj ha, ← Option.some.inj hb, dumps, dumps, hsorted]

end Canonical

end Json

namespace Client

open Interaction

/-! ### Chains of pages -/

/-- `page.get("next_cursor")`, where it is an object. -/
def nextCursor (response : Fields) : Option Fields :=
  match response.get "next_cursor" with
  | .obj next => some next
  | _ => none

/-- `page.get("items")`, where it is a list. -/
def pageBatch (response : Fields) : List Json :=
  match response.get "items" with
  | .arr batch => batch
  | _ => []

/-- The payload of the read after a cursor; the first read has none. -/
def pageRequest (cursor : Option Fields) : Fields :=
  ("limit", natJson maximumPageItems) ::
    (cursor.map fun after => (("after" : Text), Json.obj after)).toList

section Chain

variable (profile : ClientProfile) (ref : OperationRef) (route : ReadRoute) (path : PathParameters)

/-- The reads with these answers, in which each later read uses the cursor of the page before. -/
def pageChain : Option Fields → List Fields → Trace
  | _, [] => []
  | cursor, response :: responses =>
    page (readCall profile ref route path (pageRequest cursor)) response ++
      pageChain (nextCursor response) responses

end Chain

/-- The answers are all pages of a list: every page but the last has a cursor, and no two cursors
are the same value. -/
structure Complete (rt : Runtime) (responses : List Fields) : Prop where
  batches : ∀ response ∈ responses, ∃ batch, response.get "items" = .arr batch ∧
    batch.length ≤ maximumPageItems
  ends : ∃ before last, responses = before ++ [last] ∧ last.get "next_cursor" = .null ∧
    ∀ response ∈ before, ∃ next, response.get "next_cursor" = .obj next
  keys : ∃ keys : List (List Char), keys.Nodup ∧ (∀ key ∈ keys, key.length ≤ maximumCursorBytes) ∧
    (responses.filterMap nextCursor).map (cursorKey rt) = keys.map .ok
  distinct : (responses.filterMap nextCursor).Pairwise fun a b =>
    (Json.obj a).sorted ≠ (Json.obj b).sorted

/-- The answers are the remaining pages, after cursors with these keys. -/
inductive CompleteFrom (rt : Runtime) : List (List Char) → List Fields → Prop where
  | last {seen : List (List Char)} {response : Fields} {batch : List Json}
      (hbatch : response.get "items" = .arr batch) (hshort : batch.length ≤ maximumPageItems)
      (hlast : response.get "next_cursor" = .null) : CompleteFrom rt seen [response]
  | more {seen : List (List Char)} {response : Fields} {responses : List Fields}
      {batch : List Json} {next : Fields} {key : List Char}
      (hbatch : response.get "items" = .arr batch) (hshort : batch.length ≤ maximumPageItems)
      (hnext : response.get "next_cursor" = .obj next)
      (hkey : cursorKey rt next = .ok key)
      (hbound : key.length ≤ maximumCursorBytes) (hnew : key ∉ seen)
      (h : CompleteFrom rt (key :: seen) responses) :
      CompleteFrom rt seen (response :: responses)

section CompleteFrom

variable {rt : Runtime} {seen : List (List Char)} {responses : List Fields}
  {response next : Fields} {key : List Char}

theorem nextCursor_eq_some : nextCursor response = some next ↔
    response.get "next_cursor" = .obj next := by
  unfold nextCursor
  split
  · next hnext => rw [hnext, Option.some.injEq, Json.obj.injEq]
  · next hne =>
    refine ⟨fun h => (by cases h), fun h => absurd h (hne next)⟩

theorem nextCursor_null (h : response.get "next_cursor" = .null) : nextCursor response = none := by
  rw [nextCursor, h]

/-- A key is the canonical text of its cursor. -/
theorem encode_of_cursorKey {cursor : Fields} (h : cursorKey rt cursor = .ok key) :
    (Json.obj cursor).encode rt.floatText = some key := by
  unfold cursorKey at h
  split at h
  · cases h
  · split at h
    · cases h
    · next hkey => exact hkey.trans (congrArg some (Except.ok.inj h))

theorem CompleteFrom.batches (h : CompleteFrom rt seen responses) :
    ∀ response ∈ responses, ∃ batch, response.get "items" = .arr batch ∧
      batch.length ≤ maximumPageItems := by
  induction h with
  | last hbatch hshort hlast =>
    rw [List.forall_mem_singleton]
    exact ⟨_, hbatch, hshort⟩
  | more hbatch hshort _ _ _ _ _ ih => exact List.forall_mem_cons.mpr ⟨⟨_, hbatch, hshort⟩, ih⟩

theorem CompleteFrom.ends (h : CompleteFrom rt seen responses) :
    ∃ before last, responses = before ++ [last] ∧ last.get "next_cursor" = .null ∧
      ∀ response ∈ before, ∃ next, response.get "next_cursor" = .obj next := by
  induction h with
  | last hbatch hshort hlast =>
    exact ⟨[], _, rfl, hlast, fun _ h => absurd h List.not_mem_nil⟩
  | more _ _ hnext _ _ _ _ ih =>
    obtain ⟨before, last, rfl, hlast, hbefore⟩ := ih
    exact ⟨_ :: before, last, rfl, hlast, List.forall_mem_cons.mpr ⟨⟨_, hnext⟩, hbefore⟩⟩

theorem CompleteFrom.keys (h : CompleteFrom rt seen responses) :
    ∃ keys : List (List Char), keys.Nodup ∧ (∀ key ∈ keys, key ∉ seen) ∧
      (∀ key ∈ keys, key.length ≤ maximumCursorBytes) ∧
      (responses.filterMap nextCursor).map (cursorKey rt) = keys.map .ok := by
  induction h with
  | last hbatch hshort hlast =>
    refine ⟨[], .nil, ?_, ?_, ?_⟩
    · exact fun _ h => absurd h List.not_mem_nil
    · exact fun _ h => absurd h List.not_mem_nil
    · rw [List.filterMap_cons_none (nextCursor_null hlast)]
      rfl
  | @more seen response responses batch next key hbatch hshort hnext hkey hbound hnew _ ih =>
    obtain ⟨keys, hnodup, hfresh, hbounds, hkeys⟩ := ih
    refine ⟨key :: keys, ?_, ?_, List.forall_mem_cons.mpr ⟨hbound, hbounds⟩, ?_⟩
    · exact List.nodup_cons.mpr ⟨fun hmem => hfresh key hmem List.mem_cons_self, hnodup⟩
    · exact List.forall_mem_cons.mpr
        ⟨hnew, fun key' hmem hseen => hfresh key' hmem (List.mem_cons_of_mem _ hseen)⟩
    · rw [List.filterMap_cons_some (nextCursor_eq_some.mpr hnext), List.map_cons, hkey, hkeys]
      rfl

/-- Cursors whose canonical texts are distinct are distinct values. -/
theorem pairwise_sorted_ne {cursors : List Fields} {keys : List (List Char)} (hnodup : keys.Nodup)
    (hkeys : cursors.map (cursorKey rt) = keys.map .ok) :
    cursors.Pairwise fun a b => (Json.obj a).sorted ≠ (Json.obj b).sorted := by
  induction cursors generalizing keys with
  | nil => exact .nil
  | cons cursor cursors ih =>
    cases keys with
    | nil => cases hkeys
    | cons key keys =>
      obtain ⟨hkey, hkeys⟩ := List.cons.inj hkeys
      obtain ⟨hfresh, hnodup⟩ := List.nodup_cons.mp hnodup
      refine List.pairwise_cons.mpr ⟨fun other hother hsorted => ?_, ih hnodup hkeys⟩
      have hmem : cursorKey rt other ∈ keys.map .ok := by
        rw [← hkeys]
        exact List.mem_map_of_mem hother
      obtain ⟨key', hkey', heq⟩ := List.mem_map.mp hmem
      exact hfresh (Json.encode_inj_sorted hsorted (encode_of_cursorKey hkey)
        (encode_of_cursorKey heq.symm) ▸ hkey')

theorem CompleteFrom.complete (h : CompleteFrom rt [] responses) :
    Complete rt responses := by
  obtain ⟨keys, hnodup, -, hbounds, hkeys⟩ := h.keys
  exact ⟨h.batches, h.ends, ⟨keys, hnodup, hbounds, hkeys⟩, pairwise_sorted_ne hnodup hkeys⟩

/-- Pages that are complete as a whole are complete one after the other. -/
theorem completeFrom_of {before : List Fields} {last : Fields} {keys : List (List Char)}
    (hbatches : ∀ response ∈ before ++ [last], ∃ batch, response.get "items" = .arr batch ∧
      batch.length ≤ maximumPageItems)
    (hlast : last.get "next_cursor" = .null)
    (hbefore : ∀ response ∈ before, ∃ next, response.get "next_cursor" = .obj next)
    (hnodup : keys.Nodup) (hfresh : ∀ key ∈ keys, key ∉ seen)
    (hbounds : ∀ key ∈ keys, key.length ≤ maximumCursorBytes)
    (hkeys : ((before ++ [last]).filterMap nextCursor).map (cursorKey rt) = keys.map .ok) :
    CompleteFrom rt seen (before ++ [last]) := by
  induction before generalizing keys seen with
  | nil =>
    obtain ⟨batch, hbatch, hshort⟩ := hbatches last List.mem_cons_self
    exact .last hbatch hshort hlast
  | cons response before ih =>
    rw [List.cons_append, List.forall_mem_cons] at hbatches
    obtain ⟨⟨batch, hbatch, hshort⟩, hbatches⟩ := hbatches
    obtain ⟨⟨next, hnext⟩, hbefore⟩ := List.forall_mem_cons.mp hbefore
    rw [List.cons_append, List.filterMap_cons_some (nextCursor_eq_some.mpr hnext)] at hkeys
    cases keys with
    | nil => cases hkeys
    | cons key keys =>
      obtain ⟨hkey, hkeys⟩ := List.cons.inj hkeys
      obtain ⟨hnew, hnodup⟩ := List.nodup_cons.mp hnodup
      obtain ⟨hunseen, hfresh⟩ := List.forall_mem_cons.mp hfresh
      obtain ⟨hbound, hbounds⟩ := List.forall_mem_cons.mp hbounds
      -- the key of this page joins those that were seen
      refine .more hbatch hshort hnext hkey hbound hunseen
        (ih hbatches hbefore hnodup (fun key' hmem hseen => ?_) hbounds hkeys)
      rcases List.mem_cons.mp hseen with rfl | hseen
      · exact hnew hmem
      · exact hfresh key' hmem hseen

theorem completeFrom_nil_iff :
    CompleteFrom rt [] responses ↔ Complete rt responses := by
  refine ⟨CompleteFrom.complete, fun h => ?_⟩
  obtain ⟨before, last, rfl, hlast, hbefore⟩ := h.ends
  obtain ⟨keys, hnodup, hbounds, hkeys⟩ := h.keys
  exact completeFrom_of h.batches hlast hbefore hnodup (fun _ _ => List.not_mem_nil) hbounds hkeys

end CompleteFrom

/-! ### Runs -/

section Runs

variable {rt : Runtime} {profile : ClientProfile} {ref : OperationRef} {route : ReadRoute}
  {path : PathParameters}

/-- The reads are those of a chain of pages that is complete from here on. -/
def ReadsComplete (rt : Runtime) (profile : ClientProfile) (ref : OperationRef) (route : ReadRoute)
    (path : PathParameters) (cursor : Option Fields) (seen : List (List Char)) (tr : Trace) : Prop :=
  ∃ responses, tr = pageChain profile ref route path cursor responses ∧
    CompleteFrom rt seen responses

/-- What a page that was answered first says of the chain. -/
theorem ReadsComplete.cons {cursor : Option Fields} {seen : List (List Char)} {tr : Trace}
    {call : Call} {response : Fields}
    (h : ReadsComplete rt profile ref route path cursor seen (page call response ++ tr)) :
    ∃ batch, response.get "items" = .arr batch ∧ batch.length ≤ maximumPageItems ∧
      (response.get "next_cursor" = .null ∧ tr = [] ∨
        ∃ next key, response.get "next_cursor" = .obj next ∧
          cursorKey rt next = .ok key ∧ key.length ≤ maximumCursorBytes ∧
          key ∉ seen ∧ ReadsComplete rt profile ref route path (some next) (key :: seen) tr) := by
  obtain ⟨responses, htr, hcomplete⟩ := h
  cases hcomplete with
  | last hbatch hshort hlast =>
    cases htr
    exact ⟨_, hbatch, hshort, .inl ⟨hlast, rfl⟩⟩
  | more hbatch hshort hnext hkey hbound hnew hrest =>
    cases htr
    refine ⟨_, hbatch, hshort, .inr ⟨_, _, hnext, hkey, hbound, hnew, _, ?_, hrest⟩⟩
    rw [nextCursor_eq_some.mpr hnext]

theorem not_readsComplete_nil {cursor : Option Fields} {seen : List (List Char)} :
    ¬ ReadsComplete rt profile ref route path cursor seen [] := by
  rintro ⟨responses, htr, hcomplete⟩
  cases hcomplete <;> cases htr

theorem not_readsComplete_unanswered {cursor : Option Fields} {seen : List (List Char)}
    {call : Call} {a : CallAnswer} (ha : ∀ response, a ≠ .reply response) :
    ¬ ReadsComplete rt profile ref route path cursor seen [⟨.call call, a⟩] := by
  rintro ⟨responses, htr, hcomplete⟩
  cases responses with
  | nil => cases hcomplete
  | cons response responses =>
    obtain ⟨hhead, -⟩ := List.cons.inj htr
    cases hhead
    exact ha response rfl

/-- How the loop ends: with the items of a complete chain, or by raising on every other. -/
def PagesEnd (rt : Runtime) (profile : ClientProfile) (ref : OperationRef) (route : ReadRoute)
    (path : PathParameters) (items : List Json) (cursor : Option Fields) (seen : List (List Char))
    (tr : Trace) (r : Except Exit (List Json)) : Prop :=
  (∃ responses, tr = pageChain profile ref route path cursor responses ∧
      CompleteFrom rt seen responses ∧ r = .ok (items ++ responses.flatMap pageBatch)) ∨
    ¬ ReadsComplete rt profile ref route path cursor seen tr ∧ ∃ e, r = .error (.error e)

theorem pagesEnd_raise {items : List Json} {cursor : Option Fields} {seen : List (List Char)}
    {tr : Trace} {call : Call} {response : Fields} {r : Except Exit (List Json)} {e : ClientError}
    {reads : ℕ} (h : (Client.raise e : Block (List Json)).Runs tr r)
    (hno : ¬ ReadsComplete rt profile ref route path cursor seen (page call response ++ tr)) :
    tr.length ≤ reads ∧
      PagesEnd rt profile ref route path items cursor seen (page call response ++ tr) r := by
  obtain ⟨rfl, rfl⟩ := runs_raise.mp h
  exact ⟨Nat.zero_le _, .inr ⟨hno, e, rfl⟩⟩

theorem pagesEnd_last {items batch : List Json} {cursor : Option Fields} {seen : List (List Char)}
    {response : Fields} (hbatch : response.get "items" = .arr batch)
    (hshort : batch.length ≤ maximumPageItems) (hlast : response.get "next_cursor" = .null) :
    PagesEnd rt profile ref route path items cursor seen
      (page (readCall profile ref route path (pageRequest cursor)) response)
      (.ok (items ++ batch)) := by
  refine .inl ⟨[response], rfl, .last hbatch hshort hlast, ?_⟩
  rw [List.flatMap_singleton, pageBatch, hbatch]

/-- A page with an accepted cursor is followed by the chain after it. -/
theorem PagesEnd.more {items batch : List Json} {cursor : Option Fields} {seen : List (List Char)}
    {tr : Trace} {response next : Fields} {key : List Char} {r : Except Exit (List Json)}
    (hbatch : response.get "items" = .arr batch) (hshort : batch.length ≤ maximumPageItems)
    (hnext : response.get "next_cursor" = .obj next)
    (hkey : cursorKey rt next = .ok key)
    (hbound : key.length ≤ maximumCursorBytes) (hnew : key ∉ seen)
    (h : PagesEnd rt profile ref route path (items ++ batch) (some next) (key :: seen) tr r) :
    PagesEnd rt profile ref route path items cursor seen
      (page (readCall profile ref route path (pageRequest cursor)) response ++ tr) r := by
  rcases h with ⟨responses, rfl, hcomplete, rfl⟩ | ⟨hno, he⟩
  · refine .inl ⟨response :: responses, ?_, .more hbatch hshort hnext hkey hbound hnew hcomplete, ?_⟩
    · rw [pageChain, nextCursor_eq_some.mpr hnext]
    · rw [List.flatMap_cons, pageBatch, hbatch, List.append_assoc]
  · refine .inr ⟨fun hcomplete => ?_, he⟩
    obtain ⟨_, -, -, ⟨hnull, -⟩ | ⟨next', key', hnext', hkey', -, -, hrest⟩⟩ := hcomplete.cons
    · rw [hnext] at hnull
      cases hnull
    · cases hnext.symm.trans hnext'
      cases hkey.symm.trans hkey'
      exact hno hrest

/-- The runs of the loop. -/
theorem runs_pageFrom_complete {reads : ℕ} {items : List Json} {cursor : Option Fields}
    {seen : List (List Char)} {tr : Trace} {r : Except Exit (List Json)}
    (h : (pageFrom rt profile ref route path reads items cursor seen).Runs tr r) :
    tr.length ≤ reads ∧ PagesEnd rt profile ref route path items cursor seen tr r := by
  induction reads generalizing items cursor seen tr with
  | zero =>
    obtain ⟨rfl, rfl⟩ := runs_raise.mp h
    exact ⟨le_refl _, .inr ⟨not_readsComplete_nil, _, rfl⟩⟩
  | succ reads ih =>
    rcases h.bind_cases with ⟨e, h₁, rfl⟩ | ⟨response, tr₁, tr₂, rfl, h₁, h₂⟩
    · obtain ⟨a, rfl, ⟨response, -, hr⟩ | ⟨hne, e', he⟩⟩ := runs_readPublic h₁
      · cases hr
      · cases he
        exact ⟨Nat.succ_le_succ (Nat.zero_le _), .inr ⟨not_readsComplete_unanswered hne, _, rfl⟩⟩
    obtain rfl : tr₁ = page (readCall profile ref route path (pageRequest cursor)) response :=
      runs_readPublic_ok h₁
    -- every page that the loop does not accept is answered by an exception
    suffices hrest : tr₂.length ≤ reads ∧ PagesEnd rt profile ref route path items cursor seen
        (page (readCall profile ref route path (pageRequest cursor)) response ++ tr₂) r from
      ⟨Nat.succ_le_succ hrest.1, hrest.2⟩
    split at h₂
    swap
    · next hne =>
      refine pagesEnd_raise h₂ fun hcomplete => ?_
      obtain ⟨batch, hbatch, -⟩ := hcomplete.cons
      exact hne batch hbatch
    next batch hbatch =>
    split at h₂
    · next hlong =>
      refine pagesEnd_raise h₂ fun hcomplete => ?_
      obtain ⟨batch', hbatch', hshort, -⟩ := hcomplete.cons
      cases hbatch.symm.trans hbatch'
      omega
    next hlong =>
    have hshort : batch.length ≤ maximumPageItems := Nat.le_of_not_lt hlong
    split at h₂
    · next hlast =>
      obtain ⟨rfl, rfl⟩ := runs_pure.mp h₂
      rw [List.append_nil]
      exact ⟨Nat.zero_le _, pagesEnd_last hbatch hshort hlast⟩
    · next next hnext =>
      have hcursor : ∀ {tr}, ReadsComplete rt profile ref route path cursor seen
          (page (readCall profile ref route path (pageRequest cursor)) response ++ tr) →
          ∃ key, cursorKey rt next = .ok key ∧
            key.length ≤ maximumCursorBytes ∧ key ∉ seen := by
        intro tr hcomplete
        obtain ⟨_, -, -, ⟨hnull, -⟩ | ⟨next', key, hnext', hkey, hbound, hnew, -⟩⟩ := hcomplete.cons
        · rw [hnext] at hnull
          cases hnull
        · cases hnext.symm.trans hnext'
          exact ⟨key, hkey, hbound, hnew⟩
      split at h₂
      · next hkey =>
        refine pagesEnd_raise h₂ fun hcomplete => ?_
        obtain ⟨key, hkey', -⟩ := hcursor hcomplete
        rw [hkey] at hkey'
        cases hkey'
      next key hkey =>
      split at h₂
      · next hrefused =>
        refine pagesEnd_raise h₂ fun hcomplete => ?_
        obtain ⟨key', hkey', hbound, hnew⟩ := hcursor hcomplete
        cases hkey.symm.trans hkey'
        rw [Bool.or_eq_true, decide_eq_true_iff, List.contains_iff_mem] at hrefused
        exact hrefused.elim (fun hlong => absurd hbound (Nat.not_le.mpr hlong)) hnew
      · next hfresh =>
        rw [Bool.or_eq_true, decide_eq_true_iff, List.contains_iff_mem, not_or] at hfresh
        obtain ⟨hlength, hend⟩ := ih h₂
        exact ⟨hlength, .more hbatch hshort hnext hkey (Nat.le_of_not_lt hfresh.1) hfresh.2 hend⟩
    · next hnull hobj =>
      refine pagesEnd_raise h₂ fun hcomplete => ?_
      obtain ⟨_, -, -, ⟨hlast, -⟩ | ⟨next', -, hnext', -⟩⟩ := hcomplete.cons
      · exact hnull hlast
      · exact hobj next' hnext'

/-- **Public paging is complete or fails**: within sixteen reads, `_page` returns the items of a
complete chain of pages, and raises in every other case. -/
theorem readPages_complete {tr : Trace} {r : Except Exit (List Json)}
    (h : (readPages rt profile ref route path).Runs tr r) :
    tr.length ≤ 16 ∧
      ((∃ responses, tr = pageChain profile ref route path none responses ∧
          Complete rt responses ∧ r = .ok (responses.flatMap pageBatch)) ∨
        ¬ (∃ responses, tr = pageChain profile ref route path none responses ∧
            Complete rt responses) ∧
          ∃ e, r = .error (.error e)) := by
  obtain ⟨hlength, hend⟩ := runs_pageFrom_complete h
  refine ⟨hlength, hend.imp ?_ ?_⟩
  · rintro ⟨responses, htr, hcomplete, hr⟩
    exact ⟨responses, htr, hcomplete.complete, hr⟩
  · rintro ⟨hno, he⟩
    refine ⟨?_, he⟩
    rintro ⟨responses, htr, hcomplete⟩
    exact hno ⟨responses, htr, completeFrom_nil_iff.mpr hcomplete⟩

end Runs

namespace Instance

/-- A first page with a cursor. -/
def firstPage : Fields :=
  [("items", .arr [.null]), ("next_cursor", .obj [])]

/-- The page after it. -/
def secondPage : Fields :=
  [("items", .arr [.bool true]), ("next_cursor", .null)]

theorem runs_page (payload response : Fields) :
    (readPublic profile scenario.ref .planRuns [] payload).Runs
      (page (readCall profile scenario.ref .planRuns [] payload) response) (.ok response) := by
  unfold readPublic callTransport page readCall
  apply Program.Runs.perform
  exact .pure response

theorem cursorKey_nil : cursorKey runtime [] = .ok ['{', '}'] := by
  have hdepth : ¬ runtime.depthLimit < (Json.obj []).depth := by decide
  rw [cursorKey, if_neg hdepth, Json.encode, Json.encodeMembers, Option.map_some,
    List.mergeSort_nil]
  rfl

theorem runs_twoPages : (readPages runtime profile scenario.ref .planRuns []).Runs
    (pageChain profile scenario.ref .planRuns [] none [firstPage, secondPage])
    (.ok [.null, .bool true]) := by
  have hitems : firstPage.get "items" = .arr [.null] := rfl
  have hnext : firstPage.get "next_cursor" = .obj [] := rfl
  unfold readPages maximumPublicPages pageFrom
  refine (runs_page _ firstPage).bind ?_
  rw [hitems]
  dsimp only
  rw [if_neg (by decide), hnext]
  dsimp only
  rw [cursorKey_nil]
  dsimp only
  rw [if_neg (by decide), pageFrom]
  exact (runs_page _ secondPage).bind (.pure _)

theorem readPages_twoPages :
    (pageChain profile scenario.ref .planRuns [] none [firstPage, secondPage]).length ≤ 16 ∧
      ((∃ responses, pageChain profile scenario.ref .planRuns [] none [firstPage, secondPage] =
            pageChain profile scenario.ref .planRuns [] none responses ∧
          Complete runtime responses ∧
          (.ok [.null, .bool true] : Except Exit (List Json)) =
            .ok (responses.flatMap pageBatch)) ∨
        ¬ (∃ responses, pageChain profile scenario.ref .planRuns [] none [firstPage, secondPage] =
              pageChain profile scenario.ref .planRuns [] none responses ∧
            Complete runtime responses) ∧
          ∃ e, (.ok [.null, .bool true] : Except Exit (List Json)) = .error (.error e)) :=
  readPages_complete runs_twoPages

end Instance

end Client

end ControlPlaneKit
