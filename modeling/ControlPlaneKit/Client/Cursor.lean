import ControlPlaneKit.Client.Transport
import ControlPlaneKit.Python.Sorted
import ControlPlaneKit.Python.Surrogates

/-!
# A page cursor comes back

The server reads a cursor with `json.loads` and three hooks. What it reads of the text of a cursor
with plus signs for its spaces is the cursor itself exactly where no key and no string of it has a
space or a surrogate pair (`decode_query_iff`): a space has become a plus sign, and a pair is one
character. In one direction every value of the cursor is read back. In the other, what is read holds
no pair, and hooks that refuse nothing read the value with plus signs, so no space either.
-/

namespace ControlPlaneKit

namespace Client

open ControlPlaneKit.Json Url Server Scan

/-! ### The hooks -/

/-- The hooks of a page cursor: `_unique_json_object`, `_reject_json_constant` and
`_parse_finite_json_float`. -/
def cursorHooks (ip : Interpreter) : Hooks where
  object := (Hooks.unique ip).object
  constant _ := .error .value
  number cs :=
    match ip.floatOf cs with
    | .finite q => .ok (.float (.finite q))
    | _ => .error .value

/-- An exception of the parser, as the decoding of a query tells them apart. -/
def queryError : LoadsError → QueryError
  | .decode => .jsonDecodeError
  | .value => .valueError
  | .recursion => .recursionError

/-- `json.loads` with these hooks. -/
def loadsCursor (ip : Interpreter) (value : String) : Except QueryError Json :=
  ((cursorHooks ip).loads ip.depthLimit value.toList).mapError queryError

/-- The hooks, but for members that come again. -/
def lenientHooks (ip : Interpreter) : Hooks :=
  { cursorHooks ip with object := fun members => .ok (.obj members) }

section Hooks

variable {ip : Interpreter} {floatText : ℚ → List Char} {depth : ℕ} {v : Json}

theorem keeps_cursorHooks : (cursorHooks ip).Keeps Hooks.Distinct :=
  Hooks.keeps_unique ip

theorem within_lenientHooks : (cursorHooks ip).Within (lenientHooks ip) where
  object := by
    intro members v h
    change (if Hooks.Distinct members then _ else _) = _ at h
    split at h
    · exact h
    · cases h
  constant h := h
  number h := h

theorem decodes_cursorHooks : (cursorHooks ip).Decodes where
  object := by
    intro members v hnames hvalues h
    change (if Hooks.Distinct members then _ else _) = _ at h
    split at h
    · next hkeys =>
      cases h
      exact .obj hkeys hnames hvalues
    · cases h
  constant := by
    intro x v h
    cases h
  number := by
    intro cs v h
    unfold cursorHooks at h
    dsimp only at h
    split at h
    · cases h
      exact .float _
    · cases h

/-- With plus signs, members may have become the same: the lenient hooks read them. -/
theorem readable_plus (h : (cursorHooks ip).Legible floatText depth v) :
    (lenientHooks ip).Readable floatText (fun _ => True) depth v.plus := by
  induction h with
  | null => exact .null
  | bool b => exact .bool b
  | int hn => exact .int hn
  | @float _ x hx =>
    cases x with
    | finite q => exact .float hx
    | _ => exact .float hx
  | str ht => exact .str ht.plus
  | arr _ ih =>
    rw [plus_arr]
    refine .arr ?_
    rw [List.forall_mem_map]
    exact ih
  | obj _ hnames _ ih =>
    rw [plus_obj]
    refine .obj trivial ?_ ?_
    · rw [List.forall_mem_map]
      exact fun m hm => (hnames m hm).plus
    · rw [List.forall_mem_map]
      exact ih

end Hooks

/-! ### Cursors -/

/-- A value of a cursor: an integer of at most as many digits as the interpreter converts, a finite
float that is read back from its text, any Python string, and lists and objects of such values. -/
inductive Carried (ip : Interpreter) (floatText : ℚ → List Char) : Json → Prop where
  | null : Carried ip floatText .null
  | bool (b : Bool) : Carried ip floatText (.bool b)
  | int {n : ℤ} (hn : (Nat.toDigits 10 n.natAbs).length ≤ 4300) : Carried ip floatText (.int n)
  | float {q : ℚ} (hq : (cursorHooks ip).ReadsFloat floatText (.finite q)) :
      Carried ip floatText (.float (.finite q))
  | str {t : Text} (ht : t.Proper) : Carried ip floatText (.str t)
  | arr {items : List Json} (hitems : ∀ v ∈ items, Carried ip floatText v) :
      Carried ip floatText (.arr items)
  | obj {members : Fields} (hkeys : (members.map (·.1)).Nodup)
      (hnames : ∀ m ∈ members, m.1.Proper) (hvalues : ∀ m ∈ members, Carried ip floatText m.2) :
      Carried ip floatText (.obj members)

section Query

variable {ip : Interpreter} {platform : Platform} {floatText : ℚ → List Char} {depth limit : ℕ}
  {cursor after : Fields} {v : Json}

/-- Without a surrogate pair a value of a cursor is read back. -/
theorem Carried.legible (h : Carried ip floatText v) (hpaired : v.paired = false)
    (hdepth : nesting v ≤ depth) : (cursorHooks ip).Legible floatText depth v := by
  induction h generalizing depth with
  | null => exact .null
  | bool b => exact .bool b
  | int hn => exact .int hn
  | float hq => exact .float hq
  | str ht => exact .str (isScanned_iff.mpr ⟨ht, hpaired⟩)
  | arr _ ih =>
    obtain ⟨depth, rfl⟩ := Nat.exists_eq_add_of_le' (Nat.one_le_of_lt hdepth)
    rw [nesting, Nat.add_le_add_iff_right, nestingItems_le] at hdepth
    rw [paired_arr, List.any_eq_false] at hpaired
    exact .arr fun v hv => ih v hv (eq_false_of_ne_true (hpaired v hv)) (hdepth v hv)
  | @obj members hkeys hnames _ ih =>
    obtain ⟨depth, rfl⟩ := Nat.exists_eq_add_of_le' (Nat.one_le_of_lt hdepth)
    rw [nesting, Nat.add_le_add_iff_right, nestingMembers_le] at hdepth
    rw [paired_obj, List.any_eq_false] at hpaired
    have hboth : ∀ m ∈ members, m.1.paired = false ∧ m.2.paired = false := fun m hm =>
      Bool.or_eq_false_iff.mp (eq_false_of_ne_true (hpaired m hm))
    exact .obj hkeys (fun m hm => isScanned_iff.mpr ⟨hnames m hm, (hboth m hm).1⟩)
      fun m hm => ih m hm (hboth m hm).2 (hdepth m hm)

theorem loads_of_loadsCursor {value : String} (h : loadsCursor ip value = .ok v) :
    (cursorHooks ip).loads ip.depthLimit value.toList = .ok v := by
  rw [loadsCursor] at h
  cases hloads : (cursorHooks ip).loads ip.depthLimit value.toList with
  | error e =>
    rw [hloads] at h
    cases h
  | ok w =>
    rw [hloads] at h
    cases h
    rfl

/-- What is read of the text with plus signs is the value with plus signs. -/
theorem eq_plus_of_loadsCursor {w : Json} (h : (cursorHooks ip).Legible floatText ip.depthLimit v)
    (hread : loadsCursor ip (String.ofList (v.plus.text floatText)) = .ok w) : w = v.plus := by
  have hlenient := within_lenientHooks.loads (loads_of_loadsCursor hread)
  have hkeeps : (lenientHooks ip).Keeps fun _ => True := fun _ _ => rfl
  rw [String.toList_ofList, Hooks.loads_text hkeeps (readable_plus h)] at hlenient
  exact (Except.ok.inj hlenient).symm

/-- **Where no string has a space, a legible cursor is read back**, with its members sorted. -/
theorem decode_page (hloads : platform.loadsCursor = loadsCursor ip)
    (hlimit : 1 ≤ limit) (hdigits : (Nat.toDigits 10 limit).length ≤ 4300)
    (hfloats : PlainFloats floatText) (hdepth : nesting (.obj cursor) ≤ 64)
    (hlegible : (cursorHooks ip).Legible floatText ip.depthLimit (.obj cursor))
    (hspace : (Json.obj cursor).hasSpace = false) :
    decodeHttpReadQuery platform (urlencode (pageArguments floatText limit cursor)) =
      .ok (pagePayload limit cursor.sorted) := by
  have hplus : (Json.obj cursor).sorted.plus = .obj cursor.sorted := by
    rw [plus_eq_self (by rwa [hasSpace_sorted]), sorted_obj']
  have hsorted := hlegible.sorted
  have hshallow := nesting_sorted_plus hdepth
  rw [sorted_obj'] at hsorted
  rw [hplus] at hshallow
  rw [decodeHttpReadQuery_page hlimit hdigits hfloats, hplus, hloads, loadsCursor,
    String.toList_ofList, Hooks.loads_text keeps_cursorHooks hsorted]
  exact if_pos hshallow

/-- A cursor that came back has neither a space nor a surrogate pair. -/
theorem plain_of_decoded (hloads : platform.loadsCursor = loadsCursor ip)
    (hlimit : 1 ≤ limit) (hdigits : (Nat.toDigits 10 limit).length ≤ 4300)
    (hfloats : PlainFloats floatText) (hdepth : nesting (.obj cursor) ≤ 64)
    (hip : 64 ≤ ip.depthLimit) (hcursor : Carried ip floatText (.obj cursor))
    (hread : decodeHttpReadQuery platform (urlencode (pageArguments floatText limit cursor)) =
      .ok (pagePayload limit after))
    (hsame : (Json.obj after).sorted = (Json.obj cursor).sorted) :
    (Json.obj cursor).hasSpace = false ∧ (Json.obj cursor).paired = false := by
  have hafter : loadsCursor ip (String.ofList ((Json.obj cursor).sorted.plus.text floatText)) =
      .ok (.obj after) := by
    rw [decodeHttpReadQuery_page hlimit hdigits hfloats, hloads] at hread
    split at hread
    · next members hmembers =>
      split at hread
      · obtain rfl : members = after := by
          have hpayload := Except.ok.inj hread
          simp only [pagePayload, List.cons.injEq, Prod.mk.injEq, Json.obj.injEq, true_and,
            and_true] at hpayload
          exact hpayload
        exact hmembers
      · cases hread
    · cases hread
  have hdecoded : Decoded (.obj after) := decodes_cursorHooks.loads (loads_of_loadsCursor hafter)
  have hpaired : (Json.obj cursor).paired = false := by
    rw [← paired_sorted, ← hsame, paired_sorted]
    exact hdecoded.paired
  have hlegible : (cursorHooks ip).Legible floatText ip.depthLimit (.obj cursor) :=
    (hcursor.legible hpaired hdepth).mono hip
  have hplus := eq_plus_of_loadsCursor hlegible.sorted hafter
  refine ⟨?_, hpaired⟩
  rw [← hasSpace_sorted, ← hsame, hasSpace_sorted, hplus]
  exact hasSpace_plus _

/-- **A cursor comes back unchanged exactly where no key and no string of it has a space or a
surrogate pair**, up to the order of its members. -/
theorem decode_query_iff (hloads : platform.loadsCursor = loadsCursor ip)
    (hip : 64 ≤ ip.depthLimit) (hfloats : PlainFloats floatText) (hlimit : 1 ≤ limit)
    (hdigits : (Nat.toDigits 10 limit).length ≤ 4300) (hcursor : Carried ip floatText (.obj cursor))
    (hdepth : nesting (.obj cursor) ≤ 64) :
    (∃ query after, queryString floatText (pagePayload limit cursor) = some query ∧
      decodeHttpReadQuery platform query = .ok (pagePayload limit after) ∧
        (Json.obj after).sorted = (Json.obj cursor).sorted) ↔
      (Json.obj cursor).hasSpace = false ∧ (Json.obj cursor).paired = false := by
  constructor
  · rintro ⟨query, after, hquery, hread, hsame⟩
    rw [queryString_page] at hquery
    obtain rfl := Option.some.inj hquery
    exact plain_of_decoded hloads hlimit hdigits hfloats hdepth hip hcursor hread hsame
  · rintro ⟨hspace, hpaired⟩
    have hlegible : (cursorHooks ip).Legible floatText ip.depthLimit (.obj cursor) :=
      (hcursor.legible hpaired hdepth).mono hip
    refine ⟨_, cursor.sorted, queryString_page limit cursor,
      decode_page hloads hlimit hdigits hfloats hdepth hlegible hspace, ?_⟩
    rw [← sorted_obj', sorted_sorted]

end Query

namespace Instance

theorem nests : 3 ≤ 1000 := by decide

/-- An interpreter for cursors without floats. -/
def interpreter : Interpreter where
  floatOf _ := .nan
  depthLimit := 1000
  nests := nests

/-- A server with this interpreter. -/
def platform : Platform where
  upper s := s
  lower s := s
  loads _ := .jsonDecodeError
  loadsCursor := loadsCursor interpreter

/-- The decimal text of every float of these cursors, which have none. -/
def floatText (_ : ℚ) : List Char :=
  ['0', '.', '0']

theorem plainFloats : PlainFloats floatText := by
  intro q
  simp [floatText]

theorem proper_utf8 (s : String) : (Text.utf8 s).Proper :=
  (isScanned_iff.mp (isScanned_utf8 s)).1

/-- The identifier of an event, and its position: a number, a list and a lone surrogate. -/
def plainCursor : Fields :=
  [("event_id", .str "event-1"), ("position", .arr [.int 42, .str (.surrogate [0xD83D]), .null])]

theorem carried_plainCursor : Carried interpreter floatText (.obj plainCursor) := by
  have hlone : (Text.surrogate [0xD83D]).Proper :=
    ⟨List.forall_mem_singleton.mpr (by decide), rfl⟩
  refine .obj (by decide) ?_ ?_
  · simp only [plainCursor, List.forall_mem_cons]
    exact ⟨proper_utf8 _, proper_utf8 _, List.forall_mem_nil _⟩
  · simp only [plainCursor, List.forall_mem_cons]
    refine ⟨.str (proper_utf8 _), .arr ?_, List.forall_mem_nil _⟩
    simp only [List.forall_mem_cons]
    exact ⟨.int (by decide), .str hlone, .null, List.forall_mem_nil _⟩

/-- **A cursor without spaces and pairs comes back.** -/
theorem decode_query_plain :
    ∃ query after, queryString floatText (pagePayload 100 plainCursor) = some query ∧
      decodeHttpReadQuery platform query = .ok (pagePayload 100 after) ∧
        (Json.obj after).sorted = (Json.obj plainCursor).sorted :=
  (decode_query_iff rfl (by decide) plainFloats (by decide) (by decide) carried_plainCursor
    (by decide)).mpr (by decide)

/-- A cursor with a title of two words. -/
def spacedCursor : Fields :=
  [("title", .str "two words")]

theorem carried_spacedCursor : Carried interpreter floatText (.obj spacedCursor) := by
  refine .obj (by decide) ?_ ?_
  · exact List.forall_mem_singleton.mpr (proper_utf8 _)
  · exact List.forall_mem_singleton.mpr (.str (proper_utf8 _))

/-- A cursor with a space does not come back. -/
theorem decode_query_spaced : ¬ ∀ (platform : Platform) (ip : Interpreter)
    (floatText : ℚ → List Char) (limit : ℕ) (cursor : Fields),
    platform.loadsCursor = loadsCursor ip → 64 ≤ ip.depthLimit → PlainFloats floatText →
    1 ≤ limit → (Nat.toDigits 10 limit).length ≤ 4300 → Carried ip floatText (.obj cursor) →
    nesting (.obj cursor) ≤ 64 →
    ∃ query after, queryString floatText (pagePayload limit cursor) = some query ∧
      decodeHttpReadQuery platform query = .ok (pagePayload limit after) ∧
        (Json.obj after).sorted = (Json.obj cursor).sorted := by
  intro hall
  obtain ⟨query, after, hquery, hread, hsame⟩ := hall platform interpreter floatText 100 spacedCursor
    rfl (by decide) plainFloats (by decide) (by decide) carried_spacedCursor (by decide)
  rw [queryString_page] at hquery
  obtain rfl := Option.some.inj hquery
  have hplain := plain_of_decoded rfl (by decide) (by decide) plainFloats (by decide) (by decide)
    carried_spacedCursor hread hsame
  exact absurd hplain.1 (by decide)

end Instance

end Client

end ControlPlaneKit
