import ControlPlaneKit.Python.Encode

/-!
# The text of a value

`json.dumps(value, sort_keys=True, separators=(",", ":"))` with its default `allow_nan=True`: the
members of each object are sorted by their keys (`sorted`), and the value is then written in the
order it has (`text`). On finite values it is the encoder of the digests and the bodies
(`encode_eq_dumps`).
-/

namespace ControlPlaneKit

namespace Json

/-- Induction over the values, with one hypothesis for all items or members. -/
@[elab_as_elim]
theorem induct {P : Json → Prop} (null : P .null) (bool : ∀ b, P (.bool b)) (int : ∀ n, P (.int n))
    (float : ∀ x, P (.float x)) (str : ∀ s, P (.str s))
    (arr : ∀ items, (∀ x ∈ items, P x) → P (.arr items))
    (obj : ∀ members, (∀ m ∈ members, P m.2) → P (.obj members)) (v : Json) : P v := by
  refine Json.rec (motive_1 := P) (motive_2 := fun items => ∀ x ∈ items, P x)
    (motive_3 := fun members => ∀ m ∈ members, P m.2) (motive_4 := fun m => P m.2) null bool int
    float str arr obj ?_ ?_ ?_ ?_ ?_ v
  · exact List.forall_mem_nil _
  · exact fun x xs hx hxs => List.forall_mem_cons.mpr ⟨hx, hxs⟩
  · exact List.forall_mem_nil _
  · exact fun m ms hm hms => List.forall_mem_cons.mpr ⟨hm, hms⟩
  · exact fun _ _ hv => hv

/-! ### Sorted members -/

mutual

/-- The value with the members of every object sorted by their keys. -/
def sorted : Json → Json
  | .arr items => .arr (sortedItems items)
  | .obj members => .obj ((sortedMembers members).mergeSort fun a b => a.1.le b.1)
  | v => v

/-- The items, sorted inside. -/
def sortedItems : List Json → List Json
  | [] => []
  | x :: xs => sorted x :: sortedItems xs

/-- The members, sorted inside. -/
def sortedMembers : List (Text × Json) → List (Text × Json)
  | [] => []
  | (k, x) :: xs => (k, sorted x) :: sortedMembers xs

end

theorem sortedItems_eq (items : List Json) : sortedItems items = items.map sorted := by
  induction items with
  | nil => rfl
  | cons x xs ih => rw [sortedItems, List.map_cons, ih]

theorem sortedMembers_eq (members : List (Text × Json)) :
    sortedMembers members = members.map fun m => (m.1, m.2.sorted) := by
  induction members with
  | nil => rfl
  | cons m ms ih => rw [sortedMembers, List.map_cons, ih]

@[simp]
theorem sorted_arr (items : List Json) : sorted (.arr items) = .arr (items.map sorted) := by
  rw [sorted, sortedItems_eq]

@[simp]
theorem sorted_obj (members : List (Text × Json)) : sorted (.obj members) =
    .obj ((members.map fun m => (m.1, m.2.sorted)).mergeSort fun a b => a.1.le b.1) := by
  rw [sorted, sortedMembers_eq]

/-- The members of a sorted object are those of the object, sorted. -/
theorem mem_sorted_members {members : List (Text × Json)} {m : Text × Json} :
    m ∈ (members.map fun m => (m.1, m.2.sorted)).mergeSort (fun a b => a.1.le b.1) ↔
      ∃ m' ∈ members, (m'.1, m'.2.sorted) = m := by
  rw [List.mem_mergeSort, List.mem_map]

/-- Sorting once is enough. -/
theorem sorted_sorted (v : Json) : v.sorted.sorted = v.sorted := by
  induction v using Json.induct with
  | null => rfl
  | bool b => rfl
  | int n => rfl
  | float x => rfl
  | str s => rfl
  | arr items ih =>
    rw [sorted_arr, sorted_arr, List.map_map]
    exact congrArg Json.arr (List.map_congr_left ih)
  | obj members ih =>
    rw [sorted_obj, sorted_obj]
    have hsame : (((members.map fun m => (m.1, m.2.sorted)).mergeSort fun a b => a.1.le b.1).map
        fun m => (m.1, m.2.sorted)) =
        (members.map fun m => (m.1, m.2.sorted)).mergeSort fun a b => a.1.le b.1 := by
      conv_rhs => rw [← List.map_id (List.mergeSort _ _)]
      refine List.map_congr_left fun m hm => ?_
      obtain ⟨m', hm', rfl⟩ := mem_sorted_members.mp hm
      rw [ih m' hm']
      rfl
    rw [hsame, List.mergeSort_of_pairwise]
    have htrans : ∀ a b c : Text × Json, a.1.le b.1 = true → b.1.le c.1 = true → a.1.le c.1 = true :=
      fun _ _ _ => Text.le_trans
    exact List.pairwise_mergeSort htrans (fun a b => Text.le_total a.1 b.1) _

/-! ### The text -/

/-- `float.__repr__`, with the JavaScript names of the values that are not finite. -/
def floatRepr (floatText : ℚ → List Char) : Float64 → List Char
  | .finite q => floatText q
  | .infinite true => ['-', 'I', 'n', 'f', 'i', 'n', 'i', 't', 'y']
  | .infinite false => ['I', 'n', 'f', 'i', 'n', 'i', 't', 'y']
  | .nan => ['N', 'a', 'N']

section Text

variable (floatText : ℚ → List Char)

mutual

/-- The compact text of a value. -/
def text : Json → List Char
  | .null => ['n', 'u', 'l', 'l']
  | .bool true => ['t', 'r', 'u', 'e']
  | .bool false => ['f', 'a', 'l', 's', 'e']
  | .int n => (toString n).toList
  | .float x => floatRepr floatText x
  | .str s => encodeText s
  | .arr items => '[' :: (joined (textItems items) ++ [']'])
  | .obj members => '{' :: (joined (textMembers members) ++ ['}'])

/-- The texts of the items. -/
def textItems : List Json → List (List Char)
  | [] => []
  | x :: xs => text x :: textItems xs

/-- The texts of the members. -/
def textMembers : List (Text × Json) → List (List Char)
  | [] => []
  | (k, x) :: xs => (encodeText k ++ ':' :: text x) :: textMembers xs

end

/-- `json.dumps(value, sort_keys=True, separators=(",", ":"))`. -/
def dumps (v : Json) : List Char :=
  text floatText v.sorted

variable {floatText}

theorem textItems_eq (items : List Json) :
    textItems floatText items = items.map (text floatText) := by
  induction items with
  | nil => rfl
  | cons x xs ih => rw [textItems, List.map_cons, ih]

theorem textMembers_eq (members : List (Text × Json)) : textMembers floatText members =
    members.map fun m => encodeText m.1 ++ ':' :: text floatText m.2 := by
  induction members with
  | nil => rfl
  | cons m ms ih => rw [textMembers, List.map_cons, ih]

@[simp]
theorem text_arr (items : List Json) : text floatText (.arr items) =
    '[' :: (joined (items.map (text floatText)) ++ [']']) := by
  rw [text, textItems_eq]

@[simp]
theorem text_obj (members : List (Text × Json)) : text floatText (.obj members) =
    '{' :: (joined (members.map fun m => encodeText m.1 ++ ':' :: text floatText m.2) ++ ['}']) := by
  rw [text, textMembers_eq]

end Text

/-! ### Finite values -/

mutual

/-- No NaN and no infinity anywhere. -/
def isFinite : Json → Bool
  | .float (.finite _) => true
  | .float _ => false
  | .arr items => isFiniteItems items
  | .obj members => isFiniteMembers members
  | _ => true

/-- No NaN and no infinity in the items. -/
def isFiniteItems : List Json → Bool
  | [] => true
  | x :: xs => isFinite x && isFiniteItems xs

/-- No NaN and no infinity in the members. -/
def isFiniteMembers : List (Text × Json) → Bool
  | [] => true
  | (_, x) :: xs => isFinite x && isFiniteMembers xs

end

@[simp]
theorem isFinite_arr (items : List Json) : isFinite (.arr items) = items.all isFinite := by
  rw [isFinite]
  induction items with
  | nil => rfl
  | cons x xs ih => rw [isFiniteItems, List.all_cons, ih]

@[simp]
theorem isFinite_obj (members : List (Text × Json)) :
    isFinite (.obj members) = members.all fun m => m.2.isFinite := by
  rw [isFinite]
  induction members with
  | nil => rfl
  | cons m ms ih => rw [isFiniteMembers, List.all_cons, ih]

/-- The texts of the members, sorted by their keys, are the texts of the sorted members. -/
theorem mergeSort_texts {β : Type} (f : Text × Json → β) (members : List (Text × Json)) :
    ((members.map fun m => (m.1, f m)).mergeSort fun a b => a.1.le b.1).map (·.2) =
      (members.mergeSort fun a b => a.1.le b.1).map f := by
  have hsorted : (members.map fun m => (m.1, f m)).mergeSort (fun a b => a.1.le b.1) =
      (members.mergeSort fun a b => a.1.le b.1).map fun m => (m.1, f m) :=
    (List.map_mergeSort (r := fun a b => a.1.le b.1) (s := fun a b => a.1.le b.1)
      (f := fun m => (m.1, f m)) fun _ _ _ _ => rfl).symm
  rw [hsorted, List.map_map]
  rfl

theorem encodeItems_isSome {floatText : ℚ → List Char} (items : List Json) :
    (encodeItems floatText items).isSome = items.all fun x => (x.encode floatText).isSome := by
  induction items with
  | nil => rfl
  | cons x xs ih =>
    rw [List.all_cons, ← ih, encodeItems]
    cases encode floatText x <;> cases encodeItems floatText xs <;> rfl

theorem encodeMembers_isSome {floatText : ℚ → List Char} (members : List (Text × Json)) :
    (encodeMembers floatText members).isSome =
      members.all fun m => (m.2.encode floatText).isSome := by
  induction members with
  | nil => rfl
  | cons m ms ih =>
    rw [List.all_cons, ← ih, encodeMembers]
    cases encode floatText m.2 <;> cases encodeMembers floatText ms <;> rfl

/-- The encoder raises on a number that is not finite. -/
theorem isFinite_of_encode {floatText : ℚ → List Char} {v : Json}
    (h : (v.encode floatText).isSome) : v.isFinite = true := by
  induction v using Json.induct with
  | float x =>
    cases x with
    | finite q => rfl
    | infinite negative => cases h
    | nan => cases h
  | arr items ih =>
    rw [encode, Option.isSome_map, encodeItems_isSome, List.all_eq_true] at h
    rw [isFinite_arr, List.all_eq_true]
    exact fun x hx => ih x hx (h x hx)
  | obj members ih =>
    rw [encode, Option.isSome_map, encodeMembers_isSome, List.all_eq_true] at h
    rw [isFinite_obj, List.all_eq_true]
    exact fun m hm => ih m hm (h m hm)
  | _ => rfl

/-- **The encoder of the digests writes the same text** where it does not raise. -/
theorem encode_eq_dumps {floatText : ℚ → List Char} {v : Json} (h : v.isFinite = true) :
    encode floatText v = some (dumps floatText v) := by
  induction v using Json.induct with
  | null => rfl
  | bool b => cases b <;> rfl
  | int n => rfl
  | float x =>
    cases x with
    | finite q => rfl
    | infinite negative => cases h
    | nan => cases h
  | str s => rfl
  | arr items ih =>
    rw [isFinite_arr, List.all_eq_true] at h
    have hitems : ∀ xs : List Json, (∀ x ∈ xs, encode floatText x = some (dumps floatText x)) →
        encodeItems floatText xs = some (xs.map (dumps floatText)) := by
      intro xs hxs
      induction xs with
      | nil => rfl
      | cons x xs ih =>
        rw [List.forall_mem_cons] at hxs
        rw [encodeItems, hxs.1, ih hxs.2]
        rfl
    rw [encode, hitems items fun x hx => ih x hx (h x hx), dumps, sorted_arr, text_arr,
      List.map_map]
    rfl
  | obj members ih =>
    rw [isFinite_obj, List.all_eq_true] at h
    have hmembers : ∀ ms : List (Text × Json),
        (∀ m ∈ ms, encode floatText m.2 = some (dumps floatText m.2)) →
        encodeMembers floatText ms =
          some (ms.map fun m => (m.1, encodeText m.1 ++ ':' :: dumps floatText m.2)) := by
      intro ms hms
      induction ms with
      | nil => rfl
      | cons m ms ih =>
        rw [List.forall_mem_cons] at hms
        rw [encodeMembers, hms.1, ih hms.2]
        rfl
    -- the members are sorted by their keys, whether encoded before or after
    have htexts : ((members.map fun m => (m.1, m.2.sorted)).mergeSort fun a b => a.1.le b.1).map
        (fun m => encodeText m.1 ++ ':' :: text floatText m.2) =
        (members.mergeSort fun a b => a.1.le b.1).map fun m =>
          encodeText m.1 ++ ':' :: dumps floatText m.2 := by
      rw [← mergeSort_texts, ← mergeSort_texts, List.map_map]
      rfl
    rw [encode, hmembers members fun m hm => ih m hm (h m hm), dumps, sorted_obj, text_obj, htexts,
      ← mergeSort_texts]
    rfl

/-! ### Spaces

The separators are written without spaces, so a space of the text is one of a string. -/

end Json

/-- The string has a space. -/
def Text.hasSpace (t : Text) : Bool :=
  t.codes.contains 32

/-- The string with a plus sign for each space. -/
def Text.plus : Text → Text
  | .utf8 s => .utf8 (String.ofList (s.toList.map fun c => if c = ' ' then '+' else c))
  | .surrogate codes => .surrogate (codes.map fun n => if n = 32 then 43 else n)

namespace Json

mutual

/-- A key or a string of the value has a space. -/
def hasSpace : Json → Bool
  | .str s => s.hasSpace
  | .arr items => hasSpaceItems items
  | .obj members => hasSpaceMembers members
  | _ => false

/-- A string of the items has a space. -/
def hasSpaceItems : List Json → Bool
  | [] => false
  | x :: xs => hasSpace x || hasSpaceItems xs

/-- A key or a string of the members has a space. -/
def hasSpaceMembers : List (Text × Json) → Bool
  | [] => false
  | (k, x) :: xs => (k.hasSpace || hasSpace x) || hasSpaceMembers xs

end

mutual

/-- The value with a plus sign for each space of its keys and strings. -/
def plus : Json → Json
  | .str s => .str s.plus
  | .arr items => .arr (plusItems items)
  | .obj members => .obj (plusMembers members)
  | v => v

/-- The items with plus signs. -/
def plusItems : List Json → List Json
  | [] => []
  | x :: xs => plus x :: plusItems xs

/-- The members with plus signs. -/
def plusMembers : List (Text × Json) → List (Text × Json)
  | [] => []
  | (k, x) :: xs => (k.plus, plus x) :: plusMembers xs

end

@[simp]
theorem hasSpace_arr (items : List Json) : hasSpace (.arr items) = items.any hasSpace := by
  rw [hasSpace]
  induction items with
  | nil => rfl
  | cons x xs ih => rw [hasSpaceItems, List.any_cons, ih]

@[simp]
theorem hasSpace_obj (members : List (Text × Json)) :
    hasSpace (.obj members) = members.any fun m => m.1.hasSpace || m.2.hasSpace := by
  rw [hasSpace]
  induction members with
  | nil => rfl
  | cons m ms ih => rw [hasSpaceMembers, List.any_cons, ih]

@[simp]
theorem plus_arr (items : List Json) : plus (.arr items) = .arr (items.map plus) := by
  rw [plus]
  congr 1
  induction items with
  | nil => rfl
  | cons x xs ih => rw [plusItems, List.map_cons, ih]

@[simp]
theorem plus_obj (members : List (Text × Json)) :
    plus (.obj members) = .obj (members.map fun m => (m.1.plus, m.2.plus)) := by
  rw [plus]
  congr 1
  induction members with
  | nil => rfl
  | cons m ms ih => rw [plusMembers, List.map_cons, ih]

/-- A plus sign for a space. -/
def plusChar (c : Char) : Char :=
  if c = ' ' then '+' else c

theorem plusChar_of_ne {c : Char} (h : c ≠ ' ') : plusChar c = c :=
  if_neg h

/-- Without a space nothing changes. -/
theorem map_plusChar {cs : List Char} (h : ' ' ∉ cs) : cs.map plusChar = cs := by
  conv_rhs => rw [← List.map_id cs]
  refine List.map_congr_left fun c hc => plusChar_of_ne ?_
  rintro rfl
  exact h hc

theorem codes_plus (t : Text) : t.plus.codes = t.codes.map fun n => if n = 32 then 43 else n := by
  cases t with
  | surrogate codes => rfl
  | utf8 s =>
    rw [Text.plus, Text.codes, Text.codes, String.toList_ofList, List.map_map, List.map_map]
    refine List.map_congr_left fun c _ => ?_
    have hspace : c = ' ' ↔ c.toNat = 32 := by
      refine ⟨fun h => h ▸ rfl, fun h => ?_⟩
      rw [← Char.ofNat_toNat c, h]
    rw [Function.comp_apply, Function.comp_apply]
    by_cases h : c = ' '
    · rw [if_pos h, if_pos (hspace.mp h)]
      rfl
    · rw [if_neg h, if_neg fun hn => h (hspace.mpr hn)]

/-- What an escape consists of. -/
theorem hexDigit_graphic {n : ℕ} (h : n < 16) : 33 ≤ (hexDigit n).toNat ∧ (hexDigit n).toNat < 127 := by
  have hall : ∀ n < 16, 33 ≤ (Nat.digitChar n).toNat ∧ (Nat.digitChar n).toNat < 127 := by decide
  exact hall n h

theorem escapeUnit_graphic {n : ℕ} : ∀ c ∈ escapeUnit n, 33 ≤ c.toNat ∧ c.toNat < 127 := by
  have hdigit : ∀ m, 33 ≤ (hexDigit (m % 16)).toNat ∧ (hexDigit (m % 16)).toNat < 127 :=
    fun m => hexDigit_graphic (Nat.mod_lt m (by omega))
  simp only [escapeUnit, List.forall_mem_cons, hdigit, true_and]
  exact ⟨by decide, by decide, List.forall_mem_nil _⟩

/-- Each code point but the space is written without a space. -/
theorem escapeCode_graphic {n : ℕ} (h : n ≠ 32) :
    ∀ c ∈ escapeCode n, 33 ≤ c.toNat ∧ c.toNat < 127 := by
  unfold escapeCode
  split
  · simp
  split
  · simp
  split
  · simp
  split
  · simp
  split
  · simp
  split
  · simp
  split
  · simp
  split
  · rename_i hrange
    have hall : ∀ m < 127, (Char.ofNat m).toNat = m := by decide
    have hchar : (Char.ofNat n).toNat = n := hall n (by omega)
    rw [List.forall_mem_singleton, hchar]
    omega
  split
  · exact escapeUnit_graphic
  · intro c hc
    rcases List.mem_append.mp hc with hc | hc
    · exact escapeUnit_graphic c hc
    · exact escapeUnit_graphic c hc

theorem escapeCode_plus (n : ℕ) :
    escapeCode (if n = 32 then 43 else n) = (escapeCode n).map plusChar := by
  by_cases h : n = 32
  · rw [if_pos h, h]
    rfl
  · rw [if_neg h, map_plusChar]
    intro hspace
    have hgraphic := escapeCode_graphic h ' ' hspace
    rw [show (' ' : Char).toNat = 32 from rfl] at hgraphic
    omega

theorem encodeText_plus (t : Text) : encodeText t.plus = (encodeText t).map plusChar := by
  rw [encodeText, encodeText, codes_plus, List.flatMap_map, List.map_cons, List.map_append,
    List.map_flatMap]
  simp only [escapeCode_plus]
  rfl

theorem joined_map {f : Char → Char} (hcomma : f ',' = ',') (parts : List (List Char)) :
    joined (parts.map (List.map f)) = (joined parts).map f := by
  fun_induction joined parts with
  | case1 => rfl
  | case2 x => rfl
  | case3 x y xs ih =>
    rw [List.map_cons, List.map_cons, joined, ← List.map_cons, ih, List.map_append, List.map_cons,
      hcomma]

section Plain

/-- The texts of floats are printable and have no spaces. -/
def PlainFloats (floatText : ℚ → List Char) : Prop :=
  ∀ q, ∀ c ∈ floatText q, 33 ≤ c.toNat ∧ c.toNat < 127

variable {floatText : ℚ → List Char}

theorem not_space_of_graphic {cs : List Char} (h : ∀ c ∈ cs, 33 ≤ c.toNat ∧ c.toNat < 127) :
    ' ' ∉ cs := by
  intro hspace
  have hgraphic := h ' ' hspace
  rw [show (' ' : Char).toNat = 32 from rfl] at hgraphic
  omega

theorem natDigits_graphic (n : ℕ) : ∀ c ∈ Nat.toDigits 10 n, 33 ≤ c.toNat ∧ c.toNat < 127 := by
  intro c hc
  have hdigit : c.isDigit = true := Nat.isDigit_of_mem_toDigits (by omega) (by omega) hc
  rw [Char.isDigit_iff_toNat] at hdigit
  have hzero : ('0' : Char).toNat = 48 := rfl
  have hnine : ('9' : Char).toNat = 57 := rfl
  omega

theorem intText_graphic (n : ℤ) : ∀ c ∈ (toString n).toList, 33 ≤ c.toNat ∧ c.toNat < 127 := by
  rw [Int.toString_eq_repr, Int.repr_eq_if]
  split
  · rw [Nat.toList_repr]
    exact natDigits_graphic _
  · rw [String.toList_append, Nat.toList_repr]
    exact List.forall_mem_cons.mpr ⟨by decide, natDigits_graphic _⟩

theorem floatRepr_graphic (h : PlainFloats floatText) (x : Float64) :
    ∀ c ∈ floatRepr floatText x, 33 ≤ c.toNat ∧ c.toNat < 127 := by
  cases x with
  | finite q => exact h q
  | infinite negative => cases negative <;> simp [floatRepr]
  | nan => simp [floatRepr]

/-- **The plus signs of a value are those of its text.** -/
theorem text_plus (h : PlainFloats floatText) (v : Json) :
    text floatText v.plus = (text floatText v).map plusChar := by
  induction v using Json.induct with
  | null => rfl
  | bool b => cases b <;> rfl
  | int n => exact (map_plusChar (not_space_of_graphic (intText_graphic n))).symm
  | float x => exact (map_plusChar (not_space_of_graphic (floatRepr_graphic h x))).symm
  | str s => exact encodeText_plus s
  | arr items ih =>
    have hparts : (items.map plus).map (text floatText) =
        (items.map (text floatText)).map (List.map plusChar) := by
      rw [List.map_map, List.map_map]
      exact List.map_congr_left ih
    rw [plus_arr, text_arr, text_arr, hparts, joined_map rfl, List.map_cons, List.map_append]
    rfl
  | obj members ih =>
    have hparts : (members.map fun m => (m.1.plus, m.2.plus)).map
          (fun m => encodeText m.1 ++ ':' :: text floatText m.2) =
        (members.map fun m => encodeText m.1 ++ ':' :: text floatText m.2).map
          (List.map plusChar) := by
      rw [List.map_map, List.map_map]
      refine List.map_congr_left fun m hm => ?_
      rw [Function.comp_apply, Function.comp_apply, encodeText_plus, ih m hm, List.map_append]
      rfl
    rw [plus_obj, text_obj, text_obj, hparts, joined_map rfl, List.map_cons, List.map_append]
    rfl

theorem escapeCode_ascii (n : ℕ) : ∀ c ∈ escapeCode n, c.toNat < 128 := by
  intro c hc
  by_cases h : n = 32
  · subst h
    rw [List.mem_singleton.mp hc]
    decide
  · have hgraphic := escapeCode_graphic h c hc
    omega

theorem encodeText_ascii (t : Text) : ∀ c ∈ encodeText t, c.toNat < 128 := by
  rw [encodeText, List.forall_mem_cons, List.forall_mem_append]
  refine ⟨by decide, fun c hc => ?_, List.forall_mem_singleton.mpr (by decide)⟩
  obtain ⟨n, -, hn⟩ := List.mem_flatMap.mp hc
  exact escapeCode_ascii n c hn

/-- What holds of the parts and of the comma holds of the joined text. -/
theorem forall_mem_joined {Q : Char → Prop} {parts : List (List Char)} (hcomma : Q ',')
    (h : ∀ part ∈ parts, ∀ c ∈ part, Q c) : ∀ c ∈ joined parts, Q c := by
  fun_induction joined parts with
  | case1 => exact List.forall_mem_nil _
  | case2 x => exact h x (List.mem_singleton_self x)
  | case3 x y xs ih =>
    rw [List.forall_mem_cons] at h
    rw [List.forall_mem_append, List.forall_mem_cons]
    exact ⟨h.1, hcomma, ih h.2⟩

/-- The text of a value is ASCII. -/
theorem text_ascii (h : PlainFloats floatText) (v : Json) :
    ∀ c ∈ text floatText v, c.toNat < 128 := by
  induction v using Json.induct with
  | null => simp [text]
  | bool b => cases b <;> simp [text]
  | int n =>
    intro c hc
    have hgraphic := intText_graphic n c hc
    omega
  | float x =>
    intro c hc
    have hgraphic := floatRepr_graphic h x c hc
    omega
  | str s => exact encodeText_ascii s
  | arr items ih =>
    rw [text_arr, List.forall_mem_cons, List.forall_mem_append]
    refine ⟨by decide, forall_mem_joined (by decide) ?_, List.forall_mem_singleton.mpr (by decide)⟩
    rw [List.forall_mem_map]
    exact ih
  | obj members ih =>
    rw [text_obj, List.forall_mem_cons, List.forall_mem_append]
    refine ⟨by decide, forall_mem_joined (by decide) ?_, List.forall_mem_singleton.mpr (by decide)⟩
    rw [List.forall_mem_map]
    intro m hm
    rw [List.forall_mem_append, List.forall_mem_cons]
    exact ⟨encodeText_ascii m.1, by decide, ih m hm⟩

end Plain

theorem hasSpace_sorted (v : Json) : v.sorted.hasSpace = v.hasSpace := by
  induction v using Json.induct with
  | null => rfl
  | bool b => rfl
  | int n => rfl
  | float x => rfl
  | str s => rfl
  | arr items ih =>
    rw [sorted_arr, hasSpace_arr, hasSpace_arr, List.any_map, Bool.eq_iff_iff, List.any_eq_true,
      List.any_eq_true]
    refine exists_congr fun x => and_congr_right fun hx => ?_
    rw [Function.comp_apply, ih x hx]
  | obj members ih =>
    rw [sorted_obj, hasSpace_obj, hasSpace_obj, Bool.eq_iff_iff, List.any_eq_true, List.any_eq_true]
    constructor
    · rintro ⟨m, hm, h⟩
      obtain ⟨m', hm', rfl⟩ := mem_sorted_members.mp hm
      exact ⟨m', hm', by rwa [← ih m' hm']⟩
    · rintro ⟨m, hm, h⟩
      exact ⟨_, mem_sorted_members.mpr ⟨m, hm, rfl⟩, by rwa [ih m hm]⟩

/-- No space is left. -/
theorem hasSpace_plus (v : Json) : v.plus.hasSpace = false := by
  have htext : ∀ t : Text, t.plus.hasSpace = false := by
    intro t
    rw [Text.hasSpace, codes_plus, List.contains_eq_any_beq, List.any_map, List.any_eq_false]
    intro n _
    rw [Function.comp_apply]
    by_cases h : n = 32
    · rw [if_pos h]
      decide
    · rw [if_neg h, beq_iff_eq]
      exact fun h' => h h'.symm
  induction v using Json.induct with
  | null => rfl
  | bool b => rfl
  | int n => rfl
  | float x => rfl
  | str s => exact htext s
  | arr items ih =>
    rw [plus_arr, hasSpace_arr, List.any_map, List.any_eq_false]
    intro x hx
    rw [Function.comp_apply, ih x hx]
    exact Bool.false_ne_true
  | obj members ih =>
    rw [plus_obj, hasSpace_obj, List.any_map, List.any_eq_false]
    intro m hm
    rw [Function.comp_apply, htext, ih m hm]
    exact Bool.false_ne_true

/-- Without a space nothing changes. -/
theorem plus_eq_self {v : Json} (h : v.hasSpace = false) : v.plus = v := by
  -- a text without a blank has nothing to replace
  have htext : ∀ t : Text, t.hasSpace = false → t.plus = t := by
    intro t ht
    cases t with
    | utf8 s =>
      have hsame : s.toList.map plusChar = s.toList := by
        refine map_plusChar fun hspace => ?_
        have hcode : Text.hasSpace (.utf8 s) = true :=
          List.contains_iff_mem.mpr (List.mem_map.mpr ⟨' ', hspace, rfl⟩)
        rw [ht] at hcode
        cases hcode
      rw [Text.plus]
      exact congrArg Text.utf8 ((congrArg String.ofList hsame).trans String.ofList_toList)
    | surrogate codes =>
      rw [Text.plus]
      congr 1
      conv_rhs => rw [← List.map_id codes]
      refine List.map_congr_left fun n hn => if_neg ?_
      rintro rfl
      have hcode : Text.hasSpace (.surrogate codes) = true := List.contains_iff_mem.mpr hn
      rw [ht] at hcode
      cases hcode
  induction v using Json.induct with
  | null => rfl
  | bool b => rfl
  | int n => rfl
  | float x => rfl
  | str s => exact congrArg Json.str (htext s h)
  | arr items ih =>
    rw [hasSpace_arr, List.any_eq_false] at h
    rw [plus_arr]
    congr 1
    conv_rhs => rw [← List.map_id items]
    exact List.map_congr_left fun x hx => ih x hx (eq_false_of_ne_true (h x hx))
  | obj members ih =>
    rw [hasSpace_obj, List.any_eq_false] at h
    rw [plus_obj]
    congr 1
    conv_rhs => rw [← List.map_id members]
    refine List.map_congr_left fun m hm => ?_
    obtain ⟨hkey, hvalue⟩ := Bool.or_eq_false_iff.mp (eq_false_of_ne_true (h m hm))
    rw [htext _ hkey, ih m hm hvalue]
    rfl

/-! ### Surrogate pairs -/

end Json

namespace Text

/-- A high surrogate directly before a low one. -/
def hasPair : List ℕ → Bool
  | a :: b :: codes =>
    (decide (0xD800 ≤ a ∧ a < 0xDC00) && decide (0xDC00 ≤ b ∧ b < 0xE000)) || hasPair (b :: codes)
  | _ => false

/-- The text holds two surrogates that `json.loads` joins. -/
def paired : Text → Bool
  | .utf8 _ => false
  | .surrogate codes => hasPair codes

end Text

namespace Json

mutual

/-- Some text of the value holds a surrogate pair. -/
def paired : Json → Bool
  | .str s => s.paired
  | .arr items => pairedItems items
  | .obj members => pairedMembers members
  | _ => false

/-- Some text of the items holds a surrogate pair. -/
def pairedItems : List Json → Bool
  | [] => false
  | x :: xs => paired x || pairedItems xs

/-- Some key or some text of the values holds a surrogate pair. -/
def pairedMembers : List (Text × Json) → Bool
  | [] => false
  | (k, x) :: xs => k.paired || paired x || pairedMembers xs

end

@[simp]
theorem paired_arr (items : List Json) : paired (.arr items) = items.any paired := by
  rw [paired]
  induction items with
  | nil => rfl
  | cons x xs ih => rw [pairedItems, List.any_cons, ih]

@[simp]
theorem paired_obj (members : List (Text × Json)) :
    paired (.obj members) = members.any fun m => m.1.paired || m.2.paired := by
  rw [paired]
  induction members with
  | nil => rfl
  | cons m ms ih => rw [pairedMembers, List.any_cons, ih]

theorem paired_sorted (v : Json) : v.sorted.paired = v.paired := by
  induction v using Json.induct with
  | null => rfl
  | bool b => rfl
  | int n => rfl
  | float x => rfl
  | str s => rfl
  | arr items ih =>
    rw [sorted_arr, paired_arr, paired_arr, List.any_map, Bool.eq_iff_iff, List.any_eq_true,
      List.any_eq_true]
    refine exists_congr fun x => and_congr_right fun hx => ?_
    rw [Function.comp_apply, ih x hx]
  | obj members ih =>
    rw [sorted_obj, paired_obj, paired_obj, Bool.eq_iff_iff, List.any_eq_true, List.any_eq_true]
    constructor
    · rintro ⟨m, hm, h⟩
      obtain ⟨m', hm', rfl⟩ := mem_sorted_members.mp hm
      exact ⟨m', hm', by rwa [← ih m' hm']⟩
    · rintro ⟨m, hm, h⟩
      exact ⟨_, mem_sorted_members.mpr ⟨m, hm, rfl⟩, by rwa [ih m hm]⟩

/-! ### Distinct keys -/

mutual

/-- Every object of the value is a `dict`: its keys are distinct. -/
def isDict : Json → Bool
  | .arr items => isDictItems items
  | .obj members => decide (members.map (·.1)).Nodup && isDictMembers members
  | _ => true

/-- Every object of the items is a `dict`. -/
def isDictItems : List Json → Bool
  | [] => true
  | x :: xs => isDict x && isDictItems xs

/-- Every object of the values of the members is a `dict`. -/
def isDictMembers : List (Text × Json) → Bool
  | [] => true
  | (_, x) :: xs => isDict x && isDictMembers xs

end

@[simp]
theorem isDict_arr (items : List Json) : isDict (.arr items) = items.all isDict := by
  rw [isDict]
  induction items with
  | nil => rfl
  | cons x xs ih => rw [isDictItems, List.all_cons, ih]

@[simp]
theorem isDict_obj (members : List (Text × Json)) : isDict (.obj members) =
    (decide (members.map (·.1)).Nodup && members.all fun m => m.2.isDict) := by
  rw [isDict]
  congr 1
  induction members with
  | nil => rfl
  | cons m ms ih => rw [isDictMembers, List.all_cons, ih]

/-- Sorting keeps the keys. -/
theorem isDict_sorted {v : Json} (h : v.isDict = true) : v.sorted.isDict = true := by
  induction v using Json.induct with
  | null => rfl
  | bool b => rfl
  | int n => rfl
  | float x => rfl
  | str s => rfl
  | arr items ih =>
    rw [isDict_arr, List.all_eq_true] at h
    rw [sorted_arr, isDict_arr, List.all_map, List.all_eq_true]
    exact fun x hx => ih x hx (h x hx)
  | obj members ih =>
    rw [isDict_obj, Bool.and_eq_true, decide_eq_true_eq, List.all_eq_true] at h
    rw [sorted_obj, isDict_obj, Bool.and_eq_true, decide_eq_true_eq, List.all_eq_true]
    constructor
    · rw [((List.mergeSort_perm _ _).map _).nodup_iff, List.map_map]
      exact h.1
    · intro m hm
      obtain ⟨m', hm', rfl⟩ := mem_sorted_members.mp hm
      exact ih m' hm' (h.2 m' hm')

end Json

end ControlPlaneKit
