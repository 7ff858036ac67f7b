import Mathlib.Algebra.GroupWithZero.Nat
import Mathlib.Data.List.Nodup
import ControlPlaneKit.Python.Json

/-!
# Compact JSON encoding

`json.dumps(value, sort_keys=True, separators=(",", ":"), allow_nan=False)`: the encoder behind
every request digest, every request body and every journal document. The default
`ensure_ascii=True` escapes each character outside the printable ASCII range, so the encoded
text is ASCII and its length is the number of bytes written. A NaN or an infinity anywhere in
the value raises `ValueError` (`none` here).

The shortest decimal text of a finite float is a parameter, as it is chosen by the interpreter
and used only as a text.
-/

namespace ControlPlaneKit

namespace Text

/-- The code points of a string. -/
def codes : Text → List Nat
  | .utf8 s => s.toList.map Char.toNat
  | .surrogate cs => cs

/-- Python compares strings by their code points. -/
def le (a b : Text) : Bool :=
  decide (@LE.le (List Nat) List.instLE a.codes b.codes)

theorem le_trans {a b c : Text} (hab : a.le b = true) (hbc : b.le c = true) : a.le c = true :=
  decide_eq_true (List.le_trans (of_decide_eq_true hab) (of_decide_eq_true hbc))

theorem le_total (a b : Text) : (a.le b || b.le a) = true := by
  rw [Bool.or_eq_true, le, le, decide_eq_true_eq, decide_eq_true_eq]
  exact List.le_total a.codes b.codes

theorem codes_eq_of_le {a b : Text} (hab : a.le b = true) (hba : b.le a = true) :
    a.codes = b.codes :=
  List.le_antisymm (of_decide_eq_true hab) (of_decide_eq_true hba)

end Text

namespace Json

/-- The lowercase hexadecimal digit of a number below sixteen. -/
def hexDigit (n : Nat) : Char :=
  Nat.digitChar n

/-- The escape `\uXXXX` of one UTF-16 code unit. -/
def escapeUnit (n : Nat) : List Char :=
  ['\\', 'u', hexDigit (n / 4096 % 16), hexDigit (n / 256 % 16), hexDigit (n / 16 % 16),
    hexDigit (n % 16)]

/-- One code point inside a string literal, escaped outside printable ASCII. -/
def escapeCode (n : Nat) : List Char :=
  if n = 34 then ['\\', '"']
  else if n = 92 then ['\\', '\\']
  else if n = 10 then ['\\', 'n']
  else if n = 13 then ['\\', 'r']
  else if n = 9 then ['\\', 't']
  else if n = 12 then ['\\', 'f']
  else if n = 8 then ['\\', 'b']
  else if 32 ≤ n ∧ n ≤ 126 then [Char.ofNat n]
  else if n < 65536 then escapeUnit n
  else
    escapeUnit (55296 + (n - 65536) / 1024 % 1024) ++ escapeUnit (56320 + (n - 65536) % 1024)

/-- A string literal. -/
def encodeText (t : Text) : List Char :=
  '"' :: (t.codes.flatMap escapeCode ++ ['"'])

/-- Items joined by commas. -/
def joined : List (List Char) → List Char
  | [] => []
  | [x] => x
  | x :: y :: xs => x ++ ',' :: joined (y :: xs)

section Encode

variable (floatText : ℚ → List Char)

mutual

/-- The encoded text of a value, or `none` where the encoder raises `ValueError`. -/
def encode : Json → Option (List Char)
  | .null => some ['n', 'u', 'l', 'l']
  | .bool true => some ['t', 'r', 'u', 'e']
  | .bool false => some ['f', 'a', 'l', 's', 'e']
  | .int n => some (toString n).toList
  | .float (.finite q) => some (floatText q)
  | .float _ => none
  | .str s => some (encodeText s)
  | .arr items => (encodeItems items).map fun parts => '[' :: (joined parts ++ [']'])
  | .obj members =>
    (encodeMembers members).map fun parts =>
      '{' :: (joined ((parts.mergeSort fun a b => a.1.le b.1).map (·.2)) ++ ['}'])

/-- The encoded items of a list. -/
def encodeItems : List Json → Option (List (List Char))
  | [] => some []
  | x :: xs =>
    match encode x, encodeItems xs with
    | some y, some ys => some (y :: ys)
    | _, _ => none

/-- The encoded members of an object, each still paired with its key for sorting. -/
def encodeMembers : List (Text × Json) → Option (List (Text × List Char))
  | [] => some []
  | (k, x) :: xs =>
    match encode x, encodeMembers xs with
    | some y, some ys => some ((k, encodeText k ++ ':' :: y) :: ys)
    | _, _ => none

end

end Encode

/-! ### The order of members

Members are sorted by their keys, so an object is encoded in one way whatever the order its
members were inserted in. -/

section Order

variable {floatText : ℚ → List Char}

/-- Sorting pairs by distinct keys forgets the order they came in. -/
theorem mergeSort_eq_of_perm {α : Type} {xs ys : List (Text × α)} (h : xs.Perm ys)
    (hkeys : (xs.map fun x => x.1.codes).Nodup) :
    (xs.mergeSort fun a b => a.1.le b.1) = ys.mergeSort fun a b => a.1.le b.1 := by
  have htrans : ∀ a b c : Text × α, a.1.le b.1 = true → b.1.le c.1 = true → a.1.le c.1 = true :=
    fun _ _ _ => Text.le_trans
  have htotal : ∀ a b : Text × α, (a.1.le b.1 || b.1.le a.1) = true :=
    fun a b => Text.le_total a.1 b.1
  refine List.Perm.eq_of_pairwise ?_ (List.pairwise_mergeSort htrans htotal xs)
    (List.pairwise_mergeSort htrans htotal ys)
    (((List.mergeSort_perm _ _).trans h).trans (List.mergeSort_perm _ _).symm)
  intro a b ha hb hab hba
  have ha' : a ∈ xs := (List.mergeSort_perm _ _).mem_iff.mp ha
  have hb' : b ∈ xs := h.mem_iff.mpr ((List.mergeSort_perm _ _).mem_iff.mp hb)
  exact List.inj_on_of_nodup_map hkeys ha' hb' (Text.codes_eq_of_le hab hba)

theorem encodeMembers_keys {members : List (Text × Json)} {parts : List (Text × List Char)}
    (h : encodeMembers floatText members = some parts) :
    parts.map (·.1) = members.map (·.1) := by
  induction members generalizing parts with
  | nil =>
    rw [encodeMembers] at h
    cases h
    rfl
  | cons m members ih =>
    obtain ⟨k, x⟩ := m
    rw [encodeMembers] at h
    split at h
    · rename_i y ys hy hys
      cases h
      rw [List.map_cons, List.map_cons, ih hys]
    · cases h

/-- The members of a permuted object are encoded to the permuted texts. -/
theorem encodeMembers_perm {members members' : List (Text × Json)} (h : members.Perm members') :
    ∀ parts, encodeMembers floatText members = some parts →
      ∃ parts', encodeMembers floatText members' = some parts' ∧ parts.Perm parts' := by
  induction h with
  | nil => exact fun parts hparts => ⟨parts, hparts, .refl _⟩
  | cons m _ ih =>
    intro parts hparts
    obtain ⟨k, x⟩ := m
    rw [encodeMembers] at hparts
    split at hparts
    · rename_i y ys hy hys
      cases hparts
      obtain ⟨ys', hys', hperm⟩ := ih ys hys
      exact ⟨_, by rw [encodeMembers, hy, hys'], hperm.cons _⟩
    · cases hparts
  | swap m m' ms =>
    intro parts hparts
    obtain ⟨k, x⟩ := m
    obtain ⟨k', x'⟩ := m'
    rw [encodeMembers, encodeMembers] at hparts
    cases hx : encode floatText x <;> cases hx' : encode floatText x' <;>
      cases hms : encodeMembers floatText ms <;> rw [hx, hx', hms] at hparts <;> cases hparts
    refine ⟨_, by rw [encodeMembers, encodeMembers, hx, hx', hms], ?_⟩
    exact List.Perm.swap _ _ _
  | trans _ _ ih ih' =>
    intro parts hparts
    obtain ⟨parts', hparts', hperm⟩ := ih parts hparts
    obtain ⟨parts'', hparts'', hperm'⟩ := ih' parts' hparts'
    exact ⟨parts'', hparts'', hperm.trans hperm'⟩

/-- **An object is encoded in one way**, whatever the order of its members. -/
theorem encode_obj_of_perm {members members' : List (Text × Json)} (h : members.Perm members')
    (hkeys : (members.map fun m => m.1.codes).Nodup) :
    encode floatText (.obj members) = encode floatText (.obj members') := by
  rw [encode, encode]
  cases hparts : encodeMembers floatText members with
  | none =>
    cases hparts' : encodeMembers floatText members' with
    | none => rfl
    | some parts' =>
      obtain ⟨parts, hsome, -⟩ := encodeMembers_perm h.symm parts' hparts'
      rw [hparts] at hsome
      cases hsome
  | some parts =>
    obtain ⟨parts', hparts', hperm⟩ := encodeMembers_perm h parts hparts
    have hcodes : (parts.map fun x => x.1.codes).Nodup := by
      have hsame := congrArg (List.map Text.codes) (encodeMembers_keys hparts)
      rw [List.map_map, List.map_map] at hsame
      have : (members.map (Text.codes ∘ fun m => m.1)).Nodup := hkeys
      rwa [← hsame] at this
    rw [hparts', Option.map_some, Option.map_some, mergeSort_eq_of_perm hperm hcodes]

end Order

/-! ### Sizes -/

section Sizes

/-- A string has at most as many characters as bytes. -/
theorem length_toList_le (s : String) : s.toList.length ≤ s.utf8ByteSize := by
  have hchars : ∀ l : List Char, l.length ≤ l.utf8Encode.size := by
    intro l
    induction l with
    | nil => simp
    | cons c l ih =>
      rw [List.utf8Encode_cons, ByteArray.size_append, List.length_cons]
      have hone : [c].utf8Encode.size = c.utf8Size := by simp [List.utf8Encode_singleton]
      have := c.utf8Size_pos
      omega
  have hbytes : s.toList.utf8Encode = s.toByteArray := by simp
  have := hchars s.toList
  rwa [hbytes] at this

theorem length_escapeCode_le (n : ℕ) : (escapeCode n).length ≤ 12 := by
  have hunit : ∀ m, (escapeUnit m).length = 6 := fun _ => rfl
  unfold escapeCode
  repeat' split
  all_goals simp [hunit]

theorem length_encodeText_le (t : Text) : (encodeText t).length ≤ 12 * t.codes.length + 2 := by
  have hcodes : ∀ l : List ℕ, (l.flatMap escapeCode).length ≤ 12 * l.length := by
    intro l
    induction l with
    | nil => simp
    | cons n l ih =>
      rw [List.flatMap_cons, List.length_append, List.length_cons]
      have := length_escapeCode_le n
      omega
  have := hcodes t.codes
  simp only [encodeText, List.length_cons, List.length_append, List.length_nil]
  omega

theorem length_joined_le (parts : List (List Char)) :
    (joined parts).length ≤ (parts.map fun p => p.length + 1).sum := by
  fun_induction joined parts with
  | case1 => simp
  | case2 x => simp
  | case3 x y xs ih =>
    simp only [List.length_append, List.length_cons, List.map_cons, List.sum_cons] at ih ⊢
    omega

variable {floatText : ℚ → List Char} {m n : ℕ}

/-- The encoder accepts the value, and its text has at most `n` characters. -/
def Fits (floatText : ℚ → List Char) (n : ℕ) (v : Json) : Prop :=
  ∃ raw, encode floatText v = some raw ∧ raw.length ≤ n

theorem Fits.mono {v : Json} (h : Fits floatText m v) (hmn : m ≤ n) : Fits floatText n v := by
  obtain ⟨raw, hraw, hlength⟩ := h
  exact ⟨raw, hraw, hlength.trans hmn⟩

theorem fits_null : Fits floatText 4 .null :=
  ⟨_, by rw [encode], by decide⟩

theorem fits_bool (b : Bool) : Fits floatText 5 (.bool b) := by
  cases b
  · exact ⟨_, by rw [encode], by decide⟩
  · exact ⟨_, by rw [encode], by decide⟩

theorem fits_int {k : ℤ} (h : (toString k).toList.length ≤ n) : Fits floatText n (.int k) :=
  ⟨_, by rw [encode], h⟩

theorem fits_text (t : Text) : Fits floatText (12 * t.codes.length + 2) (.str t) :=
  ⟨_, by rw [encode], length_encodeText_le t⟩

theorem length_codes_le (s : String) : (Text.utf8 s).codes.length ≤ s.utf8ByteSize := by
  rw [Text.codes, List.length_map]
  exact length_toList_le s

theorem fits_str {s : String} (h : s.utf8ByteSize ≤ m) :
    Fits floatText (12 * m + 2) (.str (.utf8 s)) := by
  have := length_codes_le s
  exact (fits_text _).mono (by omega)

theorem encodeItems_fits {items : List Json} (h : ∀ x ∈ items, Fits floatText n x) :
    ∃ parts, encodeItems floatText items = some parts ∧
      (parts.map fun p => p.length + 1).sum ≤ items.length * (n + 1) := by
  induction items with
  | nil => exact ⟨[], by rw [encodeItems], by simp⟩
  | cons x xs ih =>
    obtain ⟨y, hy, hyn⟩ := h x (by simp)
    obtain ⟨ys, hys, hsum⟩ := ih fun z hz => h z (List.mem_cons_of_mem x hz)
    refine ⟨y :: ys, by rw [encodeItems, hy, hys], ?_⟩
    rw [List.map_cons, List.sum_cons, List.length_cons, Nat.add_mul, Nat.one_mul]
    omega

theorem fits_arr {items : List Json} (h : ∀ x ∈ items, Fits floatText n x) :
    Fits floatText (items.length * (n + 1) + 2) (.arr items) := by
  obtain ⟨parts, hparts, hsum⟩ := encodeItems_fits h
  refine ⟨_, by rw [encode, hparts]; rfl, ?_⟩
  have := length_joined_le parts
  simp only [List.length_cons, List.length_append, List.length_nil]
  omega

/-- The members fit: each key and each value within a bound of its own. -/
inductive FitsMembers (floatText : ℚ → List Char) : ℕ → List (Text × Json) → Prop where
  | nil : FitsMembers floatText 0 []
  | cons {key : Text} {v : Json} {members : List (Text × Json)} {m n k : ℕ}
      (hkey : key.codes.length ≤ m) (hv : Fits floatText n v)
      (h : FitsMembers floatText k members) :
      FitsMembers floatText (12 * m + n + 4 + k) ((key, v) :: members)

theorem FitsMembers.encode {members : List (Text × Json)} (h : FitsMembers floatText n members) :
    ∃ parts, encodeMembers floatText members = some parts ∧
      (parts.map fun p => p.2.length + 1).sum ≤ n := by
  induction h with
  | nil => exact ⟨[], by rw [encodeMembers], by simp⟩
  | @cons key v members m n k hkey hv _ ih =>
    obtain ⟨y, hy, hyn⟩ := hv
    obtain ⟨ys, hys, hsum⟩ := ih
    refine ⟨(key, encodeText key ++ ':' :: y) :: ys, by rw [encodeMembers, hy, hys], ?_⟩
    have := length_encodeText_le key
    simp only [List.map_cons, List.sum_cons, List.length_append, List.length_cons]
    omega

/-- An object fits if its members do. Sorting them changes no length. -/
theorem fits_obj {members : List (Text × Json)} (h : FitsMembers floatText n members) :
    Fits floatText (n + 2) (.obj members) := by
  obtain ⟨parts, hparts, hsum⟩ := h.encode
  refine ⟨_, by rw [Json.encode, hparts]; rfl, ?_⟩
  have hperm := (List.mergeSort_perm parts fun a b => a.1.le b.1).map fun p => p.2.length + 1
  have hsorted := length_joined_le ((parts.mergeSort fun a b => a.1.le b.1).map (·.2))
  rw [List.map_map] at hsorted
  have hsame := hperm.sum_nat
  simp only [List.length_cons, List.length_append, List.length_nil]
  simp only [Function.comp_def] at hsorted
  omega

/-- Members within one bound fit. -/
theorem FitsMembers.of_forall {members : List (Text × Json)}
    (hkeys : ∀ x ∈ members, x.1.codes.length ≤ m) (h : ∀ x ∈ members, Fits floatText n x.2) :
    FitsMembers floatText (members.length * (12 * m + n + 4)) members := by
  induction members with
  | nil => simpa using FitsMembers.nil
  | cons x xs ih =>
    have hrest := ih (fun z hz => hkeys z (List.mem_cons_of_mem x hz))
      fun z hz => h z (List.mem_cons_of_mem x hz)
    have := FitsMembers.cons (hkeys x (by simp)) (h x (by simp)) hrest
    rw [List.length_cons, Nat.add_mul, Nat.one_mul, Nat.add_comm]
    exact this

/-- A member whose name is a short literal. -/
theorem FitsMembers.member (name : String) {v : Json} {members : List (Text × Json)} {n k : ℕ}
    (h : FitsMembers floatText k members) (hv : Fits floatText n v)
    (hname : name.utf8ByteSize ≤ 64 := by decide) :
    FitsMembers floatText (n + 772 + k) ((.utf8 name, v) :: members) := by
  have hkey := length_codes_le name
  have := FitsMembers.cons (hkey.trans hname) hv h
  rwa [show 12 * 64 + n + 4 + k = n + 772 + k by omega] at this

theorem FitsMembers.append {members members' : List (Text × Json)} {m n : ℕ}
    (h : FitsMembers floatText m members) (h' : FitsMembers floatText n members') :
    FitsMembers floatText (m + n) (members ++ members') := by
  induction h with
  | nil => simpa using h'
  | cons hkey hv _ ih =>
    rw [Nat.add_assoc]
    exact .cons hkey hv ih

end Sizes

/-! ### Exact sizes

The length of an encoded text is the sum of the lengths of its parts, so replacing one value deep
inside a document changes the length of the document by the difference at that place. -/

section ExactSizes

variable {floatText : ℚ → List Char} {d : ℕ} {v v' : Json}

theorem length_joined (parts : List (List Char)) :
    (joined parts).length = (parts.map fun p => p.length + 1).sum - 1 := by
  fun_induction joined parts with
  | case1 => rfl
  | case2 x => simp
  | case3 x y xs ih =>
    simp only [List.length_append, List.length_cons, List.map_cons, List.sum_cons] at ih ⊢
    omega

/-- The length of the encoded text. -/
def size (floatText : ℚ → List Char) (v : Json) : Option ℕ :=
  (encode floatText v).map List.length

/-- The length of the encoded members, each with a comma. -/
def membersSize (floatText : ℚ → List Char) (members : List (Text × Json)) : Option ℕ :=
  (encodeMembers floatText members).map fun parts => (parts.map fun p => p.2.length + 1).sum

theorem membersSize_cons (k : Text) (x : Json) (members : List (Text × Json)) :
    membersSize floatText ((k, x) :: members) =
      (size floatText x).bind fun m => (membersSize floatText members).map fun n =>
        (encodeText k).length + m + 2 + n := by
  rw [membersSize, membersSize, size, encodeMembers]
  cases encode floatText x with
  | none => rfl
  | some raw =>
    cases encodeMembers floatText members with
    | none => rfl
    | some parts =>
      simp only [Option.map_some, Option.bind_some, List.map_cons, List.sum_cons,
        List.length_append, List.length_cons, Option.some.injEq]
      omega

/-- Sorting the members changes no length. -/
theorem size_obj (members : List (Text × Json)) :
    size floatText (.obj members) = (membersSize floatText members).map fun n => n - 1 + 2 := by
  rw [size, membersSize, encode]
  cases encodeMembers floatText members with
  | none => rfl
  | some parts =>
    have hperm := ((List.mergeSort_perm parts fun a b => a.1.le b.1).map
      fun p => p.2.length + 1).sum_nat
    have hsorted := length_joined ((parts.mergeSort fun a b => a.1.le b.1).map (·.2))
    simp only [List.map_map, Function.comp_def] at hsorted
    rw [hperm] at hsorted
    simp only [Option.map_some, List.length_cons, List.length_append, List.length_nil, hsorted]

/-- The size of a list whose items have these sizes. -/
theorem size_arr {items : List Json} {f : Json → ℕ}
    (h : ∀ x ∈ items, size floatText x = some (f x)) :
    size floatText (.arr items) = some ((items.map fun x => f x + 1).sum - 1 + 2) := by
  have hitems : ∃ parts, encodeItems floatText items = some parts ∧
      (parts.map fun p => p.length + 1) = items.map fun x => f x + 1 := by
    induction items with
    | nil => exact ⟨[], by rw [encodeItems], rfl⟩
    | cons x xs ih =>
      obtain ⟨raw, hraw, hlength⟩ := Option.map_eq_some_iff.mp (h x List.mem_cons_self)
      obtain ⟨parts, hparts, hsame⟩ := ih fun y hy => h y (List.mem_cons_of_mem x hy)
      refine ⟨raw :: parts, by rw [encodeItems, hraw, hparts], ?_⟩
      rw [List.map_cons, List.map_cons, hsame, hlength]
  obtain ⟨parts, hparts, hsame⟩ := hitems
  rw [size, encode, hparts, ← hsame]
  simp only [Option.map_some, List.length_cons, List.length_append, List.length_nil, length_joined]

theorem membersSize_isSome {members : List (Text × Json)}
    (h : ∀ m ∈ members, (size floatText m.2).isSome = true) :
    (membersSize floatText members).isSome = true := by
  induction members with
  | nil => rw [membersSize, encodeMembers]; rfl
  | cons m members ih =>
    obtain ⟨n, hn⟩ := Option.isSome_iff_exists.mp (h m List.mem_cons_self)
    obtain ⟨k, hk⟩ := Option.isSome_iff_exists.mp (ih fun x hx => h x (List.mem_cons_of_mem m hx))
    rw [membersSize_cons, hn, hk]
    rfl

theorem size_obj_isSome {members : List (Text × Json)}
    (h : ∀ m ∈ members, (size floatText m.2).isSome = true) :
    (size floatText (.obj members)).isSome = true := by
  rw [size_obj, Option.isSome_map]
  exact membersSize_isSome h

/-- The second value in place of the first makes a text `d` characters longer. -/
def Longer (floatText : ℚ → List Char) (d : ℕ) (v v' : Json) : Prop :=
  size floatText v' = (size floatText v).map (· + d)

theorem Longer.members (h : Longer floatText d v v') (k : Text) (post : List (Text × Json)) :
    ∀ before : List (Text × Json),
      membersSize floatText (before ++ (k, v') :: post) =
          (membersSize floatText (before ++ (k, v) :: post)).map (· + d) ∧
        ∀ n, membersSize floatText (before ++ (k, v) :: post) = some n → 1 ≤ n
  | [] => by
    have hcomma : ∀ n, membersSize floatText ([] ++ (k, v) :: post) = some n → 1 ≤ n := by
      intro n hn
      rw [List.nil_append, membersSize_cons] at hn
      obtain ⟨m, -, hn⟩ := Option.bind_eq_some_iff.mp hn
      obtain ⟨rest, -, rfl⟩ := Option.map_eq_some_iff.mp hn
      omega
    refine ⟨?_, hcomma⟩
    rw [List.nil_append, List.nil_append, membersSize_cons, membersSize_cons, h]
    cases size floatText v with
    | none => rfl
    | some m =>
      cases membersSize floatText post with
      | none => rfl
      | some n =>
        simp only [Option.map_some, Option.bind_some, Option.some.injEq]
        omega
  | (k', x) :: before => by
    obtain ⟨hsame, hcomma⟩ := h.members k post before
    rw [List.cons_append, List.cons_append, membersSize_cons, membersSize_cons, hsame]
    constructor
    · cases size floatText x with
      | none => rfl
      | some m =>
        cases membersSize floatText (before ++ (k, v) :: post) with
        | none => rfl
        | some n =>
          simp only [Option.map_some, Option.bind_some, Option.some.injEq]
          omega
    · intro n hn
      obtain ⟨m, -, hn⟩ := Option.bind_eq_some_iff.mp hn
      obtain ⟨rest, -, rfl⟩ := Option.map_eq_some_iff.mp hn
      omega

/-- A longer member makes an object longer. -/
theorem Longer.obj (h : Longer floatText d v v') (k : Text) (before post : List (Text × Json)) :
    Longer floatText d (.obj (before ++ (k, v) :: post)) (.obj (before ++ (k, v') :: post)) := by
  obtain ⟨hsame, hcomma⟩ := h.members k post before
  rw [Longer, size_obj, size_obj, hsame]
  cases hn : membersSize floatText (before ++ (k, v) :: post) with
  | none => rfl
  | some n =>
    have := hcomma n hn
    simp only [Option.map_some, Option.some.injEq]
    omega

end ExactSizes

/-- The bytes of an ASCII text. -/
def asciiBytes (cs : List Char) : List UInt8 :=
  cs.map fun c => UInt8.ofNat c.toNat

theorem length_asciiBytes (cs : List Char) : (asciiBytes cs).length = cs.length :=
  List.length_map _

end Json

end ControlPlaneKit
