import Mathlib.Data.List.Chain
import ControlPlaneKit.Python.Codes
import ControlPlaneKit.Python.Pretty

/-!
# Decoding JSON

`json.loads` of a text. The scanner reads one value and leaves the rest of the text; an escaped pair
of surrogates is one character, and a member that comes again takes the value of the last one. What
it decodes has no such pair left and no member twice.
-/

namespace ControlPlaneKit

/-- What a decoded value depends on in the interpreter: the float of a literal, and how deep the
scanner may nest. -/
structure Interpreter where
  floatOf : List Char → Float64
  depthLimit : ℕ
  nests : 3 ≤ depthLimit

/-- What `json.loads` raises. -/
inductive LoadsError where
  /-- `json.JSONDecodeError`. -/
  | decode
  /-- `ValueError`, for an integer with too many digits. -/
  | value
  /-- `RecursionError`. -/
  | recursion
deriving DecidableEq

namespace Scan

/-- The white space of JSON. -/
def isBlank (c : Char) : Bool :=
  c == ' ' || c == '\t' || c == '\n' || c == '\r'

/-- The text after the white space. -/
def skipBlank (cs : List Char) : List Char :=
  cs.dropWhile isBlank

/-! ### Strings -/

/-- The value of a hexadecimal digit. -/
def hexValue (c : Char) : Option ℕ :=
  if '0' ≤ c ∧ c ≤ '9' then some (c.toNat - 48)
  else if 'a' ≤ c ∧ c ≤ 'f' then some (c.toNat - 87)
  else if 'A' ≤ c ∧ c ≤ 'F' then some (c.toNat - 55)
  else none

/-- The code unit of four hexadecimal digits. -/
def hexUnit (a b c d : Char) : Option ℕ := do
  return 4096 * (← hexValue a) + 256 * (← hexValue b) + 16 * (← hexValue c) + (← hexValue d)

/-- The character of a short escape. -/
def shortEscape (c : Char) : Option ℕ :=
  if c = '"' then some 34
  else if c = '\\' then some 92
  else if c = '/' then some 47
  else if c = 'b' then some 8
  else if c = 'f' then some 12
  else if c = 'n' then some 10
  else if c = 'r' then some 13
  else if c = 't' then some 9
  else none

/-- One more unit before those of the rest. -/
def consUnit (n : ℕ) (rest : Except LoadsError (List ℕ × List Char)) :
    Except LoadsError (List ℕ × List Char) :=
  rest.map fun r => (n :: r.1, r.2)

/-- The units of a string literal after its opening quote, and the text after it. -/
def scanUnits : List Char → Except LoadsError (List ℕ × List Char)
  | [] => .error .decode
  | '"' :: cs => .ok ([], cs)
  | '\\' :: 'u' :: a :: b :: c :: d :: cs =>
    match hexUnit a b c d with
    | some n => consUnit n (scanUnits cs)
    | none => .error .decode
  | '\\' :: c :: cs =>
    match shortEscape c with
    | some n => consUnit n (scanUnits cs)
    | none => .error .decode
  | c :: cs => if c = '\\' ∨ c.toNat < 32 then .error .decode else consUnit c.toNat (scanUnits cs)

/-- A leading surrogate. -/
def isHigh (n : ℕ) : Prop :=
  55296 ≤ n ∧ n ≤ 56319

/-- A trailing surrogate. -/
def isLow (n : ℕ) : Prop :=
  56320 ≤ n ∧ n ≤ 57343

instance (n : ℕ) : Decidable (isHigh n) := inferInstanceAs (Decidable (_ ∧ _))

instance (n : ℕ) : Decidable (isLow n) := inferInstanceAs (Decidable (_ ∧ _))

/-- The code points of the units: a pair of surrogates is one. -/
def joinPairs : List ℕ → List ℕ
  | m :: n :: units =>
    if isHigh m ∧ isLow n then (65536 + (m - 55296) * 1024 + (n - 56320)) :: joinPairs units
    else m :: joinPairs (n :: units)
  | units => units

/-- `scanstring`, after the opening quote. -/
def scanText (cs : List Char) : Except LoadsError (Text × List Char) :=
  (scanUnits cs).map fun r => (.ofCodes (joinPairs r.1), r.2)

/-! ### Numbers -/

/-- A decimal digit. -/
def isDigit (c : Char) : Bool :=
  '0' ≤ c && c ≤ '9'

/-- The digits before the point: a zero alone, or no leading zero. -/
def scanWhole : List Char → Option (List Char × List Char)
  | '0' :: cs => some (['0'], cs)
  | c :: cs => if isDigit c then some ((c :: cs).span isDigit) else none
  | [] => none

/-- The digits after this first character, with it, if there are any. -/
def scanDigits (first : List Char) (cs : List Char) : Option (List Char × List Char) :=
  if cs.takeWhile isDigit = [] then none
  else some (first ++ cs.takeWhile isDigit, cs.dropWhile isDigit)

/-- The fraction. -/
def scanFraction : List Char → Option (List Char × List Char)
  | '.' :: cs => scanDigits ['.'] cs
  | _ => none

/-- The exponent. -/
def scanExponent : List Char → Option (List Char × List Char)
  | e :: '+' :: cs => if e = 'e' ∨ e = 'E' then scanDigits [e, '+'] cs else none
  | e :: '-' :: cs => if e = 'e' ∨ e = 'E' then scanDigits [e, '-'] cs else none
  | e :: cs => if e = 'e' ∨ e = 'E' then scanDigits [e] cs else none
  | [] => none

section Values

variable (ip : Interpreter)

/-- `_match_number`. -/
def scanNumber (cs : List Char) : Except LoadsError (Json × List Char) :=
  let negative := cs.head? == some '-'
  match scanWhole (if negative then cs.tail else cs) with
  | none => .error .decode
  | some (whole, cs) =>
    let sign := if negative then ['-'] else []
    let fraction := (scanFraction cs).getD ([], cs)
    let exponent := (scanExponent fraction.2).getD ([], fraction.2)
    if fraction.1 = [] ∧ exponent.1 = [] then
      if 4300 < whole.length then .error .value
      else
        let n : ℤ := whole.foldl (fun n c => 10 * n + ((c.toNat : ℤ) - 48)) 0
        .ok (.int (if negative then -n else n), cs)
    else .ok (.float (ip.floatOf (sign ++ whole ++ fraction.1 ++ exponent.1)), exponent.2)

/-- The loop of `_parse_array`, from an item on. Every item takes a character, so as many rounds as
there are characters are enough. -/
def scanItems (scan : List Char → Except LoadsError (Json × List Char)) :
    ℕ → List Char → Except LoadsError (List Json × List Char)
  | 0, _ => .error .decode
  | rounds + 1, cs =>
    match scan cs with
    | .error e => .error e
    | .ok (v, cs) =>
      match skipBlank cs with
      | ']' :: cs => .ok ([v], cs)
      | ',' :: cs => (scanItems scan rounds (skipBlank cs)).map fun r => (v :: r.1, r.2)
      | _ => .error .decode

/-- `members[key] = value`. -/
def store (members : Fields) (key : Text) (v : Json) : Fields :=
  if key ∈ members.map (·.1) then members.map fun m => if m.1 = key then (key, v) else m
  else members ++ [(key, v)]

/-- The loop of `_parse_object`, from a member on. -/
def scanMembers (scan : List Char → Except LoadsError (Json × List Char)) :
    ℕ → Fields → List Char → Except LoadsError (Fields × List Char)
  | rounds + 1, members, '"' :: cs =>
    match scanText cs with
    | .error e => .error e
    | .ok (key, cs) =>
      match skipBlank cs with
      | ':' :: cs =>
        match scan (skipBlank cs) with
        | .error e => .error e
        | .ok (v, cs) =>
          match skipBlank cs with
          | '}' :: cs => .ok (store members key v, cs)
          | ',' :: cs => scanMembers scan rounds (store members key v) (skipBlank cs)
          | _ => .error .decode
      | _ => .error .decode
  | _, _, _ => .error .decode

/-- The constants. -/
def scanConstant : List Char → Option (Json × List Char)
  | 'n' :: 'u' :: 'l' :: 'l' :: cs => some (.null, cs)
  | 't' :: 'r' :: 'u' :: 'e' :: cs => some (.bool true, cs)
  | 'f' :: 'a' :: 'l' :: 's' :: 'e' :: cs => some (.bool false, cs)
  | 'N' :: 'a' :: 'N' :: cs => some (.float .nan, cs)
  | 'I' :: 'n' :: 'f' :: 'i' :: 'n' :: 'i' :: 't' :: 'y' :: cs => some (.float (.infinite false), cs)
  | '-' :: 'I' :: 'n' :: 'f' :: 'i' :: 'n' :: 'i' :: 't' :: 'y' :: cs =>
    some (.float (.infinite true), cs)
  | _ => none

/-- `scan_once`, with `depth` containers left to open. -/
def scanOnce (depth : ℕ) (cs : List Char) : Except LoadsError (Json × List Char) :=
  match cs with
  | '"' :: cs => (scanText cs).map fun r => (.str r.1, r.2)
  | '[' :: cs =>
    match depth with
    | 0 => .error .recursion
    | depth + 1 =>
      match skipBlank cs with
      | ']' :: cs => .ok (.arr [], cs)
      | cs => (scanItems (scanOnce depth) cs.length cs).map fun r => (.arr r.1, r.2)
  | '{' :: cs =>
    match depth with
    | 0 => .error .recursion
    | depth + 1 =>
      match skipBlank cs with
      | '}' :: cs => .ok (.obj [], cs)
      | cs => (scanMembers (scanOnce depth) cs.length [] cs).map fun r => (.obj r.1, r.2)
  | cs =>
    match scanConstant cs with
    | some r => .ok r
    | none => scanNumber ip cs

end Values

/-! ### Strings read back -/

/-- No trailing surrogate follows a leading one, and every number is a code point. -/
structure Scanned (codes : List ℕ) : Prop where
  bounded : ∀ n ∈ codes, n < 1114112
  unpaired : codes.IsChain fun m n => ¬ (isHigh m ∧ isLow n)

/-- The code units of a code point. -/
def utf16 (n : ℕ) : List ℕ :=
  if n < 65536 then [n] else [55296 + (n - 65536) / 1024 % 1024, 56320 + (n - 65536) % 1024]

section Units

variable {n : ℕ} {c : Char} {cs rest : List Char} {codes units : List ℕ}

theorem hexValue_hexDigit : ∀ k < 16, hexValue (Json.hexDigit k) = some k := by
  decide

theorem scanUnits_escapeUnit (hn : n < 65536) :
    scanUnits (Json.escapeUnit n ++ cs) = consUnit n (scanUnits cs) := by
  have hunit : hexUnit (Json.hexDigit (n / 4096 % 16)) (Json.hexDigit (n / 256 % 16))
      (Json.hexDigit (n / 16 % 16)) (Json.hexDigit (n % 16)) = some n := by
    simp only [hexUnit, hexValue_hexDigit _ (Nat.mod_lt _ (by decide : 0 < 16))]
    refine congrArg some ?_
    omega
  rw [Json.escapeUnit]
  simp only [List.cons_append, List.nil_append, scanUnits, hunit]

/-- A character that stands for itself. -/
theorem scanUnits_plain (hquote : c ≠ '"') (hslash : c ≠ '\\') (hc : 32 ≤ c.toNat) :
    scanUnits (c :: cs) = consUnit c.toNat (scanUnits cs) := by
  rw [scanUnits]
  · exact if_neg (by simp [hslash]; omega)
  · exact hquote
  · intro _ _ _ _ _ heq
    exact absurd heq hslash
  · intro _ _ heq
    exact absurd heq hslash

/-- The escape of a code point is scanned as its units. -/
theorem scanUnits_escapeCode (hn : n < 1114112) : scanUnits (Json.escapeCode n ++ cs) =
    (scanUnits cs).map fun r => (utf16 n ++ r.1, r.2) := by
  have hunit : ∀ m < 65536, (scanUnits cs).map (fun r => (utf16 m ++ r.1, r.2)) =
      consUnit m (scanUnits cs) := by
    intro m hm
    simp only [utf16, if_pos hm, List.singleton_append]
    rfl
  unfold Json.escapeCode
  split
  · next h => rw [hunit n (by omega), h]; rfl
  split
  · next h => rw [hunit n (by omega), h]; rfl
  split
  · next h => rw [hunit n (by omega), h]; rfl
  split
  · next h => rw [hunit n (by omega), h]; rfl
  split
  · next h => rw [hunit n (by omega), h]; rfl
  split
  · next h => rw [hunit n (by omega), h]; rfl
  split
  · next h => rw [hunit n (by omega), h]; rfl
  split
  · next hquote hslash _ _ _ _ _ h =>
    have hvalid : (Char.ofNat n).toNat = n := by
      rw [Char.ofNat, dif_pos (by unfold Nat.isValidChar; omega)]
      rfl
    rw [hunit n (by omega), List.singleton_append, scanUnits_plain, hvalid]
    · rintro heq
      exact hquote (by rw [← hvalid, heq]; rfl)
    · rintro heq
      exact hslash (by rw [← hvalid, heq]; rfl)
    · rw [hvalid]
      exact h.1
  split
  · next h => rw [hunit n h, scanUnits_escapeUnit h]
  · next h =>
    rw [List.append_assoc, scanUnits_escapeUnit (by omega), scanUnits_escapeUnit (by omega), utf16,
      if_neg h]
    cases scanUnits cs <;> rfl

/-- An encoded string is scanned as its units. -/
theorem scanUnits_encoded (h : ∀ n ∈ codes, n < 1114112) :
    scanUnits (codes.flatMap Json.escapeCode ++ '"' :: rest) = .ok (codes.flatMap utf16, rest) := by
  induction codes with
  | nil => rfl
  | cons n codes ih =>
    rw [List.forall_mem_cons] at h
    rw [List.flatMap_cons, List.append_assoc, scanUnits_escapeCode h.1, ih h.2]
    rfl

theorem joinPairs_cons (h : ∀ l ∈ units.head?, ¬ (isHigh n ∧ isLow l)) :
    joinPairs (n :: units) = n :: joinPairs units := by
  cases units with
  | nil => rfl
  | cons l units => rw [joinPairs, if_neg (h l rfl)]

/-- What follows in the text starts with the next code point, or with a leading surrogate. -/
theorem head_utf16 {l : ℕ} (hl : l ∈ (codes.flatMap utf16).head?) :
    l ∈ codes.head? ∨ isHigh l := by
  cases codes with
  | nil => cases hl
  | cons n codes =>
    rw [List.flatMap_cons, utf16] at hl
    split at hl
    · exact .inl hl
    · obtain rfl := Option.some.inj hl
      exact .inr ⟨by omega, by omega⟩

/-- The units of unpaired code points are joined to these. -/
theorem joinPairs_utf16 (h : Scanned codes) : joinPairs (codes.flatMap utf16) = codes := by
  induction codes with
  | nil => rfl
  | cons n codes ih =>
    obtain ⟨hbounded, hunpaired⟩ := h
    rw [List.forall_mem_cons] at hbounded
    rw [List.isChain_cons] at hunpaired
    have ih := ih ⟨hbounded.2, hunpaired.2⟩
    rw [List.flatMap_cons, utf16]
    split
    · rw [List.singleton_append, joinPairs_cons, ih]
      intro l hl hpair
      rcases head_utf16 hl with hl | hhigh
      · exact hunpaired.1 l hl hpair
      · have hlow := hpair.2
        unfold isHigh at hhigh
        unfold isLow at hlow
        omega
    · have hpair : isHigh (55296 + (n - 65536) / 1024 % 1024) ∧ isLow (56320 + (n - 65536) % 1024) :=
        ⟨⟨by omega, by omega⟩, by omega, by omega⟩
      simp only [List.cons_append, List.nil_append]
      have hn : 65536 + (55296 + (n - 65536) / 1024 % 1024 - 55296) * 1024 +
          (56320 + (n - 65536) % 1024 - 56320) = n := by omega
      rw [joinPairs, if_pos hpair, ih, hn]

theorem hexValue_lt {k : ℕ} (h : hexValue c = some k) : k < 16 := by
  have hle : ∀ d : Char, c ≤ d → c.toNat ≤ d.toNat := fun d h => h
  unfold hexValue at h
  split at h
  · next hc =>
    obtain rfl := Option.some.inj h
    have := hle '9' hc.2
    change c.toNat ≤ 57 at this
    omega
  split at h
  · next hc =>
    obtain rfl := Option.some.inj h
    have := hle 'f' hc.2
    change c.toNat ≤ 102 at this
    omega
  split at h
  · next hc =>
    obtain rfl := Option.some.inj h
    have := hle 'F' hc.2
    change c.toNat ≤ 70 at this
    omega
  · cases h

theorem hexUnit_lt {a b c d : Char} (h : hexUnit a b c d = some n) : n < 65536 := by
  simp only [hexUnit, Option.bind_eq_bind, Option.bind_eq_some_iff, Option.pure_def,
    Option.some.injEq] at h
  obtain ⟨i, hi, j, hj, k, hk, l, hl, rfl⟩ := h
  have := hexValue_lt hi
  have := hexValue_lt hj
  have := hexValue_lt hk
  have := hexValue_lt hl
  omega

theorem shortEscape_lt (h : shortEscape c = some n) : n < 128 := by
  unfold shortEscape at h
  repeat' split at h
  all_goals cases h <;> decide

theorem consUnit_ok {r : Except LoadsError (List ℕ × List Char)} (h : consUnit n r = .ok (units, rest)) :
    ∃ units', r = .ok (units', rest) ∧ units = n :: units' := by
  cases r with
  | error e => cases h
  | ok r =>
    cases h
    exact ⟨_, rfl, rfl⟩

/-- The units are code points. -/
theorem scanUnits_bounded (h : scanUnits cs = .ok (units, rest)) : ∀ n ∈ units, n < 1114112 := by
  fun_induction scanUnits cs generalizing units with
  | case1 => cases h
  | case2 cs =>
    cases h
    exact List.forall_mem_nil _
  | case3 a b c d cs n hn ih =>
    obtain ⟨units', hrest, rfl⟩ := consUnit_ok h
    have hlt := hexUnit_lt hn
    exact List.forall_mem_cons.mpr ⟨by omega, ih hrest⟩
  | case4 => cases h
  | case5 c cs _ n hn ih =>
    obtain ⟨units', hrest, rfl⟩ := consUnit_ok h
    have hlt := shortEscape_lt hn
    exact List.forall_mem_cons.mpr ⟨by omega, ih hrest⟩
  | case6 => cases h
  | case7 => cases h
  | case8 c cs _ _ _ _ ih =>
    obtain ⟨units', hrest, rfl⟩ := consUnit_ok h
    refine List.forall_mem_cons.mpr ⟨?_, ih hrest⟩
    have hvalid := c.valid
    change c.toNat < 55296 ∨ 57343 < c.toNat ∧ c.toNat < 1114112 at hvalid
    omega

theorem head_joinPairs {l : ℕ} (hl : l ∈ (joinPairs (n :: units)).head?) : l = n ∨ 65536 ≤ l := by
  cases units with
  | nil => exact .inl (Option.some.inj hl).symm
  | cons m units =>
    rw [joinPairs] at hl
    split at hl
    · obtain rfl := Option.some.inj hl
      exact .inr (by omega)
    · exact .inl (Option.some.inj hl).symm

/-- Joined code points are unpaired. -/
theorem scanned_joinPairs (h : ∀ n ∈ units, n < 1114112) : Scanned (joinPairs units) := by
  fun_induction joinPairs units with
  | case1 m n units hpair ih =>
    rw [List.forall_mem_cons, List.forall_mem_cons] at h
    obtain ⟨hbounded, hunpaired⟩ := ih h.2.2
    obtain ⟨⟨hm, hm'⟩, hn, hn'⟩ := hpair
    refine ⟨List.forall_mem_cons.mpr ⟨by omega, hbounded⟩, List.isChain_cons.mpr ⟨?_, hunpaired⟩⟩
    rintro l - ⟨hhigh, -⟩
    unfold isHigh at hhigh
    omega
  | case2 m n units hpair ih =>
    rw [List.forall_mem_cons] at h
    obtain ⟨hbounded, hunpaired⟩ := ih h.2
    refine ⟨List.forall_mem_cons.mpr ⟨h.1, hbounded⟩, List.isChain_cons.mpr ⟨?_, hunpaired⟩⟩
    intro l hl hpair'
    rcases head_joinPairs hl with rfl | hl
    · exact hpair hpair'
    · have hlow := hpair'.2
      unfold isLow at hlow
      omega
  | case3 units hunits =>
    refine ⟨h, ?_⟩
    rcases units with - | ⟨m, - | ⟨n, units⟩⟩
    · exact .nil
    · exact .singleton m
    · exact absurd rfl (hunits m n units)

end Units

/-! ### Values -/

/-- A string that the scanner can return. -/
def IsScanned (t : Text) : Prop :=
  ∃ codes, Scanned codes ∧ t = .ofCodes codes

/-- A value that the scanner returns: its strings are scanned, and no member comes twice. -/
inductive Decoded : Json → Prop where
  | null : Decoded .null
  | bool (b : Bool) : Decoded (.bool b)
  | int (n : ℤ) : Decoded (.int n)
  | float (x : Float64) : Decoded (.float x)
  | str {t : Text} (ht : IsScanned t) : Decoded (.str t)
  | arr {items : List Json} (hitems : ∀ v ∈ items, Decoded v) : Decoded (.arr items)
  | obj {members : Fields} (hkeys : (members.map (·.1)).Nodup)
      (hnames : ∀ m ∈ members, IsScanned m.1) (hvalues : ∀ m ∈ members, Decoded m.2) :
      Decoded (.obj members)

section Texts

variable {t : Text} {cs rest : List Char}

theorem scanText_encoded (ht : IsScanned t) :
    scanText (t.codes.flatMap Json.escapeCode ++ '"' :: rest) = .ok (t, rest) := by
  obtain ⟨codes, hcodes, rfl⟩ := ht
  rw [Text.codes_ofCodes, scanText, scanUnits_encoded hcodes.bounded, Except.map,
    joinPairs_utf16 hcodes]

/-- Such strings are told apart by their code points. -/
theorem IsScanned.ext {s : Text} (hs : IsScanned s) (ht : IsScanned t) (h : s.codes = t.codes) :
    s = t := by
  obtain ⟨codes, -, rfl⟩ := hs
  obtain ⟨codes', -, rfl⟩ := ht
  rw [Text.codes_ofCodes, Text.codes_ofCodes] at h
  rw [h]

theorem isScanned_of_scanText (h : scanText cs = .ok (t, rest)) : IsScanned t := by
  rw [scanText] at h
  cases hunits : scanUnits cs with
  | error e =>
    rw [hunits] at h
    cases h
  | ok r =>
    rw [hunits] at h
    cases h
    exact ⟨_, scanned_joinPairs (scanUnits_bounded hunits), rfl⟩

end Texts

/-! ### What is decoded -/

section Decoded

variable {ip : Interpreter} {scan : List Char → Except LoadsError (Json × List Char)}
  {depth rounds : ℕ} {v : Json} {items : List Json} {members found : Fields} {key : Text}
  {cs rest : List Char}

theorem map_eq_ok {α β : Type} {x : Except LoadsError α} {f : α → β} {b : β} (h : x.map f = .ok b) :
    ∃ a, x = .ok a ∧ f a = b := by
  cases x with
  | error e => cases h
  | ok a => exact ⟨a, rfl, Except.ok.inj h⟩

theorem scanConstant_decoded (h : scanConstant cs = some (v, rest)) : Decoded v := by
  unfold scanConstant at h
  split at h <;> cases h
  · exact .null
  · exact .bool true
  · exact .bool false
  · exact .float _
  · exact .float _
  · exact .float _

theorem scanNumber_decoded (h : scanNumber ip cs = .ok (v, rest)) : Decoded v := by
  unfold scanNumber at h
  dsimp only at h
  split at h
  · cases h
  · split at h
    · split at h
      · cases h
      · cases h
        exact .int _
    · cases h
      exact .float _

theorem scanItems_decoded (hscan : ∀ {cs v rest}, scan cs = .ok (v, rest) → Decoded v)
    (h : scanItems scan rounds cs = .ok (items, rest)) : ∀ v ∈ items, Decoded v := by
  induction rounds generalizing cs items with
  | zero => cases h
  | succ rounds ih =>
    rw [scanItems] at h
    split at h
    · cases h
    · next v cs₁ hv =>
      split at h
      · cases h
        exact List.forall_mem_singleton.mpr (hscan hv)
      · obtain ⟨⟨items', rest'⟩, hrest, heq⟩ := map_eq_ok h
        cases heq
        exact List.forall_mem_cons.mpr ⟨hscan hv, ih hrest⟩
      · cases h

/-- The members of a decoded object. -/
structure DecodedMembers (members : Fields) : Prop where
  keys : (members.map (·.1)).Nodup
  names : ∀ m ∈ members, IsScanned m.1
  values : ∀ m ∈ members, Decoded m.2

theorem DecodedMembers.store (h : DecodedMembers members) (hkey : IsScanned key) (hv : Decoded v) :
    DecodedMembers (store members key v) := by
  unfold Scan.store
  split
  · have hkeys : (members.map fun m => if m.1 = key then (key, v) else m).map (·.1) =
        members.map (·.1) := by
      rw [List.map_map]
      refine List.map_congr_left fun m _ => ?_
      by_cases hm : m.1 = key <;> simp [hm]
    refine ⟨hkeys ▸ h.keys, ?_, ?_⟩ <;>
    · rw [List.forall_mem_map]
      intro m hm
      split
      · assumption
      · first | exact h.names m hm | exact h.values m hm
  · next hnew =>
    refine ⟨?_, ?_, ?_⟩
    · rw [List.map_append, List.nodup_append']
      exact ⟨h.keys, List.nodup_singleton _, by simpa using hnew⟩
    · rw [List.forall_mem_append, List.forall_mem_singleton]
      exact ⟨h.names, hkey⟩
    · rw [List.forall_mem_append, List.forall_mem_singleton]
      exact ⟨h.values, hv⟩

theorem scanMembers_decoded (hscan : ∀ {cs v rest}, scan cs = .ok (v, rest) → Decoded v)
    (hfound : DecodedMembers found) (h : scanMembers scan rounds found cs = .ok (members, rest)) :
    DecodedMembers members := by
  induction rounds generalizing cs found with
  | zero =>
    rw [scanMembers] at h
    · cases h
    · rintro _ _ ⟨⟩
  | succ rounds ih =>
    unfold scanMembers at h
    split at h
    · next rounds' members' cs' heq =>
      split at h
      · cases h
      · next key cs₁ hkey =>
        split at h
        · split at h
          · cases h
          · next v cs₂ hv =>
            have hstored := hfound.store (isScanned_of_scanText hkey) (hscan hv)
            split at h
            · cases h
              exact hstored
            · cases heq
              exact ih hstored h
            · cases h
        · cases h
    · cases h

/-- **What the scanner returns** has scanned strings, and no member twice. -/
theorem scanOnce_decoded (h : scanOnce ip depth cs = .ok (v, rest)) : Decoded v := by
  induction depth generalizing cs v rest with
  | zero =>
    rw [scanOnce.eq_def] at h
    split at h
    · obtain ⟨⟨t, rest'⟩, htext, heq⟩ := map_eq_ok h
      cases heq
      exact .str (isScanned_of_scanText htext)
    · cases h
    · cases h
    · split at h
      · cases h
        exact scanConstant_decoded (by assumption)
      · exact scanNumber_decoded h
  | succ depth ih =>
    rw [scanOnce.eq_def] at h
    split at h
    · obtain ⟨⟨t, rest'⟩, htext, heq⟩ := map_eq_ok h
      cases heq
      exact .str (isScanned_of_scanText htext)
    · dsimp only at h
      split at h
      · cases h
        exact .arr (List.forall_mem_nil _)
      · obtain ⟨⟨items, rest'⟩, hitems, heq⟩ := map_eq_ok h
        cases heq
        exact .arr (scanItems_decoded ih hitems)
    · dsimp only at h
      split at h
      · cases h
        exact .obj List.nodup_nil (List.forall_mem_nil _) (List.forall_mem_nil _)
      · obtain ⟨⟨members, rest'⟩, hmembers, heq⟩ := map_eq_ok h
        cases heq
        have hempty : DecodedMembers [] :=
          ⟨List.nodup_nil, List.forall_mem_nil _, List.forall_mem_nil _⟩
        have hdecoded := scanMembers_decoded ih hempty hmembers
        exact .obj hdecoded.keys hdecoded.names hdecoded.values
    · split at h
      · cases h
        exact scanConstant_decoded (by assumption)
      · exact scanNumber_decoded h

/-- A member of a decoded object, or the value for a missing one. -/
theorem Decoded.get {name : String} (h : Decoded (.obj members)) : Decoded (members.get name) := by
  cases h with
  | obj _ _ hvalues =>
    rw [Fields.get]
    cases hlookup : members.lookup (.utf8 name) with
    | none => exact .null
    | some v =>
      obtain ⟨before, after, rfl, -⟩ := List.lookup_eq_some_iff.mp hlookup
      exact hvalues _ (List.mem_append_right _ List.mem_cons_self)

theorem Decoded.isDict (h : Decoded v) : v.isDict = true := by
  induction h with
  | arr _ ih =>
    rw [Json.isDict_arr, List.all_eq_true]
    exact ih
  | obj hkeys _ _ ih =>
    rw [Json.isDict_obj, Bool.and_eq_true, decide_eq_true_eq, List.all_eq_true]
    exact ⟨hkeys, ih⟩
  | _ => rfl

end Decoded

end Scan

/-- `json.loads(text)`. -/
def Interpreter.loads (ip : Interpreter) (cs : List Char) : Except LoadsError Json :=
  if cs.head? = some (Char.ofNat 65279) then .error .decode
  else
    match Scan.scanOnce ip ip.depthLimit (Scan.skipBlank cs) with
    | .error e => .error e
    | .ok (v, cs) => if Scan.skipBlank cs = [] then .ok v else .error .decode

section Loads

variable {ip : Interpreter} {cs : List Char} {v : Json}

/-- What is decoded has scanned strings, and no member twice. -/
theorem Interpreter.loads_decoded (h : ip.loads cs = .ok v) : Scan.Decoded v := by
  unfold loads at h
  split at h
  · cases h
  split at h
  · cases h
  split at h
  · cases h
    exact Scan.scanOnce_decoded (by assumption)
  · cases h

end Loads

end ControlPlaneKit
