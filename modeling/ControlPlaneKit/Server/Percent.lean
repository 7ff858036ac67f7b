import ControlPlaneKit.Server.Query

/-!
# Strict percent decoding

`_strict_percent_decode` walks over its input with an index and looks two bytes ahead at every `%`.
The loop computes what the structural decoder of the boundary computes (`percentLoop_eq`), so it
inverts every spelling of a byte string, and it raises exactly where some `%` is not followed by two
hexadecimal digits (`percentDecode_inverts`).
-/

namespace ControlPlaneKit

namespace Server

/-! ### The loop -/

/-- `ValueError(message)`. -/
structure ValueError where
  message : String

/-- `b"0123456789ABCDEFabcdef"`. -/
def hexDigits : List UInt8 :=
  utf8 "0123456789ABCDEFabcdef"

/-- `int(digits, 16)`. -/
def hexInt (digits : List UInt8) : ℕ :=
  digits.foldl (fun n digit => 16 * n + (hexValue digit).getD 0) 0

/-- The loop of `_strict_percent_decode`, from an index on and with the bytes decoded so far. -/
def percentLoop (value : List UInt8) (index : ℕ) (decoded : List UInt8) :
    Except ValueError (List UInt8) :=
  if h : index < value.length then
    if value[index] ≠ 37 then percentLoop value (index + 1) (decoded ++ [value[index]])
    else if value.length ≤ index + 2 then .error ⟨"incomplete percent escape"⟩
    else
      let digits := (value.drop (index + 1)).take 2
      if digits.any fun digit => !hexDigits.contains digit then .error ⟨"invalid percent escape"⟩
      else percentLoop value (index + 3) (decoded ++ [UInt8.ofNat (hexInt digits)])
  else .ok decoded
termination_by value.length - index

/-- `_strict_percent_decode`. -/
def percentDecode (value : List UInt8) : Except ValueError (List UInt8) :=
  percentLoop value 0 []

section Loop

variable {value pre rest decoded : List UInt8} {b high low : UInt8}

theorem mem_hexDigits : b ∈ hexDigits ↔ ∃ x, hexValue b = some x := by
  have hall : ∀ n < 256, UInt8.ofNat n ∈ hexDigits ↔ (hexValue (UInt8.ofNat n)).isSome := by
    decide +kernel
  have hb := hall b.toNat b.toNat_lt
  rwa [UInt8.ofNat_toNat, Option.isSome_iff_exists] at hb

theorem contains_hexDigits : hexDigits.contains b = (hexValue b).isSome := by
  rw [Bool.eq_iff_iff, List.contains_iff_mem, mem_hexDigits, Option.isSome_iff_exists]

/-- At the end the loop returns what it has decoded. -/
theorem percentLoop_end : percentLoop pre pre.length decoded = .ok decoded := by
  rw [percentLoop, dif_neg (lt_irrefl _)]

theorem percentLoop_byte (hb : b ≠ 37) : percentLoop (pre ++ b :: rest) pre.length decoded =
    percentLoop ((pre ++ [b]) ++ rest) (pre ++ [b]).length (decoded ++ [b]) := by
  rw [percentLoop, dif_pos (by simp)]
  simp [hb]

/-- An escape that is cut off by the end of the input. -/
theorem percentLoop_cut (hrest : rest.length < 2) :
    percentLoop (pre ++ 37 :: rest) pre.length decoded = .error ⟨"incomplete percent escape"⟩ := by
  have hcut : (pre ++ 37 :: rest).length ≤ pre.length + 2 := by
    rw [List.length_append, List.length_cons]
    omega
  rw [percentLoop, dif_pos (by simp), if_neg (by simp), if_pos hcut]

theorem percentLoop_escape : percentLoop (pre ++ 37 :: high :: low :: rest) pre.length decoded =
    if hexDigits.contains high && hexDigits.contains low then
      percentLoop ((pre ++ [37, high, low]) ++ rest) (pre ++ [37, high, low]).length
        (decoded ++ [UInt8.ofNat (hexInt [high, low])])
    else .error ⟨"invalid percent escape"⟩ := by
  have hlong : ¬ (pre ++ 37 :: high :: low :: rest).length ≤ pre.length + 2 := by
    simp only [List.length_append, List.length_cons]
    omega
  have hdigits : ((pre ++ 37 :: high :: low :: rest).drop (pre.length + 1)).take 2 = [high, low] := by
    rw [List.drop_length_add_append]
    rfl
  have hshift : (pre ++ [37, high, low]) ++ rest = pre ++ 37 :: high :: low :: rest := by simp
  have hlength : (pre ++ [37, high, low]).length = pre.length + 3 := by simp
  rw [percentLoop, dif_pos (by simp), if_neg (by simp), if_neg hlong, hshift, hlength]
  dsimp only
  rw [hdigits, List.any_cons, List.any_cons, List.any_nil, Bool.or_false]
  cases hexDigits.contains high
  · rfl
  · cases hexDigits.contains low <;> rfl

/-- **The loop** computes what the structural decoder computes. -/
theorem percentLoop_eq : ∀ (rest pre decoded : List UInt8),
    (percentLoop (pre ++ rest) pre.length decoded).toOption =
      (strictPercentDecode rest).map (decoded ++ ·)
  | [], pre, decoded => by
    rw [List.append_nil, percentLoop_end, strictPercentDecode]
    simp [Except.toOption]
  | b :: rest, pre, decoded => by
    by_cases hb : b = 37
    · subst hb
      rcases rest with _ | ⟨high, _ | ⟨low, rest⟩⟩
      · rw [percentLoop_cut (by simp)]
        rfl
      · rw [percentLoop_cut (by simp)]
        rfl
      · rw [percentLoop_escape, strictPercentDecode, contains_hexDigits, contains_hexDigits]
        cases hhigh : hexValue high with
        | none => rfl
        | some x =>
          cases hlow : hexValue low with
          | none => rfl
          | some y =>
            have hint : hexInt [high, low] = 16 * x + y := by simp [hexInt, hhigh, hlow]
            rw [Option.isSome_some, Option.isSome_some, Bool.and_self, if_pos rfl, hint,
              percentLoop_eq rest]
            cases strictPercentDecode rest with
            | none => rfl
            | some tail => simp
    · rw [percentLoop_byte hb, percentLoop_eq rest, Client.strictPercentDecode_cons hb,
        Option.map_map]
      congr 1
      funext tail
      simp

theorem toOption_percentDecode : (percentDecode value).toOption = strictPercentDecode value := by
  have hloop := percentLoop_eq value [] []
  rw [List.nil_append] at hloop
  rw [percentDecode, show (0 : ℕ) = ([] : List UInt8).length from rfl, hloop]
  simp

theorem percentDecode_ok : percentDecode value = .ok decoded ↔ Escaped value decoded := by
  rw [← strictPercentDecode_eq_some, ← toOption_percentDecode]
  cases percentDecode value <;> simp [Except.toOption]

end Loop

/-! ### Spellings -/

/-- How one byte may be written: as itself, or as an escape with digits of either case. -/
inductive Spells : UInt8 → List UInt8 → Prop where
  | byte (b : UInt8) (hb : b ≠ 37) : Spells b [b]
  | escape (b high low : UInt8) (x y : ℕ) (hx : hexValue high = some x) (hy : hexValue low = some y)
      (hb : b.toNat = 16 * x + y) : Spells b [37, high, low]

/-- Some `%` is not followed by two hexadecimal digits. -/
def BadEscape (value : List UInt8) : Prop :=
  ∃ pre post, value = pre ++ 37 :: post ∧
    ¬ ∃ high low rest, post = high :: low :: rest ∧ high ∈ hexDigits ∧ low ∈ hexDigits

section Spellings

variable {value decoded : List UInt8}

theorem escaped_of_spell {b : UInt8} {piece : List UInt8} (hb : Spells b piece)
    (h : Escaped value decoded) : Escaped (piece ++ value) (b :: decoded) := by
  cases hb with
  | byte hne => exact .byte b hne h
  | escape high low x y hx hy hvalue =>
    have hbyte : b = UInt8.ofNat (16 * x + y) := by rw [← hvalue, UInt8.ofNat_toNat]
    rw [hbyte]
    exact .escape x y hx hy h

theorem escaped_of_spells {bytes : List UInt8} {pieces : List (List UInt8)}
    (h : List.Forall₂ Spells bytes pieces) : Escaped pieces.flatten bytes := by
  induction h with
  | nil => exact .nil
  | cons hpiece _ ih => exact escaped_of_spell hpiece ih

theorem hexValue_percent : hexValue 37 = none :=
  rfl

/-- In an escaped text, every `%` is that of an escape: its digits are none. -/
theorem Escaped.not_bad (h : Escaped value decoded) : ¬ BadEscape value := by
  rintro ⟨pre, post, hvalue, hbad⟩
  induction h generalizing pre with
  | nil => cases pre <;> cases hvalue
  | @byte encoded decoded b hb h ih =>
    cases pre with
    | nil => exact hb (List.cons.inj hvalue).1
    | cons c pre => exact ih pre (List.cons.inj hvalue).2
  | @escape encoded decoded high low x y hx hy h ih =>
    rcases pre with _ | ⟨c, _ | ⟨c', _ | ⟨c'', pre⟩⟩⟩
    · obtain rfl := (List.cons.inj hvalue).2
      exact hbad ⟨high, low, encoded, rfl, mem_hexDigits.mpr ⟨x, hx⟩, mem_hexDigits.mpr ⟨y, hy⟩⟩
    · obtain ⟨-, rfl, -⟩ : 37 = c ∧ high = 37 ∧ low :: encoded = post := by simpa using hvalue
      rw [hexValue_percent] at hx
      cases hx
    · obtain ⟨-, -, rfl, -⟩ : 37 = c ∧ high = c' ∧ low = 37 ∧ encoded = post := by simpa using hvalue
      rw [hexValue_percent] at hy
      cases hy
    · have hrest : encoded = pre ++ 37 :: post := by
        simp only [List.cons_append, List.cons.injEq] at hvalue
        exact hvalue.2.2.2
      exact ih pre hrest

/-- Without a bad escape, the text is the spelling of some bytes. -/
theorem escaped_of_not_bad : ∀ value, ¬ BadEscape value → ∃ decoded, Escaped value decoded
  | [], _ => ⟨[], .nil⟩
  | b :: rest, h => by
    by_cases hb : b = 37
    · subst hb
      obtain ⟨high, low, rest, rfl, hhigh, hlow⟩ :
          ∃ high low rest', rest = high :: low :: rest' ∧ high ∈ hexDigits ∧ low ∈ hexDigits := by
        by_contra hnone
        exact h ⟨[], rest, rfl, hnone⟩
      obtain ⟨x, hx⟩ := mem_hexDigits.mp hhigh
      obtain ⟨y, hy⟩ := mem_hexDigits.mp hlow
      have hrest : ¬ BadEscape rest := by
        rintro ⟨pre, post, rfl, hbad⟩
        exact h ⟨37 :: high :: low :: pre, post, rfl, hbad⟩
      obtain ⟨decoded, hdecoded⟩ := escaped_of_not_bad rest hrest
      exact ⟨_, .escape x y hx hy hdecoded⟩
    · have hrest : ¬ BadEscape rest := by
        rintro ⟨pre, post, rfl, hbad⟩
        exact h ⟨b :: pre, post, rfl, hbad⟩
      obtain ⟨decoded, hdecoded⟩ := escaped_of_not_bad rest hrest
      exact ⟨_, .byte b hb hdecoded⟩

theorem escaped_iff : (∃ decoded, Escaped value decoded) ↔ ¬ BadEscape value :=
  ⟨fun h => h.elim fun _ hdecoded => hdecoded.not_bad, escaped_of_not_bad value⟩

/-- **Strict percent decoding inverts percent encoding**, and raises exactly on a bad escape. -/
theorem percentDecode_inverts :
    (∀ bytes pieces, List.Forall₂ Spells bytes pieces → percentDecode pieces.flatten = .ok bytes) ∧
      ∀ value, (∃ e, percentDecode value = .error e) ↔ BadEscape value := by
  refine ⟨fun bytes pieces h => percentDecode_ok.mpr (escaped_of_spells h), fun value => ?_⟩
  rw [← not_iff_not, ← escaped_iff, ← exists_congr fun _ => percentDecode_ok]
  cases percentDecode value <;> simp

end Spellings

end Server

end ControlPlaneKit
