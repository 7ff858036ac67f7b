import Mathlib.Data.List.Infix
import ControlPlaneKit.Python.Encode
import ControlPlaneKit.Python.Strip

/-!
# Strings and their code points

The string with given code points, `int` of a string, and the lower case of a string as far as its
ASCII characters go.
-/

namespace ControlPlaneKit

/-- The string with these code points. -/
def Text.ofCodes (codes : List ℕ) : Text :=
  if codes.all fun n => decide (n.isValidChar) then .utf8 (String.ofList (codes.map Char.ofNat))
  else .surrogate codes

@[simp]
theorem Text.codes_ofCodes (codes : List ℕ) : (Text.ofCodes codes).codes = codes := by
  unfold Text.ofCodes
  split
  next h =>
    rw [Text.codes, String.toList_ofList, List.map_map]
    refine (List.map_congr_left fun n hn => ?_).trans (List.map_id codes)
    have hvalid : n.isValidChar := by simpa using List.all_eq_true.mp h n hn
    rw [Function.comp_apply, Char.ofNat, dif_pos hvalid]
    rfl
  next => rfl

/-- The code points of a character string. -/
def codesOf (s : String) : List ℕ :=
  s.toList.map Char.toNat

/-- `re.fullmatch` of one character of a first class and at most so many of a second one. -/
def isBounded (first later : Char → Bool) (limit : ℕ) : List Char → Bool
  | [] => false
  | c :: rest => first c && rest.all later && decide (rest.length ≤ limit)

section Int

variable (digit : ℕ → Option ℕ)

/-- The value of digits with single underscores between them; `digit` is the value of one. -/
def digitsValue (codes : List ℕ) : Option ℤ :=
  if 4300 < (codes.filter (· != 95)).length then none
  else
    (codes.splitOn 95).foldlM (fun value group => if group = [] then none else
      group.foldlM (fun value n => (digit n).map fun d => value * 10 + (d : ℤ)) value) 0

/-- `int(value)` for a string; `none` where it raises `ValueError`. -/
def intOfText (t : Text) : Option ℤ :=
  match Strip.strip t.codes with
  | 43 :: digits => digitsValue digit digits
  | 45 :: digits => (digitsValue digit digits).map (-·)
  | digits => digitsValue digit digits

end Int

namespace Lower

/-- `character.lower()`: a character beyond ASCII that is left alone here has a lower case without
ASCII characters. -/
def lower (n : ℕ) : List ℕ :=
  if 65 ≤ n ∧ n ≤ 90 then [n + 32]
  else if n = 0x212A then [107]
  else if n = 0x130 then [105, 0x307]
  else [n]

/-- `any(marker in value.lower() for marker in markers)`, for ASCII markers. -/
def mentions (markers : List String) (codes : List ℕ) : Bool :=
  markers.any fun marker => decide (codesOf marker <:+: codes.flatMap lower)

/-- A part of a string mentions no more than the string. -/
theorem mentions_of_part {markers : List String} {a b : List ℕ} (hab : a <:+: b)
    (h : mentions markers a = true) : mentions markers b = true := by
  obtain ⟨marker, hmem, hmarker⟩ := List.any_eq_true.mp h
  obtain ⟨s, t, rfl⟩ := hab
  refine List.any_eq_true.mpr ⟨marker, hmem, ?_⟩
  rw [decide_eq_true_eq] at hmarker ⊢
  refine hmarker.trans ⟨s.flatMap lower, t.flatMap lower, ?_⟩
  rw [List.flatMap_append, List.flatMap_append]

end Lower

end ControlPlaneKit
