import Mathlib.Data.List.Basic

/-!
# Form encoding

`urllib.parse.urlencode` over encoded strings: each name and each value is quoted by `quote_plus`,
which leaves the unreserved bytes, writes a plus sign for a space and escapes every other byte, and
the fields are joined by ampersands.
-/

namespace ControlPlaneKit

namespace Url

/-- The bytes that `quote` never escapes: letters, digits and `_.-~`. -/
def isUnreserved (b : UInt8) : Bool :=
  (65 ≤ b.toNat && b.toNat ≤ 90) || (97 ≤ b.toNat && b.toNat ≤ 122) ||
    (48 ≤ b.toNat && b.toNat ≤ 57) || [95, 46, 45, 126].contains b.toNat

/-- The uppercase hexadecimal digit of a number below sixteen. -/
def hexDigit (n : ℕ) : UInt8 :=
  UInt8.ofNat (if n < 10 then 48 + n else 55 + n)

/-- One quoted byte. -/
def quoteByte (b : UInt8) : List UInt8 :=
  if b = 32 then [43]
  else if isUnreserved b then [b]
  else [37, hexDigit (b.toNat / 16), hexDigit (b.toNat % 16)]

/-- `quote_plus`. -/
def quotePlus (bytes : List UInt8) : List UInt8 :=
  bytes.flatMap quoteByte

/-- One field. -/
def field (name value : List UInt8) : List UInt8 :=
  quotePlus name ++ 61 :: quotePlus value

/-- `urlencode`. -/
def urlencode (query : List (List UInt8 × List UInt8)) : List UInt8 :=
  [38].intercalate (query.map fun m => field m.1 m.2)

/-- The bytes of a quoted string: unreserved ones, plus signs and percent signs. -/
theorem mem_quotePlus {bytes : List UInt8} {b : UInt8} (h : b ∈ quotePlus bytes) :
    isUnreserved b = true ∨ b = 43 ∨ b = 37 := by
  have hdigit : ∀ n < 16, isUnreserved (hexDigit n) = true := by decide
  obtain ⟨a, -, hb⟩ := List.mem_flatMap.mp h
  have ha := a.toNat_lt
  unfold quoteByte at hb
  split at hb
  · exact .inr (.inl (List.mem_singleton.mp hb))
  split at hb
  · rename_i hunreserved
    rw [List.mem_singleton.mp hb]
    exact .inl hunreserved
  · simp only [List.mem_cons, List.not_mem_nil, or_false] at hb
    rcases hb with rfl | rfl | rfl
    · exact .inr (.inr rfl)
    · exact .inl (hdigit _ (by omega))
    · exact .inl (hdigit _ (by omega))

/-- The separators of a query are always escaped. -/
theorem separators_notMem (bytes : List UInt8) :
    38 ∉ quotePlus bytes ∧ 61 ∉ quotePlus bytes := by
  constructor
  · intro h
    rcases mem_quotePlus h with h | h | h <;> exact absurd h (by decide)
  · intro h
    rcases mem_quotePlus h with h | h | h <;> exact absurd h (by decide)

theorem ampersand_notMem_field (name value : List UInt8) : 38 ∉ field name value := by
  intro h
  rcases List.mem_append.mp h with h | h
  · exact (separators_notMem name).1 h
  · rcases List.mem_cons.mp h with h | h
    · exact absurd h (by decide)
    · exact (separators_notMem value).1 h

/-- **A query splits into its fields.** -/
theorem splitOn_urlencode {query : List (List UInt8 × List UInt8)} (h : query ≠ []) :
    (urlencode query).splitOn 38 = query.map fun m => field m.1 m.2 := by
  refine List.splitOn_intercalate 38 ?_ ?_
  · rw [List.forall_mem_map]
    exact fun m _ => ampersand_notMem_field m.1 m.2
  · rwa [ne_eq, List.map_eq_nil_iff]

theorem urlencode_ne_nil (m : List UInt8 × List UInt8) (ms : List (List UInt8 × List UInt8)) :
    urlencode (m :: ms) ≠ [] := by
  intro hempty
  have hsplit := splitOn_urlencode (List.cons_ne_nil m ms)
  rw [hempty, List.map_cons] at hsplit
  have hfield : [] = field m.1 m.2 := (List.cons.inj hsplit).1
  exact absurd hfield.symm (List.append_ne_nil_of_right_ne_nil _ (List.cons_ne_nil _ _))

/-- **A field splits at its first equals sign.** -/
theorem takeWhile_field (name value : List UInt8) :
    (field name value).takeWhile (· != 61) = quotePlus name := by
  rw [field, List.takeWhile_append_of_pos]
  · rw [List.takeWhile_cons_of_neg (by decide), List.append_nil]
  · intro b hb
    rw [bne_iff_ne]
    rintro rfl
    exact (separators_notMem name).2 hb

theorem dropWhile_field (name value : List UInt8) :
    ((field name value).dropWhile (· != 61)).tail = quotePlus value := by
  rw [field, List.dropWhile_append_of_pos]
  · rw [List.dropWhile_cons_of_neg (by decide), List.tail_cons]
  · intro b hb
    rw [bne_iff_ne]
    rintro rfl
    exact (separators_notMem name).2 hb

end Url

end ControlPlaneKit
