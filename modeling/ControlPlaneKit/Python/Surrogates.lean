import ControlPlaneKit.Python.Compact

/-!
# Strings and the scanner

A Python string is any sequence of code points, the surrogates among them. `json.loads` returns
every such string but those with a leading surrogate directly before a trailing one
(`isScanned_iff`); a plus sign for a space changes nothing about that.
-/

namespace ControlPlaneKit

/-- A Python string: its numbers are code points, and it is the text `ofCodes` makes of them. -/
structure Text.Proper (t : Text) : Prop where
  bounded : ∀ n ∈ t.codes, n < 1114112
  ofCodes : Text.ofCodes t.codes = t

namespace Scan

variable {t : Text} {v : Json} {codes : List ℕ}

theorem hasPair_eq_false :
    Text.hasPair codes = false ↔ codes.IsChain fun m n => ¬ (isHigh m ∧ isLow n) := by
  induction codes with
  | nil => simp [Text.hasPair]
  | cons m codes ih =>
    cases codes with
    | nil => simp [Text.hasPair]
    | cons n codes =>
      rw [Text.hasPair, Bool.or_eq_false_iff, ih, List.isChain_cons_cons, Bool.and_eq_false_iff,
        decide_eq_false_iff_not, decide_eq_false_iff_not]
      refine and_congr_left fun _ => ?_
      unfold isHigh isLow
      omega

/-- **What `json.loads` returns** are the strings without a surrogate pair. -/
theorem isScanned_iff : IsScanned t ↔ t.Proper ∧ t.paired = false := by
  constructor
  · rintro ⟨codes, hcodes, rfl⟩
    refine ⟨⟨by simpa using hcodes.bounded, by rw [Text.codes_ofCodes]⟩, ?_⟩
    cases htext : Text.ofCodes codes with
    | utf8 s => rfl
    | surrogate codes' =>
      have hsame : codes' = codes := by
        rw [← Text.codes_ofCodes codes, htext]
        rfl
      rw [Text.paired, hsame]
      exact hasPair_eq_false.mpr hcodes.unpaired
  · rintro ⟨hproper, hpaired⟩
    cases t with
    | utf8 s => exact isScanned_utf8 s
    | surrogate codes =>
      exact ⟨codes, ⟨hproper.bounded, hasPair_eq_false.mp hpaired⟩, hproper.ofCodes.symm⟩

/-- Plus signs for spaces join no surrogates. -/
theorem IsScanned.plus (h : IsScanned t) : IsScanned t.plus := by
  cases t with
  | utf8 s => exact isScanned_utf8 _
  | surrogate codes =>
    obtain ⟨hproper, hpaired⟩ := isScanned_iff.mp h
    have hchain := hasPair_eq_false.mp hpaired
    have hkept : ∀ n, isHigh (if n = 32 then 43 else n) ∨ isLow (if n = 32 then 43 else n) →
        (if n = 32 then 43 else n) = n := by
      intro n hn
      unfold isHigh isLow at hn
      split at hn <;> simp_all
    refine ⟨codes.map fun n => if n = 32 then 43 else n, ⟨?_, ?_⟩, ?_⟩
    · rw [List.forall_mem_map]
      intro n hn
      have := hproper.bounded n hn
      split <;> omega
    · rw [List.isChain_map]
      refine hchain.imp fun m n hunpaired => ?_
      rintro ⟨hm, hn⟩
      rw [hkept m (.inl hm)] at hm
      rw [hkept n (.inr hn)] at hn
      exact hunpaired ⟨hm, hn⟩
    · have hinvalid := hproper.ofCodes
      rw [Text.codes, Text.ofCodes] at hinvalid
      split at hinvalid
      · cases hinvalid
      · next hall =>
        rw [Text.plus, Text.ofCodes, if_neg]
        intro hvalid
        refine hall (List.all_eq_true.mpr fun n hn => ?_)
        have hplus := List.all_eq_true.mp hvalid _ (List.mem_map_of_mem hn)
        by_cases hspace : n = 32
        · subst hspace
          decide
        · rwa [if_neg hspace] at hplus

/-- What is decoded holds no surrogate pair. -/
theorem Decoded.paired (h : Decoded v) : v.paired = false := by
  induction h with
  | str ht => exact (isScanned_iff.mp ht).2
  | arr _ ih =>
    rw [Json.paired_arr, List.any_eq_false]
    exact fun v hv => ne_true_of_eq_false (ih v hv)
  | obj _ hnames _ ih =>
    rw [Json.paired_obj, List.any_eq_false]
    intro m hm
    rw [(isScanned_iff.mp (hnames m hm)).2, ih m hm]
    exact Bool.false_ne_true
  | _ => rfl

end Scan

end ControlPlaneKit
