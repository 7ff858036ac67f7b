import ControlPlaneKit.Python.Hooks

/-!
# Compact JSON read back

`json.loads` of what `json.dumps` writes without indentation is the value that was written, for any
hooks that keep the members of an object. Of a number the scanner sees where it ends by what follows
it, so the statement is about a text before anything that cannot continue a number.
-/

namespace ControlPlaneKit

namespace Scan

section Stops

variable {cs rest w r first : List Char}

/-- No number goes on here. -/
def Stops (rest : List Char) : Prop :=
  ∀ c ∈ rest.head?, isDigit c = false ∧ c ∉ ['.', 'e', 'E', '+', '-']

theorem stops_nil : Stops [] := by
  simp [Stops]

theorem stops_cons {c : Char} (hdigit : isDigit c = false)
    (hc : c ∉ ['.', 'e', 'E', '+', '-']) : Stops (c :: rest) := by
  intro d hd
  obtain rfl := Option.some.inj hd
  exact ⟨hdigit, hc⟩

/-- The digits of a text end with it. -/
theorem digits_append (hrest : Stops rest) :
    (cs ++ rest).takeWhile isDigit = cs.takeWhile isDigit ∧
      (cs ++ rest).dropWhile isDigit = cs.dropWhile isDigit ++ rest := by
  induction cs with
  | nil =>
    cases rest with
    | nil => exact ⟨rfl, rfl⟩
    | cons c rest =>
      have hdigit := (hrest c rfl).1
      simp [hdigit]
  | cons c cs ih =>
    by_cases hdigit : isDigit c = true
    · simp [hdigit, ih]
    · simp [hdigit]

theorem scanDigits_append (hrest : Stops rest) : scanDigits first (cs ++ rest) =
    (scanDigits first cs).map fun r => (r.1, r.2 ++ rest) := by
  unfold scanDigits
  rw [(digits_append hrest).1, (digits_append hrest).2]
  split <;> rfl

theorem scanWhole_append (hrest : Stops rest) (h : scanWhole cs = some (w, r)) :
    scanWhole (cs ++ rest) = some (w, r ++ rest) := by
  cases cs with
  | nil => cases h
  | cons c cs =>
    by_cases hzero : c = '0'
    · subst hzero
      obtain ⟨rfl, rfl⟩ := Prod.mk.inj (Option.some.inj h)
      rfl
    · have hwhole : ∀ cs, scanWhole (c :: cs) =
          if isDigit c then some ((c :: cs).span isDigit) else none := fun cs => by
        rw [scanWhole]
        exact hzero
      rw [hwhole] at h
      rw [List.cons_append, hwhole]
      split at h
      · next hdigit =>
        have hspan : (c :: cs ++ rest).takeWhile isDigit = (c :: cs).takeWhile isDigit ∧
            (c :: cs ++ rest).dropWhile isDigit = (c :: cs).dropWhile isDigit ++ rest :=
          digits_append hrest
        rw [List.span_eq_takeWhile_dropWhile, Option.some.injEq, Prod.mk.injEq] at h
        rw [if_pos hdigit, List.span_eq_takeWhile_dropWhile, ← List.cons_append, hspan.1, hspan.2,
          h.1, h.2]
      · cases h

theorem scanFraction_append (hrest : Stops rest) : scanFraction (cs ++ rest) =
    (scanFraction cs).map fun r => (r.1, r.2 ++ rest) := by
  have hother : ∀ c cs, c ≠ '.' → scanFraction (c :: cs) = none := by
    intro c cs hc
    rw [scanFraction]
    rintro cs' heq
    exact hc (List.cons.inj heq).1
  cases cs with
  | nil =>
    cases rest with
    | nil => rfl
    | cons c rest =>
      have hc := (hrest c rfl).2
      exact hother c rest fun heq => hc (by simp [heq])
  | cons c cs =>
    by_cases hpoint : c = '.'
    · subst hpoint
      exact scanDigits_append hrest
    · rw [List.cons_append, hother c _ hpoint, hother c _ hpoint]
      rfl

/-- Without its letter there is no exponent. -/
theorem scanExponent_none (h : ∀ c ∈ cs.head?, c ≠ 'e' ∧ c ≠ 'E') : scanExponent cs = none := by
  unfold scanExponent
  split
  · next e _ => exact if_neg (not_or.mpr (h e rfl))
  · next e _ => exact if_neg (not_or.mpr (h e rfl))
  · next e _ _ _ => exact if_neg (not_or.mpr (h e rfl))
  · rfl

theorem scanExponent_append (hrest : Stops rest) : scanExponent (cs ++ rest) =
    (scanExponent cs).map fun r => (r.1, r.2 ++ rest) := by
  have hplain : ∀ e cs, (∀ c ∈ cs.head?, c ≠ '+' ∧ c ≠ '-') → scanExponent (e :: cs) =
      if e = 'e' ∨ e = 'E' then scanDigits [e] cs else none := by
    intro e cs hcs
    rw [scanExponent]
    · rintro cs' rfl
      exact (hcs '+' rfl).1 rfl
    · rintro cs' rfl
      exact (hcs '-' rfl).2 rfl
  cases cs with
  | nil =>
    refine scanExponent_none fun c hc => ?_
    have hletters := (hrest c hc).2
    exact ⟨fun heq => hletters (by simp [heq]), fun heq => hletters (by simp [heq])⟩
  | cons e cs =>
    by_cases hplus : cs.head? = some '+'
    · obtain ⟨cs, rfl⟩ := List.head?_eq_some_iff.mp hplus
      simp only [List.cons_append, scanExponent, scanDigits_append hrest]
      split <;> rfl
    by_cases hminus : cs.head? = some '-'
    · obtain ⟨cs, rfl⟩ := List.head?_eq_some_iff.mp hminus
      simp only [List.cons_append, scanExponent, scanDigits_append hrest]
      split <;> rfl
    have hsign : ∀ c ∈ cs.head?, c ≠ '+' ∧ c ≠ '-' := by
      intro c hc
      exact ⟨fun heq => hplus (heq ▸ hc), fun heq => hminus (heq ▸ hc)⟩
    have hsign' : ∀ c ∈ (cs ++ rest).head?, c ≠ '+' ∧ c ≠ '-' := by
      cases cs with
      | nil =>
        intro c hc
        have hletters := (hrest c hc).2
        exact ⟨fun heq => hletters (by simp [heq]), fun heq => hletters (by simp [heq])⟩
      | cons c cs => exact hsign
    rw [List.cons_append, hplain e cs hsign, hplain e _ hsign', scanDigits_append hrest]
    split <;> rfl

end Stops

end Scan

namespace Json

variable {floatText : ℚ → List Char} {v : Json} {raw : List Char}

/-- What the encoder writes is the text of the sorted value. -/
theorem eq_text_of_encode (h : encode floatText v = some raw) : raw = text floatText v.sorted := by
  rw [encode_eq_dumps (isFinite_of_encode (by rw [h]; rfl))] at h
  exact (Option.some.inj h).symm

end Json

namespace Hooks

open Scan

section Numbers

variable {h : Hooks} {depth : ℕ} {v : Json} {cs rest r : List Char}

theorem scanUnsigned_append {negative : Bool} (hrest : Stops rest)
    (hv : h.scanUnsigned negative cs = .ok (v, r)) :
    h.scanUnsigned negative (cs ++ rest) = .ok (v, r ++ rest) := by
  unfold scanUnsigned at hv ⊢
  split at hv
  · cases hv
  · next whole cs' hwhole =>
    have hfraction : ((scanFraction (cs' ++ rest)).getD ([], cs' ++ rest)) =
        (((scanFraction cs').getD ([], cs')).1, ((scanFraction cs').getD ([], cs')).2 ++ rest) := by
      rw [scanFraction_append hrest]
      cases scanFraction cs' <;> rfl
    dsimp only at hv
    generalize (scanFraction cs').getD ([], cs') = fraction at hv hfraction
    have hexponent : ((scanExponent (fraction.2 ++ rest)).getD ([], fraction.2 ++ rest)) =
        (((scanExponent fraction.2).getD ([], fraction.2)).1,
          ((scanExponent fraction.2).getD ([], fraction.2)).2 ++ rest) := by
      rw [scanExponent_append hrest]
      cases scanExponent fraction.2 <;> rfl
    simp only [scanWhole_append hrest hwhole, hfraction, hexponent]
    generalize (scanExponent fraction.2).getD ([], fraction.2) = exponent at hv
    split at hv
    · next hinteger =>
      rw [if_pos hinteger]
      split at hv
      · cases hv
      · next hshort =>
        rw [if_neg hshort]
        cases hv
        rfl
    · next hfloat =>
      rw [if_neg hfloat]
      obtain ⟨w, hw, heq⟩ := map_eq_ok hv
      obtain ⟨rfl, rfl⟩ := Prod.mk.inj heq
      rw [hw]
      rfl

/-- **A number is read as it would be alone**, where nothing goes on with it. -/
theorem scanNumber_append (hrest : Stops rest) (hv : h.scanNumber cs = .ok (v, r)) :
    h.scanNumber (cs ++ rest) = .ok (v, r ++ rest) := by
  cases cs with
  | nil => cases hv
  | cons c cs =>
    by_cases hsign : c = '-'
    · subst hsign
      exact scanUnsigned_append hrest hv
    · have hplus : ∀ cs, h.scanNumber (c :: cs) = h.scanUnsigned false (c :: cs) := by
        intro cs
        rw [scanNumber]
        rintro cs' heq
        exact hsign (List.cons.inj heq).1
      rw [hplus] at hv
      rw [List.cons_append, hplus]
      exact scanUnsigned_append hrest hv

/-- The first character of a number. -/
theorem scanNumber_head (hv : h.scanNumber cs = .ok (v, r)) :
    ∃ c cs', cs = c :: cs' ∧ (isDigit c = true ∨ c = '-' ∧ ∃ d cs'', cs' = d :: cs'' ∧
      isDigit d = true) := by
  have hwhole : ∀ {negative : Bool} {cs : List Char}, h.scanUnsigned negative cs = .ok (v, r) →
      ∃ c cs', cs = c :: cs' ∧ isDigit c = true := by
    intro negative cs hv
    unfold scanUnsigned at hv
    split at hv
    · cases hv
    · next hwhole =>
      unfold scanWhole at hwhole
      split at hwhole
      · exact ⟨_, _, rfl, rfl⟩
      · next c cs _ =>
        split at hwhole
        · next hdigit => exact ⟨c, cs, rfl, hdigit⟩
        · cases hwhole
      · cases hwhole
  unfold scanNumber at hv
  split at hv
  · obtain ⟨c, cs', rfl, hdigit⟩ := hwhole hv
    exact ⟨'-', _, rfl, .inr ⟨rfl, c, cs', rfl, hdigit⟩⟩
  · obtain ⟨c, cs', rfl, hdigit⟩ := hwhole hv
    exact ⟨c, cs', rfl, .inl hdigit⟩

/-- A number is neither a container nor a constant. -/
theorem scanOnce_number (hrest : Stops rest) (hv : h.scanNumber cs = .ok (v, [])) :
    h.scanOnce depth (cs ++ rest) = .ok (v, rest) := by
  have hboth := scanNumber_append hrest hv
  obtain ⟨c, cs', rfl, hc⟩ := scanNumber_head hv
  have hnot : ∀ d, isDigit d = false → d ≠ '-' → c ≠ d := by
    rintro d hd hminus rfl
    rcases hc with hc | ⟨hc, -⟩
    · rw [hd] at hc
      cases hc
    · exact hminus hc
  have hconstant : Scan.scanConstant (c :: cs' ++ rest) = none := by
    unfold Scan.scanConstant
    split
    · next heq => exact absurd (List.cons.inj heq).1 (hnot 'n' (by decide) (by decide))
    · next heq => exact absurd (List.cons.inj heq).1 (hnot 't' (by decide) (by decide))
    · next heq => exact absurd (List.cons.inj heq).1 (hnot 'f' (by decide) (by decide))
    · next heq => exact absurd (List.cons.inj heq).1 (hnot 'N' (by decide) (by decide))
    · next heq => exact absurd (List.cons.inj heq).1 (hnot 'I' (by decide) (by decide))
    · next heq =>
      -- after the sign there is a digit
      rcases hc with hc | ⟨-, d, cs'', rfl, hd⟩
      · rw [(List.cons.inj heq).1] at hc
        cases hc
      · rw [(List.cons.inj (List.cons.inj heq).2).1] at hd
        cases hd
    · rfl
  rw [scanOnce.eq_def]
  split
  · next heq => exact absurd (List.cons.inj heq).1 (hnot '"' (by decide) (by decide))
  · next heq => exact absurd (List.cons.inj heq).1 (hnot '[' (by decide) (by decide))
  · next heq => exact absurd (List.cons.inj heq).1 (hnot '\x7b' (by decide) (by decide))
  · rw [scanConstant, hconstant]
    exact hboth

/-! ### Integers -/

theorem isDigit_toDigits (n : ℕ) : ∀ c ∈ Nat.toDigits 10 n, isDigit c = true := by
  have hdigit : ∀ m < 10, isDigit (Nat.digitChar m) = true := by decide
  induction n using Nat.strongRecOn with
  | ind n ih =>
    by_cases hsmall : n < 10
    · rw [Nat.toDigits_of_lt_base hsmall]
      exact List.forall_mem_singleton.mpr (hdigit n hsmall)
    · rw [Nat.toDigits_of_base_le (by omega) (by omega), List.forall_mem_append]
      exact ⟨ih (n / 10) (by omega),
        List.forall_mem_singleton.mpr (hdigit (n % 10) (Nat.mod_lt n (by omega)))⟩

/-- A number is written without leading zeros. -/
theorem head_toDigits {n : ℕ} (hn : n ≠ 0) : (Nat.toDigits 10 n).head? ≠ some '0' := by
  have hdigit : ∀ m < 10, m ≠ 0 → [Nat.digitChar m].head? ≠ some '0' := by decide
  induction n using Nat.strongRecOn with
  | ind n ih =>
    by_cases hsmall : n < 10
    · rw [Nat.toDigits_of_lt_base hsmall]
      exact hdigit n hsmall hn
    · have hhigh := ih (n / 10) (by omega) (by omega)
      rw [Nat.toDigits_of_base_le (by omega) (by omega)]
      cases hdigits : Nat.toDigits 10 (n / 10) with
      | nil => exact absurd hdigits Nat.toDigits_ne_nil
      | cons c cs =>
        rw [hdigits] at hhigh
        exact hhigh

theorem scanWhole_toDigits (n : ℕ) :
    scanWhole (Nat.toDigits 10 n) = some (Nat.toDigits 10 n, []) := by
  by_cases hn : n = 0
  · subst hn
    rfl
  have hall := isDigit_toDigits n
  have hhead := head_toDigits hn
  cases hdigits : Nat.toDigits 10 n with
  | nil => exact absurd hdigits Nat.toDigits_ne_nil
  | cons c cs =>
    rw [hdigits] at hall hhead
    have hspan : (c :: cs).span isDigit = (c :: cs, []) := by
      rw [List.span_eq_takeWhile_dropWhile, List.takeWhile_eq_self_iff.mpr hall,
        List.dropWhile_eq_nil_iff.mpr hall]
    rw [scanWhole, if_pos (hall c List.mem_cons_self), hspan]
    rintro rfl
    exact hhead rfl

/-- The value of decimal digits. -/
theorem foldl_toDigits (n : ℕ) : (Nat.toDigits 10 n).foldl
    (fun m c => 10 * m + ((c.toNat : ℤ) - 48)) 0 = (n : ℤ) := by
  have hdigit : ∀ m < 10, ((Nat.digitChar m).toNat : ℤ) - 48 = m := by decide
  induction n using Nat.strongRecOn with
  | ind n ih =>
    by_cases hsmall : n < 10
    · rw [Nat.toDigits_of_lt_base hsmall, List.foldl_cons, List.foldl_nil, hdigit n hsmall]
      omega
    · rw [Nat.toDigits_of_base_le (by omega) (by omega), List.foldl_append, ih (n / 10) (by omega),
        List.foldl_cons, List.foldl_nil, hdigit (n % 10) (Nat.mod_lt n (by omega))]
      omega

theorem scanUnsigned_toDigits {negative : Bool} {n : ℕ}
    (hn : (Nat.toDigits 10 n).length ≤ 4300) : h.scanUnsigned negative (Nat.toDigits 10 n) =
      .ok (.int (if negative then -(n : ℤ) else n), []) := by
  unfold scanUnsigned
  rw [scanWhole_toDigits]
  simp only [scanFraction, scanExponent, Option.getD_none, and_self, if_true, foldl_toDigits]
  rw [if_neg (by omega)]

/-- An integer is read back from its text. -/
theorem scanNumber_int {n : ℤ} (hn : (Nat.toDigits 10 n.natAbs).length ≤ 4300) :
    h.scanNumber (toString n).toList = .ok (.int n, []) := by
  rw [Int.toString_eq_repr, Int.repr_eq_if]
  split
  · next hpositive =>
    have hall := isDigit_toDigits n.toNat
    have habs : n.natAbs = n.toNat := by omega
    rw [Nat.toList_repr]
    have hunsigned : h.scanNumber (Nat.toDigits 10 n.toNat) =
        h.scanUnsigned false (Nat.toDigits 10 n.toNat) := by
      rw [scanNumber]
      rintro cs heq
      rw [heq] at hall
      exact absurd (hall '-' List.mem_cons_self) (by decide)
    rw [hunsigned, scanUnsigned_toDigits (habs ▸ hn), if_neg Bool.false_ne_true,
      Int.toNat_of_nonneg hpositive]
  · next hnegative =>
    have habs : n.natAbs = (-n).toNat := by omega
    have hvalue : -((-n).toNat : ℤ) = n := by omega
    rw [String.toList_append, Nat.toList_repr]
    refine (scanUnsigned_toDigits (habs ▸ hn)).trans ?_
    rw [if_pos rfl, hvalue]

end Numbers

/-! ### Values -/

variable (h : Hooks) (floatText : ℚ → List Char)

/-- Such members of an object are kept. -/
def Keeps (kept : Fields → Prop) : Prop :=
  ∀ members : Fields, kept members → h.object members = .ok (.obj members)

/-- The text of a float is read back. -/
def ReadsFloat : Float64 → Prop
  | .finite q => h.scanNumber (floatText q) = .ok (.float (.finite q), [])
  | x => h.constant x = .ok (.float x)

/-- A value that is read back from its text, nested at most so deep: integers of at most as many
digits as the interpreter converts, floats that are read back, strings such as the scanner returns,
and objects whose members are of a kind. -/
inductive Readable (kept : Fields → Prop) : ℕ → Json → Prop where
  | null {depth : ℕ} : Readable kept depth .null
  | bool {depth : ℕ} (b : Bool) : Readable kept depth (.bool b)
  | int {depth : ℕ} {n : ℤ} (hn : (Nat.toDigits 10 n.natAbs).length ≤ 4300) :
      Readable kept depth (.int n)
  | float {depth : ℕ} {x : Float64} (hx : h.ReadsFloat floatText x) : Readable kept depth (.float x)
  | str {depth : ℕ} {t : Text} (ht : IsScanned t) : Readable kept depth (.str t)
  | arr {depth : ℕ} {items : List Json} (hitems : ∀ v ∈ items, Readable kept depth v) :
      Readable kept (depth + 1) (.arr items)
  | obj {depth : ℕ} {members : Fields} (hkept : kept members)
      (hnames : ∀ m ∈ members, IsScanned m.1) (hvalues : ∀ m ∈ members, Readable kept depth m.2) :
      Readable kept (depth + 1) (.obj members)

/-- No member comes twice. -/
abbrev Distinct (members : Fields) : Prop :=
  (members.map (·.1)).Nodup

/-- Such a value, with no member twice. -/
abbrev Legible : ℕ → Json → Prop :=
  h.Readable floatText Distinct

variable {h floatText}

theorem keeps_plain (ip : Interpreter) : (plain ip).Keeps Distinct := by
  intro members hkeys
  have hfold : ∀ (members found : Fields), ((found ++ members).map (·.1)).Nodup →
      members.foldl (fun found m => store found m.1 m.2) found = found ++ members := by
    intro members
    induction members with
    | nil => exact fun found _ => (List.append_nil found).symm
    | cons m members ih =>
      intro found hkeys
      have hnew : m.1 ∉ found.map (·.1) := by
        rw [List.map_append, List.nodup_append'] at hkeys
        exact fun hmem => hkeys.2.2 hmem List.mem_cons_self
      rw [List.foldl_cons, store_new hnew, ih _ (by simpa using hkeys), List.append_assoc]
      rfl
  exact congrArg (fun found => Except.ok (Json.obj found)) (hfold members [] hkeys)

theorem keeps_unique (ip : Interpreter) : (unique ip).Keeps Distinct :=
  fun _ hkeys => if_pos hkeys

section Readable

variable {kept : Fields → Prop} {depth rounds : ℕ} {v x : Json} {items : List Json}
  {members : Fields} {key : Text} {rest : List Char}

/-- The text starts with a character that is neither blank nor a closing bracket. -/
theorem Readable.starts (hv : h.Readable floatText kept depth v) :
    ∃ c cs, Json.text floatText v = c :: cs ∧
      isBlank c = false ∧ c ≠ ']' ∧ c ≠ '\x7d' ∧ c ≠ Char.ofNat 65279 := by
  have hnumber : ∀ {cs : List Char} {v : Json}, h.scanNumber cs = .ok (v, []) →
      ∃ c cs', cs = c :: cs' ∧
        isBlank c = false ∧ c ≠ ']' ∧ c ≠ '\x7d' ∧ c ≠ Char.ofNat 65279 := by
    intro cs v hv
    obtain ⟨c, cs', rfl, hc⟩ := scanNumber_head hv
    refine ⟨c, cs', rfl, ?_⟩
    have hnot : ∀ d, isDigit d = false → d ≠ '-' → c ≠ d := by
      rintro d hd hminus rfl
      rcases hc with hc | ⟨hc, -⟩
      · rw [hd] at hc
        cases hc
      · exact hminus hc
    refine ⟨?_, hnot _ (by decide) (by decide), hnot _ (by decide) (by decide),
      hnot _ (by decide) (by decide)⟩
    simp [isBlank, hnot ' ' (by decide) (by decide), hnot '\t' (by decide) (by decide),
      hnot '\n' (by decide) (by decide), hnot '\r' (by decide) (by decide)]
  cases hv with
  | null => exact ⟨'n', _, rfl, by decide⟩
  | bool b =>
    cases b
    · exact ⟨'f', _, rfl, by decide⟩
    · exact ⟨'t', _, rfl, by decide⟩
  | int hn => exact hnumber (scanNumber_int hn)
  | @float _ x hx =>
    cases x with
    | finite q => exact hnumber hx
    | infinite negative =>
      cases negative
      · exact ⟨'I', _, rfl, by decide⟩
      · exact ⟨'-', _, rfl, by decide⟩
    | nan => exact ⟨'N', _, rfl, by decide⟩
  | str ht => exact ⟨'"', _, rfl, by decide⟩
  | arr hitems => exact ⟨'[', _, Json.text_arr _, by decide⟩
  | obj hkept hnames hvalues => exact ⟨'\x7b', _, Json.text_obj _, by decide⟩

theorem Readable.skipBlank_text (hv : h.Readable floatText kept depth v) :
    skipBlank (Json.text floatText v ++ rest) = Json.text floatText v ++ rest := by
  obtain ⟨c, cs, heq, hblank, -⟩ := hv.starts
  rw [heq, List.cons_append, skipBlank_cons hblank]

theorem stops_comma : Stops (',' :: rest) :=
  stops_cons (by decide) (by decide)

/-- The loop over the items reads a list. -/
theorem scanItems_text {scan : List Char → Except LoadsError (Json × List Char)}
    (hscan : ∀ v ∈ x :: items, ∀ rest, Stops rest →
      scan (Json.text floatText v ++ rest) = .ok (v, rest))
    (hitems : ∀ v ∈ items, h.Readable floatText kept depth v) (hrounds : items.length < rounds) :
    scanItems scan rounds (Json.joined ((x :: items).map (Json.text floatText)) ++ ']' :: rest) =
      .ok (x :: items, rest) := by
  induction items generalizing x rounds with
  | nil =>
    obtain ⟨rounds, rfl⟩ := Nat.exists_eq_add_of_lt hrounds
    exact scanItems_last (hscan x List.mem_cons_self _ (stops_cons (by decide) (by decide)))
      (skipBlank_cons (by decide))
  | cons y items ih =>
    obtain ⟨rounds, rfl⟩ := Nat.exists_eq_add_of_lt hrounds
    rw [List.forall_mem_cons] at hscan hitems
    have htail : Json.joined ((y :: items).map (Json.text floatText)) ++ ']' :: rest =
        Json.text floatText y ++
          (Json.joined ([] :: items.map (Json.text floatText)) ++ ']' :: rest) := by
      cases items <;> simp [Json.joined]
    have hblank : skipBlank (Json.joined ((y :: items).map (Json.text floatText)) ++ ']' :: rest) =
        Json.joined ((y :: items).map (Json.text floatText)) ++ ']' :: rest := by
      rw [htail, hitems.1.skipBlank_text]
    rw [List.map_cons, List.map_cons, Json.joined, List.append_assoc, List.cons_append,
      scanItems_more (hscan.1 _ stops_comma) (skipBlank_cons (by decide)), ← List.map_cons, hblank,
      ih hscan.2 hitems.2 (by simp; omega)]
    rfl

/-! ### Members read back -/

theorem scanPairs_last {scan : List Char → Except LoadsError (Json × List Char)}
    {cs cs₁ cs₂ cs₃ cs₄ : List Char} (hkey : scanText cs = .ok (key, cs₁))
    (hcolon : skipBlank cs₁ = ':' :: cs₂) (hv : scan (skipBlank cs₂) = .ok (v, cs₃))
    (hend : skipBlank cs₃ = '\x7d' :: cs₄) :
    scanPairs scan (rounds + 1) ('"' :: cs) = .ok ([(key, v)], cs₄) := by
  simp only [scanPairs, hkey, hcolon, hv, hend]

theorem scanPairs_more {scan : List Char → Except LoadsError (Json × List Char)}
    {cs cs₁ cs₂ cs₃ cs₄ : List Char} (hkey : scanText cs = .ok (key, cs₁))
    (hcolon : skipBlank cs₁ = ':' :: cs₂) (hv : scan (skipBlank cs₂) = .ok (v, cs₃))
    (hmore : skipBlank cs₃ = ',' :: cs₄) : scanPairs scan (rounds + 1) ('"' :: cs) =
      (scanPairs scan rounds (skipBlank cs₄)).map fun r => ((key, v) :: r.1, r.2) := by
  simp only [scanPairs, hkey, hcolon, hv, hmore]

/-- The text of a member. -/
def memberText (floatText : ℚ → List Char) (m : Text × Json) : List Char :=
  Json.encodeText m.1 ++ ':' :: Json.text floatText m.2

theorem memberText_append (m : Text × Json) (tail : List Char) :
    memberText floatText m ++ tail = '"' :: (m.1.codes.flatMap Json.escapeCode ++
      '"' :: (':' :: (Json.text floatText m.2 ++ tail))) := by
  simp [memberText, Json.encodeText]

/-- The loop over the members reads an object. -/
theorem scanPairs_text {scan : List Char → Except LoadsError (Json × List Char)} {m : Text × Json}
    (hscan : ∀ m' ∈ m :: members, ∀ rest, Stops rest →
      scan (Json.text floatText m'.2 ++ rest) = .ok (m'.2, rest))
    (hnames : ∀ m' ∈ m :: members, IsScanned m'.1)
    (hvalues : ∀ m' ∈ m :: members, h.Readable floatText kept depth m'.2)
    (hrounds : members.length < rounds) :
    scanPairs scan rounds (Json.joined ((m :: members).map (memberText floatText)) ++
      '\x7d' :: rest) = .ok (m :: members, rest) := by
  have hcolon : ∀ cs, skipBlank (':' :: cs) = ':' :: cs := fun cs => skipBlank_cons (by decide)
  have hvalue : ∀ {m : Text × Json} {tail : List Char}, h.Readable floatText kept depth m.2 →
      Stops tail → (∀ rest, Stops rest → scan (Json.text floatText m.2 ++ rest) = .ok (m.2, rest)) →
      scan (skipBlank (Json.text floatText m.2 ++ tail)) = .ok (m.2, tail) := by
    intro m tail hm htail hscan
    rw [hm.skipBlank_text, hscan _ htail]
  induction members generalizing m rounds with
  | nil =>
    obtain ⟨rounds, rfl⟩ := Nat.exists_eq_add_of_lt hrounds
    rw [List.forall_mem_singleton] at hscan hnames hvalues
    have htext : Json.joined ([m].map (memberText floatText)) = memberText floatText m := rfl
    rw [htext, memberText_append]
    exact scanPairs_last (scanText_encoded hnames) (hcolon _)
      (hvalue hvalues (stops_cons (by decide) (by decide)) hscan) (skipBlank_cons (by decide))
  | cons m' members ih =>
    obtain ⟨rounds, rfl⟩ := Nat.exists_eq_add_of_lt hrounds
    rw [List.forall_mem_cons] at hscan hnames hvalues
    obtain ⟨tail, htail⟩ : ∃ tail, Json.joined ((m' :: members).map (memberText floatText)) ++
        '\x7d' :: rest = '"' :: tail := by
      cases members <;> exact ⟨_, rfl⟩
    have hblank : skipBlank (Json.joined ((m' :: members).map (memberText floatText)) ++
        '\x7d' :: rest) =
          Json.joined ((m' :: members).map (memberText floatText)) ++ '\x7d' :: rest := by
      rw [htail, skipBlank_cons (by decide)]
    rw [List.map_cons, List.map_cons, Json.joined, List.append_assoc, List.cons_append,
      memberText_append, scanPairs_more (scanText_encoded hnames.1) (hcolon _)
        (hvalue hvalues.1 stops_comma hscan.1) (skipBlank_cons (by decide)), ← List.map_cons,
      hblank, ih hscan.2 hnames.2 hvalues.2 (by simp; omega)]
    rfl

/-! ### Containers -/

theorem scanOnce_items {c : Char} {cs : List Char} (hstart : skipBlank (c :: cs) = c :: cs)
    (hc : c ≠ ']') : h.scanOnce (depth + 1) ('[' :: c :: cs) =
      (scanItems (h.scanOnce depth) (c :: cs).length (c :: cs)).map fun r => (.arr r.1, r.2) := by
  rw [scanOnce.eq_def]
  simp only [hstart]
  split
  · next heq => exact absurd (List.cons.inj heq).1 hc
  · rfl

theorem scanOnce_members {c : Char} {cs : List Char} (hstart : skipBlank (c :: cs) = c :: cs)
    (hc : c ≠ '\x7d') : h.scanOnce (depth + 1) ('\x7b' :: c :: cs) =
      (scanPairs (h.scanOnce depth) (c :: cs).length (c :: cs)).bind h.object? := by
  rw [scanOnce.eq_def]
  simp only [hstart]
  split
  · next heq => exact absurd (List.cons.inj heq).1 hc
  · rfl

/-- There are as many commas as parts but one. -/
theorem length_le_joined (part : List Char) (parts : List (List Char)) :
    parts.length ≤ (Json.joined (part :: parts)).length := by
  induction parts generalizing part with
  | nil => exact Nat.zero_le _
  | cons part' parts ih =>
    have hrest := ih part'
    simp only [Json.joined, List.length_append, List.length_cons]
    omega

theorem text_obj_eq (members : Fields) : Json.text floatText (.obj members) =
    '\x7b' :: (Json.joined (members.map (memberText floatText)) ++ ['\x7d']) :=
  Json.text_obj members

/-- **A value is read back from its text**, whatever follows but the rest of a number. -/
theorem scanOnce_text (hkeeps : h.Keeps kept) (hv : h.Readable floatText kept depth v)
    (hrest : Stops rest) :
    h.scanOnce depth (Json.text floatText v ++ rest) = .ok (v, rest) := by
  -- what starts no string, list or object is left to the constants and the numbers
  have hscalar : ∀ {cs : List Char} {r : Except LoadsError (Json × List Char)} {depth : ℕ},
      (∀ cs', cs = '"' :: cs' → False) → (∀ cs', cs = '[' :: cs' → False) →
      (∀ cs', cs = '\x7b' :: cs' → False) → h.scanConstant cs = some r →
      h.scanOnce depth cs = r := by
    intro cs r depth hquote hbracket hbrace hr
    rw [scanOnce.eq_def]
    split
    · next cs' => exact absurd rfl (hquote cs')
    · next cs' => exact absurd rfl (hbracket cs')
    · next cs' => exact absurd rfl (hbrace cs')
    · rw [hr]
  induction hv generalizing rest with
  | null =>
    refine hscalar ?_ ?_ ?_ rfl <;>
    · rintro cs' ⟨⟩
  | bool b =>
    cases b <;> refine hscalar ?_ ?_ ?_ rfl <;>
    · rintro cs' ⟨⟩
  | int hn => exact scanOnce_number hrest (scanNumber_int hn)
  | @float _ x hx =>
    have hconstant : ∀ {cs : List Char}, h.constant x = .ok (.float x) →
        Scan.scanConstant cs = some (.float x, rest) →
        h.scanConstant cs = some (.ok (.float x, rest)) := by
      intro cs hx hcs
      rw [scanConstant, hcs, Option.map_some]
      dsimp only
      rw [hx]
      rfl
    cases x with
    | finite q => exact scanOnce_number hrest hx
    | infinite negative =>
      cases negative <;> refine hscalar ?_ ?_ ?_ (hconstant hx rfl) <;>
      · rintro cs' ⟨⟩
    | nan =>
      refine hscalar ?_ ?_ ?_ (hconstant hx rfl) <;>
      · rintro cs' ⟨⟩
  | @str depth t ht =>
    have htext : Json.text floatText (.str t) ++ rest =
        '"' :: (t.codes.flatMap Json.escapeCode ++ '"' :: rest) := by
      simp [Json.text, Json.encodeText]
    rw [htext, scanOnce.eq_def]
    simp only [scanText_encoded ht]
    rfl
  | @arr depth items hitems ih =>
    rw [Json.text_arr, List.cons_append, List.append_assoc, List.singleton_append]
    cases items with
    | nil => rfl
    | cons x items =>
      have hx := hitems x List.mem_cons_self
      obtain ⟨c, cs, hstart, hblank, hc, -⟩ := hx.starts
      -- the text goes on with the first item, so the list is not read as empty
      obtain ⟨cs', hcs'⟩ : ∃ cs', Json.joined ((x :: items).map (Json.text floatText)) ++
          ']' :: rest = c :: cs' := by
        cases items with
        | nil => exact ⟨_, by simp only [List.map_cons, List.map_nil, Json.joined, hstart]; rfl⟩
        | cons y items =>
          exact ⟨_, by simp only [List.map_cons, Json.joined, hstart, List.cons_append]; rfl⟩
      have hlength := length_le_joined (Json.text floatText x) (items.map (Json.text floatText))
      rw [List.length_map, ← List.map_cons] at hlength
      rw [hcs', scanOnce_items (skipBlank_cons hblank) hc, ← hcs',
        scanItems_text (fun v hv rest hrest => ih v hv hrest)
          (fun v hv => hitems v (List.mem_cons_of_mem _ hv))]
      · rfl
      · rw [List.length_append, List.length_cons]
        omega
  | @obj depth members hkept hnames hvalues ih =>
    rw [text_obj_eq, List.cons_append, List.append_assoc, List.singleton_append]
    cases members with
    | nil =>
      have hempty : h.object? ([], rest) = .ok (.obj [], rest) := by
        rw [object?, hkeeps [] hkept]
        rfl
      exact hempty
    | cons m members =>
      -- the text goes on with the quote of the first key
      obtain ⟨cs', hcs'⟩ : ∃ cs', Json.joined ((m :: members).map (memberText floatText)) ++
          '\x7d' :: rest = '"' :: cs' := by
        cases members <;> exact ⟨_, rfl⟩
      have hlength := length_le_joined (memberText floatText m)
        (members.map (memberText floatText))
      rw [List.length_map, ← List.map_cons] at hlength
      rw [hcs', scanOnce_members (skipBlank_cons (by decide)) (by decide), ← hcs',
        scanPairs_text (fun m hm rest hrest => ih m hm hrest) hnames hvalues]
      · rw [Except.bind, object?, hkeeps _ hkept]
        rfl
      · rw [List.length_append, List.length_cons]
        omega

/-- **`json.loads` gives back the value that `json.dumps` wrote.** -/
theorem loads_text (hkeeps : h.Keeps kept) (hv : h.Readable floatText kept depth v) :
    h.loads depth (Json.text floatText v) = .ok v := by
  obtain ⟨c, cs, hstart, -, -, -, hmark⟩ := hv.starts
  have hmark : (Json.text floatText v).head? ≠ some (Char.ofNat 65279) := by
    rw [hstart]
    exact fun heq => hmark (Option.some.inj heq)
  have hblank : skipBlank (Json.text floatText v) = Json.text floatText v := by
    have hskip : skipBlank (Json.text floatText v ++ []) = Json.text floatText v ++ [] :=
      hv.skipBlank_text
    rwa [List.append_nil] at hskip
  have hscan := scanOnce_text hkeeps hv stops_nil
  rw [List.append_nil] at hscan
  rw [loads, if_neg hmark, hblank, hscan]
  rfl

/-! ### Sorted members -/

theorem Readable.mono {depth' : ℕ} (hv : h.Readable floatText kept depth v)
    (hle : depth ≤ depth') : h.Readable floatText kept depth' v := by
  induction hv generalizing depth' with
  | null => exact .null
  | bool b => exact .bool b
  | int hn => exact .int hn
  | float hx => exact .float hx
  | str ht => exact .str ht
  | arr _ ih =>
    obtain ⟨depth', rfl⟩ := Nat.exists_eq_add_of_lt hle
    exact .arr fun v hv => ih v hv (by omega)
  | obj hkept hnames _ ih =>
    obtain ⟨depth', rfl⟩ := Nat.exists_eq_add_of_lt hle
    exact .obj hkept hnames fun m hm => ih m hm (by omega)

/-- Sorting the members leaves a value such as it was. -/
theorem Legible.sorted (hv : h.Legible floatText depth v) : h.Legible floatText depth v.sorted := by
  induction hv with
  | null => exact .null
  | bool b => exact .bool b
  | int hn => exact .int hn
  | float hx => exact .float hx
  | str ht => exact .str ht
  | arr _ ih =>
    rw [Json.sorted_arr]
    refine .arr ?_
    rw [List.forall_mem_map]
    exact ih
  | @obj depth members hkeys hnames _ ih =>
    rw [Json.sorted_obj]
    have hperm := List.mergeSort_perm (members.map fun m => (m.1, m.2.sorted))
      fun a b => a.1.le b.1
    refine .obj ?_ ?_ ?_
    · rw [Distinct, (hperm.map _).nodup_iff, List.map_map]
      exact hkeys
    · intro m hm
      obtain ⟨m', hm', rfl⟩ := Json.mem_sorted_members.mp hm
      exact hnames m' hm'
    · intro m hm
      obtain ⟨m', hm', rfl⟩ := Json.mem_sorted_members.mp hm
      exact ih m' hm'

theorem Legible.isDict (hv : h.Legible floatText depth v) : v.isDict = true := by
  induction hv with
  | arr _ ih =>
    rw [Json.isDict_arr, List.all_eq_true]
    exact ih
  | obj hkeys _ _ ih =>
    rw [Json.isDict_obj, Bool.and_eq_true, decide_eq_true_eq, List.all_eq_true]
    exact ⟨hkeys, ih⟩
  | _ => rfl

end Readable

end Hooks

end ControlPlaneKit
