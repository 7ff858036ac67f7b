import ControlPlaneKit.Python.Hooks

/-!
# What the decoder raises

The exceptions of `json.loads`, read off the text. A `RecursionError` takes more opening brackets than
may be nested, and a `ValueError` that no hook raises takes a long run of digits
(`Hooks.loads_error`). Nested brackets and long numbers do raise them (`Hooks.loads_brackets`,
`Hooks.loads_digits`).
-/

namespace ControlPlaneKit

namespace Scan

/-- A bracket that opens a list or an object. -/
def isOpening (c : Char) : Bool :=
  c == '[' || c == '{'

/-- More digits in a row than the interpreter converts. -/
def LongDigits (cs : List Char) : Prop :=
  ∃ ds, ds <:+: cs ∧ 4300 < ds.length ∧ ∀ c ∈ ds, isDigit c = true

/-- What a text has where the scanner raises, with `depth` containers left to open. -/
def Shows (depth : ℕ) (cs : List Char) : LoadsError → Prop
  | .decode => True
  | .value => LongDigits cs
  | .recursion => depth < cs.countP isOpening

section Suffixes

variable {e : LoadsError} {depth n : ℕ} {c : Char} {cs rest : List Char} {units : List ℕ} {t : Text}

theorem map_eq_error {α β : Type} {x : Except LoadsError α} {f : α → β} (h : x.map f = .error e) :
    x = .error e := by
  cases x with
  | error e' =>
    cases h
    rfl
  | ok a => cases h

theorem LongDigits.of_suffix (h : LongDigits rest) (hs : rest <:+ cs) : LongDigits cs := by
  obtain ⟨ds, hds, hlong⟩ := h
  exact ⟨ds, hds.trans hs.isInfix, hlong⟩

/-- A longer text has no less. -/
theorem Shows.of_suffix (h : Shows depth rest e) (hs : rest <:+ cs) : Shows depth cs e := by
  cases e with
  | decode => trivial
  | value => exact LongDigits.of_suffix h hs
  | recursion => exact lt_of_lt_of_le h hs.sublist.countP_le

/-- An opening bracket takes one container. -/
theorem Shows.opening (h : Shows depth cs e) (hc : isOpening c = true) :
    Shows (depth + 1) (c :: cs) e := by
  cases e with
  | decode => trivial
  | value => exact LongDigits.of_suffix h (List.suffix_cons c cs)
  | recursion =>
    have hcount : depth < cs.countP isOpening := h
    change depth + 1 < (c :: cs).countP isOpening
    rw [List.countP_cons_of_pos hc]
    omega

theorem skipBlank_suffix (cs : List Char) : skipBlank cs <:+ cs :=
  List.dropWhile_suffix _

/-- What follows a character after white space. -/
theorem suffix_of_skipBlank (h : skipBlank cs = c :: rest) : rest <:+ cs :=
  (List.suffix_cons c rest).trans (h ▸ skipBlank_suffix cs)

theorem scanUnits_suffix (h : scanUnits cs = .ok (units, rest)) : rest <:+ cs := by
  fun_induction scanUnits cs generalizing units with
  | case2 cs =>
    cases h
    exact List.suffix_cons _ _
  | case3 a b c d cs n hunit ih =>
    obtain ⟨⟨units', rest'⟩, hrest, heq⟩ := map_eq_ok h
    cases heq
    exact (ih hrest).trans (List.suffix_append ['\\', 'u', a, b, c, d] cs)
  | case5 c cs _ n hescape ih =>
    obtain ⟨⟨units', rest'⟩, hrest, heq⟩ := map_eq_ok h
    cases heq
    exact (ih hrest).trans (List.suffix_append ['\\', c] cs)
  | case8 c cs _ _ _ hplain ih =>
    obtain ⟨⟨units', rest'⟩, hrest, heq⟩ := map_eq_ok h
    cases heq
    exact (ih hrest).trans (List.suffix_cons c cs)
  | _ => cases h

theorem scanUnits_error (h : scanUnits cs = .error e) : e = .decode := by
  fun_induction scanUnits cs with
  | case2 => cases h
  | case3 _ _ _ _ _ _ _ ih => exact ih (map_eq_error h)
  | case5 _ _ _ _ _ ih => exact ih (map_eq_error h)
  | case8 _ _ _ _ _ _ ih => exact ih (map_eq_error h)
  | _ =>
    cases h
    rfl

theorem scanText_suffix (h : scanText cs = .ok (t, rest)) : rest <:+ cs := by
  obtain ⟨⟨units, rest'⟩, hunits, heq⟩ := map_eq_ok h
  cases heq
  exact scanUnits_suffix hunits

theorem scanText_error (h : scanText cs = .error e) : e = .decode :=
  scanUnits_error (map_eq_error h)

/-- The digits of a number, and what follows them. -/
theorem scanWhole_parts {whole : List Char} (h : scanWhole cs = some (whole, rest)) :
    cs = whole ++ rest ∧ ∀ c ∈ whole, isDigit c = true := by
  unfold scanWhole at h
  split at h
  · cases h
    exact ⟨rfl, List.forall_mem_singleton.mpr (by decide)⟩
  · split at h
    · rw [List.span_eq_takeWhile_dropWhile] at h
      cases h
      exact ⟨List.takeWhile_append_dropWhile.symm, fun c hc => List.mem_takeWhile_imp hc⟩
    · cases h
  · cases h

theorem scanDigits_suffix {first digits : List Char} (h : scanDigits first cs = some (digits, rest)) :
    rest <:+ cs := by
  unfold scanDigits at h
  split at h
  · cases h
  · cases h
    exact List.dropWhile_suffix _

theorem scanFraction_suffix (cs : List Char) : ((scanFraction cs).getD ([], cs)).2 <:+ cs := by
  cases hfraction : scanFraction cs with
  | none => exact List.suffix_rfl
  | some r =>
    unfold scanFraction at hfraction
    split at hfraction
    · exact (scanDigits_suffix hfraction).trans (List.suffix_cons _ _)
    · cases hfraction

theorem scanExponent_suffix (cs : List Char) : ((scanExponent cs).getD ([], cs)).2 <:+ cs := by
  cases hexponent : scanExponent cs with
  | none => exact List.suffix_rfl
  | some r =>
    unfold scanExponent at hexponent
    split at hexponent
    · next e cs =>
      split at hexponent
      · exact (scanDigits_suffix hexponent).trans (List.suffix_append [e, '+'] cs)
      · cases hexponent
    · next e cs =>
      split at hexponent
      · exact (scanDigits_suffix hexponent).trans (List.suffix_append [e, '-'] cs)
      · cases hexponent
    · split at hexponent
      · exact (scanDigits_suffix hexponent).trans (List.suffix_cons _ _)
      · cases hexponent
    · cases hexponent

theorem scanConstant_suffix {v : Json} (h : scanConstant cs = some (v, rest)) : rest <:+ cs := by
  unfold scanConstant at h
  split at h
  · cases h
    exact List.suffix_append ['n', 'u', 'l', 'l'] _
  · cases h
    exact List.suffix_append ['t', 'r', 'u', 'e'] _
  · cases h
    exact List.suffix_append ['f', 'a', 'l', 's', 'e'] _
  · cases h
    exact List.suffix_append ['N', 'a', 'N'] _
  · cases h
    exact List.suffix_append ['I', 'n', 'f', 'i', 'n', 'i', 't', 'y'] _
  · cases h
    exact List.suffix_append ['-', 'I', 'n', 'f', 'i', 'n', 'i', 't', 'y'] _
  · cases h

end Suffixes

end Scan

namespace Hooks

open Scan

/-- A hook raises this exception. -/
inductive Raises (h : Hooks) (e : LoadsError) : Prop where
  | object {members : Fields} (hobject : h.object members = .error e)
  | constant {x : Float64} (hconstant : h.constant x = .error e)
  | number {cs : List Char} (hnumber : h.number cs = .error e)

section Errors

variable {h : Hooks} {scan : List Char → Except LoadsError (Json × List Char)} {e : LoadsError}
  {rounds depth depthLimit : ℕ} {negative : Bool} {cs rest : List Char} {v : Json}
  {items : List Json} {members : Fields}

/-! ### What is left of the text -/

theorem scanUnsigned_suffix (hv : h.scanUnsigned negative cs = .ok (v, rest)) : rest <:+ cs := by
  unfold scanUnsigned at hv
  split at hv
  · cases hv
  · next whole cs₁ hwhole =>
    obtain ⟨rfl, -⟩ := scanWhole_parts hwhole
    have hexponent := (scanExponent_suffix ((scanFraction cs₁).getD ([], cs₁)).2).trans
      (scanFraction_suffix cs₁)
    dsimp only at hv
    split at hv
    · split at hv
      · cases hv
      · cases hv
        exact List.suffix_append _ _
    · obtain ⟨w, hnumber, heq⟩ := map_eq_ok hv
      cases heq
      exact hexponent.trans (List.suffix_append _ _)

/-- A scalar that is no string. -/
theorem scalar_suffix (hv : (match h.scanConstant cs with
      | some x => x
      | none => h.scanNumber cs) = .ok (v, rest)) : rest <:+ cs := by
  split at hv
  · next x hx =>
    subst hv
    obtain ⟨⟨w, rest'⟩, hscan, heq⟩ := Option.map_eq_some_iff.mp hx
    have hsuffix := scanConstant_suffix hscan
    cases w with
    | float x =>
      obtain ⟨w, hconstant, heq⟩ := map_eq_ok heq
      cases heq
      exact hsuffix
    | _ =>
      cases heq
      exact hsuffix
  · unfold scanNumber at hv
    split at hv
    · exact (scanUnsigned_suffix hv).trans (List.suffix_cons _ _)
    · exact scanUnsigned_suffix hv

theorem scanItems_suffix (hscan : ∀ {cs v rest}, scan cs = .ok (v, rest) → rest <:+ cs)
    (hitems : scanItems scan rounds cs = .ok (items, rest)) : rest <:+ cs := by
  induction rounds generalizing cs items with
  | zero => cases hitems
  | succ rounds ih =>
    rw [scanItems] at hitems
    split at hitems
    · cases hitems
    · next v cs₁ hv =>
      split at hitems
      · next cs₂ hend =>
        cases hitems
        exact (suffix_of_skipBlank hend).trans (hscan hv)
      · next cs₂ hmore =>
        obtain ⟨⟨items', rest'⟩, hrest, heq⟩ := map_eq_ok hitems
        cases heq
        exact (((ih hrest).trans (skipBlank_suffix cs₂)).trans (suffix_of_skipBlank hmore)).trans
          (hscan hv)
      · cases hitems

/-- What a member takes of the text, up to its value. -/
theorem member_suffix {key : Text} {cs₁ cs₂ : List Char} (hkey : scanText cs = .ok (key, cs₁))
    (hcolon : skipBlank cs₁ = ':' :: cs₂) : skipBlank cs₂ <:+ '"' :: cs :=
  (((skipBlank_suffix cs₂).trans (suffix_of_skipBlank hcolon)).trans (scanText_suffix hkey)).trans
    (List.suffix_cons _ _)

theorem scanPairs_suffix (hscan : ∀ {cs v rest}, scan cs = .ok (v, rest) → rest <:+ cs)
    (hmembers : scanPairs scan rounds cs = .ok (members, rest)) : rest <:+ cs := by
  fun_induction scanPairs scan rounds cs generalizing members with
  | case3 rounds cs key cs₁ hkey cs₂ hcolon v cs₃ hv cs₄ hend =>
    cases hmembers
    exact ((suffix_of_skipBlank hend).trans (hscan hv)).trans (member_suffix hkey hcolon)
  | case4 rounds cs key cs₁ hkey cs₂ hcolon v cs₃ hv cs₄ hmore ih =>
    obtain ⟨⟨members', rest'⟩, hrest, heq⟩ := map_eq_ok hmembers
    cases heq
    exact ((((ih hrest).trans (skipBlank_suffix cs₄)).trans (suffix_of_skipBlank hmore)).trans
      (hscan hv)).trans (member_suffix hkey hcolon)
  | _ => cases hmembers

/-- **A value leaves the end of the text.** -/
theorem scanOnce_suffix (hv : h.scanOnce depth cs = .ok (v, rest)) : rest <:+ cs := by
  have htext : ∀ {cs rest : List Char} {v : Json}, ((scanText cs).map fun r => (Json.str r.1, r.2)) =
      .ok (v, rest) → rest <:+ '"' :: cs := by
    intro cs rest v hv
    obtain ⟨⟨t, rest'⟩, htext, heq⟩ := map_eq_ok hv
    cases heq
    exact (scanText_suffix htext).trans (List.suffix_cons _ _)
  have hobject : ∀ {x : Fields × List Char} {v : Json} {rest : List Char},
      h.object? x = .ok (v, rest) → rest = x.2 := by
    intro x v rest hv
    obtain ⟨w, -, heq⟩ := map_eq_ok hv
    exact (congrArg Prod.snd heq).symm
  -- the induction follows the depth, which falls at each opening bracket
  induction depth generalizing cs v rest with
  | zero =>
    rw [scanOnce.eq_def] at hv
    split at hv
    · exact htext hv
    · cases hv
    · cases hv
    · exact scalar_suffix hv
  | succ depth ih =>
    rw [scanOnce.eq_def] at hv
    split at hv
    · exact htext hv
    · next cs =>
      dsimp only at hv
      refine List.IsSuffix.trans ?_ (List.suffix_cons _ cs)
      split at hv
      · next cs₁ hend =>
        cases hv
        exact suffix_of_skipBlank hend
      · obtain ⟨⟨items, rest'⟩, hitems, heq⟩ := map_eq_ok hv
        cases heq
        exact (scanItems_suffix ih hitems).trans (skipBlank_suffix cs)
    · next cs =>
      dsimp only at hv
      refine List.IsSuffix.trans ?_ (List.suffix_cons _ cs)
      split at hv
      · next cs₁ hend =>
        rw [hobject hv]
        exact suffix_of_skipBlank hend
      · cases hpairs : scanPairs (h.scanOnce depth) _ _ with
        | error e =>
          rw [hpairs] at hv
          cases hv
        | ok x =>
          rw [hpairs] at hv
          rw [hobject hv]
          exact (scanPairs_suffix ih hpairs).trans (skipBlank_suffix cs)
    · exact scalar_suffix hv

/-! ### What is raised -/

theorem scanUnsigned_error (hv : h.scanUnsigned negative cs = .error e) :
    h.Raises e ∨ Shows depth cs e := by
  unfold scanUnsigned at hv
  split at hv
  · cases hv
    exact .inr trivial
  · next whole cs₁ hwhole =>
    obtain ⟨rfl, hdigits⟩ := scanWhole_parts hwhole
    dsimp only at hv
    split at hv
    · split at hv
      · next hlong =>
        cases hv
        exact .inr ⟨whole, (List.prefix_append whole cs₁).isInfix, hlong, hdigits⟩
      · cases hv
    · exact .inl (.number (map_eq_error hv))

theorem scalar_error (hv : (match h.scanConstant cs with
      | some x => x
      | none => h.scanNumber cs) = .error e) : h.Raises e ∨ Shows depth cs e := by
  split at hv
  · next x hx =>
    subst hv
    obtain ⟨⟨w, rest'⟩, hscan, heq⟩ := Option.map_eq_some_iff.mp hx
    cases w with
    | float x => exact .inl (.constant (map_eq_error heq))
    | _ => cases heq
  · unfold scanNumber at hv
    split at hv
    · exact (scanUnsigned_error hv).imp_right fun hshows => hshows.of_suffix (List.suffix_cons _ _)
    · exact scanUnsigned_error hv

theorem scanItems_error (hsuffix : ∀ {cs v rest}, scan cs = .ok (v, rest) → rest <:+ cs)
    (hscan : ∀ {cs}, scan cs = .error e → h.Raises e ∨ Shows depth cs e)
    (hitems : scanItems scan rounds cs = .error e) : h.Raises e ∨ Shows depth cs e := by
  induction rounds generalizing cs with
  | zero =>
    cases hitems
    exact .inr trivial
  | succ rounds ih =>
    rw [scanItems] at hitems
    split at hitems
    · next e' he =>
      cases hitems
      exact hscan he
    · next v cs₁ hv =>
      split at hitems
      · cases hitems
      · next cs₂ hmore =>
        exact (ih (map_eq_error hitems)).imp_right fun hshows => hshows.of_suffix
          (((skipBlank_suffix cs₂).trans (suffix_of_skipBlank hmore)).trans (hsuffix hv))
      · cases hitems
        exact .inr trivial

theorem scanPairs_error (hsuffix : ∀ {cs v rest}, scan cs = .ok (v, rest) → rest <:+ cs)
    (hscan : ∀ {cs}, scan cs = .error e → h.Raises e ∨ Shows depth cs e)
    (hmembers : scanPairs scan rounds cs = .error e) : h.Raises e ∨ Shows depth cs e := by
  fun_induction scanPairs scan rounds cs with
  | case1 rounds cs e' hkey =>
    cases hmembers
    obtain rfl := scanText_error hkey
    exact .inr trivial
  | case2 rounds cs key cs₁ hkey cs₂ hcolon e' hv =>
    cases hmembers
    exact (hscan hv).imp_right fun hshows => hshows.of_suffix (member_suffix hkey hcolon)
  | case3 => cases hmembers
  | case4 rounds cs key cs₁ hkey cs₂ hcolon v cs₃ hv cs₄ hmore ih =>
    exact (ih (map_eq_error hmembers)).imp_right fun hshows => hshows.of_suffix
      ((((skipBlank_suffix cs₄).trans (suffix_of_skipBlank hmore)).trans (hsuffix hv)).trans
        (member_suffix hkey hcolon))
  | _ =>
    cases hmembers
    exact .inr trivial

/-- **What the scanner raises** a hook raises, or the text shows why. -/
theorem scanOnce_error (hv : h.scanOnce depth cs = .error e) : h.Raises e ∨ Shows depth cs e := by
  have htext : ∀ {depth : ℕ} {cs : List Char}, ((scanText cs).map fun r => (Json.str r.1, r.2)) =
      .error e → h.Raises e ∨ Shows depth ('"' :: cs) e := by
    intro depth cs hv
    obtain rfl := scanText_error (map_eq_error hv)
    exact .inr trivial
  have hdeep : ∀ {c : Char} {cs : List Char}, isOpening c = true →
      Shows 0 (c :: cs) .recursion := by
    intro c cs hc
    change 0 < (c :: cs).countP isOpening
    rw [List.countP_cons_of_pos hc]
    exact Nat.succ_pos _
  -- at depth zero an opening bracket is what the recursion stops at
  induction depth generalizing cs with
  | zero =>
    rw [scanOnce.eq_def] at hv
    split at hv
    · exact htext hv
    · cases hv
      exact .inr (hdeep (by decide))
    · cases hv
      exact .inr (hdeep (by decide))
    · exact scalar_error hv
  | succ depth ih =>
    rw [scanOnce.eq_def] at hv
    split at hv
    · exact htext hv
    · next cs =>
      dsimp only at hv
      split at hv
      · cases hv
      · exact (scanItems_error scanOnce_suffix ih (map_eq_error hv)).imp_right fun hshows =>
          (hshows.of_suffix (skipBlank_suffix cs)).opening (by decide)
    · next cs =>
      dsimp only at hv
      split at hv
      · exact .inl (.object (map_eq_error hv))
      · cases hpairs : scanPairs (h.scanOnce depth) _ _ with
        | error e' =>
          rw [hpairs] at hv
          cases hv
          exact (scanPairs_error scanOnce_suffix ih hpairs).imp_right fun hshows =>
            (hshows.of_suffix (skipBlank_suffix cs)).opening (by decide)
        | ok x =>
          rw [hpairs] at hv
          exact .inl (.object (map_eq_error hv))
    · exact scalar_error hv

/-- **What `json.loads` raises** a hook raises, or the text shows why. -/
theorem loads_error (hv : h.loads depthLimit cs = .error e) :
    h.Raises e ∨ Shows depthLimit cs e := by
  unfold loads at hv
  split at hv
  · cases hv
    exact .inr trivial
  · split at hv
    · next e' hscan =>
      cases hv
      exact (scanOnce_error hscan).imp_right fun hshows => hshows.of_suffix (skipBlank_suffix cs)
    · split at hv
      · cases hv
      · cases hv
        exact .inr trivial

/-! ### What does raise -/

theorem skipBlank_cons {c : Char} (hc : isBlank c = false) : skipBlank (c :: cs) = c :: cs := by
  rw [skipBlank, List.dropWhile_cons_of_neg (by rw [hc]; exact Bool.false_ne_true)]

/-- Brackets that open more containers than may be nested. -/
theorem scanOnce_brackets {n : ℕ} (hn : depth < n) :
    h.scanOnce depth (List.replicate n '[' ++ rest) = .error .recursion := by
  induction depth generalizing n with
  | zero =>
    obtain ⟨n, rfl⟩ := Nat.exists_eq_add_of_le' hn
    rfl
  | succ depth ih =>
    obtain ⟨n, rfl⟩ := Nat.exists_eq_add_of_le' (Nat.one_le_of_lt hn)
    obtain ⟨n, rfl⟩ := Nat.exists_eq_add_of_le' (show 1 ≤ n by omega)
    have hinner := ih (n := n + 1) (by omega)
    rw [List.replicate_succ, List.cons_append] at hinner ⊢
    rw [List.replicate_succ, List.cons_append, scanOnce.eq_def]
    change ((scanItems (h.scanOnce depth) ((List.replicate n '[' ++ rest).length + 1)
      ('[' :: (List.replicate n '[' ++ rest))).map fun r => (Json.arr r.1, r.2)) = _
    rw [scanItems, hinner]
    rfl

/-- **Brackets nested too deep** raise `RecursionError`. -/
theorem loads_brackets {n : ℕ} (hn : depthLimit < n) :
    h.loads depthLimit (List.replicate n '[' ++ rest) = .error .recursion := by
  have hscan : h.scanOnce depthLimit (List.replicate n '[' ++ rest) = .error .recursion :=
    scanOnce_brackets hn
  obtain ⟨n, rfl⟩ := Nat.exists_eq_add_of_le' (Nat.one_le_of_lt hn)
  rw [List.replicate_succ, List.cons_append] at hscan ⊢
  rw [loads, if_neg (by rw [List.head?_cons]; decide), skipBlank_cons (by decide), hscan]

/-- **A number of too many digits** raises `ValueError`. -/
theorem loads_digits {c : Char} {ds : List Char} (hfirst : c ≠ '0')
    (hdigits : ∀ d ∈ c :: ds, isDigit d = true) (hlong : 4300 < (c :: ds).length) :
    h.loads depthLimit (c :: ds) = .error .value := by
  obtain ⟨hc, hds⟩ := List.forall_mem_cons.mp hdigits
  -- A digit starts no other token, so the whole text is one number.
  have hne : ∀ {d : Char}, isDigit d = false → c ≠ d := by
    rintro d hd rfl
    rw [hc] at hd
    cases hd
  have hconstant : Scan.scanConstant (c :: ds) = none := by
    unfold Scan.scanConstant
    split
    all_goals first
      | rfl
      | next heq => exact absurd (List.cons.inj heq).1 (hne (by decide))
  have hwhole : scanWhole (c :: ds) = some (c :: ds, []) := by
    unfold scanWhole
    split
    · next heq => exact absurd (List.cons.inj heq).1 hfirst
    · next heq =>
      obtain ⟨rfl, rfl⟩ := List.cons.inj heq
      rw [if_pos hc, List.span_eq_takeWhile_dropWhile, List.takeWhile_eq_self_iff.mpr hdigits,
        List.dropWhile_eq_nil_iff.mpr hdigits]
    · next heq => cases heq
  have hnumber : h.scanNumber (c :: ds) = .error .value := by
    unfold scanNumber
    split
    · next heq => exact absurd (List.cons.inj heq).1 (hne (by decide))
    · rw [scanUnsigned, hwhole]
      exact (if_pos ⟨rfl, rfl⟩).trans (if_pos hlong)
  have hblank : isBlank c = false := by
    have hspaces : ∀ {d : Char}, isDigit d = false → (c == d) = false := fun hd =>
      beq_eq_false_iff_ne.mpr (hne hd)
    rw [isBlank, hspaces (by decide), hspaces (by decide), hspaces (by decide), hspaces (by decide)]
    rfl
  have hmark : (c :: ds).head? ≠ some (Char.ofNat 65279) := by
    rw [List.head?_cons]
    exact fun heq => hne (by decide) (Option.some.inj heq)
  have hscan : h.scanOnce depthLimit (c :: ds) = .error .value := by
    rw [scanOnce.eq_def]
    split
    · next heq => exact absurd (List.cons.inj heq).1 (hne (by decide))
    · next heq => exact absurd (List.cons.inj heq).1 (hne (by decide))
    · next heq => exact absurd (List.cons.inj heq).1 (hne (by decide))
    · rw [scanConstant, hconstant]
      exact hnumber
  rw [loads, if_neg hmark, skipBlank_cons hblank, hscan]

end Errors

/-- Without hooks, and with the hook for members that come again. -/
theorem not_raises_plain (ip : Interpreter) {e : LoadsError} : ¬ (plain ip).Raises e := by
  rintro (h | h | h) <;> cases h

theorem raises_unique {ip : Interpreter} {e : LoadsError} (h : (unique ip).Raises e) :
    e = .value := by
  rcases h with h | h | h
  · change (if _ then _ else _) = _ at h
    split at h
    · cases h
    · exact (Except.error.inj h).symm
  · cases h
  · cases h

end Hooks

end ControlPlaneKit
