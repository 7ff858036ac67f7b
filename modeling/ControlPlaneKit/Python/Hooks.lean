import ControlPlaneKit.Python.ReadBack

/-!
# Decoding JSON with hooks

`json.loads` with `object_pairs_hook`, `parse_constant` and `parse_float`. The scanner is the one of
the module before, but for what the hooks make of the members of an object, of a constant and of a
number with a fraction or an exponent. Hooks that refuse less read the same values
(`Within.loads`), and hooks that keep to decoded values return such (`Decodes.loads`).
-/

namespace ControlPlaneKit

/-- The hooks of `json.loads`. -/
structure Hooks where
  /-- `object_pairs_hook`. -/
  object : Fields → Except LoadsError Json
  /-- `parse_constant`, on the value of the constant. -/
  constant : Float64 → Except LoadsError Json
  /-- `parse_float`. -/
  number : List Char → Except LoadsError Json

namespace Hooks

open Scan

/-- No hooks: a `dict` is built member by member. -/
def plain (ip : Interpreter) : Hooks where
  object members := .ok (.obj (members.foldl (fun found m => store found m.1 m.2) []))
  constant x := .ok (.float x)
  number cs := .ok (.float (ip.floatOf cs))

/-- `_unique_object`: a member that comes again raises `ValueError`. -/
def unique (ip : Interpreter) : Hooks where
  object members :=
    if (members.map (·.1)).Nodup then .ok (.obj members) else .error .value
  constant x := .ok (.float x)
  number cs := .ok (.float (ip.floatOf cs))

section Scanner

variable (h : Hooks)

/-- The constants. -/
def scanConstant (cs : List Char) : Option (Except LoadsError (Json × List Char)) :=
  (Scan.scanConstant cs).map fun r =>
    match r.1 with
    | .float x => (h.constant x).map fun v => (v, r.2)
    | v => .ok (v, r.2)

/-- `_match_number`, after its sign. -/
def scanUnsigned (negative : Bool) (cs : List Char) : Except LoadsError (Json × List Char) :=
  match scanWhole cs with
  | none => .error .decode
  | some (whole, cs) =>
    let sign := if negative then ['-'] else []
    let fraction := (scanFraction cs).getD ([], cs)
    let exponent := (scanExponent fraction.2).getD ([], fraction.2)
    if fraction.1 = [] ∧ exponent.1 = [] then
      if 4300 < whole.length then .error .value
      else
        let n : ℤ := whole.foldl (fun n c => 10 * n + ((c.toNat : ℤ) - 48)) 0
        .ok (.int (if negative then -n else n), cs)
    else (h.number (sign ++ whole ++ fraction.1 ++ exponent.1)).map fun v => (v, exponent.2)

/-- `_match_number`. -/
def scanNumber : List Char → Except LoadsError (Json × List Char)
  | '-' :: cs => h.scanUnsigned true cs
  | cs => h.scanUnsigned false cs

/-- The loop of `_parse_object`: the members in the order of the text. -/
def scanPairs (scan : List Char → Except LoadsError (Json × List Char)) :
    ℕ → List Char → Except LoadsError (Fields × List Char)
  | rounds + 1, '"' :: cs =>
    match scanText cs with
    | .error e => .error e
    | .ok (key, cs) =>
      match skipBlank cs with
      | ':' :: cs =>
        match scan (skipBlank cs) with
        | .error e => .error e
        | .ok (v, cs) =>
          match skipBlank cs with
          | '}' :: cs => .ok ([(key, v)], cs)
          | ',' :: cs =>
            (scanPairs scan rounds (skipBlank cs)).map fun r => ((key, v) :: r.1, r.2)
          | _ => .error .decode
      | _ => .error .decode
  | _, _ => .error .decode

/-- What the hook makes of the members. -/
def object? (r : Fields × List Char) : Except LoadsError (Json × List Char) :=
  (h.object r.1).map fun v => (v, r.2)

/-- `scan_once`, with `depth` containers left to open. -/
def scanOnce (depth : ℕ) (cs : List Char) : Except LoadsError (Json × List Char) :=
  match cs with
  | '"' :: cs => (scanText cs).map fun r => (.str r.1, r.2)
  | '[' :: cs =>
    match depth with
    | 0 => .error .recursion
    | depth + 1 =>
      match skipBlank cs with
      | ']' :: cs => .ok (.arr [], cs)
      | cs => (scanItems (scanOnce depth) cs.length cs).map fun r => (.arr r.1, r.2)
  | '{' :: cs =>
    match depth with
    | 0 => .error .recursion
    | depth + 1 =>
      match skipBlank cs with
      | '}' :: cs => h.object? ([], cs)
      | cs => (scanPairs (scanOnce depth) cs.length cs).bind h.object?
  | cs =>
    match h.scanConstant cs with
    | some r => r
    | none => h.scanNumber cs

/-- `json.loads(text, ...)`. -/
def loads (depthLimit : ℕ) (cs : List Char) : Except LoadsError Json :=
  if cs.head? = some (Char.ofNat 65279) then .error .decode
  else
    match h.scanOnce depthLimit (skipBlank cs) with
    | .error e => .error e
    | .ok (v, cs) => if skipBlank cs = [] then .ok v else .error .decode

end Scanner

/-! ### Hooks that refuse less -/

section Within

variable {h h' : Hooks} {scan scan' : List Char → Except LoadsError (Json × List Char)}
  {rounds depth depthLimit : ℕ} {cs rest : List Char} {v : Json} {items : List Json}
  {members : Fields} {r : Json × List Char}

/-- What the first hooks accept, the second ones accept with the same value. -/
structure Within (h h' : Hooks) : Prop where
  object : ∀ {members v}, h.object members = .ok v → h'.object members = .ok v
  constant : ∀ {x v}, h.constant x = .ok v → h'.constant x = .ok v
  number : ∀ {cs v}, h.number cs = .ok v → h'.number cs = .ok v

theorem scanItems_within (hscan : ∀ {cs r}, scan cs = .ok r → scan' cs = .ok r)
    (hitems : scanItems scan rounds cs = .ok (items, rest)) :
    scanItems scan' rounds cs = .ok (items, rest) := by
  induction rounds generalizing cs items with
  | zero => cases hitems
  | succ rounds ih =>
    rw [scanItems] at hitems ⊢
    split at hitems
    · cases hitems
    · next v cs₁ hv =>
      rw [hscan hv]
      dsimp only
      split at hitems
      · exact hitems
      · obtain ⟨⟨items', rest'⟩, hrest, heq⟩ := map_eq_ok hitems
        cases heq
        rw [ih hrest]
        rfl
      · cases hitems

theorem scanPairs_within (hscan : ∀ {cs r}, scan cs = .ok r → scan' cs = .ok r)
    (hmembers : scanPairs scan rounds cs = .ok (members, rest)) :
    scanPairs scan' rounds cs = .ok (members, rest) := by
  fun_induction scanPairs scan rounds cs generalizing members with
  | case3 rounds cs key cs₁ hkey cs₂ hcolon v cs₃ hv cs₄ hend =>
    simp only [scanPairs, hkey, hcolon, hscan hv, hend]
    exact hmembers
  | case4 rounds cs key cs₁ hkey cs₂ hcolon v cs₃ hv cs₄ hmore ih =>
    obtain ⟨⟨members', rest'⟩, hrest, heq⟩ := map_eq_ok hmembers
    cases heq
    simp only [scanPairs, hkey, hcolon, hscan hv, hmore, ih hrest]
    rfl
  | _ => cases hmembers

theorem Within.scanConstant (hw : Within h h') {x : Except LoadsError (Json × List Char)}
    (hx : h.scanConstant cs = some x) (hr : x = .ok r) : h'.scanConstant cs = some (.ok r) := by
  subst hr
  unfold Hooks.scanConstant at hx ⊢
  obtain ⟨⟨v, rest⟩, hscan, heq⟩ := Option.map_eq_some_iff.mp hx
  rw [hscan, Option.map_some]
  cases v with
  | float x =>
    obtain ⟨w, hconstant, hw'⟩ := map_eq_ok heq
    dsimp only
    rw [hw.constant hconstant, ← hw']
    rfl
  | _ => exact congrArg some heq

theorem Within.scanNumber (hw : Within h h') (hr : h.scanNumber cs = .ok r) :
    h'.scanNumber cs = .ok r := by
  have hunsigned : ∀ {negative : Bool} {cs : List Char}, h.scanUnsigned negative cs = .ok r →
      h'.scanUnsigned negative cs = .ok r := by
    intro negative cs hr
    unfold scanUnsigned at hr ⊢
    split at hr
    · cases hr
    · dsimp only at hr ⊢
      split at hr
      · next hinteger =>
        rw [if_pos hinteger]
        exact hr
      · next hfloat =>
        rw [if_neg hfloat]
        obtain ⟨v, hnumber, heq⟩ := map_eq_ok hr
        rw [hw.number hnumber, ← heq]
        rfl
  unfold Hooks.scanNumber at hr ⊢
  split at hr
  · exact hunsigned hr
  · exact hunsigned hr

/-- **Hooks that refuse less** read what the others read. -/
theorem Within.scanOnce (hw : Within h h') (hr : h.scanOnce depth cs = .ok r) :
    h'.scanOnce depth cs = .ok r := by
  -- a constant or a number that one hook reads, the wider one reads the same
  have hscalar : ∀ {cs : List Char} {r : Json × List Char},
      (match h.scanConstant cs with
        | some x => x
        | none => h.scanNumber cs) = .ok r →
      (match h'.scanConstant cs with
        | some x => x
        | none => h'.scanNumber cs) = .ok r := by
    intro cs r hr
    split at hr
    · next x hx => rw [hw.scanConstant hx hr]
    · next hnone =>
      have hnone' : h'.scanConstant cs = none := by
        rw [Hooks.scanConstant, Option.map_eq_none_iff] at hnone ⊢
        exact hnone
      rw [hnone']
      exact hw.scanNumber hr
  have hobject : ∀ {x : Fields × List Char} {r : Json × List Char}, h.object? x = .ok r →
      h'.object? x = .ok r := by
    intro x r hr
    obtain ⟨v, hv, heq⟩ := map_eq_ok hr
    rw [object?, hw.object hv, ← heq]
    rfl
  induction depth generalizing cs r with
  | zero =>
    rw [scanOnce.eq_def] at hr ⊢
    split at hr
    · exact hr
    · exact hr
    · exact hr
    · exact hscalar hr
  | succ depth ih =>
    rw [scanOnce.eq_def] at hr ⊢
    split at hr
    · exact hr
    · dsimp only at hr ⊢
      split at hr
      · exact hr
      · obtain ⟨⟨items, rest⟩, hitems, heq⟩ := map_eq_ok hr
        rw [scanItems_within ih hitems, ← heq]
        rfl
    · dsimp only at hr ⊢
      split at hr
      · exact hobject hr
      · cases hpairs : scanPairs (h.scanOnce depth) _ _ with
        | error e =>
          rw [hpairs] at hr
          cases hr
        | ok x =>
          rw [hpairs] at hr
          rw [scanPairs_within ih hpairs]
          exact hobject hr
    · exact hscalar hr

theorem Within.loads (hw : Within h h') (hv : h.loads depthLimit cs = .ok v) :
    h'.loads depthLimit cs = .ok v := by
  unfold Hooks.loads at hv ⊢
  split at hv
  · cases hv
  · next hmark =>
    rw [if_neg hmark]
    split at hv
    · cases hv
    · next hscan =>
      rw [hw.scanOnce hscan]
      exact hv

end Within

/-! ### Hooks that return decoded values -/

section Decodes

variable {h : Hooks} {scan : List Char → Except LoadsError (Json × List Char)}
  {rounds depth depthLimit : ℕ} {cs rest : List Char} {v : Json} {members : Fields}

/-- Of decoded members the hooks make decoded values. -/
structure Decodes (h : Hooks) : Prop where
  object : ∀ {members v}, (∀ m ∈ members, IsScanned m.1) → (∀ m ∈ members, Decoded m.2) →
    h.object members = .ok v → Decoded v
  constant : ∀ {x v}, h.constant x = .ok v → Decoded v
  number : ∀ {cs v}, h.number cs = .ok v → Decoded v

theorem scanPairs_decoded (hscan : ∀ {cs v rest}, scan cs = .ok (v, rest) → Decoded v)
    (hmembers : scanPairs scan rounds cs = .ok (members, rest)) :
    (∀ m ∈ members, IsScanned m.1) ∧ ∀ m ∈ members, Decoded m.2 := by
  fun_induction scanPairs scan rounds cs generalizing members with
  | case3 rounds cs key cs₁ hkey cs₂ hcolon v cs₃ hv cs₄ hend =>
    cases hmembers
    exact ⟨List.forall_mem_singleton.mpr (isScanned_of_scanText hkey),
      List.forall_mem_singleton.mpr (hscan hv)⟩
  | case4 rounds cs key cs₁ hkey cs₂ hcolon v cs₃ hv cs₄ hmore ih =>
    obtain ⟨⟨members', rest'⟩, hrest, heq⟩ := map_eq_ok hmembers
    cases heq
    obtain ⟨hnames, hvalues⟩ := ih hrest
    exact ⟨List.forall_mem_cons.mpr ⟨isScanned_of_scanText hkey, hnames⟩,
      List.forall_mem_cons.mpr ⟨hscan hv, hvalues⟩⟩
  | _ => cases hmembers

theorem Decodes.scalar (hd : Decodes h) (hv : (match h.scanConstant cs with
      | some x => x
      | none => h.scanNumber cs) = .ok (v, rest)) : Decoded v := by
  have hunsigned : ∀ {negative : Bool} {cs : List Char},
      h.scanUnsigned negative cs = .ok (v, rest) → Decoded v := by
    intro negative cs hv
    unfold scanUnsigned at hv
    split at hv
    · cases hv
    · dsimp only at hv
      split at hv
      · split at hv
        · cases hv
        · cases hv
          exact .int _
      · obtain ⟨w, hnumber, heq⟩ := map_eq_ok hv
        cases heq
        exact hd.number hnumber
  split at hv
  · next x hx =>
    subst hv
    obtain ⟨⟨w, rest'⟩, hscan, heq⟩ := Option.map_eq_some_iff.mp hx
    cases w with
    | float x =>
      obtain ⟨w, hconstant, heq⟩ := map_eq_ok heq
      cases heq
      exact hd.constant hconstant
    | _ =>
      cases heq
      exact scanConstant_decoded hscan
  · unfold scanNumber at hv
    split at hv
    · exact hunsigned hv
    · exact hunsigned hv

/-- **What is read with such hooks** has scanned strings, and no member twice. -/
theorem Decodes.scanOnce (hd : Decodes h) (hv : h.scanOnce depth cs = .ok (v, rest)) :
    Decoded v := by
  have htext : ∀ {cs rest : List Char} {v : Json}, ((scanText cs).map fun r => (Json.str r.1, r.2)) =
      .ok (v, rest) → Decoded v := by
    intro cs rest v hv
    obtain ⟨⟨t, rest'⟩, htext, heq⟩ := map_eq_ok hv
    cases heq
    exact .str (isScanned_of_scanText htext)
  -- the induction follows the depth; strings and scalars do not descend
  induction depth generalizing cs v rest with
  | zero =>
    rw [scanOnce.eq_def] at hv
    split at hv
    · exact htext hv
    · cases hv
    · cases hv
    · exact hd.scalar hv
  | succ depth ih =>
    rw [scanOnce.eq_def] at hv
    split at hv
    · exact htext hv
    · dsimp only at hv
      split at hv
      · cases hv
        exact .arr (List.forall_mem_nil _)
      · obtain ⟨⟨items, rest'⟩, hitems, heq⟩ := map_eq_ok hv
        cases heq
        exact .arr (scanItems_decoded ih hitems)
    · dsimp only at hv
      split at hv
      · obtain ⟨w, hobject, heq⟩ := map_eq_ok hv
        cases heq
        exact hd.object (List.forall_mem_nil _) (List.forall_mem_nil _) hobject
      · cases hpairs : scanPairs (h.scanOnce depth) _ _ with
        | error e =>
          rw [hpairs] at hv
          cases hv
        | ok x =>
          obtain ⟨members, rest'⟩ := x
          rw [hpairs] at hv
          obtain ⟨w, hobject, heq⟩ := map_eq_ok hv
          cases heq
          obtain ⟨hnames, hvalues⟩ := scanPairs_decoded ih hpairs
          exact hd.object hnames hvalues hobject
    · exact hd.scalar hv

theorem Decodes.loads (hd : Decodes h) (hv : h.loads depthLimit cs = .ok v) : Decoded v := by
  unfold Hooks.loads at hv
  split at hv
  · cases hv
  · split at hv
    · cases hv
    · next hscan =>
      split at hv
      · cases hv
        exact hd.scanOnce hscan
      · cases hv

end Decodes

end Hooks

end ControlPlaneKit
