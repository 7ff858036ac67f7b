import ControlPlaneKit.Python.Substitute

/-!
# Placeholders in a text

A text with names in braces, whose placeholders are filled one after another by `str.replace`. Where
neither the characters nor the names nor the values hold a brace, a replacement touches the
placeholders of its name and nothing else, so that the order of the replacements does not matter and
the result is the text with every known name replaced (`foldl_replace`).
-/

namespace ControlPlaneKit

namespace Holes

open Substitute

/-- `text.replace(old, new)`, for a nonempty `old`. -/
def replace (old new text : List Char) : List Char :=
  sub (old.map fun c x => x == c) new text

/-- A piece of a text: characters, or a name in braces. -/
inductive Token where
  | plain (text : List Char)
  | hole (name : List Char)
deriving DecidableEq

/-- A name in braces. -/
def braced (name : List Char) : List Char :=
  '\x7b' :: name ++ ['\x7d']

/-- The characters of a piece. -/
def Token.text : Token → List Char
  | .plain text => text
  | .hole name => braced name

/-- The text of the pieces. -/
def written (tokens : List Token) : List Char :=
  tokens.flatMap Token.text

theorem written_cons (t : Token) (tokens : List Token) :
    written (t :: tokens) = t.text ++ written tokens :=
  rfl

/-- No brace. -/
def Braceless (text : List Char) : Prop :=
  ∀ c ∈ text, c ≠ '\x7b' ∧ c ≠ '\x7d'

/-- The only braces of the piece are those of a placeholder. -/
def Token.Clear : Token → Prop
  | .plain text => Braceless text
  | .hole name => Braceless name

/-- The piece with a value for one name. -/
def Token.fill (name value : List Char) : Token → Token
  | .plain text => .plain text
  | .hole other => if other = name then .plain value else .hole other

/-- The piece with a value for each name that has one. -/
def Token.filled (values : List (List Char × List Char)) : Token → Token
  | .plain text => .plain text
  | .hole name =>
    match values.lookup name with
    | some value => .plain value
    | none => .hole name

/-! ### One replacement -/

section Replace

variable {name value text rest : List Char} {tokens : List Token}

theorem occurs_literal {old : List Char} :
    occurs (old.map fun c x => x == c) text = true ↔ old <+: text := by
  induction old generalizing text with
  | nil => exact iff_of_true rfl List.nil_prefix
  | cons c old ih =>
    cases text with
    | nil => simp [occurs]
    | cons x text =>
      rw [List.map_cons, occurs, Bool.and_eq_true, ih, List.cons_prefix_cons, beq_iff_eq, eq_comm]

/-- The replacement of a placeholder, with the number of characters still to be dropped. -/
abbrev scan (name value : List Char) : ℕ → List Char → List Char :=
  subFrom ((braced name).map fun c x => x == c) value

/-- Characters without an opening brace are passed over. -/
theorem scan_append (h : '{' ∉ text) :
    scan name value 0 (text ++ rest) = text ++ scan name value 0 rest := by
  induction text with
  | nil => rfl
  | cons c text ih =>
    rw [List.mem_cons, not_or] at h
    have hc : occurs ((braced name).map fun c x => x == c) (c :: (text ++ rest)) ≠ true := by
      rw [Ne, occurs_literal, braced, List.cons_append, List.cons_prefix_cons]
      exact fun hstarts => h.1 hstarts.1
    rw [List.cons_append, scan, subFrom, if_neg hc, ← scan, ih h.2]
    rfl

/-- The characters of an occurrence are dropped. -/
theorem scan_drop (skip : ℕ) (h : skip = text.length) :
    scan name value skip (text ++ rest) = scan name value 0 rest := by
  induction text generalizing skip with
  | nil =>
    subst h
    rfl
  | cons c text ih =>
    subst h
    exact ih _ rfl

/-- A braced name is the prefix of another exactly if it is the other. -/
theorem braced_prefix {other : List Char} (hname : Braceless name) (hother : Braceless other) :
    braced name <+: braced other ++ rest ↔ name = other := by
  constructor
  · intro h
    rw [braced, braced, List.cons_append, List.cons_append, List.cons_append,
      List.cons_prefix_cons] at h
    have hstarts := h.2
    clear h
    -- the closing brace ends both names, since it is in neither
    induction name generalizing other with
    | nil =>
      cases other with
      | nil => rfl
      | cons c other =>
        have hc : '\x7d' = c := by simpa using hstarts
        exact absurd hc.symm (hother c List.mem_cons_self).2
    | cons c name ih =>
      cases other with
      | nil =>
        have hc : c = '\x7d' := by
          simp only [List.cons_append, List.nil_append, List.cons_prefix_cons] at hstarts
          exact hstarts.1
        exact absurd hc (hname c List.mem_cons_self).2
      | cons d other =>
        simp only [List.cons_append, List.cons_prefix_cons] at hstarts
        rw [hstarts.1, ih (fun c hc => hname c (List.mem_cons_of_mem _ hc))
          (fun c hc => hother c (List.mem_cons_of_mem _ hc)) hstarts.2]
  · rintro rfl
    exact List.prefix_append _ _

/-- A placeholder is filled if it has the name. -/
theorem scan_braced {other : List Char} (hname : Braceless name) (hother : Braceless other) :
    scan name value 0 (braced other ++ rest) =
      (if other = name then value else braced other) ++ scan name value 0 rest := by
  have hoccurs : occurs ((braced name).map fun c x => x == c) (braced other ++ rest) = true ↔
      name = other := by
    rw [occurs_literal]
    exact braced_prefix hname hother
  have hhead : braced other ++ rest = '{' :: ((other ++ ['}']) ++ rest) := by
    simp [braced]
  rw [hhead] at hoccurs ⊢
  rw [scan, subFrom, ← scan]
  by_cases hsame : other = name
  · subst hsame
    rw [if_pos (hoccurs.mpr rfl), if_pos rfl]
    exact congrArg (value ++ ·) (scan_drop _ (by simp [braced]))
  · have hplain : '{' ∉ other ++ ['}'] := by
      rw [List.mem_append, List.mem_singleton]
      rintro (hmem | hmem)
      · exact (hother _ hmem).1 rfl
      · exact absurd hmem (by decide)
    rw [if_neg (fun h => hsame (hoccurs.mp h).symm), if_neg hsame, scan_append hplain]
    rfl

/-- **One replacement fills the placeholders of its name.** -/
theorem replace_written (hname : Braceless name) (hclear : ∀ t ∈ tokens, t.Clear) :
    replace (braced name) value (written tokens) = written (tokens.map (Token.fill name value)) := by
  have hscan : scan name value 0 (written tokens) = written (tokens.map (Token.fill name value)) := by
    induction tokens with
    | nil => rfl
    | cons t tokens ih =>
      rw [List.forall_mem_cons] at hclear
      rw [written_cons, List.map_cons, written_cons]
      cases t with
      | plain text =>
        rw [Token.fill, ← ih hclear.2]
        exact scan_append fun hmem => (hclear.1 _ hmem).1 rfl
      | hole other =>
        rw [Token.text, scan_braced hname hclear.1, ih hclear.2, Token.fill]
        split <;> rfl
  exact hscan

/-- Filling with braceless values leaves no other braces. -/
theorem Token.Clear.fill {t : Token} (ht : t.Clear) (hvalue : Braceless value) :
    (t.fill name value).Clear := by
  cases t with
  | plain text => exact ht
  | hole other =>
    rw [Token.fill]
    split
    · exact hvalue
    · exact ht

end Replace

/-! ### All replacements -/

section Filled

variable {values : List (List Char × List Char)} {tokens : List Token}

theorem Token.filled_fill (name value : List Char) (t : Token) :
    (t.fill name value).filled values = t.filled ((name, value) :: values) := by
  cases t with
  | plain text => rfl
  | hole other =>
    by_cases h : other = name
    · simp [Token.fill, Token.filled, h]
    · have hne : (other == name) = false := beq_eq_false_iff_ne.mpr h
      simp [Token.fill, Token.filled, h, List.lookup_cons, hne]

theorem Token.filled_nil (t : Token) : t.filled [] = t := by
  cases t <;> rfl

/-- **The replacements one after another fill every placeholder that has a value.** -/
theorem foldl_replace (hvalues : ∀ v ∈ values, Braceless v.1 ∧ Braceless v.2)
    (hclear : ∀ t ∈ tokens, t.Clear) :
    values.foldl (fun text v => replace (braced v.1) v.2 text) (written tokens) =
      written (tokens.map (Token.filled values)) := by
  induction values generalizing tokens with
  | nil => rw [List.foldl_nil, List.map_congr_left fun t _ => t.filled_nil, List.map_id']
  | cons v values ih =>
    rw [List.forall_mem_cons] at hvalues
    have hfilled : ∀ t ∈ tokens.map (Token.fill v.1 v.2), t.Clear :=
      List.forall_mem_map.mpr fun t ht => (hclear t ht).fill hvalues.1.2
    rw [List.foldl_cons, replace_written hvalues.1.1 hclear, ih hvalues.2 hfilled, List.map_map]
    exact congrArg written (List.map_congr_left fun t _ => t.filled_fill v.1 v.2)

/-- Filling everything leaves no other braces. -/
theorem Token.Clear.filled {t : Token} (ht : t.Clear)
    (hvalues : ∀ v ∈ values, Braceless v.1 ∧ Braceless v.2) : (t.filled values).Clear := by
  induction values generalizing t with
  | nil =>
    rw [t.filled_nil]
    exact ht
  | cons v values ih =>
    rw [List.forall_mem_cons] at hvalues
    rw [← t.filled_fill]
    exact ih (ht.fill hvalues.1.2) hvalues.2

/-- A brace is left exactly where a placeholder is. -/
theorem brace_mem_written (hclear : ∀ t ∈ tokens, t.Clear) :
    ('{' ∈ written tokens ∨ '}' ∈ written tokens) ↔ ∃ name, Token.hole name ∈ tokens := by
  constructor
  · intro h
    obtain ⟨c, hc, hbrace⟩ : ∃ c, c ∈ written tokens ∧ (c = '{' ∨ c = '}') := by
      rcases h with h | h
      · exact ⟨_, h, .inl rfl⟩
      · exact ⟨_, h, .inr rfl⟩
    obtain ⟨t, ht, hmem⟩ := List.mem_flatMap.mp hc
    cases t with
    | plain text =>
      have hclear : Braceless text := hclear _ ht
      rcases hbrace with rfl | rfl
      · exact absurd rfl (hclear _ hmem).1
      · exact absurd rfl (hclear _ hmem).2
    | hole name => exact ⟨name, ht⟩
  · rintro ⟨name, h⟩
    exact .inl (List.mem_flatMap.mpr ⟨_, h, by simp [Token.text, braced]⟩)

end Filled

end Holes

end ControlPlaneKit
