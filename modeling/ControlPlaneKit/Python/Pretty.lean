import ControlPlaneKit.Python.Dumps

/-!
# Strings, dictionaries and indented JSON

Concatenation of strings, assignment to a member of a `dict`, and `json.dumps` with an indentation.
No text that `json.dumps` writes has a control character other than the line feeds of the
indentation.
-/

namespace ControlPlaneKit

/-- Concatenation of strings. -/
def Text.append : Text → Text → Text
  | .utf8 a, .utf8 b => .utf8 (a ++ b)
  | a, b => .surrogate (a.codes ++ b.codes)

instance : Append Text := ⟨Text.append⟩

/-- `members[name] = value` on a `dict`: a member that is there keeps its place. -/
def Fields.assign (members : Fields) (name : String) (value : Json) : Fields :=
  if members.has name then members.map fun m => if m.1 = .utf8 name then (m.1, value) else m
  else members ++ [(.utf8 name, value)]

namespace Fields

variable {members : Fields} {name other : String} {v w : Json}

/-- The member is there, with this value. -/
def Assigned (members : Fields) (name : String) (v : Json) : Prop :=
  members.has name = true ∧ ∀ m ∈ members, m.1 = .utf8 name → m.2 = v

theorem has_iff : members.has name = true ↔ ∃ m ∈ members, m.1 = .utf8 name := by
  rw [has, Option.isSome_iff_ne_none, ne_eq, List.lookup_eq_none_iff]
  push Not
  constructor
  · rintro ⟨m, hm, heq⟩
    exact ⟨m, hm, (by simpa using heq : Text.utf8 name = m.1).symm⟩
  · rintro ⟨m, hm, heq⟩
    exact ⟨m, hm, by simpa using heq.symm⟩

theorem assigned_assign : Assigned (members.assign name v) name v := by
  rw [assign]
  split
  · next h =>
    obtain ⟨m, hm, heq⟩ := has_iff.mp h
    refine ⟨has_iff.mpr ⟨_, List.mem_map_of_mem hm, by simp [heq]⟩, fun m hm heq => ?_⟩
    obtain ⟨m', -, rfl⟩ := List.mem_map.mp hm
    split at heq
    · next hname => rw [if_pos hname]
    · next hname => exact absurd heq hname
  · next h =>
    refine ⟨has_iff.mpr ⟨_, List.mem_append_right _ (List.mem_singleton_self _), rfl⟩,
      fun m hm heq => ?_⟩
    rcases List.mem_append.mp hm with hm | hm
    · exact absurd (has_iff.mpr ⟨m, hm, heq⟩) h
    · rw [List.mem_singleton.mp hm]

/-- Assigning what is there changes nothing. -/
theorem Assigned.assign_eq (h : Assigned members name v) : members.assign name v = members := by
  rw [assign, if_pos h.1]
  refine (List.map_congr_left fun m hm => ?_).trans (List.map_id _)
  split
  · next heq => rw [← h.2 m hm heq, id]
  · rfl

theorem Assigned.assign (h : Assigned members name v) (hne : name ≠ other) :
    Assigned (members.assign other w) name v := by
  have hkey : Text.utf8 name ≠ .utf8 other := fun heq => hne (Text.utf8.inj heq)
  obtain ⟨m, hm, heq⟩ := has_iff.mp h.1
  rw [Fields.assign]
  split
  · refine ⟨has_iff.mpr ⟨_, List.mem_map_of_mem hm, by simp [heq, hkey]⟩, fun m hm heq => ?_⟩
    obtain ⟨m', hm', rfl⟩ := List.mem_map.mp hm
    split at heq
    · next hother => exact absurd (heq.symm.trans hother) hkey
    · next hother =>
      rw [if_neg hother]
      exact h.2 m' hm' heq
  · refine ⟨has_iff.mpr ⟨m, List.mem_append_left _ hm, heq⟩, fun m hm heq => ?_⟩
    rcases List.mem_append.mp hm with hm | hm
    · exact h.2 m hm heq
    · rw [List.mem_singleton.mp hm] at heq
      exact absurd heq.symm hkey

theorem Assigned.get (h : Assigned members name v) : members.get name = v := by
  obtain ⟨w, hw⟩ := Option.isSome_iff_exists.mp h.1
  have hmem : (Text.utf8 name, w) ∈ members := by
    obtain ⟨before, after, rfl, -⟩ := List.lookup_eq_some_iff.mp hw
    exact List.mem_append_right _ List.mem_cons_self
  rw [Fields.get, hw, Option.getD_some]
  exact h.2 _ hmem rfl

@[simp]
theorem get_assign : (members.assign name v).get name = v :=
  assigned_assign.get

@[simp]
theorem has_assign : (members.assign name v).has name = true :=
  assigned_assign.1

theorem lookup_assign_of_ne (hne : other ≠ name) :
    List.lookup (.utf8 other) (members.assign name v) = List.lookup (.utf8 other) members := by
  have hkey : (Text.utf8 other == .utf8 name) = false := by simpa using hne
  have hmap : ∀ ms : Fields, List.lookup (.utf8 other)
      (ms.map fun m => if m.1 = .utf8 name then (m.1, v) else m) = List.lookup (.utf8 other) ms := by
    intro ms
    induction ms with
    | nil => rfl
    | cons m ms ih =>
      rw [List.map_cons, List.lookup_cons, List.lookup_cons, ih]
      by_cases heq : m.1 = .utf8 name
      · rw [if_pos heq, heq, hkey]
      · rw [if_neg heq]
  rw [assign]
  split
  · exact hmap members
  · rw [List.lookup_append, List.lookup_cons, hkey]
    simp

theorem get_assign_of_ne (hne : other ≠ name) : (members.assign name v).get other = members.get other := by
  rw [get, get, lookup_assign_of_ne hne]

end Fields

namespace Json

variable (floatText : ℚ → List Char)

/-! ### Indented text -/

/-- A new line, indented by two spaces for each level. -/
def newline (level : ℕ) : List Char :=
  '\n' :: List.replicate (2 * level) ' '

mutual

/-- `json.dumps(value, indent=2)`, inside `level` containers. -/
def pretty (level : ℕ) : Json → List Char
  | .arr [] => ['[', ']']
  | .arr (x :: items) =>
    '[' :: newline (level + 1) ++ pretty (level + 1) x ++ prettyItems (level + 1) items ++
      newline level ++ [']']
  | .obj [] => ['\x7b', '\x7d']
  | .obj ((key, x) :: members) =>
    '\x7b' :: newline (level + 1) ++ encodeText key ++ [':', ' '] ++ pretty (level + 1) x ++
      prettyMembers (level + 1) members ++ newline level ++ ['\x7d']
  | .null => text floatText .null
  | .bool b => text floatText (.bool b)
  | .int n => text floatText (.int n)
  | .float x => text floatText (.float x)
  | .str t => text floatText (.str t)

/-- The items after the first. -/
def prettyItems (level : ℕ) : List Json → List Char
  | [] => []
  | x :: items => ',' :: newline level ++ pretty level x ++ prettyItems level items

/-- The members after the first. -/
def prettyMembers (level : ℕ) : List (Text × Json) → List Char
  | [] => []
  | (key, x) :: members =>
    ',' :: newline level ++ encodeText key ++ [':', ' '] ++ pretty level x ++
      prettyMembers level members

end

section Printable

variable {floatText}

theorem encodeText_printable (t : Text) : ∀ c ∈ encodeText t, 32 ≤ c.toNat := by
  rw [encodeText, List.forall_mem_cons, List.forall_mem_append]
  refine ⟨by decide, fun c hc => ?_, List.forall_mem_singleton.mpr (by decide)⟩
  obtain ⟨n, -, hn⟩ := List.mem_flatMap.mp hc
  by_cases h : n = 32
  · subst h
    rw [List.mem_singleton.mp hn]
    decide
  · have hgraphic := escapeCode_graphic h c hn
    omega

/-- The text of a value has no control characters. -/
theorem text_printable (h : PlainFloats floatText) (v : Json) :
    ∀ c ∈ text floatText v, 32 ≤ c.toNat := by
  induction v using Json.induct with
  | null => simp [text]
  | bool b => cases b <;> simp [text]
  | int n =>
    intro c hc
    have hgraphic := intText_graphic n c hc
    omega
  | float x =>
    intro c hc
    have hgraphic := floatRepr_graphic h x c hc
    omega
  | str s => exact encodeText_printable s
  | arr items ih =>
    rw [text_arr, List.forall_mem_cons, List.forall_mem_append]
    refine ⟨by decide, forall_mem_joined (by decide) ?_, List.forall_mem_singleton.mpr (by decide)⟩
    rw [List.forall_mem_map]
    exact ih
  | obj members ih =>
    rw [text_obj, List.forall_mem_cons, List.forall_mem_append]
    refine ⟨by decide, forall_mem_joined (by decide) ?_, List.forall_mem_singleton.mpr (by decide)⟩
    rw [List.forall_mem_map]
    intro m hm
    rw [List.forall_mem_append, List.forall_mem_cons]
    exact ⟨encodeText_printable m.1, by decide, ih m hm⟩

/-- A character of an indented text. -/
def Laid (c : Char) : Prop :=
  c = '\n' ∨ 32 ≤ c.toNat

theorem Laid.ne {c : Char} (h : Laid c) : c ≠ '\r' := by
  rintro rfl
  rcases h with h | h
  · cases h
  · exact absurd h (by decide)

theorem laid_newline (level : ℕ) : ∀ c ∈ newline level, Laid c := by
  rw [newline, List.forall_mem_cons]
  refine ⟨.inl rfl, fun c hc => .inr ?_⟩
  rw [List.eq_of_mem_replicate hc]
  decide

theorem laid_text (h : PlainFloats floatText) (v : Json) : ∀ c ∈ text floatText v, Laid c :=
  fun c hc => .inr (text_printable h v c hc)

theorem laid_key (t : Text) : ∀ c ∈ encodeText t, Laid c :=
  fun c hc => .inr (encodeText_printable t c hc)

mutual

/-- An indented text has no control characters but the line feed. -/
theorem laid_pretty (h : PlainFloats floatText) (level : ℕ) :
    (v : Json) → ∀ c ∈ pretty floatText level v, Laid c
  | .arr [] => by
    simp only [pretty, List.forall_mem_cons]
    exact ⟨.inr (by decide), .inr (by decide), List.forall_mem_nil _⟩
  | .arr (x :: items) => by
    simp only [pretty, List.cons_append, List.forall_mem_cons, List.forall_mem_append]
    exact ⟨.inr (by decide), ⟨⟨⟨laid_newline _, laid_pretty h _ x⟩, laid_prettyItems h _ items⟩,
      laid_newline _⟩, .inr (by decide), List.forall_mem_nil _⟩
  | .obj [] => by
    simp only [pretty, List.forall_mem_cons]
    exact ⟨.inr (by decide), .inr (by decide), List.forall_mem_nil _⟩
  | .obj ((key, x) :: members) => by
    simp only [pretty, List.cons_append, List.forall_mem_cons, List.forall_mem_append]
    exact ⟨.inr (by decide), ⟨⟨⟨⟨⟨laid_newline _, laid_key key⟩, .inr (by decide),
      .inr (by decide), List.forall_mem_nil _⟩, laid_pretty h _ x⟩,
      laid_prettyMembers h _ members⟩, laid_newline _⟩, .inr (by decide), List.forall_mem_nil _⟩
  | .null => laid_text h .null
  | .bool b => laid_text h (.bool b)
  | .int n => laid_text h (.int n)
  | .float x => laid_text h (.float x)
  | .str t => laid_text h (.str t)

theorem laid_prettyItems (h : PlainFloats floatText) (level : ℕ) :
    (items : List Json) → ∀ c ∈ prettyItems floatText level items, Laid c
  | [] => List.forall_mem_nil _
  | x :: items => by
    simp only [prettyItems, List.cons_append, List.forall_mem_cons, List.forall_mem_append]
    exact ⟨.inr (by decide), ⟨laid_newline _, laid_pretty h _ x⟩, laid_prettyItems h _ items⟩

theorem laid_prettyMembers (h : PlainFloats floatText) (level : ℕ) :
    (members : List (Text × Json)) → ∀ c ∈ prettyMembers floatText level members, Laid c
  | [] => List.forall_mem_nil _
  | (key, x) :: members => by
    simp only [prettyMembers, List.cons_append, List.forall_mem_cons, List.forall_mem_append]
    exact ⟨.inr (by decide), ⟨⟨⟨laid_newline _, laid_key key⟩, .inr (by decide),
      .inr (by decide), List.forall_mem_nil _⟩, laid_pretty h _ x⟩,
      laid_prettyMembers h _ members⟩

end

end Printable

end Json


end ControlPlaneKit
