import ControlPlaneKit.Server.Boundary

/-!
# Path templates

`_match_path_template`: a template is turned into a regular expression whose placeholders match
`[^/]+`, and `re.match` with a final `$` is applied to the path. A `$` also matches before a line feed
that ends the text, which shows where the last segment of a template is a literal
(`matchPathTemplate_iff`).
-/

namespace ControlPlaneKit

namespace Server

/-! ### The regular expression of a template -/

/-- `[A-Za-z_]`. -/
def isNameStart (c : Char) : Bool :=
  c.isAlpha || c == '_'

/-- `[A-Za-z0-9_]`. -/
def isNameCharacter (c : Char) : Bool :=
  c.isAlphanum || c == '_'

/-- A match of `\{([A-Za-z_][A-Za-z0-9_]*)\}` at the head of a text: its name. -/
def placeholder : List Char → Option (List Char)
  | '\x7b' :: rest =>
    let name := rest.takeWhile isNameCharacter
    if (name.head?.any isNameStart) && (rest.drop name.length).head? == some '\x7d' then some name
    else none
  | _ => none

/-- The pieces of a template from a position on, `skip` characters after the last match. -/
def piecesFrom : ℕ → List Char → List Piece
  | _, [] => []
  | skip + 1, _ :: rest => piecesFrom skip rest
  | 0, c :: rest =>
    match placeholder (c :: rest) with
    | some name => .parameter (String.ofList name) :: piecesFrom (name.length + 1) rest
    | none => .literal [c] :: piecesFrom 0 rest

/-- The regular expression of a template. The characters outside its placeholders stand for
themselves, which letters, digits, `-`, `_` and `/` do. -/
def pieces (template : List Char) : List Piece :=
  piecesFrom 0 template

/-- `dict(pairs)`. -/
def dict (pairs : List (String × String)) : List (String × String) :=
  pairs.foldl (fun d p =>
    if d.any fun q => q.1 == p.1 then d.map fun q => if q.1 = p.1 then p else q else d ++ [p]) []

/-- `_match_path_template`. -/
def matchPathTemplate (template path : List Char) : Option (List (String × String)) :=
  (matchPieces (pieces template) path).map dict

/-! ### Templates of segments -/

/-- A segment of a template. -/
inductive Segment where
  | literal (text : List Char)
  | placeholder (name : String)

/-- A letter, a digit, `-` or `_`. -/
def isLiteralCharacter (c : Char) : Bool :=
  c.isAlphanum || c == '-' || c == '_'

/-- The segment as it is written. -/
def Segment.text : Segment → List Char
  | .literal text => text
  | .placeholder name => '\x7b' :: name.toList ++ ['\x7d']

/-- The names a regular expression finds in the segment. -/
def Segment.name? : Segment → Option String
  | .literal _ => none
  | .placeholder name => some name

/-- A literal over letters, digits, `-` and `_`, or a placeholder with a name. -/
def Segment.WellFormed : Segment → Prop
  | .literal text => ∀ c ∈ text, isLiteralCharacter c = true
  | .placeholder name => name.toList.head?.any isNameStart = true ∧
      ∀ c ∈ name.toList, isNameCharacter c = true

/-- A template of segments with distinct names. -/
structure Template where
  /-- The segments. -/
  segments : List Segment
  /-- Each is a literal or a placeholder. -/
  wellFormed : ∀ s ∈ segments, s.WellFormed
  /-- No name occurs twice. -/
  distinct : (segments.filterMap Segment.name?).Nodup

/-- `"/".join(parts)`. -/
def joined (parts : List (List Char)) : List Char :=
  List.intercalate ['/'] parts

/-- The template as it is written. -/
def Template.text (template : Template) : List Char :=
  joined (template.segments.map Segment.text)

/-- The segment with its placeholder replaced. -/
def Segment.fill (m : List (String × String)) : Segment → List Char
  | .literal text => text
  | .placeholder name => ((m.lookup name).getD "").toList

/-- The path is the template with each placeholder replaced by its value in `m`, and the values are
nonempty and have no slash. -/
structure Template.Instance (template : Template) (path : List Char) (m : List (String × String)) :
    Prop where
  names : m.map (·.1) = template.segments.filterMap Segment.name?
  values : ∀ v ∈ m, v.2 ≠ "" ∧ '/' ∉ v.2.toList
  path : path = joined (template.segments.map (Segment.fill m))

/-- The last segment is no placeholder. -/
def Template.EndsLiteral (template : Template) : Prop :=
  ∀ name, template.segments.getLast? ≠ some (.placeholder name)

/-! ### The pieces of a template -/

section Pieces

variable {c : Char} {rest : List Char} {segments : List Segment}

/-- The pieces of a segment. -/
def Segment.pieces : Segment → List Piece
  | .literal text => text.map fun c => .literal [c]
  | .placeholder name => [.parameter name]

/-- The pieces of segments in a row. -/
def piecesOf : List Segment → List Piece
  | [] => []
  | [s] => s.pieces
  | s :: s' :: segments => s.pieces ++ .literal ['/'] :: piecesOf (s' :: segments)

theorem piecesFrom_skip (skip : ℕ) (text : List Char) (h : skip = text.length) :
    piecesFrom skip (text ++ rest) = piecesFrom 0 rest := by
  subst h
  induction text with
  | nil => rfl
  | cons c text ih => exact ih

theorem placeholder_of_ne (hc : c ≠ '\x7b') : placeholder (c :: rest) = none := by
  rw [placeholder]
  intro rest' h
  exact hc (List.cons.inj h).1

theorem piecesFrom_literal (hc : c ≠ '\x7b') :
    piecesFrom 0 (c :: rest) = .literal [c] :: piecesFrom 0 rest := by
  rw [piecesFrom, placeholder_of_ne hc]

theorem isLiteralCharacter_ne (hc : isLiteralCharacter c = true) : c ≠ '\x7b' := by
  rintro rfl
  exact absurd hc (by decide)

theorem piecesFrom_text {s : Segment} (hs : s.WellFormed) :
    piecesFrom 0 (s.text ++ rest) = s.pieces ++ piecesFrom 0 rest := by
  cases s with
  | literal text =>
    simp only [Segment.text, Segment.pieces]
    induction text with
    | nil => rfl
    | cons c text ih =>
      have hchars := List.forall_mem_cons.mp hs
      rw [List.cons_append, piecesFrom_literal (isLiteralCharacter_ne hchars.1), ih hchars.2]
      rfl
  | placeholder name =>
    obtain ⟨hstart, hname⟩ := hs
    have htake : (name.toList ++ '\x7d' :: rest).takeWhile isNameCharacter = name.toList := by
      rw [List.takeWhile_append_of_pos hname, List.takeWhile_cons_of_neg (by decide), List.append_nil]
    have hfound : placeholder ('\x7b' :: (name.toList ++ '\x7d' :: rest)) = some name.toList := by
      simp only [placeholder, htake, hstart, List.drop_left]
      rfl
    have htext : (Segment.placeholder name).text ++ rest =
        '\x7b' :: (name.toList ++ '\x7d' :: rest) := by
      simp [Segment.text]
    rw [htext, piecesFrom, hfound]
    simp only [Segment.pieces, String.ofList_toList]
    -- what the placeholder has matched is skipped one character at a time
    have hskip : piecesFrom (name.toList.length + 1) ((name.toList ++ ['\x7d']) ++ rest) =
        piecesFrom 0 rest := piecesFrom_skip _ _ (by simp)
    rw [List.append_assoc] at hskip
    exact congrArg _ hskip

theorem pieces_text (template : Template) : pieces template.text = piecesOf template.segments := by
  have hpieces : ∀ segments : List Segment, (∀ s ∈ segments, s.WellFormed) →
      piecesFrom 0 (joined (segments.map Segment.text)) = piecesOf segments := by
    intro segments
    induction segments with
    | nil => exact fun _ => rfl
    | cons s segments ih =>
      intro h
      obtain ⟨hs, hsegments⟩ := List.forall_mem_cons.mp h
      cases segments with
      | nil =>
        have hone : piecesFrom 0 (s.text ++ []) = s.pieces ++ piecesFrom 0 [] := piecesFrom_text hs
        simpa [joined, piecesOf, piecesFrom] using hone
      | cons s' segments =>
        have hjoined : joined ((s :: s' :: segments).map Segment.text) =
            s.text ++ '/' :: joined ((s' :: segments).map Segment.text) := by
          simp [joined, List.intercalate_cons_cons]
        rw [hjoined, piecesFrom_text hs, piecesFrom_literal (by decide), ih hsegments]
        rfl
  exact hpieces template.segments template.wellFormed

end Pieces

/-! ### Matching -/

section Matching

variable {rest : List Char} {pieces : List Piece} {m : List (String × String)}
  {segments : List Segment} {name : String}

theorem matchPieces_character (c : Char) : matchPieces (.literal [c] :: pieces) rest = some m ↔
    ∃ tail, rest = c :: tail ∧ matchPieces pieces tail = some m := by
  rw [matchPieces]
  cases rest with
  | nil => simp [List.isPrefixOf]
  | cons c' tail =>
    by_cases hc : c = c'
    · subst hc
      simp [List.isPrefixOf]
    · simp [List.isPrefixOf, hc, Ne.symm hc]

/-- A literal matches itself. -/
theorem matchPieces_literal (text : List Char) :
    matchPieces ((text.map fun c => .literal [c]) ++ pieces) rest = some m ↔
      ∃ tail, rest = text ++ tail ∧ matchPieces pieces tail = some m := by
  induction text generalizing rest with
  | nil => simp
  | cons c text ih =>
    rw [List.map_cons, List.cons_append, matchPieces_character]
    constructor
    · rintro ⟨tail, rfl, htail⟩
      obtain ⟨tail', rfl, hmatch⟩ := ih.mp htail
      exact ⟨tail', rfl, hmatch⟩
    · rintro ⟨tail, rfl, hmatch⟩
      exact ⟨text ++ tail, rfl, ih.mpr ⟨tail, rfl, hmatch⟩⟩

/-- What stands before the first slash, and the rest. -/
theorem exists_value (rest : List Char) : ∃ value tail, rest = value ++ tail ∧ '/' ∉ value ∧
    rest.takeWhile (· != '/') = value ∧ (tail = [] ∨ ∃ tail', tail = '/' :: tail') := by
  refine ⟨rest.takeWhile (· != '/'), rest.dropWhile (· != '/'), ?_, ?_, rfl, ?_⟩
  · exact List.takeWhile_append_dropWhile.symm
  · intro hmem
    simpa using List.all_eq_true.mp List.all_takeWhile _ hmem
  · cases hdrop : rest.dropWhile (· != '/') with
    | nil => exact .inl rfl
    | cons c tail =>
      have hhead := List.head_dropWhile_not (· != '/') (l := rest) (by simp [hdrop])
      simp only [hdrop, List.head_cons, bne_eq_false_iff_eq] at hhead
      exact .inr ⟨tail, by rw [hhead]⟩

/-- The attempts of a group: the longest one first, and the shorter ones after it. -/
theorem matchPieces_parameter (name : String) (pieces : List Piece) (rest : List Char) :
    matchPieces (.parameter name :: pieces) rest =
      ((List.range (rest.takeWhile (· != '/')).length).map
        ((rest.takeWhile (· != '/')).length - ·)).findSome? fun n =>
          (matchPieces pieces (rest.drop n)).map fun others =>
            (name, String.ofList (rest.take n)) :: others := by
  rw [matchPieces]

/-- The longest attempt succeeds. -/
theorem matchPieces_longest {value tail : List Char} {others : List (String × String)}
    (hlongest : (value ++ tail).takeWhile (· != '/') = value) (hne : value ≠ [])
    (h : matchPieces pieces tail = some others) :
    matchPieces (.parameter name :: pieces) (value ++ tail) =
      some ((name, String.ofList value) :: others) := by
  obtain ⟨k, hk⟩ : ∃ k, value.length = k + 1 :=
    Nat.exists_eq_succ_of_ne_zero (by simpa using hne)
  rw [matchPieces_parameter, hlongest, hk, List.range_succ_eq_map, List.map_cons, List.findSome?_cons,
    Nat.sub_zero, ← hk, List.drop_left, List.take_left, h]
  rfl

/-- No attempt succeeds. -/
theorem matchPieces_stuck {value tail : List Char}
    (hlongest : (value ++ tail).takeWhile (· != '/') = value)
    (h : ∀ n, 1 ≤ n → n ≤ value.length → matchPieces pieces (value.drop n ++ tail) = none) :
    matchPieces (.parameter name :: pieces) (value ++ tail) = none := by
  rw [matchPieces_parameter, hlongest, List.findSome?_eq_none_iff]
  intro n hn
  obtain ⟨k, hk, rfl⟩ := List.mem_map.mp hn
  rw [List.mem_range] at hk
  have hattempt := h (value.length - k) (by omega) (by omega)
  rw [List.drop_append_of_le_length (by omega), hattempt]
  rfl

/-- A placeholder at the end takes a rest without slashes. -/
theorem matchPieces_last : matchPieces [.parameter name] rest = some m ↔
    rest ≠ [] ∧ '/' ∉ rest ∧ m = [(name, String.ofList rest)] := by
  obtain ⟨value, tail, rfl, hvalue, hlongest, htail⟩ := exists_value rest
  rcases htail with rfl | ⟨tail, rfl⟩
  · by_cases hne : value = []
    · subst hne
      simp [matchPieces]
    · have hend : matchPieces [] [] = some [] := rfl
      rw [matchPieces_longest hlongest hne hend]
      simp [hne, hvalue, eq_comm]
  · have hstuck : ∀ n, 1 ≤ n → n ≤ value.length →
        matchPieces [] (value.drop n ++ '/' :: tail) = none := by
      intro n _ _
      have hslash : '/' ∈ value.drop n ++ '/' :: tail := by simp
      rw [matchPieces, if_neg]
      rintro (h | h)
      · simp [h] at hslash
      · rw [h] at hslash
        exact absurd hslash (by decide)
    rw [matchPieces_stuck hlongest hstuck]
    simp

/-- A placeholder before a slash takes what stands before the first slash. -/
theorem matchPieces_before : matchPieces (.parameter name :: .literal ['/'] :: pieces) rest = some m ↔
    ∃ value tail others, rest = value ++ '/' :: tail ∧ value ≠ [] ∧ '/' ∉ value ∧
      matchPieces pieces tail = some others ∧ m = (name, String.ofList value) :: others := by
  have hslash : ∀ {text : List Char} {others}, matchPieces (.literal ['/'] :: pieces) text = some others ↔
      ∃ tail, text = '/' :: tail ∧ matchPieces pieces tail = some others :=
    fun {text others} => matchPieces_character '/'
  have hnone : ∀ {text : List Char}, (∀ tail, text ≠ '/' :: tail) →
      matchPieces (.literal ['/'] :: pieces) text = none := by
    intro text htext
    rw [Option.eq_none_iff_forall_not_mem]
    intro others hothers
    obtain ⟨tail, rfl, -⟩ := hslash.mp hothers
    exact htext tail rfl
  obtain ⟨value, tail, rfl, hvalue, hlongest, htail⟩ := exists_value rest
  -- a shorter attempt goes on with a character other than a slash
  have hshorter : ∀ n, n < value.length →
      matchPieces (.literal ['/'] :: pieces) (value.drop n ++ tail) = none := by
    intro n hn
    refine hnone fun tail' h => hvalue ?_
    rw [List.drop_eq_getElem_cons hn] at h
    rw [← (List.cons.inj h).1]
    exact List.getElem_mem hn
  constructor
  · intro h
    cases hrest : matchPieces (.literal ['/'] :: pieces) tail with
    | none =>
      rw [matchPieces_stuck hlongest fun n hone hn => ?_] at h
      · cases h
      · rcases Nat.lt_or_eq_of_le hn with hlt | rfl
        · exact hshorter n hlt
        · rw [List.drop_length, List.nil_append, hrest]
    | some others =>
      by_cases hne : value = []
      · subst hne
        rw [matchPieces_stuck hlongest fun n hone hn => absurd hn (by simp; omega)] at h
        cases h
      · rw [matchPieces_longest hlongest hne hrest] at h
        obtain ⟨tail', rfl, hmatch⟩ := hslash.mp hrest
        exact ⟨value, tail', others, rfl, hne, hvalue, hmatch, (Option.some.inj h).symm⟩
  · rintro ⟨value', tail', others, hrest, hne, hvalue', hmatch, rfl⟩
    have hlongest' : (value' ++ '/' :: tail').takeWhile (· != '/') = value' := by
      rw [List.takeWhile_append_of_pos, List.takeWhile_cons_of_neg (by simp), List.append_nil]
      intro c hc
      exact bne_iff_ne.mpr fun h => hvalue' (h ▸ hc)
    rw [hrest]
    exact matchPieces_longest hlongest' hne (hslash.mpr ⟨tail', rfl, hmatch⟩)

/-- The parts that fill the segments, with the values of the placeholders. -/
inductive Fills : List Segment → List (String × String) → List (List Char) → Prop where
  | nil : Fills [] [] []
  | literal {segments m parts} (text : List Char) (h : Fills segments m parts) :
      Fills (.literal text :: segments) m (text :: parts)
  | placeholder {segments m parts} (name : String) {value : List Char} (hne : value ≠ [])
      (hvalue : '/' ∉ value) (h : Fills segments m parts) :
      Fills (.placeholder name :: segments) ((name, String.ofList value) :: m) (value :: parts)

/-- The end of the path: what is left is nothing, or a line feed after a literal. -/
def EndsAt (segments : List Segment) (path whole : List Char) : Prop :=
  path = whole ∨ (∀ name, segments.getLast? ≠ some (.placeholder name)) ∧ path = whole ++ ['\n']

theorem endsAt_cons {s s' : Segment} {front path whole : List Char} :
    EndsAt (s :: s' :: segments) (front ++ path) (front ++ whole) ↔
      EndsAt (s' :: segments) path whole := by
  rw [EndsAt, EndsAt, List.getLast?_cons_cons, List.append_assoc, List.append_right_inj,
    List.append_right_inj]

theorem joined_cons {part : List Char} {parts : List (List Char)} (h : parts ≠ []) :
    joined (part :: parts) = part ++ '/' :: joined parts := by
  rw [joined, List.intercalate_cons_of_ne_nil h, List.append_assoc]
  rfl

theorem Fills.ne_nil {s : Segment} {parts : List (List Char)} (h : Fills (s :: segments) m parts) :
    parts ≠ [] := by
  cases h <;> exact List.cons_ne_nil _ _

/-- **A path matches** the pieces of segments where its parts fill them, up to a last line feed. -/
theorem matchPieces_piecesOf : matchPieces (piecesOf segments) rest = some m ↔
    ∃ parts, Fills segments m parts ∧ EndsAt segments rest (joined parts) := by
  induction segments generalizing rest m with
  | nil =>
    rw [piecesOf, matchPieces]
    constructor
    · intro h
      split at h
      · rename_i hend
        cases h
        refine ⟨[], .nil, hend.imp_right fun hend => ⟨fun name => by simp, hend⟩⟩
      · cases h
    · rintro ⟨parts, hfills, hend⟩
      cases hfills
      exact if_pos (hend.imp_right (·.2))
  | cons s segments ih =>
    -- the last segment may stand before a line feed, the others stand before a slash
    cases segments with
    | nil =>
      cases s with
      | literal text =>
        have hlast : ∀ name, [Segment.literal text].getLast? ≠ some (.placeholder name) := by simp
        have hliteral : matchPieces ((text.map fun c => .literal [c]) ++ []) rest = some m ↔
            ∃ tail, rest = text ++ tail ∧ matchPieces [] tail = some m := matchPieces_literal text
        rw [List.append_nil] at hliteral
        refine hliteral.trans ⟨?_, ?_⟩
        · rintro ⟨tail, rfl, hend⟩
          obtain ⟨parts, hfills, hend⟩ := ih.mp hend
          cases hfills
          refine ⟨[text], .literal text .nil, ?_⟩
          rcases hend with rfl | ⟨-, rfl⟩
          · exact .inl (by simp [joined])
          · exact .inr ⟨hlast, by simp [joined]⟩
        · rintro ⟨parts, hfills, hend⟩
          cases hfills with
          | literal _ hnil =>
            cases hnil
            rcases hend with rfl | ⟨-, rfl⟩
            · exact ⟨[], by simp [joined], ih.mpr ⟨[], .nil, .inl rfl⟩⟩
            · exact ⟨['\n'], by simp [joined], ih.mpr ⟨[], .nil, .inr ⟨by simp, rfl⟩⟩⟩
      | placeholder name =>
        refine matchPieces_last.trans ⟨?_, ?_⟩
        · rintro ⟨hne, hvalue, rfl⟩
          exact ⟨[rest], .placeholder name hne hvalue .nil, .inl (by simp [joined])⟩
        · rintro ⟨parts, hfills, hend⟩
          cases hfills with
          | placeholder _ hne hvalue hnil =>
            cases hnil
            rcases hend with rfl | ⟨hlast, -⟩
            · simp only [joined, List.intercalate_singleton]
              exact ⟨hne, hvalue, trivial⟩
            · exact absurd rfl (hlast name)
    | cons s' segments =>
      cases s with
      | literal text =>
        refine (matchPieces_literal text).trans ⟨?_, ?_⟩
        · rintro ⟨tail, rfl, hmatch⟩
          obtain ⟨tail, rfl, hmatch⟩ := (matchPieces_character '/').mp hmatch
          obtain ⟨parts, hfills, hend⟩ := ih.mp hmatch
          refine ⟨text :: parts, .literal text hfills, ?_⟩
          rw [joined_cons hfills.ne_nil, List.append_cons, List.append_cons _ _ (joined parts)]
          exact endsAt_cons.mpr hend
        · rintro ⟨parts, hfills, hend⟩
          cases hfills with
          | @literal _ _ parts _ hfills =>
            rw [joined_cons hfills.ne_nil, List.append_cons] at hend
            obtain ⟨tail, rfl⟩ : ∃ tail, rest = (text ++ ['/']) ++ tail := by
              rcases hend with rfl | ⟨-, rfl⟩
              · exact ⟨_, rfl⟩
              · exact ⟨_, List.append_assoc _ _ _⟩
            refine ⟨'/' :: tail, by simp, (matchPieces_character '/').mpr ⟨tail, rfl, ?_⟩⟩
            exact ih.mpr ⟨parts, hfills, endsAt_cons.mp hend⟩
      | placeholder name =>
        refine matchPieces_before.trans ⟨?_, ?_⟩
        · rintro ⟨value, tail, others, rfl, hne, hvalue, hmatch, rfl⟩
          obtain ⟨parts, hfills, hend⟩ := ih.mp hmatch
          refine ⟨value :: parts, .placeholder name hne hvalue hfills, ?_⟩
          rw [joined_cons hfills.ne_nil, List.append_cons, List.append_cons _ _ (joined parts)]
          exact endsAt_cons.mpr hend
        · rintro ⟨parts, hfills, hend⟩
          cases hfills with
          | @placeholder _ others parts _ value hne hvalue hfills =>
            rw [joined_cons hfills.ne_nil, List.append_cons] at hend
            obtain ⟨tail, rfl⟩ : ∃ tail, rest = (value ++ ['/']) ++ tail := by
              rcases hend with rfl | ⟨-, rfl⟩
              · exact ⟨_, rfl⟩
              · exact ⟨_, List.append_assoc _ _ _⟩
            refine ⟨value, tail, others, by simp, hne, hvalue, ?_, rfl⟩
            exact ih.mpr ⟨parts, hfills, endsAt_cons.mp hend⟩

/-! ### Instances -/

theorem Fills.names {parts : List (List Char)} (h : Fills segments m parts) :
    m.map (·.1) = segments.filterMap Segment.name? := by
  induction h with
  | nil => rfl
  | literal text _ ih => exact ih
  | placeholder name _ _ _ ih => simp [Segment.name?, ih]

theorem Fills.values {parts : List (List Char)} (h : Fills segments m parts) :
    ∀ v ∈ m, v.2 ≠ "" ∧ '/' ∉ v.2.toList := by
  induction h with
  | nil => simp
  | literal text _ ih => exact ih
  | placeholder name hne hvalue _ ih =>
    refine List.forall_mem_cons.mpr ⟨⟨fun h => hne ?_, by simpa using hvalue⟩, ih⟩
    simpa using congrArg String.toList h

/-- The value of a name that does not occur does not matter. -/
theorem fill_of_notMem {value : String} (h : name ∉ segments.filterMap Segment.name?) :
    segments.map (Segment.fill ((name, value) :: m)) = segments.map (Segment.fill m) := by
  refine List.map_congr_left fun s hs => ?_
  cases s with
  | literal text => rfl
  | placeholder name' =>
    have hne : name' ≠ name := by
      rintro rfl
      exact h (List.mem_filterMap.mpr ⟨_, hs, rfl⟩)
    simp only [Segment.fill, List.lookup_cons, beq_eq_false_iff_ne.mpr hne]

/-- With distinct names, the parts are the filled segments. -/
theorem fills_iff (hdistinct : (segments.filterMap Segment.name?).Nodup) {parts : List (List Char)} :
    Fills segments m parts ↔ m.map (·.1) = segments.filterMap Segment.name? ∧
      (∀ v ∈ m, v.2 ≠ "" ∧ '/' ∉ v.2.toList) ∧ parts = segments.map (Segment.fill m) := by
  refine ⟨fun h => ⟨h.names, h.values, ?_⟩, ?_⟩
  · induction h with
    | nil => rfl
    | literal text _ ih => rw [List.map_cons, ← ih hdistinct, Segment.fill]
    | @placeholder _ _ _ name value _ _ _ ih =>
      -- the name is not filled a second time, so its value is not overwritten
      have hcons : name ∉ _ ∧ List.Nodup _ := List.nodup_cons.mp hdistinct
      rw [List.map_cons, fill_of_notMem hcons.1, ← ih hcons.2]
      simp [Segment.fill]
  · rintro ⟨hnames, hvalues, rfl⟩
    induction segments generalizing m with
    | nil =>
      cases List.map_eq_nil_iff.mp hnames
      exact .nil
    | cons s segments ih =>
      cases s with
      | literal text => exact .literal text (ih hdistinct hnames hvalues)
      | placeholder name =>
        have hcons : name ∉ _ ∧ List.Nodup _ := List.nodup_cons.mp hdistinct
        obtain ⟨v, m, rfl⟩ : ∃ v m', m = v :: m' := by
          cases m with
          | nil => simp [Segment.name?] at hnames
          | cons v m => exact ⟨v, m, rfl⟩
        obtain ⟨rfl, hothers⟩ : v.1 = name ∧ m.map (·.1) = segments.filterMap Segment.name? := by
          simpa [Segment.name?] using hnames
        obtain ⟨⟨hne, hvalue⟩, hvalues⟩ := List.forall_mem_cons.mp hvalues
        have hfills := ih hcons.2 hothers hvalues
        have hne' : v.2.toList ≠ [] := fun h => hne (by simpa using h)
        have hplaceholder := Fills.placeholder v.1 hne' hvalue hfills
        rw [String.ofList_toList] at hplaceholder
        have hvalue' : List.lookup v.1 (v :: m) = some v.2 := by
          rw [List.lookup_cons, beq_self_eq_true]
        rw [List.map_cons, fill_of_notMem hcons.1, Segment.fill, hvalue']
        exact hplaceholder

theorem dict_of_nodup (h : (m.map (·.1)).Nodup) : dict m = m := by
  have hfold : ∀ d : List (String × String), ((d ++ m).map (·.1)).Nodup →
      m.foldl (fun d p => if d.any fun q => q.1 == p.1 then
        d.map fun q => if q.1 = p.1 then p else q else d ++ [p]) d = d ++ m := by
    clear h
    induction m with
    | nil => simp
    | cons p m ih =>
      intro d hd
      have hnew : (d.any fun q => q.1 == p.1) = false := by
        rw [List.any_eq_false]
        intro q hq
        rw [List.map_append, List.map_cons] at hd
        have hne := (List.nodup_append.mp hd).2.2 q.1 (List.mem_map_of_mem hq) p.1 List.mem_cons_self
        simpa using hne
      rw [List.foldl_cons, hnew, if_neg Bool.false_ne_true, ih _ (by simpa using hd)]
      simp
  exact hfold [] h

end Matching

section Instances

variable {template : Template} {path : List Char} {m : List (String × String)}

/-- What `_match_path_template` returns for a template of segments. -/
theorem matchPathTemplate_text : matchPathTemplate template.text path = some m ↔
    ∃ whole, EndsAt template.segments path whole ∧ template.Instance whole m := by
  have hmatch : ∀ m', matchPieces (piecesOf template.segments) path = some m' ↔
      ∃ whole, EndsAt template.segments path whole ∧ template.Instance whole m' := by
    intro m'
    rw [matchPieces_piecesOf]
    constructor
    · rintro ⟨parts, hfills, hend⟩
      obtain ⟨hnames, hvalues, hparts⟩ := (fills_iff template.distinct).mp hfills
      exact ⟨joined parts, hend, hnames, hvalues, by rw [hparts]⟩
    · rintro ⟨whole, hend, hnames, hvalues, rfl⟩
      exact ⟨_, (fills_iff template.distinct).mpr ⟨hnames, hvalues, rfl⟩, hend⟩
  rw [matchPathTemplate, pieces_text]
  constructor
  · intro h
    obtain ⟨m', hm', rfl⟩ := Option.map_eq_some_iff.mp h
    obtain ⟨whole, hend, hinstance⟩ := (hmatch m').mp hm'
    rw [dict_of_nodup (hinstance.names ▸ template.distinct)]
    exact ⟨whole, hend, hinstance⟩
  · rintro ⟨whole, hend, hinstance⟩
    rw [(hmatch m).mpr ⟨whole, hend, hinstance⟩, Option.map_some,
      dict_of_nodup (hinstance.names ▸ template.distinct)]

/-- **A template matches exactly its instances**, except for a path that is an instance followed by a
line feed, where the last segment is a literal. -/
theorem matchPathTemplate_iff :
    (∀ m, matchPathTemplate template.text path = some m ↔ template.Instance path m) ↔
      ¬ (template.EndsLiteral ∧ ∃ whole m, path = whole ++ ['\n'] ∧ template.Instance whole m) := by
  constructor
  · rintro h ⟨hlast, whole, m, rfl, hinstance⟩
    have hmatched := matchPathTemplate_text.mpr ⟨whole, .inr ⟨hlast, rfl⟩, hinstance⟩
    have hpath := ((h m).mp hmatched).path
    rw [← hinstance.path] at hpath
    simp at hpath
  · intro h m
    rw [matchPathTemplate_text]
    constructor
    · rintro ⟨whole, rfl | ⟨hlast, rfl⟩, hinstance⟩
      · exact hinstance
      · exact absurd ⟨hlast, whole, m, rfl, hinstance⟩ h
    · exact fun hinstance => ⟨path, .inl rfl, hinstance⟩

end Instances

namespace Routed

/-- `/workspaces/active`. -/
def active : Template :=
  ⟨[.literal [], .literal "workspaces".toList, .literal "active".toList],
    by simp [Segment.WellFormed, isLiteralCharacter], by decide⟩

/-- **A path with a line feed at its end is matched** like the path without it. -/
theorem matchPathTemplate_lineFeed : ¬ ∀ (template : Template) (path : List Char)
    (m : List (String × String)),
    matchPathTemplate template.text path = some m ↔ template.Instance path m := by
  intro h
  have hmatched : matchPathTemplate active.text "/workspaces/active\n".toList = some [] := by decide +kernel
  have hpath := ((h active _ _).mp hmatched).path
  exact absurd hpath (by decide +kernel)

end Routed

end Server

end ControlPlaneKit
