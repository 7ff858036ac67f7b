import ControlPlaneKit.Python.Loads

/-!
# Indented JSON read back

`json.loads` of what `json.dumps` writes with an indentation is the value that was written, for values
of strings, lists and objects whose strings are such as the scanner returns.
-/

namespace ControlPlaneKit

namespace Scan

/-- A decoded value of strings, lists and objects, nested at most so deep. -/
inductive Writable : ℕ → Json → Prop where
  | str {depth : ℕ} {t : Text} (ht : IsScanned t) : Writable depth (.str t)
  | arr {depth : ℕ} {items : List Json} (hitems : ∀ v ∈ items, Writable depth v) :
      Writable (depth + 1) (.arr items)
  | obj {depth : ℕ} {members : Fields} (hkeys : (members.map (·.1)).Nodup)
      (hnames : ∀ m ∈ members, IsScanned m.1) (hvalues : ∀ m ∈ members, Writable depth m.2) :
      Writable (depth + 1) (.obj members)

section Blanks

variable {c : Char} {cs : List Char}

theorem skipBlank_cons (h : isBlank c = false) : skipBlank (c :: cs) = c :: cs := by
  rw [skipBlank, List.dropWhile_cons, if_neg (by simp [h])]

theorem skipBlank_newline (level : ℕ) : skipBlank (Json.newline level ++ cs) = skipBlank cs := by
  have hspaces : ∀ n, skipBlank (List.replicate n ' ' ++ cs) = skipBlank cs := by
    intro n
    induction n with
    | zero => rfl
    | succ n ih => exact ih
  exact hspaces _

end Blanks

section Pretty

variable {floatText : ℚ → List Char} {scan : List Char → Except LoadsError (Json × List Char)}
  {depth level outer rounds : ℕ} {v x : Json} {items : List Json} {members found : Fields} {key : Text}
  {rest : List Char}

/-- The text starts with a character that is neither blank nor a closing bracket. -/
theorem Writable.starts (h : Writable depth v) (floatText : ℚ → List Char) (level : ℕ) :
    ∃ c cs, Json.pretty floatText level v = c :: cs ∧
      isBlank c = false ∧ c ≠ ']' ∧ c ≠ '}' ∧ c ≠ Char.ofNat 65279 := by
  cases h with
  | str ht => exact ⟨'"', _, rfl, by decide⟩
  | @arr _ items hitems =>
    cases items with
    | nil => exact ⟨'[', _, rfl, by decide⟩
    | cons x items => exact ⟨'[', _, rfl, by decide⟩
  | @obj _ members hkeys hnames hvalues =>
    cases members with
    | nil => exact ⟨'\x7b', _, rfl, by decide⟩
    | cons m members => exact ⟨'\x7b', _, rfl, by decide⟩

theorem Writable.skipBlank_pretty (h : Writable depth v) :
    skipBlank (Json.pretty floatText level v ++ rest) = Json.pretty floatText level v ++ rest := by
  obtain ⟨c, cs, heq, hblank, -⟩ := h.starts floatText level
  rw [heq, List.cons_append, skipBlank_cons hblank]

theorem scanItems_last {cs cs₁ cs₂ : List Char} (hv : scan cs = .ok (v, cs₁))
    (hend : skipBlank cs₁ = ']' :: cs₂) : scanItems scan (rounds + 1) cs = .ok ([v], cs₂) := by
  simp only [scanItems, hv, hend]

theorem scanItems_more {cs cs₁ cs₂ : List Char} (hv : scan cs = .ok (v, cs₁))
    (hmore : skipBlank cs₁ = ',' :: cs₂) : scanItems scan (rounds + 1) cs =
      (scanItems scan rounds (skipBlank cs₂)).map fun r => (v :: r.1, r.2) := by
  simp only [scanItems, hv, hmore]

/-- The loop over the items reads an indented list. -/
theorem scanItems_pretty
    (hscan : ∀ v ∈ x :: items, ∀ rest, scan (Json.pretty floatText level v ++ rest) = .ok (v, rest))
    (hitems : ∀ v ∈ items, Writable depth v) (hrounds : items.length < rounds) :
    scanItems scan rounds (Json.pretty floatText level x ++
      (Json.prettyItems floatText level items ++ (Json.newline outer ++ ']' :: rest))) =
        .ok (x :: items, rest) := by
  induction items generalizing x rounds with
  | nil =>
    obtain ⟨rounds, rfl⟩ := Nat.exists_eq_add_of_lt hrounds
    refine scanItems_last (hscan x List.mem_cons_self _) ?_
    rw [Json.prettyItems, List.nil_append, skipBlank_newline, skipBlank_cons (by decide)]
  | cons y items ih =>
    obtain ⟨rounds, rfl⟩ := Nat.exists_eq_add_of_lt hrounds
    rw [List.forall_mem_cons] at hscan hitems
    have hcomma : skipBlank (Json.prettyItems floatText level (y :: items) ++
        (Json.newline outer ++ ']' :: rest)) = ',' :: (Json.newline level ++
          (Json.pretty floatText level y ++ (Json.prettyItems floatText level items ++
            (Json.newline outer ++ ']' :: rest)))) := by
      rw [Json.prettyItems]
      simp only [List.cons_append, List.append_assoc]
      exact skipBlank_cons (by decide)
    rw [scanItems_more (hscan.1 _) hcomma, skipBlank_newline, hitems.1.skipBlank_pretty,
      ih hscan.2 hitems.2 (by simp; omega)]
    rfl

/-! ### Members read back -/

theorem store_new (h : key ∉ members.map (·.1)) : store members key v = members ++ [(key, v)] :=
  if_neg h

theorem scanMembers_last {cs cs₁ cs₂ cs₃ cs₄ : List Char} (hkey : scanText cs = .ok (key, cs₁))
    (hcolon : skipBlank cs₁ = ':' :: cs₂) (hv : scan (skipBlank cs₂) = .ok (v, cs₃))
    (hend : skipBlank cs₃ = '\x7d' :: cs₄) :
    scanMembers scan (rounds + 1) found ('"' :: cs) = .ok (store found key v, cs₄) := by
  simp only [scanMembers, hkey, hcolon, hv, hend]

theorem scanMembers_more {cs cs₁ cs₂ cs₃ cs₄ : List Char} (hkey : scanText cs = .ok (key, cs₁))
    (hcolon : skipBlank cs₁ = ':' :: cs₂) (hv : scan (skipBlank cs₂) = .ok (v, cs₃))
    (hmore : skipBlank cs₃ = ',' :: cs₄) : scanMembers scan (rounds + 1) found ('"' :: cs) =
      scanMembers scan rounds (store found key v) (skipBlank cs₄) := by
  simp only [scanMembers, hkey, hcolon, hv, hmore]

/-- The text of a member. -/
def memberText (floatText : ℚ → List Char) (level : ℕ) (key : Text) (x : Json) : List Char :=
  Json.encodeText key ++ [':', ' '] ++ Json.pretty floatText level x

/-- The loop over the members reads an indented object. -/
theorem scanMembers_pretty
    (hscan : ∀ m ∈ (key, x) :: members, ∀ rest,
      scan (Json.pretty floatText level m.2 ++ rest) = .ok (m.2, rest))
    (hnames : ∀ m ∈ (key, x) :: members, IsScanned m.1)
    (hvalues : ∀ m ∈ (key, x) :: members, Writable depth m.2)
    (hkeys : ((found ++ (key, x) :: members).map (·.1)).Nodup) (hrounds : members.length < rounds) :
    scanMembers scan rounds found (memberText floatText level key x ++
      (Json.prettyMembers floatText level members ++ (Json.newline outer ++ '\x7d' :: rest))) =
        .ok (found ++ (key, x) :: members, rest) := by
  have htext : ∀ {key : Text} {x : Json} {tail : List Char}, memberText floatText level key x ++ tail =
      '"' :: (key.codes.flatMap Json.escapeCode ++
        '"' :: (':' :: ' ' :: (Json.pretty floatText level x ++ tail))) := by
    intro key x tail
    simp [memberText, Json.encodeText]
  have hcolon : ∀ cs, skipBlank (':' :: cs) = ':' :: cs := fun cs => skipBlank_cons (by decide)
  have hvalue : ∀ {m : Text × Json} {tail : List Char}, Writable depth m.2 →
      (∀ rest, scan (Json.pretty floatText level m.2 ++ rest) = .ok (m.2, rest)) →
      scan (skipBlank (' ' :: (Json.pretty floatText level m.2 ++ tail))) = .ok (m.2, tail) := by
    intro m tail hm hscan
    rw [show skipBlank (' ' :: (Json.pretty floatText level m.2 ++ tail)) =
      skipBlank (Json.pretty floatText level m.2 ++ tail) from rfl, hm.skipBlank_pretty, hscan]
  induction members generalizing key x rounds found with
  | nil =>
    obtain ⟨rounds, rfl⟩ := Nat.exists_eq_add_of_lt hrounds
    rw [List.forall_mem_singleton] at hscan hnames hvalues
    have hnew : key ∉ found.map (·.1) := by
      rw [List.map_append, List.nodup_append'] at hkeys
      exact fun h => hkeys.2.2 h List.mem_cons_self
    have hend : skipBlank (Json.prettyMembers floatText level [] ++
        (Json.newline outer ++ '\x7d' :: rest)) = '\x7d' :: rest := by
      rw [Json.prettyMembers, List.nil_append, skipBlank_newline, skipBlank_cons (by decide)]
    rw [htext, scanMembers_last (scanText_encoded hnames) (hcolon _) (hvalue hvalues hscan) hend,
      store_new hnew]
  | cons m members ih =>
    obtain ⟨key', y⟩ := m
    obtain ⟨rounds, rfl⟩ := Nat.exists_eq_add_of_lt hrounds
    rw [List.forall_mem_cons] at hscan hnames hvalues
    have hnew : key ∉ found.map (·.1) := by
      rw [List.map_append, List.nodup_append'] at hkeys
      exact fun h => hkeys.2.2 h List.mem_cons_self
    have hcomma : skipBlank (Json.prettyMembers floatText level ((key', y) :: members) ++
        (Json.newline outer ++ '\x7d' :: rest)) = ',' :: (Json.newline level ++
          (memberText floatText level key' y ++ (Json.prettyMembers floatText level members ++
            (Json.newline outer ++ '\x7d' :: rest)))) := by
      rw [Json.prettyMembers, memberText]
      simp only [List.cons_append, List.append_assoc]
      exact skipBlank_cons (by decide)
    have hquote : ∀ tail, skipBlank (memberText floatText level key' y ++ tail) =
        memberText floatText level key' y ++ tail := fun tail => by
      rw [htext, skipBlank_cons (by decide)]
    rw [htext, scanMembers_more (scanText_encoded hnames.1) (hcolon _) (hvalue hvalues.1 hscan.1)
      hcomma, store_new hnew, skipBlank_newline, hquote,
      ih hscan.2 hnames.2 hvalues.2 (by simpa using hkeys) (by simp; omega)]
    simp

theorem scanOnce_items {ip : Interpreter} {c : Char} {cs cs₁ : List Char}
    (h : skipBlank cs = c :: cs₁) (hc : c ≠ ']') : scanOnce ip (depth + 1) ('[' :: cs) =
      (scanItems (scanOnce ip depth) (c :: cs₁).length (c :: cs₁)).map fun r => (.arr r.1, r.2) := by
  rw [scanOnce.eq_def]
  simp only [h]
  split
  · next heq => exact absurd (List.cons.inj heq).1 hc
  · rfl

theorem scanOnce_members {ip : Interpreter} {c : Char} {cs cs₁ : List Char}
    (h : skipBlank cs = c :: cs₁) (hc : c ≠ '\x7d') : scanOnce ip (depth + 1) ('\x7b' :: cs) =
      (scanMembers (scanOnce ip depth) (c :: cs₁).length [] (c :: cs₁)).map fun r =>
        (.obj r.1, r.2) := by
  rw [scanOnce.eq_def]
  simp only [h]
  split
  · next heq => exact absurd (List.cons.inj heq).1 hc
  · rfl

theorem length_prettyItems : items.length ≤ (Json.prettyItems floatText level items).length := by
  induction items with
  | nil => exact le_rfl
  | cons x items ih =>
    simp only [Json.prettyItems, List.length_append, List.length_cons]
    omega

theorem length_prettyMembers :
    members.length ≤ (Json.prettyMembers floatText level members).length := by
  induction members with
  | nil => exact le_rfl
  | cons m members ih =>
    obtain ⟨key, x⟩ := m
    simp only [Json.prettyMembers, List.length_append, List.length_cons]
    omega

/-- **A written value is read back.** -/
theorem scanOnce_pretty {ip : Interpreter} (h : Writable depth v) :
    scanOnce ip depth (Json.pretty floatText level v ++ rest) = .ok (v, rest) := by
  induction h generalizing level rest with
  | @str depth t ht =>
    have htext : Json.pretty floatText level (.str t) ++ rest =
        '"' :: (t.codes.flatMap Json.escapeCode ++ '"' :: rest) := by
      simp [Json.pretty, Json.text, Json.encodeText]
    rw [htext, scanOnce.eq_def]
    simp only [scanText_encoded ht]
    rfl
  | @arr depth items hitems ih =>
    cases items with
    | nil => rfl
    | cons x items =>
      have htext : Json.pretty floatText level (.arr (x :: items)) ++ rest =
          '[' :: (Json.newline (level + 1) ++ (Json.pretty floatText (level + 1) x ++
            (Json.prettyItems floatText (level + 1) items ++ (Json.newline level ++ ']' :: rest)))) := by
        simp [Json.pretty]
      have hx := hitems x List.mem_cons_self
      obtain ⟨c, cs, hstart, hblank, hc, -⟩ := hx.starts floatText (level + 1)
      -- behind the line break stands the first item, which starts with no blank
      have hskip : skipBlank (Json.newline (level + 1) ++ (Json.pretty floatText (level + 1) x ++
          (Json.prettyItems floatText (level + 1) items ++ (Json.newline level ++ ']' :: rest)))) =
            c :: (cs ++ (Json.prettyItems floatText (level + 1) items ++
              (Json.newline level ++ ']' :: rest))) := by
        rw [skipBlank_newline, hx.skipBlank_pretty, hstart, List.cons_append]
      have hback : c :: (cs ++ (Json.prettyItems floatText (level + 1) items ++
          (Json.newline level ++ ']' :: rest))) = Json.pretty floatText (level + 1) x ++
            (Json.prettyItems floatText (level + 1) items ++ (Json.newline level ++ ']' :: rest)) := by
        rw [hstart, List.cons_append]
      have hlength : items.length ≤ (Json.prettyItems floatText (level + 1) items).length :=
        length_prettyItems
      rw [htext, scanOnce_items hskip hc, hback, scanItems_pretty (fun v hv rest => ih v hv)
        (fun v hv => hitems v (List.mem_cons_of_mem _ hv))]
      · rfl
      · simp only [List.length_append, List.length_cons]
        omega
  | @obj depth members hkeys hnames hvalues ih =>
    cases members with
    | nil => rfl
    | cons m members =>
      obtain ⟨key, x⟩ := m
      have htext : Json.pretty floatText level (.obj ((key, x) :: members)) ++ rest =
          '\x7b' :: (Json.newline (level + 1) ++ (memberText floatText (level + 1) key x ++
            (Json.prettyMembers floatText (level + 1) members ++
              (Json.newline level ++ '\x7d' :: rest)))) := by
        simp [Json.pretty, memberText]
      -- behind the line break stands the quote of the first key
      obtain ⟨cs, hstart⟩ : ∃ cs, memberText floatText (level + 1) key x ++
          (Json.prettyMembers floatText (level + 1) members ++
            (Json.newline level ++ '\x7d' :: rest)) = '"' :: cs := ⟨_, rfl⟩
      have hskip : skipBlank (Json.newline (level + 1) ++ (memberText floatText (level + 1) key x ++
          (Json.prettyMembers floatText (level + 1) members ++
            (Json.newline level ++ '\x7d' :: rest)))) = '"' :: cs := by
        rw [skipBlank_newline, hstart, skipBlank_cons (by decide)]
      have hlength : members.length ≤ (Json.prettyMembers floatText (level + 1) members).length :=
        length_prettyMembers
      rw [htext, scanOnce_members hskip (by decide), ← hstart,
        scanMembers_pretty (fun m hm rest => ih m hm) hnames hvalues (by simpa using hkeys)]
      · rfl
      · simp only [List.length_append, List.length_cons]
        omega

end Pretty

section Depth

variable {depth : ℕ} {v : Json}

theorem Writable.mono {depth' : ℕ} (h : Writable depth v) (hle : depth ≤ depth') :
    Writable depth' v := by
  induction h generalizing depth' with
  | str ht => exact .str ht
  | arr _ ih =>
    obtain ⟨depth', rfl⟩ := Nat.exists_eq_add_of_lt hle
    exact .arr fun v hv => ih v hv (by omega)
  | obj hkeys hnames _ ih =>
    obtain ⟨depth', rfl⟩ := Nat.exists_eq_add_of_lt hle
    exact .obj hkeys hnames fun m hm => ih m hm (by omega)

/-- Sorting the members leaves a value such as it was. -/
theorem Writable.sorted (h : Writable depth v) : Writable depth v.sorted := by
  induction h with
  | str ht => exact .str ht
  | arr _ ih =>
    rw [Json.sorted_arr]
    refine .arr ?_
    rw [List.forall_mem_map]
    exact ih
  | @obj depth members hkeys hnames _ ih =>
    rw [Json.sorted_obj]
    have hperm := List.mergeSort_perm (members.map fun m => (m.1, m.2.sorted))
      fun a b => a.1.le b.1
    refine .obj ?_ ?_ ?_
    · rw [(hperm.map _).nodup_iff, List.map_map]
      exact hkeys
    · intro m hm
      obtain ⟨m', hm', rfl⟩ := Json.mem_sorted_members.mp hm
      exact hnames m' hm'
    · intro m hm
      obtain ⟨m', hm', rfl⟩ := Json.mem_sorted_members.mp hm
      exact ih m' hm'

/-- The text of a value without numbers does not depend on how floats are written. -/
theorem Writable.pretty_congr (h : Writable depth v) (f g : ℚ → List Char) (level : ℕ) :
    v.pretty f level = v.pretty g level := by
  induction h generalizing level with
  | str ht => rfl
  | @arr depth items _ ih =>
    have hitems : ∀ level, ∀ xs ⊆ items, Json.prettyItems f level xs = Json.prettyItems g level xs := by
      intro level xs hxs
      induction xs with
      | nil => rfl
      | cons x xs ih' =>
        rw [List.cons_subset] at hxs
        rw [Json.prettyItems, Json.prettyItems, ih x hxs.1, ih' hxs.2]
    cases items with
    | nil => rfl
    | cons x items =>
      rw [Json.pretty, Json.pretty, ih x List.mem_cons_self,
        hitems _ items (List.subset_cons_self x items)]
  | @obj depth members _ _ _ ih =>
    have hmembers : ∀ level, ∀ ms ⊆ members,
        Json.prettyMembers f level ms = Json.prettyMembers g level ms := by
      intro level ms hms
      induction ms with
      | nil => rfl
      | cons m ms ih' =>
        rw [List.cons_subset] at hms
        obtain ⟨key, x⟩ := m
        rw [Json.prettyMembers, Json.prettyMembers, ih (key, x) hms.1, ih' hms.2]
    cases members with
    | nil => rfl
    | cons m members =>
      obtain ⟨key, x⟩ := m
      rw [Json.pretty, Json.pretty, ih (key, x) List.mem_cons_self,
        hmembers _ members (List.subset_cons_self _ members)]

/-- The text of a value without numbers has no control characters but the line feed. -/
theorem Writable.laid (h : Writable depth v) (floatText : ℚ → List Char) (level : ℕ) :
    ∀ c ∈ v.pretty floatText level, Json.Laid c := by
  have hplain : Json.PlainFloats fun _ => [] := fun _ => List.forall_mem_nil _
  rw [h.pretty_congr floatText (fun _ => []) level]
  exact Json.laid_pretty hplain level v

/-- A string without surrogates is one that the scanner returns. -/
theorem isScanned_utf8 (s : String) : IsScanned (.utf8 s) := by
  have hvalid : ∀ n ∈ (Text.utf8 s).codes, n < 55296 ∨ 57343 < n ∧ n < 1114112 := by
    intro n hn
    obtain ⟨c, -, rfl⟩ := List.mem_map.mp hn
    exact c.valid
  have hall : (Text.utf8 s).codes.all (fun n => decide n.isValidChar) = true := by
    rw [List.all_eq_true]
    exact fun n hn => decide_eq_true (hvalid n hn)
  refine ⟨(Text.utf8 s).codes, ⟨fun n hn => ?_, ?_⟩, ?_⟩
  · have := hvalid n hn
    omega
  · rw [List.isChain_iff_forall_rel_of_append_cons_cons]
    rintro m n before after heq ⟨⟨hm, hm'⟩, -⟩
    have := hvalid m (heq ▸ List.mem_append_right _ List.mem_cons_self)
    omega
  · have hback : (s.toList.map Char.toNat).map Char.ofNat = s.toList := by
      rw [List.map_map]
      exact (List.map_congr_left fun c _ => Char.ofNat_toNat c).trans (List.map_id _)
    rw [Text.ofCodes, if_pos hall, Text.codes, hback, String.ofList_toList]

end Depth

end Scan

section Loads

variable {ip : Interpreter} {v : Json}

/-- **The indented text of a value is read back.** -/
theorem Interpreter.loads_pretty {floatText : ℚ → List Char} (h : Scan.Writable 3 v) :
    ip.loads (v.pretty floatText 0 ++ ['\n']) = .ok v := by
  have hw : Scan.Writable ip.depthLimit v := h.mono ip.nests
  obtain ⟨c, cs, hstart, -, -, -, hmark⟩ := hw.starts floatText 0
  have hmark : (v.pretty floatText 0 ++ ['\n']).head? ≠ some (Char.ofNat 65279) := by
    rw [hstart]
    exact fun heq => hmark (Option.some.inj heq)
  rw [loads, if_neg hmark, hw.skipBlank_pretty, Scan.scanOnce_pretty hw]
  rfl

end Loads

end ControlPlaneKit
