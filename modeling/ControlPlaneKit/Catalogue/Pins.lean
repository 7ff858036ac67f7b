import ControlPlaneKit.Catalogue.Coordinates

/-!
# Pins

The archives of the three repositories are patterns that no two occurrences of which can overlap. So
`_replace_dependency_pins` leaves a text in which every pin reads the commit of the coordinates, and
replacing the pins of that text again changes nothing (`replaceDependencyPins_idempotent`).
-/

namespace ControlPlaneKit

namespace Catalogue

/-- No character is of both kinds. -/
def Atom.apart : Atom → Atom → Bool
  | .literal c, .literal d => c != d
  | .literal c, .hex => !Atom.hex.accepts c
  | .hex, .literal c => !Atom.hex.accepts c
  | .hex, .hex => false

theorem Atom.not_both {a b : Atom} (h : a.apart b = true) (x : Char) (ha : a.accepts x = true)
    (hb : b.accepts x = true) : False := by
  cases a with
  | literal c =>
    obtain rfl : x = c := by simpa [accepts] using ha
    cases b with
    | literal d =>
      obtain rfl : x = d := by simpa [accepts] using hb
      simp [apart] at h
    | hex =>
      rw [apart, hb] at h
      cases h
  | hex =>
    cases b with
    | literal d =>
      obtain rfl : x = d := by simpa [accepts] using hb
      rw [apart, ha] at h
      cases h
    | hex => cases h

/-- Two sequences of kinds that no text begins with. -/
def atomsApart (p q : List Atom) : Bool :=
  (List.zipWith Atom.apart p q).contains true

theorem apart_of_atoms {p q : List Atom} (h : atomsApart p q = true) :
    Substitute.Apart (p.map Atom.accepts) (q.map Atom.accepts) := by
  have hmem : true ∈ List.zipWith Atom.apart p q := List.contains_iff_mem.mp h
  obtain ⟨i, hi⟩ := List.mem_iff_getElem?.mp hmem
  obtain ⟨a, b, ha, hb, hab⟩ := List.getElem?_zipWith_eq_some.mp hi
  exact ⟨i, a.accepts, b.accepts, by rw [List.getElem?_map, ha]; rfl,
    by rw [List.getElem?_map, hb]; rfl, Atom.not_both hab⟩

/-- The repositories whose archives are pinned. -/
def pinnedRepositories : List String :=
  ["control-plane-kit", "control-plane-kit-interpreters", "control-plane-kit-secrets"]

/-- No archive begins inside another, or at the same place as one of another repository. -/
theorem archives_apart :
    (pinnedRepositories.all fun a => pinnedRepositories.all fun b =>
      (List.range (archiveAtoms a).length).all fun k =>
        (a == b && k == 0) || atomsApart ((archiveAtoms a).drop k) (archiveAtoms b)) = true := by
  decide +kernel

variable {a b : String} {c d : Commit}

theorem atomsApart_archives (ha : a ∈ pinnedRepositories) (hb : b ∈ pinnedRepositories) {k : ℕ}
    (hk : k < (archiveAtoms a).length) (hne : ¬ (a = b ∧ k = 0)) :
    atomsApart ((archiveAtoms a).drop k) (archiveAtoms b) = true := by
  have hall := archives_apart
  rw [List.all_eq_true] at hall
  have hinner := List.all_eq_true.mp (List.all_eq_true.mp (hall a ha) b hb) k (List.mem_range.mpr hk)
  rcases Bool.or_eq_true_iff.mp hinner with h | h
  · simp only [Bool.and_eq_true, beq_iff_eq] at h
    exact absurd h hne
  · exact h

theorem occurs_literals (cs : List Char) (p : List (Char → Bool)) (s : List Char) :
    Substitute.occurs ((cs.map Atom.literal).map Atom.accepts ++ p) (cs ++ s) =
      Substitute.occurs p s := by
  induction cs with
  | nil => rfl
  | cons x cs ih =>
    rw [List.map_cons, List.map_cons, List.cons_append, List.cons_append, Substitute.occurs, ih]
    simp [Atom.accepts]

theorem occurs_hex {cs : List Char} (h : ∀ x ∈ cs, Atom.hex.accepts x = true) (n : ℕ)
    (hn : cs.length = n) (p : List (Char → Bool)) (s : List Char) :
    Substitute.occurs ((List.replicate n Atom.hex).map Atom.accepts ++ p) (cs ++ s) =
      Substitute.occurs p s := by
  induction cs generalizing n with
  | nil =>
    subst hn
    rfl
  | cons x cs ih =>
    subst hn
    rw [List.forall_mem_cons] at h
    rw [List.length_cons, List.replicate_succ, List.map_cons, List.cons_append, List.cons_append,
      Substitute.occurs, ih h.2 _ rfl, h.1, Bool.true_and]

theorem length_chars (c : Commit) : c.chars.length = 40 := by
  have hhex := c.2
  rw [isLowerHex, Bool.and_eq_true, beq_iff_eq] at hhex
  rw [Commit.chars, List.length_map, hhex.1]

/-- The characters of a commit are hexadecimal. -/
theorem accepts_chars (c : Commit) : ∀ x ∈ c.chars, Atom.hex.accepts x = true := by
  have hhex := c.2
  rw [isLowerHex, Bool.and_eq_true, List.all_eq_true] at hhex
  intro x hx
  obtain ⟨n, hn, rfl⟩ := List.mem_map.mp hx
  have hchars : ∀ m < 103, (Char.ofNat m).toNat = m := by decide
  have hrange := hhex.2 n hn
  simp only [Bool.or_eq_true, decide_eq_true_eq] at hrange
  have hsame := hchars n (by omega)
  simpa [Atom.accepts, isLowerHex, hsame] using hrange

/-- The archive of a commit is an occurrence of the pattern. -/
theorem occurs_archive (a : String) (c : Commit) :
    Substitute.occurs ((archiveAtoms a).map Atom.accepts) (archive a c) = true := by
  have hzip := occurs_literals ".zip".toList [] []
  rw [List.append_nil, List.append_nil] at hzip
  rw [archiveAtoms, archive, List.map_append, List.map_append, List.append_assoc, List.append_assoc,
    occurs_literals, occurs_hex (accepts_chars c) 40 (length_chars c), hzip]
  rfl

theorem length_archive (a : String) (c : Commit) :
    (archive a c).length = ((archiveAtoms a).map Atom.accepts).length := by
  simp [archive, archiveAtoms, length_chars c]

theorem archiveAtoms_ne_nil (a : String) : (archiveAtoms a).map Atom.accepts ≠ [] := by
  have hlength : 0 < ((archiveAtoms a).map Atom.accepts).length := by
    rw [← length_archive a ⟨.utf8 "0000000000000000000000000000000000000000", by decide +kernel⟩]
    rw [archive, List.length_append]
    exact Nat.lt_add_left _ (by decide)
  exact List.ne_nil_of_length_pos hlength

/-- Every archive of the repository is that of the commit. -/
def Pinned (a : String) (c : Commit) (text : List Char) : Prop :=
  Substitute.Settled ((archiveAtoms a).map Atom.accepts) (archive a c) text

theorem pinned_replacePin (ha : a ∈ pinnedRepositories) (text : List Char) :
    Pinned a c (replacePin a c text) := by
  refine Substitute.settled_sub (archiveAtoms_ne_nil a) (occurs_archive a c) (length_archive a c)
    fun k hk hlength => ?_
  rw [← List.map_drop]
  rw [List.length_map] at hlength
  exact apart_of_atoms (atomsApart_archives ha ha hlength fun h => by omega)

theorem Pinned.keep {text : List Char} (h : Pinned a c text) (ha : a ∈ pinnedRepositories)
    (hb : b ∈ pinnedRepositories) (hne : a ≠ b) : Pinned a c (replacePin b d text) := by
  refine Substitute.Settled.sub h (archiveAtoms_ne_nil b) (occurs_archive b d) (length_archive b d)
    (length_archive a c) (fun k hk => ?_) fun k hk => ?_
  · rw [List.length_map] at hk
    rw [← List.map_drop]
    exact apart_of_atoms (atomsApart_archives ha hb hk fun h => hne h.1)
  · rw [List.length_map] at hk
    rw [← List.map_drop]
    exact (apart_of_atoms (atomsApart_archives hb ha hk fun h => hne h.1.symm)).symm

theorem Pinned.replacePin_eq {text : List Char} (h : Pinned a c text) : replacePin a c text = text :=
  Substitute.sub_eq_self (length_archive a c) (archiveAtoms_ne_nil a) h

/-- **Replacing the pins again changes nothing.** -/
theorem replaceDependencyPins_idempotent (upstreams : Upstreams) (text : List Char) :
    replaceDependencyPins upstreams (replaceDependencyPins upstreams text) =
      replaceDependencyPins upstreams text := by
  have hkit : "control-plane-kit" ∈ pinnedRepositories := by simp [pinnedRepositories]
  have hinterpreters : "control-plane-kit-interpreters" ∈ pinnedRepositories := by simp [pinnedRepositories]
  have hsecrets : "control-plane-kit-secrets" ∈ pinnedRepositories := by simp [pinnedRepositories]
  generalize hdone : replaceDependencyPins upstreams text = done
  rw [replaceDependencyPins] at hdone
  have hkitPinned : Pinned "control-plane-kit" upstreams.controlPlaneKitCommit done := by
    rw [← hdone]
    exact ((pinned_replacePin hkit text).keep hkit hinterpreters (by decide)).keep hkit
      hsecrets (by decide)
  have hinterpretersPinned : Pinned "control-plane-kit-interpreters"
      upstreams.controlPlaneKitInterpretersCommit done := by
    rw [← hdone]
    exact (pinned_replacePin hinterpreters _).keep hinterpreters hsecrets (by decide)
  have hsecretsPinned : Pinned "control-plane-kit-secrets"
      upstreams.controlPlaneKitSecretsCommit done := by
    rw [← hdone]
    exact pinned_replacePin hsecrets _
  rw [replaceDependencyPins, hkitPinned.replacePin_eq, hinterpretersPinned.replacePin_eq,
    hsecretsPinned.replacePin_eq]

/-- The pins bring no carriage return into a text. -/
theorem notMem_replaceDependencyPins {upstreams : Upstreams} {text : List Char} (h : '\r' ∉ text) :
    '\r' ∉ replaceDependencyPins upstreams text := by
  have harchive : ∀ a ∈ pinnedRepositories, ∀ c : Commit, '\r' ∉ archive a c := by
    intro a ha c hmem
    have hliterals : ∀ a ∈ pinnedRepositories, '\r' ∉ archivePrefix a ∧ '\r' ∉ ".zip".toList := by
      decide +kernel
    rw [archive, List.mem_append, List.mem_append] at hmem
    rcases hmem with (hmem | hmem) | hmem
    · exact (hliterals a ha).1 hmem
    · have hhex := accepts_chars c _ hmem
      exact absurd hhex (by decide)
    · exact (hliterals a ha).2 hmem
  have hpin : ∀ a ∈ pinnedRepositories, ∀ c text, '\r' ∉ text → '\r' ∉ replacePin a c text :=
    fun a ha c text htext hmem => (Substitute.mem_sub hmem).elim (harchive a ha c) htext
  exact hpin _ (by simp [pinnedRepositories]) _ _ (hpin _ (by simp [pinnedRepositories]) _ _
    (hpin _ (by simp [pinnedRepositories]) _ _ h))

end Catalogue

end ControlPlaneKit
