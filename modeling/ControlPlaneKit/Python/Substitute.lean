import Mathlib.Data.List.Basic
import Mathlib.Data.List.Infix

/-!
# Substitution of a pattern of fixed width

`re.sub` for a pattern that is a sequence of character classes: the text is scanned from the left,
and each occurrence found is replaced. Where the replacement is itself an occurrence, and no two
occurrences can overlap, every occurrence in the result reads the replacement (`settled_sub`), a
second substitution changes nothing (`sub_eq_self`), and a substitution of another pattern that
cannot overlap the first keeps the occurrences of the first (`Settled.sub`).
-/

namespace ControlPlaneKit

namespace Substitute

variable {α : Type}

/-- The text begins with the pattern. -/
def occurs : List (α → Bool) → List α → Bool
  | [], _ => true
  | _ :: _, [] => false
  | a :: p, x :: s => a x && occurs p s

/-- The scan of `re.sub`, with the number of characters still to be dropped. -/
def subFrom (p : List (α → Bool)) (r : List α) : ℕ → List α → List α
  | _, [] => []
  | skip + 1, _ :: s => subFrom p r skip s
  | 0, x :: s =>
    if occurs p (x :: s) then r ++ subFrom p r (p.length - 1) s
    else x :: subFrom p r 0 s

/-- `re.sub(pattern, replacement, text)`. -/
def sub (p : List (α → Bool)) (r : List α) (text : List α) : List α :=
  subFrom p r 0 text

/-- Two patterns of which no text begins with both. -/
def Apart (p q : List (α → Bool)) : Prop :=
  ∃ (i : ℕ) (a b : α → Bool), p[i]? = some a ∧ q[i]? = some b ∧
    ∀ x, a x = true → b x = true → False

/-- Every occurrence of the pattern reads `r`. -/
def Settled (p : List (α → Bool)) (r : List α) (text : List α) : Prop :=
  ∀ s, s <:+ text → occurs p s = true → r <+: s

section Occurs

variable {p q : List (α → Bool)} {r s t : List α}

theorem occurs_getElem? (h : occurs p s = true) {i : ℕ} {a : α → Bool} (ha : p[i]? = some a) :
    ∃ x, s[i]? = some x ∧ a x = true := by
  induction p generalizing s i with
  | nil => simp at ha
  | cons b p ih =>
    cases s with
    | nil => simp [occurs] at h
    | cons x s =>
      obtain ⟨hx, hs⟩ : b x = true ∧ occurs p s = true := by simpa [occurs] using h
      cases i with
      | zero =>
        obtain rfl : b = a := by simpa using ha
        exact ⟨x, rfl, hx⟩
      | succ i => exact ih hs (by simpa using ha)

theorem Apart.symm (h : Apart p q) : Apart q p := by
  obtain ⟨i, a, b, ha, hb, hab⟩ := h
  exact ⟨i, b, a, hb, ha, fun x hx hy => hab x hy hx⟩

theorem Apart.elim (h : Apart p q) (hp : occurs p s = true) (hq : occurs q s = true) : False := by
  obtain ⟨i, a, b, ha, hb, hab⟩ := h
  obtain ⟨x, hx, hax⟩ := occurs_getElem? hp ha
  obtain ⟨y, hy, hby⟩ := occurs_getElem? hq hb
  obtain rfl : x = y := Option.some.inj (hx.symm.trans hy)
  exact hab x hax hby

theorem length_le_of_occurs (h : occurs p s = true) : p.length ≤ s.length := by
  induction p generalizing s with
  | nil => exact Nat.zero_le _
  | cons a p ih =>
    cases s with
    | nil => simp [occurs] at h
    | cons x s =>
      have hs : occurs p s = true := by
        simp only [occurs, Bool.and_eq_true] at h
        exact h.2
      simpa using ih hs

/-- An occurrence is seen in its own characters. -/
theorem occurs_append (h : occurs p r = true) : occurs p (r ++ s) = true := by
  induction p generalizing r with
  | nil => rfl
  | cons a p ih =>
    cases r with
    | nil => simp [occurs] at h
    | cons x r =>
      simp only [occurs, Bool.and_eq_true, List.cons_append] at h ⊢
      exact ⟨h.1, ih h.2⟩

theorem occurs_drop (h : occurs p s = true) (k : ℕ) : occurs (p.drop k) (s.drop k) = true := by
  induction k generalizing p s with
  | zero => exact h
  | succ k ih =>
    cases p with
    | nil => rfl
    | cons a p =>
      cases s with
      | nil => simp [occurs] at h
      | cons x s =>
        simp only [occurs, Bool.and_eq_true] at h
        exact ih h.2

end Occurs

/-- How the result of a substitution is built from the text. -/
inductive Blocks (p : List (α → Bool)) (r : List α) : List α → List α → Prop where
  | nil : Blocks p r [] []
  | keep {x : α} {s out : List α} (h : occurs p (x :: s) = false) (hs : Blocks p r s out) :
      Blocks p r (x :: s) (x :: out)
  | replace {s out : List α} (h : occurs p s = true) (hs : Blocks p r (s.drop p.length) out) :
      Blocks p r s (r ++ out)

section Sub

variable {p q : List (α → Bool)} {r u s t out : List α}

theorem blocks_subFrom (hp : p ≠ []) (skip : ℕ) :
    Blocks p r (s.drop skip) (subFrom p r skip s) := by
  induction s generalizing skip with
  | nil => cases skip <;> exact .nil
  | cons x s ih =>
    cases skip with
    | succ skip => exact ih skip
    | zero =>
      rw [subFrom, List.drop_zero]
      split
      · next h =>
        have hpos : 0 < p.length := List.length_pos_iff.mpr hp
        have hdrop : (x :: s).drop p.length = s.drop (p.length - 1) := by
          obtain ⟨n, hn⟩ := Nat.exists_eq_add_of_lt hpos
          simp [hn]
        exact .replace h (hdrop ▸ ih _)
      · next h => exact .keep (Bool.eq_false_iff.mpr h) (ih 0)

theorem blocks_sub (hp : p ≠ []) : Blocks p r s (sub p r s) :=
  blocks_subFrom hp 0

theorem mem_subFrom {x : α} (skip : ℕ) (h : x ∈ subFrom p r skip s) : x ∈ r ∨ x ∈ s := by
  induction s generalizing skip with
  | nil => cases skip <;> simp [subFrom] at h
  | cons y s ih =>
    cases skip with
    | succ skip => exact (ih skip h).imp_right (List.mem_cons_of_mem _)
    | zero =>
      rw [subFrom] at h
      split at h
      · rcases List.mem_append.mp h with h | h
        · exact .inl h
        · exact (ih _ h).imp_right (List.mem_cons_of_mem _)
      · rcases List.mem_cons.mp h with rfl | h
        · exact .inr List.mem_cons_self
        · exact (ih _ h).imp_right (List.mem_cons_of_mem _)

/-- A substitution writes no character but those of the text and the replacement. -/
theorem mem_sub {x : α} (h : x ∈ sub p r s) : x ∈ r ∨ x ∈ s :=
  mem_subFrom 0 h

theorem Settled.tail {x : α} (h : Settled p r (x :: s)) : Settled p r s :=
  fun t ht => h t (ht.trans (List.suffix_cons x s))

theorem subFrom_eq_self (hr : r.length = p.length) (hp : p ≠ []) (h : Settled p r s) (skip : ℕ) :
    subFrom p r skip s = s.drop skip := by
  induction s generalizing skip with
  | nil => cases skip <;> rfl
  | cons x s ih =>
    cases skip with
    | succ skip => exact ih h.tail skip
    | zero =>
      rw [subFrom, List.drop_zero]
      split
      · next hoccurs =>
        obtain ⟨rest, hrest⟩ := h _ List.suffix_rfl hoccurs
        have hpos : 0 < r.length := hr ▸ List.length_pos_iff.mpr hp
        have hdrop : s.drop (p.length - 1) = rest := by
          have hwhole : (x :: s).drop p.length = rest := by
            rw [← hrest, ← hr, List.drop_left]
          obtain ⟨n, hn⟩ := Nat.exists_eq_add_of_lt (hr ▸ hpos)
          rw [hn] at hwhole ⊢
          simpa using hwhole
        rw [ih h.tail, hdrop, hrest]
      · rw [ih h.tail, List.drop_zero]

/-- **A settled text is left alone.** -/
theorem sub_eq_self (hr : r.length = p.length) (hp : p ≠ []) (h : Settled p r s) :
    sub p r s = s :=
  subFrom_eq_self hr hp h 0

/-- An occurrence in the result that no replacement can touch is one of the text. -/
theorem Blocks.occurs_of_apart (hb : Blocks p r s out) (hr : occurs p r = true)
    (hapart : ∀ k < q.length, Apart (q.drop k) p) (hout : occurs q out = true) :
    occurs q s = true ∧ s.take q.length = out.take q.length := by
  induction hb generalizing q with
  | nil => exact ⟨hout, rfl⟩
  | @keep x s out h hs ih =>
    cases q with
    | nil => exact ⟨rfl, rfl⟩
    | cons a q =>
      obtain ⟨hx, hrest⟩ : a x = true ∧ occurs q out = true := by simpa [occurs] using hout
      obtain ⟨hoccurs, htake⟩ := ih (fun k hk => hapart (k + 1) (Nat.succ_lt_succ hk)) hrest
      refine ⟨?_, by simp [htake]⟩
      simp [occurs, hx, hoccurs]
  | replace h hs ih =>
    cases q with
    | nil => exact ⟨rfl, rfl⟩
    | cons a q => exact ((hapart 0 (Nat.succ_pos _)).elim hout (occurs_append hr)).elim

/-- A suffix of a block and what follows begins in the block or after it. -/
theorem suffix_append_cases (h : t <:+ r ++ out) :
    t <:+ out ∨ ∃ k < r.length, t = r.drop k ++ out := by
  obtain ⟨before, hbefore⟩ := h
  rcases List.append_eq_append_iff.mp hbefore with ⟨as, hr, ht⟩ | ⟨bs, hr, hout⟩
  · by_cases hlength : before.length < r.length
    · refine .inr ⟨before.length, hlength, ?_⟩
      rw [hr, List.drop_left, ht]
    · have hnil : as = [] := by
        have := congrArg List.length hr
        rw [List.length_append] at this
        exact List.eq_nil_of_length_eq_zero (by omega)
      rw [hnil, List.nil_append] at ht
      exact .inl (ht ▸ List.suffix_rfl)
  · exact .inl ⟨bs, hout.symm⟩

/-- **Every occurrence in the result of a substitution reads the replacement.** -/
theorem settled_sub (hp : p ≠ []) (hr : occurs p r = true) (hlength : r.length = p.length)
    (hapart : ∀ k, 0 < k → k < p.length → Apart (p.drop k) p) : Settled p r (sub p r s) := by
  have hblocks : Blocks p r s (sub p r s) := blocks_sub hp
  generalize sub p r s = out at hblocks
  induction hblocks with
  | nil =>
    intro t ht hoccurs
    have hle := length_le_of_occurs hoccurs
    rw [List.suffix_nil.mp ht, List.length_nil] at hle
    exact absurd (List.eq_nil_of_length_eq_zero (Nat.le_zero.mp hle)) hp
  | @keep x s out h hs ih =>
    intro t ht hoccurs
    rcases List.suffix_cons_iff.mp ht with rfl | ht
    · obtain ⟨a, p', rfl⟩ := List.exists_cons_of_ne_nil hp
      obtain ⟨hx, hrest⟩ : a x = true ∧ occurs p' out = true := by simpa [occurs] using hoccurs
      -- the rest of the occurrence is text that was kept, so the pattern occurred there before
      have hkept := (hs.occurs_of_apart hr
        (fun k hk => hapart (k + 1) (Nat.succ_pos k) (Nat.succ_lt_succ hk)) hrest).1
      simp [occurs, hx, hkept] at h
    · exact ih t ht hoccurs
  | @replace s out h hs ih =>
    intro t ht hoccurs
    rcases suffix_append_cases ht with ht | ⟨k, hk, rfl⟩
    · exact ih t ht hoccurs
    · rcases Nat.eq_zero_or_pos k with rfl | hpos
      · exact List.prefix_append r out
      · have hshifted := occurs_append (s := out) (occurs_drop hr k)
        exact ((hapart k hpos (hlength ▸ hk)).elim hshifted hoccurs).elim

/-- **A substitution keeps the occurrences of a pattern that its own cannot overlap.** -/
theorem Settled.sub (h : Settled q u s) (hp : p ≠ []) (hr : occurs p r = true)
    (hlength : r.length = p.length) (hu : u.length = q.length)
    (hleft : ∀ k < q.length, Apart (q.drop k) p) (hright : ∀ k < p.length, Apart q (p.drop k)) :
    Settled q u (sub p r s) := by
  have hblocks : Blocks p r s (Substitute.sub p r s) := blocks_sub hp
  generalize Substitute.sub p r s = out at hblocks
  induction hblocks with
  | nil => exact h
  | @keep x s out _ hs ih =>
    intro t ht hoccurs
    rcases List.suffix_cons_iff.mp ht with rfl | ht
    · obtain ⟨hkept, htake⟩ :=
        (Blocks.keep ‹_› hs).occurs_of_apart hr hleft hoccurs
      obtain ⟨rest, hrest⟩ := h _ List.suffix_rfl hkept
      have hread : (x :: out).take q.length = u := by
        rw [← htake, ← hrest, ← hu, List.take_left]
      exact hread ▸ List.take_prefix _ _
    · exact ih h.tail t ht hoccurs
  | @replace s out hs _ ih =>
    intro t ht hoccurs
    -- an occurrence that starts inside the replacement would start inside the pattern
    rcases suffix_append_cases ht with ht | ⟨k, hk, rfl⟩
    · exact ih (fun t ht => h t (ht.trans (List.drop_suffix _ _))) t ht hoccurs
    · have hshifted := occurs_append (s := out) (occurs_drop hr k)
      exact ((hright k (hlength ▸ hk)).elim hoccurs hshifted).elim

end Sub

end Substitute

end ControlPlaneKit
