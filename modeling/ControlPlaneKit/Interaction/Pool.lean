import Mathlib.Logic.Function.Basic
import ControlPlaneKit.Interaction.Logic

/-!
# Processes that share locked objects

A family of objects `κ → τ` answers side by side (`Semantics.product`): every object sees every
operation, and most operations leave most objects alone. Any number of processes run interactive
programs against the family. Each object has a lock; some answers grant it (`grants`), which is
possible only while nobody owns it, and a process keeps its lock until it finishes or dies. A
process may die between any two operations, and the steps of different processes interleave
freely.

The discipline has two halves. *Outside* every lock the operations of a program leave all objects
alone. *Inside* the lock of an object they touch only operations that this object owns, and they
meet a guarantee there that carries the object's invariant from operation to operation. The run
lemmas `Pool.Reaches.safe` and `Pool.Reaches.guarantee` then give the invariant of every object
in every interleaving, and the guarantee of every single operation.
-/

namespace Interaction

universe u v w x y

variable {Op : Type u} {Ans : Op → Type v} {ε α β : Type w} {τ : Type x} {κ : Type y}

/-- Objects that answer side by side: an answer must be possible for each of them. -/
def Semantics.product (M : κ → Semantics Op Ans τ) : Semantics Op Ans (κ → τ) :=
  fun s op a s' => ∀ k, M k (s k) op a (s' k)

/-- The objects, the owners of their locks, and the running processes. -/
structure Pool (Op : Type u) (Ans : Op → Type v) (ε α : Type w) (κ : Type y) (τ : Type x) where
  /-- The objects. -/
  state : κ → τ
  /-- The process that owns the lock of an object. -/
  owner : κ → Option ℕ
  /-- What each running process still has to do. -/
  process : ℕ → Option (Program Op Ans ε α)

/-- The pool in which nothing runs. -/
def Pool.idle (s : κ → τ) : Pool Op Ans ε α κ τ :=
  ⟨s, fun _ => none, fun _ => none⟩

section Steps

variable [DecidableEq κ] (M : κ → Semantics Op Ans τ) (grants : (op : Op) → Ans op → Option κ)
  (startable : Program Op Ans ε α → Prop)

/-- One step of a pool, labelled with the process that takes it and the operation performed, if
any. -/
inductive Pool.Step :
    Pool Op Ans ε α κ τ → ℕ → Option (Event Op Ans) → Pool Op Ans ε α κ τ → Prop where
  | start (c : Pool Op Ans ε α κ τ) (i : ℕ) (p : Program Op Ans ε α) (hi : c.process i = none)
      (hp : startable p) :
      Step c i none { c with process := Function.update c.process i (some p) }
  | act (c : Pool Op Ans ε α κ τ) (i : ℕ) (op : Op) (next : Ans op → Program Op Ans ε α)
      (a : Ans op) (s : κ → τ) (hi : c.process i = some (.perform op next))
      (hstep : Semantics.product M c.state op a s) (hgrant : grants op a = none) :
      Step c i (some ⟨op, a⟩)
        ⟨s, c.owner, Function.update c.process i (some (next a))⟩
  | acquire (c : Pool Op Ans ε α κ τ) (i : ℕ) (op : Op) (next : Ans op → Program Op Ans ε α)
      (a : Ans op) (s : κ → τ) (k : κ) (hi : c.process i = some (.perform op next))
      (hstep : Semantics.product M c.state op a s) (hgrant : grants op a = some k)
      (hfree : c.owner k = none) :
      Step c i (some ⟨op, a⟩)
        ⟨s, Function.update c.owner k (some i), Function.update c.process i (some (next a))⟩
  | leave (c : Pool Op Ans ε α κ τ) (i : ℕ) :
      Step c i none
        { c with
          owner := fun k => if c.owner k = some i then none else c.owner k
          process := Function.update c.process i none }

/-- The pools that can be reached from a pool. -/
inductive Pool.Reaches (c : Pool Op Ans ε α κ τ) : Pool Op Ans ε α κ τ → Prop where
  | refl : Reaches c c
  | tail {d e : Pool Op Ans ε α κ τ} {i : ℕ} {label : Option (Event Op Ans)} (hd : Reaches c d)
      (hstep : Pool.Step M grants startable d i label e) : Reaches c e

end Steps

section Reaches

variable [DecidableEq κ] {M : κ → Semantics Op Ans τ} {grants : (op : Op) → Ans op → Option κ}
  {startable : Program Op Ans ε α → Prop}

theorem Pool.Reaches.trans {c d e : Pool Op Ans ε α κ τ}
    (h : Pool.Reaches M grants startable c d) (h' : Pool.Reaches M grants startable d e) :
    Pool.Reaches M grants startable c e := by
  induction h' with
  | refl => exact h
  | tail _ hstep ih => exact ih.tail hstep

/-- A relation between the objects that every step carries along holds over whole runs. -/
theorem Pool.Reaches.relates {R : (κ → τ) → (κ → τ) → Prop} {J : Pool Op Ans ε α κ τ → Prop}
    (hrefl : ∀ s, R s s) (htrans : ∀ s t u, R s t → R t u → R s u)
    (hstep : ∀ c d i label, J c → Pool.Step M grants startable c i label d →
      J d ∧ R c.state d.state)
    {c d : Pool Op Ans ε α κ τ} (hc : J c) (h : Pool.Reaches M grants startable c d) :
    J d ∧ R c.state d.state := by
  induction h with
  | refl => exact ⟨hc, hrefl _⟩
  | tail _ hlast ih =>
    obtain ⟨hd, hR⟩ := hstep _ _ _ _ ih.1 hlast
    exact ⟨hd, htrans _ _ _ ih.2 hR⟩

end Reaches

/-! ### The discipline of the locks -/

section Discipline

variable (M : κ → Semantics Op Ans τ) (G : κ → τ → Event Op Ans → τ → Prop) (I : κ → τ → Prop)
  (grants : (op : Op) → Ans op → Option κ) (owned : κ → Op → Prop)

/-- A residual program that runs with the lock of `k`: from this state of the object on it
performs operations that the object owns, and meets the guarantee. -/
def Inside (k : κ) (p : Program Op Ans ε α) (t : τ) : Prop :=
  ∃ Q h, Meets (M k) (fun _ t e t' => G k t e t' ∧ owned k e.op) p Q h t

/-- A residual program that runs without a lock: its operations leave all objects alone, and when
it is granted a lock it may continue inside, whatever the state of the object. -/
def Outside : Program Op Ans ε α → Prop
  | .pure _ => True
  | .raise _ => True
  | .perform op next => ∀ a s s', (∀ k, I k (s k)) → Semantics.product M s op a s' →
      (∀ k, s' k = s k ∧ G k (s k) ⟨op, a⟩ (s' k)) ∧
        (grants op a = none → Outside (next a)) ∧
        ∀ k, grants op a = some k → ∀ t, I k t → Inside M G owned k (next a) t

/-- The invariant of a pool. -/
structure Pool.Safe (c : Pool Op Ans ε α κ τ) : Prop where
  /-- Every object satisfies its invariant. -/
  state : ∀ k, I k (c.state k)
  /-- The owner of a lock is running. -/
  alive : ∀ k i, c.owner k = some i → (c.process i).isSome
  /-- Nobody owns two locks. -/
  single : ∀ k k' i, c.owner k = some i → c.owner k' = some i → k = k'
  /-- The owner of a lock runs inside. -/
  inside : ∀ k i p, c.owner k = some i → c.process i = some p →
    Inside M G owned k p (c.state k)
  /-- Everybody else runs outside. -/
  outside : ∀ i p, (∀ k, c.owner k ≠ some i) → c.process i = some p →
    Outside M G I grants owned p

variable {M G I grants owned} {startable : Program Op Ans ε α → Prop}

theorem Pool.Safe.idle {s : κ → τ} (hs : ∀ k, I k (s k)) :
    Pool.Safe M G I grants owned (Pool.idle s : Pool Op Ans ε α κ τ) where
  state := hs
  alive := by simp [Pool.idle]
  single := by simp [Pool.idle]
  inside := by simp [Pool.idle]
  outside := by simp [Pool.idle]

/-- Operations that leave all objects alone may come before anything that runs outside. -/
theorem Outside.bind {P : Op → Prop} {p : Program Op Ans ε β} {f : β → Program Op Ans ε α}
    (hP : ∀ op a, P op → grants op a = none ∧
      ∀ k t t', I k t → M k t op a t' → t' = t ∧ G k t ⟨op, a⟩ t')
    (hp : p.Uses P) (hf : ∀ b, Outside M G I grants owned (f b)) :
    Outside M G I grants owned (p >>= f) := by
  induction p with
  | pure a => exact hf a
  | raise e => trivial
  | perform op next ih =>
    intro a s s' hs hstep
    obtain ⟨hnone, hleave⟩ := hP op a hp.1
    refine ⟨fun k => hleave k _ _ (hs k) (hstep k), fun _ => ih a (hp.2 a), fun k hk => ?_⟩
    rw [hnone] at hk
    cases hk

/-- The same under an exception handler. -/
theorem Outside.bind_handle {ε' : Type w} {P : Op → Prop} {p : Program Op Ans ε' β}
    {f : β → Program Op Ans ε' α} {g : ε' → Program Op Ans ε α}
    (hP : ∀ op a, P op → grants op a = none ∧
      ∀ k t t', I k t → M k t op a t' → t' = t ∧ G k t ⟨op, a⟩ t')
    (hp : p.Uses P) (hf : ∀ b, Outside M G I grants owned ((f b).handle g))
    (hg : ∀ e, Outside M G I grants owned (g e)) :
    Outside M G I grants owned ((p >>= f).handle g) := by
  induction p with
  | pure a => exact hf a
  | raise e => exact hg e
  | perform op next ih =>
    intro a s s' hs hstep
    obtain ⟨hnone, hleave⟩ := hP op a hp.1
    refine ⟨fun k => hleave k _ _ (hs k) (hstep k), fun _ => ih a (hp.2 a), fun k hk => ?_⟩
    rw [hnone] at hk
    cases hk

theorem Outside.of_uses {P : Op → Prop} {p : Program Op Ans ε α}
    (hP : ∀ op a, P op → grants op a = none ∧
      ∀ k t t', I k t → M k t op a t' → t' = t ∧ G k t ⟨op, a⟩ t')
    (hp : p.Uses P) : Outside M G I grants owned p := by
  rw [← bind_pure p]
  exact Outside.bind hP hp fun _ => trivial

section Run

variable [DecidableEq κ]
  (hI : ∀ k t e t', I k t → G k t e t' → I k t')
  (hframe : ∀ k op a, owned k op → grants op a = none ∧
    ∀ k', k' ≠ k → ∀ t t', I k' t → M k' t op a t' → t' = t ∧ G k' t ⟨op, a⟩ t')

include hI hframe

/-- An operation inside a lock changes no other object and meets every guarantee. -/
theorem Pool.Safe.act_inside {c : Pool Op Ans ε α κ τ} (hc : Pool.Safe M G I grants owned c)
    {i : ℕ} {op : Op} {next : Ans op → Program Op Ans ε α} {a : Ans op} {s : κ → τ} {k : κ}
    (hk : c.owner k = some i) (hi : c.process i = some (.perform op next))
    (hstep : Semantics.product M c.state op a s) :
    grants op a = none ∧
      Pool.Safe M G I grants owned ⟨s, c.owner, Function.update c.process i (some (next a))⟩ ∧
        ∀ k', G k' (c.state k') ⟨op, a⟩ (s k') := by
  obtain ⟨Q, h, hmeets⟩ := hc.inside k i _ hk hi
  obtain ⟨⟨hG, howned⟩, hnext⟩ := hmeets a (s k) (hstep k)
  obtain ⟨hnone, hother⟩ := hframe k op a howned
  have hsame : ∀ k', k' ≠ k → s k' = c.state k' ∧ G k' (c.state k') ⟨op, a⟩ (s k') :=
    fun k' hk' => hother k' hk' _ _ (hc.state k') (hstep k')
  have hguar : ∀ k', G k' (c.state k') ⟨op, a⟩ (s k') := by
    intro k'
    by_cases hk' : k' = k
    · exact hk' ▸ hG
    · exact (hsame k' hk').2
  refine ⟨hnone, ⟨fun k' => hI _ _ _ _ (hc.state k') (hguar k'), ?_, hc.single, ?_, ?_⟩, hguar⟩
  · intro k' j hj
    by_cases hji : j = i
    · subst hji
      simp
    · simpa only [Function.update_of_ne hji] using hc.alive k' j hj
  -- the process goes on in its section; the other sections are of objects that did not change
  · intro k' j q hj hq
    by_cases hji : j = i
    · subst hji
      obtain rfl := hc.single k' k j hj hk
      simp only [Function.update_self, Option.some.injEq] at hq
      exact hq ▸ ⟨Q, _, hnext⟩
    · have hk' : k' ≠ k := by
        rintro rfl
        rw [hk] at hj
        exact hji (Option.some.inj hj).symm
      simp only [Function.update_of_ne hji] at hq
      simpa only [(hsame k' hk').1] using hc.inside k' j q hj hq
  · intro j q hj hq
    have hji : j ≠ i := by
      rintro rfl
      exact hj k hk
    simp only [Function.update_of_ne hji] at hq
    exact hc.outside j q hj hq

omit [DecidableEq κ] hI hframe in
/-- An operation outside every lock changes nothing and meets every guarantee. -/
theorem Pool.Safe.act_outside {c : Pool Op Ans ε α κ τ} (hc : Pool.Safe M G I grants owned c)
    {i : ℕ} {op : Op} {next : Ans op → Program Op Ans ε α} {a : Ans op} {s : κ → τ}
    (hk : ∀ k, c.owner k ≠ some i) (hi : c.process i = some (.perform op next))
    (hstep : Semantics.product M c.state op a s) :
    s = c.state ∧ (∀ k, G k (c.state k) ⟨op, a⟩ (s k)) ∧
      (grants op a = none → Outside M G I grants owned (next a)) ∧
        ∀ k, grants op a = some k → ∀ t, I k t → Inside M G owned k (next a) t := by
  obtain ⟨hleave, hout, hin⟩ := hc.outside i _ hk hi a _ _ hc.state hstep
  exact ⟨funext fun k => (hleave k).1, fun k => (hleave k).2, hout, hin⟩

/-- One step keeps a pool safe, and the operation it performs meets the guarantee. -/
theorem Pool.Safe.step (hstart : ∀ p, startable p → Outside M G I grants owned p)
    {c d : Pool Op Ans ε α κ τ} {i : ℕ} {label : Option (Event Op Ans)}
    (hc : Pool.Safe M G I grants owned c) (hstep : Pool.Step M grants startable c i label d) :
    Pool.Safe M G I grants owned d ∧
      ∀ e, label = some e → ∀ k, G k (c.state k) e (d.state k) := by
  cases hstep with
  | start p hi hp =>
    -- an owner is alive, and the process that starts was not
    have howner : ∀ k j, c.owner k = some j → j ≠ i := by
      rintro k j hj rfl
      have := hc.alive k j hj
      rw [hi] at this
      cases this
    refine ⟨⟨hc.state, ?_, hc.single, ?_, ?_⟩, by simp⟩
    · intro k j hj
      simpa only [Function.update_of_ne (howner k j hj)] using hc.alive k j hj
    · intro k j q hj hq
      simp only [Function.update_of_ne (howner k j hj)] at hq
      exact hc.inside k j q hj hq
    · intro j q hj hq
      by_cases hji : j = i
      · subst hji
        simp only [Function.update_self, Option.some.injEq] at hq
        exact hq ▸ hstart p hp
      · simp only [Function.update_of_ne hji] at hq
        exact hc.outside j q hj hq
  | act op next a s hi hs hgrant =>
    by_cases hk : ∃ k, c.owner k = some i
    · obtain ⟨k, hk⟩ := hk
      obtain ⟨-, hd, hG⟩ := hc.act_inside hI hframe hk hi hs
      exact ⟨hd, fun e he => Option.some.inj he ▸ hG⟩
    · have hk : ∀ k, c.owner k ≠ some i := fun k h => hk ⟨k, h⟩
      obtain ⟨rfl, hG, hout, -⟩ := hc.act_outside hk hi hs
      refine ⟨⟨hc.state, ?_, hc.single, ?_, ?_⟩, fun e he => Option.some.inj he ▸ hG⟩
      · intro k j hj
        have hji : j ≠ i := fun h => hk k (h ▸ hj)
        simpa only [Function.update_of_ne hji] using hc.alive k j hj
      · intro k j q hj hq
        have hji : j ≠ i := fun h => hk k (h ▸ hj)
        simp only [Function.update_of_ne hji] at hq
        exact hc.inside k j q hj hq
      · intro j q hj hq
        by_cases hji : j = i
        · subst hji
          simp only [Function.update_self, Option.some.injEq] at hq
          exact hq ▸ hout hgrant
        · simp only [Function.update_of_ne hji] at hq
          exact hc.outside j q hj hq
  | acquire op next a s k hi hs hgrant hfree =>
    -- inside a lock no operation is granted another
    have hk : ∀ k', c.owner k' ≠ some i := by
      intro k' hk'
      obtain ⟨hnone, -⟩ := hc.act_inside hI hframe hk' hi hs
      rw [hnone] at hgrant
      cases hgrant
    obtain ⟨rfl, hG, -, hin⟩ := hc.act_outside hk hi hs
    have hold : ∀ k' j, Function.update c.owner k (some i) k' = some j →
        (k' = k ∧ j = i) ∨ (k' ≠ k ∧ c.owner k' = some j ∧ j ≠ i) := by
      intro k' j hj
      by_cases hk' : k' = k
      · subst hk'
        simp only [Function.update_self, Option.some.injEq] at hj
        exact .inl ⟨rfl, hj.symm⟩
      · simp only [Function.update_of_ne hk'] at hj
        exact .inr ⟨hk', hj, fun h => hk k' (h ▸ hj)⟩
    refine ⟨⟨hc.state, ?_, ?_, ?_, ?_⟩, fun e he => Option.some.inj he ▸ hG⟩
    · intro k' j hj
      rcases hold k' j hj with ⟨rfl, rfl⟩ | ⟨-, hj, hji⟩
      · simp
      · simpa only [Function.update_of_ne hji] using hc.alive k' j hj
    · intro k₁ k₂ j h₁ h₂
      rcases hold k₁ j h₁ with ⟨rfl, rfl⟩ | ⟨-, h₁, hne⟩ <;>
        rcases hold k₂ j h₂ with ⟨rfl, heq⟩ | ⟨-, h₂, hne'⟩
      · rfl
      · exact absurd rfl hne'
      · exact absurd heq hne
      · exact hc.single k₁ k₂ j h₁ h₂
    · intro k' j q hj hq
      rcases hold k' j hj with ⟨rfl, rfl⟩ | ⟨-, hj, hji⟩
      · simp only [Function.update_self, Option.some.injEq] at hq
        exact hq ▸ hin k' hgrant _ (hc.state k')
      · simp only [Function.update_of_ne hji] at hq
        exact hc.inside k' j q hj hq
    · intro j q hj hq
      have hji : j ≠ i := by
        rintro rfl
        exact hj k (Function.update_self ..)
      simp only [Function.update_of_ne hji] at hq
      refine hc.outside j q (fun k' hk' => ?_) hq
      have hne : k' ≠ k := by
        rintro rfl
        rw [hfree] at hk'
        cases hk'
      exact hj k' (by simpa only [Function.update_of_ne hne] using hk')
  | leave =>
    -- with the process its locks are gone, and nothing else
    have hold : ∀ k j, (if c.owner k = some i then none else c.owner k) = some j →
        c.owner k = some j ∧ j ≠ i := by
      intro k j hj
      split at hj
      · cases hj
      · rename_i hne
        exact ⟨hj, fun h => hne (h ▸ hj)⟩
    refine ⟨⟨hc.state, ?_, ?_, ?_, ?_⟩, by simp⟩
    · intro k j hj
      obtain ⟨hj, hji⟩ := hold k j hj
      simpa only [Function.update_of_ne hji] using hc.alive k j hj
    · intro k k' j h h'
      exact hc.single k k' j (hold k j h).1 (hold k' j h').1
    · intro k j q hj hq
      obtain ⟨hj, hji⟩ := hold k j hj
      simp only [Function.update_of_ne hji] at hq
      exact hc.inside k j q hj hq
    · intro j q hj hq
      by_cases hji : j = i
      · subst hji
        simp at hq
      · simp only [Function.update_of_ne hji] at hq
        refine hc.outside j q (fun k hk => hj k ?_) hq
        have hne : c.owner k ≠ some i := fun h => hji (Option.some.inj (hk.symm.trans h))
        simp only [hne, if_false]
        exact hk

/-- **The invariant holds in every interleaving.** -/
theorem Pool.Reaches.safe (hstart : ∀ p, startable p → Outside M G I grants owned p)
    {c d : Pool Op Ans ε α κ τ} (hc : Pool.Safe M G I grants owned c)
    (h : Pool.Reaches M grants startable c d) : Pool.Safe M G I grants owned d := by
  induction h with
  | refl => exact hc
  | tail _ hstep ih => exact (ih.step hI hframe hstart hstep).1

/-- **Every operation of every interleaving meets the guarantee.** -/
theorem Pool.Reaches.guarantee (hstart : ∀ p, startable p → Outside M G I grants owned p)
    {c d d' : Pool Op Ans ε α κ τ} {i : ℕ} {e : Event Op Ans}
    (hc : Pool.Safe M G I grants owned c) (h : Pool.Reaches M grants startable c d)
    (hstep : Pool.Step M grants startable d i (some e) d') (k : κ) :
    G k (d.state k) e (d'.state k) :=
  ((h.safe hI hframe hstart hc).step hI hframe hstart hstep).2 e rfl k

end Run

end Discipline

end Interaction
