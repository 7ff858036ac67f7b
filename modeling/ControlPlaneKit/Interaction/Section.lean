import ControlPlaneKit.Interaction.Pool

/-!
# Critical sections run alone

A process that owns the lock of an object runs there as if it were alone: the other processes may
step in between, but the object does not change under them. `Pool.Section` is the part of a run
since the lock was granted, with the operations that its owner performed; `Pool.Section.exec`
turns it into a run of the owner's residual program against the object alone. Every owner of a
lock is in such a section (`Pool.Reaches.sections`), entered by a program that may be started.
-/

namespace Interaction

universe u v w x y

variable {Op : Type u} {Ans : Op → Type v} {ε α : Type w} {τ : Type x} {κ : Type y}

/-! ### Entering a lock -/

/-- `q` is what is left of `p` at the moment it is granted the lock of `k`, its first lock. -/
inductive Enters (grants : (op : Op) → Ans op → Option κ) (k : κ) :
    Program Op Ans ε α → Program Op Ans ε α → Prop where
  | granted (op : Op) (next : Ans op → Program Op Ans ε α) (a : Ans op)
      (h : grants op a = some k) : Enters grants k (.perform op next) (next a)
  | later (op : Op) (next : Ans op → Program Op Ans ε α) (a : Ans op)
      {q : Program Op Ans ε α} (hnone : grants op a = none) (h : Enters grants k (next a) q) :
      Enters grants k (.perform op next) q

section Enters

variable {β : Type w} {ε' : Type w} {grants : (op : Op) → Ans op → Option κ} {k : κ}

/-- What grants no lock comes before the program that enters. -/
theorem Enters.of_bind_handle {P : Op → Prop} (hP : ∀ op a, P op → grants op a = none)
    {p : Program Op Ans ε' β} {f : β → Program Op Ans ε' α} {g : ε' → Program Op Ans ε α}
    {q : Program Op Ans ε α} (hp : p.Uses P) (hg : ∀ e, ¬ Enters grants k (g e) q)
    (h : Enters grants k ((p >>= f).handle g) q) : ∃ b, Enters grants k ((f b).handle g) q := by
  induction p with
  | pure b => exact ⟨b, h⟩
  | raise e => exact absurd h (hg e)
  | perform op next ih =>
    cases h with
    | granted _ _ a hgrant =>
      rw [hP op a hp.1] at hgrant
      cases hgrant
    | later _ _ a _ h => exact ih a (hp.2 a) h

/-- A program that grants no lock enters none. -/
theorem Enters.not_of_uses {P : Op → Prop} (hP : ∀ op a, P op → grants op a = none)
    {p q : Program Op Ans ε α} (hp : p.Uses P) : ¬ Enters grants k p q := by
  intro h
  induction h with
  | granted op next a hgrant =>
    rw [hP op a hp.1] at hgrant
    cases hgrant
  | later op next a _ _ ih => exact ih (hp.2 a)

end Enters

/-! ### Sections -/

section Sections

variable [DecidableEq κ] {M : κ → Semantics Op Ans τ} {grants : (op : Op) → Ans op → Option κ}
  {startable : Program Op Ans ε α → Prop}

/-- A part of a run in which `i` performs these operations, and others step in between. -/
inductive Pool.Section (M : κ → Semantics Op Ans τ) (grants : (op : Op) → Ans op → Option κ)
    (startable : Program Op Ans ε α → Prop) (i : ℕ) (c : Pool Op Ans ε α κ τ) :
    List (Event Op Ans) → Pool Op Ans ε α κ τ → Prop where
  | enter : Pool.Section M grants startable i c [] c
  | own {tr : List (Event Op Ans)} {d d' : Pool Op Ans ε α κ τ} {e : Event Op Ans}
      (h : Pool.Section M grants startable i c tr d)
      (hstep : Pool.Step M grants startable d i (some e) d') :
      Pool.Section M grants startable i c (tr ++ [e]) d'
  | other {tr : List (Event Op Ans)} {d d' : Pool Op Ans ε α κ τ} {j : ℕ}
      {label : Option (Event Op Ans)} (h : Pool.Section M grants startable i c tr d)
      (hne : j ≠ i) (hstep : Pool.Step M grants startable d j label d') :
      Pool.Section M grants startable i c tr d'

theorem Pool.Section.reaches {i : ℕ} {c d : Pool Op Ans ε α κ τ} {tr : List (Event Op Ans)}
    (h : Pool.Section M grants startable i c tr d) : Pool.Reaches M grants startable c d := by
  induction h with
  | enter => exact .refl
  | own _ hstep ih => exact ih.tail hstep
  | other _ _ hstep ih => exact ih.tail hstep

/-- Sections of one process follow each other. -/
theorem Pool.Section.trans {i : ℕ} {c d e : Pool Op Ans ε α κ τ} {tr tr' : List (Event Op Ans)}
    (h : Pool.Section M grants startable i c tr d) (h' : Pool.Section M grants startable i d tr' e) :
    Pool.Section M grants startable i c (tr ++ tr') e := by
  induction h' with
  | enter => simpa using h
  | own _ hstep ih =>
    rw [← List.append_assoc]
    exact ih.own hstep
  | other _ hne hstep ih => exact ih.other hne hstep

/-- A process in a section of an object: where it entered, with which program, and what it has
done since. -/
structure Pool.Within (M : κ → Semantics Op Ans τ) (grants : (op : Op) → Ans op → Option κ)
    (startable : Program Op Ans ε α → Prop) (i : ℕ) (k : κ) (c : Pool Op Ans ε α κ τ)
    (q : Program Op Ans ε α) (tr : List (Event Op Ans)) (d : Pool Op Ans ε α κ τ) : Prop where
  owner : c.owner k = some i
  process : c.process i = some q
  origin : ∃ p, startable p ∧ Enters grants k p q
  section_ : Pool.Section M grants startable i c tr d

variable {G : κ → τ → Event Op Ans → τ → Prop} {I : κ → τ → Prop} {owned : κ → Op → Prop}
  (hI : ∀ k t e t', I k t → G k t e t' → I k t')
  (hframe : ∀ k op a, owned k op → grants op a = none ∧
    ∀ k', k' ≠ k → ∀ t t', I k' t → M k' t op a t' → t' = t ∧ G k' t ⟨op, a⟩ t')
  (hstart : ∀ p, startable p → Outside M G I grants owned p)

include hI hframe

/-- While a process owns a lock, the steps of the others leave its object, its lock and its
program alone. -/
theorem Pool.Safe.undisturbed {c d : Pool Op Ans ε α κ τ} (hc : Pool.Safe M G I grants owned c)
    {i j : ℕ} {k : κ} {label : Option (Event Op Ans)} (hk : c.owner k = some i) (hne : j ≠ i)
    (hstep : Pool.Step M grants startable c j label d) :
    d.state k = c.state k ∧ d.owner k = some i ∧ d.process i = c.process i := by
  cases hstep with
  | start p hj hp => exact ⟨rfl, hk, Function.update_of_ne hne.symm ..⟩
  | act op next a s hj hs hgrant =>
    refine ⟨?_, hk, Function.update_of_ne hne.symm ..⟩
    by_cases hout : ∃ k', c.owner k' = some j
    · obtain ⟨k', hk'⟩ := hout
      have hkk : k ≠ k' := by
        rintro rfl
        exact hne (Option.some.inj (hk'.symm.trans hk))
      obtain ⟨Q, h, hmeets⟩ := hc.inside k' j _ hk' hj
      obtain ⟨⟨-, howned⟩, -⟩ := hmeets a (s k') (hs k')
      exact ((hframe k' op a howned).2 k hkk _ _ (hc.state k) (hs k)).1
    · obtain ⟨rfl, -⟩ := hc.act_outside (fun k' hk' => hout ⟨k', hk'⟩) hj hs
      rfl
  | acquire op next a s k' hj hs hgrant hfree =>
    have hout : ∀ k', c.owner k' ≠ some j := by
      intro k'' hk''
      obtain ⟨hnone, -⟩ := hc.act_inside hI hframe hk'' hj hs
      rw [hnone] at hgrant
      cases hgrant
    obtain ⟨rfl, -⟩ := hc.act_outside hout hj hs
    have hkk : k ≠ k' := by
      rintro rfl
      rw [hfree] at hk
      cases hk
    exact ⟨rfl, (Function.update_of_ne hkk ..).trans hk, Function.update_of_ne hne.symm ..⟩
  | leave =>
    refine ⟨rfl, ?_, Function.update_of_ne hne.symm ..⟩
    have : c.owner k ≠ some j := fun h => hne (Option.some.inj (h.symm.trans hk))
    simpa only [this, if_false] using hk

/-- The owner of a lock performs its own operations against its object. -/
theorem Pool.Safe.own_step {c d : Pool Op Ans ε α κ τ} (hc : Pool.Safe M G I grants owned c)
    {i : ℕ} {k : κ} {e : Event Op Ans} (hk : c.owner k = some i)
    (hstep : Pool.Step M grants startable c i (some e) d) :
    d.owner k = some i ∧ ∃ next, c.process i = some (.perform e.op next) ∧
      d.process i = some (next e.answer) ∧ M k (c.state k) e.op e.answer (d.state k) := by
  cases hstep with
  | act op next a s hi hs hgrant =>
    exact ⟨hk, next, hi, Function.update_self .., hs k⟩
  | acquire op next a s k' hi hs hgrant hfree =>
    obtain ⟨hnone, -⟩ := hc.act_inside hI hframe hk hi hs
    rw [hnone] at hgrant
    cases hgrant

include hstart

/-- **A section is a run of its owner alone.** What the owner goes on to do extends a run that
started where it entered. -/
theorem Pool.Section.exec {c d : Pool Op Ans ε α κ τ} (hc : Pool.Safe M G I grants owned c)
    {i : ℕ} {k : κ} {q : Program Op Ans ε α} {tr : List (Event Op Ans)}
    (hk : c.owner k = some i) (hq : c.process i = some q)
    (h : Pool.Section M grants startable i c tr d) :
    d.owner k = some i ∧ ∃ r, d.process i = some r ∧ ∀ tr' t out,
      Exec (M k) (d.state k) r tr' t out → Exec (M k) (c.state k) q (tr ++ tr') t out := by
  induction h with
  | enter => exact ⟨hk, q, hq, fun _ _ _ h => h⟩
  | @own tr d d' e hsec hstep ih =>
    obtain ⟨howner, r, hr, hexec⟩ := ih
    have hd := hsec.reaches.safe hI hframe hstart hc
    obtain ⟨howner', next, hnext, hnext', hM⟩ := hd.own_step hI hframe howner hstep
    obtain rfl : r = .perform e.op next := Option.some.inj (hr.symm.trans hnext)
    refine ⟨howner', _, hnext', fun tr' t out h => ?_⟩
    rw [List.append_assoc]
    exact hexec _ _ _ (.performed hM h)
  | @other tr d d' j label hsec hne hstep ih =>
    obtain ⟨howner, r, hr, hexec⟩ := ih
    have hd := hsec.reaches.safe hI hframe hstart hc
    obtain ⟨hstate, howner', hprocess⟩ := hd.undisturbed hI hframe howner hne hstep
    exact ⟨howner', r, hprocess.trans hr, hstate ▸ hexec⟩

/-- What is known of the processes of a pool that a run from an idle one has led to: owners are in
sections entered where `J` held, and the others are on their way from a program that may be
started. -/
structure Pool.Tracked (M : κ → Semantics Op Ans τ) (grants : (op : Op) → Ans op → Option κ)
    (startable : Program Op Ans ε α → Prop) (J : Pool Op Ans ε α κ τ → Prop) (s : κ → τ)
    (c : Pool Op Ans ε α κ τ) : Prop where
  inside : ∀ k i, c.owner k = some i → ∃ b q tr,
    Pool.Reaches M grants startable (.idle s) b ∧ J b ∧
      Pool.Within M grants startable i k b q tr c
  outside : ∀ i r, (∀ k, c.owner k ≠ some i) → c.process i = some r →
    ∃ p, startable p ∧ ∀ k q, Enters grants k r q → Enters grants k p q

omit hI hframe hstart in
/-- A step of another process extends the section of an owner. -/
theorem Pool.Tracked.inside_other {J : Pool Op Ans ε α κ τ → Prop} {s : κ → τ}
    {c d : Pool Op Ans ε α κ τ} (hc : Pool.Tracked M grants startable J s c) {i j : ℕ} {k : κ}
    {label : Option (Event Op Ans)} (hk : c.owner k = some i) (hne : j ≠ i)
    (hstep : Pool.Step M grants startable c j label d) :
    ∃ b q tr, Pool.Reaches M grants startable (.idle s) b ∧ J b ∧
      Pool.Within M grants startable i k b q tr d := by
  obtain ⟨b, q, tr, hb, hJ, hwithin⟩ := hc.inside k i hk
  exact ⟨b, q, tr, hb, hJ, hwithin.owner, hwithin.process, hwithin.origin,
    .other hwithin.section_ hne hstep⟩

omit hstart in
/-- A step keeps track of all processes. -/
theorem Pool.Tracked.step {J : Pool Op Ans ε α κ τ → Prop} {s : κ → τ}
    {c d : Pool Op Ans ε α κ τ} (hc : Pool.Tracked M grants startable J s c)
    (hsafe : Pool.Safe M G I grants owned c) (hreach : Pool.Reaches M grants startable (.idle s) c)
    (hd : J d) {j : ℕ} {label : Option (Event Op Ans)}
    (hstep : Pool.Step M grants startable c j label d) :
    Pool.Tracked M grants startable J s d := by
  have hother := fun {i : ℕ} {k : κ} (hk : c.owner k = some i) (hne : j ≠ i) =>
    hc.inside_other hk hne hstep
  cases hstep with
  | start p hj hp =>
    refine ⟨fun k i hk => hother hk ?_, fun i r hi hr => ?_⟩
    · rintro rfl
      have := hsafe.alive k j hk
      rw [hj] at this
      cases this
    · by_cases hij : i = j
      · subst hij
        obtain rfl : p = r := by simpa using hr
        exact ⟨p, hp, fun _ _ h => h⟩
      · exact hc.outside i r hi (by simpa only [Function.update_of_ne hij] using hr)
  | act op next a s' hj hs hgrant =>
    refine ⟨fun k i hk => ?_, fun i r hi hr => ?_⟩
    · by_cases hij : i = j
      · subst hij
        -- a step of the owner itself lengthens its section
        obtain ⟨b, q, tr, hb, hJ, hwithin⟩ := hc.inside k i hk
        exact ⟨b, q, tr ++ [⟨op, a⟩], hb, hJ, hwithin.owner, hwithin.process, hwithin.origin,
          .own hwithin.section_ (.act c i op next a s' hj hs hgrant)⟩
      · exact hother hk (Ne.symm hij)
    · by_cases hij : i = j
      · subst hij
        obtain rfl : next a = r := by simpa using hr
        obtain ⟨p, hp, henters⟩ := hc.outside i _ hi hj
        exact ⟨p, hp, fun k q h => henters k q (.later op next a hgrant h)⟩
      · exact hc.outside i r hi (by simpa only [Function.update_of_ne hij] using hr)
  | acquire op next a s' k' hj hs hgrant hfree =>
    -- who acquires holds no lock yet, so a new section begins here
    have hout : ∀ k, c.owner k ≠ some j := by
      intro k hk
      obtain ⟨hnone, -⟩ := hsafe.act_inside hI hframe hk hj hs
      rw [hnone] at hgrant
      cases hgrant
    refine ⟨fun k i hk => ?_, fun i r hi hr => ?_⟩
    · by_cases hkk : k = k'
      · subst hkk
        obtain rfl : j = i := by simpa using hk
        obtain ⟨p, hp, henters⟩ := hc.outside j _ hout hj
        exact ⟨_, next a, [], hreach.tail (.acquire c j op next a s' k hj hs hgrant hfree), hd, hk,
          Function.update_self .., ⟨p, hp, henters k _ (.granted op next a hgrant)⟩, .enter⟩
      · have hk' : c.owner k = some i := by simpa only [Function.update_of_ne hkk] using hk
        exact hother hk' fun hij => hout k (hij ▸ hk')
    · have hij : i ≠ j := by
        rintro rfl
        exact hi k' (Function.update_self ..)
      refine hc.outside i r (fun k hk => ?_) (by simpa only [Function.update_of_ne hij] using hr)
      have hkk : k ≠ k' := by
        rintro rfl
        rw [hfree] at hk
        cases hk
      exact hi k (by simpa only [Function.update_of_ne hkk] using hk)
  | leave =>
    refine ⟨fun k i hk => ?_, fun i r hi hr => ?_⟩
    · dsimp only at hk
      split at hk
      · cases hk
      · rename_i hne
        exact hother hk fun hij => hne (hij ▸ hk)
    · by_cases hij : i = j
      · subst hij
        simp at hr
      · refine hc.outside i r (fun k hk => hi k ?_)
          (by simpa only [Function.update_of_ne hij] using hr)
        have hne : c.owner k ≠ some j := fun h => hij (Option.some.inj (hk.symm.trans h))
        simp only [hne, if_false]
        exact hk

/-- **Every owner is in a section** that a startable program entered. A property `J` of pools that
every step preserves, given the sections of its owners, holds along with it. -/
theorem Pool.Reaches.sections {J : Pool Op Ans ε α κ τ → Prop} {s : κ → τ}
    (hs : ∀ k, I k (s k)) (hJ₀ : J (.idle s))
    (hJ : ∀ c d j label, Pool.Reaches M grants startable (.idle s) c → J c →
      Pool.Tracked M grants startable J s c → Pool.Step M grants startable c j label d → J d)
    {c : Pool Op Ans ε α κ τ} (h : Pool.Reaches M grants startable (.idle s) c) :
    J c ∧ Pool.Tracked M grants startable J s c := by
  induction h with
  | refl => exact ⟨hJ₀, by simp [Pool.idle], by simp [Pool.idle]⟩
  | tail hreach hstep ih =>
    have hd := hJ _ _ _ _ hreach ih.1 ih.2 hstep
    exact ⟨hd, ih.2.step hI hframe (hreach.safe hI hframe hstart (.idle hs)) hreach hd hstep⟩

end Sections

end Interaction
