import ControlPlaneKit.Interaction.Section

/-!
# A process that runs while the others rest

The converse of sections: a run of one program against one object is a run of the pool in which
nobody else takes a step, provided that the other objects may stay as they are and that it takes
no lock but that of its object. `Pool.Reaches.alone` follows it to the end, where the process
leaves; `Pool.Reaches.midway` stops in front of one of its operations.
-/

namespace Interaction

universe u v w x y

variable {Op : Type u} {Ans : Op → Type v} {ε α : Type w} {τ : Type x} {κ : Type y} [DecidableEq κ]

/-- An event that leaves all objects but `k` alone and grants no other lock. -/
structure Local (M : κ → Semantics Op Ans τ) (grants : (op : Op) → Ans op → Option κ) (k : κ)
    (s : κ → τ) (e : Event Op Ans) : Prop where
  others : ∀ k', k' ≠ k → M k' (s k') e.op e.answer (s k')
  grants : ∀ k', grants e.op e.answer = some k' → k' = k

section Alone

variable {M : κ → Semantics Op Ans τ} {grants : (op : Op) → Ans op → Option κ}
  {startable : Program Op Ans ε α → Prop}

/-- The number of times a lock is granted. -/
def granted (grants : (op : Op) → Ans op → Option κ) (tr : List (Event Op Ans)) : ℕ :=
  tr.countP fun e => (grants e.op e.answer).isSome

/-- A step of one object is a step of all. -/
theorem Local.step {k : κ} {s : κ → τ} {op : Op} {a : Ans op} {t : τ}
    (h : Local M grants k s ⟨op, a⟩) (hstep : M k (s k) op a t) :
    Semantics.product M s op a (Function.update s k t) := by
  intro k'
  by_cases hk : k' = k
  · subst hk
    rwa [Function.update_self]
  · rw [Function.update_of_ne hk]
    exact h.others k' hk

/-- The run of a residual program is a run of the pool in which nobody else takes a step. -/
theorem Residual.section_ {k : κ} {t t' : τ} {p q : Program Op Ans ε α} {tr : List (Event Op Ans)}
    (h : Residual (M k) t p tr t' q) {c : Pool Op Ans ε α κ τ} {i : ℕ}
    (hi : c.process i = some p) (ht : c.state k = t)
    (hlocal : ∀ e ∈ tr, Local M grants k c.state e)
    (hfree : granted grants tr = 0 ∨ granted grants tr ≤ 1 ∧ c.owner k = none) :
    ∃ d, Pool.Section M grants startable i c tr d ∧ d.state = Function.update c.state k t' ∧
      d.process = Function.update c.process i (some q) ∧
        ∀ k', d.owner k' = c.owner k' ∨ d.owner k' = some i := by
  induction h generalizing c with
  | refl t p =>
    refine ⟨c, .enter, ?_, ?_, fun _ => .inl rfl⟩
    · rw [← ht, Function.update_eq_self]
    · rw [← hi, Function.update_eq_self]
  | @step t t₁ t' op next a tr q hstep _ ih =>
    have hhead : Local M grants k c.state ⟨op, a⟩ := hlocal _ (by simp)
    have hproduct := hhead.step (by rwa [ht])
    -- Whatever the owners are afterwards, the rest of the run follows.
    have hrest : ∀ owner : κ → Option ℕ, (∀ k', owner k' = c.owner k' ∨ owner k' = some i) →
        (granted grants tr = 0 ∨ granted grants tr ≤ 1 ∧ owner k = none) →
        Pool.Step M grants startable c i (some ⟨op, a⟩)
          ⟨Function.update c.state k t₁, owner, Function.update c.process i (some (next a))⟩ →
        ∃ d, Pool.Section M grants startable i c (⟨op, a⟩ :: tr) d ∧
          d.state = Function.update c.state k t' ∧
          d.process = Function.update c.process i (some q) ∧
            ∀ k', d.owner k' = c.owner k' ∨ d.owner k' = some i := by
      intro owner howner hfree' hpool
      have hlocal' : ∀ e ∈ tr, Local M grants k (Function.update c.state k t₁) e := by
        intro e he
        have htail := hlocal e (List.mem_cons_of_mem _ he)
        refine ⟨fun k' hk' => ?_, htail.grants⟩
        rw [Function.update_of_ne hk']
        exact htail.others k' hk'
      obtain ⟨d, hd, hstate, hprocess, howner'⟩ := ih
        (c := ⟨Function.update c.state k t₁, owner, Function.update c.process i (some (next a))⟩)
        (Function.update_self ..) (Function.update_self ..) hlocal' hfree'
      refine ⟨d, (Pool.Section.enter.own hpool).trans hd, ?_, ?_, fun k' => ?_⟩
      · rw [hstate, Function.update_idem]
      · rw [hprocess, Function.update_idem]
      · rcases howner' k' with hk' | hk'
        · rw [hk']
          exact howner k'
        · exact .inr hk'
    cases hgrant : grants op a with
    | none =>
      have hcount : granted grants (⟨op, a⟩ :: tr) = granted grants tr := by
        simp [granted, hgrant]
      rw [hcount] at hfree
      exact hrest c.owner (fun _ => .inl rfl) hfree (.act c i op next a _ hi hproduct hgrant)
    | some k' =>
      obtain rfl := hhead.grants k' hgrant
      have hcount : granted grants (⟨op, a⟩ :: tr) = granted grants tr + 1 := by
        simp [granted, hgrant]
      rw [hcount] at hfree
      obtain ⟨hone, hnone⟩ := hfree.resolve_left (by omega)
      refine hrest (Function.update c.owner k' (some i)) (fun k => ?_) (.inl (by omega))
        (.acquire c i op next a _ k' hi hproduct hgrant hnone)
      by_cases hk : k = k'
      · subst hk
        exact .inr (Function.update_self ..)
      · exact .inl (Function.update_of_ne hk ..)

variable {s₀ s : κ → τ} {k : κ} {p : Program Op Ans ε α} {tr tr' : List (Event Op Ans)} {t' : τ}
  {out : Option (Except ε α)}

/-- A program that is started alone runs up to any point. -/
theorem Pool.Reaches.started (hs : Pool.Reaches M grants startable (.idle s₀) (.idle s))
    (hp : startable p) {q : Program Op Ans ε α} (h : Residual (M k) (s k) p tr t' q)
    (hlocal : ∀ e ∈ tr, Local M grants k s e) (hgranted : granted grants tr ≤ 1) :
    ∃ d : Pool Op Ans ε α κ τ, Pool.Reaches M grants startable (.idle s₀) d ∧
      d.state = Function.update s k t' ∧
        d.process = Function.update (fun _ => none) 0 (some q) ∧
          ∀ k', d.owner k' = none ∨ d.owner k' = some 0 := by
  have hstart : Pool.Step M grants startable (.idle s) 0 none
      ⟨s, fun _ => none, Function.update (fun _ => none) 0 (some p)⟩ :=
    .start (.idle s) 0 p rfl hp
  obtain ⟨d, hd, hstate, hprocess, howner⟩ := h.section_ (i := 0)
    (c := ⟨s, fun _ => none, Function.update (fun _ => none) 0 (some p)⟩)
    (by simp) rfl hlocal (.inr ⟨hgranted, rfl⟩)
  refine ⟨d, (hs.tail hstart).trans hd.reaches, hstate, ?_, howner⟩
  rw [hprocess, Function.update_idem]

/-- **A run of one program alone leads from one idle pool to the next.** -/
theorem Pool.Reaches.alone (hs : Pool.Reaches M grants startable (.idle s₀) (.idle s))
    (hp : startable p) (h : Exec (M k) (s k) p tr t' out)
    (hlocal : ∀ e ∈ tr, Local M grants k s e) (hgranted : granted grants tr ≤ 1) :
    Pool.Reaches M grants startable (.idle s₀ : Pool Op Ans ε α κ τ)
      (.idle (Function.update s k t')) := by
  have hwhole : Exec (M k) (s k) p (tr ++ []) t' out := by simpa using h
  obtain ⟨t₁, q, hresidual, hexec⟩ := Exec.split hwhole
  obtain rfl : t₁ = t' := by cases hexec <;> rfl
  obtain ⟨d, hd, hstate, hprocess, howner⟩ := hs.started hp hresidual hlocal hgranted
  have hidle : (⟨d.state, fun k => if d.owner k = some 0 then none else d.owner k,
      Function.update d.process 0 none⟩ : Pool Op Ans ε α κ τ) =
        .idle (Function.update s k t₁) := by
    rw [Pool.idle, Pool.mk.injEq]
    refine ⟨hstate, funext fun k' => ?_, ?_⟩
    · rcases howner k' with h | h <;> simp [h]
    · rw [hprocess, Function.update_idem, Function.update_eq_self]
  exact hidle ▸ hd.tail (.leave d 0)

/-- **A run of one program alone, stopped in front of one of its operations.** -/
theorem Pool.Reaches.midway (hs : Pool.Reaches M grants startable (.idle s₀) (.idle s))
    (hp : startable p) {e : Event Op Ans} (h : Exec (M k) (s k) p (tr ++ e :: tr') t' out)
    (hlocal : ∀ e' ∈ tr ++ [e], Local M grants k s e') (hgranted : granted grants tr ≤ 1)
    (hnone : grants e.op e.answer = none) :
    ∃ c d : Pool Op Ans ε α κ τ, Pool.Reaches M grants startable (.idle s₀) c ∧
      Pool.Step M grants startable c 0 (some e) d := by
  obtain ⟨t₁, q, hresidual, hexec⟩ := Exec.split h
  cases hexec with
  | @performed _ t₂ _ op next a _ _ hstep _ =>
    obtain ⟨c, hc, hstate, hprocess, -⟩ := hs.started hp hresidual
      (fun e' he' => hlocal e' (List.mem_append_left _ he')) hgranted
    have he : Local M grants k c.state ⟨op, a⟩ := by
      have hlocal' := hlocal ⟨op, a⟩ (by simp)
      refine ⟨fun k' hk' => ?_, hlocal'.grants⟩
      have hother := hlocal'.others k' hk'
      rwa [hstate, Function.update_of_ne hk']
    have hstep' : M k (c.state k) op a t₂ := by
      rwa [hstate, Function.update_self]
    have hi : c.process 0 = some (.perform op next) := by
      rw [hprocess, Function.update_self]
    exact ⟨c, _, hc, .act c 0 op next a _ hi (he.step hstep') hnone⟩

end Alone

end Interaction
