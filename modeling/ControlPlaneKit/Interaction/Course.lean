import ControlPlaneKit.Interaction.Alone

/-!
# The course of one process

`Pool.Course` is the part of a run in which one process is started and performs its operations,
while the others step in between. What the process does is a run of its own program, whatever
the others do (`Pool.Course.runs`), and each of its operations is a step between two pools of the
run (`Pool.Course.performed`).
-/

namespace Interaction

universe u v w x y

variable {Op : Type u} {Ans : Op → Type v} {ε α : Type w} {τ : Type x} {κ : Type y} [DecidableEq κ]

/-- From `c` on, the process `i` is started with `p` and performs these operations. -/
structure Pool.Course (M : κ → Semantics Op Ans τ) (grants : (op : Op) → Ans op → Option κ)
    (startable : Program Op Ans ε α → Prop) (c : Pool Op Ans ε α κ τ) (i : ℕ)
    (p : Program Op Ans ε α) (tr : List (Event Op Ans)) (d : Pool Op Ans ε α κ τ) : Prop where
  start : startable p
  started : ∃ b, Pool.Reaches M grants startable c b ∧ b.process i = none ∧
    Pool.Section M grants startable i
      { b with process := Function.update b.process i (some p) } tr d

section Course

variable {M : κ → Semantics Op Ans τ} {grants : (op : Op) → Ans op → Option κ}
  {startable : Program Op Ans ε α → Prop} {c d : Pool Op Ans ε α κ τ} {i : ℕ}
  {p q : Program Op Ans ε α} {tr : List (Event Op Ans)}

/-- A step of another process leaves a program alone. -/
theorem Pool.Step.process_other {j : ℕ} {label : Option (Event Op Ans)}
    (h : Pool.Step M grants startable c j label d) (hne : j ≠ i) : d.process i = c.process i := by
  cases h <;> exact Function.update_of_ne hne.symm ..

/-- The operation of a step is the next one of its process. -/
theorem Pool.Step.process_own {e : Event Op Ans}
    (h : Pool.Step M grants startable c i (some e) d) :
    Semantics.product M c.state e.op e.answer d.state ∧
      ∃ next, c.process i = some (.perform e.op next) ∧ d.process i = some (next e.answer) := by
  cases h with
  | act op next a s hi hstep hgrant => exact ⟨hstep, next, hi, Function.update_self ..⟩
  | acquire op next a s k hi hstep hgrant hfree => exact ⟨hstep, next, hi, Function.update_self ..⟩

/-- What a process goes on to do extends a run of the program it had. -/
theorem Pool.Section.runs (h : Pool.Section M grants startable i c tr d)
    (hp : c.process i = some p) : ∃ q, d.process i = some q ∧
      ∀ tr' r, q.Runs tr' r → p.Runs (tr ++ tr') r := by
  induction h with
  | enter => exact ⟨p, hp, fun _ _ h => h⟩
  | @own tr d d' e _ hstep ih =>
    obtain ⟨q, hq, hruns⟩ := ih
    obtain ⟨-, next, hnext, hnext'⟩ := hstep.process_own
    obtain rfl : q = .perform e.op next := Option.some.inj (hq.symm.trans hnext)
    refine ⟨_, hnext', fun tr' r h => ?_⟩
    rw [List.append_assoc]
    exact hruns _ r (.perform h)
  | other _ hne hstep ih =>
    obtain ⟨q, hq, hruns⟩ := ih
    exact ⟨q, (hstep.process_other hne).trans hq, hruns⟩

/-- Each operation of a section is a step of the run. -/
theorem Pool.Section.performed (h : Pool.Section M grants startable i c tr d) {e : Event Op Ans}
    (he : e ∈ tr) : ∃ b b', Pool.Reaches M grants startable c b ∧
      Pool.Step M grants startable b i (some e) b' ∧ Pool.Reaches M grants startable b' d := by
  induction h with
  | enter => cases he
  | own h hstep ih =>
    rcases List.mem_append.mp he with he | he
    · obtain ⟨b, b', hb, hlast, hd⟩ := ih he
      exact ⟨b, b', hb, hlast, hd.tail hstep⟩
    · cases List.mem_singleton.mp he
      exact ⟨_, _, h.reaches, hstep, .refl⟩
  | other _ _ hstep ih =>
    obtain ⟨b, b', hb, hlast, hd⟩ := ih he
    exact ⟨b, b', hb, hlast, hd.tail hstep⟩

theorem Pool.Course.reaches (h : Pool.Course M grants startable c i p tr d) :
    Pool.Reaches M grants startable c d := by
  obtain ⟨b, hb, hfree, hsection⟩ := h.started
  exact (hb.tail (.start b i p hfree h.start)).trans hsection.reaches

/-- **What a process does is a run of its program**: it goes on as what is left of it. -/
theorem Pool.Course.runs (h : Pool.Course M grants startable c i p tr d) :
    ∃ q, d.process i = some q ∧ ∀ tr' r, q.Runs tr' r → p.Runs (tr ++ tr') r := by
  obtain ⟨b, -, -, hsection⟩ := h.started
  exact hsection.runs (Function.update_self ..)

/-- A process that has returned a value has run its program to the end. -/
theorem Pool.Course.returned {a : α} (h : Pool.Course M grants startable c i p tr d)
    (hd : d.process i = some (.pure a)) : p.Runs tr (.ok a) := by
  obtain ⟨q, hq, hruns⟩ := h.runs
  obtain rfl : q = .pure a := Option.some.inj (hq.symm.trans hd)
  simpa using hruns [] _ (.pure a)

/-- **Each operation of a process is a step of the run** it takes part in. -/
theorem Pool.Course.performed (h : Pool.Course M grants startable c i p tr d) {e : Event Op Ans}
    (he : e ∈ tr) : ∃ b b', Pool.Reaches M grants startable c b ∧
      Pool.Step M grants startable b i (some e) b' ∧ Pool.Reaches M grants startable b' d := by
  obtain ⟨b, hb, hfree, hsection⟩ := h.started
  obtain ⟨d₀, d₁, hd₀, hstep, hd₁⟩ := hsection.performed he
  exact ⟨d₀, d₁, (hb.tail (.start b i p hfree h.start)).trans hd₀, hstep, hd₁⟩

/-- **The run of one program alone is its course**, and it may leave where it stands. -/
theorem Pool.Course.alone {s : κ → τ} {k : κ} {t' : τ} (hp : startable p)
    (h : Residual (M k) (s k) p tr t' q) (hlocal : ∀ e ∈ tr, Local M grants k s e)
    (hgranted : granted grants tr ≤ 1) : ∃ d : Pool Op Ans ε α κ τ,
      Pool.Course M grants startable (.idle s) 0 p tr d ∧ d.state = Function.update s k t' ∧
        d.process 0 = some q ∧ Pool.Reaches M grants startable d (.idle d.state) := by
  obtain ⟨d, hd, hstate, hprocess, howner⟩ := h.section_ (i := 0)
    (c := ⟨s, fun _ => none, Function.update (fun _ => none) 0 (some p)⟩)
    (by simp) rfl hlocal (.inr ⟨hgranted, rfl⟩)
  rw [Function.update_idem] at hprocess
  refine ⟨d, ⟨hp, .idle s, .refl, rfl, hd⟩, hstate, by simp [hprocess], ?_⟩
  have hidle : (⟨d.state, fun k => if d.owner k = some 0 then none else d.owner k,
      Function.update d.process 0 none⟩ : Pool Op Ans ε α κ τ) = .idle d.state := by
    rw [Pool.idle, Pool.mk.injEq]
    refine ⟨rfl, funext fun k' => ?_, ?_⟩
    · rcases howner k' with h | h <;> simp [h]
    · rw [hprocess, Function.update_idem, Function.update_eq_self]
  exact hidle ▸ Pool.Reaches.refl.tail (.leave d 0)

end Course

end Interaction
