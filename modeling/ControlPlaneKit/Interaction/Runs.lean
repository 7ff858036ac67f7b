import ControlPlaneKit.Interaction.Program

/-!
# Programs whose runs are enumerated

A program whose operations are performed in a fixed order, up to the answers, has one complete run
for each choice of answers. `p.Enumerates t v` says that the complete runs of `p` are `t i` with
outcome `v i`, where `i` ranges over these choices. Enumerations compose along sequencing, so the
runs of a straight-line program are read off its text.
-/

namespace Interaction

namespace Program

universe u v w x

variable {Op : Type u} {Ans : Op → Type v} {ε : Type w} {α β : Type w} {ι κ : Type x}

/-- Runs compose along sequencing. -/
theorem Runs.bind {p : Program Op Ans ε α} {f : α → Program Op Ans ε β}
    {tr tr' : List (Event Op Ans)} {a : α} {r : Except ε β} (hp : p.Runs tr (.ok a))
    (hf : (f a).Runs tr' r) : (p >>= f).Runs (tr ++ tr') r := by
  induction p generalizing tr with
  | pure b =>
    cases hp
    exact hf
  | raise e => cases hp
  | perform op next ih =>
    cases hp with
    | perform h => exact .perform (ih _ h)

/-- An exception ends a sequence in its first part. -/
theorem Runs.bind_error {p : Program Op Ans ε α} {f : α → Program Op Ans ε β}
    {tr : List (Event Op Ans)} {e : ε} (hp : p.Runs tr (.error e)) :
    (p >>= f).Runs tr (.error e) := by
  induction p generalizing tr with
  | pure a => cases hp
  | raise e' =>
    cases hp
    exact .raise e
  | perform op next ih =>
    cases hp with
    | perform h => exact .perform (ih _ h)

/-- An exception is followed by its handler. -/
theorem Runs.handle_error {ε' : Type w} {p : Program Op Ans ε α} {g : ε → Program Op Ans ε' α}
    {tr tr' : List (Event Op Ans)} {e : ε} {r : Except ε' α} (hp : p.Runs tr (.error e))
    (hg : (g e).Runs tr' r) : (p.handle g).Runs (tr ++ tr') r := by
  induction p generalizing tr with
  | pure a => cases hp
  | raise e' =>
    cases hp
    exact hg
  | perform op next ih =>
    cases hp with
    | perform h => exact .perform (ih _ h)

/-- A run that has ended does not go on. -/
theorem Runs.ended {p : Program Op Ans ε α} {tr more : List (Event Op Ans)} {r r' : Except ε α}
    (hrun : p.Runs tr r) (hrun' : p.Runs (tr ++ more) r') : more = [] ∧ r = r' := by
  induction hrun with
  | pure a =>
    cases hrun'
    exact ⟨rfl, rfl⟩
  | raise e =>
    cases hrun'
    exact ⟨rfl, rfl⟩
  | perform _ ih =>
    cases hrun' with
    | perform hrest => exact ih hrest

/-- A complete run happens in every world that gives its answers and keeps its state. -/
theorem Runs.exec {σ : Type x} {M : Semantics Op Ans σ} {p : Program Op Ans ε α} {s : σ}
    {tr : List (Event Op Ans)} {r : Except ε α} (hM : ∀ op a, M s op a s) (hrun : p.Runs tr r) :
    Exec M s p tr s (some r) := by
  induction hrun with
  | pure a => exact .returned _ _
  | raise e => exact .raised _ _
  | perform _ ih => exact .performed (hM _ _) ih

/-- The run of a program whose operations are answered by a function of the events before. -/
def scripted (respond : List (Event Op Ans) → (op : Op) → Ans op) :
    Program Op Ans ε α → List (Event Op Ans) → List (Event Op Ans) × Except ε α
  | .pure a, _ => ([], .ok a)
  | .raise e, _ => ([], .error e)
  | .perform op next, h =>
    let e : Event Op Ans := ⟨op, respond h op⟩
    let rest := scripted respond (next e.answer) (h ++ [e])
    (e :: rest.1, rest.2)

theorem runs_scripted (respond : List (Event Op Ans) → (op : Op) → Ans op)
    (p : Program Op Ans ε α) (h : List (Event Op Ans)) :
    p.Runs (p.scripted respond h).1 (p.scripted respond h).2 := by
  induction p generalizing h with
  | pure a => exact .pure a
  | raise e => exact .raise e
  | perform op next ih => exact .perform (ih _ _)

/-- The complete runs of `p` are the traces `t i` with the outcomes `v i`. -/
def Enumerates (p : Program Op Ans ε α) (t : ι → List (Event Op Ans)) (v : ι → Except ε α) :
    Prop :=
  ∀ tr r, p.Runs tr r ↔ ∃ i, tr = t i ∧ r = v i

theorem Enumerates.pure [Nonempty ι] (a : α) :
    (Program.pure a : Program Op Ans ε α).Enumerates (fun _ : ι => []) fun _ => .ok a := by
  intro tr r
  constructor
  · intro h
    cases h
    exact ⟨Classical.arbitrary ι, rfl, rfl⟩
  · rintro ⟨-, rfl, rfl⟩
    exact .pure a

theorem Enumerates.raise [Nonempty ι] (e : ε) :
    (Program.raise e : Program Op Ans ε α).Enumerates (fun _ : ι => []) fun _ => .error e := by
  intro tr r
  constructor
  · intro h
    cases h
    exact ⟨Classical.arbitrary ι, rfl, rfl⟩
  · rintro ⟨-, rfl, rfl⟩
    exact .raise e

/-- One operation has one run for each answer. -/
theorem Enumerates.request {Ans : Op → Type w} (op : Op) :
    (Program.request op : Program Op Ans ε (Ans op)).Enumerates (fun a => [⟨op, a⟩])
      fun a => .ok a := by
  intro tr r
  constructor
  · intro h
    cases h with
    | perform h =>
      cases h
      exact ⟨_, rfl, rfl⟩
  · rintro ⟨a, rfl, rfl⟩
    exact .perform (.pure a)

/-- Enumerations compose along sequencing. -/
theorem Enumerates.bind {p : Program Op Ans ε α} {f : α → Program Op Ans ε β}
    {t : ι → List (Event Op Ans)} {v : ι → α} {s : ι → κ → List (Event Op Ans)}
    {y : ι → κ → Except ε β} (hp : p.Enumerates t fun i => .ok (v i))
    (hf : ∀ i, (f (v i)).Enumerates (s i) (y i)) :
    (p >>= f).Enumerates (fun i : ι × κ => t i.1 ++ s i.1 i.2) fun i => y i.1 i.2 := by
  intro tr r
  constructor
  · intro h
    rcases h.bind_cases with ⟨e, he, -⟩ | ⟨a, tr₁, tr₂, rfl, h₁, h₂⟩
    · obtain ⟨i, -, hi⟩ := (hp _ _).mp he
      cases hi
    · obtain ⟨i, rfl, hi⟩ := (hp _ _).mp h₁
      cases hi
      obtain ⟨j, rfl, rfl⟩ := (hf i _ _).mp h₂
      exact ⟨(i, j), rfl, rfl⟩
  · rintro ⟨⟨i, j⟩, rfl, rfl⟩
    exact Runs.bind ((hp _ _).mpr ⟨i, rfl, rfl⟩) ((hf i _ _).mpr ⟨j, rfl, rfl⟩)

/-- A program may be enumerated by richer answers, of which it uses a part. -/
theorem Enumerates.reindex {p : Program Op Ans ε α} {t : ι → List (Event Op Ans)}
    {v : ι → Except ε α} {t' : κ → List (Event Op Ans)} {v' : κ → Except ε α}
    (hp : p.Enumerates t v) (f : κ → ι) (hf : f.Surjective) (ht : ∀ k, t' k = t (f k))
    (hv : ∀ k, v' k = v (f k)) : p.Enumerates t' v' := by
  intro tr r
  rw [hp tr r]
  constructor
  · rintro ⟨i, rfl, rfl⟩
    obtain ⟨k, rfl⟩ := hf i
    exact ⟨k, (ht k).symm, (hv k).symm⟩
  · rintro ⟨k, rfl, rfl⟩
    exact ⟨f k, ht k, hv k⟩

end Program

end Interaction
