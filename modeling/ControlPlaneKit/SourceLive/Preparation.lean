import ControlPlaneKit.SourceLive.Permitted

/-!
# The calls before the phases

The rules of `Drives` for the bootstrap of the workspace: the reads of the retained mode, the
imports, and the registrations. After it the keys of all phases are free.
-/

namespace ControlPlaneKit

namespace SourceLive

namespace Convergence

open Interaction Program

section Bootstrap

variable {around : Surroundings} {scenario : Scenario} {r r' : ℕ ×ₗ ℕ ×ₗ ℕ} {h : History}
  {α β : Type} {s : State}

theorem agrees_eq_true {v : Json} {members : List (String × Json)}
    (hagrees : agrees v members = .ok true) :
    ∀ m ∈ members, ∃ x, Has v m.1 x ∧ x.pyEq m.2 = true := by
  induction members with
  | nil => simp
  | cons m members ih =>
    simp only [agrees, Raise.bind_eq_ok] at hagrees
    obtain ⟨x, hx, hrest⟩ := hagrees
    split at hrest
    · rename_i heq
      exact List.forall_mem_cons.mpr ⟨⟨x, hx, heq⟩, ih hrest⟩
    · cases hrest

/-- A string that agrees is the member. -/
theorem has_of_agrees {v : Json} {members : List (String × Json)} {key : String} {t : Text}
    (hagrees : agrees v members = .ok true) (hmem : (key, .str t) ∈ members) :
    Has v key (.str t) := by
  obtain ⟨x, hx, heq⟩ := agrees_eq_true hagrees _ hmem
  rwa [Json.pyEq_str.mp heq] at hx

theorem require_bind {x : Except Doubt Bool} {u : Unit} :
    (x >>= fun b => require b) = .ok u ↔ x = .ok true := by
  simp [Raise.bind_eq_ok]

theorem coordinate_eq_ok {v : Json} {t : Text} (hv : coordinate v = .ok t) :
    v = .str t ∧ 0 < t.codes.length ∧ t.codes.length ≤ 256 := by
  unfold coordinate at hv
  split at hv
  · split at hv
    · rename_i hlength
      cases hv
      exact ⟨rfl, hlength⟩
    · cases hv
  · cases hv

/-- A coordinate is read from a member. -/
theorem hasCoordinate_of_eq {v : Json} {key : String} {t : Text}
    (hv : (item v key >>= coordinate) = .ok t) :
    Has v key (.str t) ∧ 0 < t.codes.length ∧ t.codes.length ≤ 256 := by
  obtain ⟨x, hx, ht⟩ := Raise.bind_eq_ok.mp hv
  obtain ⟨rfl, hlength⟩ := coordinate_eq_ok ht
  exact ⟨hx, hlength⟩

/-! ### The documents -/

/-- The place of the keys of a list of documents. -/
def place (i n : ℕ) : ℕ ×ₗ ℕ ×ₗ ℕ :=
  toLex (i, toLex (n, 0))

theorem place_lt {i n j m : ℕ} : place i n < place j m ↔ i < j ∨ i = j ∧ n < m := by
  simp [place, Prod.Lex.toLex_lt_toLex]

/-- One command for each document. -/
theorem Drives.documents {Q : Unit → State → History → Prop} {i n : ℕ}
    {f : Product × Json → Drive Unit} {documents : List (Product × Json)}
    (hf : ∀ d (Q : Unit → State → History → Prop) s h, Going scenario (place i d.1.ordinal) h →
      (∀ s' h', Going scenario (place i (d.1.ordinal + 1)) h' →
        s'.rows = s.rows → Q () s' h') →
      Drives around scenario Q (f d) s h)
    (hsorted : (documents.map fun d => d.1.ordinal).Pairwise (· < ·))
    (hn : ∀ d ∈ documents, n ≤ d.1.ordinal) (hg : Going scenario (place i n) h)
    (next : ∀ s' h', Going scenario (place (i + 1) 0) h' →
      s'.rows = s.rows → Q () s' h') :
    Drives around scenario Q (documents.forM f) s h := by
  induction documents generalizing n s h with
  | nil =>
    refine Drives.pure (next _ _ (hg.mono ?_) rfl)
    exact (place_lt.mpr (.inl (Nat.lt_succ_self i))).le
  | cons d documents ih =>
    obtain ⟨hd, hsorted⟩ := List.pairwise_cons.mp hsorted
    change Drives around scenario Q (f d >>= fun _ => documents.forM f) s h
    have hplace : place i n ≤ place i d.1.ordinal := by
      have hle := hn d List.mem_cons_self
      rcases hle.lt_or_eq with hlt | heq
      · exact (place_lt.mpr (.inr ⟨rfl, hlt⟩)).le
      · rw [heq]
    refine Drives.bind (hf d _ _ _ (hg.mono hplace) fun s' h' hg' hs' => ?_)
    refine ih hsorted (fun d' hd' => ?_) hg' fun s'' h'' hg'' hs'' => ?_
    · exact hd _ (List.mem_map_of_mem hd')
    · exact next s'' h'' hg'' (hs''.trans hs')

/-- A command whose answer is not checked. -/
theorem Drives.unchecked {Q : Json → State → History → Prop} {route : String} (key : Key)
    {arguments : Fields} (hg : Going scenario key.rank h)
    (hroute : route ∉ "command.approval.decide" :: gatedRoutes ++ evidenceRoutes)
    (hr : key.rank < r)
    (hkey : ∀ c v, CheckedAs scenario h c v (some key))
    (next : ∀ members h', Going scenario r h' →
      Q (.obj members) { s with calls := s.calls + 1 } h') :
    Drives around scenario Q (command around scenario route key arguments) s h :=
  Drives.ungated key hg hroute fun _ members he =>
    next members _ (hg.afterCommand he hr (hkey _ _))

theorem Drives.importProducts {Q : Unit → State → History → Prop}
    {documents : List (Product × Json)}
    (hsorted : (documents.map fun d => d.1.ordinal).Pairwise (· < ·))
    (hg : Going scenario (place 1 0) h)
    (next : ∀ s' h', Going scenario (place 2 0) h' →
      s'.rows = s.rows → Q () s' h') :
    Drives around scenario Q (importProducts around scenario documents) s h := by
  refine Drives.documents (fun d Q s h hg next => ?_) hsorted (fun _ _ => Nat.zero_le _) hg next
  refine Drives.bind (Drives.modify (Drives.bind ?_))
  refine Drives.unchecked (.product d.1) hg (by decide)
    (place_lt.mpr (.inr ⟨rfl, Nat.lt_succ_self _⟩)) (fun _ _ => trivial) ?_
  exact fun members h' hg' => Drives.pure (next _ _ hg' rfl)

theorem Drives.setPullStep {Q : Unit → State → History → Prop} {p : Product}
    (next : ∀ step, Q () { s with bootstrapStep := step } h) :
    Drives around scenario Q (setPullStep p) s h := by
  cases p with
  | cloudflaredConnector => exact Drives.raise
  | _ => exact Drives.modify (next _)

theorem Drives.registerPullAuthorities {Q : Unit → State → History → Prop}
    {documents : List (Product × Json)}
    (hsorted : (documents.map fun d => d.1.ordinal).Pairwise (· < ·))
    (hg : Going scenario (place 6 0) h)
    (next : ∀ s' h', Going scenario (place 7 0) h' →
      s'.rows = s.rows → Q () s' h') :
    Drives around scenario Q (registerPullAuthorities around scenario documents) s h := by
  refine Drives.documents (fun d Q s h hg next => ?_) hsorted (fun _ _ => Nat.zero_le _) hg next
  refine Drives.bind (Drives.setPullStep fun step => ?_)
  refine Drives.bind (Drives.check fun image _ => Drives.bind (Drives.check fun registry _ => ?_))
  refine Drives.bind (Drives.check fun _ _ => Drives.bind (Drives.check fun repository _ => ?_))
  refine Drives.bind ?_
  refine Drives.unchecked (.pullAuthority d.1) hg (by decide)
    (place_lt.mpr (.inr ⟨rfl, Nat.lt_succ_self _⟩)) (fun _ _ => trivial) ?_
  exact fun members h' hg' => Drives.pure (next _ _ hg' rfl)

/-- The provider of the retained mode, and what is registered with it. -/
theorem Drives.registerCustody {Q : Unit → State → History → Prop}
    (hg : Going scenario (place 2 0) h)
    (next : ∀ s' h', Going scenario (place 4 0) h' →
      s'.rows = s.rows → Q () s' h') :
    Drives around scenario Q (registerCustody around scenario) s h := by
  have hle : place 2 0 ≤ place 4 0 := (place_lt.mpr (.inl (by omega))).le
  unfold Convergence.registerCustody
  split
  · refine Drives.whenever (fun _ => ?_) fun _ => next _ _ (hg.mono hle) rfl
    refine Drives.bind (Drives.modify (Drives.bind ?_))
    refine Drives.ungated .secretProvider hg (by decide) fun e members he => ?_
    refine Drives.bind (Drives.check fun registration hregistration => Drives.bind ?_)
    obtain ⟨hhas, hlength⟩ := hasCoordinate_of_eq hregistration
    have hg' : Going scenario (place 3 0) _ :=
      hg.afterCommand he (place_lt.mpr (.inl (by omega))) ⟨registration, hhas, hlength⟩
    refine Drives.unchecked .tunnelReference (r := place 4 0) hg' (by decide)
      (place_lt.mpr (.inl (by omega))) (fun _ _ => trivial) ?_
    exact fun members h' hg' => Drives.pure (next _ _ hg' rfl)
  · exact Drives.pure (next _ _ (hg.mono hle) rfl)

theorem Drives.registerAuthority {Q : Unit → State → History → Prop}
    (hg : Going scenario (place 4 0) h)
    (next : ∀ s' h', Going scenario (place 6 0) h' →
      s'.rows = s.rows → Q () s' h') :
    Drives around scenario Q (registerAuthority around scenario) s h := by
  refine Drives.bind (Drives.modify (Drives.bind ?_))
  refine Drives.unchecked .authority (r := place 5 0) hg (by decide)
    (place_lt.mpr (.inl (by omega))) (fun _ _ => trivial) fun members h' hg' => ?_
  refine Drives.bind (Drives.modify (Drives.bind ?_))
  refine Drives.unchecked .delivery (r := place 6 0) hg' (by decide)
    (place_lt.mpr (.inl (by omega))) (fun _ _ => trivial) ?_
  exact fun members h' hg' => Drives.pure (next _ _ hg' rfl)

end Bootstrap

section Start

variable {around : Surroundings} {scenario : Scenario} {r r' : ℕ ×ₗ ℕ ×ₗ ℕ} {h : History}
  {s : State}

theorem ReadChecked.planDetail {c : Call} {v plan : Json} (hc : c.route = "read.plan-detail")
    (hplan : Has v "plan" plan)
    (hstatus : (∀ e ∈ h, ∀ p, e.op.key ≠ some (.phase p .prepare)) →
      Has plan "status" (.str "planned")) : ReadChecked scenario h c v where
  page hmem := by simp [pagedRoutes, hc] at hmem
  workspace heq := by simp [hc] at heq
  plan _ := ⟨plan, hplan, hstatus⟩
  approval heq := by simp [hc] at heq
  graph heq := by simp [hc] at heq

theorem ReadChecked.ofWorkspace {c : Call} {v : Json} (hc : c.route = "read.workspace")
    (hcurrent : HasCurrent v) (hsame : scenario.retained = true → ∀ e ∈ h.head?,
      ∃ v₀, e.answer = .returned v₀ ∧ SameWorkspace v₀ v) : ReadChecked scenario h c v where
  page hmem := by simp [pagedRoutes, hc] at hmem
  workspace _ := ⟨hcurrent, hsame⟩
  plan heq := by simp [hc] at heq
  approval heq := by simp [hc] at heq
  graph heq := by simp [hc] at heq

theorem ReadChecked.desiredGraph {c : Call} {v : Json} (hc : c.route = "read.desired-graph") :
    ReadChecked scenario h c v where
  page hmem := by simp [pagedRoutes, hc] at hmem
  workspace heq := by simp [hc] at heq
  plan heq := by simp [hc] at heq
  approval heq := by simp [hc] at heq
  graph heq := by simp [hc] at heq

theorem ReadChecked.currentGraph {c : Call} {v : Json} (hc : c.route = "read.current-graph")
    (hgraph : ∀ e ∈ h.getLast?, (∃ p, e.op.key = some (.phase p .advance)) →
      Echoes v "graph_id" e.op "desired_graph_id" ∧
        Echoes v "realized_projection_id" e.op "desired_realized_projection_id") :
    ReadChecked scenario h c v where
  page hmem := by simp [pagedRoutes, hc] at hmem
  workspace heq := by simp [hc] at heq
  plan heq := by simp [hc] at heq
  approval heq := by simp [hc] at heq
  graph _ := hgraph

theorem Drives.matchingPlans {Q : List Json → State → History → Prop} {desired : Pointer}
    {revision : Json} {sessions found : List Json} (hg : Going scenario r h)
    (next : ∀ found n h', Going scenario r h' → Q found { s with calls := n } h') :
    Drives around scenario Q (matchingPlans around scenario desired revision sessions found) s
      h := by
  induction sessions generalizing found s h with
  | nil => exact Drives.pure (next _ _ _ hg)
  | cons session sessions ih =>
    refine Drives.bind (Drives.check fun sessionId _ => Drives.bind ?_)
    refine Drives.pages (by simp [pagedRoutes]) (by simp) hg (.of_route (by decide))
      fun n es hg' _ => ?_
    refine Drives.bind (Drives.check fun found' _ => ?_)
    exact ih hg' next

/-- The retained mode reads, and changes nothing. -/
theorem Drives.admitRetained {Q : Unit → State → History → Prop} {start : Admitted}
    (hg : Going scenario r h)
    (next : ∀ n h', Going scenario r h' → Q () { s with calls := n } h') :
    Drives around scenario Q (admitRetained around scenario start) s h := by
  unfold Convergence.admitRetained
  split
  · exact Drives.pure (next _ _ hg)
  · exact Drives.raise
  rename_i desired current _ _
  refine Drives.bind (Drives.pages (by simp [pagedRoutes]) (by simp) hg (.of_route (by decide))
    fun _ sessions hg₁ _ => ?_)
  refine Drives.bind (Drives.check fun _ _ => Drives.bind ?_)
  refine Drives.matchingPlans hg₁ fun found _ h₂ hg₂ => ?_
  split
  · refine Drives.bind (Drives.check fun planId _ => Drives.bind ?_)
    refine Drives.read hg₂ (by decide) (by simp) (.of_route (by decide)) fun e members he => ?_
    refine Drives.bind (Drives.check fun prior hprior => ?_)
    refine Drives.bind (Drives.check fun _ hstatus => ?_)
    obtain ⟨status, hhas, hplanned⟩ := Raise.bind_eq_ok.mp hstatus
    rw [require_eq_ok, isText, Json.pyEq_str] at hplanned
    subst hplanned
    refine Drives.bind (Drives.check fun priorId _ => ?_)
    refine Drives.bind (Drives.pages (by simp [pagedRoutes]) (by simp)
      (hg₂.afterRead he (.planDetail he.route hprior fun _ => hhas)) (.of_route (by decide))
      fun _ runs hg₃ _ => ?_)
    refine Drives.bind (Drives.check fun activities _ => ?_)
    split
    · exact Drives.check fun _ _ => next _ _ hg₃
    · refine Drives.bind (Drives.check fun _ _ => Drives.bind ?_)
      refine Drives.bind (Drives.read hg₃ (by decide) (by simp) (.of_route (by decide))
        fun e₁ members₁ he₁ => ?_)
      have hg₄ := hg₃.afterRead he₁ (.desiredGraph he₁.route)
      refine Drives.check fun _ _ => ?_
      refine Drives.bind (Drives.read hg₄ (by decide) (by simp) (.of_route (by decide))
        fun e₂ members₂ he₂ => ?_)
      refine Drives.check fun _ _ => next _ _ (hg₄.afterRead he₂ (.currentGraph he₂.route ?_))
      -- the last call before was a read
      intro e he hadvance
      rw [List.getLast?_concat, Option.mem_some] at he
      subst he
      obtain ⟨p, hp⟩ := hadvance
      rw [he₁.key] at hp
      cases hp
  · exact Drives.raise

/-- The workspace that the first call has returned is the one that was admitted. -/
def Started (start : Admitted) (h : History) : Prop :=
  ∃ e ∈ h.head?, ∃ v workspace, e.answer = .returned v ∧ Has v "workspace" workspace ∧
    admitted workspace = .ok start

theorem Started.mono {start : Admitted} {h' : History} (hs : Started start h) (hh : h <+: h') :
    Started start h' := by
  obtain ⟨e, he, hrest⟩ := hs
  obtain ⟨more, rfl⟩ := hh
  refine ⟨e, ?_, hrest⟩
  rw [List.head?_append, Option.mem_def.mp he]
  rfl

/-- Without a phase there is nothing to be evidenced. -/
theorem Evidences.of_below {route : String} (hb : Below (place 7 0) h) :
    Evidences scenario h route := by
  refine .of_last fun e he p hkey => ?_
  have hmem : e ∈ h := List.mem_of_mem_filter (List.mem_of_getLast? he)
  have hlt : 7 + p.ordinal < 7 := by
    simpa [Key.rank, Step.rank, place, Prod.Lex.toLex_lt_toLex] using hb e hmem _ hkey
  omega

/-- The workspace of the scenario has passed once its identity and its pointer are known. -/
theorem Drives.startWorkspace {Q : Json → State → History → Prop}
    (hg : Going scenario (place 0 0) [])
    (next : ∀ workspace s' e members, s'.rows = s.rows → e.answer = .returned (.obj members) →
      Has (.obj members) "workspace" workspace →
      (∀ p, Has workspace "workspace_id" (.str scenario.workspaceId) →
        pointer workspace "current" = .ok (some p) → Going scenario (place 1 0) [e]) →
      Q workspace s' [e]) :
    Drives around scenario Q (startWorkspace around scenario) s [] := by
  have hlt : place 0 0 < place 1 0 := place_lt.mpr (.inl (by omega))
  refine Drives.bind (Drives.modify (Drives.bind ?_))
  split
  · refine Drives.ungated .workspace hg (by decide) fun e members he => ?_
    refine Drives.check fun workspace hworkspace => ?_
    refine next _ _ e members rfl he.answer hworkspace fun p hid hp => ?_
    exact hg.afterCommand he hlt ⟨⟨workspace, p, hworkspace, hp⟩, workspace, hworkspace, hid⟩
  · have hbelow : Below (place 7 0) [] := fun e he => absurd he List.not_mem_nil
    refine Drives.read hg (by decide) (by simp) (.of_below hbelow) fun e members he => ?_
    refine Drives.check fun workspace hworkspace => ?_
    refine next _ _ e members rfl he.answer hworkspace fun p hid hp => ?_
    refine (hg.mono hlt.le).afterRead he (.ofWorkspace he.route ⟨workspace, p, hworkspace, hp⟩ ?_)
    intro _ e' he'
    cases he'

/-- After the bootstrap only the keys of the phases are free. -/
theorem Drives.bootstrap {Q : Admitted → State → History → Prop}
    {documents : List (Product × Json)}
    (hsorted : (documents.map fun d => d.1.ordinal).Pairwise (· < ·))
    (hg : Going scenario (place 0 0) [])
    (next : ∀ start s' h', Going scenario (place 7 0) h' → s'.rows = s.rows →
      Started start h' → Q start s' h') :
    Drives around scenario Q (bootstrap around scenario documents) s [] := by
  refine Drives.bind (Drives.modify (Drives.bind ?_))
  refine Drives.startWorkspace hg fun workspace s₁ e members hs₁ hanswer hworkspace hg₁ => ?_
  refine Drives.bind (Drives.modify (Drives.bind (Drives.check fun _ hchecks => ?_)))
  simp only [Raise.bind_eq_ok, require_eq_ok] at hchecks
  obtain ⟨id, hid, -, hidText, current, hcurrent, hsome⟩ := hchecks
  obtain ⟨p, rfl⟩ := Option.isSome_iff_exists.mp hsome
  rw [isText, Json.pyEq_str] at hidText
  subst hidText
  have hg₁' := hg₁ p hid hcurrent
  refine Drives.bind (Drives.check fun start hstart => Drives.extending (Drives.bind ?_))
  have hstarted : Started start [e] := ⟨e, rfl, _, workspace, hanswer, hworkspace, hstart⟩
  -- what follows the reads of the retained mode
  have hrest : ∀ n h', Going scenario (place 1 0) h' →
      Drives around scenario (fun start s h' => [e] <+: h' → Q start s h') (do
        Convergence.importProducts around scenario documents
        Convergence.registerCustody around scenario
        Convergence.registerAuthority around scenario
        Convergence.whenever scenario.registerPullAuthority
          (Convergence.registerPullAuthorities around scenario documents)
        return start)
        { s₁ with bootstrapStep := some "workspace-current-pointer", calls := n } h' := by
    intro n h' hg'
    refine Drives.bind (Drives.importProducts hsorted hg' fun s₂ h₂ hg₂ hs₂ => ?_)
    refine Drives.bind (Drives.registerCustody hg₂ fun s₃ h₃ hg₃ hs₃ => ?_)
    refine Drives.bind (Drives.registerAuthority hg₃ fun s₄ h₄ hg₄ hs₄ => Drives.bind ?_)
    have hs : s₄.rows = s.rows := by
      rw [hs₄, hs₃, hs₂]
      exact hs₁
    refine Drives.whenever (fun _ => ?_) fun _ => ?_
    · refine Drives.registerPullAuthorities hsorted hg₄ fun s₅ h₅ hg₅ hs₅ => Drives.pure fun hh => ?_
      exact next _ _ _ hg₅ (hs₅.trans hs) (hstarted.mono hh)
    · refine Drives.pure fun hh => next _ _ _ (hg₄.mono ?_) hs (hstarted.mono hh)
      exact (place_lt.mpr (.inl (by omega))).le
  refine Drives.whenever (fun _ => ?_) fun _ => hrest _ _ hg₁'
  exact Drives.admitRetained hg₁' hrest

end Start

end Convergence

end SourceLive

end ControlPlaneKit
