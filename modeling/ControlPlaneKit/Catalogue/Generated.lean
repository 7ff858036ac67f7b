import ControlPlaneKit.Catalogue.Coordinates

/-!
# The generated files

What `generate_updates` returns: one content for each path, and for each path the file it was made
from. Only the catalogue is written without having been read.
-/

namespace ControlPlaneKit

namespace Catalogue

variable {env : Environment} {repo repo' : Repository} {updates : Updates}

/-! ### Updates -/

namespace Updates

variable {path other : Path} {content : List UInt8}

theorem mem_put {u : Path × List UInt8} (h : u ∈ updates.put path content) :
    u = (path, content) ∨ u ∈ updates := by
  rw [put] at h
  split at h
  · obtain ⟨u', hu', rfl⟩ := List.mem_map.mp h
    split
    · exact .inl rfl
    · exact .inr hu'
  · rcases List.mem_append.mp h with h | h
    · exact .inr h
    · exact .inl (List.mem_singleton.mp h)

theorem put_self_mem : (path, content) ∈ updates.put path content := by
  rw [put]
  split
  · next h =>
    obtain ⟨u, hu, hpath⟩ := List.any_eq_true.mp h
    exact List.mem_map.mpr ⟨u, hu, if_pos (eq_of_beq hpath)⟩
  · exact List.mem_append_right _ (List.mem_singleton_self _)

theorem put_keys (updates : Updates) (path : Path) (content : List UInt8) :
    (updates.put path content).map (·.1) = updates.map (·.1) ∨
    path ∉ updates.map (·.1) ∧
      (updates.put path content).map (·.1) = updates.map (·.1) ++ [path] := by
  rw [put]
  split
  · refine .inl ?_
    rw [List.map_map]
    refine List.map_congr_left fun u _ => ?_
    by_cases h : u.1 = path <;> simp [h]
  · next h =>
    refine .inr ⟨fun hmem => h ?_, by simp⟩
    obtain ⟨u, hu, hpath⟩ := List.mem_map.mp hmem
    exact List.any_eq_true.mpr ⟨u, hu, by simp [hpath]⟩

/-- A `dict` has a path once. -/
theorem nodup_put (h : (updates.map (·.1)).Nodup) : ((updates.put path content).map (·.1)).Nodup := by
  rcases put_keys updates path content with hsame | ⟨hnew, happend⟩
  · rw [hsame]
    exact h
  · rw [happend]
    exact List.nodup_append.mpr ⟨h, List.nodup_singleton _, by
      rintro a ha b hb rfl
      exact hnew (List.mem_singleton.mp hb ▸ ha)⟩

end Updates

/-! ### Generated files -/

/-- Where an update comes from. -/
inductive Source (env : Environment) (repo : Repository) (coordinates : Coordinates)
    (u : Path × List UInt8) : Prop where
  | pin (h : u.1 ∈ pinFiles) (hread : ∃ content, repo.file? u.1 = some content)
  | descriptor (p : Product) (hp : p ∈ coordinates.products) (hpath : u.1 = p.path)
      (h : describe env repo p = .ok u.2)
  | catalogue (h : u.1 = Catalogue.catalogue)

theorem pinUpdates_spec {upstreams : Upstreams} (h : pinUpdates repo upstreams = .ok updates) :
    updates.map (·.1) = pinFiles ∧ ∀ u ∈ updates, pinned repo upstreams u.1 = .ok u.2 := by
  rw [pinUpdates] at h
  generalize pinFiles = paths at h
  induction paths generalizing updates with
  | nil =>
    cases h
    exact ⟨rfl, List.forall_mem_nil _⟩
  | cons path paths ih =>
    rw [List.mapM_cons] at h
    cases hpin : pinned repo upstreams path with
    | error e => simp [pinUpdate, hpin, bind, Except.bind] at h
    | ok content =>
      cases hrest : List.mapM (pinUpdate repo upstreams) paths with
      | error e => simp [pinUpdate, hpin, hrest, bind, Except.bind, pure, Except.pure] at h
      | ok rest =>
        simp only [pinUpdate, hpin, hrest, bind, Except.bind, pure, Except.pure] at h
        cases h
        obtain ⟨hkeys, hcontents⟩ := ih hrest
        exact ⟨congrArg _ hkeys, List.forall_mem_cons.mpr ⟨hpin, hcontents⟩⟩

theorem file?_of_pinned {upstreams : Upstreams} {path : Path} {content : List UInt8}
    (h : pinned repo upstreams path = .ok content) : ∃ old, repo.file? path = some old := by
  rw [pinned] at h
  cases hread : repo.readText path with
  | error e => simp [hread, bind, Except.bind] at h
  | ok text => exact Repository.file?_of_readText hread

theorem describe_spec {p : Product} {encoded : List UInt8} (h : describe env repo p = .ok encoded) :
    ∃ text descriptor rewritten, repo.readText p.path = .ok text ∧ env.loads text = .ok descriptor ∧
      withImageCoordinates descriptor p = .ok rewritten ∧ encoded = compactJson env rewritten := by
  rw [describe] at h
  cases hread : repo.readText p.path with
  | error e => simp [hread, bind, Except.bind] at h
  | ok text =>
    cases hloads : env.loads text with
    | error e => simp [hread, hloads, bind, Except.bind] at h
    | ok descriptor =>
      cases hwith : withImageCoordinates descriptor p with
      | error e => simp [hread, hloads, hwith, bind, Except.bind] at h
      | ok rewritten =>
        simp only [hread, hloads, hwith, bind, Except.bind, pure, Except.pure] at h
        exact ⟨text, descriptor, rewritten, rfl, hloads, hwith, (Except.ok.inj h).symm⟩

theorem describeAll_cons {p : Product} {ps : List Product} {us : Updates} {records : List Fields}
    (h : describeAll env repo updates (p :: ps) = .ok (us, records)) :
    ∃ encoded rest, describe env repo p = .ok encoded ∧
      describeAll env repo (updates.put p.path encoded) ps = .ok (us, rest) ∧
      records = record p encoded :: rest := by
  rw [describeAll] at h
  cases hdescribe : describe env repo p with
  | error e => simp [hdescribe, bind, Except.bind] at h
  | ok encoded =>
    cases hrest : describeAll env repo (updates.put p.path encoded) ps with
    | error e => simp [hdescribe, hrest, bind, Except.bind] at h
    | ok result =>
      simp only [hdescribe, hrest, bind, Except.bind, pure, Except.pure] at h
      cases h
      exact ⟨encoded, result.2, rfl, hrest, rfl⟩

/-- The updates of the descriptors, after those that are there. -/
theorem describeAll_spec {ps : List Product} {us : Updates} {records : List Fields}
    (h : describeAll env repo updates ps = .ok (us, records))
    (hnodup : (updates.map (·.1)).Nodup) :
    (us.map (·.1)).Nodup ∧ ∀ u ∈ us, u ∈ updates ∨
      ∃ p ∈ ps, u.1 = p.path ∧ describe env repo p = .ok u.2 := by
  induction ps generalizing updates records with
  | nil =>
    cases h
    exact ⟨hnodup, fun u hu => .inl hu⟩
  | cons p ps ih =>
    obtain ⟨encoded, rest, hdescribe, hrest, -⟩ := describeAll_cons h
    obtain ⟨hkeys, hsource⟩ := ih hrest (Updates.nodup_put hnodup)
    refine ⟨hkeys, fun u hu => ?_⟩
    rcases hsource u hu with hmem | ⟨q, hq, hpath, hq'⟩
    · rcases Updates.mem_put hmem with rfl | hmem
      · exact .inr ⟨p, List.mem_cons_self, rfl, hdescribe⟩
      · exact .inl hmem
    · exact .inr ⟨q, List.mem_cons_of_mem _ hq, hpath, hq'⟩

theorem generateUpdates_ok {coordinates : Coordinates}
    (h : generateUpdates env repo coordinates = .ok updates) :
    ∃ pins us records, pinUpdates repo coordinates.upstreams = .ok pins ∧
      describeAll env repo pins coordinates.products = .ok (us, records) ∧
      updates = us.put catalogue (prettyJson env (catalogueDocument records)) := by
  rw [generateUpdates] at h
  cases hpins : pinUpdates repo coordinates.upstreams with
  | error e => simp [hpins, bind, Except.bind] at h
  | ok pins =>
    cases hdescribe : describeAll env repo pins coordinates.products with
    | error e => simp [hpins, hdescribe, bind, Except.bind] at h
    | ok result =>
      simp only [hpins, hdescribe, bind, Except.bind, pure, Except.pure] at h
      exact ⟨pins, result.1, result.2, rfl, hdescribe, (Except.ok.inj h).symm⟩

/-- What `generate_updates` returns: one content for each path, from a known source. -/
theorem generateUpdates_spec {coordinates : Coordinates}
    (h : generateUpdates env repo coordinates = .ok updates) :
    (updates.map (·.1)).Nodup ∧ catalogue ∈ updates.map (·.1) ∧
      ∀ u ∈ updates, Source env repo coordinates u := by
  obtain ⟨pins, us, records, hpins, hdescribe, rfl⟩ := generateUpdates_ok h
  obtain ⟨hkeys, hpinned⟩ := pinUpdates_spec hpins
  have hpinsNodup : (pins.map (·.1)).Nodup := by
    rw [hkeys]
    decide
  obtain ⟨hnodup, hsource⟩ := describeAll_spec hdescribe hpinsNodup
  refine ⟨Updates.nodup_put hnodup, List.mem_map.mpr ⟨_, Updates.put_self_mem, rfl⟩, fun u hu => ?_⟩
  rcases Updates.mem_put hu with rfl | hu
  · exact .catalogue rfl
  rcases hsource u hu with hpin | ⟨p, hp, hpath, hp'⟩
  · exact .pin (hkeys ▸ List.mem_map_of_mem hpin) (file?_of_pinned (hpinned u hpin))
  · exact .descriptor p hp hpath hp'

/-- Every generated file but the catalogue was read. -/
theorem Source.file? {coordinates : Coordinates} {u : Path × List UInt8}
    (h : Source env repo coordinates u) (hne : u.1 ≠ Catalogue.catalogue) :
    ∃ content, repo.file? u.1 = some content := by
  cases h with
  | pin _ hread => exact hread
  | descriptor p _ hpath hdescribe =>
    obtain ⟨text, -, -, hread, -, -, -⟩ := describe_spec hdescribe
    exact hpath ▸ Repository.file?_of_readText hread
  | catalogue hpath => exact absurd hpath hne

end Catalogue

end ControlPlaneKit
