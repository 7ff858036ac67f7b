import ControlPlaneKit.Catalogue.Descriptors

/-!
# Checking and applying

`main(["--check"])` compares the generated files with the repository; `main([])` writes them and then
publishes the catalogue. The publication is not compared: the two modes agree exactly where
`catalogue/products.json` is there to be compared and a tree with fresh generated files has the
publication of its catalogue (`mainCheck_agrees_iff`).
-/

namespace ControlPlaneKit

namespace Catalogue

variable {env : Environment} {repo repo' : Repository} {updates : Updates}

/-- What the scripts rely on in the interpreter: `repr` of a float is printable, the text of a
publication has no member `product`, and the line of a checksum is no JSON. -/
structure Environment.Lawful (env : Environment) : Prop where
  floats : Json.PlainFloats env.floatText
  published : ∀ declarations value,
    env.loads ((payload declarations).sorted.pretty env.floatText 0 ++ ['\n']) = .ok value →
      ∃ members : Fields, value = .obj members ∧ members.has "product" = false
  checksum : ∀ content value, env.loads (checksumLine content packagedCatalogue) ≠ .ok value

/-! ### Applying -/

theorem writeUpdates_cons {u : Path × List UInt8} :
    writeUpdates repo (u :: updates) =
      (repo.writeBytes u.1 u.2 >>= fun repo => writeUpdates repo updates) := by
  rw [writeUpdates, List.foldlM_cons]
  rfl

/-- The files after the updates. -/
theorem writeUpdates_file? (h : writeUpdates repo updates = .ok repo')
    (hnodup : (updates.map (·.1)).Nodup) (path : Path) :
    repo'.file? path = (updates.lookup path).or (repo.file? path) := by
  induction updates generalizing repo with
  | nil =>
    cases h
    rfl
  | cons u updates ih =>
    rw [writeUpdates_cons] at h
    cases hwrite : repo.writeBytes u.1 u.2 with
    | error e => simp [hwrite, bind, Except.bind] at h
    | ok middle =>
      rw [hwrite] at h
      rw [List.map_cons, List.nodup_cons] at hnodup
      rw [ih h hnodup.2, Repository.writeBytes_file? hwrite, List.lookup_cons]
      by_cases hpath : path = u.1
      · have hnone : updates.lookup path = none := by
          rw [List.lookup_eq_none_iff]
          intro v hv
          have hne : v.1 ≠ path := fun heq =>
            hnodup.1 (hpath ▸ heq ▸ List.mem_map_of_mem hv)
          simpa using hne.symm
        rw [hnone, if_pos hpath, beq_iff_eq.mpr hpath]
        rfl
      · rw [if_neg hpath, beq_eq_false_iff_ne.mpr hpath]

/-- Files that are there can be written. -/
theorem writeUpdates_exists (h : ∀ u ∈ updates, ∃ content, repo.file? u.1 = some content) :
    ∃ written, writeUpdates repo updates = .ok written := by
  induction updates generalizing repo with
  | nil => exact ⟨repo, rfl⟩
  | cons u updates ih =>
    rw [List.forall_mem_cons] at h
    obtain ⟨content, hcontent⟩ := h.1
    have hwrite : repo.writeBytes u.1 u.2 = .ok (repo.set u.1 (.file u.2)) :=
      Repository.writeBytes_replaces hcontent
    have hrest : ∀ v ∈ updates, ∃ content, (repo.set u.1 (.file u.2)).file? v.1 = some content := by
      intro v hv
      rw [Repository.file?_set_file]
      split
      · exact ⟨u.2, rfl⟩
      · exact h.2 v hv
    rw [writeUpdates_cons, hwrite]
    exact ih hrest

/-- The generated files are those in the repository. -/
def Fresh (repo : Repository) (updates : Updates) : Prop :=
  ∀ u ∈ updates, repo.file? u.1 = some u.2

/-- Writing fresh files changes nothing. -/
theorem writeUpdates_fresh (h : Fresh repo updates) : writeUpdates repo updates = .ok repo := by
  induction updates with
  | nil => rfl
  | cons u updates ih =>
    rw [Fresh, List.forall_mem_cons] at h
    rw [writeUpdates_cons, Repository.writeBytes_same h.1]
    exact ih h.2

/-- What a publication leaves: the catalogue, its sidecar, and all else as it was. -/
theorem publishCatalogue_ok {source output : Path} {report : Fields}
    (h : publishCatalogue env repo source output = .ok (repo', report)) :
    ∃ declarations, loadCatalogue env repo source = .ok declarations ∧ ∀ path, repo'.file? path =
      if path = sidecar output then
        some (encodeUtf8 (checksumLine (published env declarations) output))
      else if path = output then some (published env declarations) else repo.file? path := by
  rw [publishCatalogue] at h
  obtain ⟨declarations, hload, h⟩ := Raise.bind_eq_ok.mp h
  obtain ⟨made, hmake, h⟩ := Raise.bind_eq_ok.mp h
  obtain ⟨middle, hwrite, h⟩ := Raise.bind_eq_ok.mp h
  obtain ⟨final, hsidecar, h⟩ := Raise.bind_eq_ok.mp h
  cases h
  refine ⟨declarations, hload, fun path => ?_⟩
  rw [Repository.writeBytes_file? hsidecar, Repository.writeBytes_file? hwrite,
    Repository.makeDirectories_file? hmake]

/-- A publication over an earlier one comes to its end. -/
theorem publishCatalogue_replaces {source output : Path} {declarations : List PublishedProductDescriptor}
    {old oldChecksum : List UInt8} (hload : loadCatalogue env repo source = .ok declarations)
    (hmake : repo.makeDirectories output.dropLast = .ok repo) (hold : repo.file? output = some old)
    (hchecksum : repo.file? (sidecar output) = some oldChecksum) (hne : sidecar output ≠ output) :
    ∃ result, publishCatalogue env repo source output = .ok result := by
  have hthere : (repo.set output (.file (published env declarations))).file? (sidecar output) =
      some oldChecksum := by
    rw [Repository.file?_set_file, if_neg hne, hchecksum]
  rw [publishCatalogue, hload, Raise.ok_bind, hmake, Raise.ok_bind]
  dsimp only
  rw [Repository.writeBytes_replaces hold, Raise.ok_bind, Repository.writeBytes_replaces hthere,
    Raise.ok_bind]
  exact ⟨_, rfl⟩

theorem mainApply_ok {report : Fields} (h : mainApply env repo = .ok (repo', report)) :
    ∃ updates written, generate env repo = .ok updates ∧ writeUpdates repo updates = .ok written ∧
      publishCatalogue env written catalogue packagedCatalogue = .ok (repo', report) := by
  rw [mainApply] at h
  obtain ⟨updates, hgenerate, h⟩ := Raise.bind_eq_ok.mp h
  obtain ⟨written, hwrite, h⟩ := Raise.bind_eq_ok.mp h
  exact ⟨updates, written, hgenerate, hwrite, h⟩

theorem generate_ok (h : generate env repo = .ok updates) :
    ∃ coordinates, loadCoordinates env repo coordinatesPath = .ok coordinates ∧
      generateUpdates env repo coordinates = .ok updates := by
  rw [generate] at h
  exact Raise.bind_eq_ok.mp h

/-! ### Checking -/

/-- Where every generated file is there, the stale ones are listed. -/
theorem stale_eq (h : ∀ u ∈ updates, ∃ content, repo.file? u.1 = some content) :
    stale repo updates =
      .ok ((updates.filter fun u => repo.file? u.1 != some u.2).map (·.1)) := by
  have hresults : updates.mapM (compareFile repo) =
      .ok (updates.map fun u => (u.1, repo.file? u.1 != some u.2)) := by
    induction updates with
    | nil => rfl
    | cons u updates ih =>
      rw [List.forall_mem_cons] at h
      obtain ⟨content, hcontent⟩ := h.1
      have hcompare : compareFile repo u = .ok (u.1, repo.file? u.1 != some u.2) := by
        simp only [compareFile, Repository.readBytes_eq_ok.mpr hcontent, bind, Except.bind, hcontent]
        by_cases heq : content = u.2 <;> simp [heq, pure, Except.pure]
      rw [List.mapM_cons, hcompare, ih h.2]
      rfl
  simp only [stale, hresults, bind, Except.bind, pure, Except.pure]
  simp only [List.filter_map, List.map_map]
  rfl

/-- A file that is not there ends the check with the error of the operating system. -/
theorem stale_missing {u : Path × List UInt8} (hu : u ∈ updates) (h : repo.file? u.1 = none)
    (hothers : ∀ v ∈ updates, v.1 ≠ u.1 → ∃ content, repo.file? v.1 = some content) :
    stale repo updates = .error .osError ∨ stale repo updates = .error .fileNotFound := by
  have hresults : updates.mapM (compareFile repo) = .error .osError ∨
      updates.mapM (compareFile repo) = .error .fileNotFound := by
    induction updates with
    | nil => cases hu
    | cons v updates ih =>
      rw [List.forall_mem_cons] at hothers
      -- the comparison stops at the missing file, and the files before it are there
      by_cases hv : v.1 = u.1
      · rcases Repository.readBytes_eq_error (hv ▸ h : repo.file? v.1 = none) with he | he
        · exact .inl (by simp [List.mapM_cons, compareFile, he, bind, Except.bind])
        · exact .inr (by simp [List.mapM_cons, compareFile, he, bind, Except.bind])
      · obtain ⟨content, hcontent⟩ := hothers.1 hv
        have hmem : u ∈ updates := by
          rcases List.mem_cons.mp hu with rfl | hu
          · exact absurd rfl hv
          · exact hu
        have hcompare : ∃ b, compareFile repo v = .ok (v.1, b) := by
          refine ⟨decide (content ≠ v.2), ?_⟩
          simp [compareFile, Repository.readBytes_eq_ok.mpr hcontent, bind, Except.bind, pure,
            Except.pure]
        obtain ⟨b, hcompare⟩ := hcompare
        rcases ih hmem hothers.2 with he | he
        · exact .inl (by simp [List.mapM_cons, hcompare, he, bind, Except.bind])
        · exact .inr (by simp [List.mapM_cons, hcompare, he, bind, Except.bind])
  rcases hresults with he | he
  · exact .inl (by simp [stale, he, bind, Except.bind])
  · exact .inr (by simp [stale, he, bind, Except.bind])

/-- With every generated file there, the check passes on fresh files only, and else reports. -/
theorem mainCheck_of_present (hgenerate : generate env repo = .ok updates)
    (h : ∀ u ∈ updates, ∃ content, repo.file? u.1 = some content) :
    (Fresh repo updates ∧ mainCheck env repo = .ok ()) ∨
      (¬ Fresh repo updates ∧ ∃ message, mainCheck env repo = .error (.coordinate message)) := by
  have hfresh : Fresh repo updates ↔
      (updates.filter fun u => repo.file? u.1 != some u.2).map (·.1) = [] := by
    rw [List.map_eq_nil_iff, List.filter_eq_nil_iff]
    simp [Fresh]
  by_cases hnil : (updates.filter fun u => repo.file? u.1 != some u.2).map (·.1) = []
  · refine .inl ⟨hfresh.mpr hnil, ?_⟩
    simp only [mainCheck, hgenerate, stale_eq h, hnil, bind, Except.bind]
    rfl
  · refine .inr ⟨fun hf => hnil (hfresh.mp hf), ?_⟩
    simp only [mainCheck, hgenerate, stale_eq h, bind, Except.bind]
    rw [if_pos hnil]
    exact ⟨_, rfl⟩

/-! ### The two modes -/

/-- The publication in the repository is that of its catalogue. -/
def PublicationCurrent (env : Environment) (repo : Repository) : Prop :=
  ∀ declarations, loadCatalogue env repo catalogue = .ok declarations →
    repo.file? packagedCatalogue = some (published env declarations) ∧
      repo.file? (sidecar packagedCatalogue) =
        some (encodeUtf8 (checksumLine (published env declarations) packagedCatalogue))

/-- `--check` passes exactly on a repository that applying leaves alone, and else raises
`CoordinateError`. -/
def ChecksApply (env : Environment) (repo repo' : Repository) : Prop :=
  (mainCheck env repo = .ok () ↔ repo.SameFiles repo') ∧
    (mainCheck env repo ≠ .ok () → ∃ message, mainCheck env repo = .error (.coordinate message))

/-- A published catalogue is not a descriptor. -/
theorem describe_ne_published (henv : env.Lawful) {p : Product} {encoded : List UInt8}
    {declarations : List PublishedProductDescriptor} (hpath : p.path = packagedCatalogue)
    (h : repo.file? packagedCatalogue = some (published env declarations)) :
    describe env repo p ≠ .ok encoded := by
  intro hdescribe
  obtain ⟨text, descriptor, rewritten, hread, hloads, hwith, -⟩ := describe_spec hdescribe
  have hbytes : published env declarations =
      encodeUtf8 ((payload declarations).sorted.pretty env.floatText 0 ++ ['\n']) := by
    rw [published, prettyJson, encodeUtf8_append]
    rfl
  have hplain : '\r' ∉ (payload declarations).sorted.pretty env.floatText 0 ++ ['\n'] := by
    intro hmem
    rcases List.mem_append.mp hmem with hmem | hmem
    · exact (Json.laid_pretty henv.floats 0 _ _ hmem).ne rfl
    · exact absurd (List.mem_singleton.mp hmem) (by decide)
  have htext := Repository.readText_encodeUtf8 (hbytes ▸ h) hplain
  rw [hpath, htext] at hread
  cases hread
  obtain ⟨members, rfl, hproduct⟩ := henv.published declarations descriptor hloads
  simp [withImageCoordinates, hproduct] at hwith

theorem notMem_checksumLine {content : List UInt8} :
    '\r' ∉ checksumLine content packagedCatalogue := by
  have hname : '\r' ∉ [' ', ' '] ++ (packagedCatalogue.getLastD []).map Char.ofNat ++ ['\n'] := by
    decide
  intro hmem
  rw [checksumLine, List.append_assoc, List.append_assoc, ← List.append_assoc [' ', ' ']] at hmem
  rcases List.mem_append.mp hmem with hmem | hmem
  · rcases Sha256.isHexDigit_hexDigest content _ hmem with h | h
    · exact absurd h.1 (by decide)
    · exact absurd h.1 (by decide)
  · exact hname hmem

/-- Nor is the line of a checksum. -/
theorem describe_ne_checksum (henv : env.Lawful) {p : Product} {encoded content : List UInt8}
    (hpath : p.path = sidecar packagedCatalogue)
    (h : repo.file? (sidecar packagedCatalogue) =
      some (encodeUtf8 (checksumLine content packagedCatalogue))) :
    describe env repo p ≠ .ok encoded := by
  intro hdescribe
  obtain ⟨text, descriptor, rewritten, hread, hloads, -, -⟩ := describe_spec hdescribe
  rw [hpath, Repository.readText_encodeUtf8 h notMem_checksumLine] at hread
  cases hread
  exact henv.checksum content descriptor hloads

theorem lookup_of_mem (hnodup : (updates.map (·.1)).Nodup) {u : Path × List UInt8}
    (hu : u ∈ updates) : updates.lookup u.1 = some u.2 := by
  induction updates with
  | nil => cases hu
  | cons v updates ih =>
    rw [List.map_cons, List.nodup_cons] at hnodup
    rw [List.lookup_cons]
    rcases List.mem_cons.mp hu with rfl | hu
    · simp
    · have hne : u.1 ≠ v.1 := fun heq => hnodup.1 (heq ▸ List.mem_map_of_mem hu)
      rw [beq_eq_false_iff_ne.mpr hne]
      exact ih hnodup.2 hu

/-- A repository is left alone by its publication when that is current. -/
theorem sameFiles_iff_current {declarations : List PublishedProductDescriptor}
    (hload : loadCatalogue env repo catalogue = .ok declarations)
    (hfiles : ∀ path, repo'.file? path =
      if path = sidecar packagedCatalogue then
        some (encodeUtf8 (checksumLine (published env declarations) packagedCatalogue))
      else if path = packagedCatalogue then some (published env declarations)
      else repo.file? path) :
    repo.SameFiles repo' ↔ PublicationCurrent env repo := by
  have hne : packagedCatalogue ≠ sidecar packagedCatalogue := by decide
  constructor
  · intro hsame declarations' hload'
    obtain rfl : declarations = declarations' := Except.ok.inj (hload.symm.trans hload')
    rw [hsame, hsame, hfiles, hfiles, if_neg hne, if_pos rfl, if_pos rfl]
    exact ⟨rfl, rfl⟩
  · intro hcurrent path
    obtain ⟨hpackaged, hsidecar⟩ := hcurrent declarations hload
    rw [hfiles]
    split
    · next hpath => rw [hpath, hsidecar]
    · split
      · next hpath => rw [hpath, hpackaged]
      · rfl

/-- **Applying changes a repository with a stale file**: the publication that follows writes over no
file that was generated. -/
theorem changes_of_stale (henv : env.Lawful) {report : Fields} (hgenerate : generate env repo = .ok updates)
    (hstale : ¬ Fresh repo updates) (happly : mainApply env repo = .ok (repo', report)) :
    ¬ repo.SameFiles repo' := by
  intro hsame
  obtain ⟨updates', written, hgenerate', hwrite, hpublish⟩ := mainApply_ok happly
  obtain rfl : updates = updates' := Except.ok.inj (hgenerate.symm.trans hgenerate')
  obtain ⟨coordinates, -, hupdates⟩ := generate_ok hgenerate
  obtain ⟨hnodup, -, hsource⟩ := generateUpdates_spec hupdates
  obtain ⟨declarations, -, hfiles⟩ := publishCatalogue_ok hpublish
  refine hstale fun u hu => ?_
  have hu' := (hsame u.1).trans (hfiles u.1)
  have hconst : packagedCatalogue ∉ pinFiles ∧ sidecar packagedCatalogue ∉ pinFiles ∧
      packagedCatalogue ≠ catalogue ∧ sidecar packagedCatalogue ≠ catalogue := by decide
  by_cases hsidecar : u.1 = sidecar packagedCatalogue
  · rw [if_pos hsidecar, hsidecar] at hu'
    rcases hsource u hu with hpin | ⟨p, -, hpath, hdescribe⟩ | hcatalogue
    · exact absurd (hsidecar ▸ hpin) hconst.2.1
    · exact absurd hdescribe (describe_ne_checksum henv (hpath.symm.trans hsidecar) hu')
    · exact absurd (hsidecar.symm.trans hcatalogue) hconst.2.2.2
  by_cases hpackaged : u.1 = packagedCatalogue
  · rw [if_neg hsidecar, if_pos hpackaged, hpackaged] at hu'
    rcases hsource u hu with hpin | ⟨p, -, hpath, hdescribe⟩ | hcatalogue
    · exact absurd (hpackaged ▸ hpin) hconst.1
    · exact absurd hdescribe (describe_ne_published henv (hpath.symm.trans hpackaged) hu')
    · exact absurd (hpackaged.symm.trans hcatalogue) hconst.2.2.1
  · rw [if_neg hsidecar, if_neg hpackaged, writeUpdates_file? hwrite hnodup] at hu'
    rw [hu', lookup_of_mem hnodup hu]
    rfl

/-- **Where `--check` agrees with applying**: the catalogue is there to be compared, and if all
generated files are fresh, so is the publication. -/
theorem mainCheck_agrees_iff (henv : env.Lawful) {report : Fields}
    (happly : mainApply env repo = .ok (repo', report)) :
    ChecksApply env repo repo' ↔ (∃ content, repo.file? catalogue = some content) ∧
      ((∀ updates, generate env repo = .ok updates → Fresh repo updates) →
        PublicationCurrent env repo) := by
  obtain ⟨updates, written, hgenerate, hwrite, hpublish⟩ := mainApply_ok happly
  obtain ⟨coordinates, -, hupdates⟩ := generate_ok hgenerate
  obtain ⟨hnodup, hcatalogue, hsource⟩ := generateUpdates_spec hupdates
  have hforall : (∀ us, generate env repo = .ok us → Fresh repo us) ↔ Fresh repo updates :=
    ⟨fun h => h updates hgenerate, fun h us hus => Except.ok.inj (hgenerate.symm.trans hus) ▸ h⟩
  rw [hforall]
  by_cases hthere : ∃ content, repo.file? catalogue = some content
  -- with the catalogue there, every generated file can be compared
  · have hpresent : ∀ u ∈ updates, ∃ content, repo.file? u.1 = some content := by
      intro u hu
      by_cases hu' : u.1 = catalogue
      · exact hu' ▸ hthere
      · exact (hsource u hu).file? hu'
    rcases mainCheck_of_present hgenerate hpresent with ⟨hfresh, hcheck⟩ | ⟨hstale, message, hcheck⟩
    · -- nothing is written before the publication
      obtain rfl : written = repo :=
        Except.ok.inj (hwrite.symm.trans (writeUpdates_fresh hfresh))
      obtain ⟨declarations, hload, hfiles⟩ := publishCatalogue_ok hpublish
      have hcurrent : written.SameFiles repo' ↔ PublicationCurrent env written :=
        sameFiles_iff_current hload hfiles
      rw [ChecksApply, hcheck, hcurrent]
      simp [hthere, hfresh]
    · have hchanges := changes_of_stale henv hgenerate hstale happly
      rw [ChecksApply, hcheck]
      simp [hthere, hstale, hchanges]
  -- without it the check raises, and not for a stale file
  · have hnone : repo.file? catalogue = none := by
      rw [Option.eq_none_iff_forall_not_mem]
      exact fun content h => hthere ⟨content, h⟩
    obtain ⟨u, hu, hpath⟩ := List.mem_map.mp hcatalogue
    have hcheck := stale_missing hu (hpath ▸ hnone) fun v hv hne =>
      (hsource v hv).file? (hpath ▸ hne)
    have herror : ∀ message, mainCheck env repo ≠ .error (.coordinate message) ∧
        mainCheck env repo ≠ .ok () := by
      intro message
      rcases hcheck with hcheck | hcheck
      · simp [mainCheck, hgenerate, hcheck, bind, Except.bind]
      · simp [mainCheck, hgenerate, hcheck, bind, Except.bind]
    refine ⟨fun h => ?_, fun h => absurd h.1 hthere⟩
    obtain ⟨message, hmessage⟩ := h.2 (herror (.utf8 "")).2
    exact absurd hmessage (herror message).1

namespace Instance

/-- The image of the products. -/
def image : Json :=
  .obj [("registry", .str "registry.local"), ("repository", .str "shelf"), ("tag", .str "released"),
    ("digest", .str "sha256:5feceb66ffc86f38d952786c6d696c79c2dbc239dd4e91b46729d73a27fb57e9")]

/-- The item of a product. -/
def item (productId ownerDirectory descriptorPath : String) : Json :=
  .obj [("product_id", .str productId), ("owner_directory", .str ownerDirectory),
    ("descriptor_path", .str descriptorPath),
    ("source_commit", .str "3d6b6bdc7a1f4e0c9a55d6f0a1b2c3d4e5f60718"), ("image", image)]

/-- The coordinates of two products, in the other order than that of the publication. -/
def coordinatesDocument : Json :=
  .obj [("schema", .str "cpk-servers.coordinates"),
    ("upstreams", .obj [
      ("control_plane_kit_commit", .str "0d6b6bdc7a1f4e0c9a55d6f0a1b2c3d4e5f60718"),
      ("control_plane_kit_interpreters_commit", .str "1d6b6bdc7a1f4e0c9a55d6f0a1b2c3d4e5f60718"),
      ("control_plane_kit_secrets_commit", .str "2d6b6bdc7a1f4e0c9a55d6f0a1b2c3d4e5f60718")]),
    ("products", .arr [
      item "cpk-edge" "products/edge" "products/edge/product.cpk.json",
      item "cpk-core" "products/core" "products/core/product.cpk.json"])]

/-- The first product. -/
def edgeProduct : Product where
  productId := ⟨.utf8 "cpk-edge", by decide⟩
  ownerDirectory := ⟨.utf8 "products/edge", by decide, by decide⟩
  descriptorPath := ⟨.utf8 "products/edge/product.cpk.json", by decide, by decide⟩
  sourceCommit := ⟨.utf8 "3d6b6bdc7a1f4e0c9a55d6f0a1b2c3d4e5f60718", by decide +kernel⟩
  image := ⟨⟨.utf8 "registry.local", by decide⟩, ⟨.utf8 "shelf", by decide⟩,
    ⟨.utf8 "released", by decide⟩,
    ⟨.utf8 "sha256:5feceb66ffc86f38d952786c6d696c79c2dbc239dd4e91b46729d73a27fb57e9",
      by decide +kernel⟩⟩

/-- The second, which is published before it. -/
def coreProduct : Product :=
  { edgeProduct with
    productId := ⟨.utf8 "cpk-core", by decide⟩
    ownerDirectory := ⟨.utf8 "products/core", by decide, by decide⟩
    descriptorPath := ⟨.utf8 "products/core/product.cpk.json", by decide, by decide⟩ }

/-- The coordinates that the document holds. -/
def coordinates : Coordinates :=
  ⟨⟨⟨.utf8 "0d6b6bdc7a1f4e0c9a55d6f0a1b2c3d4e5f60718", by decide +kernel⟩,
    ⟨.utf8 "1d6b6bdc7a1f4e0c9a55d6f0a1b2c3d4e5f60718", by decide +kernel⟩,
    ⟨.utf8 "2d6b6bdc7a1f4e0c9a55d6f0a1b2c3d4e5f60718", by decide +kernel⟩⟩,
    [edgeProduct, coreProduct]⟩

/-- The text of a float: the documents have none. -/
def floatText (_ : ℚ) : List Char :=
  ['0', '.', '0']

/-- The descriptor of both products. -/
def descriptor : Json :=
  .obj [("product", .obj [("image", image)])]

/-- Its content, which is generated again. -/
def descriptorBytes : List UInt8 :=
  encodeUtf8 (descriptor.text floatText)

/-- The catalogue of the two products. -/
def listing : Json :=
  catalogueDocument (coordinates.products.map fun p => record p descriptorBytes)

/-- The text of the catalogue. -/
def catalogueText : List Char :=
  listing.pretty floatText 0 ++ ['\n']

/-- A parser that knows the three documents. -/
def loads (text : List Char) : Except Failure Json :=
  if text = coordinatesDocument.text floatText then .ok coordinatesDocument
  else if text = catalogueText then .ok listing
  else if text = descriptor.text floatText then .ok descriptor
  else .error .jsonDecodeError

/-- An interpreter with this parser. -/
def environment : Environment :=
  ⟨loads, floatText, fun _ => .utf8 "[]", .utf8 "/repository"⟩

/-- The directories of the repository. -/
def directories : List Path :=
  [[], path "catalogue", path "coordinates", path "products", path "products/cpk_server",
    path "products/cpk_local_gateway", path "products/secrets_server", path "products/edge",
    path "products/core", path "src", path "src/control_plane_kit_servers"]

/-- A repository with fresh generated files, and this publication. -/
def repositoryWith (packaged checksum : List UInt8) : Repository :=
  fun p => List.lookup p (directories.map (·, Entry.directory) ++
    [(coordinatesPath, .file (encodeUtf8 (coordinatesDocument.text floatText))),
      (pyproject, .file []), (cpkServerDockerfile, .file []), (cpkLocalGatewayDockerfile, .file []),
      (secretsServerDockerfile, .file []), (edgeProduct.path, .file descriptorBytes),
      (coreProduct.path, .file descriptorBytes), (catalogue, .file (encodeUtf8 catalogueText)),
      (packagedCatalogue, .file packaged), (sidecar packagedCatalogue, .file checksum)])

variable {packaged checksum : List UInt8}

theorem loads_ok {text : List Char} {value : Json} (h : loads text = .ok value) :
    value = coordinatesDocument ∨ value = listing ∨
      value = descriptor ∧ text = descriptor.text floatText := by
  rw [loads] at h
  split at h
  · exact .inl (Except.ok.inj h).symm
  split at h
  · exact .inr (.inl (Except.ok.inj h).symm)
  split at h
  · next htext => exact .inr (.inr ⟨(Except.ok.inj h).symm, htext⟩)
  · cases h

theorem environment_loads (text : List Char) : environment.loads text = loads text :=
  rfl

/-- A compact text has no new line after its brace. -/
theorem text_descriptor_ne {members : Fields} (hmembers : members ≠ []) (rest : List Char) :
    descriptor.text floatText ≠ (Json.obj members).pretty floatText 0 ++ rest := by
  cases members with
  | nil => exact absurd rfl hmembers
  | cons m members => exact fun heq => absurd (List.cons.inj (List.cons.inj heq).2).1 (by decide)

theorem environment_lawful : environment.Lawful where
  floats q := by simp [environment, floatText]
  published declarations value h := by
    rcases loads_ok h with rfl | rfl | ⟨-, htext⟩
    · exact ⟨_, rfl, rfl⟩
    · exact ⟨_, rfl, rfl⟩
    · rw [payload, catalogueDocument, Json.sorted_obj] at htext
      refine absurd htext.symm (text_descriptor_ne (fun hnil => ?_) _)
      simpa using congrArg List.length hnil
  checksum content value h := by
    -- a digest begins with a digit, and the documents with a brace
    have hbrace : ∀ n rest, Sha256.hexDigit n :: rest ≠ checksumLine content packagedCatalogue ∨
        ∀ text, checksumLine content packagedCatalogue ≠ '\x7b' :: text := by
      intro n rest
      by_cases hline : Sha256.hexDigit n :: rest = checksumLine content packagedCatalogue
      · refine .inr fun text htext => ?_
        have hdigit := Sha256.isHexDigit_hexDigit n
        rw [(List.cons.inj (hline.trans htext)).1] at hdigit
        rcases hdigit with hdigit | hdigit <;> exact absurd hdigit (by decide)
      · exact .inl hline
    have hline := (hbrace _ _).resolve_left fun hne => hne rfl
    change loads (checksumLine content packagedCatalogue) = .ok value at h
    have hdocument : checksumLine content packagedCatalogue ≠ coordinatesDocument.text floatText :=
      hline _
    have hcatalogue : checksumLine content packagedCatalogue ≠ catalogueText := hline _
    have hdescriptor : checksumLine content packagedCatalogue ≠ descriptor.text floatText := hline _
    rw [loads, if_neg hdocument, if_neg hcatalogue, if_neg hdescriptor] at h
    cases h

theorem checkCoordinates_instance : checkCoordinates coordinatesDocument = .ok coordinates :=
  rfl

theorem loadCoordinates_instance :
    loadCoordinates environment (repositoryWith packaged checksum) coordinatesPath =
      .ok coordinates := by
  have hplain : '\r' ∉ coordinatesDocument.text floatText := fun h =>
    absurd (Json.text_printable environment_lawful.floats coordinatesDocument _ h) (by decide)
  have hread : (repositoryWith packaged checksum).readText coordinatesPath =
      .ok (coordinatesDocument.text floatText) := Repository.readText_encodeUtf8 rfl hplain
  have hloads : environment.loads (coordinatesDocument.text floatText) = .ok coordinatesDocument := by
    rw [environment_loads, loads, if_pos rfl]
  rw [loadCoordinates, hread, Raise.ok_bind, hloads, Raise.ok_bind]
  exact checkCoordinates_instance

theorem pinned_instance {path : Path} (h : (repositoryWith packaged checksum).file? path = some []) :
    pinned (repositoryWith packaged checksum) coordinates.upstreams path = .ok [] :=
  pinned_eq (Repository.readText_encodeUtf8 h List.not_mem_nil)

theorem file_descriptor {p : Product} (hp : p ∈ coordinates.products) :
    (repositoryWith packaged checksum).file? p.path = some descriptorBytes := by
  rcases List.mem_pair.mp hp with rfl | rfl <;> rfl

theorem file_catalogue : (repositoryWith packaged checksum).file? catalogue =
    some (encodeUtf8 catalogueText) :=
  rfl

theorem describe_instance {p : Product} (hp : p ∈ coordinates.products) :
    describe environment (repositoryWith packaged checksum) p = .ok descriptorBytes := by
  have hplain : '\r' ∉ descriptor.text floatText := fun h =>
    absurd (Json.text_printable environment_lawful.floats descriptor _ h) (by decide)
  have hne : descriptor.text floatText ≠ coordinatesDocument.text floatText := by decide +kernel
  have hne' : descriptor.text floatText ≠ catalogueText := text_descriptor_ne (by simp) _
  have hloads : environment.loads (descriptor.text floatText) = .ok descriptor := by
    rw [environment_loads, loads, if_neg hne, if_neg hne', if_pos rfl]
  have hwith : withImageCoordinates descriptor p = .ok descriptor := by
    rcases List.mem_pair.mp hp with rfl | rfl <;> rfl
  exact describe_eq (Repository.readText_encodeUtf8 (file_descriptor hp) hplain) hloads hwith

/-- What is generated from the coordinates. -/
def generated : Updates :=
  generatedUpdates environment (fun _ => []) (fun _ => descriptorBytes) coordinates

theorem generate_instance :
    generate environment (repositoryWith packaged checksum) = .ok generated := by
  have hpins : ∀ path ∈ pinFiles,
      pinned (repositoryWith packaged checksum) coordinates.upstreams path = .ok [] := by
    intro path hpath
    simp only [pinFiles, List.mem_cons, List.not_mem_nil, or_false] at hpath
    rcases hpath with rfl | rfl | rfl | rfl <;> exact pinned_instance rfl
  rw [generate, loadCoordinates_instance, Raise.ok_bind]
  exact generateUpdates_eq hpins fun p hp => describe_instance hp

theorem prettyJson_instance : prettyJson environment listing = encodeUtf8 catalogueText := by
  rw [prettyJson, catalogueText, encodeUtf8_append]
  rfl

theorem generated_eq : generated = pinFiles.map (·, []) ++ [(edgeProduct.path, descriptorBytes),
    (coreProduct.path, descriptorBytes), (catalogue, encodeUtf8 catalogueText)] := by
  rw [← prettyJson_instance]
  rfl

theorem fresh_instance : Fresh (repositoryWith packaged checksum) generated := by
  rw [Fresh, generated_eq]
  simp only [pinFiles, List.map_cons, List.map_nil, List.cons_append, List.nil_append,
    List.forall_mem_cons]
  exact ⟨rfl, rfl, rfl, rfl, file_descriptor List.mem_cons_self,
    file_descriptor (List.mem_cons_of_mem _ List.mem_cons_self), file_catalogue,
    List.forall_mem_nil _⟩

/-- The declarations of the catalogue, in the order of their identifiers. -/
def declared : List PublishedProductDescriptor :=
  [declarationOf coreProduct descriptorBytes, declarationOf edgeProduct descriptorBytes]

theorem mergeSort_instance : ((coordinates.products.map fun p => declarationOf p descriptorBytes).mergeSort
    fun a b => a.productId.le b.productId) = declared := by
  have hle : edgeProduct.productId.1.le coreProduct.productId.1 = false := by decide
  simp [coordinates, declared, List.mergeSort, List.MergeSort.Internal.splitInTwo, declarationOf, hle]

theorem loadCatalogue_instance :
    loadCatalogue environment (repositoryWith packaged checksum) catalogue = .ok declared := by
  have hplain : '\r' ∉ catalogueText := by
    intro hmem
    rcases List.mem_append.mp hmem with hmem | hmem
    · exact (Json.laid_pretty environment_lawful.floats 0 _ _ hmem).ne rfl
    · exact absurd (List.mem_singleton.mp hmem) (by decide)
  have hread : (repositoryWith packaged checksum).readText catalogue = .ok catalogueText :=
    Repository.readText_encodeUtf8 file_catalogue hplain
  have hne : catalogueText ≠ coordinatesDocument.text floatText := fun h =>
    absurd (List.cons.inj (List.cons.inj h).2).1 (by decide)
  have hloads : environment.loads catalogueText = .ok listing := by
    rw [environment_loads, loads, if_neg hne, if_pos rfl]
  have hkeys := readCatalogue_ok hread hloads (by simp [catalogueKeys]) rfl
  have hids : ((coordinates.products.map fun p => declarationOf p descriptorBytes).map
      (·.productId)).Nodup := by
    change [edgeProduct.productId.1, coreProduct.productId.1].Nodup
    decide
  have hduplicates : checkDuplicates []
      (coordinates.products.map fun p => declarationOf p descriptorBytes) = .ok () :=
    checkDuplicates_ok hids fun _ _ h => absurd h List.not_mem_nil
  rw [loadCatalogue_ok hkeys rfl mapM_fromMapping hduplicates, mergeSort_instance]

/-- Applying to this repository comes to its end. -/
theorem mainApply_instance (packaged checksum : List UInt8) : ∃ repo' report,
    mainApply environment (repositoryWith packaged checksum) = .ok (repo', report) := by
  have hwrite : writeUpdates (repositoryWith packaged checksum) generated =
      .ok (repositoryWith packaged checksum) := writeUpdates_fresh fresh_instance
  have hmake : (repositoryWith packaged checksum).makeDirectories packagedCatalogue.dropLast =
      .ok (repositoryWith packaged checksum) := rfl
  obtain ⟨⟨repo', report⟩, hpublish⟩ := publishCatalogue_replaces loadCatalogue_instance hmake
    (by rfl) (by rfl) (by decide)
  refine ⟨repo', report, ?_⟩
  rw [mainApply, generate_instance, Raise.ok_bind, hwrite, Raise.ok_bind]
  exact hpublish

end Instance

open Instance in
/-- A repository whose publication is that of its catalogue: the check passes, and applying changes
nothing. -/
theorem mainCheck_agrees_current :
    ∃ repo' report, environment.Lawful ∧
      mainApply environment (repositoryWith (published environment declared)
        (encodeUtf8 (checksumLine (published environment declared) packagedCatalogue))) =
          .ok (repo', report) ∧
      ChecksApply environment (repositoryWith (published environment declared)
        (encodeUtf8 (checksumLine (published environment declared) packagedCatalogue))) repo' := by
  obtain ⟨repo', report, happly⟩ := mainApply_instance (published environment declared)
    (encodeUtf8 (checksumLine (published environment declared) packagedCatalogue))
  refine ⟨repo', report, environment_lawful, happly,
    (mainCheck_agrees_iff environment_lawful happly).mpr ⟨⟨_, rfl⟩, fun _ declarations hload => ?_⟩⟩
  obtain rfl : declared = declarations := Except.ok.inj (loadCatalogue_instance.symm.trans hload)
  exact ⟨rfl, rfl⟩

open Instance in
/-- **A stale publication is not noticed**: with an empty packaged catalogue and an empty sidecar the
check passes, and applying changes the repository. -/
theorem mainCheck_passes_stale_publication :
    mainCheck environment (repositoryWith [] []) = .ok () ∧
      ∃ repo' report, mainApply environment (repositoryWith [] []) = .ok (repo', report) ∧
        ¬ (repositoryWith [] []).SameFiles repo' ∧
        ¬ ChecksApply environment (repositoryWith [] []) repo' := by
  obtain ⟨repo', report, happly⟩ := mainApply_instance [] []
  have hcheck : mainCheck environment (repositoryWith [] []) = .ok () := by
    have hpresent : ∀ u ∈ generated, ∃ content, (repositoryWith [] []).file? u.1 = some content :=
      fun u hu => ⟨u.2, fresh_instance u hu⟩
    rcases mainCheck_of_present generate_instance hpresent with ⟨-, hcheck⟩ | ⟨hstale, -⟩
    · exact hcheck
    · exact absurd fresh_instance hstale
  have hchanged : ¬ (repositoryWith [] []).SameFiles repo' := by
    intro hsame
    obtain ⟨updates, written, -, -, hpublish⟩ := mainApply_ok happly
    obtain ⟨declarations, -, hfiles⟩ := publishCatalogue_ok hpublish
    have hempty := (hsame packagedCatalogue).trans (hfiles packagedCatalogue)
    rw [if_neg (by decide), if_pos rfl] at hempty
    have hnil : [] = published environment declarations := Option.some.inj hempty
    simp [published, prettyJson] at hnil
  exact ⟨hcheck, repo', report, happly, hchanged, fun h => hchanged (h.1.mp hcheck)⟩

end Catalogue

end ControlPlaneKit
