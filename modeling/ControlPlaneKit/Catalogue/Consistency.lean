import ControlPlaneKit.Catalogue.Check
import ControlPlaneKit.Catalogue.Descriptors

/-!
# Consistency of the generated files

After `generate_updates`' result is written, the catalogue is loaded with the listed products, each
record has the digest of the descriptor at its path and that descriptor has the coordinates of its
product, and generating again gives the same files. This holds where no descriptor stands at the path
of the catalogue, and products that share a descriptor give it the same coordinates; `load_coordinates`
checks neither (`generated_consistent_iff`).
-/

namespace ControlPlaneKit

namespace Catalogue

variable {env : Environment} {repo written : Repository} {coordinates : Coordinates}
  {pins : Path → List UInt8} {contents : Product → List UInt8}

/-- The build files are text, and the listed descriptors are objects with an image. -/
structure Prepared (env : Environment) (repo : Repository) (coordinates : Coordinates) : Prop where
  pins : ∀ path ∈ pinFiles, ∃ text, repo.readText path = .ok text
  descriptors : ∀ p ∈ coordinates.products, ∃ text descriptor image,
    repo.readText p.path = .ok text ∧ env.loads text = .ok descriptor ∧
      imageOf descriptor = some image

/-- `json.loads` reads back what `json.dumps` wrote of the documents of a run, and the text of a float
is printable. -/
structure ReadsBack (env : Environment) (repo : Repository) (coordinates : Coordinates) : Prop where
  floats : Json.PlainFloats env.floatText
  descriptors : ∀ p ∈ coordinates.products, ∀ text descriptor rewritten,
    repo.readText p.path = .ok text → env.loads text = .ok descriptor →
      withImageCoordinates descriptor p = .ok rewritten →
        env.loads (rewritten.text env.floatText) = .ok rewritten
  catalogue : ∀ contents : Product → List UInt8,
    (∀ p ∈ coordinates.products, describe env repo p = .ok (contents p)) →
    env.loads ((catalogueDocument (coordinates.products.map fun p => record p (contents p))).pretty
        env.floatText 0 ++ ['\n']) =
      .ok (catalogueDocument (coordinates.products.map fun p => record p (contents p)))

/-- The descriptor that a declaration points to has the declared digest and the coordinates of the
product. -/
structure Describes (env : Environment) (written : Repository) (p : Product)
    (d : PublishedProductDescriptor) : Prop where
  digest : ∃ content, written.file? (Path.parts d.descriptorPath) = some content ∧
    d.descriptorSha256 = hexDigest content
  image : ∃ text descriptor image, written.readText (Path.parts d.descriptorPath) = .ok text ∧
    env.loads text = .ok descriptor ∧ imageOf descriptor = some image ∧ HasCoordinates image p.image

/-- The generated files are consistent with each other and with the coordinates. -/
structure Consistent (env : Environment) (coordinates : Coordinates) (updates : Updates)
    (written : Repository) : Prop where
  catalogue : ∃ declarations, loadCatalogue env written catalogue = .ok declarations ∧
    (declarations.map (·.productId)).Perm (coordinates.products.map (·.productId.1)) ∧
    ∀ d ∈ declarations, ∃ p ∈ coordinates.products, p.productId.1 = d.productId ∧
      Describes env written p d
  again : ∃ updates', generateUpdates env written coordinates = .ok updates' ∧
    ∀ path, updates'.lookup path = updates.lookup path

/-- The descriptor at a path records the commit of its image. -/
def RecordsCommit (env : Environment) (repo : Repository) (path : Path) : Prop :=
  ∃ text descriptor image, repo.readText path = .ok text ∧ env.loads text = .ok descriptor ∧
    imageOf descriptor = some image ∧ recordsCommit image = true

/-- No descriptor is the catalogue, and products with one descriptor agree on what it is to hold. -/
structure PathsAgree (env : Environment) (repo : Repository) (coordinates : Coordinates) : Prop where
  catalogue : ∀ p ∈ coordinates.products, p.path ≠ catalogue
  shared : ∀ p ∈ coordinates.products, ∀ q ∈ coordinates.products, p.path = q.path →
    p.image = q.image ∧ (p.sourceCommit = q.sourceCommit ∨ ¬ RecordsCommit env repo p.path)

/-- Two products with one path and different contents for it, of the same SHA-256. -/
def Collides (env : Environment) (repo : Repository) (coordinates : Coordinates) : Prop :=
  ∃ p ∈ coordinates.products, ∃ q ∈ coordinates.products, p.path = q.path ∧
    ∃ content content', describe env repo p = .ok content ∧ describe env repo q = .ok content' ∧
      content ≠ content' ∧ Sha256.hexDigest content = Sha256.hexDigest content'

/-! ### Accepted coordinates -/

theorem loadProduct_id {seen : List Text} {value : Json} {p : Product}
    (h : loadProduct seen value = .ok p) : p.productId.1 ∉ seen := by
  rw [loadProduct.eq_def] at h
  split at h
  · next product =>
    obtain ⟨productId, -, h⟩ := Raise.bind_eq_ok.mp h
    split at h
    · cases h
    · next hnew =>
      obtain ⟨owner, -, h⟩ := Raise.bind_eq_ok.mp h
      obtain ⟨path, -, h⟩ := Raise.bind_eq_ok.mp h
      obtain ⟨source, -, h⟩ := Raise.bind_eq_ok.mp h
      obtain ⟨image, -, h⟩ := Raise.bind_eq_ok.mp h
      cases h
      exact hnew
  · cases h

theorem loadProducts_nodup {seen : List Text} {values : List Json} {ps : List Product}
    (h : loadProducts seen values = .ok ps) :
    (ps.map (·.productId.1)).Nodup ∧ ∀ p ∈ ps, p.productId.1 ∉ seen := by
  induction values generalizing seen ps with
  | nil =>
    cases h
    exact ⟨List.nodup_nil, List.forall_mem_nil _⟩
  | cons value values ih =>
    rw [loadProducts] at h
    cases hp : loadProduct seen value with
    | error e => simp [hp, bind, Except.bind] at h
    | ok p =>
      cases hps : loadProducts (p.productId.1 :: seen) values with
      | error e => simp [hp, hps, bind, Except.bind] at h
      | ok rest =>
        simp only [hp, hps, bind, Except.bind, pure, Except.pure] at h
        cases h
        obtain ⟨hnodup, hnew⟩ := ih hps
        refine ⟨List.nodup_cons.mpr ⟨fun hmem => ?_, hnodup⟩,
          List.forall_mem_cons.mpr ⟨loadProduct_id hp, fun q hq hseen =>
            hnew q hq (List.mem_cons_of_mem _ hseen)⟩⟩
        obtain ⟨q, hq, hid⟩ := List.mem_map.mp hmem
        exact hnew q hq (hid ▸ List.mem_cons_self)

/-- **Accepted coordinates list no product twice.** -/
theorem checkCoordinates_nodup {raw : Json} (h : checkCoordinates raw = .ok coordinates) :
    (coordinates.products.map (·.productId.1)).Nodup := by
  rw [checkCoordinates.eq_def] at h
  split at h
  · next members =>
    simp only [bind, Except.bind] at h
    split at h
    · cases h
    · split at h
      · next upstreams products _ _ =>
        cases hcpk : commit upstreams "control_plane_kit_commit" with
        | error e => simp [hcpk] at h
        | ok cpk =>
          cases hinterpreters : commit upstreams "control_plane_kit_interpreters_commit" with
          | error e => simp [hcpk, hinterpreters] at h
          | ok interpreters =>
            cases hsecrets : commit upstreams "control_plane_kit_secrets_commit" with
            | error e => simp [hcpk, hinterpreters, hsecrets] at h
            | ok secrets =>
              cases hproducts : loadProducts [] products with
              | error e => simp [hcpk, hinterpreters, hsecrets, hproducts] at h
              | ok ps =>
                simp only [hcpk, hinterpreters, hsecrets, hproducts, pure, Except.pure] at h
                cases h
                exact (loadProducts_nodup hproducts).1
      · cases h
      · cases h
  · cases h

/-! ### The written tree -/

theorem pinned_spec {upstreams : Upstreams} {path : Path} {content : List UInt8}
    (h : pinned repo upstreams path = .ok content) : ∃ text, repo.readText path = .ok text ∧
      content = encodeUtf8 (replaceDependencyPins upstreams text) := by
  cases hread : repo.readText path with
  | error e => simp [pinned, hread, bind, Except.bind] at h
  | ok text => exact ⟨text, rfl, Except.ok.inj (h.symm.trans (pinned_eq hread))⟩

/-- The members of an image tell its coordinates. -/
theorem HasCoordinates.unique {image : Fields} {a b : Image} (ha : HasCoordinates image a)
    (hb : HasCoordinates image b) : a = b := by
  obtain ⟨registry, repository, tag, digest⟩ := a
  obtain ⟨registry', repository', tag', digest'⟩ := b
  obtain rfl : registry = registry' := Subtype.ext (Json.str.inj (ha.registry.symm.trans hb.registry))
  obtain rfl : repository = repository' :=
    Subtype.ext (Json.str.inj (ha.repository.symm.trans hb.repository))
  obtain rfl : tag = tag' := Subtype.ext (Json.str.inj (ha.tag.symm.trans hb.tag))
  obtain rfl : digest = digest' := Subtype.ext (Json.str.inj (ha.digest.symm.trans hb.digest))
  rfl

theorem encodeUtf8_injective {cs ds : List Char} (h : encodeUtf8 cs = encodeUtf8 ds) : cs = ds := by
  have hdecode : some (String.ofList cs) = some (String.ofList ds) := by
    rw [← Client.decodeUtf8_toByteArray, ← Client.decodeUtf8_toByteArray]
    exact congrArg Server.decodeUtf8 h
  have htext := congrArg String.toList (Option.some.inj hdecode)
  rwa [String.toList_ofList, String.toList_ofList] at htext

theorem hexDigest_injective {content content' : List UInt8} (h : hexDigest content = hexDigest content') :
    Sha256.hexDigest content = Sha256.hexDigest content' := by
  have htext := congrArg String.toList (Text.utf8.inj h)
  rwa [String.toList_ofList, String.toList_ofList] at htext

section Written

variable (hpins : ∀ path ∈ pinFiles, pinned repo coordinates.upstreams path = .ok (pins path))
  (hcontents : ∀ p ∈ coordinates.products, describe env repo p = .ok (contents p))
  (hwrite : writeUpdates repo (generatedUpdates env pins contents coordinates) = .ok written)

include hpins hcontents hwrite

theorem written_file? (path : Path) : written.file? path =
    ((generatedUpdates env pins contents coordinates).lookup path).or (repo.file? path) :=
  writeUpdates_file? hwrite (generateUpdates_spec (generateUpdates_eq hpins hcontents)).1 path

/-- A descriptor that is not the catalogue holds what the last product with its path gives. -/
theorem written_descriptor {p : Product} (hp : p ∈ coordinates.products) (hne : p.path ≠ catalogue) :
    ∃ l ∈ coordinates.products, l.path = p.path ∧ written.file? p.path = some (contents l) := by
  obtain ⟨l, hl, hmem, hpath⟩ := lastFor_of_mem hp
  refine ⟨l, hmem, hpath, ?_⟩
  rw [written_file? hpins hcontents hwrite, lookup_generatedUpdates, if_neg hne, hl]
  rfl

theorem written_catalogue (hfloats : Json.PlainFloats env.floatText) :
    written.readText catalogue = .ok ((catalogueDocument
      (coordinates.products.map fun p => record p (contents p))).pretty env.floatText 0 ++ ['\n']) := by
  have hfile := written_file? hpins hcontents hwrite catalogue
  rw [lookup_generatedUpdates, if_pos rfl, prettyJson] at hfile
  refine Repository.readText_encodeUtf8 ?_ fun hmem => ?_
  · rw [hfile, encodeUtf8_append]
    rfl
  · rcases List.mem_append.mp hmem with hmem | hmem
    · exact (Json.laid_pretty hfloats 0 _ _ hmem).ne rfl
    · exact absurd (List.mem_singleton.mp hmem) (by decide)

/-- A build file that is no descriptor is pinned as before. -/
theorem pinned_written {path : Path} (hpath : path ∈ pinFiles)
    (hfree : ∀ p ∈ coordinates.products, p.path ≠ path) :
    pinned written coordinates.upstreams path = .ok (pins path) := by
  have hfile : written.file? path = some (pins path) := by
    have hne : path ≠ catalogue := by
      rintro rfl
      exact absurd hpath (by decide)
    rw [written_file? hpins hcontents hwrite, lookup_generatedUpdates, if_neg hne,
      lastFor_eq_none hfree, if_pos hpath]
    rfl
  obtain ⟨text, hread, hpin⟩ := pinned_spec (hpins path hpath)
  rw [hpin] at hfile ⊢
  have hplain : '\r' ∉ replaceDependencyPins coordinates.upstreams text :=
    notMem_replaceDependencyPins (Repository.notMem_readText hread)
  rw [pinned_eq (Repository.readText_encodeUtf8 hfile hplain), replaceDependencyPins_idempotent]

end Written

/-- Products with one path give it one content. -/
theorem contents_agree
    (hcontents : ∀ p ∈ coordinates.products, describe env repo p = .ok (contents p))
    (hprepared : Prepared env repo coordinates)
    (h : PathsAgree env repo coordinates) {p q : Product} (hp : p ∈ coordinates.products)
    (hq : q ∈ coordinates.products) (hpath : p.path = q.path) : contents p = contents q := by
  obtain ⟨text, descriptor, image, hread, hloads, himage⟩ := hprepared.descriptors p hp
  obtain ⟨hsame, hcommit⟩ := h.shared p hp q hq hpath
  have hcommit' : p.sourceCommit = q.sourceCommit ∨ recordsCommit image = false := by
    refine hcommit.imp_right fun hrecords => ?_
    rw [← Bool.not_eq_true]
    exact fun htrue => hrecords ⟨text, descriptor, image, hread, hloads, himage, htrue⟩
  obtain ⟨rewritten, hwith, -⟩ := withImageCoordinates_spec (p := p) himage
  have hp' := describe_eq hread hloads hwith
  have hq' := describe_eq (hpath ▸ hread) hloads
    ((withImageCoordinates_congr himage hsame hcommit').symm.trans hwith)
  exact Except.ok.inj ((hcontents p hp).symm.trans (hp'.trans (hq'.symm.trans (hcontents q hq))))

/-- The declarations that `load_catalogue` returns. -/
def declarations (contents : Product → List UInt8) (coordinates : Coordinates) :
    List PublishedProductDescriptor :=
  (coordinates.products.map fun p => declarationOf p (contents p)).mergeSort
    fun a b => a.productId.le b.productId

theorem declarations_perm : ((declarations contents coordinates).map (·.productId)).Perm
    (coordinates.products.map (·.productId.1)) := by
  have hperm := (List.mergeSort_perm (coordinates.products.map fun p => declarationOf p (contents p))
    fun a b => a.productId.le b.productId).map (·.productId)
  rw [List.map_map] at hperm
  exact hperm

section Loaded

variable (hreads : ReadsBack env repo coordinates)
  (hnodup : (coordinates.products.map (·.productId.1)).Nodup)
  (hpins : ∀ path ∈ pinFiles, pinned repo coordinates.upstreams path = .ok (pins path))
  (hcontents : ∀ p ∈ coordinates.products, describe env repo p = .ok (contents p))
  (hwrite : writeUpdates repo (generatedUpdates env pins contents coordinates) = .ok written)

include hreads hnodup hpins hcontents hwrite

/-- **The generated catalogue is accepted**, with the listed products. -/
theorem loadCatalogue_written :
    loadCatalogue env written catalogue = .ok (declarations contents coordinates) := by
  have hread := written_catalogue hpins hcontents hwrite hreads.floats
  have hids : ((coordinates.products.map fun p => declarationOf p (contents p)).map
      (·.productId)).Nodup := by
    rw [List.map_map]
    exact hnodup
  exact loadCatalogue_ok (readCatalogue_ok hread (hreads.catalogue contents hcontents)
    (by simp [catalogueKeys]) rfl) rfl mapM_fromMapping
    (checkDuplicates_ok hids fun _ _ h => absurd h List.not_mem_nil)

/-- What consistency says of one product. -/
theorem describes_of_consistent
    (h : Consistent env coordinates (generatedUpdates env pins contents coordinates) written)
    {p : Product} (hp : p ∈ coordinates.products) :
    Describes env written p (declarationOf p (contents p)) := by
  obtain ⟨ds, hload, -, hds⟩ := h.catalogue
  obtain rfl : declarations contents coordinates = ds := Except.ok.inj
    ((loadCatalogue_written hreads hnodup hpins hcontents hwrite).symm.trans hload)
  have hmem : declarationOf p (contents p) ∈ declarations contents coordinates :=
    List.mem_mergeSort.mpr (List.mem_map_of_mem hp)
  obtain ⟨q, hq, hid, hdescribes⟩ := hds _ hmem
  obtain rfl : q = p := List.inj_on_of_nodup_map hnodup hq hp hid
  exact hdescribes

/-- Products with one path have one image. -/
theorem images_of_consistent
    (h : Consistent env coordinates (generatedUpdates env pins contents coordinates) written)
    {p q : Product} (hp : p ∈ coordinates.products) (hq : q ∈ coordinates.products)
    (hpath : p.path = q.path) : p.image = q.image := by
  obtain ⟨text, descriptor, image, hread, hloads, himage, hcoordinates⟩ :=
    (describes_of_consistent hreads hnodup hpins hcontents hwrite h hp).image
  obtain ⟨text', descriptor', image', hread', hloads', himage', hcoordinates'⟩ :=
    (describes_of_consistent hreads hnodup hpins hcontents hwrite h hq).image
  have hsame : Path.parts (declarationOf p (contents p)).descriptorPath =
      Path.parts (declarationOf q (contents q)).descriptorPath := hpath
  rw [← hsame] at hread'
  obtain rfl := Except.ok.inj (hread.symm.trans hread')
  obtain rfl := Except.ok.inj (hloads.symm.trans hloads')
  obtain rfl := Option.some.inj (himage.symm.trans himage')
  exact hcoordinates.unique hcoordinates'

/-- **Consistent files have their paths in order**, or two contents have one digest. -/
theorem pathsAgree_of_consistent
    (h : Consistent env coordinates (generatedUpdates env pins contents coordinates) written) :
    PathsAgree env repo coordinates ∨ Collides env repo coordinates := by
  have hdescribes := fun p hp =>
    describes_of_consistent hreads hnodup hpins hcontents hwrite h (p := p) hp
  have hcatalogue : ∀ p ∈ coordinates.products, p.path ≠ catalogue := by
    intro p hp hpath
    obtain ⟨text, descriptor, image, hread, hloads, himage, -⟩ := (hdescribes p hp).image
    change written.readText p.path = _ at hread
    rw [hpath, written_catalogue hpins hcontents hwrite hreads.floats] at hread
    cases hread
    obtain rfl := Except.ok.inj ((hreads.catalogue contents hcontents).symm.trans hloads)
    cases himage
  by_cases hcollides : Collides env repo coordinates
  · exact .inr hcollides
  refine .inl ⟨hcatalogue, fun p hp q hq hpath => ?_⟩
  have hsame : Path.parts (declarationOf p (contents p)).descriptorPath =
      Path.parts (declarationOf q (contents q)).descriptorPath := hpath
  refine ⟨images_of_consistent hreads hnodup hpins hcontents hwrite h hp hq hpath, ?_⟩
  by_contra hcommits
  obtain ⟨hcommit, hrecords⟩ := not_or.mp hcommits
  obtain ⟨text, descriptor, image, hread, hloads, himage, hrecords⟩ := not_not.mp hrecords
  -- the two contents differ, for the provenance of each tells its commit
  obtain ⟨rewritten, hwith, hrewritten⟩ := withImageCoordinates_spec (p := p) himage
  obtain ⟨rewritten', hwith', hrewritten'⟩ := withImageCoordinates_spec (p := q) himage
  have hp' := describe_eq hread hloads hwith
  have hq' := describe_eq (hpath ▸ hread) hloads hwith'
  have hne : compactJson env rewritten ≠ compactJson env rewritten' := by
    intro heq
    have hback := hreads.descriptors p hp text descriptor rewritten hread hloads hwith
    have hback' := hreads.descriptors q hq text descriptor rewritten' (hpath ▸ hread) hloads hwith'
    rw [encodeUtf8_injective heq] at hback
    obtain rfl := Except.ok.inj (hback.symm.trans hback')
    exact hcommit (sourceCommit_of_eq (Option.some.inj (hrewritten.symm.trans hrewritten')) hrecords)
  obtain ⟨content, hfile, hdigest⟩ := (hdescribes p hp).digest
  obtain ⟨content', hfile', hdigest'⟩ := (hdescribes q hq).digest
  rw [← hsame] at hfile'
  obtain rfl := Option.some.inj (hfile.symm.trans hfile')
  have hcontent : contents p = compactJson env rewritten :=
    Except.ok.inj ((hcontents p hp).symm.trans hp')
  have hcontent' : contents q = compactJson env rewritten' :=
    Except.ok.inj ((hcontents q hq).symm.trans hq')
  refine hcollides ⟨p, hp, q, hq, hpath, _, _, hp', hq', hne, ?_⟩
  rw [← hcontent, ← hcontent']
  exact hexDigest_injective (hdigest.trans hdigest'.symm)

end Loaded

section Written

variable (hreads : ReadsBack env repo coordinates)
  (hpins : ∀ path ∈ pinFiles, pinned repo coordinates.upstreams path = .ok (pins path))
  (hcontents : ∀ p ∈ coordinates.products, describe env repo p = .ok (contents p))
  (hwrite : writeUpdates repo (generatedUpdates env pins contents coordinates) = .ok written)

include hpins hcontents hwrite

/-- The descriptor of a product, as it was written. -/
theorem written_own (hprepared : Prepared env repo coordinates)
    (h : PathsAgree env repo coordinates) {p : Product} (hp : p ∈ coordinates.products) :
    written.file? p.path = some (contents p) := by
  obtain ⟨l, hl, hpath, hfile⟩ := written_descriptor hpins hcontents hwrite hp (h.catalogue p hp)
  rw [hfile, contents_agree hcontents hprepared h hl hp hpath]

include hreads

/-- **The written descriptor is read back**, with the coordinates of its product. -/
theorem written_rewritten (hprepared : Prepared env repo coordinates)
    (h : PathsAgree env repo coordinates) {p : Product} (hp : p ∈ coordinates.products) :
    ∃ text rewritten image, contents p = compactJson env rewritten ∧
      written.readText p.path = .ok text ∧ env.loads text = .ok rewritten ∧
      imageOf rewritten = some image ∧ HasCoordinates image p.image ∧
      withImageCoordinates rewritten p = .ok rewritten := by
  obtain ⟨text, descriptor, image, hread, hloads, himage⟩ := hprepared.descriptors p hp
  obtain ⟨rewritten, hwith, hrewritten⟩ := withImageCoordinates_spec (p := p) himage
  have hcontent : contents p = compactJson env rewritten :=
    Except.ok.inj ((hcontents p hp).symm.trans (describe_eq hread hloads hwith))
  have hfile := written_own hpins hcontents hwrite hprepared h hp
  rw [hcontent, compactJson] at hfile
  have hplain : '\r' ∉ rewritten.text env.floatText := fun hmem =>
    absurd (Json.text_printable hreads.floats rewritten _ hmem) (by decide)
  exact ⟨_, rewritten, _, hcontent, Repository.readText_encodeUtf8 hfile hplain,
    hreads.descriptors p hp text descriptor rewritten hread hloads hwith, hrewritten,
    addressed_coordinatedImage.hasCoordinates, withImageCoordinates_idempotent himage hwith⟩

theorem describe_written (hprepared : Prepared env repo coordinates)
    (h : PathsAgree env repo coordinates) {p : Product} (hp : p ∈ coordinates.products) :
    describe env written p = .ok (contents p) := by
  obtain ⟨text, rewritten, image, hcontent, hread, hloads, -, -, hwith⟩ :=
    written_rewritten hreads hpins hcontents hwrite hprepared h hp
  rw [hcontent]
  exact describe_eq hread hloads hwith

/-- **Generating again gives the same files.** -/
theorem generate_again (hprepared : Prepared env repo coordinates)
    (h : PathsAgree env repo coordinates) :
    ∃ updates', generateUpdates env written coordinates = .ok updates' ∧
      ∀ path, updates'.lookup path = (generatedUpdates env pins contents coordinates).lookup path := by
  have hread : ∀ path ∈ pinFiles, ∃ content,
      pinned written coordinates.upstreams path = .ok content := by
    intro path hpath
    by_cases hfree : ∀ p ∈ coordinates.products, p.path ≠ path
    · exact ⟨_, pinned_written hpins hcontents hwrite hpath hfree⟩
    · obtain ⟨p, hp, rfl⟩ : ∃ p ∈ coordinates.products, p.path = path := by simpa using hfree
      obtain ⟨text, -, -, -, hread, -, -, -, -⟩ :=
        written_rewritten hreads hpins hcontents hwrite hprepared h hp
      exact ⟨_, pinned_eq hread⟩
  have hpins' : ∀ path ∈ pinFiles, pinned written coordinates.upstreams path =
      .ok ((pinned written coordinates.upstreams path).toOption.getD []) := by
    intro path hpath
    obtain ⟨content, hcontent⟩ := hread path hpath
    rw [hcontent]
    rfl
  refine ⟨_, generateUpdates_eq hpins' fun p hp =>
    describe_written hreads hpins hcontents hwrite hprepared h hp, fun path => ?_⟩
  rw [lookup_generatedUpdates, lookup_generatedUpdates]
  split
  · rfl
  · by_cases hfree : ∀ p ∈ coordinates.products, p.path ≠ path
    · rw [lastFor_eq_none hfree]
      by_cases hpath : path ∈ pinFiles
      · have hsame := (hpins' path hpath).symm.trans
          (pinned_written hpins hcontents hwrite hpath hfree)
        rw [Except.ok.inj hsame]
      · rw [if_neg hpath, if_neg hpath]
    · obtain ⟨p, hp, rfl⟩ : ∃ p ∈ coordinates.products, p.path = path := by simpa using hfree
      obtain ⟨l, hl, -, -⟩ := lastFor_of_mem hp
      rw [hl]
      rfl

theorem consistent_of_pathsAgree (hnodup : (coordinates.products.map (·.productId.1)).Nodup)
    (hprepared : Prepared env repo coordinates) (h : PathsAgree env repo coordinates) :
    Consistent env coordinates (generatedUpdates env pins contents coordinates) written where
  catalogue := by
    refine ⟨_, loadCatalogue_written hreads hnodup hpins hcontents hwrite, declarations_perm,
      fun d hd => ?_⟩
    obtain ⟨p, hp, rfl⟩ := List.mem_map.mp (List.mem_mergeSort.mp hd)
    obtain ⟨text, rewritten, image, -, hread, hloads, himage, hcoordinates, -⟩ :=
      written_rewritten hreads hpins hcontents hwrite hprepared h hp
    exact ⟨p, hp, rfl, ⟨contents p, written_own hpins hcontents hwrite hprepared h hp,
      rfl⟩, ⟨text, rewritten, image, hread, hloads, himage, hcoordinates⟩⟩
  again := generate_again hreads hpins hcontents hwrite hprepared h

end Written

/-- **The generated files are consistent exactly where paths agree**: no descriptor is the catalogue,
and products that share a descriptor want the same of it; but for two contents of one SHA-256. -/
theorem generated_consistent_iff {raw : Json} (haccepted : checkCoordinates raw = .ok coordinates)
    (hprepared : Prepared env repo coordinates) (hreads : ReadsBack env repo coordinates) :
    ∃ updates, generateUpdates env repo coordinates = .ok updates ∧
      ∀ written, writeUpdates repo updates = .ok written →
        (PathsAgree env repo coordinates → Consistent env coordinates updates written) ∧
        (Consistent env coordinates updates written →
          PathsAgree env repo coordinates ∨ Collides env repo coordinates) := by
  have hnodup := checkCoordinates_nodup haccepted
  have hpin : ∀ path ∈ pinFiles, pinned repo coordinates.upstreams path =
      .ok ((pinned repo coordinates.upstreams path).toOption.getD []) := by
    intro path hpath
    obtain ⟨text, hread⟩ := hprepared.pins path hpath
    rw [pinned_eq hread]
    rfl
  have hcontent : ∀ p ∈ coordinates.products, describe env repo p =
      .ok ((describe env repo p).toOption.getD []) := by
    intro p hp
    obtain ⟨text, descriptor, image, hread, hloads, himage⟩ := hprepared.descriptors p hp
    obtain ⟨rewritten, hwith, -⟩ := withImageCoordinates_spec (p := p) himage
    rw [describe_eq hread hloads hwith]
    rfl
  exact ⟨_, generateUpdates_eq hpin hcontent, fun written hwrite =>
    ⟨consistent_of_pathsAgree hreads hpin hcontent hwrite hnodup hprepared,
      pathsAgree_of_consistent hreads hnodup hpin hcontent hwrite⟩⟩

namespace Instance

/-- The item of a product, with this identifier and this tag. -/
def productItem (productId tag : String) : Json :=
  .obj [("product_id", .str productId), ("owner_directory", .str "products"),
    ("descriptor_path", .str "product.cpk.json"),
    ("source_commit", .str "0d6b6bdc7a1f4e0c9a55d6f0a1b2c3d4e5f60718"),
    ("image", .obj [("registry", .str "ghcr.io"), ("repository", .str "hello"), ("tag", .str tag),
      ("digest",
        .str "sha256:44136fa355b3678a1146ad16f7e8649e94fb4fc21fe77e8310c060f61caaff8a")])]

/-- Coordinates of two products with one descriptor. -/
def sharedDocument : Json :=
  .obj [("schema", .str "cpk-servers.coordinates"),
    ("upstreams", .obj [
      ("control_plane_kit_commit", .str "0d6b6bdc7a1f4e0c9a55d6f0a1b2c3d4e5f60718"),
      ("control_plane_kit_interpreters_commit", .str "1d6b6bdc7a1f4e0c9a55d6f0a1b2c3d4e5f60718"),
      ("control_plane_kit_secrets_commit", .str "2d6b6bdc7a1f4e0c9a55d6f0a1b2c3d4e5f60718")]),
    ("products", .arr [productItem "hello" "stable", productItem "hello-next" "next"])]

theorem stableCommit_hex :
    isLowerHex (Text.utf8 "0d6b6bdc7a1f4e0c9a55d6f0a1b2c3d4e5f60718").codes 40 = true := by
  decide +kernel

/-- The first product. -/
def stableProduct : Product where
  productId := ⟨.utf8 "hello", by decide⟩
  ownerDirectory := ⟨.utf8 "products", by decide, by decide⟩
  descriptorPath := ⟨.utf8 "product.cpk.json", by decide, by decide⟩
  sourceCommit := ⟨.utf8 "0d6b6bdc7a1f4e0c9a55d6f0a1b2c3d4e5f60718", stableCommit_hex⟩
  image := ⟨⟨.utf8 "ghcr.io", by decide⟩, ⟨.utf8 "hello", by decide⟩, ⟨.utf8 "stable", by decide⟩,
    ⟨.utf8 "sha256:44136fa355b3678a1146ad16f7e8649e94fb4fc21fe77e8310c060f61caaff8a",
      by decide +kernel⟩⟩

/-- The second, with another tag. -/
def nextProduct : Product :=
  { stableProduct with
    productId := ⟨.utf8 "hello-next", by decide⟩
    image := { stableProduct.image with tag := ⟨.utf8 "next", by decide⟩ } }

/-- The coordinates that the document holds. -/
def sharedCoordinates : Coordinates :=
  ⟨Instance.coordinates.upstreams, [stableProduct, nextProduct]⟩

/-- A descriptor with an empty image. -/
def emptyDescriptor : Json :=
  .obj [("product", .obj [("image", .obj [])])]

/-- The descriptor with the coordinates of a product. -/
def coordinatedDescriptor (tag : String) : Json :=
  .obj [("product", .obj [("image", .obj [("registry", .str "ghcr.io"), ("repository", .str "hello"),
    ("tag", .str tag), ("digest",
      .str "sha256:44136fa355b3678a1146ad16f7e8649e94fb4fc21fe77e8310c060f61caaff8a")])])]

/-- The bytes that `generate_updates` makes of it. -/
def coordinatedBytes (tag : String) : List UInt8 :=
  encodeUtf8 ((coordinatedDescriptor tag).text floatText)

/-- The catalogue of the two products. -/
def sharedCatalogue : Json :=
  catalogueDocument [record stableProduct (coordinatedBytes "stable"),
    record nextProduct (coordinatedBytes "next")]

/-- A parser that knows the documents of this run. -/
def sharedLoads (text : List Char) : Except Failure Json :=
  if text = sharedCatalogue.pretty floatText 0 ++ ['\n'] then .ok sharedCatalogue
  else if text = emptyDescriptor.text floatText then .ok emptyDescriptor
  else if text = (coordinatedDescriptor "stable").text floatText then
    .ok (coordinatedDescriptor "stable")
  else if text = (coordinatedDescriptor "next").text floatText then .ok (coordinatedDescriptor "next")
  else .error .jsonDecodeError

/-- An interpreter with this parser. -/
def sharedEnvironment : Environment :=
  { environment with loads := sharedLoads }

theorem loads_shared : sharedEnvironment.loads = sharedLoads :=
  rfl

theorem floatText_shared : sharedEnvironment.floatText = floatText :=
  rfl

/-- The files of the run. -/
def sharedRepository : Repository :=
  fun p => List.lookup p [(pyproject, Entry.file []), (cpkServerDockerfile, .file []),
    (cpkLocalGatewayDockerfile, .file []), (secretsServerDockerfile, .file []),
    (catalogue, .file []), (path "product.cpk.json", .file (encodeUtf8 (emptyDescriptor.text floatText)))]

theorem readText_shared : sharedRepository.readText (path "product.cpk.json") =
    .ok (emptyDescriptor.text floatText) :=
  Repository.readText_encodeUtf8 rfl fun h =>
    absurd (Json.text_printable environment_lawful.floats emptyDescriptor _ h) (by decide)

/-- A compact text is not the catalogue, which has a new line after its brace. -/
theorem text_ne_catalogue {members : Fields} :
    (Json.obj [("product", .obj members)]).text floatText ≠
      sharedCatalogue.pretty floatText 0 ++ ['\n'] := by
  intro heq
  exact absurd (List.cons.inj (List.cons.inj heq).2).1 (by decide)

theorem loads_empty :
    sharedEnvironment.loads (emptyDescriptor.text floatText) = .ok emptyDescriptor := by
  have hne : emptyDescriptor.text floatText ≠ sharedCatalogue.pretty floatText 0 ++ ['\n'] :=
    text_ne_catalogue
  rw [loads_shared, sharedLoads, if_neg hne, if_pos rfl]

theorem loads_stable :
    sharedEnvironment.loads ((coordinatedDescriptor "stable").text sharedEnvironment.floatText) =
      .ok (coordinatedDescriptor "stable") := by
  have hne : (coordinatedDescriptor "stable").text floatText ≠
      sharedCatalogue.pretty floatText 0 ++ ['\n'] := text_ne_catalogue
  rw [loads_shared, floatText_shared, sharedLoads, if_neg hne, if_neg (by decide +kernel), if_pos rfl]

theorem loads_next :
    sharedEnvironment.loads ((coordinatedDescriptor "next").text sharedEnvironment.floatText) =
      .ok (coordinatedDescriptor "next") := by
  have hne : (coordinatedDescriptor "next").text floatText ≠
      sharedCatalogue.pretty floatText 0 ++ ['\n'] := text_ne_catalogue
  rw [loads_shared, floatText_shared, sharedLoads, if_neg hne, if_neg (by decide +kernel),
    if_neg (by decide +kernel), if_pos rfl]

theorem accepted_shared : checkCoordinates sharedDocument = .ok sharedCoordinates :=
  rfl

theorem describe_stable : describe sharedEnvironment sharedRepository stableProduct =
    .ok (coordinatedBytes "stable") :=
  describe_eq readText_shared loads_empty rfl

theorem describe_next : describe sharedEnvironment sharedRepository nextProduct =
    .ok (coordinatedBytes "next") :=
  describe_eq readText_shared loads_empty rfl

theorem prepared_shared : Prepared sharedEnvironment sharedRepository sharedCoordinates where
  pins path hpath := by
    have hfile : sharedRepository.file? path = some (encodeUtf8 []) := by
      simp only [pinFiles, List.mem_cons, List.not_mem_nil, or_false] at hpath
      rcases hpath with rfl | rfl | rfl | rfl <;> rfl
    exact ⟨[], Repository.readText_encodeUtf8 hfile List.not_mem_nil⟩
  descriptors p hp := by
    have hpath : p.path = path "product.cpk.json" := by
      rcases List.mem_pair.mp hp with rfl | rfl <;> rfl
    exact ⟨_, emptyDescriptor, [], hpath ▸ readText_shared, loads_empty, rfl⟩

theorem readsBack_shared : ReadsBack sharedEnvironment sharedRepository sharedCoordinates where
  floats := environment_lawful.floats
  descriptors p hp text descriptor rewritten hread hloads hwith := by
    have hpath : p.path = path "product.cpk.json" := by
      rcases List.mem_pair.mp hp with rfl | rfl <;> rfl
    obtain rfl := Except.ok.inj ((hpath ▸ readText_shared).symm.trans hread)
    obtain rfl := Except.ok.inj (loads_empty.symm.trans hloads)
    rcases List.mem_pair.mp hp with rfl | rfl
    · obtain rfl : coordinatedDescriptor "stable" = rewritten := Except.ok.inj hwith
      exact loads_stable
    · obtain rfl : coordinatedDescriptor "next" = rewritten := Except.ok.inj hwith
      exact loads_next
  catalogue contents hcontents := by
    have hstable := Except.ok.inj
      ((hcontents stableProduct List.mem_cons_self).symm.trans describe_stable)
    have hnext := Except.ok.inj ((hcontents nextProduct
      (List.mem_cons_of_mem _ List.mem_cons_self)).symm.trans describe_next)
    have hcatalogue : catalogueDocument (sharedCoordinates.products.map fun p =>
        record p (contents p)) = sharedCatalogue := by
      simp only [sharedCoordinates, List.map_cons, List.map_nil, hstable, hnext]
      rfl
    rw [hcatalogue]
    rw [loads_shared, floatText_shared, sharedLoads, if_pos rfl]

/-- The contents of the two descriptors. -/
def sharedContents (p : Product) : List UInt8 :=
  if p = stableProduct then coordinatedBytes "stable" else coordinatedBytes "next"

theorem describe_shared : ∀ p ∈ sharedCoordinates.products,
    describe sharedEnvironment sharedRepository p = .ok (sharedContents p) := by
  intro p hp
  rcases List.mem_pair.mp hp with rfl | rfl
  · exact describe_stable
  · exact describe_next

theorem pinned_shared : ∀ path ∈ pinFiles,
    pinned sharedRepository sharedCoordinates.upstreams path = .ok [] := by
  intro path hpath
  have hfile : sharedRepository.file? path = some (encodeUtf8 []) := by
    simp only [pinFiles, List.mem_cons, List.not_mem_nil, or_false] at hpath
    rcases hpath with rfl | rfl | rfl | rfl <;> rfl
  exact pinned_eq (Repository.readText_encodeUtf8 hfile List.not_mem_nil)

/-- The four pin files, the catalogue and the descriptor are there to be written. -/
theorem writes_shared : ∃ written, writeUpdates sharedRepository
    (generatedUpdates sharedEnvironment (fun _ => []) sharedContents sharedCoordinates) =
      .ok written := by
  refine writeUpdates_exists fun u hu => ?_
  rcases (generateUpdates_spec (generateUpdates_eq pinned_shared describe_shared)).2.2 u hu with
    hsource
  by_cases hcatalogue : u.1 = catalogue
  · exact ⟨[], hcatalogue ▸ rfl⟩
  · exact hsource.file? hcatalogue

end Instance

open Instance in
/-- The hypotheses hold of coordinates with two products. -/
theorem generated_consistent_shared :
    checkCoordinates sharedDocument = .ok sharedCoordinates ∧
      Prepared sharedEnvironment sharedRepository sharedCoordinates ∧
      ReadsBack sharedEnvironment sharedRepository sharedCoordinates ∧
      ∃ updates, generateUpdates sharedEnvironment sharedRepository sharedCoordinates = .ok updates ∧
        ∀ written, writeUpdates sharedRepository updates = .ok written →
          (PathsAgree sharedEnvironment sharedRepository sharedCoordinates →
            Consistent sharedEnvironment sharedCoordinates updates written) ∧
          (Consistent sharedEnvironment sharedCoordinates updates written →
            PathsAgree sharedEnvironment sharedRepository sharedCoordinates ∨
              Collides sharedEnvironment sharedRepository sharedCoordinates) :=
  ⟨accepted_shared, prepared_shared, readsBack_shared,
    generated_consistent_iff accepted_shared prepared_shared readsBack_shared⟩

open Instance in
/-- **Two products with one descriptor** and different tags: what is written is not consistent. -/
theorem generated_inconsistent :
    checkCoordinates sharedDocument = .ok sharedCoordinates ∧
      Prepared sharedEnvironment sharedRepository sharedCoordinates ∧
      ∃ updates written,
        generateUpdates sharedEnvironment sharedRepository sharedCoordinates = .ok updates ∧
        writeUpdates sharedRepository updates = .ok written ∧
        ¬ Consistent sharedEnvironment sharedCoordinates updates written := by
  obtain ⟨written, hwrite⟩ := writes_shared
  refine ⟨accepted_shared, prepared_shared, _, written,
    generateUpdates_eq pinned_shared describe_shared, hwrite, fun h => ?_⟩
  have hsame := images_of_consistent readsBack_shared (checkCoordinates_nodup accepted_shared)
    pinned_shared describe_shared hwrite h (p := stableProduct) (q := nextProduct)
    List.mem_cons_self (List.mem_cons_of_mem _ List.mem_cons_self) rfl
  have htag : (Text.utf8 "stable" : Text) = .utf8 "next" :=
    congrArg (fun image : Image => image.tag.1) hsame
  exact absurd htag (by decide)

end Catalogue

end ControlPlaneKit
