import ControlPlaneKit.Catalogue.Publication
import ControlPlaneKit.Catalogue.Generated
import ControlPlaneKit.Catalogue.Pins

/-!
# Descriptors and records

What `_with_image_coordinates` makes of a descriptor, that a second time changes nothing, and what
`generate_updates` returns when every descriptor has an image: the last content for each path, and a
record for each product. `load_catalogue` accepts those records.
-/

namespace ControlPlaneKit

namespace Catalogue

open Fields (Assigned assigned_assign)

/-! ### Images -/

/-- `descriptor["product"]["image"]`, where it is an object. -/
def imageOf (descriptor : Json) : Option Fields :=
  match descriptor with
  | .obj members =>
    match Fields.get members "product" with
    | .obj product =>
      match Fields.get product "image" with
      | .obj image => some image
      | _ => none
    | _ => none
  | _ => none

/-- The image records the commit that it was built from. -/
def recordsCommit (image : Fields) : Bool :=
  match image.get "provenance" with
  | .obj provenance => Fields.has provenance "source-commit"
  | _ => false

/-- The coordinates of an image. -/
structure HasCoordinates (image : Fields) (coordinates : Image) : Prop where
  registry : image.get "registry" = .str coordinates.registry.1
  repository : image.get "repository" = .str coordinates.repository.1
  tag : image.get "tag" = .str coordinates.tag.1
  digest : image.get "digest" = .str coordinates.digest.1

section Images

variable {image : Fields} {p q : Product}

/-- The four coordinates of an image. -/
def addressed (image : Fields) (coordinates : Image) : Fields :=
  (((image.assign "registry" (.str coordinates.registry.1)).assign
    "repository" (.str coordinates.repository.1)).assign "tag" (.str coordinates.tag.1)).assign
    "digest" (.str coordinates.digest.1)

/-- The image with its provenance set to a commit. -/
def dated (image : Fields) (commit : Text) : Fields :=
  match image.get "provenance" with
  | .obj provenance =>
    image.assign "provenance" (.obj (Fields.assign provenance "source-commit" (.str commit)))
  | _ => image

theorem get_provenance_addressed {coordinates : Image} :
    (addressed image coordinates).get "provenance" = image.get "provenance" := by
  rw [addressed, Fields.get_assign_of_ne (by decide), Fields.get_assign_of_ne (by decide),
    Fields.get_assign_of_ne (by decide), Fields.get_assign_of_ne (by decide)]

theorem coordinatedImage_eq : coordinatedImage image p =
    if recordsCommit image then dated (addressed image p.image) p.sourceCommit.1
    else addressed image p.image := by
  rw [coordinatedImage, dated, recordsCommit]
  change (match (addressed image p.image).get "provenance" with
    | .obj provenance => if Fields.has provenance "source-commit" then
        (addressed image p.image).assign "provenance"
          (.obj (Fields.assign provenance "source-commit" (.str p.sourceCommit.1)))
        else addressed image p.image
    | _ => addressed image p.image) = _
  rw [get_provenance_addressed]
  split <;> rfl

/-- The four members are there. -/
structure Addressed (image : Fields) (coordinates : Image) : Prop where
  registry : Assigned image "registry" (.str coordinates.registry.1)
  repository : Assigned image "repository" (.str coordinates.repository.1)
  tag : Assigned image "tag" (.str coordinates.tag.1)
  digest : Assigned image "digest" (.str coordinates.digest.1)

theorem addressed_addressed {coordinates : Image} : Addressed (addressed image coordinates) coordinates where
  registry := ((assigned_assign.assign (by decide)).assign (by decide)).assign (by decide)
  repository := (assigned_assign.assign (by decide)).assign (by decide)
  tag := assigned_assign.assign (by decide)
  digest := assigned_assign

theorem Addressed.assign {coordinates : Image} {v : Json} (h : Addressed image coordinates) :
    Addressed (image.assign "provenance" v) coordinates where
  registry := h.registry.assign (by decide)
  repository := h.repository.assign (by decide)
  tag := h.tag.assign (by decide)
  digest := h.digest.assign (by decide)

theorem Addressed.eq {coordinates : Image} (h : Addressed image coordinates) :
    addressed image coordinates = image := by
  rw [addressed, h.registry.assign_eq, h.repository.assign_eq, h.tag.assign_eq, h.digest.assign_eq]

theorem Addressed.hasCoordinates {coordinates : Image} (h : Addressed image coordinates) :
    HasCoordinates image coordinates :=
  ⟨h.registry.get, h.repository.get, h.tag.get, h.digest.get⟩

theorem addressed_coordinatedImage : Addressed (coordinatedImage image p) p.image := by
  rw [coordinatedImage_eq]
  split
  · rw [dated]
    split
    · exact addressed_addressed.assign
    · exact addressed_addressed
  · exact addressed_addressed

theorem recordsCommit_coordinatedImage :
    recordsCommit (coordinatedImage image p) = recordsCommit image := by
  rw [coordinatedImage_eq]
  split
  · next h =>
    rw [h, dated, get_provenance_addressed]
    rw [recordsCommit] at h
    split at h
    · next provenance hprovenance =>
      rw [recordsCommit, Fields.get_assign]
      exact Fields.has_assign
    · cases h
  · rw [recordsCommit, get_provenance_addressed]
    rfl

/-- The commit of the provenance. -/
theorem provenance_coordinatedImage (h : recordsCommit image = true) :
    ∃ provenance, Assigned (coordinatedImage image p) "provenance" (.obj provenance) ∧
      Assigned provenance "source-commit" (.str p.sourceCommit.1) := by
  rw [coordinatedImage_eq, if_pos h, dated, get_provenance_addressed]
  rw [recordsCommit] at h
  split at h
  · exact ⟨_, assigned_assign, assigned_assign⟩
  · cases h

/-- **The coordinates are set once.** -/
theorem coordinatedImage_idempotent :
    coordinatedImage (coordinatedImage image p) p = coordinatedImage image p := by
  have haddressed : addressed (coordinatedImage image p) p.image = coordinatedImage image p :=
    addressed_coordinatedImage.eq
  rw [coordinatedImage_eq, haddressed, recordsCommit_coordinatedImage]
  split
  · next h =>
    obtain ⟨provenance, hprovenance, hcommit⟩ := provenance_coordinatedImage (p := p) h
    rw [dated, hprovenance.get]
    simp only [hcommit.assign_eq]
    exact hprovenance.assign_eq
  · rfl

/-- Products with the same coordinates, and the same commit where one is recorded, give one image. -/
theorem coordinatedImage_congr (himage : p.image = q.image)
    (hcommit : p.sourceCommit = q.sourceCommit ∨ recordsCommit image = false) :
    coordinatedImage image p = coordinatedImage image q := by
  rw [coordinatedImage_eq, coordinatedImage_eq, himage]
  rcases hcommit with hcommit | hcommit
  · rw [hcommit]
  · simp [hcommit]

/-- Where the commit is recorded, the image tells the commit. -/
theorem sourceCommit_of_eq (h : coordinatedImage image p = coordinatedImage image q)
    (hrecords : recordsCommit image = true) : p.sourceCommit = q.sourceCommit := by
  obtain ⟨provenance, hp, hpc⟩ := provenance_coordinatedImage (p := p) hrecords
  obtain ⟨provenance', hq, hqc⟩ := provenance_coordinatedImage (p := q) hrecords
  have hsame : provenance = provenance' := Json.obj.inj (hp.get.symm.trans (h ▸ hq.get))
  have hcommits := hpc.get.symm.trans (hsame ▸ hqc.get)
  exact Subtype.ext (Json.str.inj hcommits)

end Images

/-! ### Descriptors -/

section Descriptors

variable {descriptor rewritten : Json} {image : Fields} {p q : Product}

/-- A document with this image. -/
def withImage (members product image : Fields) : Json :=
  .obj (members.assign "product" (.obj (product.assign "image" (.obj image))))

@[simp]
theorem imageOf_withImage {members product : Fields} :
    imageOf (withImage members product image) = some image := by
  simp [imageOf, withImage]

theorem withImageCoordinates_ok (h : imageOf descriptor = some image) :
    ∃ members product : Fields, ∀ p,
      withImageCoordinates descriptor p = .ok (withImage members product (coordinatedImage image p)) := by
  cases descriptor with
  | obj members =>
    rw [imageOf] at h
    split at h
    · next product hproduct =>
      split at h
      · next image' himage =>
        cases h
        refine ⟨members, product, fun p => ?_⟩
        have hhas : Fields.has members "product" = true := Fields.has_of_get hproduct (by simp)
        have hhas' : Fields.has product "image" = true := Fields.has_of_get himage (by simp)
        simp only [withImageCoordinates, hhas, hproduct, hhas', himage, if_true]
        rfl
      · cases h
    · cases h
  | _ => cases h

theorem withImageCoordinates_withImage {members product : Fields}
    (h : coordinatedImage image p = image) :
    withImageCoordinates (withImage members product image) p = .ok (withImage members product image) := by
  simp only [withImageCoordinates, withImage, Fields.has_assign, Fields.get_assign, if_true, h,
    assigned_assign.assign_eq]

theorem withImageCoordinates_spec (h : imageOf descriptor = some image) :
    ∃ rewritten, withImageCoordinates descriptor p = .ok rewritten ∧
      imageOf rewritten = some (coordinatedImage image p) := by
  obtain ⟨members, product, hwith⟩ := withImageCoordinates_ok h
  exact ⟨_, hwith p, imageOf_withImage⟩

/-- **The coordinates of a descriptor are set once.** -/
theorem withImageCoordinates_idempotent (himage : imageOf descriptor = some image)
    (h : withImageCoordinates descriptor p = .ok rewritten) :
    withImageCoordinates rewritten p = .ok rewritten := by
  obtain ⟨members, product, hwith⟩ := withImageCoordinates_ok himage
  obtain rfl := Except.ok.inj ((hwith p).symm.trans h)
  exact withImageCoordinates_withImage coordinatedImage_idempotent

theorem withImageCoordinates_congr (himage : imageOf descriptor = some image)
    (hsame : p.image = q.image)
    (hcommit : p.sourceCommit = q.sourceCommit ∨ recordsCommit image = false) :
    withImageCoordinates descriptor p = withImageCoordinates descriptor q := by
  obtain ⟨members, product, hwith⟩ := withImageCoordinates_ok himage
  rw [hwith p, hwith q, coordinatedImage_congr hsame hcommit]

end Descriptors

/-! ### What is generated -/

section Generated

variable {env : Environment} {repo : Repository} {updates : Updates} {path other : Path}
  {content : List UInt8} {coordinates : Coordinates} {pins : Path → List UInt8}
  {contents : Product → List UInt8}

/-- The content put for a path that is there. -/
theorem Updates.lookup_map_self {us : Updates} (h : path ∈ us.map (·.1)) :
    (us.map fun u => if u.1 = path then (path, content) else u).lookup path = some content := by
  induction us with
  | nil => cases h
  | cons u us ih =>
    rw [List.map_cons, List.lookup_cons]
    by_cases hu : u.1 = path
    · rw [if_pos hu, beq_self_eq_true]
    · have hne : (path == u.1) = false := by simpa using Ne.symm hu
      rw [if_neg hu, hne]
      exact ih ((List.mem_cons.mp h).resolve_left (Ne.symm hu))

theorem Updates.lookup_map_of_ne (hne : other ≠ path) (us : Updates) :
    (us.map fun u => if u.1 = path then (path, content) else u).lookup other = us.lookup other := by
  induction us with
  | nil => rfl
  | cons u us ih =>
    rw [List.map_cons, List.lookup_cons, List.lookup_cons, ih]
    by_cases hu : u.1 = path
    · rw [if_pos hu, hu, beq_eq_false_iff_ne.mpr hne]
    · rw [if_neg hu]

theorem Updates.lookup_put : (updates.put path content).lookup other =
    if other = path then some content else updates.lookup other := by
  rw [put]
  split
  · next h =>
    obtain ⟨u, hu, hpath⟩ := List.any_eq_true.mp h
    split
    · next hother =>
      rw [hother]
      exact lookup_map_self (List.mem_map.mpr ⟨u, hu, eq_of_beq hpath⟩)
    · next hother => exact lookup_map_of_ne hother updates
  · next h =>
    rw [List.lookup_append]
    by_cases hother : other = path
    · have hnone : updates.lookup other = none := by
        rw [List.lookup_eq_none_iff]
        intro u hu
        have hne : u.1 ≠ path := fun heq => h (List.any_eq_true.mpr ⟨u, hu, by simp [heq]⟩)
        simpa [hother] using Ne.symm hne
      rw [hnone, if_pos hother, hother]
      simp
    · have hne : (other == path) = false := by simpa using hother
      rw [if_neg hother, List.lookup_cons, hne]
      simp

/-- The updates of the descriptors with these contents. -/
def describedUpdates (contents : Product → List UInt8) (updates : Updates) (ps : List Product) :
    Updates :=
  ps.foldl (fun us p => us.put p.path (contents p)) updates

/-- The last product with a path. -/
def lastFor (ps : List Product) (path : Path) : Option Product :=
  ps.reverse.find? fun p => p.path == path

theorem lastFor_of_mem {ps : List Product} {p : Product} (hp : p ∈ ps) :
    ∃ l, lastFor ps p.path = some l ∧ l ∈ ps ∧ l.path = p.path := by
  have hsome : (lastFor ps p.path).isSome := by
    rw [lastFor, List.find?_isSome]
    exact ⟨p, List.mem_reverse.mpr hp, beq_self_eq_true _⟩
  obtain ⟨l, hl⟩ := Option.isSome_iff_exists.mp hsome
  rw [lastFor] at hl
  have hpath := List.find?_some hl
  exact ⟨l, hl, List.mem_reverse.mp (List.mem_of_find?_eq_some hl), eq_of_beq hpath⟩

theorem lastFor_eq_none {ps : List Product} (h : ∀ p ∈ ps, p.path ≠ path) : lastFor ps path = none := by
  rw [lastFor, List.find?_eq_none]
  intro p hp
  simpa using h p (List.mem_reverse.mp hp)

/-- The last content stands. -/
theorem lookup_describedUpdates (ps : List Product) :
    (describedUpdates contents updates ps).lookup path =
      ((lastFor ps path).map contents).or (updates.lookup path) := by
  induction ps using List.reverseRecOn with
  | nil => simp [describedUpdates, lastFor]
  | append_singleton ps p ih =>
    have happend : describedUpdates contents updates (ps ++ [p]) =
        (describedUpdates contents updates ps).put p.path (contents p) := by
      simp [describedUpdates]
    rw [happend, Updates.lookup_put, ih, lastFor, lastFor, List.reverse_append]
    by_cases hpath : path = p.path
    · simp [hpath]
    · have hne : (p.path == path) = false := by simpa using Ne.symm hpath
      simp [hpath, hne]

/-- The updates with these contents. -/
def generatedUpdates (env : Environment) (pins : Path → List UInt8)
    (contents : Product → List UInt8) (coordinates : Coordinates) : Updates :=
  (describedUpdates contents (pinFiles.map fun path => (path, pins path))
    coordinates.products).put catalogue
      (prettyJson env (catalogueDocument (coordinates.products.map fun p => record p (contents p))))

theorem describe_eq {p : Product} {text : List Char} {descriptor rewritten : Json}
    (hread : repo.readText p.path = .ok text) (hloads : env.loads text = .ok descriptor)
    (hwith : withImageCoordinates descriptor p = .ok rewritten) :
    describe env repo p = .ok (compactJson env rewritten) := by
  simp only [describe, hread, hloads, hwith, bind, Except.bind]
  rfl

theorem pinned_eq {upstreams : Upstreams} {path : Path} {text : List Char}
    (hread : repo.readText path = .ok text) :
    pinned repo upstreams path = .ok (encodeUtf8 (replaceDependencyPins upstreams text)) := by
  simp only [pinned, hread, bind, Except.bind]
  rfl

theorem pinUpdates_eq {upstreams : Upstreams}
    (h : ∀ path ∈ pinFiles, pinned repo upstreams path = .ok (pins path)) :
    pinUpdates repo upstreams = .ok (pinFiles.map fun path => (path, pins path)) := by
  rw [pinUpdates]
  generalize pinFiles = paths at h ⊢
  induction paths with
  | nil => rfl
  | cons path paths ih =>
    rw [List.forall_mem_cons] at h
    simp only [List.mapM_cons, pinUpdate, h.1, bind, Except.bind, pure, Except.pure]
    rw [show List.mapM (pinUpdate repo upstreams) paths = _ from ih h.2]
    rfl

theorem describeAll_eq {ps : List Product} (h : ∀ p ∈ ps, describe env repo p = .ok (contents p)) :
    describeAll env repo updates ps =
      .ok (describedUpdates contents updates ps, ps.map fun p => record p (contents p)) := by
  induction ps generalizing updates with
  | nil => rfl
  | cons p ps ih =>
    rw [List.forall_mem_cons] at h
    simp only [describeAll, h.1, bind, Except.bind, ih h.2]
    rfl

/-- **What `generate_updates` returns**, where every file can be rewritten. -/
theorem generateUpdates_eq
    (hpins : ∀ path ∈ pinFiles, pinned repo coordinates.upstreams path = .ok (pins path))
    (hcontents : ∀ p ∈ coordinates.products, describe env repo p = .ok (contents p)) :
    generateUpdates env repo coordinates = .ok (generatedUpdates env pins contents coordinates) := by
  simp only [generateUpdates, pinUpdates_eq hpins, describeAll_eq hcontents, bind, Except.bind]
  rfl

theorem lookup_pins : (pinFiles.map fun path => (path, pins path)).lookup path =
    if path ∈ pinFiles then some (pins path) else none := by
  generalize pinFiles = paths
  induction paths with
  | nil => simp
  | cons q paths ih =>
    rw [List.map_cons, List.lookup_cons, ih]
    by_cases hq : path = q
    · simp [hq]
    · have hne : (path == q) = false := by simpa using hq
      simp [hne, hq]

theorem lookup_generatedUpdates : (generatedUpdates env pins contents coordinates).lookup path =
    if path = catalogue then
      some (prettyJson env
        (catalogueDocument (coordinates.products.map fun p => record p (contents p))))
    else ((lastFor coordinates.products path).map contents).or
      (if path ∈ pinFiles then some (pins path) else none) := by
  rw [generatedUpdates, Updates.lookup_put, lookup_describedUpdates, lookup_pins]

end Generated

/-! ### Records -/

section Records

variable {env : Environment} {p : Product} {content : List UInt8}

theorem codes_append (a b : Text) : (a ++ b).codes = a.codes ++ b.codes := by
  change (Text.append a b).codes = _
  cases a <;> cases b <;> simp [Text.append, Text.codes]

theorem isLowerHex_hexDigest : isLowerHex (hexDigest content).codes 64 = true := by
  have hcodes : (hexDigest content).codes = (Sha256.hexDigest content).map Char.toNat := by
    simp [hexDigest, Text.codes]
  rw [hcodes, isLowerHex, Bool.and_eq_true, List.length_map, Sha256.length_hexDigest, List.all_eq_true]
  refine ⟨rfl, fun n hn => ?_⟩
  obtain ⟨c, hc, rfl⟩ := List.mem_map.mp hn
  have hdigit := Sha256.isHexDigit_hexDigest content c hc
  simpa [Sha256.IsHexDigit] using hdigit

theorem ne_nil_of_isLowerHex {codes : List ℕ} {n : ℕ} (h : isLowerHex codes n = true) (hn : 0 < n) :
    codes ≠ [] := by
  rintro rfl
  rw [isLowerHex, Bool.and_eq_true, beq_iff_eq, List.length_nil] at h
  omega

/-- What `load_catalogue` makes of the record of a product. -/
def declarationOf (p : Product) (content : List UInt8) : PublishedProductDescriptor :=
  ⟨p.productId.1, p.ownerDirectory.1, p.descriptorPath.1, hexDigest content, p.sourceCommit.1,
    imageRef p.image, p.image.digest.1, .utf8 "completed"⟩

theorem requiredString_ok {value : Fields} {key : String} {t : Text} (h : value.get key = .str t)
    (ht : t.codes ≠ []) : requiredString value key = .ok t := by
  rw [requiredString, h]
  exact if_neg ht

theorem validate_declarationOf : (declarationOf p content).validate = .ok () := by
  have himage : (imageRef p.image).codes ≠ [] := by
    rw [imageRef, codes_append, codes_append, codes_append, codes_append]
    simp [p.image.registry.2]
  simp only [PublishedProductDescriptor.validate, declarationOf, validateRelativePath,
    p.ownerDirectory.2.2, p.descriptorPath.2.2, isLowerHex_hexDigest, p.sourceCommit.2, himage,
    p.image.digest.2]
  rfl

/-- **The record of a product is accepted.** -/
theorem fromMapping_record :
    PublishedProductDescriptor.fromMapping env (.obj (record p content)) =
      .ok (declarationOf p content) := by
  have hdigest : p.image.digest.1.codes ≠ [] := by
    intro hnil
    have hprefix := p.image.digest.2
    rw [isDigest, hnil] at hprefix
    exact absurd hprefix (by decide +kernel)
  have himage : (imageRef p.image).codes ≠ [] := by
    rw [imageRef, codes_append, codes_append, codes_append, codes_append]
    simp [p.image.registry.2]
  have hunknown : ((record p content).map (·.1)).filter
      (fun key => !(productKeys.map Text.utf8).contains key) = [] := rfl
  have hmissing : (productKeys.filter fun key => !Fields.has (record p content) key).map Text.utf8 =
      [] := rfl
  have hid : requiredString (record p content) "product_id" = .ok p.productId.1 :=
    requiredString_ok rfl p.productId.2
  have howner : requiredString (record p content) "owner_directory" = .ok p.ownerDirectory.1 :=
    requiredString_ok rfl p.ownerDirectory.2.1
  have hpath : requiredString (record p content) "descriptor_path" = .ok p.descriptorPath.1 :=
    requiredString_ok rfl p.descriptorPath.2.1
  have hsha : requiredString (record p content) "descriptor_sha256" = .ok (hexDigest content) :=
    requiredString_ok rfl (ne_nil_of_isLowerHex isLowerHex_hexDigest (by decide))
  have hcommit : requiredString (record p content) "source_commit" = .ok p.sourceCommit.1 :=
    requiredString_ok rfl (ne_nil_of_isLowerHex p.sourceCommit.2 (by decide))
  have href : requiredString (record p content) "image_ref" = .ok (imageRef p.image) :=
    requiredString_ok rfl himage
  have hdigest : requiredString (record p content) "image_digest" = .ok p.image.digest.1 :=
    requiredString_ok rfl hdigest
  have hstatus : requiredString (record p content) "status" = .ok (.utf8 "completed") :=
    requiredString_ok rfl (by decide)
  simp only [PublishedProductDescriptor.fromMapping, hunknown, hmissing, hid, howner, hpath, hsha,
    hcommit, href, hdigest, hstatus, bind, Except.bind]
  have hvalid : (declarationOf p content).validate = .ok () := validate_declarationOf
  rw [declarationOf] at hvalid
  simp only [hvalid]
  rfl

theorem mapM_fromMapping {contents : Product → List UInt8} {ps : List Product} :
    ((ps.map fun p => record p (contents p)).map Json.obj).mapM
      (PublishedProductDescriptor.fromMapping env) =
        .ok (ps.map fun p => declarationOf p (contents p)) := by
  induction ps with
  | nil => rfl
  | cons p ps ih =>
    simp only [List.map_cons, List.mapM_cons, fromMapping_record, bind, Except.bind]
    rw [ih]
    rfl

theorem checkDuplicates_ok {seen : List Text} {ds : List PublishedProductDescriptor}
    (hnodup : (ds.map (·.productId)).Nodup) (hnew : ∀ d ∈ ds, d.productId ∉ seen) :
    checkDuplicates seen ds = .ok () := by
  induction ds generalizing seen with
  | nil => rfl
  | cons d ds ih =>
    rw [List.map_cons, List.nodup_cons] at hnodup
    rw [List.forall_mem_cons] at hnew
    rw [checkDuplicates, if_neg hnew.1]
    refine ih hnodup.2 fun e he hmem => ?_
    rcases List.mem_cons.mp hmem with heq | hmem
    · exact hnodup.1 (heq ▸ List.mem_map_of_mem he)
    · exact hnew.2 e he hmem

end Records

end Catalogue

end ControlPlaneKit
