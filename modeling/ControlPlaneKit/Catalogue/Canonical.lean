import ControlPlaneKit.Catalogue.Consistency
import ControlPlaneKit.Python.ReadBack
import ControlPlaneKit.Python.Sorted

/-!
# The canonical publication

What `publish_catalogue` writes depends on the declarations of the catalogue alone, not on the order
in which its source has them, and `load_catalogue` finds the same declarations in it. Here
`json.loads` is the scanner of `Interpreter`.
-/

namespace ControlPlaneKit

theorem Json.eq_str_of_sorted {v : Json} {t : Text} (h : v.sorted = .str t) : v = .str t := by
  cases v with
  | str s => exact h
  | arr items =>
    rw [Json.sorted_arr] at h
    cases h
  | obj members =>
    rw [Json.sorted_obj] at h
    cases h
  | _ => cases h

namespace Catalogue

/-- What an error of `json.loads` is for the scripts. -/
def Failure.ofLoads : LoadsError → Failure
  | .decode => .jsonDecodeError
  | .value => .valueError
  | .recursion => .recursionError

/-- The environment with the interpreter's `json.loads`. -/
def interpreted (ip : Interpreter) (floatText : ℚ → List Char) (repr : List Text → Text)
    (root : Text) : Environment where
  loads cs := (ip.loads cs).mapError Failure.ofLoads
  floatText := floatText
  repr := repr
  root := root

/-! ### Declarations -/

/-- The strings of a declaration are there, and it passes its checks. -/
structure PublishedProductDescriptor.Valid (d : PublishedProductDescriptor) : Prop where
  texts : ∀ m ∈ d.descriptor, ∃ t : Text, m.2 = .str t ∧ t.codes ≠ []
  validate : d.validate = .ok ()

/-- The object has the eight members of the declaration, and no other. -/
structure Declares (members : Fields) (d : PublishedProductDescriptor) : Prop where
  keys : ∀ m ∈ members, m.1 ∈ productKeys.map Text.utf8
  values : ∀ name ∈ productKeys, members.get name = Fields.get d.descriptor name
  valid : d.Valid

section Declarations

variable {env : Environment} {members : Fields} {d : PublishedProductDescriptor}

theorem requiredString_eq_ok {name : String} {t : Text} :
    requiredString members name = .ok t ↔ members.get name = .str t ∧ t.codes ≠ [] := by
  rw [requiredString]
  split
  · next t' heq =>
    rw [heq, Json.str.injEq]
    split
    · next hnil =>
      refine ⟨fun h => (by cases h), ?_⟩
      rintro ⟨rfl, hne⟩
      exact absurd hnil hne
    · next hne =>
      rw [Except.ok.injEq]
      exact ⟨fun h => ⟨h, h ▸ hne⟩, fun h => h.1⟩
  · next hnot =>
    refine ⟨fun h => (by cases h), ?_⟩
    rintro ⟨heq, -⟩
    exact absurd heq (hnot t)

/-- **When an object is a declaration.** -/
theorem fromMapping_eq_ok :
    PublishedProductDescriptor.fromMapping env (.obj members) = .ok d ↔ Declares members d := by
  constructor
  · intro h
    rw [PublishedProductDescriptor.fromMapping] at h
    dsimp only at h
    split at h
    · cases h
    next hunknown =>
    split at h
    · cases h
    obtain ⟨productId, hid, h⟩ := Raise.bind_eq_ok.mp h
    obtain ⟨ownerDirectory, howner, h⟩ := Raise.bind_eq_ok.mp h
    obtain ⟨descriptorPath, hpath, h⟩ := Raise.bind_eq_ok.mp h
    obtain ⟨descriptorSha256, hsha, h⟩ := Raise.bind_eq_ok.mp h
    obtain ⟨sourceCommit, hcommit, h⟩ := Raise.bind_eq_ok.mp h
    obtain ⟨imageRef, href, h⟩ := Raise.bind_eq_ok.mp h
    obtain ⟨imageDigest, hdigest, h⟩ := Raise.bind_eq_ok.mp h
    obtain ⟨status, hstatus, h⟩ := Raise.bind_eq_ok.mp h
    obtain ⟨_, hvalidate, h⟩ := Raise.bind_eq_ok.mp h
    cases h
    rw [requiredString_eq_ok] at hid howner hpath hsha hcommit href hdigest hstatus
    refine ⟨fun m hm => ?_, ?_, ?_, hvalidate⟩
    · rw [not_not, List.filter_eq_nil_iff] at hunknown
      simpa using hunknown m.1 (List.mem_map_of_mem hm)
    · intro name hname
      simp only [productKeys, List.mem_cons, List.not_mem_nil, or_false] at hname
      rcases hname with rfl | rfl | rfl | rfl | rfl | rfl | rfl | rfl
      · exact hid.1
      · exact howner.1
      · exact hpath.1
      · exact hsha.1
      · exact hcommit.1
      · exact href.1
      · exact hdigest.1
      · exact hstatus.1
    · intro m hm
      simp only [PublishedProductDescriptor.descriptor, List.mem_cons, List.not_mem_nil, or_false] at hm
      rcases hm with rfl | rfl | rfl | rfl | rfl | rfl | rfl | rfl
      · exact ⟨_, rfl, hid.2⟩
      · exact ⟨_, rfl, howner.2⟩
      · exact ⟨_, rfl, hpath.2⟩
      · exact ⟨_, rfl, hsha.2⟩
      · exact ⟨_, rfl, hcommit.2⟩
      · exact ⟨_, rfl, href.2⟩
      · exact ⟨_, rfl, hdigest.2⟩
      · exact ⟨_, rfl, hstatus.2⟩
  · intro h
    have hunknown : (members.map (·.1)).filter
        (fun key => !(productKeys.map Text.utf8).contains key) = [] := by
      rw [List.filter_eq_nil_iff]
      intro key hkey
      obtain ⟨m, hm, rfl⟩ := List.mem_map.mp hkey
      simpa using h.keys m hm
    -- a text of the descriptor is what the mapping has under its key
    have htext : ∀ {name : String} {t : Text}, name ∈ productKeys →
        (Text.utf8 name, Json.str t) ∈ d.descriptor → Fields.get d.descriptor name = .str t →
        requiredString members name = .ok t := by
      intro name t hname hmem hget
      obtain ⟨t', heq, hne⟩ := h.valid.texts _ hmem
      cases heq
      exact requiredString_eq_ok.mpr ⟨(h.values name hname).trans hget, hne⟩
    have hid : requiredString members "product_id" = .ok d.productId :=
      htext (by simp [productKeys]) (by simp [PublishedProductDescriptor.descriptor]) rfl
    have howner : requiredString members "owner_directory" = .ok d.ownerDirectory :=
      htext (by simp [productKeys]) (by simp [PublishedProductDescriptor.descriptor]) rfl
    have hpath : requiredString members "descriptor_path" = .ok d.descriptorPath :=
      htext (by simp [productKeys]) (by simp [PublishedProductDescriptor.descriptor]) rfl
    have hsha : requiredString members "descriptor_sha256" = .ok d.descriptorSha256 :=
      htext (by simp [productKeys]) (by simp [PublishedProductDescriptor.descriptor]) rfl
    have hcommit : requiredString members "source_commit" = .ok d.sourceCommit :=
      htext (by simp [productKeys]) (by simp [PublishedProductDescriptor.descriptor]) rfl
    have href : requiredString members "image_ref" = .ok d.imageRef :=
      htext (by simp [productKeys]) (by simp [PublishedProductDescriptor.descriptor]) rfl
    have hdigest : requiredString members "image_digest" = .ok d.imageDigest :=
      htext (by simp [productKeys]) (by simp [PublishedProductDescriptor.descriptor]) rfl
    have hstatus : requiredString members "status" = .ok d.status :=
      htext (by simp [productKeys]) (by simp [PublishedProductDescriptor.descriptor]) rfl
    -- so none of the eight keys is missing
    have hmissing : (productKeys.filter fun key => !Fields.has members key).map Text.utf8 = [] := by
      rw [List.map_eq_nil_iff, List.filter_eq_nil_iff]
      intro name hname
      have hhas : ∀ {t}, requiredString members name = .ok t → Fields.has members name = true :=
        fun h => Fields.has_of_get (requiredString_eq_ok.mp h).1 (fun h => (by cases h))
      simp only [productKeys, List.mem_cons, List.not_mem_nil, or_false] at hname
      rcases hname with rfl | rfl | rfl | rfl | rfl | rfl | rfl | rfl
      · simp [hhas hid]
      · simp [hhas howner]
      · simp [hhas hpath]
      · simp [hhas hsha]
      · simp [hhas hcommit]
      · simp [hhas href]
      · simp [hhas hdigest]
      · simp [hhas hstatus]
    simp only [PublishedProductDescriptor.fromMapping, hunknown, hmissing, hid, howner, hpath, hsha,
      hcommit, href, hdigest, hstatus, bind, Except.bind]
    have hvalid : d.validate = .ok () := h.valid.validate
    simp only [hvalid]
    rfl

/-- Objects with the same keys and values, up to the order of members, are the same declaration. -/
theorem Declares.congr {members' : Fields} (h : Declares members d)
    (hkeys : (members.map (·.1)).Perm (members'.map (·.1)))
    (hvalues : ∀ name, (members.get name).sorted = (members'.get name).sorted) :
    Declares members' d where
  keys m hm := by
    obtain ⟨m', hm', heq⟩ := List.mem_map.mp (hkeys.mem_iff.mpr (List.mem_map_of_mem hm))
    rw [← heq]
    exact h.keys m' hm'
  values name hname := by
    have hsorted := hvalues name
    rw [h.values name hname] at hsorted
    obtain ⟨t, heq⟩ : ∃ t, Fields.get d.descriptor name = .str t := by
      simp only [productKeys, List.mem_cons, List.not_mem_nil, or_false] at hname
      rcases hname with rfl | rfl | rfl | rfl | rfl | rfl | rfl | rfl <;> exact ⟨_, rfl⟩
    rw [heq] at hsorted ⊢
    exact Json.eq_str_of_sorted hsorted.symm
  valid := h.valid

end Declarations

/-! ### The order of the declarations -/

section Order

variable {ds es : List PublishedProductDescriptor}

theorem pairwise_sorted (ds : List PublishedProductDescriptor) :
    (ds.mergeSort fun a b => a.productId.le b.productId).Pairwise fun a b =>
      a.productId.le b.productId = true := by
  refine List.pairwise_mergeSort ?_ ?_ ds
  · exact fun _ _ _ => Text.le_trans
  · exact fun a b => Text.le_total a.productId b.productId

/-- Declarations with distinct identifiers are sorted in one way. -/
theorem mergeSort_declarations (h : ds.Perm es) (hids : (ds.map (·.productId.codes)).Nodup) :
    (ds.mergeSort fun a b => a.productId.le b.productId) =
      es.mergeSort fun a b => a.productId.le b.productId := by
  refine List.Perm.eq_of_pairwise ?_ (pairwise_sorted ds) (pairwise_sorted es)
    (((List.mergeSort_perm _ _).trans h).trans (List.mergeSort_perm _ _).symm)
  intro a b ha hb hab hba
  have ha' : a ∈ ds := (List.mergeSort_perm _ _).mem_iff.mp ha
  have hb' : b ∈ ds := h.mem_iff.mpr ((List.mergeSort_perm _ _).mem_iff.mp hb)
  exact List.inj_on_of_nodup_map hids ha' hb' (Text.codes_eq_of_le hab hba)

theorem checkDuplicates_eq_ok {seen : List Text} : checkDuplicates seen ds = .ok () ↔
    (ds.map (·.productId)).Nodup ∧ ∀ d ∈ ds, d.productId ∉ seen := by
  refine ⟨fun h => ?_, fun h => checkDuplicates_ok h.1 h.2⟩
  induction ds generalizing seen with
  | nil => exact ⟨List.nodup_nil, List.forall_mem_nil _⟩
  | cons d ds ih =>
    rw [checkDuplicates] at h
    split at h
    · cases h
    next hnew =>
    obtain ⟨hnodup, hlater⟩ := ih h
    rw [List.map_cons, List.nodup_cons, List.forall_mem_cons]
    refine ⟨⟨fun hmem => ?_, hnodup⟩, hnew, fun e he hseen => hlater e he (List.mem_cons_of_mem _ hseen)⟩
    obtain ⟨e, he, heq⟩ := List.mem_map.mp hmem
    exact hlater e he (heq ▸ List.mem_cons_self)

end Order

section Traverse

variable {α β ε : Type} {f : α → Except ε β} {x : α} {xs ys : List α} {bs : List β}

theorem mapM_cons_eq_ok : (x :: xs).mapM f = .ok bs ↔
    ∃ b bs', f x = .ok b ∧ xs.mapM f = .ok bs' ∧ bs = b :: bs' := by
  rw [List.mapM_cons, Raise.bind_eq_ok]
  constructor
  · rintro ⟨b, hb, h⟩
    obtain ⟨bs', hbs, h⟩ := Raise.bind_eq_ok.mp h
    exact ⟨b, bs', hb, hbs, (Except.ok.inj h).symm⟩
  · rintro ⟨b, bs', hb, hbs, rfl⟩
    exact ⟨b, hb, Raise.bind_eq_ok.mpr ⟨bs', hbs, rfl⟩⟩

/-- The results come in the order of the items. -/
theorem mapM_perm (h : xs.Perm ys) (hxs : xs.mapM f = .ok bs) :
    ∃ cs, ys.mapM f = .ok cs ∧ bs.Perm cs := by
  induction h generalizing bs with
  | nil => exact ⟨bs, hxs, .refl _⟩
  | cons x _ ih =>
    obtain ⟨b, bs', hb, hbs, rfl⟩ := mapM_cons_eq_ok.mp hxs
    obtain ⟨cs, hcs, hperm⟩ := ih hbs
    exact ⟨b :: cs, mapM_cons_eq_ok.mpr ⟨b, cs, hb, hcs, rfl⟩, hperm.cons b⟩
  | swap x y xs =>
    obtain ⟨b, bs', hb, hbs, rfl⟩ := mapM_cons_eq_ok.mp hxs
    obtain ⟨c, bs'', hc, hbs', rfl⟩ := mapM_cons_eq_ok.mp hbs
    refine ⟨c :: b :: bs'', mapM_cons_eq_ok.mpr ⟨c, b :: bs'', hc, ?_, rfl⟩, .swap c b bs''⟩
    exact mapM_cons_eq_ok.mpr ⟨b, bs'', hb, hbs', rfl⟩
  | trans _ _ ih ih' =>
    obtain ⟨cs, hcs, hperm⟩ := ih hxs
    obtain ⟨cs', hcs', hperm'⟩ := ih' hcs
    exact ⟨cs', hcs', hperm.trans hperm'⟩

theorem mem_of_mapM (h : xs.mapM f = .ok bs) {b : β} (hb : b ∈ bs) : ∃ x ∈ xs, f x = .ok b := by
  induction xs generalizing bs with
  | nil =>
    cases h
    cases hb
  | cons x xs ih =>
    obtain ⟨c, bs', hc, hbs, rfl⟩ := mapM_cons_eq_ok.mp h
    rcases List.mem_cons.mp hb with rfl | hb
    · exact ⟨x, List.mem_cons_self, hc⟩
    · obtain ⟨y, hy, heq⟩ := ih hbs hb
      exact ⟨y, List.mem_cons_of_mem _ hy, heq⟩

/-- Other items with the same results. -/
theorem mapM_map_eq_ok {g : α → α} (hf : ∀ x ∈ xs, ∀ b, f (g x) = .ok b ↔ f x = .ok b) :
    (xs.map g).mapM f = .ok bs ↔ xs.mapM f = .ok bs := by
  induction xs generalizing bs with
  | nil => exact Iff.rfl
  | cons x xs ih =>
    rw [List.forall_mem_cons] at hf
    rw [List.map_cons, mapM_cons_eq_ok, mapM_cons_eq_ok]
    simp only [hf.1, ih hf.2]

end Traverse

/-! ### Loading -/

section Load

variable {env : Environment} {repo : Repository} {path : Path} {members : Fields}
  {ds : List PublishedProductDescriptor}

theorem readCatalogue_eq_ok : readCatalogue env repo path = .ok members ↔
    ∃ text, repo.readText path = .ok text ∧ env.loads text = .ok (.obj members) ∧
      (∀ m ∈ members, m.1 ∈ catalogueKeys) ∧
        members.get "schema" = .str "cpk-servers.descriptor-catalogue" := by
  constructor
  · intro h
    rw [readCatalogue] at h
    split at h
    · cases h
    · cases h
    · cases h
    · next members' hread =>
      obtain ⟨text, htext, hloads⟩ := Raise.bind_eq_ok.mp hread
      dsimp only at h
      split at h
      · cases h
      next hknown =>
      split at h
      · cases h
      next hschema =>
      cases h
      refine ⟨text, htext, hloads, fun m hm => ?_, ?_⟩
      · rw [not_not, List.filter_eq_nil_iff] at hknown
        simpa using hknown m.1 (List.mem_map_of_mem hm)
      · refine Json.pyEq_str.mp ?_
        simpa using hschema
    · cases h
  · rintro ⟨text, htext, hloads, hkeys, hschema⟩
    exact readCatalogue_ok htext hloads hkeys hschema

theorem loadCatalogue_eq_ok : loadCatalogue env repo path = .ok ds ↔
    ∃ members products declarations, readCatalogue env repo path = .ok members ∧
      members.get "products" = .arr products ∧
        products.mapM (PublishedProductDescriptor.fromMapping env) = .ok declarations ∧
          (declarations.map (·.productId)).Nodup ∧
            ds = declarations.mergeSort fun a b => a.productId.le b.productId := by
  constructor
  · intro h
    rw [loadCatalogue] at h
    obtain ⟨members, hread, h⟩ := Raise.bind_eq_ok.mp h
    split at h
    · next products hproducts =>
      obtain ⟨declarations, hitems, h⟩ := Raise.bind_eq_ok.mp h
      obtain ⟨_, hduplicates, h⟩ := Raise.bind_eq_ok.mp h
      cases h
      exact ⟨members, products, declarations, hread, hproducts, hitems,
        (checkDuplicates_eq_ok.mp hduplicates).1, rfl⟩
    · cases h
  · rintro ⟨members, products, declarations, hread, hproducts, hitems, hnodup, rfl⟩
    exact loadCatalogue_ok hread hproducts hitems
      (checkDuplicates_eq_ok.mpr ⟨hnodup, fun _ _ => List.not_mem_nil⟩)

end Load

/-! ### Publishing -/

/-- Declarations with different identities whose texts can be read. -/
structure Declarable (ds : List PublishedProductDescriptor) : Prop where
  valid : ∀ d ∈ ds, d.Valid
  scanned : ∀ d ∈ ds, ∀ m ∈ d.descriptor, ∀ t, m.2 = .str t → Scan.IsScanned t
  ids : (ds.map (·.productId.codes)).Nodup

/-- Declarations such as `load_catalogue` returns them. -/
structure Publishable (ds : List PublishedProductDescriptor) : Prop extends Declarable ds where
  ordered : ds.Pairwise fun a b => a.productId.le b.productId = true

section Items

variable {env : Environment} {members : Fields} {d : PublishedProductDescriptor} {v : Json}

theorem isDict_descriptor (d : PublishedProductDescriptor) : Fields.IsDict d.descriptor :=
  rfl

theorem keys_sorted (members : Fields) :
    ((Fields.sorted members).map (·.1)).Perm (members.map (·.1)) := by
  have hperm := (Fields.sorted_perm members).map (·.1)
  rwa [List.map_map] at hperm

theorem declares_sorted (h : Fields.IsDict members) :
    Declares (Fields.sorted members) d ↔ Declares members d := by
  have hvalues : ∀ name, ((Fields.sorted members).get name).sorted = (members.get name).sorted :=
    fun name => by rw [Fields.get_sorted h, Json.sorted_sorted]
  exact ⟨fun hd => hd.congr (keys_sorted members) hvalues,
    fun hd => hd.congr (keys_sorted members).symm fun name => (hvalues name).symm⟩

theorem fromMapping_sorted (h : v.isDict = true) :
    PublishedProductDescriptor.fromMapping env v.sorted = .ok d ↔
      PublishedProductDescriptor.fromMapping env v = .ok d := by
  cases v with
  | obj members =>
    rw [Json.sorted_obj', fromMapping_eq_ok, fromMapping_eq_ok, declares_sorted h]
  | arr items =>
    rw [Json.sorted_arr]
    exact iff_of_false (fun h => (by cases h)) (fun h => (by cases h))
  | _ => exact Iff.rfl

theorem PublishedProductDescriptor.Valid.declares (h : d.Valid) : Declares d.descriptor d where
  keys m hm := by
    simp only [PublishedProductDescriptor.descriptor, List.mem_cons, List.not_mem_nil, or_false] at hm
    rcases hm with rfl | rfl | rfl | rfl | rfl | rfl | rfl | rfl <;> simp [productKeys]
  values _ _ := rfl
  valid := h

/-- **A published declaration is loaded again.** -/
theorem fromMapping_descriptor (h : d.Valid) :
    PublishedProductDescriptor.fromMapping env (Json.obj d.descriptor).sorted = .ok d :=
  (fromMapping_sorted (isDict_descriptor d)).mpr (fromMapping_eq_ok.mpr h.declares)

theorem mapM_descriptors {ds : List PublishedProductDescriptor} (h : ∀ d ∈ ds, d.Valid) :
    (((ds.map PublishedProductDescriptor.descriptor).map Json.obj).map Json.sorted).mapM
      (PublishedProductDescriptor.fromMapping env) = .ok ds := by
  induction ds with
  | nil => rfl
  | cons d ds ih =>
    rw [List.forall_mem_cons] at h
    exact mapM_cons_eq_ok.mpr ⟨d, ds, fromMapping_descriptor h.1, ih h.2, rfl⟩

end Items

section Interpreted

variable {ip : Interpreter} {floatText : ℚ → List Char} {repr : List Text → Text} {root : Text}
  {repo : Repository} {path : Path} {ds : List PublishedProductDescriptor} {text : List Char} {v : Json}

theorem loads_eq_ok : (interpreted ip floatText repr root).loads text = .ok v ↔
    ip.loads text = .ok v := by
  change (ip.loads text).mapError Failure.ofLoads = .ok v ↔ _
  cases ip.loads text with
  | error e => exact iff_of_false (fun h => (by cases h)) (fun h => (by cases h))
  | ok v => exact ⟨fun h => (by cases h; rfl), fun h => (by cases h; rfl)⟩

/-- The strings of a declaration are those of its object. -/
theorem Declares.scanned {members : Fields} {d : PublishedProductDescriptor} (h : Declares members d)
    (hdecoded : Scan.Decoded (.obj members)) :
    ∀ m ∈ d.descriptor, ∀ t, m.2 = .str t → Scan.IsScanned t := by
  intro m hm t ht
  obtain ⟨name, hname, hget⟩ : ∃ name ∈ productKeys, Fields.get d.descriptor name = m.2 := by
    simp only [PublishedProductDescriptor.descriptor, List.mem_cons, List.not_mem_nil, or_false] at hm
    rcases hm with rfl | rfl | rfl | rfl | rfl | rfl | rfl | rfl
    · exact ⟨"product_id", by simp [productKeys], rfl⟩
    · exact ⟨"owner_directory", by simp [productKeys], rfl⟩
    · exact ⟨"descriptor_path", by simp [productKeys], rfl⟩
    · exact ⟨"descriptor_sha256", by simp [productKeys], rfl⟩
    · exact ⟨"source_commit", by simp [productKeys], rfl⟩
    · exact ⟨"image_ref", by simp [productKeys], rfl⟩
    · exact ⟨"image_digest", by simp [productKeys], rfl⟩
    · exact ⟨"status", by simp [productKeys], rfl⟩
  have hvalue : Scan.Decoded (members.get name) := hdecoded.get
  rw [h.values name hname, hget, ht] at hvalue
  cases hvalue with
  | str ht => exact ht

theorem loadCatalogue_publishable
    (h : loadCatalogue (interpreted ip floatText repr root) repo path = .ok ds) : Publishable ds := by
  obtain ⟨members, products, declarations, hread, hproducts, hitems, hnodup, rfl⟩ :=
    loadCatalogue_eq_ok.mp h
  obtain ⟨text, -, hloads, -, -⟩ := readCatalogue_eq_ok.mp hread
  have hdecoded : Scan.Decoded (members.get "products") :=
    (Interpreter.loads_decoded (loads_eq_ok.mp hloads)).get
  rw [hproducts] at hdecoded
  have hmem : ∀ d ∈ declarations, ∃ item, Scan.Decoded (.obj item) ∧ Declares item d := by
    intro d hd
    obtain ⟨x, hx, hfrom⟩ := mem_of_mapM hitems hd
    cases hdecoded with
    | arr hall =>
      have hx := hall x hx
      cases x with
      | obj item => exact ⟨item, hx, fromMapping_eq_ok.mp hfrom⟩
      | _ => cases hfrom
  have hscanned : ∀ d ∈ declarations, Scan.IsScanned d.productId := by
    intro d hd
    obtain ⟨item, hitem, hdeclares⟩ := hmem d hd
    exact hdeclares.scanned hitem _ List.mem_cons_self _ rfl
  have hperm := List.mergeSort_perm declarations fun a b => a.productId.le b.productId
  refine ⟨⟨fun d hd => ?_, fun d hd => ?_, ?_⟩, pairwise_sorted declarations⟩
  · obtain ⟨item, -, hdeclares⟩ := hmem d (hperm.mem_iff.mp hd)
    exact hdeclares.valid
  · obtain ⟨item, hitem, hdeclares⟩ := hmem d (hperm.mem_iff.mp hd)
    exact hdeclares.scanned hitem
  · have hcodes : ((declarations.map (·.productId)).map Text.codes).Nodup := by
      refine hnodup.map_on fun s hs t ht heq => ?_
      obtain ⟨d, hd, rfl⟩ := List.mem_map.mp hs
      obtain ⟨e, he, rfl⟩ := List.mem_map.mp ht
      exact (hscanned d hd).ext (hscanned e he) heq
    rw [List.map_map] at hcodes
    exact ((hperm.map _).nodup_iff).mpr hcodes

/-- The text of a publication. -/
def publishedText (floatText : ℚ → List Char) (ds : List PublishedProductDescriptor) : List Char :=
  (payload ds).sorted.pretty floatText 0 ++ ['\n']

theorem published_eq : published (interpreted ip floatText repr root) ds =
    encodeUtf8 (publishedText floatText ds) := by
  rw [published, prettyJson, publishedText, encodeUtf8_append]
  rfl

theorem Declarable.writable (h : Declarable ds) : Scan.Writable 3 (payload ds).sorted := by
  refine Scan.Writable.sorted (.obj ?_ ?_ ?_)
  · simp
  · simp only [List.forall_mem_cons]
    exact ⟨Scan.isScanned_utf8 _, Scan.isScanned_utf8 _, List.forall_mem_nil _⟩
  · simp only [List.forall_mem_cons]
    refine ⟨.str (Scan.isScanned_utf8 _), .arr ?_, List.forall_mem_nil _⟩
    rw [List.forall_mem_map, List.forall_mem_map]
    intro d hd
    refine .obj (by simp [PublishedProductDescriptor.descriptor]) ?_ ?_
    · intro m hm
      simp only [PublishedProductDescriptor.descriptor, List.mem_cons, List.not_mem_nil, or_false] at hm
      rcases hm with rfl | rfl | rfl | rfl | rfl | rfl | rfl | rfl <;> exact Scan.isScanned_utf8 _
    · intro m hm
      obtain ⟨t, ht, -⟩ := (h.valid d hd).texts m hm
      rw [ht]
      exact .str (h.scanned d hd m hm t ht)

/-- A file with these declarations is loaded as the declarations in their order. -/
theorem loadCatalogue_declared (h : Declarable ds)
    (hfile : repo.file? path = some (published (interpreted ip floatText repr root) ds)) :
    loadCatalogue (interpreted ip floatText repr root) repo path =
      .ok (ds.mergeSort fun a b => a.productId.le b.productId) := by
  have hread : repo.readText path = .ok (publishedText floatText ds) := by
    refine Repository.readText_encodeUtf8 (hfile.trans (congrArg some published_eq)) fun hmem => ?_
    rcases List.mem_append.mp hmem with hmem | hmem
    · exact (h.writable.laid floatText 0 _ hmem).ne rfl
    · exact absurd (List.mem_singleton.mp hmem) (by decide)
  have hloads : (interpreted ip floatText repr root).loads (publishedText floatText ds) =
      .ok (payload ds).sorted := loads_eq_ok.mpr (Interpreter.loads_pretty h.writable)
  have hdict : Fields.IsDict [(.utf8 "schema", .str "cpk-servers.descriptor-catalogue"),
      (.utf8 "products", .arr ((ds.map PublishedProductDescriptor.descriptor).map Json.obj))] := by
    have hitems : ((ds.map PublishedProductDescriptor.descriptor).map Json.obj).all Json.isDict =
        true := by
      rw [List.all_eq_true, List.forall_mem_map, List.forall_mem_map]
      exact fun d _ => isDict_descriptor d
    rw [Fields.IsDict, Json.isDict_obj, Bool.and_eq_true, decide_eq_true_eq, List.all_eq_true]
    refine ⟨by simp, ?_⟩
    simp only [List.forall_mem_cons]
    exact ⟨rfl, (Json.isDict_arr _).trans hitems, List.forall_mem_nil _⟩
  rw [payload, catalogueDocument, Json.sorted_obj'] at hloads
  refine loadCatalogue_eq_ok.mpr ⟨_, _, ds, readCatalogue_eq_ok.mpr ⟨_, hread, hloads, ?_, ?_⟩, ?_,
    mapM_descriptors h.valid, ?_, rfl⟩
  · intro m hm
    have hkey := (keys_sorted _).mem_iff.mp (List.mem_map_of_mem hm)
    simpa [catalogueKeys] using hkey
  · rw [Fields.get_sorted hdict]
    rfl
  · rw [Fields.get_sorted hdict]
    exact Json.sorted_arr _
  · refine List.Nodup.of_map Text.codes ?_
    rw [List.map_map]
    exact h.ids

/-- **What is published is loaded again.** -/
theorem loadCatalogue_published (h : Publishable ds)
    (hfile : repo.file? path = some (published (interpreted ip floatText repr root) ds)) :
    loadCatalogue (interpreted ip floatText repr root) repo path = .ok ds := by
  rw [loadCatalogue_declared h.toDeclarable hfile, List.mergeSort_of_pairwise h.ordered]

/-- The same document, up to the order of the products and of the members of every object. -/
structure Reordered (members members' : Fields) : Prop where
  keys : (members.map (·.1)).Perm (members'.map (·.1))
  others : ∀ name, name ≠ "products" → (members.get name).sorted = (members'.get name).sorted
  products : ∃ products products', members.get "products" = .arr products ∧
    members'.get "products" = .arr products' ∧
      (products.map Json.sorted).Perm (products'.map Json.sorted)

/-- Two files hold the same catalogue, up to the order of its products and members. -/
def SameCatalogue (ip : Interpreter) (repo : Repository) (source : Path) (repo' : Repository)
    (source' : Path) : Prop :=
  ∃ text text' members members', repo.readText source = .ok text ∧
    repo'.readText source' = .ok text' ∧ ip.loads text = .ok (.obj members) ∧
      ip.loads text' = .ok (.obj members') ∧ Reordered members members'

/-- **The order of the source does not matter.** -/
theorem loadCatalogue_reordered {repo' : Repository} {source source' : Path}
    (hsame : SameCatalogue ip repo source repo' source')
    (h : loadCatalogue (interpreted ip floatText repr root) repo source = .ok ds) :
    loadCatalogue (interpreted ip floatText repr root) repo' source' = .ok ds := by
  obtain ⟨text, text', members, members', htext, htext', hloads, hloads', hkeys, hothers, products,
    products', hproducts, hproducts', hperm⟩ := hsame
  have hpublishable := loadCatalogue_publishable h
  obtain ⟨found, items, declarations, hread, hitems, hmap, hnodup, rfl⟩ := loadCatalogue_eq_ok.mp h
  obtain ⟨read, hreadText, hfound, hknown, hschema⟩ := readCatalogue_eq_ok.mp hread
  obtain rfl : text = read := Except.ok.inj (htext.symm.trans hreadText)
  obtain rfl : members = found :=
    Json.obj.inj (Except.ok.inj (hloads.symm.trans (loads_eq_ok.mp hfound)))
  obtain rfl : products = items := Json.arr.inj (hproducts.symm.trans hitems)
  have hdicts : ∀ {text members products}, ip.loads text = .ok (.obj members) →
      Fields.get members "products" = .arr products → ∀ x ∈ products, x.isDict = true := by
    intro text members products hloads hproducts x hx
    have hdecoded : Scan.Decoded (Fields.get members "products") :=
      (Interpreter.loads_decoded hloads).get
    rw [hproducts] at hdecoded
    cases hdecoded with
    | arr hall => exact (hall x hx).isDict
  -- both lists of products are taken to the sorted items, which are permuted
  have hsorted := (mapM_map_eq_ok fun x hx b => fromMapping_sorted (hdicts hloads hproducts x hx)).mpr hmap
  obtain ⟨declarations', hsorted', hperm'⟩ := mapM_perm hperm hsorted
  have hmap' := (mapM_map_eq_ok fun x hx b =>
    fromMapping_sorted (hdicts hloads' hproducts' x hx)).mp hsorted'
  have hread' : readCatalogue (interpreted ip floatText repr root) repo' source' = .ok members' := by
    refine readCatalogue_eq_ok.mpr ⟨text', htext', loads_eq_ok.mpr hloads', fun m hm => ?_, ?_⟩
    · obtain ⟨m', hm', heq⟩ := List.mem_map.mp (hkeys.mem_iff.mpr (List.mem_map_of_mem hm))
      rw [← heq]
      exact hknown m' hm'
    · have hother := hothers "schema" (by decide)
      rw [hschema] at hother
      exact Json.eq_str_of_sorted hother.symm
  have hcodes : (declarations.map (·.productId.codes)).Nodup :=
    (((List.mergeSort_perm declarations _).map _).nodup_iff).mp hpublishable.ids
  refine loadCatalogue_eq_ok.mpr ⟨members', products', declarations', hread', hproducts', hmap', ?_,
    mergeSort_declarations hperm' hcodes⟩
  exact ((hperm'.map _).nodup_iff).mp hnodup

end Interpreted

/-! ### Publishing again -/

section Again

variable {repo repo' made : Repository} {path p : Path}

theorem Repository.makeDirectory_directory (h : repo.makeDirectory path = .ok repo') :
    repo' path = some .directory ∧ ∀ p, repo p = some .directory → repo' p = some .directory := by
  rw [makeDirectory] at h
  split at h
  · next hdir =>
    cases h
    exact ⟨hdir, fun _ h => h⟩
  · cases h
  · cases h
    refine ⟨by simp [set], fun p hp => ?_⟩
    by_cases heq : p = path
    · simp [set, heq]
    · simpa [set, heq] using hp

theorem Repository.foldlM_makeDirectory {paths : List Path}
    (h : paths.foldlM Repository.makeDirectory repo = .ok repo') :
    (∀ p ∈ paths, repo' p = some .directory) ∧
      ∀ p, repo p = some .directory → repo' p = some .directory := by
  induction paths generalizing repo with
  | nil =>
    cases h
    exact ⟨List.forall_mem_nil _, fun _ h => h⟩
  | cons q paths ih =>
    rw [List.foldlM_cons] at h
    obtain ⟨middle, hq, h⟩ := Raise.bind_eq_ok.mp h
    obtain ⟨hall, hkept⟩ := ih h
    obtain ⟨hdir, hkept'⟩ := Repository.makeDirectory_directory hq
    rw [List.forall_mem_cons]
    exact ⟨⟨hkept q hdir, hall⟩, fun p hp => hkept p (hkept' p hp)⟩

/-- Directories that are there are not made. -/
theorem Repository.foldlM_makeDirectory_self {paths : List Path}
    (h : ∀ p ∈ paths, repo p = some .directory) :
    paths.foldlM Repository.makeDirectory repo = .ok repo := by
  induction paths with
  | nil => rfl
  | cons q paths ih =>
    rw [List.forall_mem_cons] at h
    rw [List.foldlM_cons, Repository.makeDirectory, h.1]
    exact ih h.2

theorem Repository.writeBytes_eq {content : List UInt8} (h : repo.writeBytes path content = .ok repo') :
    repo' = repo.set path (.file content) ∧ repo path ≠ some .directory := by
  rw [writeBytes] at h
  split at h
  · next heq => exact ⟨(Except.ok.inj h).symm, by simp [heq]⟩
  · cases h
  · next heq =>
    split at h
    · exact ⟨(Except.ok.inj h).symm, by simp [heq]⟩
    · cases h

theorem Repository.writeBytes_ok {content : List UInt8} (h : repo path ≠ some .directory)
    (hparent : repo path.dropLast = some .directory) :
    ∃ repo', repo.writeBytes path content = .ok repo' := by
  rw [writeBytes]
  split
  · exact ⟨_, rfl⟩
  · next heq => exact absurd heq h
  · rw [if_pos hparent]
    exact ⟨_, rfl⟩

/-- The directories of a path are there or can be made, and neither the path nor its sidecar is a
directory. -/
structure Repository.HasPlace (repo : Repository) (output : Path) : Prop where
  made : ∃ made, repo.makeDirectories output.dropLast = .ok made ∧
    made output ≠ some .directory ∧ made (sidecar output) ≠ some .directory
  named : ∀ c ∈ output.getLastD [], c.isValidChar

theorem length_of_mem_inits {α : Type} {xs ys : List α} (h : xs ∈ ys.inits) : xs.length ≤ ys.length :=
  ((List.mem_inits xs ys).mp h).length_le

theorem length_sidecar (h : path ≠ []) : (sidecar path).length = path.length := by
  have hpos := List.length_pos_iff.mpr h
  simp only [sidecar, Path.withSuffix, List.length_append, List.length_dropLast, List.length_singleton]
  omega

theorem sidecar_ne (h : path ≠ []) : sidecar path ≠ path := by
  intro heq
  have hlast : path.dropLast ++ [path.getLastD [] ++ (Text.utf8 ".sha256").codes] =
      path.dropLast ++ [path.getLastD []] := by
    refine heq.trans ?_
    rw [List.getLastD_eq_getLast?, List.getLast?_eq_some_getLast h, Option.getD_some,
      List.dropLast_append_getLast]
  have hlength := congrArg List.length (List.singleton_inj.mp (List.append_cancel_left hlast))
  rw [List.length_append] at hlength
  have hsuffix : (Text.utf8 ".sha256").codes.length = 7 := by decide
  omega

end Again

/-- A publication of these declarations, with these bytes: they do not depend on the order of the
source, they are loaded as the declarations, and published again as themselves. -/
structure Canonical (ip : Interpreter) (env : Environment) (repo : Repository) (source : Path)
    (repo' : Repository) (output : Path) (report : Fields) (ds : List PublishedProductDescriptor)
    (content : List UInt8) : Prop where
  accepted : loadCatalogue env repo source = .ok ds
  written : repo'.file? output = some content
  unordered : ∀ repo₂ source₂ output₂ repo₂' report₂, SameCatalogue ip repo source repo₂ source₂ →
    publishCatalogue env repo₂ source₂ output₂ = .ok (repo₂', report₂) →
      repo₂'.file? output₂ = some content
  loaded : loadCatalogue env repo' output = .ok ds
  again : publishCatalogue env repo' output output = .ok (repo', report)
  copied : ∀ output₂ repo₂ report₂, publishCatalogue env repo' output output₂ = .ok (repo₂, report₂) →
    repo₂.file? output₂ = some content
  checksum : repo'.file? (sidecar output) = some (encodeUtf8 (checksumLine content output))
  identifiers : report.get "product_ids" = .arr (ds.map fun d => .str d.productId)
  increasing : ds.Pairwise fun a b => b.productId.le a.productId = false

section Canonical

variable {ip : Interpreter} {floatText : ℚ → List Char} {repr : List Text → Text} {root : Text}
  {repo repo' : Repository} {source output : Path} {report : Fields}
  {ds : List PublishedProductDescriptor}

theorem Publishable.increasing (h : Publishable ds) :
    ds.Pairwise fun a b => b.productId.le a.productId = false := by
  have hne : ds.Pairwise fun a b => a.productId.codes ≠ b.productId.codes :=
    List.pairwise_map.mp h.ids
  refine (h.ordered.and hne).imp ?_
  rintro a b ⟨hab, hcodes⟩
  by_contra hba
  exact hcodes (Text.codes_eq_of_le hab (by simpa using hba))

/-- The steps of a publication. -/
theorem publishCatalogue_steps {env : Environment}
    (h : publishCatalogue env repo source output = .ok (repo', report)) :
    ∃ ds made middle, loadCatalogue env repo source = .ok ds ∧
      repo.makeDirectories output.dropLast = .ok made ∧
        made.writeBytes output (published env ds) = .ok middle ∧
          middle.writeBytes (sidecar output)
            (encodeUtf8 (checksumLine (published env ds) output)) = .ok repo' ∧
              report = [
                (.utf8 "schema", .str "cpk-servers.descriptor-catalogue-publication-report"),
                (.utf8 "output", .str (rootedText env output)),
                (.utf8 "checksum", .str (hexDigest (published env ds))),
                (.utf8 "product_ids", .arr (ds.map fun d => .str d.productId))] := by
  rw [publishCatalogue] at h
  obtain ⟨ds, hload, h⟩ := Raise.bind_eq_ok.mp h
  obtain ⟨made, hmake, h⟩ := Raise.bind_eq_ok.mp h
  obtain ⟨middle, hwrite, h⟩ := Raise.bind_eq_ok.mp h
  obtain ⟨final, hsidecar, h⟩ := Raise.bind_eq_ok.mp h
  cases h
  exact ⟨ds, made, middle, hload, hmake, hwrite, hsidecar, rfl⟩

/-- A file is not published at the root. -/
theorem output_ne_nil {env : Environment}
    (h : publishCatalogue env repo source output = .ok (repo', report)) : output ≠ [] := by
  rintro rfl
  obtain ⟨ds, made, middle, -, hmake, hwrite, -, -⟩ := publishCatalogue_steps h
  have hroot := (Repository.foldlM_makeDirectory hmake).1 [] (by simp)
  exact (Repository.writeBytes_eq hwrite).2 hroot

/-- What a publication writes. -/
theorem publishCatalogue_written {env : Environment}
    (h : publishCatalogue env repo source output = .ok (repo', report))
    (hload : loadCatalogue env repo source = .ok ds) :
    repo'.file? output = some (published env ds) := by
  obtain ⟨ds', hload', hfiles⟩ := publishCatalogue_ok h
  obtain rfl : ds = ds' := Except.ok.inj (hload.symm.trans hload')
  rw [hfiles, if_neg (sidecar_ne (output_ne_nil h)).symm, if_pos rfl]

/-- A publication that comes to its end is canonical. -/
theorem publishCatalogue_ok_canonical
    (h : publishCatalogue (interpreted ip floatText repr root) repo source output =
      .ok (repo', report)) :
    ∃ ds content, Canonical ip (interpreted ip floatText repr root) repo source repo' output report ds
      content := by
  have hne := output_ne_nil h
  obtain ⟨ds, made, middle, hload, hmake, hwrite, hsidecar, hreport⟩ := publishCatalogue_steps h
  have hpublishable := loadCatalogue_publishable hload
  have hwritten := publishCatalogue_written h hload
  have hloaded : loadCatalogue (interpreted ip floatText repr root) repo' output = .ok ds :=
    loadCatalogue_published hpublishable hwritten
  have hchecksum : repo'.file? (sidecar output) =
      some (encodeUtf8 (checksumLine (published (interpreted ip floatText repr root) ds) output)) := by
    rw [Repository.writeBytes_file? hsidecar, if_pos rfl]
  refine ⟨ds, _, hload, hwritten, ?_, hloaded, ?_, ?_, hchecksum, by rw [hreport]; rfl,
    hpublishable.increasing⟩
  · exact fun _ _ _ _ _ hsame h₂ =>
      publishCatalogue_written h₂ (loadCatalogue_reordered hsame hload)
  · -- the directories above the output are there, and both files stand as they would be written
    have hdirectories : ∀ p ∈ output.dropLast.inits, repo' p = some .directory := by
      intro p hp
      have hlength := length_of_mem_inits hp
      have hpos := List.length_pos_iff.mpr hne
      have hp₁ : p ≠ output := fun heq => by
        rw [heq, List.length_dropLast] at hlength
        omega
      have hp₂ : p ≠ sidecar output := fun heq => by
        rw [heq, length_sidecar hne, List.length_dropLast] at hlength
        omega
      rw [(Repository.writeBytes_eq hsidecar).1, (Repository.writeBytes_eq hwrite).1]
      simp only [Repository.set, Function.update_of_ne hp₁, Function.update_of_ne hp₂]
      exact (Repository.foldlM_makeDirectory hmake).1 p hp
    have hmake' : repo'.makeDirectories output.dropLast = .ok repo' :=
      Repository.foldlM_makeDirectory_self hdirectories
    rw [publishCatalogue, hloaded, Raise.ok_bind, hmake', Raise.ok_bind]
    dsimp only
    rw [Repository.writeBytes_same hwritten, Raise.ok_bind, Repository.writeBytes_same hchecksum,
      Raise.ok_bind, hreport]
    rfl
  · exact fun _ _ _ h₂ => publishCatalogue_written h₂ hloaded

/-- A loaded catalogue is published where there is a place for it. -/
theorem publishCatalogue_eq_ok {env : Environment} (hload : loadCatalogue env repo source = .ok ds)
    (hplace : repo.HasPlace output) :
    ∃ repo' report, publishCatalogue env repo source output = .ok (repo', report) := by
  obtain ⟨made, hmake, houtput, hsidecar⟩ := hplace.made
  have hparent : made output.dropLast = some .directory :=
    (Repository.foldlM_makeDirectory hmake).1 _ (by simp)
  obtain ⟨middle, hwrite⟩ : ∃ middle, made.writeBytes output (published env ds) = .ok middle :=
    Repository.writeBytes_ok houtput hparent
  have hne : output ≠ [] := by
    rintro rfl
    exact houtput hparent
  have hkept : ∀ p ≠ output, middle p = made p := fun p hp => by
    rw [(Repository.writeBytes_eq hwrite).1, Repository.set, Function.update_of_ne hp]
  have hsidecar' : middle (sidecar output) ≠ some .directory := by
    rwa [hkept _ (sidecar_ne hne)]
  have hparent' : middle (sidecar output).dropLast = some .directory := by
    have hdrop : (sidecar output).dropLast = output.dropLast := List.dropLast_concat
    rw [hdrop, hkept _ fun heq => houtput (heq ▸ hparent)]
    exact hparent
  obtain ⟨final, hwrite'⟩ := Repository.writeBytes_ok hsidecar' hparent'
  rw [publishCatalogue, hload, Raise.ok_bind, hmake, Raise.ok_bind]
  dsimp only
  rw [hwrite, Raise.ok_bind, hwrite', Raise.ok_bind]
  exact ⟨final, _, rfl⟩

/-- **Publication is canonical**: a catalogue that is loaded, and has a place to be published at, is
published, and the publication is canonical. -/
theorem publishCatalogue_canonical
    (hload : loadCatalogue (interpreted ip floatText repr root) repo source = .ok ds)
    (hplace : repo.HasPlace output) :
    ∃ repo' report content,
      publishCatalogue (interpreted ip floatText repr root) repo source output = .ok (repo', report) ∧
        Canonical ip (interpreted ip floatText repr root) repo source repo' output report ds content := by
  obtain ⟨repo', report, hpublish⟩ := publishCatalogue_eq_ok hload hplace
  obtain ⟨ds', content, hcanonical⟩ := publishCatalogue_ok_canonical hpublish
  obtain rfl : ds = ds' := Except.ok.inj (hload.symm.trans hcanonical.accepted)
  exact ⟨repo', report, content, hpublish, hcanonical⟩

end Canonical

namespace Instance

/-- An interpreter that reads no floats. -/
def shallow : Interpreter where
  floatOf _ := .nan
  depthLimit := 3
  nests := le_rfl

/-- A product. -/
def core : PublishedProductDescriptor where
  productId := .utf8 "cpk-core"
  ownerDirectory := .utf8 "products/core"
  descriptorPath := .utf8 "products/core/product.json"
  descriptorSha256 := .utf8 "aaaaaaaaaaaaaaaaaaaaaaaaaaaaaaaaaaaaaaaaaaaaaaaaaaaaaaaaaaaaaaaa"
  sourceCommit := .utf8 "bbbbbbbbbbbbbbbbbbbbbbbbbbbbbbbbbbbbbbbb"
  imageRef := .utf8 "registry/core"
  imageDigest :=
    .utf8 "sha256:cccccccccccccccccccccccccccccccccccccccccccccccccccccccccccccccc"
  status := .utf8 "completed"

/-- A product behind it. -/
def edge : PublishedProductDescriptor :=
  { core with
    productId := .utf8 "cpk-edge"
    ownerDirectory := .utf8 "products/edge"
    descriptorPath := .utf8 "products/edge/product.json"
    imageRef := .utf8 "registry/edge" }

/-- The catalogue of the two products. -/
def pair : List PublishedProductDescriptor :=
  [core, edge]

/-- The environment of the interpreter. -/
def shallowEnvironment : Environment :=
  interpreted shallow (fun _ => []) (fun _ => .utf8 "") (.utf8 "/repository")

/-- A repository with that catalogue, in the other order. -/
def shelf : Repository := fun p =>
  if p = [] then some .directory
  else if p = path "catalogue.json" then some (.file (published shallowEnvironment pair.reverse))
  else none

theorem valid_core : core.Valid := by
  refine ⟨?_, by decide⟩
  simp only [core, PublishedProductDescriptor.descriptor, List.forall_mem_cons, Json.str.injEq,
    exists_eq_left', List.not_mem_nil, false_imp_iff, implies_true]
  decide

theorem valid_edge : edge.Valid := by
  refine ⟨?_, by decide⟩
  simp only [edge, core, PublishedProductDescriptor.descriptor, List.forall_mem_cons, Json.str.injEq,
    exists_eq_left', List.not_mem_nil, false_imp_iff, implies_true]
  decide

theorem declarable_reverse : Declarable pair.reverse where
  valid := by
    simp only [pair, List.reverse_cons, List.reverse_nil, List.nil_append, List.cons_append,
      List.forall_mem_cons]
    exact ⟨valid_edge, valid_core, List.forall_mem_nil _⟩
  scanned := by
    simp only [pair, List.reverse_cons, List.reverse_nil, List.nil_append, List.cons_append,
      List.forall_mem_cons, edge, core, PublishedProductDescriptor.descriptor, Json.str.injEq,
      forall_eq', Scan.isScanned_utf8, true_and, List.not_mem_nil, false_imp_iff, implies_true]
  ids := by decide

theorem mergeSort_reverse :
    (pair.reverse.mergeSort fun a b => a.productId.le b.productId) = pair := by
  have hle : edge.productId.le core.productId = false := by decide
  simp [pair, List.mergeSort, List.MergeSort.Internal.splitInTwo, hle]

theorem hasPlace_shelf : shelf.HasPlace (path "published.json") where
  made := by
    refine ⟨shelf, ?_, ?_, ?_⟩
    · rfl
    · decide
    · decide
  named := by decide

/-- The catalogue is published in its own order. -/
theorem publishCatalogue_shelf :
    ∃ repo' report content,
      publishCatalogue shallowEnvironment shelf (path "catalogue.json") (path "published.json") =
          .ok (repo', report) ∧
        Canonical shallow shallowEnvironment shelf (path "catalogue.json") repo' (path "published.json")
          report pair content :=
  publishCatalogue_canonical
    ((loadCatalogue_declared declarable_reverse rfl).trans (congrArg _ mergeSort_reverse))
    hasPlace_shelf

end Instance

end Catalogue

end ControlPlaneKit
