import ControlPlaneKit.Catalogue.Coordinates
import ControlPlaneKit.Python.Codes

/-!
# The catalogue and its publication

`load_catalogue`, `publish_catalogue`, and the two modes of `apply_coordinates.py`: the one that
writes the generated files and publishes the catalogue, and the one that compares the generated
files with those in the repository.
-/

namespace ControlPlaneKit

namespace Catalogue

/-- `PRODUCT_KEYS`. -/
def productKeys : List String :=
  ["product_id", "owner_directory", "descriptor_path", "descriptor_sha256", "source_commit",
    "image_ref", "image_digest", "status"]

/-- `PublishedProductDescriptor`. -/
structure PublishedProductDescriptor where
  productId : Text
  ownerDirectory : Text
  descriptorPath : Text
  descriptorSha256 : Text
  sourceCommit : Text
  imageRef : Text
  imageDigest : Text
  status : Text
deriving DecidableEq

/-- `CatalogueError(message)` with a constant message. -/
def catalogueError {α : Type} (message : String) : Except Failure α :=
  .error (.catalogue (.utf8 message))

/-- `_required_string`. -/
def requiredString (value : Fields) (key : String) : Except Failure Text :=
  match value.get key with
  | .str t => if t.codes = [] then catalogueError (key ++ " must be a nonempty string") else .ok t
  | _ => catalogueError (key ++ " must be a nonempty string")

/-- `_validate_relative_path`. -/
def validateRelativePath (name : String) (value : Text) : Except Failure Unit :=
  if Path.isSafe value then .ok () else catalogueError (name ++ " must be a safe relative path")

/-- `PublishedProductDescriptor._validate`. -/
def PublishedProductDescriptor.validate (d : PublishedProductDescriptor) : Except Failure Unit := do
  if d.status ≠ .utf8 "completed" then
    catalogueError "catalogue contains only completed declarations"
  validateRelativePath "owner_directory" d.ownerDirectory
  validateRelativePath "descriptor_path" d.descriptorPath
  if ¬ isLowerHex d.descriptorSha256.codes 64 then
    catalogueError "descriptor_sha256 must be 64 lowercase hex characters"
  if ¬ isLowerHex d.sourceCommit.codes 40 then
    catalogueError "source_commit must be 40 lowercase hex characters"
  if d.imageRef.codes = [] then catalogueError "image_ref is required"
  if ¬ isDigest d.imageDigest then catalogueError "image_digest must be a sha256 digest"

/-- `f"{message}: {sorted(keys)}"`. -/
def keysMessage (env : Environment) (message : String) (keys : List Text) : Text :=
  .utf8 message ++ env.repr (keys.mergeSort Text.le)

/-- `PublishedProductDescriptor.from_mapping`. -/
def PublishedProductDescriptor.fromMapping (env : Environment) (value : Json) :
    Except Failure PublishedProductDescriptor :=
  match value with
  | .obj members => do
    let unknown := (members.map (·.1)).filter fun key => !(productKeys.map Text.utf8).contains key
    let missing := (productKeys.filter fun key => !Fields.has members key).map Text.utf8
    if unknown ≠ [] then
      throw (.catalogue (keysMessage env "unknown product keys: " unknown))
    if missing ≠ [] then
      throw (.catalogue (keysMessage env "missing product keys: " missing))
    let productId ← requiredString members "product_id"
    let ownerDirectory ← requiredString members "owner_directory"
    let descriptorPath ← requiredString members "descriptor_path"
    let descriptorSha256 ← requiredString members "descriptor_sha256"
    let sourceCommit ← requiredString members "source_commit"
    let imageRef ← requiredString members "image_ref"
    let imageDigest ← requiredString members "image_digest"
    let status ← requiredString members "status"
    let descriptor : PublishedProductDescriptor :=
      ⟨productId, ownerDirectory, descriptorPath, descriptorSha256, sourceCommit, imageRef,
        imageDigest, status⟩
    descriptor.validate
    return descriptor
  | _ => catalogueError "catalogue product must be an object"

/-- `PublishedProductDescriptor.descriptor`. -/
def PublishedProductDescriptor.descriptor (d : PublishedProductDescriptor) : Fields :=
  [(.utf8 "product_id", .str d.productId), (.utf8 "owner_directory", .str d.ownerDirectory),
    (.utf8 "descriptor_path", .str d.descriptorPath),
    (.utf8 "descriptor_sha256", .str d.descriptorSha256),
    (.utf8 "source_commit", .str d.sourceCommit), (.utf8 "image_ref", .str d.imageRef),
    (.utf8 "image_digest", .str d.imageDigest), (.utf8 "status", .str d.status)]

/-- `str(ROOT / path)`. -/
def rootedText (env : Environment) (path : Path) : Text :=
  env.root ++ Text.utf8 "/" ++ Text.ofCodes path.text

/-- The keys of the catalogue. -/
def catalogueKeys : List Text :=
  [.utf8 "schema", .utf8 "products"]

/-- `_read_catalogue`. -/
def readCatalogue (env : Environment) (repo : Repository) (path : Path) :
    Except Failure Fields := do
  match (repo.readText path >>= env.loads) with
  | .error .fileNotFound =>
    throw (.catalogue (Text.utf8 "catalogue file does not exist: " ++ rootedText env path))
  | .error .jsonDecodeError =>
    throw (.catalogue (Text.utf8 "catalogue JSON is invalid: " ++ rootedText env path))
  | .error failure => throw failure
  | .ok (.obj members) =>
    let unknown := (members.map (·.1)).filter fun key => !catalogueKeys.contains key
    if unknown ≠ [] then
      throw (.catalogue (keysMessage env "unknown catalogue keys: " unknown))
    if !(Fields.get members "schema").pyEq (.str "cpk-servers.descriptor-catalogue") then
      catalogueError "catalogue schema must be cpk-servers.descriptor-catalogue"
    return members
  | .ok _ => catalogueError "catalogue root must be an object"

/-- The check for duplicates, after the declarations with the identifiers `seen`. -/
def checkDuplicates (seen : List Text) : List PublishedProductDescriptor → Except Failure Unit
  | [] => .ok ()
  | d :: ds =>
    if d.productId ∈ seen then
      .error (.catalogue (Text.utf8 "duplicate product_id: " ++ d.productId))
    else checkDuplicates (d.productId :: seen) ds

/-- `load_catalogue`. -/
def loadCatalogue (env : Environment) (repo : Repository) (path : Path) :
    Except Failure (List PublishedProductDescriptor) := do
  let raw ← readCatalogue env repo path
  match raw.get "products" with
  | .arr products =>
    let declarations ← products.mapM (PublishedProductDescriptor.fromMapping env)
    checkDuplicates [] declarations
    return declarations.mergeSort fun a b => a.productId.le b.productId
  | _ => catalogueError "catalogue products must be a list"

section Load

variable {env : Environment} {repo : Repository} {path : Path}

/-- A catalogue with the two keys and the schema is read. -/
theorem readCatalogue_ok {text : List Char} {members : Fields} (hread : repo.readText path = .ok text)
    (hloads : env.loads text = .ok (.obj members)) (hkeys : ∀ m ∈ members, m.1 ∈ catalogueKeys)
    (hschema : members.get "schema" = .str "cpk-servers.descriptor-catalogue") :
    readCatalogue env repo path = .ok members := by
  have hknown : (members.map (·.1)).filter (fun key => !catalogueKeys.contains key) = [] := by
    rw [List.filter_eq_nil_iff]
    intro key hkey
    obtain ⟨m, hm, rfl⟩ := List.mem_map.mp hkey
    simpa using hkeys m hm
  have hequal : ((Fields.get members "schema").pyEq
      (.str "cpk-servers.descriptor-catalogue")) = true := Json.pyEq_str.mpr hschema
  simp only [readCatalogue, hread, bind, Except.bind, hloads, hknown, hequal, Bool.not_true]
  rfl

/-- A catalogue whose items are declarations with different identifiers is loaded. -/
theorem loadCatalogue_ok {members : Fields} {products : List Json}
    {declarations : List PublishedProductDescriptor} (hread : readCatalogue env repo path = .ok members)
    (hproducts : members.get "products" = .arr products)
    (hitems : products.mapM (PublishedProductDescriptor.fromMapping env) = .ok declarations)
    (hduplicates : checkDuplicates [] declarations = .ok ()) :
    loadCatalogue env repo path =
      .ok (declarations.mergeSort fun a b => a.productId.le b.productId) := by
  simp only [loadCatalogue, hread, bind, Except.bind, hproducts, hitems, hduplicates]
  rfl

end Load

/-! ### Publication -/

/-- The payload of a publication. -/
def payload (declarations : List PublishedProductDescriptor) : Json :=
  catalogueDocument (declarations.map PublishedProductDescriptor.descriptor)

/-- The published catalogue. -/
def published (env : Environment) (declarations : List PublishedProductDescriptor) : List UInt8 :=
  prettyJson env (payload declarations).sorted

/-- The line of the checksum sidecar. -/
def checksumLine (content : List UInt8) (path : Path) : List Char :=
  Sha256.hexDigest content ++ [' ', ' '] ++ (path.getLastD []).map Char.ofNat ++ ['\n']

/-- `output_path.with_suffix(output_path.suffix + ".sha256")`. -/
def sidecar (path : Path) : Path :=
  path.withSuffix ".sha256"

/-- `publish_catalogue`: the repository it leaves, and the report. -/
def publishCatalogue (env : Environment) (repo : Repository) (source output : Path) :
    Except Failure (Repository × Fields) := do
  let declarations ← loadCatalogue env repo source
  let repo ← repo.makeDirectories output.dropLast
  let encoded := published env declarations
  let repo ← repo.writeBytes output encoded
  let repo ← repo.writeBytes (sidecar output) (encodeUtf8 (checksumLine encoded output))
  return (repo, [
    (.utf8 "schema", .str "cpk-servers.descriptor-catalogue-publication-report"),
    (.utf8 "output", .str (rootedText env output)),
    (.utf8 "checksum", .str (hexDigest encoded)),
    (.utf8 "product_ids", .arr (declarations.map fun d => .str d.productId))])

/-! ### The two modes -/

/-- `path.write_bytes(content)` for every update. -/
def writeUpdates (repo : Repository) (updates : Updates) : Except Failure Repository :=
  updates.foldlM (fun repo u => repo.writeBytes u.1 u.2) repo

/-- `generate_updates(load_coordinates(COORDINATES))`. -/
def generate (env : Environment) (repo : Repository) : Except Failure Updates := do
  generateUpdates env repo (← loadCoordinates env repo coordinatesPath)

/-- `main([])`: the repository it leaves, and the report it prints. -/
def mainApply (env : Environment) (repo : Repository) :
    Except Failure (Repository × Fields) := do
  let updates ← generate env repo
  publishCatalogue env (← writeUpdates repo updates) catalogue packagedCatalogue

/-- `path.read_bytes() != content`, with the path. -/
def compareFile (repo : Repository) (u : Path × List UInt8) : Except Failure (Path × Bool) := do
  return (u.1, decide ((← repo.readBytes u.1) ≠ u.2))

/-- The paths whose content is not the generated one. -/
def stale (repo : Repository) (updates : Updates) : Except Failure (List Path) := do
  let results ← updates.mapM (compareFile repo)
  return (results.filter (·.2)).map (·.1)

/-- `", ".join(texts)`. -/
def commaJoined : List Text → Text
  | [] => .utf8 ""
  | [t] => t
  | t :: ts => t ++ Text.utf8 ", " ++ commaJoined ts

/-- `main(["--check"])`. -/
def mainCheck (env : Environment) (repo : Repository) : Except Failure Unit := do
  let updates ← generate env repo
  let paths ← stale repo updates
  if paths ≠ [] then
    throw (.coordinate (Text.utf8 "generated coordinate files are stale: " ++
      commaJoined ((paths.map fun path => Text.ofCodes path.text).mergeSort Text.le)))

end Catalogue

end ControlPlaneKit
