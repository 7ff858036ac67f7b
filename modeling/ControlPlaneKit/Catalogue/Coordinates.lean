import ControlPlaneKit.Catalogue.Tree
import ControlPlaneKit.Python.Sha256
import ControlPlaneKit.Python.Pretty
import ControlPlaneKit.Python.Substitute

/-!
# Coordinates of the server products

`load_coordinates` and `generate_updates`: the checks of the coordinates document, the pins of the
four build files, the image coordinates of each descriptor, and the catalogue. What the checks admit
is kept in the types, so that a product has a safe path, a commit and a digest.
-/

namespace ControlPlaneKit

namespace Catalogue

/-- What the scripts use of Python, and where the repository is. -/
structure Environment where
  /-- `json.loads` of a text. -/
  loads : List Char → Except Failure Json
  /-- The text of a finite float. -/
  floatText : ℚ → List Char
  /-- `repr` of a list of strings. -/
  repr : List Text → Text
  /-- `str(ROOT)`. -/
  root : Text

/-- A constant path below the root. -/
def path (text : String) : Path :=
  Path.parts (.utf8 text)

/-- `COORDINATES`. -/
def coordinatesPath : Path := path "coordinates/server-products.json"

/-- `PYPROJECT`. -/
def pyproject : Path := path "pyproject.toml"

/-- `CPK_SERVER_DOCKERFILE`. -/
def cpkServerDockerfile : Path := path "products/cpk_server/Dockerfile"

/-- `CPK_LOCAL_GATEWAY_DOCKERFILE`. -/
def cpkLocalGatewayDockerfile : Path := path "products/cpk_local_gateway/Dockerfile"

/-- `SECRETS_SERVER_DOCKERFILE`. -/
def secretsServerDockerfile : Path := path "products/secrets_server/Dockerfile"

/-- `CATALOGUE`. -/
def catalogue : Path := path "catalogue/products.json"

/-- `PACKAGED_CATALOGUE`. -/
def packagedCatalogue : Path := path "src/control_plane_kit_servers/catalogue.json"

/-! ### Values of the documents -/

/-- `[0-9a-f]{length}`. -/
def isLowerHex (codes : List ℕ) (length : ℕ) : Bool :=
  codes.length == length &&
    codes.all fun c => decide (48 ≤ c ∧ c ≤ 57) || decide (97 ≤ c ∧ c ≤ 102)

/-- `sha256:[0-9a-f]{64}`. -/
def isDigest (value : Text) : Bool :=
  (Text.utf8 "sha256:").codes.isPrefixOf value.codes && isLowerHex (value.codes.drop 7) 64

/-- A non-empty string. -/
abbrev RequiredText := { t : Text // t.codes ≠ [] }

/-- A full commit identifier. -/
abbrev Commit := { t : Text // isLowerHex t.codes 40 = true }

/-- A path that stays below the root. -/
abbrev RelativePath := { t : Text // t.codes ≠ [] ∧ Path.isSafe t = true }

/-- The digest of an image. -/
abbrev Digest := { t : Text // isDigest t = true }

/-- The members of `image` that the scripts use. -/
structure Image where
  registry : RequiredText
  repository : RequiredText
  tag : RequiredText
  digest : Digest
deriving DecidableEq

/-- One item of `products`. -/
structure Product where
  productId : RequiredText
  ownerDirectory : RelativePath
  descriptorPath : RelativePath
  sourceCommit : Commit
  image : Image
deriving DecidableEq

/-- `upstreams`. -/
structure Upstreams where
  controlPlaneKitCommit : Commit
  controlPlaneKitInterpretersCommit : Commit
  controlPlaneKitSecretsCommit : Commit

/-- The coordinates document. -/
structure Coordinates where
  upstreams : Upstreams
  products : List Product

/-- `ROOT / product["descriptor_path"]`. -/
def Product.path (p : Product) : Path :=
  Path.parts p.descriptorPath

/-- `CoordinateError(message)` with a constant message. -/
def coordinateError {α : Type} (message : String) : Except Failure α :=
  .error (.coordinate (.utf8 message))

/-- `_required_text`. -/
def requiredText (value : Fields) (key : String) : Except Failure RequiredText :=
  match value.get key with
  | .str t =>
    if h : t.codes ≠ [] then .ok ⟨t, h⟩ else coordinateError (key ++ " must be a non-empty string")
  | _ => coordinateError (key ++ " must be a non-empty string")

/-- `_commit`. -/
def commit (value : Fields) (key : String) : Except Failure Commit := do
  let candidate ← requiredText value key
  if h : isLowerHex candidate.1.codes 40 = true then return ⟨candidate, h⟩
  else coordinateError (key ++ " must be a 40-character lowercase git sha")

/-- `_relative`. -/
def relative (value : Fields) (key : String) : Except Failure RelativePath := do
  let candidate ← requiredText value key
  if h : Path.isSafe candidate = true then return ⟨candidate, candidate.2, h⟩
  else coordinateError (key ++ " must be a safe relative path")

/-- The checks of `product["image"]`. -/
def loadImage (productId : Text) (value : Json) : Except Failure Image :=
  match value with
  | .obj image => do
    let registry ← requiredText image "registry"
    let repository ← requiredText image "repository"
    let tag ← requiredText image "tag"
    let digest ← requiredText image "digest"
    if h : isDigest digest = true then return ⟨registry, repository, tag, ⟨digest, h⟩⟩
    else throw (.coordinate (productId ++ Text.utf8 " image digest must be sha256"))
  | _ => throw (.coordinate (productId ++ Text.utf8 " image must be an object"))

/-- The checks of one product, after the products with the identifiers `seen`. -/
def loadProduct (seen : List Text) (value : Json) : Except Failure Product :=
  match value with
  | .obj product => do
    let productId ← requiredText product "product_id"
    if productId.1 ∈ seen then
      throw (.coordinate (Text.utf8 "duplicate product coordinate: " ++ productId.1))
    let ownerDirectory ← relative product "owner_directory"
    let descriptorPath ← relative product "descriptor_path"
    let sourceCommit ← commit product "source_commit"
    let image ← loadImage productId (Fields.get product "image")
    return ⟨productId, ownerDirectory, descriptorPath, sourceCommit, image⟩
  | _ => coordinateError "coordinate product must be an object"

/-- The loop over `products`. -/
def loadProducts (seen : List Text) : List Json → Except Failure (List Product)
  | [] => .ok []
  | value :: values => do
    let product ← loadProduct seen value
    let products ← loadProducts (product.productId.1 :: seen) values
    return product :: products

/-- The checks of `load_coordinates`. -/
def checkCoordinates (raw : Json) : Except Failure Coordinates :=
  match raw with
  | .obj members => do
    if !(Fields.get members "schema").pyEq (.str "cpk-servers.coordinates") then
      coordinateError "coordinates schema must be cpk-servers.coordinates"
    match Fields.get members "upstreams", Fields.get members "products" with
    | .obj upstreams, .arr products =>
      let cpk ← commit upstreams "control_plane_kit_commit"
      let interpreters ← commit upstreams "control_plane_kit_interpreters_commit"
      let secrets ← commit upstreams "control_plane_kit_secrets_commit"
      return ⟨⟨cpk, interpreters, secrets⟩, ← loadProducts [] products⟩
    | .obj _, _ => coordinateError "coordinates products must be a list"
    | _, _ => coordinateError "coordinates upstreams must be an object"
  | _ => coordinateError "coordinates root must be an object"

/-- `load_coordinates`. -/
def loadCoordinates (env : Environment) (repo : Repository) (path : Path) :
    Except Failure Coordinates := do
  checkCoordinates (← env.loads (← repo.readText path))

/-! ### Pins -/

/-- One character of a pin. -/
inductive Atom where
  | literal (c : Char)
  | hex
deriving DecidableEq

/-- The class of the character. -/
def Atom.accepts : Atom → Char → Bool
  | .literal c, x => x == c
  | .hex, x => isLowerHex [x.toNat] 1

/-- What stands before the commit in the archive of a repository. -/
def archivePrefix (repository : String) : List Char :=
  "https://github.com/OpenJ92/".toList ++ repository.toList ++ "/archive/".toList

/-- The pattern of the archives of a repository. -/
def archiveAtoms (repository : String) : List Atom :=
  (archivePrefix repository).map .literal ++ List.replicate 40 .hex ++ ".zip".toList.map .literal

/-- The characters of a commit. -/
def Commit.chars (c : Commit) : List Char :=
  c.1.codes.map Char.ofNat

/-- The archive of a commit. -/
def archive (repository : String) (c : Commit) : List Char :=
  archivePrefix repository ++ c.chars ++ ".zip".toList

/-- `re.sub` of the archives of one repository. -/
def replacePin (repository : String) (c : Commit) (text : List Char) : List Char :=
  Substitute.sub ((archiveAtoms repository).map Atom.accepts) (archive repository c) text

/-- `_replace_dependency_pins`. -/
def replaceDependencyPins (upstreams : Upstreams) (text : List Char) : List Char :=
  replacePin "control-plane-kit-secrets" upstreams.controlPlaneKitSecretsCommit
    (replacePin "control-plane-kit-interpreters" upstreams.controlPlaneKitInterpretersCommit
      (replacePin "control-plane-kit" upstreams.controlPlaneKitCommit text))

/-! ### Updates -/

/-- `updates`: the paths in the order in which they were first set. -/
abbrev Updates :=
  List (Path × List UInt8)

/-- `updates[path] = content`. -/
def Updates.put (updates : Updates) (path : Path) (content : List UInt8) : Updates :=
  if updates.any fun u => u.1 == path then
    updates.map fun u => if u.1 = path then (path, content) else u
  else updates ++ [(path, content)]

/-- The new content of a build file. -/
def pinned (repo : Repository) (upstreams : Upstreams) (path : Path) :
    Except Failure (List UInt8) := do
  return encodeUtf8 (replaceDependencyPins upstreams (← repo.readText path))

/-- The members of an image, with the coordinates of a product. -/
def coordinatedImage (image : Fields) (p : Product) : Fields :=
  let image := (((image.assign "registry" (.str p.image.registry.1)).assign
    "repository" (.str p.image.repository.1)).assign "tag" (.str p.image.tag.1)).assign
    "digest" (.str p.image.digest.1)
  match image.get "provenance" with
  | .obj provenance =>
    if Fields.has provenance "source-commit" then
      image.assign "provenance"
        (.obj (Fields.assign provenance "source-commit" (.str p.sourceCommit.1)))
    else image
  | _ => image

/-- `_with_image_coordinates`. -/
def withImageCoordinates (descriptor : Json) (p : Product) : Except Failure Json :=
  match descriptor with
  | .obj members =>
    if Fields.has members "product" then
      match Fields.get members "product" with
      | .obj product =>
        if Fields.has product "image" then
          match Fields.get product "image" with
          | .obj image => .ok (.obj (Fields.assign members "product"
              (.obj (Fields.assign product "image" (.obj (coordinatedImage image p))))))
          | _ => .error .typeError
        else .error .keyError
      | _ => .error .typeError
    else .error .keyError
  | _ => .error .typeError

/-- `_compact_json`. -/
def compactJson (env : Environment) (value : Json) : List UInt8 :=
  encodeUtf8 (value.text env.floatText)

/-- The new content of a descriptor. -/
def describe (env : Environment) (repo : Repository) (p : Product) :
    Except Failure (List UInt8) := do
  let descriptor ← env.loads (← repo.readText p.path)
  return compactJson env (← withImageCoordinates descriptor p)

/-- `_image_ref`. -/
def imageRef (image : Image) : Text :=
  image.registry.1 ++ Text.utf8 "/" ++ image.repository.1 ++ Text.utf8 ":" ++ image.tag.1

/-- `hashlib.sha256(content).hexdigest()`. -/
def hexDigest (content : List UInt8) : Text :=
  .utf8 (String.ofList (Sha256.hexDigest content))

/-- The record of a product in the catalogue. -/
def record (p : Product) (encoded : List UInt8) : Fields :=
  [(.utf8 "product_id", .str p.productId.1),
    (.utf8 "owner_directory", .str p.ownerDirectory.1),
    (.utf8 "descriptor_path", .str p.descriptorPath.1),
    (.utf8 "descriptor_sha256", .str (hexDigest encoded)),
    (.utf8 "source_commit", .str p.sourceCommit.1),
    (.utf8 "image_ref", .str (imageRef p.image)),
    (.utf8 "image_digest", .str p.image.digest.1),
    (.utf8 "status", .str "completed")]

/-- The catalogue document. -/
def catalogueDocument (records : List Fields) : Json :=
  .obj [(.utf8 "schema", .str "cpk-servers.descriptor-catalogue"),
    (.utf8 "products", .arr (records.map .obj))]

/-- `json.dumps(value, indent=2)` and a line feed. -/
def prettyJson (env : Environment) (value : Json) : List UInt8 :=
  encodeUtf8 (value.pretty env.floatText 0) ++ [10]

/-- The loop over the products: the updates and the records. -/
def describeAll (env : Environment) (repo : Repository) :
    Updates → List Product → Except Failure (Updates × List Fields)
  | updates, [] => .ok (updates, [])
  | updates, p :: ps => do
    let encoded ← describe env repo p
    let (updates', records) ← describeAll env repo (updates.put p.path encoded) ps
    return (updates', record p encoded :: records)

/-- The files with pins. -/
def pinFiles : List Path :=
  [pyproject, cpkServerDockerfile, cpkLocalGatewayDockerfile, secretsServerDockerfile]

/-- The update of one of them. -/
def pinUpdate (repo : Repository) (upstreams : Upstreams) (path : Path) :
    Except Failure (Path × List UInt8) := do
  return (path, ← pinned repo upstreams path)

/-- The updates of the files with pins. -/
def pinUpdates (repo : Repository) (upstreams : Upstreams) : Except Failure Updates :=
  pinFiles.mapM (pinUpdate repo upstreams)

/-- `generate_updates`. -/
def generateUpdates (env : Environment) (repo : Repository) (coordinates : Coordinates) :
    Except Failure Updates := do
  let updates ← pinUpdates repo coordinates.upstreams
  let (updates, records) ← describeAll env repo updates coordinates.products
  return updates.put catalogue (prettyJson env (catalogueDocument records))

end Catalogue

end ControlPlaneKit
