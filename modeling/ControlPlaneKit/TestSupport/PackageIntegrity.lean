import ControlPlaneKit.Python.Pretty
import ControlPlaneKit.Python.Syntax

/-!
# The integrity check of a package

`inspect_package` of `test_support/package_integrity.py`, over the parsed files of a package. Its
findings are sorted and without repeats, so the order in which nodes are visited reaches nothing.
Where a file cannot be decoded or the parser raises anything but a `SyntaxError`, there is no report
and no input here.
-/

namespace ControlPlaneKit

namespace TestSupport

open Syntax

/-- `ApprovedSkip`. -/
structure ApprovedSkip where
  identity : Text
  reason : Text
deriving DecidableEq

/-- The codes of the findings. -/
inductive Code where
  | invalidSkipApproval
  | duplicateSkipApproval
  | unparseablePython
  | mutableLegacyImport
  | pytestImport
  | swallowedException
  | hiddenTestClass
  | hiddenTestFile
  | placeholderTest
  | unconditionalSkip
  | literalSkipCondition
  | unapprovedSkip
  | skipReasonMismatch
  | hiddenTestFunction
  | staleSkipApproval
  | missingGateFile
  | proofChangingOption
deriving DecidableEq

/-- The text of a code. -/
def Code.text : Code → String
  | .invalidSkipApproval => "invalid-skip-approval"
  | .duplicateSkipApproval => "duplicate-skip-approval"
  | .unparseablePython => "unparseable-python"
  | .mutableLegacyImport => "mutable-legacy-import"
  | .pytestImport => "pytest-import"
  | .swallowedException => "swallowed-exception"
  | .hiddenTestClass => "hidden-test-class"
  | .hiddenTestFile => "hidden-test-file"
  | .placeholderTest => "placeholder-test"
  | .unconditionalSkip => "unconditional-skip"
  | .literalSkipCondition => "literal-skip-condition"
  | .unapprovedSkip => "unapproved-skip"
  | .skipReasonMismatch => "skip-reason-mismatch"
  | .hiddenTestFunction => "hidden-test-function"
  | .staleSkipApproval => "stale-skip-approval"
  | .missingGateFile => "missing-gate-file"
  | .proofChangingOption => "proof-changing-option"

/-- `IntegrityFinding`. -/
structure IntegrityFinding where
  path : Text
  line : ℕ
  code : Code
  message : Text
deriving DecidableEq

/-- The order of the findings: that of their fields. -/
def IntegrityFinding.le (a b : IntegrityFinding) : Bool :=
  if a.path ≠ b.path then a.path.le b.path
  else if a.line ≠ b.line then a.line ≤ b.line
  else if a.code ≠ b.code then Text.le (.utf8 a.code.text) (.utf8 b.code.text)
  else a.message.le b.message

/-- `IntegrityReport`. -/
structure IntegrityReport where
  findings : List IntegrityFinding
  testIdentities : List Text
  mockLocations : List Text
  approvedSkipIdentities : List Text

/-- `sorted(set(values))`. -/
def sortedSet {α : Type} [DecidableEq α] (le : α → α → Bool) (values : List α) : List α :=
  values.dedup.mergeSort le

/-! ### The nodes that matter -/

/-- `_is_placeholder_body`. -/
def isPlaceholderBody (body : List Node) : Bool :=
  let statements :=
    match body with
    | .expr (.constant (.str _)) :: rest => rest
    | _ => body
  match statements with
  | [.pass] => true
  | [.expr (.constant .ellipsis)] => true
  | _ => false

/-- `_is_swallowed_handler`, for a handler with this body. -/
def isSwallowedHandler (body : List Node) : Bool :=
  match body with
  | [.pass] => true
  | _ => false

/-- An `ast.ClassDef`. -/
structure ClassDef where
  name : String
  bases : List Node
  body : List Node
  decorators : List Node
  line : ℕ

/-- The node as a class. -/
def classDef? : Node → Option ClassDef
  | .classDef name bases _ body decorators line => some ⟨name, bases, body, decorators, line⟩
  | _ => none

/-- An `ast.FunctionDef` or `ast.AsyncFunctionDef`. -/
structure FunctionDef where
  name : String
  body : List Node
  decorators : List Node
  line : ℕ

/-- The node as a function. -/
def functionDef? : Node → Option FunctionDef
  | .functionDef name _ body decorators line => some ⟨name, body, decorators, line⟩
  | _ => none

/-- The functions of a body whose name starts with `test`. -/
def testFunctions (body : List Node) : List FunctionDef :=
  (body.filterMap functionDef?).filter fun f => "test".toList.isPrefixOf f.name.toList

/-- The classes at the top of a file. -/
def topLevelClasses (tree : List Node) : List ClassDef :=
  tree.filterMap classDef?

/-- The classes that are not. -/
def nestedClasses (tree : List Node) : List ClassDef :=
  (tree.flatMap fun statement => Node.walkAll statement.children).filterMap classDef?

/-- `_is_test_case`. -/
def isTestCase (c : ClassDef) (aliases : List String) : Bool :=
  c.bases.any fun base =>
    let name := base.dottedName.getD ""
    "TestCase".toList.isSuffixOf name.toList || aliases.contains name

/-! ### Imports -/

/-- The names that `from unittest import ...` statements of a file import. -/
def unittestImports (tree : List Node) : List Alias :=
  tree.flatMap fun
    | .importFrom (some source) names _ _ =>
      if source = "unittest" ∨ source = "unittest.case" then names else []
    | _ => []

/-- `test_case_aliases` of a file. -/
def testCaseAliases (tree : List Node) : List String :=
  "TestCase" :: ((unittestImports tree).filter (·.name = "TestCase")).map Alias.localName

/-- The decorators of `unittest` that skip a test. -/
inductive SkipKind where
  | skip
  | skipIf
  | skipUnless
deriving DecidableEq

/-- The name in `unittest`. -/
def SkipKind.name : SkipKind → String
  | .skip => "skip"
  | .skipIf => "skipIf"
  | .skipUnless => "skipUnless"

/-- The decorator of this name. -/
def SkipKind.ofName (name : String) : Option SkipKind :=
  if name = "skip" then some .skip
  else if name = "skipIf" then some .skipIf
  else if name = "skipUnless" then some .skipUnless
  else none

/-- `skip_aliases` of a file: a later import of a name replaces an earlier one. -/
def skipAliases (tree : List Node) : List (String × SkipKind) :=
  ((unittestImports tree).filterMap fun imported =>
    (SkipKind.ofName imported.name).map fun kind => (imported.localName, kind)).reverse

/-- The top packages an import statement names. -/
def importRoots : Node → List String
  | .importNames names _ => names.map fun imported => firstComponent imported.name
  | .importFrom (some source) _ _ _ => if source = "" then [] else [firstComponent source]
  | _ => []

/-- The line of an import statement. -/
def importLine : Node → ℕ
  | .importNames _ line => line
  | .importFrom _ _ _ line => line
  | _ => 0

/-! ### Skips -/

/-- What `_skip_decorator` reads off a decorator. -/
structure Skip where
  kind : SkipKind
  condition : Option Node
  reason : Option Text

/-- `_skip_decorator`. -/
def skipDecorator (decorator : Node) (aliases : List (String × SkipKind)) : Option Skip :=
  match decorator with
  | .call func args _ _ =>
    let name := lastComponent (func.dottedName.getD "")
    match ((aliases.lookup name).or (SkipKind.ofName name)), args with
    | some .skip, reason :: _ => some ⟨.skip, none, reason.text?⟩
    | some .skip, [] => none
    | some kind, condition :: reason :: _ => some ⟨kind, some condition, reason.text?⟩
    | _, _ => none
  | _ => none

/-- What the check makes of a decorator. -/
inductive Verdict where
  | notSkip
  | flagged (code : Code)
  | approved
deriving DecidableEq

/-- The check of one decorator of the class or method with this identity. -/
def checkDecorator (approvals : List ApprovedSkip) (aliases : List (String × SkipKind))
    (identity : Text) (decorator : Node) : Verdict :=
  match skipDecorator decorator aliases with
  | none => .notSkip
  | some skip =>
    if skip.kind = .skip then .flagged .unconditionalSkip
    else if skip.condition.any Node.isBool then .flagged .literalSkipCondition
    else
      match approvals.find? fun approval => approval.identity = identity with
      | none => .flagged .unapprovedSkip
      | some approval =>
        if skip.reason ≠ some approval.reason then .flagged .skipReasonMismatch else .approved

/-! ### Approvals -/

/-- The approvals file: its name, and what reading it as JSON gives, if it is there. -/
structure ApprovalsFile where
  name : Text
  document : Except Text Json

/-- The entries of the document: the approvals, and the findings. -/
def approvedSkips (path : Text) : List (Json × ℕ) → List ApprovedSkip →
    List ApprovedSkip × List IntegrityFinding
  | [], approvals => (approvals, [])
  | (item, index) :: items, approvals =>
    let flag (code : Code) (message : Text) :=
      let rest := approvedSkips path items approvals
      (rest.1, ⟨path, index, code, message⟩ :: rest.2)
    match item with
    | .obj members =>
      match Fields.get members "identity" with
      | .str identity =>
        if Strip.strip identity.codes = [] then
          flag .invalidSkipApproval "approved skip identity must be non-blank"
        else
          match Fields.get members "reason" with
          | .str reason =>
            if Strip.strip reason.codes = [] ∨ 240 < reason.codes.length then
              flag .invalidSkipApproval "approved skip reason must contain 1-240 characters"
            else if identity ∈ approvals.map (·.identity) then flag .duplicateSkipApproval identity
            else approvedSkips path items (approvals ++ [⟨identity, reason⟩])
          | _ => flag .invalidSkipApproval "approved skip reason must contain 1-240 characters"
      | _ => flag .invalidSkipApproval "approved skip identity must be non-blank"
    | _ => flag .invalidSkipApproval "approved skip entry must be an object"

/-- `_read_approved_skips`. -/
def readApprovedSkips : Option ApprovalsFile → List ApprovedSkip × List IntegrityFinding
  | none => ([], [])
  | some file =>
    match file.document with
    | .error message => ([], [⟨file.name, 1, .invalidSkipApproval, message⟩])
    | .ok (.arr items) => approvedSkips file.name (items.zipIdx 1) []
    | .ok _ =>
      ([], [⟨file.name, 1, .invalidSkipApproval, "approved skip document must be a JSON list"⟩])

/-! ### Files -/

/-- A Python file under the roots: its path in the package, its name, whether a test root holds it,
and its statements, or the line and text of a syntax error. -/
structure PythonFile where
  relative : Text
  name : Text
  inTestRoot : Bool
  tree : Except (ℕ × Text) (List Node)

/-- `TEST_FILE_PATTERN`; the `$` stands before a line feed at the end, too. -/
def isTestFile (name : Text) : Bool :=
  let rest := name.codes.drop 4
  let line := if rest.getLast? = some 10 then rest.dropLast else rest
  (codesOf "test").isPrefixOf name.codes && line.all (· != 10) && (codesOf ".py").isSuffixOf line

/-- `f"{relative}::{name}"`. -/
def classIdentity (relative : Text) (c : ClassDef) : Text :=
  relative ++ .utf8 "::" ++ .utf8 c.name

/-- `f"{relative}::{class_node.name}.{method.name}"`. -/
def methodIdentity (relative : Text) (c : ClassDef) (method : FunctionDef) : Text :=
  classIdentity relative c ++ .utf8 "." ++ .utf8 method.name

/-- A class or test method, with its identity. -/
structure Candidate where
  identity : Text
  line : ℕ
  decorators : List Node

/-- The class and its test methods. -/
def candidates (relative : Text) (c : ClassDef) : List Candidate :=
  ⟨classIdentity relative c, c.line, c.decorators⟩ ::
    (testFunctions c.body).map fun method =>
      ⟨methodIdentity relative c method, method.line, method.decorators⟩

section File

variable (approvals : List ApprovedSkip) (file : PythonFile) (tree : List Node)

/-- The test classes of a file. -/
def testClasses : List ClassDef :=
  (topLevelClasses tree).filter (isTestCase · (testCaseAliases tree))

/-- The findings about one node of the tree. -/
def nodeFindings (node : Node) : List IntegrityFinding :=
  (if "control_plane_kit" ∈ importRoots node then
    [⟨file.relative, importLine node, .mutableLegacyImport,
      "imports mutable control_plane_kit package"⟩] else []) ++
  (if "pytest" ∈ importRoots node then
    [⟨file.relative, importLine node, .pytestImport,
      "unittest is the only permitted test framework"⟩] else []) ++
  match node with
  | .exceptHandler _ body line =>
    if file.inTestRoot ∧ isSwallowedHandler body then
      [⟨file.relative, line, .swallowedException, "test code swallows an exception with pass"⟩]
    else []
  | _ => []

/-- `f"{relative}:{node.lineno}"`. -/
def location (line : ℕ) : Text :=
  file.relative ++ .utf8 ":" ++ .utf8 (toString line)

/-- The mocks one node of the tree shows. -/
def nodeMocks (node : Node) : List Text :=
  if file.inTestRoot then
    match node with
    | .importFrom (some "unittest.mock") _ _ line => [location file line]
    | .call func _ _ line =>
      if lastComponent (func.dottedName.getD "") ∈ ["Mock", "MagicMock", "patch"] then
        [location file line]
      else []
    | _ => []
  else []

/-- The findings about one test class. -/
def classFindings (c : ClassDef) : List IntegrityFinding :=
  (if file.inTestRoot ∧ ¬ isTestFile file.name then
    [⟨file.relative, c.line, .hiddenTestFile,
      .utf8 ("TestCase " ++ c.name ++ " is outside unittest discovery pattern")⟩] else []) ++
  ((testFunctions c.body).filter fun method => isPlaceholderBody method.body).map (fun method =>
    ⟨file.relative, method.line, .placeholderTest, methodIdentity file.relative c method⟩) ++
  (candidates file.relative c).flatMap fun candidate =>
    candidate.decorators.filterMap fun decorator =>
      match checkDecorator approvals (skipAliases tree) candidate.identity decorator with
      | .flagged code => some ⟨file.relative, candidate.line, code, candidate.identity⟩
      | _ => none

/-- The approvals that the decorators of a file use. -/
def treeApprovals : List Text :=
  (testClasses tree).flatMap fun c => (candidates file.relative c).flatMap fun candidate =>
    candidate.decorators.filterMap fun decorator =>
      match checkDecorator approvals (skipAliases tree) candidate.identity decorator with
      | .approved => some candidate.identity
      | _ => none

/-- The findings about a parsed file. -/
def treeFindings : List IntegrityFinding :=
  (Node.walkAll tree).flatMap (nodeFindings file) ++
  ((nestedClasses tree).filter (isTestCase · (testCaseAliases tree))).map (fun c =>
    ⟨file.relative, c.line, .hiddenTestClass,
      .utf8 ("nested TestCase " ++ c.name ++ " is not collected by unittest")⟩) ++
  (testClasses tree).flatMap (classFindings approvals file tree) ++
  if file.inTestRoot then
    (testFunctions tree).map fun function => ⟨file.relative, function.line, .hiddenTestFunction,
      .utf8 ("top-level test function " ++ function.name ++ " is not collected by unittest")⟩
  else []

/-- The test methods of a file. -/
def treeIdentities : List Text :=
  (testClasses tree).flatMap fun c => (testFunctions c.body).map (methodIdentity file.relative c)

end File

/-- The findings about a file. -/
def fileFindings (approvals : List ApprovedSkip) (file : PythonFile) : List IntegrityFinding :=
  match file.tree with
  | .error (line, message) => [⟨file.relative, line, .unparseablePython, message⟩]
  | .ok tree => treeFindings approvals file tree

/-! ### Gate files -/

/-- A gate file: its path, its path in the package, and its text, if it is there. -/
structure GateFile where
  path : Text
  relative : Text
  content : Option (List ℕ)

/-- The line boundaries of `str.splitlines` apart from the line feed and the carriage return. -/
def isLineBreak (n : ℕ) : Bool :=
  n == 10 || n == 11 || n == 12 || n == 13 || (28 ≤ n && n ≤ 30) || n == 133 || n == 8232 || n == 8233

/-- `str.splitlines`: `\r\n` is one boundary, and there is no line after the last one. -/
def splitLines : List ℕ → List (List ℕ)
  | [] => []
  | 13 :: 10 :: rest => [] :: splitLines rest
  | n :: rest =>
    if isLineBreak n then [] :: splitLines rest
    else
      match splitLines rest with
      | [] => [[n]]
      | line :: lines =>
        -- a boundary that follows at once ends the line begun here
        (n :: line) :: lines

/-- A character of `[A-Z0-9_]`. -/
def isOptionCode (n : ℕ) : Bool :=
  (65 ≤ n && n ≤ 90) || (48 ≤ n && n ≤ 57) || n == 95

/-- `PROOF_CHANGING_NAME`, for a whole word. -/
def isProofChanging : List ℕ → Bool
  | [] => false
  | first :: rest => (65 ≤ first && first ≤ 90) && rest.all isOptionCode &&
    ["SKIP", "OPTIONAL", "NO_BUILD", "LOCAL_REBUILD", "NO_TEST"].any fun part =>
      decide (codesOf part <:+: rest)

section Inspect

variable (isWord : ℕ → Bool)

/-- The matches of `PROOF_CHANGING_NAME` in a line; `isWord` says what `\w` matches. A match starts
and ends at the boundaries of a word, and has no other character between. -/
def proofChangingNames (line : List ℕ) : List (List ℕ) :=
  (line.splitOnP fun n => !isWord n).filter isProofChanging

/-- The findings about a gate file. -/
def gateFindings (gate : GateFile) : List IntegrityFinding :=
  match gate.content with
  | none => [⟨gate.path, 1, .missingGateFile, "gate file does not exist"⟩]
  | some text => ((splitLines text).zipIdx 1).flatMap fun line =>
    (proofChangingNames isWord line.1).map fun name =>
      ⟨gate.relative, line.2, .proofChangingOption, .ofCodes name⟩

/-- What `inspect_package` looks at. -/
structure Package where
  approvals : Option ApprovalsFile
  files : List PythonFile
  gates : List GateFile

/-- The approvals of a package. -/
def Package.approved (package : Package) : List ApprovedSkip :=
  (readApprovedSkips package.approvals).1

/-- The approvals that some decorator uses. -/
def encounteredApprovals (package : Package) : List Text :=
  package.files.flatMap fun file => (file.tree.toOption.map
    (treeApprovals package.approved file)).getD []

/-- The findings about approvals that no decorator uses. -/
def staleFindings (package : Package) : List IntegrityFinding :=
  (package.approved.filter fun approval => !(encounteredApprovals package).contains approval.identity).map
    fun approval => ⟨(package.approvals.map (·.name)).getD "approved-skips", 1, .staleSkipApproval,
      approval.identity⟩

/-- All findings, as they are made. -/
def findings (package : Package) : List IntegrityFinding :=
  (readApprovedSkips package.approvals).2 ++
    package.files.flatMap (fileFindings package.approved) ++ staleFindings package ++
      package.gates.flatMap (gateFindings isWord)

/-- `inspect_package`. -/
def inspectPackage (package : Package) : IntegrityReport where
  findings := sortedSet IntegrityFinding.le (findings isWord package)
  testIdentities := sortedSet Text.le (package.files.flatMap fun file =>
    (file.tree.toOption.map (treeIdentities file)).getD [])
  mockLocations := sortedSet Text.le (package.files.flatMap fun file =>
    (file.tree.toOption.map fun tree => (Node.walkAll tree).flatMap (nodeMocks file)).getD [])
  approvedSkipIdentities := sortedSet Text.le (encounteredApprovals package)

/-- `IntegrityReport.valid`. -/
def IntegrityReport.valid (report : IntegrityReport) : Bool :=
  report.findings.isEmpty

end Inspect

end TestSupport

end ControlPlaneKit
