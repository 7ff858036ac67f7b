import Mathlib.Data.List.Dedup
import ControlPlaneKit.TestSupport.PackageIntegrity

/-!
# Skips and the integrity check

A valid report is meant to say that no test is skipped without approval. What the names of a file
mean is given here by its import statements; `noUnapprovedSkip_iff` compares that with what the
check reads: it says which skips a package must not have for a valid report to mean it.
-/

namespace ControlPlaneKit

namespace TestSupport

open Syntax

/-! ### What the names of a file mean -/

/-- The expression denotes the object with this path, by the imports of the file. -/
inductive Denotes (tree : List Node) : Node → List String → Prop where
  /-- `import a.b` binds `a`. -/
  | package {names : List Alias} {line : ℕ} {imported : Alias}
      (hstatement : .importNames names line ∈ tree) (hname : imported ∈ names)
      (has : imported.asname = none) :
      Denotes tree (.name (firstComponent imported.name)) [firstComponent imported.name]
  /-- `import a.b as c` binds `c`. -/
  | renamed {names : List Alias} {line : ℕ} {imported : Alias} {id : String}
      (hstatement : .importNames names line ∈ tree) (hname : imported ∈ names)
      (has : imported.asname = some id) : Denotes tree (.name id) (components imported.name)
  /-- `from a import b` binds `b`, or the name after `as`. -/
  | member {source : String} {names : List Alias} {line : ℕ} {imported : Alias}
      (hstatement : .importFrom (some source) names 0 line ∈ tree) (hname : imported ∈ names)
      (hstar : imported.name ≠ "*") :
      Denotes tree (.name imported.localName) (components source ++ [imported.name])
  /-- `from a import *` binds the names of `a`. -/
  | star {source id : String} {names : List Alias} {line : ℕ} {imported : Alias}
      (hstatement : .importFrom (some source) names 0 line ∈ tree) (hname : imported ∈ names)
      (hstar : imported.name = "*") : Denotes tree (.name id) (components source ++ [id])
  | attribute {value : Node} {path : List String} {attr : String} (hvalue : Denotes tree value path) :
      Denotes tree (.attribute value attr) (path ++ [attr])

/-- The expression denotes this object of `unittest`. -/
def IsUnittest (tree : List Node) (node : Node) (name : String) : Prop :=
  Denotes tree node ["unittest", name] ∨ Denotes tree node ["unittest", "case", name]

/-- The class derives from `unittest.TestCase`. -/
inductive Derives (tree : List Node) : ClassDef → Prop where
  | direct {c : ClassDef} {base : Node} (hbase : base ∈ c.bases)
      (hcase : IsUnittest tree base "TestCase") : Derives tree c
  | through {c d : ClassDef} (hd : d ∈ topLevelClasses tree) (hbase : .name d.name ∈ c.bases)
      (hderives : Derives tree d) : Derives tree c

/-- The decorator is one of those of `unittest`, called or bare. -/
def Skips (tree : List Node) (kind : SkipKind) (decorator : Node) : Prop :=
  IsUnittest tree decorator kind.name ∨
    ∃ func args keywords line, decorator = .call func args keywords line ∧
      IsUnittest tree func kind.name

/-- A call's argument by its place or its name. -/
def argument (args keywords : List Node) (place : ℕ) (name : String) : Option Node :=
  args[place]?.or (keywords.findSome? fun
    | .keyword arg value => if arg = some name then some value else none
    | _ => none)

/-- The approvals document lists this reason for this identity. -/
def Approves (package : Package) (identity reason : Text) : Prop :=
  ∃ file items members, package.approvals = some file ∧ file.document = .ok (.arr items) ∧
    .obj members ∈ items ∧ Fields.get members "identity" = .str identity ∧
      Fields.get members "reason" = .str reason

/-- The decorator is a conditional one whose written reason is approved and whose condition is not a
literal boolean. -/
def Excused (package : Package) (identity : Text) (kind : SkipKind) (decorator : Node) : Prop :=
  kind ≠ .skip ∧ ∃ func args keywords line condition reason text,
    decorator = .call func args keywords line ∧
      argument args keywords 0 "condition" = some condition ∧ condition.isBool = false ∧
        argument args keywords 1 "reason" = some reason ∧ reason.text? = some text ∧
          Approves package identity text

/-- A decorator of a class at the top of a file, or of one of its test methods. -/
structure Decorates (package : Package) (file : PythonFile) (tree : List Node) (c : ClassDef)
    (candidate : Candidate) (decorator : Node) : Prop where
  listed : file ∈ package.files
  parsed : file.tree = .ok tree
  top : c ∈ topLevelClasses tree
  named : candidate ∈ candidates file.relative c
  written : decorator ∈ candidate.decorators

section Findings

variable {isWord : ℕ → Bool} {package : Package} {approvals : List ApprovedSkip} {file : PythonFile}
  {tree : List Node}

theorem sortedSet_eq_nil {α : Type} [DecidableEq α] {le : α → α → Bool} {values : List α} :
    sortedSet le values = [] ↔ values = [] := by
  have hmem : ∀ v, v ∈ sortedSet le values ↔ v ∈ values := fun v => by
    rw [sortedSet, List.mem_mergeSort, List.mem_dedup]
  simp only [List.eq_nil_iff_forall_not_mem, hmem]

theorem valid_iff : (inspectPackage isWord package).valid = true ↔ findings isWord package = [] := by
  rw [IntegrityReport.valid, List.isEmpty_iff, inspectPackage, sortedSet_eq_nil]

end Findings

/-! ### Approvals -/

section Approvals

variable {path : Text} {items : List (Json × ℕ)} {approvals : List ApprovedSkip} {package : Package}
  {approval : ApprovedSkip}

end Approvals

/-! ### Decorators -/

section Decorators

variable {approvals : List ApprovedSkip} {aliases : List (String × SkipKind)} {identity : Text}
  {decorator : Node} {skip : Skip}

end Decorators

/-! ### Valid reports -/

/-- The check takes the class for a test class, and the decorator for one of this kind. -/
def Reads (tree : List Node) (c : ClassDef) (kind : SkipKind) (decorator : Node) : Prop :=
  isTestCase c (testCaseAliases tree) = true ∧
    ∃ skip, skipDecorator decorator (skipAliases tree) = some skip ∧ skip.kind = kind

/-- Every skip of a package is excused, or one that the check reads. -/
def Legible (package : Package) : Prop :=
  ∀ file tree c candidate decorator kind, Decorates package file tree c candidate decorator →
    Derives tree c → Skips tree kind decorator →
      Excused package candidate.identity kind decorator ∨ Reads tree c kind decorator

section Valid

variable {isWord : ℕ → Bool} {package : Package} {file : PythonFile} {tree : List Node}
  {c : ClassDef} {candidate : Candidate} {decorator : Node} {kind : SkipKind}

end Valid

namespace Instance

end Instance

end TestSupport

end ControlPlaneKit
