import ControlPlaneKit.Python.Codes

/-!
# Syntax trees

The nodes of Python's `ast`, as far as the checks of a package tell them apart; every other node is
its children. Identifiers come from decoded text, so they are plain strings.
-/

namespace ControlPlaneKit

namespace Syntax

/-- The value of an `ast.Constant`. -/
inductive Literal where
  | ellipsis
  | bool (b : Bool)
  | str (t : Text)
  | other
deriving DecidableEq

/-- An `ast.alias`: an imported name, and the name after `as`. -/
structure Alias where
  name : String
  asname : Option String
deriving DecidableEq

/-- The name an import binds. -/
def Alias.localName (imported : Alias) : String :=
  imported.asname.getD imported.name

/-- A node; the last number of a constructor is its `lineno`. -/
inductive Node where
  | name (id : String)
  | attribute (value : Node) (attr : String)
  | constant (value : Literal)
  | call (func : Node) (args keywords : List Node) (line : ℕ)
  | keyword (arg : Option String) (value : Node)
  | importNames (names : List Alias) (line : ℕ)
  | importFrom (source : Option String) (names : List Alias) (level line : ℕ)
  | classDef (name : String) (bases keywords body decorators : List Node) (line : ℕ)
  | functionDef (name : String) (arguments body decorators : List Node) (line : ℕ)
  | exceptHandler (caught body : List Node) (line : ℕ)
  | expr (value : Node)
  | pass
  | other (children : List Node)

namespace Node

/-- `ast.iter_child_nodes`. -/
def children : Node → List Node
  | .attribute value _ => [value]
  | .call func args keywords _ => func :: args ++ keywords
  | .keyword _ value => [value]
  | .classDef _ bases keywords body decorators _ => bases ++ keywords ++ body ++ decorators
  | .functionDef _ arguments body decorators _ => arguments ++ body ++ decorators
  | .exceptHandler caught body _ => caught ++ body
  | .expr value => [value]
  | .other children => children
  | _ => []

mutual

/-- `ast.walk`: the node and all nodes below it. -/
def walk : Node → List Node
  | .attribute value attr => .attribute value attr :: walk value
  | .call func args keywords line =>
    .call func args keywords line :: (walk func ++ walkAll args ++ walkAll keywords)
  | .keyword arg value => .keyword arg value :: walk value
  | .classDef id bases keywords body decorators line =>
    .classDef id bases keywords body decorators line ::
      (walkAll bases ++ walkAll keywords ++ walkAll body ++ walkAll decorators)
  | .functionDef id arguments body decorators line =>
    .functionDef id arguments body decorators line ::
      (walkAll arguments ++ walkAll body ++ walkAll decorators)
  | .exceptHandler caught body line =>
    .exceptHandler caught body line :: (walkAll caught ++ walkAll body)
  | .expr value => .expr value :: walk value
  | .other children => .other children :: walkAll children
  | node => [node]

/-- The nodes of several trees. -/
def walkAll : List Node → List Node
  | [] => []
  | node :: nodes => walk node ++ walkAll nodes

end

/-- The names of an attribute chain, joined by dots, as far as it is one. -/
def dottedName : Node → Option String
  | .name id => some id
  | .attribute value attr =>
    match dottedName value with
    | some owner => if owner = "" then some attr else some (owner ++ "." ++ attr)
    | none => some attr
  | _ => none

end Node

/-- `name.split(".", 1)[0]`. -/
def firstComponent (name : String) : String :=
  String.ofList (name.toList.takeWhile (· != '.'))

/-- `name.rsplit(".", 1)[-1]`. -/
def lastComponent (name : String) : String :=
  String.ofList (name.toList.rtakeWhile (· != '.'))

/-- The names between the dots. -/
def components (name : String) : List String :=
  (name.toList.splitOn '.').map String.ofList

/-- The value of the string literal; `ast.literal_eval` has a string for nothing else. -/
def Node.text? : Node → Option Text
  | .constant (.str t) => some t
  | _ => none

/-- The node is a literal boolean; `ast.literal_eval` has one for nothing else. -/
def Node.isBool : Node → Bool
  | .constant (.bool _) => true
  | _ => false

end Syntax

end ControlPlaneKit
