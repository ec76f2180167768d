import Relay.Source
import Relay.Syntax.Shape
import Relay.Syntax.Walk
import Relay.Text.Pieces
import Relay.Unique

/-!
# Required modules

A file requires other modules by calls of `require` with a literal specifier
and by import statements.  Each specifier counts once, with the names that its
first mention binds.
-/

namespace Relay.Analysis

open Syntax

/-- A module that a file requires, with the names it is bound to. -/
structure Requirement where
  specifier : String
  binder : String
  line : Nat
deriving DecidableEq

/-- The specifier of a call of `require`. -/
def requireSpecifier? (bytes : ByteArray) (call : Node) : Option String :=
  (call.inner? .function).bind fun callee =>
    if callee.kind = .identifier ∧ nameOf? bytes callee = some "require" then
      ((callArguments call).head?.bind Node.unwrap).bind (stringValue? bytes)
    else none

/-- The specifier of an import statement. -/
def importSpecifier? (bytes : ByteArray) (statement : Node) : Option String :=
  (statement.child? .source).bind (stringValue? bytes)

/-- The parts of an import statement that bind names: the default, all of the
module, and each name of a list. -/
def importBinders (statement : Node) : List Node :=
  ((statement.named.filter (·.kind = .importClause)).flatMap (·.named)).flatMap
      fun part =>
    match part.kind with
    | .identifier => [part]
    | .namespaceImport => part.named
    | .namedImports => part.named.filter (·.kind = .importSpecifier)
    | _ => []

/-- The name that a part of an import statement binds. -/
def importedName? (bytes : ByteArray) (part : Node) : Option String :=
  match part.kind with
  | .identifier => nameOf? bytes part
  | .importSpecifier =>
    filled? (((part.child? .aliasName).or (part.child? .name)).bind
      (nameOf? bytes))
  | _ => none

/-- The names that an import statement binds. -/
def importNames (bytes : ByteArray) (statement : Node) : List String :=
  (importBinders statement).filterMap (importedName? bytes)

/-- The binder of the innermost declaration around a place. -/
def nearestBinder? (enclosing : List Node) : Option Node :=
  (enclosing.find? (·.kind = .variableDeclarator)).bind (·.child? .name)

/-- The names that the innermost declaration around a place binds. -/
def nearestNames (bytes : ByteArray) (enclosing : List Node) : List String :=
  ((nearestBinder? enclosing).map (binderNames bytes)).getD []

/-- The specifier and the bound names at a node that requires a module. -/
def requirementAt? (bytes : ByteArray) (n : Node) (enclosing : List Node) :
    Option (String × List String) :=
  match n.kind with
  | .callExpression =>
      (requireSpecifier? bytes n).map fun s => (s, nearestNames bytes enclosing)
  | .importStatement =>
      (importSpecifier? bytes n).map fun s => (s, importNames bytes n)
  | _ => none

/-- The requirements of a file after one more node of its walk, with the
specifiers that have been seen. -/
def visitRequirement (s : Source) (found : Collection Requirement String)
    (v : Visit) : Collection Requirement String :=
  match requirementAt? s.bytes v.node v.enclosing with
  | some (specifier, names) =>
    found.add Requirement.specifier
      ⟨specifier, Text.join ", " names, s.lineOf v.node⟩
  | none => found

/-- The modules that a file requires. -/
def requirementsOf (s : Source) : List Requirement :=
  ((entered (walkAll s.tree)).foldl (visitRequirement s) {}).items

end Relay.Analysis
