import Relay.Source
import Relay.Syntax.Shape
import Relay.Syntax.Walk

/-!
# Exports

The names that a file exports, by assignments to `exports` or `module.exports`
and by export statements, each with the line that exports it first.
-/

namespace Relay.Analysis

open Syntax

/-- A name that a file exports, and the first line that does. -/
structure Export where
  name : String
  line : Nat
deriving DecidableEq

/-- Exports that a middleware is run by. -/
def mainExports : List String := ["execute", "run"]

/-- An expression is `module.exports`. -/
def isModuleExports (bytes : ByteArray) (n : Node) : Bool :=
  n.kind == .memberExpression
    && (n.inner? .object).bind (nameOf? bytes) == some "module"
    && propertyName? bytes n == some "exports"

/-- The names that an assignment exports. -/
def assignedExports (bytes : ByteArray) (n : Node) : List String :=
  match n.inner? .left with
  | some left =>
    if left.kind != .memberExpression then []
    else if isModuleExports bytes left then
      ((n.inner? .right).map (objectKeys bytes)).getD []
    else
      match left.inner? .object with
      | some owner =>
        if isModuleExports bytes owner ||
            nameOf? bytes owner == some "exports" then
          (filled? (propertyName? bytes left)).toList
        else []
      | none => []
  | none => []

/-- The names that a declaration declares. -/
def declaredNames (bytes : ByteArray) (declaration : Node) : List String :=
  match declaration.kind with
  | .functionDeclaration | .generatorFunctionDeclaration | .classDeclaration =>
    (filled? ((declaration.child? .name).bind (nameOf? bytes))).toList
  | .lexicalDeclaration | .variableDeclaration =>
    (declaration.named.filter (·.kind = .variableDeclarator)).filterMap fun d =>
      filled? ((d.child? .name).bind (nameOf? bytes))
  | _ => []

/-- The names that a node exports. -/
def exportsAt (bytes : ByteArray) (n : Node) : List String :=
  match n.kind with
  | .assignmentExpression => assignedExports bytes n
  | .exportStatement =>
      ((n.child? .declaration).map (declaredNames bytes)).getD []
  | _ => []

/-- An export at the end of a list that has none of its name yet. -/
def addExport (found : List Export) (e : Export) : List Export :=
  if found.any (·.name = e.name) then found else found ++ [e]

/-- The exports of a file after one more node of its walk. -/
def visitExport (s : Source) (found : List Export) (v : Visit) : List Export :=
  ((exportsAt s.bytes v.node).map fun name => ⟨name, s.lineOf v.node⟩).foldl
    addExport found

/-- The exports of a file. -/
def exportsOf (s : Source) : List Export :=
  (entered (walkAll s.tree)).foldl (visitExport s) []

/-- The line of the export that a middleware is run by. -/
def mainLine? (found : List Export) : Option Nat :=
  (found.find? fun e => mainExports.contains e.name).map (·.line)

end Relay.Analysis
