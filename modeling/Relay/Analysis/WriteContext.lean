import Relay.Syntax.Shape

/-!
# Reads and writes

An access is a write because of where it stands: on the left of an assignment,
in an increment, after `delete`, as the object of a method that changes it, or
as the first argument of `Object.assign`.  The innermost of these positions
decides.
-/

namespace Relay.Analysis

open Syntax

/-- Methods that change the object they are called on. -/
def mutationMethods : List String :=
  ["push", "pop", "shift", "unshift", "splice", "sort", "reverse", "fill",
    "copyWithin", "set", "add",
    "delete", "clear"]

/-- How a position writes. -/
inductive WriteContext where
  | assignment | deletion | mutation | merge
deriving DecidableEq

/-- A call of `Object.assign`. -/
def isObjectAssign (bytes : ByteArray) (call : Node) : Bool :=
  match call.inner? .function with
  | some callee =>
    callee.kind == .memberExpression
      && (callee.child? .object).bind (nameOf? bytes) == some "Object"
      && propertyName? bytes callee == some "assign"
  | none => false

/-- The method that a call names on an object changes that object. -/
def mutatedObject? (bytes : ByteArray) (call : Node) : Option Node :=
  match call.inner? .function with
  | some callee =>
    if callee.kind.isAccess &&
        ((propertyName? bytes callee).any mutationMethods.contains) then
      callee.child? .object
    else none
  | none => none

/-- How a node is written because of one of the nodes around it. -/
def writeFrom? (bytes : ByteArray) (node around : Node) : Option WriteContext :=
  match around.kind with
  | .assignmentExpression | .augmentedAssignmentExpression =>
    if (around.child? .left).any (·.covers node) then some .assignment else none
  | .updateExpression => some .assignment
  | .unaryExpression =>
      if hasOperator around ["delete"] then some .deletion else none
  | .callExpression =>
    if (mutatedObject? bytes around).any (·.covers node) then some .mutation
    else if isObjectAssign bytes around &&
        ((callArguments around).head?.any (·.covers node)) then
      some .merge
    else none
  | _ => none

/-- How a node is written: the innermost of the nodes around it that writes it
decides. -/
def writeContext? (bytes : ByteArray) (node : Node) (enclosing : List Node) :
    Option WriteContext :=
  enclosing.findSome? (writeFrom? bytes node)

end Relay.Analysis
