import Relay.Syntax.Measure
import Relay.Syntax.Walk
import Relay.Text.Pieces

/-!
# Constant values and scopes

The strings that an expression can evaluate to, as far as they are written out,
and the variables of the scopes around a place.  A scope is searched without
the functions nested in it, so a value never comes from a sibling or an inner
function.
-/

namespace Relay.Analysis

open Syntax

/-- A list with the values of another one that it does not hold yet, each added
once. -/
def addNew {α : Type} [DecidableEq α] (known : List α) : List α → List α
  | [] => known
  | a :: rest =>
      if a ∈ known then addNew known rest else addNew (known ++ [a]) rest

/-- The string that an array of string literals stands for: its items with
commas between them. -/
def arrayValue? (bytes : ByteArray) (array : Node) : Option String := do
  let items := array.content
  if items.isEmpty then none
  let parts ← items.mapM fun item => item.unwrap.bind (stringValue? bytes)
  return Text.join "," parts

/-- An operator whose value is the value of one of its sides. -/
def isLogical (n : Node) : Bool :=
  hasOperator n ["||", "&&"]

/-- The parts of an expression whose values are values of the whole, in source
order. -/
def branches (n : Node) : List Node :=
  match n.kind with
  | .ternaryExpression =>
      (n.child? .consequence).toList ++ (n.child? .alternative).toList
  | .binaryExpression =>
    if isLogical n then (n.child? .left).toList ++ (n.child? .right).toList
    else []
  | _ => []

/-- The value that an expression has by itself. -/
def ownValue? (bytes : ByteArray) (n : Node) : Option String :=
  match stringValue? bytes n with
  | some s => some s
  | none => if n.kind == .array then arrayValue? bytes n else none

/-- The branches of an expression are smaller than the expression. -/
theorem sizeAll_branches_lt (n : Node) :
    Node.sizeAll (branches n) < n.size := by
  have hpos := n.size_pos
  unfold branches
  split
  · exact Node.sizeAll_two_children (by decide)
  · split
    · exact Node.sizeAll_two_children (by decide)
    · simpa [Node.sizeAll] using hpos
  · simpa [Node.sizeAll] using hpos

/-- Adds the values of the expressions on a stack to the values known so far. -/
def collectValues (bytes : ByteArray) (known : List String) :
    List Node → List String
  | [] => known
  | n :: rest =>
    match _h : n.unwrap with
    | none => collectValues bytes known rest
    | some m =>
      match ownValue? bytes m with
      | some s => collectValues bytes (addNew known [s]) rest
      | none => collectValues bytes known (branches m ++ rest)
termination_by ns => Node.sizeAll ns
decreasing_by
  · have := n.size_pos
    simp [Node.sizeAll]
    omega
  · have := n.size_pos
    simp [Node.sizeAll]
    omega
  · have h₁ := Node.size_unwrap_le n _h
    have h₂ := sizeAll_branches_lt m
    simp only [Node.sizeAll_append, Node.sizeAll]
    omega

/-- The strings that an expression can evaluate to, in source order and without
repetition. -/
def stringValues (bytes : ByteArray) (n : Node) : List String :=
  collectValues bytes [] [n]

/-- The strings that a part of a node can evaluate to. -/
def valuesIn (bytes : ByteArray) (n : Node) (r : Role) : List String :=
  match n.child? r with
  | some c => stringValues bytes c
  | none => []

/-- The declarations of a variable in a scope, those of nested functions left
out. -/
def declaratorsIn (bytes : ByteArray) (name : String) (scope : Node) :
    List Node :=
  (entered (walk (fun n _ => n.kind.isFunction) scope)).filterMap fun v =>
    if v.node.kind = .variableDeclarator
        ∧ (v.node.child? .name).bind (nameOf? bytes) = some name then
      some v.node
    else none

/-- The strings that a variable can have from its declarations in a scope. -/
def variableValues (bytes : ByteArray) (name : String) (scope : Node) :
    List String :=
  (declaratorsIn bytes name scope).foldl (fun known d =>
    addNew known (valuesIn bytes d .value)) []

/-- The strings that a variable can have: those of the innermost scope that
gives any. -/
def resolveVariable (bytes : ByteArray) (name : String)
    (enclosing : List Node) : List String :=
  ((scopes enclosing).map (variableValues bytes name)).find? (· ≠ []) |>.getD []

/-- The nearest declaration of a variable whose value has a kind, or any value
at all. -/
def findDeclarator? (bytes : ByteArray) (name : String) (enclosing : List Node)
    (kind : Option Kind) : Option Node :=
  ((scopes enclosing).flatMap (declaratorsIn bytes name)).find? fun d =>
    match d.inner? .value with
    | some value => kind.all (· == value.kind)
    | none => false

/-- What stands between the values that a text can have. -/
def valueSeparator : String := " | "

end Relay.Analysis
