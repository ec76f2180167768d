import Relay.Syntax.Measure
import Relay.Text.Pieces

/-!
# Chains of accesses

An access such as `res.locals.user["name"]` is a chain: the name it starts from
and the steps taken from there, the first step first.  Parentheses do not
matter.  A step that is not written out leaves no trace in the chain, and a
chain that starts from anything but a name has no root.
-/

namespace Relay.Analysis

open Syntax

/-- The name that nested accesses start from, and their written steps. -/
structure Chain where
  root : Option String
  steps : List String
deriving DecidableEq

/-- Follows the objects of nested accesses inwards; `steps` are the steps met
so far. -/
def followChain (bytes : ByteArray) (steps : List String) (n : Node) : Chain :=
  match _h : n.unwrap with
  | none => ⟨none, steps⟩
  | some m =>
    if m.kind.isAccess then
      let steps := (filled? (propertyName? bytes m)).toList ++ steps
      match _hc : m.child? .object with
      | some object => followChain bytes steps object
      | none => ⟨none, steps⟩
    else if m.kind = .identifier then ⟨nameOf? bytes m, steps⟩
    else ⟨none, steps⟩
termination_by n.size
decreasing_by
  have h₁ := Node.size_unwrap_le n _h
  have h₂ := Node.size_child?_lt _hc
  omega

/-- The chain of an access. -/
def chainOf (bytes : ByteArray) (n : Node) : Chain :=
  followChain bytes [] n

namespace Chain

/-- The chain starts from one of some names. -/
def startsFrom (c : Chain) (roots : List String) : Bool :=
  c.root.any roots.contains

/-- The path below `root.inner`, for a chain that goes on after it. -/
def pathBelow? (c : Chain) (roots : List String) (inner : String) :
    Option String :=
  match c.steps with
  | first :: second :: rest =>
    if c.startsFrom roots ∧ first = inner then
      some (Text.join "." (second :: rest))
    else none
  | _ => none

/-- The chain is `root.inner` itself. -/
def isItself (c : Chain) (roots : List String) (inner : String) : Bool :=
  c.startsFrom roots && c.steps == [inner]

end Chain

end Relay.Analysis
