import Relay.Analysis.Values
import Relay.Text.Blank

/-!
# The address of a request

The part of a request's address that names what is asked for.  An address is
put together by `+` and by templates; of the texts it is made of, the last good
one names it, where a text is good when it is neither a path nor the start of a
whole address.  If none is good, the first text does.
-/

namespace Relay.Analysis

open Syntax

/-- A text that can name what is asked for. -/
def isGoodPart (s : String) : Bool :=
  s ≠ "" && !Text.startsWith s "/" && !Text.startsWith s "http"

/-- The name of an address that goes on with a further part. -/
def joinAddress (name part : Option String) : Option String :=
  if part.any isGoodPart then part
  else match filled? name with
    | some s => some s
    | none => part

/-- The name of an address that is made of some parts. -/
def addressOfParts : List String → Option String
  | [] => none
  | first :: rest =>
    some (rest.foldl
      (fun name part => if isGoodPart part then part else name) first)

/-- An expression that adds two others up. -/
def isSum (n : Node) : Bool :=
  n.kind == .binaryExpression && hasOperator n ["+"]

/-- The left side of an expression, if it has one, is smaller. -/
theorem size_left_lt (n : Node) :
    (n.inner? .left).elim 0 Node.size < n.size := by
  cases h : n.inner? .left with
  | none => exact n.size_pos
  | some m => exact Node.size_inner?_lt h

/-- Walks down the left sides of a sum.  Gives the right sides that it has
passed, the outermost one first, and the expression that it stops at. -/
def spine (operands : List (Option Node)) :
    Option Node → List (Option Node) × Option Node
  | none => (operands, none)
  | some n =>
    if isSum n then spine (operands ++ [n.child? .right]) (n.inner? .left)
    else (operands, some n)
termination_by current => current.elim 0 Node.size
decreasing_by
  exact size_left_lt n

/-- The walk stops at the expression it starts from, or at a smaller one. -/
theorem last_spine {operands : List (Option Node)} {current : Option Node}
    {m : Node} (h : (spine operands current).2 = some m) :
    current = some m ∨ m.size < current.elim 0 Node.size := by
  induction operands, current using spine.induct with
  | case1 operands =>
      rw [spine] at h
      exact .inl h
  | case2 operands n hsum ih =>
      rw [spine, if_pos hsum] at h
      rcases ih h with hleft | hlt
      · exact .inr (Node.size_inner?_lt hleft)
      · exact .inr (Nat.lt_trans hlt (size_left_lt n))
  | case3 operands n hsum =>
      rw [spine, if_neg hsum] at h
      exact .inl h

/-- The right sides that the walk passes are smaller than what it starts
from. -/
theorem mem_spine {operands : List (Option Node)} {current : Option Node}
    {m : Node} (h : some m ∈ (spine operands current).1) :
    some m ∈ operands ∨ m.size < current.elim 0 Node.size := by
  induction operands, current using spine.induct with
  | case1 operands =>
      rw [spine] at h
      exact .inl h
  | case2 operands n hsum ih =>
      rw [spine, if_pos hsum] at h
      rcases ih h with hmem | hlt
      · rcases List.mem_append.mp hmem with hmem | hright
        · exact .inl hmem
        · have heq := List.mem_singleton.mp hright
          exact .inr (Node.size_child?_lt heq.symm)
      · exact .inr (Nat.lt_trans hlt (size_left_lt n))
  | case3 operands n hsum =>
      rw [spine, if_neg hsum] at h
      exact .inl h

/-- A right side of a sum is smaller than the sum. -/
theorem size_lt_of_mem_spine {n m : Node} {operand : Option Node}
    (hmem : operand ∈ (spine [] (some n)).1)
    (h : operand.bind Node.unwrap = some m) : m.size < n.size := by
  obtain ⟨right, hright, hm⟩ := Option.bind_eq_some_iff.mp h
  subst hright
  have hlt := (mem_spine hmem).resolve_left (by simp)
  exact Nat.lt_of_le_of_lt (Node.size_unwrap_le right hm) hlt

/-- The name of the address that an expression stands for.  In a sum the name
of the expression that its spine ends with comes first, and the right sides
join it from the innermost one on. -/
def addressOf? (bytes : ByteArray) (n : Node) : Option String :=
  match stringValue? bytes n with
  | some s => some s
  | none =>
    match _hkind : n.kind with
    | .identifier => nameOf? bytes n
    | .memberExpression => propertyName? bytes n
    | .binaryExpression =>
      (spine [] (some n)).1.reverse.attach.foldl
        (fun name operand => joinAddress name
          (match _h : operand.1.bind Node.unwrap with
            | some inner => addressOf? bytes inner
            | none => none))
        (match _h : (spine [] (some n)).2 with
          | some last =>
            if _hlast : last.kind = .binaryExpression then none
            else addressOf? bytes last
          | none => none)
    | .templateString =>
      addressOfParts (n.children.attach.filterMap fun ⟨c, _hc⟩ =>
        match c.kind with
        | .stringFragment => filled? (some (Text.strip (c.text bytes)))
        | .templateSubstitution =>
          match _h : Node.unwrapFirst c.children with
          | some inner => filled? (addressOf? bytes inner)
          | none => none
        | _ => none)
    | _ => none
termination_by n.size
decreasing_by
  · exact size_lt_of_mem_spine (List.mem_reverse.mp operand.2) _h
  · rcases last_spine _h with heq | hlt
    · cases heq
      contradiction
    · exact hlt
  · have h₁ := Node.size_unwrapFirst_le _ _h
    have h₂ := Node.size_le_sizeAll _hc
    have h₃ := c.size_eq
    have h₄ := n.size_eq
    omega

/-- The name of the address that an object literal of options gives. -/
def addressInOptions? (bytes : ByteArray) (options : Node) : Option String :=
  (objectProperty? bytes options "url").bind fun value =>
    if value.kind = .shorthandPropertyIdentifier then some (value.text bytes)
    else value.unwrap.bind (addressOf? bytes)

/-- The object literal of options that an argument is, or that the nearest
declaration of the variable gives it. -/
def optionsOf? (bytes : ByteArray) (argument : Node) (enclosing : List Node) :
    Option Node :=
  argument.unwrap.bind fun n =>
    match n.kind with
    | .object => some n
    | .identifier =>
      (nameOf? bytes n).bind fun name =>
        (findDeclarator? bytes name enclosing (some .object)).bind
          (·.inner? .value)
    | _ => none

/-- The name of the address that the second or third argument of an http
request gives. -/
def requestAddress? (bytes : ByteArray) (call : Node) (enclosing : List Node) :
    Option String :=
  (((callArguments call).drop 1).take 2).findSome? fun argument =>
    filled? ((optionsOf? bytes argument enclosing).bind
      (addressInOptions? bytes))

end Relay.Analysis
