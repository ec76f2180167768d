import Relay.Syntax.Node

/-!
# Names and literals in a tree

What a node says when read as a name, as a string, as the name of a property,
as the arguments of a call or as the keys of an object.  Parentheses around an
expression are transparent.
-/

namespace Relay.Syntax

namespace Node

/-- A child that stands for something. -/
def isContent (n : Node) : Bool :=
  n.kind.isNamed && n.kind != .comment

mutual

/-- The expression inside any number of parentheses; there is none inside empty
ones. -/
def unwrap : Node → Option Node
  | ⟨.parenthesizedExpression, _, _, _, children⟩ => unwrapFirst children
  | n => some n

/-- The expression in the first child that stands for something. -/
def unwrapFirst : List Node → Option Node
  | [] => none
  | n :: rest => if n.isContent then n.unwrap else unwrapFirst rest

end

/-- The child in a role, without parentheses around it. -/
def inner? (n : Node) (r : Role) : Option Node :=
  (n.child? r).bind unwrap

/-- The first of some nodes is the first named one that is no comment. -/
theorem unwrapFirst_eq (ns : List Node) :
    unwrapFirst ns
      = ((ns.filter (·.kind.isNamed)).filter (·.kind != .comment)).head?.bind
        unwrap := by
  induction ns with
  | nil => rfl
  | cons n ns ih =>
      rw [unwrapFirst, List.filter_filter, List.filter_cons, isContent,
        Bool.and_comm]
      split
      · rfl
      · rw [ih, List.filter_filter]

/-- The first of the children is the first of the content. -/
theorem unwrapFirst_children (n : Node) :
    unwrapFirst n.children = n.content.head?.bind unwrap :=
  unwrapFirst_eq n.children

/-- Parentheses are taken off around the first of their content. -/
theorem unwrap_of_parens {n : Node} (h : n.kind = .parenthesizedExpression) :
    n.unwrap = n.content.head?.bind unwrap := by
  rw [← unwrapFirst_children]
  obtain ⟨kind, role, start, stop, children⟩ := n
  cases h
  rw [unwrap]

/-- What is not in parentheses stays as it is. -/
theorem unwrap_of_ne {n : Node} (h : n.kind ≠ .parenthesizedExpression) :
    n.unwrap = some n := by
  obtain ⟨kind, role, start, stop, children⟩ := n
  unfold unwrap
  split
  · rename_i heq
    simp_all
  · rfl

end Node

section

variable (bytes : ByteArray)

/-- The name that a node spells. -/
def nameOf? (n : Node) : Option String :=
  match n.kind with
  | .identifier | .propertyIdentifier | .shorthandPropertyIdentifier
  | .shorthandPropertyIdentifierPattern | .privatePropertyIdentifier =>
      some (n.text bytes)
  | .thisWord => some "this"
  | _ => none

/-- A text without its first and last characters. -/
def withoutEnds (s : String) : String :=
  String.ofList (s.toList.drop 1).dropLast

/-- A text starts and ends with the same quote. -/
def isQuoted (s : String) : Bool :=
  let cs := s.toList
  2 ≤ cs.length && cs.head? == cs.getLast? &&
    (cs.head? == some '\'' || cs.head? == some '"')

/-- The value of a string, or of a template without substitutions.  Escapes
stay as they are written. -/
def stringValue? (n : Node) : Option String :=
  match n.kind with
  | .string =>
    let s := n.text bytes
    some (if isQuoted s then withoutEnds s else s)
  | .templateString =>
    if n.named.any (·.kind == .templateSubstitution) then none
    else
      let s := n.text bytes
      some (if 2 ≤ s.length then withoutEnds s else s)
  | _ => none

/-- The name of the property that an access asks for, if it is written out. -/
def propertyName? (n : Node) : Option String :=
  match n.kind with
  | .memberExpression => (n.child? .property).bind (nameOf? bytes)
  | .subscriptExpression =>
    match n.inner? .index with
    | some index =>
      match stringValue? bytes index with
      | some s => some s
      | none => if index.kind == .number then some (index.text bytes) else none
    | none => none
  | _ => none

/-- The name or string of a key; an empty name gives way to the string. -/
def keyOf? (n : Node) : Option String :=
  match nameOf? bytes n with
  | some "" | none => stringValue? bytes n
  | some name => some name

/-- The arguments of a call. -/
def callArguments (call : Node) : List Node :=
  match call.child? .arguments with
  | some args => if args.kind == .arguments then args.content else []
  | none => []

/-- The entry of an object literal that a key names: the value of a pair, or a
shorthand itself. -/
def objectProperty? (object : Node) (key : String) : Option Node :=
  if object.kind == .object then go object.named else none
where
  go : List Node → Option Node
    | [] => none
    | entry :: rest =>
      match entry.kind with
      | .pair =>
        if (entry.child? .key).bind (keyOf? bytes) = some key then
          entry.child? .value else go rest
      | .shorthandPropertyIdentifier =>
          if entry.text bytes = key then some entry else go rest
      | _ => go rest

/-- A text that is not empty. -/
def filled? (s : Option String) : Option String :=
  s.filter (· ≠ "")

/-- The key that an entry of an object literal sets. -/
def entryKey? (entry : Node) : Option String :=
  match entry.kind with
  | .pair => filled? ((entry.child? .key).bind (keyOf? bytes))
  | .shorthandPropertyIdentifier => filled? (nameOf? bytes entry)
  | .methodDefinition => filled? ((entry.child? .name).bind (nameOf? bytes))
  | _ => none

/-- The keys of an object literal that are written out. -/
def objectKeys (object : Node) : List String :=
  if object.kind == .object then object.named.filterMap (entryKey? bytes)
  else []

/-- A key of an object pattern with the name that it is bound to. -/
def entryBinding? (entry : Node) : Option (String × String) :=
  match entry.kind with
  | .shorthandPropertyIdentifierPattern =>
    let name := entry.text bytes
    some (name, name)
  | .pairPattern =>
    let value := (entry.child? .value).bind fun v =>
      match v.kind with
      | .assignmentPattern | .objectAssignmentPattern => v.child? .left
      | _ => some v
    match filled? ((entry.child? .key).bind (keyOf? bytes)),
      filled? (value.bind (nameOf? bytes)) with
    | some key, some name => some (key, name)
    | _, _ => none
  | .objectAssignmentPattern =>
    (filled? ((entry.child? .left).bind (nameOf? bytes))).map fun name =>
      (name, name)
  | _ => none

/-- The keys of an object pattern with the names that they are bound to. -/
def patternBindings (pattern : Node) : List (String × String) :=
  if pattern.kind == .objectPattern then
    pattern.named.filterMap (entryBinding? bytes) else []

/-- The names that a binder introduces. -/
def binderNames (binder : Node) : List String :=
  match binder.kind with
  | .identifier => [binder.text bytes]
  | .objectPattern => (patternBindings bytes binder).map (·.2)
  | _ => []

end

/-- The operator of a node is one of some tokens. -/
def hasOperator (n : Node) (texts : List String) : Bool :=
  match n.child? .operator with
  | some op => texts.any fun t => op.kind == .token t
  | none => false

end Relay.Syntax
