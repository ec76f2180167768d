import Relay.Syntax.Literal

/-!
# Patterns

A pattern binds names to parts of a value.  A declaration is read as a pattern
at once.  On the left of an assignment the reader sees an object or an array
first and turns it into a pattern when it meets the equals sign; `toPattern?`
does that, and refuses what cannot be assigned to.
-/

namespace Relay.Syntax.Pattern

open Reading

/-- Reads the name of a property: a word, a private name, a string, a number or
an expression in brackets. -/
def propertyName (rules : Rules) : Reading Unit := do
  if ← Literal.isString then Literal.string
  else if ← at? "[" then
    node .computedPropertyName do
      exactly "["
      rules .expression
      exactly "]"
  else if ← at? "#" then privateName
  else if ← Literal.isNumber then Literal.number
  else wordAs .propertyIdentifier
where
  privateName : Reading Unit := do
    let b ← source
    let i ← next
    let j := Scan.wordEnd b (i + 1)
    if i + 1 < j then leaf .privatePropertyIdentifier i j else stuck

/-- A property name can start at the next token. -/
def isPropertyName : Reading Bool := do
  if (← word?).isSome then return true
  else if ← Literal.isString then return true
  else if ← Literal.isNumber then return true
  else return (← at? "[") || (← at? "#")

/-- Reads a default after a pattern, and puts both into a node of a kind. -/
def withDefault (rules : Rules) (kind : Kind) : Reading Unit := do
  if ← isMark "=" then
    around kind .left do
      exactly "="
      as .right (rules .expression)
  else pure ()

/-- Reads three dots and the pattern for all that is left. -/
def rest (rules : Rules) : Reading Unit :=
  node .restPattern do
    exactly "..."
    rules .binding

/-- Reads one entry of an object pattern. -/
def objectEntry (rules : Rules) : Reading Unit := do
  if ← isMark "..." then rest rules
  else if ← ahead plain then
    name .shorthandPropertyIdentifierPattern
    withDefault rules .objectAssignmentPattern
  else
    node .pairPattern do
      as .key (propertyName rules)
      exactly ":"
      as .value do
        rules .binding
        withDefault rules .assignmentPattern
where
  plain : Reading Bool := do
    wordAs .identifier
    return !(← isMark ":")

/-- Reads a pattern of a declaration or a parameter. -/
def binding (rules : Rules) : Reading Unit := do
  if ← at? "\x7b" then
    node .objectPattern do
      exactly "\x7b"
      commaSeparated "\x7d" (objectEntry rules)
  else if ← at? "[" then
    node .arrayPattern do
      exactly "["
      commaSeparated "]" do
        if ← isMark "..." then rest rules
        else
          rules .binding
          withDefault rules .assignmentPattern
  else name .identifier

/-- Kinds that can be assigned to as they are. -/
def isTarget : Kind → Bool
  | .identifier | .undefinedWord | .memberExpression | .subscriptExpression
  | .nonNullExpression | .objectPattern | .arrayPattern => true
  | _ => false

mutual

/-- The pattern that an expression on the left of an assignment stands for. -/
def toPattern? : Node → Option Node
  | ⟨.object, r, a, b, children⟩ => do
    return ⟨.objectPattern, r, a, b, ← toPatterns? children⟩
  | ⟨.array, r, a, b, children⟩ => do
    return ⟨.arrayPattern, r, a, b, ← toPatterns? children⟩
  | ⟨.pair, r, a, b, children⟩ => do
    return ⟨.pairPattern, r, a, b, ← toPairPatterns? children⟩
  | ⟨.assignmentExpression, r, a, b, children⟩ =>
    some ⟨.assignmentPattern, r, a, b, children⟩
  | ⟨.spreadElement, r, a, b, children⟩ => do
    return ⟨.restPattern, r, a, b, ← toPatterns? children⟩
  | ⟨.shorthandPropertyIdentifier, r, a, b, children⟩ =>
    some ⟨.shorthandPropertyIdentifierPattern, r, a, b, children⟩
  | ⟨.objectAssignmentPattern, r, a, b, children⟩ =>
    some ⟨.objectAssignmentPattern, r, a, b, children⟩
  | ⟨.token t, r, a, b, children⟩ => some ⟨.token t, r, a, b, children⟩
  | ⟨kind, r, a, b, children⟩ =>
    if isTarget kind then some ⟨kind, r, a, b, children⟩ else none

/-- The patterns of the parts of an object or an array. -/
def toPatterns? : List Node → Option (List Node)
  | [] => some []
  | n :: rest => do
    let p ← toPattern? n
    return p :: (← toPatterns? rest)

/-- In a pair only the value becomes a pattern. -/
def toPairPatterns? : List Node → Option (List Node)
  | [] => some []
  | n :: rest => do
    let p ← if n.role = some .value then toPattern? n else some n
    return p :: (← toPairPatterns? rest)

end

end Relay.Syntax.Pattern
