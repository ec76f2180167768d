import Relay.Syntax.Callable

/-!
# Objects and classes

The entries of an object literal and the members of a class.  Both start with
modifiers and a name, and what follows the name tells a method from a pair or a
field.
-/

namespace Relay.Syntax.ObjectForm

open Reading

/-- Reads what follows the name of a method. -/
def methodRest (rules : Rules) : Reading Unit := do
  Parameter.signature rules
  as .body (Callable.block rules)

/-- The next token opens the parameters of a method. -/
def isMethodRest : Reading Bool := do
  if ← at? "(" then return true
  else return (← dialect).typed && (← at? "<")

/-- The next word stands for itself: no colon and no parameters follow it. -/
def isShorthand : Reading Bool :=
  ahead do
    name .identifier
    return !((← isMark ":") || (← isMethodRest))

/-- Reads one entry of an object literal.  A shorthand with a default is read
as the part of a pattern that it can only be. -/
def entry (rules : Rules) : Reading Unit := do
  if ← isMark "..." then
    node .spreadElement do
      exactly "..."
      rules .expression
  else if !(← Parameter.isModifier ["get", "set", "async"]) &&
      (← isShorthand) then
    if ← ahead defaulted then
      name .shorthandPropertyIdentifierPattern
      Pattern.withDefault rules .objectAssignmentPattern
    else name .shorthandPropertyIdentifier
  else
    nodeOf do
      Parameter.modifiers ["get", "set", "async"]
      discard (skipMark "*")
      if ← ahead isMethod then
        as .name (Pattern.propertyName rules)
        methodRest rules
        return .methodDefinition
      else
        as .key (Pattern.propertyName rules)
        exactly ":"
        as .value (rules .expression)
        return .pair
where
  defaulted : Reading Bool := do
    wordAs .identifier
    isMark "="
  isMethod : Reading Bool := do
    Pattern.propertyName rules
    isMethodRest

/-- Reads an object literal. -/
def object (rules : Rules) : Reading Unit :=
  node .object do
    exactly "\x7b"
    commaSeparated "\x7d" (entry rules)

/-- Reads an array literal. -/
def array (rules : Rules) : Reading Unit :=
  node .array do
    exactly "["
    commaSeparated "]" do
      if ← isMark "..." then
        node .spreadElement do
          exactly "..."
          rules .expression
      else rules .expression

/-- Words in front of a member of a class. -/
def memberWords : List String :=
  ["static", "async", "get", "set"]

/-- Words in front of a member of a class in a typed dialect. -/
def typedMemberWords : List String :=
  memberWords ++ Parameter.accessWords
    ++ ["override", "readonly", "abstract", "declare", "accessor"]

/-- The next tokens open a block of statements that run once for the class. -/
def isStaticBlock : Reading Bool :=
  ahead do
    keyword "static"
    at? "\x7b"

/-- The modifiers in front of a member hold the word `abstract`. -/
def isAbstract : Reading Bool :=
  ahead do
    Parameter.modifiers (typedMemberWords.filter (· != "abstract"))
    isWord "abstract"

/-- Reads one member of a class. -/
def member (rules : Rules) : Reading Unit := do
  let typed := (← dialect).typed
  if ← isStaticBlock then
    node .classStaticBlock do
      keyword "static"
      as .body (Callable.block rules)
  else
    nodeOf do
      Parameter.decorators rules
      let abstract ← isAbstract
      Parameter.modifiers (if typed then typedMemberWords else memberWords)
      discard (skipMark "*")
      as .name (Pattern.propertyName rules)
      if typed then
        if ← skipMark "?" then pure () else discard (skipMark "!")
      else pure ()
      if ← isMethodRest then
        Parameter.signature rules
        if typed && !(← at? "\x7b") then
          return if abstract then .abstractMethodSignature else .methodSignature
        else
          as .body (Callable.block rules)
          return .methodDefinition
      else
        Parameter.typeNote? rules
        if ← skipMark "=" then as .value (rules .expression) else pure ()
        return if typed then .publicFieldDefinition else .fieldDefinition

/-- Reads an index signature of a class in a typed dialect. -/
def indexSignature (rules : Rules) : Reading Unit :=
  node .indexSignature do
    Parameter.modifiers typedMemberWords
    exactly "["
    as .name (wordAs .identifier)
    exactly ":"
    rules .type
    exactly "]"
    Parameter.typeNote? rules

/-- The next tokens open an index signature. -/
def isIndexSignature : Reading Bool :=
  ahead do
    Parameter.modifiers typedMemberWords
    exactly "["
    wordAs .identifier
    return (← dialect).typed && (← isMark ":")

/-- Members that end like a statement. -/
def endsLikeStatement : Option Node → Bool
  | some n =>
    match n.kind with
    | .fieldDefinition | .publicFieldDefinition | .methodSignature
    | .abstractMethodSignature
    | .indexSignature => true
    | _ => false
  | none => false

/-- Reads the members of a class. -/
def classBody (rules : Rules) : Reading Unit :=
  node .classBody do
    exactly "\x7b"
    repeatWhile do
      if ← at? "\x7d" then return false
      else if ← skipMark ";" then return true
      else
        item do
          as .member (if ← isIndexSignature then indexSignature rules
            else member rules)
          if endsLikeStatement (← latest?) then semicolon else pure ()
          return true
    exactly "\x7d"

/-- Reads what a class extends and implements. -/
def heritage (rules : Rules) : Reading Unit := do
  if (← isWord "extends") || ((← dialect).typed && (← isWord "implements")) then
    node .classHeritage do
      if (← dialect).typed then
        if ← isWord "extends" then
          node .extendsClause do
            keyword "extends"
            as .value (rules .unary)
            if ← at? "<" then as .typeArguments (Parameter.typeArguments rules)
            else pure ()
        else pure ()
        if ← isWord "implements" then
          node .implementsClause do
            keyword "implements"
            rules .type
            repeatWhile do
              if ← skipMark "," then
                rules .type
                return true
              else return false
        else pure ()
      else
        keyword "extends"
        rules .unary
  else pure ()

/-- A name follows the keyword of a class, rather than what it extends. -/
def isClassName : Reading Bool := do
  match ← word? with
  | some w => return !(w == "extends" || w == "implements")
  | none => return false

/-- Reads a class.  A class with a name is a declaration where one may stand. -/
def classForm (rules : Rules) (declares : Bool) : Reading Unit :=
  nodeOf do
    Parameter.decorators rules
    let abstract ← skipWord "abstract"
    keyword "class"
    let typed := (← dialect).typed
    if ← isClassName then
      as .name (name (if typed then .typeIdentifier else .identifier))
    else pure ()
    Parameter.typeParameters? rules
    heritage rules
    as .body (classBody rules)
    return if abstract then .abstractClassDeclaration
      else if declares then .classDeclaration
      else .classExpression

end Relay.Syntax.ObjectForm
