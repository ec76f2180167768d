import Relay.Syntax.Pattern

/-!
# Parameters and decorators

The parts that a function puts around its body: type parameters, parameters and
a result type.  In a typed dialect every parameter is a node of its own around
its pattern, type and default.
-/

namespace Relay.Syntax.Parameter

open Reading

/-- Reads a colon and a type. -/
def typeNote (rules : Rules) : Reading Unit :=
  node .typeNote do
    exactly ":"
    rules .type

/-- Reads a type annotation if one comes next. -/
def typeNote? (rules : Rules) : Reading Unit := do
  if (← dialect).typed && (← at? ":") then as .type (typeNote rules)
    else pure ()

/-- Reads one type parameter with its bound and its default. -/
def typeParameter (rules : Rules) : Reading Unit :=
  node .typeParameter do
    if ← ahead isConst then keyword "const" else pure ()
    as .name (wordAs .typeIdentifier)
    if ← isWord "extends" then
      node .constraint do
        keyword "extends"
        rules .type
    else pure ()
    if ← isMark "=" then
      node .defaultType do
        exactly "="
        rules .type
    else pure ()
where
  isConst : Reading Bool := do
    keyword "const"
    return (← word?).isSome

/-- Reads type parameters in angle brackets. -/
def typeParameters (rules : Rules) : Reading Unit :=
  node .typeParameters do
    exactly "<"
    listed ">" (typeParameter rules)

/-- Reads type parameters if they come next. -/
def typeParameters? (rules : Rules) : Reading Unit := do
  if (← dialect).typed && (← at? "<") then
    as .typeParameters (typeParameters rules) else pure ()

/-- Reads type arguments in angle brackets. -/
def typeArguments (rules : Rules) : Reading Unit :=
  node .typeArguments do
    exactly "<"
    listed ">" (rules .type)

/-- Reads the arguments of a call. -/
def arguments (rules : Rules) : Reading Unit :=
  node .arguments do
    exactly "("
    commaSeparated ")" do
      if ← isMark "..." then
        node .spreadElement do
          exactly "..."
          rules .expression
      else rules .expression

/-- Reads a decorator: a name, an access or a call of one, or an expression in
parentheses. -/
def decorator (rules : Rules) : Reading Unit :=
  node .decorator do
    exactly "@"
    if ← at? "(" then
      node .parenthesizedExpression do
        exactly "("
        Literal.sequence rules
        exactly ")"
    else
      name .identifier
      repeatWhile do
        if ← isMark "." then
          around .memberExpression .object do
            exactly "."
            as .property (wordAs .propertyIdentifier)
          return true
        else if (← dialect).typed && (← at? "<") then
          around .callExpression .function do
            as .typeArguments (typeArguments rules)
            as .arguments (arguments rules)
          return true
        else if ← at? "(" then
          around .callExpression .function (as .arguments (arguments rules))
          return true
        else return false

/-- Reads the decorators that come next. -/
def decorators (rules : Rules) : Reading Unit :=
  repeatWhile do
    if ← at? "@" then
      as .decorator (decorator rules)
      return true
    else return false

/-- Words that say who may use a member. -/
def accessWords : List String :=
  ["public", "private", "protected"]

/-- The next word is followed by something that can be named, so that it is a
modifier. -/
def isModifier (words : List String) : Reading Bool := do
  match ← word? with
  | some w => if words.contains w then ahead named else return false
  | none => return false
where
  named : Reading Bool := do
    wordAs .identifier
    if ← isMark "..." then return true
    else if ← at? "*" then return true
    else if ← at? "\x7b" then return true
    else Pattern.isPropertyName

/-- Reads the modifiers in front of a parameter or a member. -/
def modifiers (words : List String) : Reading Unit :=
  repeatWhile do
    if ← isModifier words then
      match ← word? with
      | some w =>
        if accessWords.contains w then node .accessibilityModifier (keyword w)
        else if w == "override" then node .overrideModifier (keyword w)
        else keyword w
        return true
      | none => return false
    else return false

/-- Reads the pattern of a parameter. -/
def pattern (rules : Rules) : Reading Unit := do
  if ← isMark "..." then Pattern.rest rules
  else if ← isWord "this" then wordAs .thisWord
  else rules .binding

/-- Reads one parameter of a typed dialect. -/
def typedParameter (rules : Rules) : Reading Unit :=
  nodeOf do
    decorators rules
    modifiers (accessWords ++ ["override", "readonly"])
    as .pattern (pattern rules)
    let optional ← skipMark "?"
    typeNote? rules
    if ← skipMark "=" then as .value (rules .expression) else pure ()
    return if optional then .optionalParameter else .requiredParameter

/-- Reads one parameter. -/
def parameter (rules : Rules) : Reading Unit := do
  if (← dialect).typed then typedParameter rules
  else if ← isMark "..." then Pattern.rest rules
  else
    rules .binding
    Pattern.withDefault rules .assignmentPattern

/-- Reads parameters in parentheses. -/
def parameters (rules : Rules) : Reading Unit :=
  node .formalParameters do
    exactly "("
    listed ")" (parameter rules)

/-- Reads the result type of a function, which can also say what the function
finds out about a parameter. -/
def returnType? (rules : Rules) : Reading Unit := do
  if (← dialect).typed && (← at? ":") then
    if ← ahead predicate then
      as .returnType do
        node .typePredicateNote do
          exactly ":"
          node .typePredicate do
            as .name word
            keyword "is"
            as .type (rules .type)
    else if ← ahead assertion then
      as .returnType do
        node .assertsNote do
          exactly ":"
          node .asserts do
            keyword "asserts"
            if ← ahead (predicateOf word) then
              node .typePredicate do
                as .name word
                keyword "is"
                as .type (rules .type)
            else word
    else as .returnType (typeNote rules)
  else pure ()
where
  word : Reading Unit := do
    if ← isWord "this" then wordAs .thisWord else wordAs .identifier
  predicateOf (p : Reading Unit) : Reading Bool := do
    p
    if ← lineEndsHere then return false else isWord "is"
  predicate : Reading Bool := do
    exactly ":"
    predicateOf word
  assertion : Reading Bool := do
    exactly ":"
    keyword "asserts"
    return (← word?).isSome && !(← lineEndsHere)

/-- Reads type parameters, parameters and result type of a function. -/
def signature (rules : Rules) : Reading Unit := do
  typeParameters? rules
  as .parameters (parameters rules)
  returnType? rules

end Relay.Syntax.Parameter
