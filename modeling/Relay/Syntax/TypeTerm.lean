import Relay.Syntax.Parameter

/-!
# Types

The types of the typed dialects.  No analysis looks into a type, apart from the
accesses after `typeof`, but a type has to be read to know where it ends.
-/

namespace Relay.Syntax.TypeTerm

open Reading

/-- Names of the types that are built in. -/
def predefined : List String :=
  ["any", "number", "boolean", "string", "symbol", "void", "unknown", "never",
    "object", "bigint"]

/-- Reads a name with dots and type arguments. -/
def reference (rules : Rules) : Reading Unit := do
  wordAs .typeIdentifier
  repeatWhile do
    if ← isMark "." then
      enclose .nestedTypeIdentifier do
        exactly "."
        as .name (wordAs .typeIdentifier)
      return true
    else return false
  if (← at? "<") && !(← lineEndsHere) then
    around .genericType .name
      (as .typeArguments (Parameter.typeArguments rules))
  else pure ()

/-- Reads the value whose type is meant after `typeof`. -/
def query (rules : Rules) : Reading Unit :=
  node .typeQuery do
    keyword "typeof"
    if ← isWord "this" then wordAs .thisWord
    else if ← isWord "import" then
      wordAs .importWord
      around .callExpression .function
        (as .arguments (Parameter.arguments rules))
    else wordAs .identifier
    repeatWhile do
      if ← isMark "." then
        around .memberExpression .object do
          exactly "."
          as .property do
            if ← at? "#" then Pattern.propertyName rules
            else wordAs .propertyIdentifier
        return true
      else return false
    if ← at? "<" then as .typeArguments (Parameter.typeArguments rules)
      else pure ()

/-- Reads the sign of a mapped type (`?`, `-?`, `+?`) or of an optional
member. -/
def optionalSign : Reading Unit := do
  if ← skipMark "?" then pure ()
  else if (← isMark "-") || (← isMark "+") then
    discard (skipMark "-")
    discard (skipMark "+")
    mark "?"
  else pure ()

/-- Reads a member of an object type that starts with a bracket: an index
signature or a mapped type. -/
def indexMember (rules : Rules) : Reading Unit :=
  node .indexSignature do
    if ← Parameter.isModifier ["readonly"] then keyword "readonly" else pure ()
    exactly "["
    if ← ahead mapped then
      node .mappedTypeClause do
        as .name (wordAs .typeIdentifier)
        keyword "in"
        as .type (rules .type)
        if ← skipWord "as" then rules .type else pure ()
    else
      as .name (wordAs .identifier)
      exactly ":"
      rules .type
    exactly "]"
    optionalSign
    if ← at? ":" then as .type (Parameter.typeNote rules) else pure ()
where
  mapped : Reading Bool := do
    wordAs .identifier
    isWord "in"

/-- The next tokens open an index signature or a mapped type. -/
def isIndexMember : Reading Bool :=
  ahead do
    discard (skipWord "readonly")
    exactly "["
    wordAs .identifier
    return (← isMark ":") || (← isWord "in")

/-- Reads a member of an object type. -/
def member (rules : Rules) : Reading Unit := do
  if ← isIndexMember then indexMember rules
  else if (← at? "(") || (← at? "<") then
    node .callSignature (Parameter.signature rules)
  else if ← ahead construct then
    node .constructSignature do
      keyword "new"
      Parameter.signature rules
  else
    nodeOf do
      Parameter.modifiers (Parameter.accessWords ++
        ["readonly", "static", "get", "set", "async"])
      as .name (Pattern.propertyName rules)
      discard (skipMark "?")
      if (← at? "(") || (← at? "<") then
        Parameter.signature rules
        return .methodSignature
      else
        Parameter.typeNote? rules
        return .propertySignature
where
  construct : Reading Bool := do
    keyword "new"
    return (← at? "(") || (← at? "<")

/-- Reads the members of an object type, separated by semicolons, commas or
line ends. -/
def objectBody (rules : Rules) (kind : Kind) : Reading Unit :=
  node kind do
    exactly "\x7b"
    repeatWhile do
      if ← at? "\x7d" then return false
      else if ← skipMark ";" then return true
      else if ← skipMark "," then return true
      else
        member rules
        if (← at? "\x7d") || (← isMark ";") || (← isMark ",") ||
          (← lineEndsHere) then return true
        else stuck
    exactly "\x7d"

/-- Reads one member of a tuple type. -/
def tupleMember (rules : Rules) : Reading Unit := do
  if ← isMark "..." then
    node .restType do
      exactly "..."
      if ← ahead labelled then
        wordAs .identifier
        exactly ":"
      else pure ()
      rules .type
  else if ← ahead labelled then
    nodeOf do
      as .name (wordAs .identifier)
      let optional ← skipMark "?"
      as .type (Parameter.typeNote rules)
      return if optional then .optionalParameter else .requiredParameter
  else
    rules .type
    if ← isMark "?" then enclose .optionalType (exactly "?") else pure ()
where
  labelled : Reading Bool := do
    wordAs .identifier
    discard (skipMark "?")
    isMark ":"

/-- Reads a literal that is a type of its own. -/
def literal (rules : Rules) : Reading Unit := do
  if ← Literal.isString then node .literalType Literal.string
  else if ← at? "`" then node .literalType (Literal.template rules)
  else if ← isMark "-" then
    node .literalType do
      node .unaryExpression do
        as .operator (exactly "-")
        as .argument Literal.number
  else node .literalType Literal.number

/-- Reads a type that is not built from others by an operator. -/
def primary (rules : Rules) : Reading Unit := do
  if ← at? "\x7b" then objectBody rules .objectType
  else if ← at? "[" then
    node .tupleType do
      exactly "["
      listed "]" (tupleMember rules)
  else if ← at? "(" then
    node .parenthesizedType do
      exactly "("
      rules .type
      exactly ")"
  else
    match ← word? with
    | none => literal rules
    | some w =>
      if w == "typeof" then query rules
      else if w == "this" then node .thisType (keyword w)
      else if w == "true" then node .literalType (wordAs .trueWord)
      else if w == "false" then node .literalType (wordAs .falseWord)
      else if w == "null" then node .literalType (wordAs .nullWord)
      else if w == "undefined" then node .literalType (wordAs .undefinedWord)
      else if w == "import" then
        wordAs .importWord
        around .callExpression .function
          (as .arguments (Parameter.arguments rules))
        if ← isMark "." then
          enclose .nestedTypeIdentifier do
            exactly "."
            as .name (reference rules)
        else pure ()
      else if predefined.contains w then node .predefinedType (keyword w)
      else if Scan.reservedWords.contains w then stuck
      else reference rules

/-- Reads a type with the array and look-up brackets after it. -/
def suffixed (rules : Rules) : Reading Unit := do
  primary rules
  repeatWhile do
    if (← at? "[") && !(← lineEndsHere) then
      if ← ahead empty then
        enclose .arrayType do
          exactly "["
          exactly "]"
      else
        enclose .lookupType do
          exactly "["
          rules .type
          exactly "]"
      return true
    else return false
where
  empty : Reading Bool := do
    exactly "["
    at? "]"

/-- Words that change the type after them, with the kind of the result. -/
def operators : List (String × Kind) :=
  [("keyof", .indexTypeQuery), ("readonly", .readonlyType),
    ("unique", .readonlyType), ("infer", .inferType)]

/-- Reads a type with the operator words in front of it. -/
def operand (rules : Rules) : Reading Unit :=
  fun s c => go rules (s.bytes.size + 1) s c
where
  go (rules : Rules) : Nat → Reading Unit
    | 0 => stuck
    | fuel + 1 => do
      match ← word? with
      | some w =>
        match operators.lookup w with
        | some kind =>
          if ← ahead followed then
            node kind do
              keyword w
              go rules fuel
              if w == "infer" && (← isWord "extends") then
                discard (attempt (bound rules))
              else pure ()
          else suffixed rules
        | none => suffixed rules
      | none => suffixed rules
  followed : Reading Bool := do
    wordAs .identifier
    if ← lineEndsHere then return false
    else if (← word?).isSome then return true
    else return (← at? "\x7b") || (← at? "[") || (← at? "(") ||
      (← Literal.isString)
  bound (rules : Rules) : Reading Unit := do
    node .constraint do
      keyword "extends"
      suffixed rules
    if ← isMark "?" then stuck else pure ()

/-- Reads types joined by an operator mark; one may also stand in front. -/
def joined (sign : String) (kind : Kind) (part : Reading Unit) :
    Reading Unit := do
  if ← isMark sign then
    node kind do
      exactly sign
      part
  else part
  repeatWhile do
    if ← isMark sign then
      enclose kind do
        exactly sign
        part
      return true
    else return false

/-- Reads a union of intersections. -/
def union (rules : Rules) : Reading Unit :=
  joined "|" .unionType (joined "&" .intersectionType (operand rules))

/-- Reads a function type if one comes next. -/
def functionType? (rules : Rules) : Reading Bool := do
  let constructing :=
    (← isWord "new") || ((← isWord "abstract") && (← ahead abstractNew))
  if constructing then
    node .constructorType do
      discard (skipWord "abstract")
      keyword "new"
      body rules
    return true
  else if (← at? "(") || (← at? "<") then
    return (← attempt (node .functionType (body rules))).isSome
  else return false
where
  abstractNew : Reading Bool := do
    keyword "abstract"
    isWord "new"
  body (rules : Rules) : Reading Unit := do
    Parameter.typeParameters? rules
    as .parameters (Parameter.parameters rules)
    exactly "=>"
    as .returnType do
      if ← ahead predicate then
        node .typePredicate do
          as .name (wordAs .identifier)
          keyword "is"
          as .type (rules .type)
      else rules .type
  predicate : Reading Bool := do
    wordAs .identifier
    isWord "is"

/-- Reads a type. -/
def type (rules : Rules) : Reading Unit := do
  if ← functionType? rules then pure ()
  else
    union rules
    if (← isWord "extends") && !(← lineEndsHere) then
      discard <| attempt do
        around .conditionalType .left do
          keyword "extends"
          as .right (union rules)
          exactly "?"
          as .consequence (rules .type)
          exactly ":"
          as .alternative (rules .type)
    else pure ()

end Relay.Syntax.TypeTerm
