import Relay.Syntax.ObjectForm

/-!
# Expressions

Expressions from the tightest form to the loosest: primary forms, accesses and
calls, prefix operators, powers, the levels of binary operators, the
conditional, assignments.  Operators of one level group to the left, so a chain
of them leans to the left in the tree.
-/

namespace Relay.Syntax.Expression

open Reading

/-- Reads an expression in parentheses. -/
def parenthesized (rules : Rules) : Reading Unit :=
  node .parenthesizedExpression do
    exactly "("
    item do
      Literal.sequence rules
      exactly ")"

/-- Reads the name of a property after a dot. -/
def propertyAfterDot (rules : Rules) : Reading Unit :=
  as .property do
    if ← at? "#" then Pattern.propertyName rules else wordAs .propertyIdentifier

/-- Reads the index of an access in brackets. -/
def index (rules : Rules) : Reading Unit := do
  exactly "["
  item do
    as .index (Literal.sequence rules)
    exactly "]"

/-- Reads one access by name or index, and says whether there was one. -/
def access? (rules : Rules) : Reading Bool := do
  if ← isMark "." then
    around .memberExpression .object do
      exactly "."
      propertyAfterDot rules
    return true
  else if ← at? "[" then
    around .subscriptExpression .object (index rules)
    return true
  else return false

/-- Reads an access or a call that is left out when its object is missing. -/
def optionalAccess (rules : Rules) : Reading Unit := do
  let i ← next
  let b ← source
  let after := Scan.tokenStart b (i + 2)
  let chain : Reading Unit := as .optionalChain (leaf .optionalChain i (i + 2))
  if Scan.spells b after "(" then
    around .callExpression .function do
      chain
      as .arguments (Parameter.arguments rules)
  else if (← dialect).typed && Scan.spells b after "<" then
    around .callExpression .function do
      chain
      as .typeArguments (Parameter.typeArguments rules)
      as .arguments (Parameter.arguments rules)
  else if Scan.spells b after "[" then
    around .subscriptExpression .object do
      chain
      index rules
  else if Scan.spells b after "`" then
    around .callExpression .function do
      chain
      as .arguments (Literal.template rules)
  else
    around .memberExpression .object do
      chain
      propertyAfterDot rules

/-- Reads a call with type arguments if one comes next. -/
def typedCall? (rules : Rules) : Reading Bool := do
  if (← dialect).typed && (← at? "<") then
    let follows : Reading Bool := do
      Parameter.typeArguments rules
      return (← at? "(") || (← at? "`")
    if ← ahead follows then
      around .callExpression .function do
        as .typeArguments (Parameter.typeArguments rules)
        as .arguments (if ← at? "(" then Parameter.arguments rules
          else Literal.template rules)
      return true
    else return false
  else return false

/-- Reads the accesses and calls that follow a primary form. -/
def suffixes (rules : Rules) : Reading Unit :=
  repeatWhile do
    if ← access? rules then return true
    else if ← isMark "?." then
      optionalAccess rules
      return true
    else if ← at? "(" then
      around .callExpression .function
        (as .arguments (Parameter.arguments rules))
      return true
    else if ← at? "`" then
      around .callExpression .function (as .arguments (Literal.template rules))
      return true
    else if (← dialect).typed && (← isMark "!") && !(← lineEndsHere) then
      enclose .nonNullExpression (exactly "!")
      return true
    else typedCall? rules

/-- Reads a leaf for one of the words that are expressions of their own. -/
def wordForm? : String → Option Kind
  | "this" => some .thisWord
  | "super" => some .superWord
  | "null" => some .nullWord
  | "true" => some .trueWord
  | "false" => some .falseWord
  | "undefined" => some .undefinedWord
  | _ => none

/-- Reads `import` where it stands in an expression. -/
def importForm : Reading Unit := do
  let b ← source
  let i ← next
  let after := Scan.tokenStart b (i + 6)
  if Scan.spells b after "(" then wordAs .importWord
  else
    node .metaProperty do
      keyword "import"
      exactly "."
      keyword "meta"

/-- Reads a primary form that needs no look at what follows it. -/
def simple (rules : Rules) : Reading Unit := do
  if ← at? "(" then parenthesized rules
  else if ← at? "[" then ObjectForm.array rules
  else if ← at? "\x7b" then ObjectForm.object rules
  else if ← Literal.isString then Literal.string
  else if ← at? "`" then Literal.template rules
  else if ← Literal.isNumber then Literal.number
  else if ← at? "/" then Literal.regex
  else if ← at? "#" then Pattern.propertyName rules
  else if ← at? "@" then ObjectForm.classForm rules false
  else if (← dialect).markup && (← at? "<") then rules .element
  else if ← Callable.isFunction then Callable.functionForm rules false
  else
    match ← word? with
    | none => stuck
    | some w =>
      match wordForm? w with
      | some kind => wordAs kind
      | none =>
        if w == "class" then ObjectForm.classForm rules false
        else if w == "import" then importForm
        else name .identifier

/-- Reads `new` with its constructor and arguments. -/
def construction (rules : Rules) : Reading Unit :=
  fun s c => go rules (s.bytes.size + 1) s c
where
  go (rules : Rules) : Nat → Reading Unit
    | 0 => stuck
    | fuel + 1 =>
      nodeOf do
        keyword "new"
        if ← skipMark "." then
          keyword "target"
          return .metaProperty
        else
          as .constructor do
            if ← isWord "new" then go rules fuel else simple rules
            repeatWhile (access? rules)
          if (← dialect).typed && (← at? "<") then
            discard
              (attempt (as .typeArguments (Parameter.typeArguments rules)))
          else pure ()
          if ← at? "(" then as .arguments (Parameter.arguments rules)
          else pure ()
          return .newExpression

/-- Reads a primary form with the accesses and calls that follow it. -/
def accessed (rules : Rules) : Reading Unit := do
  if ← isWord "new" then construction rules else simple rules
  suffixes rules

/-- Marks that are operators in front of an operand. -/
def prefixMarks : List String :=
  ["!", "~", "-", "+"]

/-- Words that are operators in front of an operand. -/
def prefixWords : List String :=
  ["typeof", "void", "delete"]

/-- Marks that an operand can start with. -/
def operandMarks : List String :=
  ["(", "[", "\x7b", "`", "/", "!", "~", "+", "-", "++", "--", "<", "@", "#"]

/-- An operand can start at the next token. -/
def startsOperand : Reading Bool := do
  if ← atEnd then return false
  else
    match ← word? with
    | some w =>
        return !(["in", "instanceof", "of", "as", "satisfies"].contains w)
    | none =>
      match ← mark? with
      | some m => return operandMarks.contains m
      | none => return (← Literal.isString) || (← Literal.isNumber)

/-- The word `await` is a name like any other before what can be an access or a
call of it; only the untyped dialect reads it so. -/
def isNameAwait (rules : Rules) : Reading Bool := do
  if (← dialect).typed then return false
  else if ← at? "(" then
    ahead do
      Parameter.arguments rules
      return !(← isMark "=>")
  else if ← at? "[" then
    ahead do
      index rules
      return true
  else at? "`"

/-- The next word waits for an operand that follows it. -/
def isAwait (rules : Rules) : Reading Bool := do
  if ← isWord "await" then
    ahead do
      keyword "await"
      if ← isNameAwait rules then return false else startsOperand
  else return false

/-- An arrow function starts at the next token.  The look ahead is only made
where one can start. -/
def startsArrow (rules : Rules) : Reading Bool := do
  if ← at? "(" then Callable.isArrow rules
  else if (← dialect).typed && (← at? "<") then Callable.isArrow rules
  else
    match ← word? with
    | some w =>
      if w == "async" then Callable.isArrow rules
      else if Scan.reservedWords.contains w then return false
      else
        ahead do
          wordAs .identifier
          isMark "=>"
    | none => return false

/-- Reads an operand with the operators in front of it and after it. -/
def unary (rules : Rules) : Reading Unit := do
  match ← mark? with
  | some m =>
    if prefixMarks.contains m then
      node .unaryExpression do
        as .operator (exactly m)
        as .argument (rules .unary)
    else if m == "++" || m == "--" then
      node .updateExpression do
        as .operator (exactly m)
        as .argument (rules .unary)
    else if m == "<" && !(← dialect).markup && !(← startsArrow rules) then
      node .typeAssertion do
        Parameter.typeArguments rules
        rules .unary
    else operand
  | none =>
    match ← word? with
    | some w =>
      if prefixWords.contains w then
        node .unaryExpression do
          as .operator (keyword w)
          as .argument (rules .unary)
      else if ← isAwait rules then
        node .awaitExpression do
          keyword "await"
          rules .unary
      else operand
    | none => operand
where
  operand : Reading Unit := do
    if ← startsArrow rules then Callable.arrow rules
    else
      accessed rules
      match ← mark? with
      | some m =>
        if (m == "++" || m == "--") && !(← lineEndsHere) then
          around .updateExpression .argument (as .operator (exactly m))
        else pure ()
      | none => pure ()

/-- Reads a power; powers group to the right. -/
def power (rules : Rules) : Reading Unit := do
  rules .unary
  if ← isMark "**" then
    around .binaryExpression .left do
      as .operator (exactly "**")
      as .right (rules .power)
  else pure ()

/-- The levels of binary operators, the tightest first. -/
def levels : List (List String) :=
  [["*", "/", "%"], ["+", "-"], ["<<", ">>", ">>>"],
    ["<", ">", "<=", ">=", "instanceof", "in"], ["==", "!=", "===", "!=="],
    ["&"], ["^"], ["|"], ["&&"], ["||"], ["??"]]

/-- The operator that comes next: a mark, or a word that is one. -/
def operator? : Reading (Option String) := do
  match ← mark? with
  | some m => return some m
  | none => word?

/-- Reads a change of type after an operand, and says whether there was one. -/
def typeChange? (rules : Rules) : Reading Bool := do
  if (← dialect).typed && !(← lineEndsHere) then
    if ← isWord "as" then
      enclose .asExpression do
        keyword "as"
        if ← isWord "const" then keyword "const" else rules .type
      return true
    else if ← isWord "satisfies" then
      enclose .satisfiesExpression do
        keyword "satisfies"
        rules .type
      return true
    else return false
  else return false

/-- Reads operands joined by the operators of some levels, given with the
loosest first. -/
def joined (rules : Rules) : List (List String) → Reading Unit
  | [] => rules .power
  | level :: tighter => do
    joined rules tighter
    repeatWhile do
      match ← operator? with
      | some op =>
        if level.contains op then
          around .binaryExpression .left do
            as .operator (exactly op)
            as .right (joined rules tighter)
          return true
        else if level.contains "<" then typeChange? rules
        else return false
      | none => return false

/-- Reads operands joined by binary operators. -/
def binary (rules : Rules) : Reading Unit :=
  joined rules levels.reverse

/-- Reads a conditional, or the condition alone. -/
def conditional (rules : Rules) : Reading Unit := do
  binary rules
  if ← isMark "?" then
    around .ternaryExpression .condition do
      exactly "?"
      as .consequence (rules .expression)
      exactly ":"
      as .alternative (rules .expression)
  else pure ()

/-- Operators that assign to what stands on their left as well as read it. -/
def compoundAssignments : List String :=
  ["+=", "-=", "*=", "/=", "%=", "**=", "<<=", ">>=", ">>>=", "&=", "^=", "|=",
    "&&=", "||=", "??="]

/-- The node as the left side of an assignment. -/
def assignable? (n : Node) : Option Node :=
  match n.kind with
  | .parenthesizedExpression => some n
  | .object | .array => Pattern.toPattern? n
  | kind => if Pattern.isTarget kind then some n else none

/-- The node as the left side of a compound assignment. -/
def updatable (n : Node) : Bool :=
  match n.kind with
  | .identifier | .undefinedWord | .memberExpression | .subscriptExpression
  | .parenthesizedExpression | .nonNullExpression => true
  | _ => false

/-- Reads the right side of an assignment if an equals sign or its like comes
next. -/
def assignmentRest (rules : Rules) : Reading Unit := do
  match ← mark?, ← latest? with
  | some m, some left =>
    if m == "=" then
      match assignable? left with
      | some target =>
        replaceLatest target
        around .assignmentExpression .left do
          exactly "="
          as .right (rules .expression)
      | none => stuck
    else if compoundAssignments.contains m then
      if updatable left then
        around .augmentedAssignmentExpression .left do
          as .operator (exactly m)
          as .right (rules .expression)
      else stuck
    else pure ()
  | _, _ => pure ()

/-- Reads `yield` with what it hands out. -/
def handOut (rules : Rules) : Reading Unit :=
  node .yieldExpression do
    keyword "yield"
    if ← skipMark "*" then rules .expression
    else if (← startsOperand) && !(← lineEndsHere) then rules .expression
    else pure ()

/-- Reads an expression without commas. -/
def expression (rules : Rules) : Reading Unit := do
  if ← isWord "yield" then handOut rules
  else
    conditional rules
    assignmentRest rules

end Relay.Syntax.Expression
