import Relay.Syntax.Expression
import Relay.Syntax.TypeTerm

/-!
# Statements

Declarations, control flow, imports and exports.  The first word of a statement
mostly decides which form it has; words that are also names decide only
together with what follows them.
-/

namespace Relay.Syntax.Statement

open Reading

/-- Reads one declared variable with its type and value. -/
def declarator (rules : Rules) : Reading Unit :=
  node .variableDeclarator do
    as .name (rules .binding)
    if (← dialect).typed then discard (skipMark "!") else pure ()
    Parameter.typeNote? rules
    if ← skipMark "=" then as .value (rules .expression) else pure ()

/-- Reads declared variables with commas between them. -/
def declarators (rules : Rules) : Reading Unit := do
  declarator rules
  repeatWhile do
    if ← skipMark "," then
      declarator rules
      return true
    else return false

/-- The kind of declaration that a word opens. -/
def declarationKind (w : String) : Kind :=
  if w == "var" then .variableDeclaration else .lexicalDeclaration

/-- Reads the word that opens a declaration of variables. -/
def declarationWord (w : String) : Reading Unit := do
  if w == "var" then keyword w else as .kind (keyword w)

/-- Reads a declaration of variables. -/
def variableForm (rules : Rules) (w : String) : Reading Unit :=
  node (declarationKind w) do
    declarationWord w
    declarators rules
    semicolon

/-- The word `let` opens a declaration: a name or a pattern follows it. -/
def isLet : Reading Bool := do
  if ← isWord "let" then
    ahead do
      keyword "let"
      match ← word? with
      | some w => return !(["in", "of", "instanceof", "as"].contains w)
      | none => return (← at? "[") || (← at? "\x7b")
  else return false

/-- The word of a declaration of variables that comes next. -/
def variableWord? : Reading (Option String) := do
  if ← isWord "var" then return some "var"
  else if ← isWord "const" then return some "const"
  else if ← isLet then return some "let"
  else return none

/-- Reads an expression as a statement. -/
def plain (rules : Rules) : Reading Unit :=
  node .expressionStatement do
    Literal.sequence rules
    semicolon

/-- Reads a condition in parentheses. -/
def condition (rules : Rules) (r : Role) : Reading Unit :=
  as r (Expression.parenthesized rules)

/-- Reads `if` with its branches. -/
def choice (rules : Rules) : Reading Unit :=
  node .ifStatement do
    keyword "if"
    condition rules .condition
    as .consequence (rules .statement)
    if ← isWord "else" then
      as .alternative do
        node .elseClause do
          keyword "else"
          rules .statement
    else pure ()

/-- Reads statements up to a word or the end of the cases. -/
def caseBody (rules : Rules) : Reading Unit :=
  repeatWhile do
    if (← isWord "case") || (← isWord "default") || (← at? "\x7d") then
      return false
    else
      as .body (rules .statement)
      return true

/-- Reads `switch` with its cases. -/
def cases (rules : Rules) : Reading Unit :=
  node .switchStatement do
    keyword "switch"
    condition rules .value
    as .body do
      node .switchBody do
        exactly "\x7b"
        repeatWhile do
          if ← isWord "case" then
            node .switchCase do
              keyword "case"
              as .value (Literal.sequence rules)
              exactly ":"
              caseBody rules
            return true
          else if ← isWord "default" then
            node .switchDefault do
              keyword "default"
              exactly ":"
              caseBody rules
            return true
          else return false
        exactly "\x7d"

/-- Reads an optional expression and a semicolon, in the head of a loop. -/
def loopPart (rules : Rules) (r : Role) : Reading Unit := do
  if ← isMark ";" then as r (node .emptyStatement (exactly ";"))
  else
    as r (Literal.sequence rules)
    exactly ";"

/-- Reads the rest of the head of a loop over the members of something. -/
def memberLoop (rules : Rules) : Reading Unit := do
  if ← isWord "of" then as .operator (keyword "of")
  else as .operator (keyword "in")
  as .right (Literal.sequence rules)
  exactly ")"

/-- The next word says that a loop goes over the members of something. -/
def isMemberLoop : Reading Bool := do
  return (← isWord "of") || (← isWord "in")

/-- Reads the rest of the head of a counting loop, after its first part. -/
def countingLoop (rules : Rules) : Reading Unit := do
  loopPart rules .condition
  if ← at? ")" then pure () else as .increment (Literal.sequence rules)
  exactly ")"

/-- The head of a loop declares a variable for every member. -/
def declaresMember (rules : Rules) (w : String) : Reading Bool :=
  ahead do
    keyword w
    rules .binding
    isMemberLoop

/-- The head of a loop assigns every member to what comes next. -/
def assignsMember (rules : Rules) : Reading Bool :=
  ahead do
    Expression.accessed rules
    isMemberLoop

/-- Reads a loop with `for`. -/
def loop (rules : Rules) : Reading Unit :=
  nodeOf do
    keyword "for"
    discard (skipWord "await")
    exactly "("
    let kind : Kind ← do
      match ← variableWord? with
      | some w =>
        if ← declaresMember rules w then
          as .kind (keyword w)
          as .left (rules .binding)
          memberLoop rules
          pure Kind.forInStatement
        else
          as .initializer do
            node (declarationKind w) do
              declarationWord w
              declarators rules
              exactly ";"
          countingLoop rules
          pure Kind.forStatement
      | none =>
        if ← assignsMember rules then
          Expression.accessed rules
          match ← latest? with
          | some n =>
            match Expression.assignable? n with
            | some target => replaceLatest (target.withRole .left)
            | none => stuck
          | none => stuck
          memberLoop rules
          pure Kind.forInStatement
        else
          loopPart rules .initializer
          countingLoop rules
          pure Kind.forStatement
    as .body (rules .statement)
    return kind

/-- Reads `try` with its handlers. -/
def guarded (rules : Rules) : Reading Unit :=
  node .tryStatement do
    keyword "try"
    as .body (Callable.block rules)
    if ← isWord "catch" then
      as .handler do
        node .catchClause do
          keyword "catch"
          if ← at? "(" then
            exactly "("
            as .parameter (rules .binding)
            Parameter.typeNote? rules
            exactly ")"
          else pure ()
          as .body (Callable.block rules)
    else pure ()
    if ← isWord "finally" then
      as .finalizer do
        node .finallyClause do
          keyword "finally"
          as .body (Callable.block rules)
    else pure ()

/-- The next token can end a statement. -/
def endsStatement : Reading Bool := do
  return (← isMark ";") || (← at? "\x7d") || (← atEnd) || (← lineEndsHere)

/-- Reads a jump with an optional label. -/
def jump (kind : Kind) (w : String) : Reading Unit :=
  node kind do
    keyword w
    if ← endsStatement then pure () else as .label (name .statementIdentifier)
    semicolon

/-- Reads a name of an imported or exported thing. -/
def exportedName : Reading Unit := do
  if ← Literal.isString then Literal.string
  else if ← isWord "default" then keyword "default"
  else wordAs .identifier

/-- Reads `from` and the module that is meant. -/
def fromClause : Reading Unit := do
  keyword "from"
  as .source Literal.string

/-- Reads the attributes of an import. -/
def importAttributes (rules : Rules) : Reading Unit := do
  if (← isWord "with") || ((← isWord "assert") && !(← lineEndsHere)) then
    node .importAttribute do
      if ← skipWord "with" then pure () else keyword "assert"
      ObjectForm.object rules
  else pure ()

/-- Reads one imported name, which can get another name. -/
def importSpecifier : Reading Unit :=
  node .importSpecifier do
    if (← dialect).typed && (← ahead typeOnly) then wordAs (.token "type")
      else pure ()
    as .name (if ← isWord "default" then wordAs .identifier else exportedName)
    if ← skipWord "as" then as .aliasName (name .identifier) else pure ()
where
  typeOnly : Reading Bool := do
    keyword "type"
    match ← word? with
    | some "as" => return false
    | some _ => return true
    | none => Literal.isString

/-- Reads the names that an import binds. -/
def importClause : Reading Unit :=
  node .importClause do
    if ← at? "*" then namespaceImport
    else if ← at? "\x7b" then namedImports
    else
      name .identifier
      if ← skipMark "," then
        if ← at? "*" then namespaceImport else namedImports
      else pure ()
where
  namespaceImport : Reading Unit :=
    node .namespaceImport do
      exactly "*"
      keyword "as"
      name .identifier
  namedImports : Reading Unit :=
    node .namedImports do
      exactly "\x7b"
      listed "\x7d" importSpecifier

/-- Reads a dotted name. -/
def dottedName : Reading Unit := do
  name .identifier
  repeatWhile do
    if ← isMark "." then
      around .nestedIdentifier .object do
        exactly "."
        as .property (wordAs .propertyIdentifier)
      return true
    else return false

/-- An import in a typed dialect that names a module or another name after an
equals sign. -/
def isImportEquals : Reading Bool :=
  ahead do
    keyword "import"
    name .identifier
    isMark "="

/-- Reads an import that binds one name after an equals sign. -/
def importEquals : Reading Unit :=
  nodeOf do
    keyword "import"
    let required ← ahead do
      name .identifier
      exactly "="
      keyword "require"
      at? "("
    if required then
      node .importRequireClause do
        name .identifier
        exactly "="
        keyword "require"
        exactly "("
        as .source Literal.string
        exactly ")"
      semicolon
      return .importStatement
    else
      name .identifier
      exactly "="
      dottedName
      semicolon
      return .importAlias

/-- Reads an import. -/
def importForm (rules : Rules) : Reading Unit := do
  if (← dialect).typed && (← isImportEquals) then importEquals
  else
    node .importStatement do
      keyword "import"
      if (← dialect).typed && (← ahead typeOnly) then keyword "type"
      else pure ()
      if ← Literal.isString then as .source Literal.string
      else
        importClause
        fromClause
      importAttributes rules
      semicolon
where
  typeOnly : Reading Bool := do
    keyword "type"
    match ← word? with
    | some "from" => return false
    | some _ => return true
    | none => return (← at? "\x7b") || (← at? "*")

/-- Reads one exported name, which can get another name. -/
def exportSpecifier : Reading Unit :=
  node .exportSpecifier do
    if (← dialect).typed && (← ahead typeOnly) then wordAs (.token "type")
      else pure ()
    as .name exportedName
    if ← skipWord "as" then as .aliasName exportedName else pure ()
where
  typeOnly : Reading Bool := do
    keyword "type"
    match ← word? with
    | some "as" => return false
    | some _ => return true
    | none => return false

/-- Reads a list of exported names. -/
def exportClause : Reading Unit :=
  node .exportClause do
    exactly "\x7b"
    listed "\x7d" exportSpecifier

/-- Reads the members of an enumeration. -/
def enumBody (rules : Rules) : Reading Unit :=
  node .enumBody do
    exactly "\x7b"
    listed "\x7d" do
      as .name (Pattern.propertyName rules)
      if ← isMark "=" then
        around .enumAssignment .name do
          exactly "="
          as .value (rules .expression)
      else pure ()

/-- Words that open a declaration of a typed dialect if a name follows on the
same line. -/
def opensDeclaration (w : String) : Reading Bool :=
  ahead do
    keyword w
    if ← lineEndsHere then return false
    else return (← word?).isSome

/-- Reads a declaration that only a typed dialect has, and says whether there
was one. -/
def typedDeclaration? (rules : Rules) : Reading Bool := do
  if (← isWord "interface") && (← opensDeclaration "interface") then
    node .interfaceDeclaration do
      keyword "interface"
      as .name (wordAs .typeIdentifier)
      Parameter.typeParameters? rules
      if ← isWord "extends" then
        node .extendsTypeClause do
          keyword "extends"
          as .type (rules .type)
          repeatWhile do
            if ← skipMark "," then
              as .type (rules .type)
              return true
            else return false
      else pure ()
      as .body (TypeTerm.objectBody rules .interfaceBody)
    return true
  else if (← isWord "type") && (← opensDeclaration "type") then
    node .typeAliasDeclaration do
      keyword "type"
      as .name (wordAs .typeIdentifier)
      Parameter.typeParameters? rules
      exactly "="
      as .value (rules .type)
      semicolon
    return true
  else if ← enumeration then
    node .enumDeclaration do
      discard (skipWord "const")
      keyword "enum"
      as .name (name .identifier)
      as .body (enumBody rules)
    return true
  else if (← isWord "abstract") && (← opensDeclaration "abstract") then
    ObjectForm.classForm rules true
    return true
  else return false
where
  enumeration : Reading Bool := do
    if ← isWord "enum" then opensDeclaration "enum"
    else if ← isWord "const" then
      ahead do
        keyword "const"
        isWord "enum"
    else return false

/-- The next word opens a namespace: a name or a string and a block
follow it. -/
def isNamespace : Reading Bool := do
  if (← isWord "namespace") || (← isWord "module") then
    ahead do
      wordAs .identifier
      if ← lineEndsHere then return false
      else if ← Literal.isString then return true
      else
        dottedName
        at? "\x7b"
  else return false

/-- Reads a namespace with its block. -/
def namespaceForm (rules : Rules) : Reading Unit :=
  nodeOf do
    let inner ← isWord "namespace"
    if inner then keyword "namespace" else keyword "module"
    as .name (if ← Literal.isString then Literal.string else dottedName)
    if ← at? "\x7b" then as .body (Callable.block rules) else pure ()
    return if inner then .internalModule else .externalModule

/-- Reads a declaration if one comes next, and says whether there was one. -/
def declaration? (rules : Rules) : Reading Bool := do
  if (← dialect).typed && (← typedDeclaration? rules) then return true
  else
    match ← variableWord? with
    | some w =>
      variableForm rules w
      return true
    | none =>
      if (← Callable.isFunction) && (← Callable.isNamedFunction) then
        Callable.functionForm rules true
        return true
      else if ← isNamedClass then
        ObjectForm.classForm rules true
        return true
      else return false
where
  isNamedClass : Reading Bool :=
    ahead do
      Parameter.decorators rules
      keyword "class"
      ObjectForm.isClassName

/-- The word `declare` opens a declaration of something that exists
elsewhere. -/
def isAmbient : Reading Bool := do
  if (← dialect).typed && (← isWord "declare") then opensDeclaration "declare"
    else return false

/-- Reads a declaration of something that exists elsewhere. -/
def ambient (rules : Rules) : Reading Unit :=
  node .ambientDeclaration do
    keyword "declare"
    if ← isWord "global" then
      keyword "global"
      Callable.block rules
    else if ← isNamespace then
      namespaceForm rules
      discard (skipMark ";")
    else if ← declaration? rules then pure ()
    else stuck

/-- Reads what `export` makes known. -/
def exported (rules : Rules) : Reading Unit := do
  if ← isWord "default" then
    keyword "default"
    let declared ← attempt do
      as .declaration do
        if ← declaredByDefault then discard (declaration? rules) else stuck
    if declared.isSome then pure ()
    else
      as .value (rules .expression)
      semicolon
  else if ← at? "*" then
    if ← ahead renamed then
      node .namespaceExport do
        exactly "*"
        keyword "as"
        exportedName
    else exactly "*"
    fromClause
    importAttributes rules
    semicolon
  else if ← at? "\x7b" then names
  else if (← dialect).typed && (← ahead typeNames) then
    keyword "type"
    names
  else if (← dialect).typed && (← isMark "=") then
    exactly "="
    rules .expression
    semicolon
  else if (← dialect).typed && (← isWord "as") then
    keyword "as"
    keyword "namespace"
    name .identifier
    semicolon
  else if (← dialect).typed && (← isImportEqualsWord) then
    as .declaration importEquals
  else if ← isAmbient then as .declaration (ambient rules)
  else if (← dialect).typed && (← isNamespace) then
    as .declaration (namespaceForm rules)
  else as .declaration (do if ← declaration? rules then pure () else stuck)
where
  renamed : Reading Bool := do
    exactly "*"
    isWord "as"
  typeNames : Reading Bool := do
    keyword "type"
    at? "\x7b"
  isImportEqualsWord : Reading Bool := do
    if ← isWord "import" then isImportEquals else return false
  names : Reading Unit := do
    exportClause
    if ← isWord "from" then
      fromClause
      importAttributes rules
    else pure ()
    semicolon
  declaredByDefault : Reading Bool := do
    if ← Callable.isFunction then Callable.isNamedFunction
    else return (← isWord "class") || (← at? "@")
      || ((← dialect).typed &&
        ((← isWord "interface") || (← isWord "abstract")))

/-- Reads an export. -/
def exportForm (rules : Rules) : Reading Unit :=
  node .exportStatement do
    Parameter.decorators rules
    keyword "export"
    exported rules

/-- An export follows the decorators that come next. -/
def isExport (rules : Rules) : Reading Bool :=
  ahead do
    Parameter.decorators rules
    isWord "export"

/-- A label stands in front of a statement. -/
def isLabel : Reading Bool :=
  ahead do
    name .identifier
    isMark ":"

/-- Reads a statement with a label. -/
def labelled (rules : Rules) : Reading Unit :=
  node .labeledStatement do
    as .label (name .statementIdentifier)
    exactly ":"
    as .body (rules .statement)

/-- Reads a statement that starts with a word of its own. -/
def worded? (rules : Rules) (w : String) : Option (Reading Unit) :=
  match w with
  | "if" => some (choice rules)
  | "switch" => some (cases rules)
  | "for" => some (loop rules)
  | "while" => some do
    node .whileStatement do
      keyword "while"
      condition rules .condition
      as .body (rules .statement)
  | "do" => some do
    node .doStatement do
      keyword "do"
      as .body (rules .statement)
      keyword "while"
      condition rules .condition
      discard (skipMark ";")
  | "try" => some (guarded rules)
  | "with" => some do
    node .withStatement do
      keyword "with"
      condition rules .object
      as .body (rules .statement)
  | "break" => some (jump .breakStatement "break")
  | "continue" => some (jump .continueStatement "continue")
  | "debugger" => some do
    node .debuggerStatement do
      keyword "debugger"
      semicolon
  | "return" => some do
    node .returnStatement do
      keyword "return"
      if ← endsStatement then pure () else Literal.sequence rules
      semicolon
  | "throw" => some do
    node .throwStatement do
      keyword "throw"
      Literal.sequence rules
      semicolon
  | _ => none

/-- The word `import` opens an expression: a call or its own property. -/
def importsInExpression : Reading Bool :=
  ahead do
    keyword "import"
    return (← at? "(") || (← isMark ".")

/-- Reads a statement. -/
def statement (rules : Rules) : Reading Unit := do
  if ← at? "\x7b" then Callable.block rules
  else if ← isMark ";" then node .emptyStatement (exactly ";")
  else
    match (← word?).bind (worded? rules) with
    | some form => form
    | none =>
      if (← isWord "import") && !(← importsInExpression) then importForm rules
      else if ← isExport rules then exportForm rules
      else if ← isAmbient then ambient rules
      else if (← dialect).typed && (← isNamespace) then
        node .expressionStatement do
          namespaceForm rules
          discard (skipMark ";")
      else if ← declaration? rules then pure ()
      else if ← isLabel then labelled rules
      else plain rules

end Relay.Syntax.Statement
