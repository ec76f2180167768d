import Relay.Syntax.Parameter

/-!
# Functions

Function forms and arrow functions.  Whether a parenthesis opens the parameters
of an arrow function is only known at the arrow, so the reader looks that far
ahead before it decides.
-/

namespace Relay.Syntax.Callable

open Reading

/-- Reads statements in braces. -/
def block (rules : Rules) : Reading Unit :=
  node .statementBlock do
    exactly "\x7b"
    repeatWhile do
      if ← at? "\x7d" then return false
      else
        rules .statement
        return true
    exactly "\x7d"

/-- A function form starts at the next token. -/
def isFunction : Reading Bool := do
  if ← isWord "function" then return true
  else if ← isWord "async" then
    ahead do
      keyword "async"
      if ← lineEndsHere then return false else isWord "function"
  else return false

/-- The function form that starts at the next token has a name. -/
def isNamedFunction : Reading Bool :=
  ahead do
    discard (skipWord "async")
    keyword "function"
    discard (skipMark "*")
    return (← word?).isSome

/-- Reads a function form.  As a declaration it can lack its body in a typed
dialect. -/
def functionForm (rules : Rules) (declares : Bool) : Reading Unit :=
  nodeOf do
    discard (skipWord "async")
    keyword "function"
    let generator ← skipMark "*"
    if (← word?).isSome then as .name (name .identifier) else pure ()
    Parameter.signature rules
    if declares && (← dialect).typed && !(← at? "\x7b") then
      semicolon
      return .functionSignature
    else
      as .body (block rules)
      return match declares, generator with
        | true, true => .generatorFunctionDeclaration
        | true, false => .functionDeclaration
        | false, true => .generatorFunction
        | false, false => .functionExpression

/-- Reads what stands before the arrow of an arrow function. -/
def arrowHead (rules : Rules) : Reading Unit := do
  if ← isWord "async" then
    if ← ahead asyncHead then keyword "async" else pure ()
  else pure ()
  if (← word?).isSome then as .parameter (name .identifier)
  else Parameter.signature rules
where
  asyncHead : Reading Bool := do
    keyword "async"
    if ← isMark "=>" then return false
    else if ← lineEndsHere then return false
    else if (← word?).isSome then return true
    else return (← at? "(") || (← at? "<")

/-- An arrow function starts at the next token. -/
def isArrow (rules : Rules) : Reading Bool :=
  ahead do
    arrowHead rules
    isMark "=>"

/-- Reads an arrow function. -/
def arrow (rules : Rules) : Reading Unit :=
  node .arrowFunction do
    arrowHead rules
    exactly "=>"
    as .body do
      if ← at? "\x7b" then block rules else rules .expression

end Relay.Syntax.Callable
