import Relay.Syntax.Literal
import Relay.Syntax.Reading

/-!
# Markup in expressions

Elements with attributes and children.  Between the tags there is text, in
which spacing counts; braces hold an expression.
-/

namespace Relay.Syntax.Markup

open Reading

/-- Characters of a name in markup after its first. -/
def isNamePart (c : Char) : Bool :=
  Scan.isWordPart c || c == '-'

/-- Reads a name as a leaf of a kind. -/
def nameAs (kind : Kind) : Reading Unit := do
  let b ← source
  let i ← next
  match Scan.charAt? b i with
  | some (c, _) =>
    if Scan.isWordStart c then leaf kind i (Scan.runEnd isNamePart b i)
    else stuck
  | none => stuck

/-- Reads the name of an element, which can be an access. -/
def elementName : Reading Unit := do
  nameAs .identifier
  if ← isMark ":" then
    enclose .jsxNamespaceName do
      exactly ":"
      nameAs .identifier
  else
    repeatWhile do
      if ← isMark "." then
        around .memberExpression .object do
          exactly "."
          as .property (wordAs .propertyIdentifier)
        return true
      else return false

/-- Reads an expression in braces; it can be missing or spread. -/
def embedded (rules : Rules) : Reading Unit :=
  node .jsxExpression do
    exactly "\x7b"
    if ← at? "\x7d" then pure ()
    else if ← isMark "..." then
      node .spreadElement do
        exactly "..."
        rules .expression
    else Literal.sequence rules
    exactly "\x7d"

/-- Reads a string of an attribute, in which a line can end and nothing is
escaped. -/
def attributeString : Reading Unit :=
  node .string do
    let b ← source
    let i ← next
    let quote := if Scan.spells b i "'" then "'" else "\""
    exactly quote
    let j := Literal.fragmentEnd quote.toUTF8.data.toList b (i + 1)
    if j < b.size then
      if i + 1 < j then leaf .stringFragment (i + 1) j else pure ()
      leaf (.token quote) j (j + 1)
    else stuckAt i

/-- Reads one attribute of an element. -/
def attributeForm (rules : Rules) : Reading Unit := do
  if ← at? "\x7b" then embedded rules
  else
    node .jsxAttribute do
      nameAs .propertyIdentifier
      if ← isMark ":" then
        enclose .jsxNamespaceName do
          exactly ":"
          nameAs .identifier
      else pure ()
      if ← at? "=" then
        exactly "="
        if ← at? "\x7b" then embedded rules
        else if ← at? "<" then rules .element
        else if ← Literal.isString then attributeString
        else stuck
      else pure ()

/-- The end of a character reference such as `&amp;` at a position. -/
def referenceEnd? (b : ByteArray) (i : Nat) : Option Nat :=
  let start := if Scan.spells b (i + 1) "#" then i + 2 else i + 1
  let j := Scan.runEnd (fun c => c.isAlphanum) b start
  if start < j && Scan.spells b j ";" then some (j + 1) else none

/-- Reads the children of an element up to the tag that closes it. -/
def children (rules : Rules) : Reading Unit :=
  repeatWhile do
    let b ← source
    let i ← here
    if b.size ≤ i then stuck
    else if Scan.spells b i "\x7b" then
      embedded rules
      return true
    else if Scan.spells b i "<" then
      if Scan.spells b (Scan.tokenStart b (i + 1)) "/" then return false
      else
        rules .element
        return true
    else if Scan.spells b i "&" then
      match referenceEnd? b i with
      | some j => leaf .htmlCharacterReference i j
      | none => leaf .jsxText i (i + 1)
      return true
    else if Scan.spells b i ">" || Scan.spells b i "\x7d" then stuckAt i
    else
      leaf .jsxText i (Literal.fragmentEnd [0x3C, 0x3E, 0x26, 0x7B, 0x7D] b i)
      return true

/-- Reads the tag that closes an element. -/
def closingTag : Reading Unit :=
  node .jsxClosingElement do
    exactly "<"
    exactly "/"
    if ← at? ">" then pure () else as .name elementName
    exactly ">"

/-- Reads an element.  Its opening tag ends with `/>` if it has no children. -/
def element (rules : Rules) : Reading Unit := do
  nodeOf do
    exactly "<"
    if ← at? ">" then pure ()
    else
      as .name elementName
      repeatWhile do
        if (← at? ">") || (← at? "/") then return false
        else
          as .attr (attributeForm rules)
          return true
    if ← at? "/" then
      exactly "/"
      exactly ">"
      return .jsxSelfClosingElement
    else
      exactly ">"
      return .jsxOpeningElement
  match ← latest? with
  | some n =>
    if n.kind == .jsxOpeningElement then
      around .jsxElement .openTag do
        children rules
        as .closeTag closingTag
    else pure ()
  | none => pure ()

end Relay.Syntax.Markup
