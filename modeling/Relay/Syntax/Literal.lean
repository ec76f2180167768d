import Relay.Syntax.Reading

/-!
# Literals

Strings, templates, regular expressions and numbers.  A string is made of
fragments and escapes; in a template there are substitutions as well, and a
fragment ends where an escape or a substitution starts.
-/

namespace Relay.Syntax.Literal

open Reading

/-- The end of an escape that starts with the backslash at a position. -/
def escapeEnd? (b : ByteArray) (i : Nat) : Option Nat :=
  match Scan.charAt? b (i + 1) with
  | none => none
  | some (c, w) =>
    if c == 'u' then Scan.codePointEscapeEnd? b i
    else if c == 'x' then
      if i + 4 ≤ min (i + 4) (Scan.runEnd Scan.isHex b (i + 2)) then
        some (i + 4) else none
    else if '0' ≤ c && c ≤ '7' then
      some (min (i + 4) (Scan.runEnd (fun d => '0' ≤ d && d ≤ '7') b (i + 1)))
    else if c == '\r' && Scan.spells b (i + 2) "\n" then some (i + 3)
    else some (i + 1 + w)

/-- The end of the run of bytes up to one of some ASCII marks.  Ill-formed
bytes belong to it. -/
def fragmentEnd (stops : List UInt8) (b : ByteArray) (i : Nat) : Nat :=
  go (b.size + 1) i
where
  go : Nat → Nat → Nat
    | 0, i => i
    | fuel + 1, i =>
      if i < b.size && !stops.contains (Scan.byteAt b i) then go fuel (i + 1)
      else i

/-- Reads the text of a string up to its closing quote. -/
def stringRest (quote : String) : Reading Unit := do
  let stops := quote.toUTF8.data.toList ++ [0x5C, 0x0A, 0x0D]
  repeatWhile do
    let b ← source
    let i ← here
    if b.size ≤ i then stuckAt i
    else if Scan.spells b i quote then return false
    else if Scan.spells b i "\\" then
      match escapeEnd? b i with
      | some j =>
        leaf .escapeSequence i j
        return true
      | none => stuckAt i
    else
      let j := fragmentEnd stops b i
      if i < j then
        leaf .stringFragment i j
        return true
      else stuckAt i
  let i ← here
  leaf (.token quote) i (i + 1)

/-- Reads a string in single or double quotes. -/
def string : Reading Unit :=
  node .string do
    let i ← next
    let quote := if Scan.spells (← source) i "'" then "'" else "\""
    exactly quote
    let opened ← stringRest quote |> attempt
    if opened.isNone then stuckAt i else pure ()

/-- The next token is a string. -/
def isString : Reading Bool := do
  return (← at? "'") || (← at? "\"")

/-- Reads an expression or several with commas between them, as one node. -/
def sequence (rules : Rules) : Reading Unit := do
  rules .expression
  if ← isMark "," then
    enclose .sequenceExpression do
      repeatWhile do
        if ← skipMark "," then
          rules .expression
          return true
        else return false
  else pure ()

/-- Reads a template with its substitutions. -/
def template (rules : Rules) : Reading Unit :=
  node .templateString do
    exactly "`"
    repeatWhile do
      let b ← source
      let i ← here
      if b.size ≤ i then stuckAt i
      else if Scan.spells b i "`" then return false
      else if Scan.spells b i "\\" then
        match escapeEnd? b i with
        | some j =>
          leaf .escapeSequence i j
          return true
        | none => stuckAt i
      else if Scan.spells b i "$\x7b" then
        node .templateSubstitution do
          leaf (.token "$\x7b") i (i + 2)
          item do
            sequence rules
            exactly "\x7d"
        return true
      else
        leaf .stringFragment i (templateFragmentEnd b i)
        return true
    let i ← here
    leaf (.token "`") i (i + 1)
where
  /-- A dollar sign that opens no substitution belongs to the fragment. -/
  templateFragmentEnd (b : ByteArray) (i : Nat) : Nat :=
    go b (b.size + 1) i
  go (b : ByteArray) : Nat → Nat → Nat
    | 0, i => i
    | fuel + 1, i =>
      if i < b.size
          && !(Scan.spells b i "`" || Scan.spells b i "\\" ||
              Scan.spells b i "$\x7b") then
        go b fuel (i + 1)
      else i

/-- The end of the pattern of a regular expression; brackets and backslashes
keep a slash inside. -/
def patternEnd? (b : ByteArray) (i : Nat) : Option Nat :=
  go (b.size + 1) false i
where
  go : Nat → Bool → Nat → Option Nat
    | 0, _, _ => none
    | fuel + 1, inClass, i =>
      if b.size ≤ i || Scan.spells b i "\n" then none
      else if Scan.spells b i "\\" then
        if Scan.spells b (i + 1) "\n" then none else go fuel inClass (i + 2)
      else if Scan.spells b i "[" then go fuel true (i + 1)
      else if Scan.spells b i "]" then go fuel false (i + 1)
      else if Scan.spells b i "/" && !inClass then some i
      else go fuel inClass (i + 1)

/-- Reads a regular expression. -/
def regex : Reading Unit :=
  node .regex do
    let i ← next
    exactly "/"
    let b ← source
    match patternEnd? b (i + 1) with
    | some j =>
      if i + 1 < j then
        as .pattern (leaf .regexPattern (i + 1) j)
        leaf (.token "/") j (j + 1)
        let k := Scan.runEnd (fun c => 'a' ≤ c && c ≤ 'z') b (j + 1)
        if j + 1 < k then as .flags (leaf .regexFlags (j + 1) k) else pure ()
      else stuckAt i
    | none => stuckAt i

/-- The next token is a number. -/
def isNumber : Reading Bool := do
  return (Scan.numberEnd? (← source) (← next)).isSome

/-- Reads a number. -/
def number : Reading Unit := do
  let i ← next
  match Scan.numberEnd? (← source) i with
  | some j => leaf .number i j
  | none => stuck

end Relay.Syntax.Literal
