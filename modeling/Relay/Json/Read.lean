import Relay.Json.Value

/-!
# Reading JSON

A reader of JSON texts that says what is wrong and where.  Positions count
characters from zero.  Besides the numbers of the format, `NaN`, `Infinity` and
`-Infinity` are read, and of two fields of one name the last value counts.

Half of a surrogate pair stands for no character and is read as U+FFFD.
-/

namespace Relay.Json

open Decimal

/-- What can be wrong with a text. -/
inductive Fault where
  | value | name | colon | comma | extra | unterminated | control | escape
  | unicode | byteOrderMark
deriving DecidableEq

/-- What is said about a fault. -/
def Fault.text : Fault → String
  | value => "Expecting value"
  | name => "Expecting property name enclosed in double quotes"
  | colon => "Expecting ':' delimiter"
  | comma => "Expecting ',' delimiter"
  | extra => "Extra data"
  | unterminated => "Unterminated string starting at"
  | control => "Invalid control character at"
  | escape => "Invalid \\escape"
  | unicode => "Invalid \\uXXXX escape"
  | byteOrderMark => "Unexpected UTF-8 BOM (decode using utf-8-sig)"

/-- A fault and the position where it shows. -/
structure ReadError where
  fault : Fault
  position : Nat
deriving DecidableEq

/-- What is left of a text, and the position where that starts. -/
structure Cursor where
  rest : List Char
  position : Nat

namespace Cursor

/-- The cursor after some characters. -/
def skip (c : Cursor) (k : Nat) : Cursor :=
  ⟨c.rest.drop k, c.position + k⟩

/-- The characters between the parts of a text that mean nothing. -/
def isSpace (c : Char) : Bool :=
  c == ' ' || c == '\t' || c == '\n' || c == '\r'

/-- The cursor after spaces. -/
def skipSpaces (c : Cursor) : Cursor :=
  c.skip (c.rest.takeWhile isSpace).length

/-- The text goes on with some characters. -/
def startsWith (c : Cursor) (s : String) : Bool :=
  s.toList.isPrefixOf c.rest

/-- Refuses the text at the cursor. -/
def fail {α : Type} (c : Cursor) (fault : Fault) : Except ReadError α :=
  .error ⟨fault, c.position⟩

end Cursor

/-- The value of a hexadecimal digit. -/
def hexDigit? (c : Char) : Option Nat :=
  if '0' ≤ c ∧ c ≤ '9' then some (c.toNat - '0'.toNat)
  else if 'a' ≤ c ∧ c ≤ 'f' then some (c.toNat - 'a'.toNat + 10)
  else if 'A' ≤ c ∧ c ≤ 'F' then some (c.toNat - 'A'.toNat + 10)
  else none

/-- The value of the four hexadecimal digits at the front of some characters,
which go on after them. -/
def fourHex? : List Char → Option Nat
  | a :: b :: c :: d :: _ :: _ => do
    let a ← hexDigit? a
    let b ← hexDigit? b
    let c ← hexDigit? c
    let d ← hexDigit? d
    return ((a * 16 + b) * 16 + c) * 16 + d
  | _ => none

/-- The character that follows a backslash, for the escapes of one character. -/
def shortEscape? (c : Char) : Option Char :=
  match c with
  | '"' => some '"'
  | '\\' => some '\\'
  | '/' => some '/'
  | 'b' => some '\x08'
  | 'f' => some '\x0c'
  | 'n' => some '\n'
  | 'r' => some '\r'
  | 't' => some '\t'
  | _ => none

/-- The first half of a surrogate pair. -/
def isHighHalf (v : Nat) : Bool := 0xD800 ≤ v && v ≤ 0xDBFF

/-- The second half of a surrogate pair. -/
def isLowHalf (v : Nat) : Bool := 0xDC00 ≤ v && v ≤ 0xDFFF

/-- The character of a number, or U+FFFD for half of a surrogate pair. -/
def charOf (v : Nat) : Char :=
  if isHighHalf v || isLowHalf v then Char.ofNat 0xFFFD else Char.ofNat v

/-- The second half of a surrogate pair at the front of some characters, with
the digits of its escape in order; `none` if no further escape of that kind
stands there. -/
def secondHalf? : List Char → Option (Option Nat)
  | '\\' :: 'u' :: rest =>
    if rest.length < 5 then none else some (fourHex? rest)
  | _ => none

/-- Reads a string after its opening quote.  `start` is the position of that
quote. -/
def readString (start : Nat) (acc : List Char) (cs : List Char)
    (position : Nat) :
    Except ReadError (String × Cursor) :=
  match cs with
  | [] => .error ⟨.unterminated, start⟩
  | '"' :: rest => .ok (String.ofList acc.reverse, ⟨rest, position + 1⟩)
  | '\\' :: 'u' :: rest =>
    match fourHex? rest with
    | none => .error ⟨.unicode, position + 1⟩
    | some v =>
      if isHighHalf v then
        match secondHalf? (rest.drop 4) with
        | some none => .error ⟨.unicode, position + 7⟩
        | some (some w) =>
          if isLowHalf w then
            readString start (Char.ofNat
              (0x10000 + (v - 0xD800) * 0x400 + (w - 0xDC00)) :: acc)
              (rest.drop 10) (position + 12)
          else readString start (charOf v :: acc) (rest.drop 4) (position + 6)
        | none =>
            readString start (charOf v :: acc) (rest.drop 4) (position + 6)
      else readString start (charOf v :: acc) (rest.drop 4) (position + 6)
  | '\\' :: c :: rest =>
    match shortEscape? c with
    | some d => readString start (d :: acc) rest (position + 2)
    | none => .error ⟨.escape, position⟩
  | ['\\'] => .error ⟨.unterminated, start⟩
  | c :: rest =>
    if c.toNat ≤ 0x1F then .error ⟨.control, position⟩
    else readString start (c :: acc) rest (position + 1)
termination_by cs.length

/-- The number that some decimal digits spell. -/
def numberOf (digits : List Char) : Nat :=
  digits.foldl (fun n c => n * 10 + (c.toNat - '0'.toNat)) 0

/-- The whole part of a number: a zero, or digits that start with
another one. -/
def wholeDigits (cs : List Char) : List Char :=
  match cs with
  | '0' :: _ => ['0']
  | _ => cs.takeWhile Char.isDigit

/-- The digits after the point of a number. -/
def fractionDigits (cs : List Char) : List Char :=
  match cs with
  | '.' :: rest => rest.takeWhile Char.isDigit
  | _ => []

/-- The exponent of a number, as its sign, its digits and the number of
characters it takes. -/
def exponentPart (cs : List Char) : Bool × List Char × Nat :=
  match cs with
  | e :: rest =>
    if e == 'e' || e == 'E' then
      let (negative, sign) :=
        match rest with
        | '-' :: _ => (true, 1)
        | '+' :: _ => (false, 1)
        | _ => (false, 0)
      let digits := (rest.drop sign).takeWhile Char.isDigit
      (negative, digits, if digits.isEmpty then 0 else 1 + sign + digits.length)
    else (false, [], 0)
  | [] => (false, [], 0)

/-- Reads a number. -/
def readNumber (c : Cursor) : Except ReadError (Json × Cursor) :=
  let negative := c.startsWith "-"
  let unsigned := if negative then c.skip 1 else c
  let whole := wholeDigits unsigned.rest
  if whole.isEmpty then c.fail .value
  else
    let afterWhole := unsigned.skip whole.length
    let fraction := fractionDigits afterWhole.rest
    let afterFraction :=
      if fraction.isEmpty then afterWhole
      else afterWhole.skip (1 + fraction.length)
    let (down, exponent, length) := exponentPart afterFraction.rest
    let finish := afterFraction.skip length
    if fraction.isEmpty && length == 0 then
      let n : Int := numberOf whole
      .ok (.int (if negative then -n else n), finish)
    else
      let e : Int := numberOf exponent
      let digits := whole ++ fraction
      .ok (.double (Double.ofDecimal negative (numberOf digits) digits.length
        ((if down then -e else e) - fraction.length)), finish)

mutual

/-- Reads a value.  Each value takes one unit of `fuel`, each further item one
more. -/
def readValue (fuel : Nat) (c : Cursor) : Except ReadError (Json × Cursor) :=
  match fuel with
  | 0 => c.fail .value
  | fuel + 1 =>
    match c.rest with
    | '"' :: rest =>
      (readString c.position [] rest (c.position + 1)).map fun (s, d) =>
        (.string s, d)
    | '\x7b' :: _ =>
      let d := (c.skip 1).skipSpaces
      if d.startsWith "\x7d" then .ok (.object [], d.skip 1)
      else readFields fuel [] d
    | '[' :: _ =>
      let d := (c.skip 1).skipSpaces
      if d.startsWith "]" then .ok (.array [], d.skip 1)
      else readItems fuel [] d
    | _ =>
      if c.startsWith "null" then .ok (.null, c.skip 4)
      else if c.startsWith "true" then .ok (.bool true, c.skip 4)
      else if c.startsWith "false" then .ok (.bool false, c.skip 5)
      else if c.startsWith "NaN" then .ok (.double .undefined, c.skip 3)
      else if c.startsWith "Infinity" then
        .ok (.double (.infinite false), c.skip 8)
      else if c.startsWith "-Infinity" then
        .ok (.double (.infinite true), c.skip 9)
      else readNumber c

/-- Reads the items of an array from the next one on; `items` are those before
it, the last first. -/
def readItems (fuel : Nat) (items : List Json) (c : Cursor) :
    Except ReadError (Json × Cursor) :=
  match fuel with
  | 0 => c.fail .value
  | fuel + 1 => do
    let (item, d) ← readValue fuel c
    let d := d.skipSpaces
    if d.startsWith "]" then .ok (.array (item :: items).reverse, d.skip 1)
    else if d.startsWith "," then
      readItems fuel (item :: items) (d.skip 1).skipSpaces
    else d.fail .comma

/-- Reads the fields of an object from the next one on; `fields` are those
before it. -/
def readFields (fuel : Nat) (fields : Fields) (c : Cursor) :
    Except ReadError (Json × Cursor) :=
  match fuel with
  | 0 => c.fail .value
  | fuel + 1 => do
    if !c.startsWith "\"" then c.fail .name
    let (key, d) ← readString c.position [] (c.rest.drop 1) (c.position + 1)
    let d := d.skipSpaces
    if !d.startsWith ":" then d.fail .colon
    let (value, d) ← readValue fuel (d.skip 1).skipSpaces
    let d := d.skipSpaces
    let fields := fields.set key value
    if d.startsWith "\x7d" then .ok (.object fields, d.skip 1)
    else if d.startsWith "," then readFields fuel fields (d.skip 1).skipSpaces
    else d.fail .comma

end

/-- Reads a text that holds one value. -/
def read (text : String) : Except ReadError Json := do
  let start : Cursor := ⟨text.toList, 0⟩
  if start.startsWith "\uFEFF" then start.fail .byteOrderMark
  let (value, c) ← readValue (2 * text.length + 2) start.skipSpaces
  let c := c.skipSpaces
  if c.rest.isEmpty then .ok value else c.fail .extra

/-- What is said about a text that cannot be read: the fault with its line,
column and position. -/
def ReadError.message (text : String) (e : ReadError) : String :=
  let before := text.toList.take e.position
  let line := before.count '\n' + 1
  let column := (before.reverse.takeWhile (· != '\n')).length + 1
  s!"{e.fault.text}: line {line} column {column} (char {e.position})"

end Relay.Json
