import Relay.Decimal.Shortest
import Relay.Json.Value
import Relay.Text.Pieces

/-!
# Writing JSON

Values are written either on one line, or with every item on a line of its own
and two more blanks for each level.  The latter form is plain ASCII: every
other character is escaped, if need be as a surrogate pair.
-/

namespace Relay.Json

open Decimal

/-- The text of a number with a fraction. -/
def doubleText (d : Double) : String :=
  d.text "Infinity" "NaN"

/-- Four hexadecimal digits. -/
def fourHex (v : Nat) : String :=
  String.ofList ([v / 4096 % 16, v / 256 % 16, v / 16 % 16,
    v % 16].map Nat.digitChar)

/-- The escape of a 16-bit unit. -/
def unitEscape (v : Nat) : String :=
  "\\u" ++ fourHex v

/-- The escape of a character. -/
def charEscape (c : Char) : String :=
  let v := c.toNat
  if v < 0x10000 then unitEscape v
  else unitEscape (0xD800 + (v - 0x10000) / 0x400) ++
    unitEscape (0xDC00 + (v - 0x10000) % 0x400)

/-- A character inside quotes; `isPlain` says which characters stand for
themselves. -/
def quotedChar (isPlain : Char → Bool) (c : Char) : String :=
  match c with
  | '"' => "\\\""
  | '\\' => "\\\\"
  | '\n' => "\\n"
  | '\r' => "\\r"
  | '\t' => "\\t"
  | '\x0c' => "\\f"
  | '\x08' => "\\b"
  | c => if isPlain c then String.singleton c else charEscape c

/-- A text in quotes. -/
def quoted (isPlain : Char → Bool) (s : String) : String :=
  "\"" ++ String.join (s.toList.map (quotedChar isPlain)) ++ "\""

/-- Characters of ASCII that can be seen. -/
def isPlainAscii (c : Char) : Bool :=
  ' ' ≤ c && c ≤ '~'

/-- All characters but the controls. -/
def isNoControl (c : Char) : Bool :=
  ' ' ≤ c

/-- A new line at a level. -/
def newLine (level : Nat) : String :=
  "\n" ++ String.ofList (List.replicate (2 * level) ' ')

/-- Some items between brackets, each on a line of its own at a level. -/
def block (left right : String) (level : Nat) (items : List String) : String :=
  if items.isEmpty then left ++ right
  else
    left ++ newLine (level + 1) ++
      Text.join ("," ++ newLine (level + 1)) items ++ newLine level
      ++ right

mutual

/-- A value with every item on a line of its own, at a level. -/
def indentedAt (level : Nat) : Json → String
  | .null => "null"
  | .bool b => if b then "true" else "false"
  | .int i => toString i
  | .double d => doubleText d
  | .string s => quoted isPlainAscii s
  | .array items => block "[" "]" level (indentedItems (level + 1) items)
  | .object fields =>
      block "\x7b" "\x7d" level (indentedFields (level + 1) fields)

/-- The items of an array at a level. -/
def indentedItems (level : Nat) : List Json → List String
  | [] => []
  | item :: rest => indentedAt level item :: indentedItems level rest

/-- The fields of an object at a level. -/
def indentedFields (level : Nat) : List (String × Json) → List String
  | [] => []
  | (key, value) :: rest =>
    (quoted isPlainAscii key ++ ": " ++ indentedAt level value) ::
      indentedFields level rest

end

/-- A value with every item on a line of its own. -/
def indented (value : Json) : String :=
  indentedAt 0 value

mutual

/-- A value on one line. -/
def oneLine : Json → String
  | .null => "null"
  | .bool b => if b then "true" else "false"
  | .int i => toString i
  | .double d => doubleText d
  | .string s => quoted isNoControl s
  | .array items => "[" ++ Text.join "," (oneLineItems items) ++ "]"
  | .object fields => "\x7b" ++ Text.join "," (oneLineFields fields) ++ "\x7d"

/-- The items of an array. -/
def oneLineItems : List Json → List String
  | [] => []
  | item :: rest => oneLine item :: oneLineItems rest

/-- The fields of an object. -/
def oneLineFields : List (String × Json) → List String
  | [] => []
  | (key, value) :: rest =>
      (quoted isNoControl key ++ ":" ++ oneLine value) :: oneLineFields rest

end

end Relay.Json
