import Relay.Decimal.Shortest
import Relay.Json.Value
import Relay.Text.Pieces
import Relay.Text.Quoted

/-!
# Values in messages

How a value is shown inside a message, and which values count as nothing.  A
text is shown as it is, but in quotes when it is part of another value.
-/

namespace Relay.Json

/-- A value that counts: not nothing, not false, not zero and not empty. -/
def isFilled : Json → Bool
  | .null => false
  | .bool b => b
  | .int i => i != 0
  | .double d => d.isNonzero
  | .string s => s != ""
  | .array items => !items.isEmpty
  | .object fields => !fields.isEmpty

mutual

/-- A value that is part of another one. -/
def inner : Json → String
  | .null => "None"
  | .bool b => if b then "True" else "False"
  | .int i => toString i
  | .double d => d.text "inf" "nan"
  | .string s => Text.quoted s
  | .array items => "[" ++ Text.join ", " (innerItems items) ++ "]"
  | .object fields => "\x7b" ++ Text.join ", " (innerFields fields) ++ "\x7d"

/-- The items of an array. -/
def innerItems : List Json → List String
  | [] => []
  | item :: rest => inner item :: innerItems rest

/-- The fields of an object. -/
def innerFields : List (String × Json) → List String
  | [] => []
  | (key, value) :: rest =>
      (Text.quoted key ++ ": " ++ inner value) :: innerFields rest

end

/-- A value in a message. -/
def shown : Json → String
  | .string s => s
  | value => inner value

end Relay.Json
