import Relay.Text.Visible

/-!
# Quoted text

A text in quotes, as it appears in messages.  Single quotes are used, unless
the text holds single quotes and no double ones.  Characters that cannot be
seen are written by their number.
-/

namespace Relay.Text

/-- A number in hexadecimal digits, with zeros in front up to a width. -/
def hexWidth (width v : Nat) : String :=
  let digits := Nat.toDigits 16 v
  String.ofList (List.replicate (width - digits.length) '0' ++ digits)

/-- The escape of a character by its number. -/
def numberEscape (v : Nat) : String :=
  if v < 0x100 then "\\x" ++ hexWidth 2 v
  else if v < 0x10000 then "\\u" ++ hexWidth 4 v
  else "\\U" ++ hexWidth 8 v

/-- A character between quotes. -/
def quotedChar (quote : Char) (c : Char) : String :=
  if c = quote ∨ c = '\\' then String.ofList ['\\', c]
  else match c with
    | '\n' => "\\n"
    | '\r' => "\\r"
    | '\t' => "\\t"
    | c => if isVisible c then String.singleton c else numberEscape c.toNat

/-- The quote that a text is put in. -/
def quoteFor (cs : List Char) : Char :=
  if cs.contains '\'' && !cs.contains '"' then '"' else '\''

/-- A text in quotes. -/
def quoted (s : String) : String :=
  let quote := quoteFor s.toList
  String.singleton quote ++ String.join (s.toList.map (quotedChar quote)) ++
    String.singleton quote

end Relay.Text
