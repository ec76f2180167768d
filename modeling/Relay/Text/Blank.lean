/-!
# Blank characters

A blank is a character with the Unicode property of white space, or one of the
four information separators U+001C to U+001F.  The zero-width characters
U+200B, U+180E and U+FEFF are not blank.
-/

namespace Relay.Text

/-- Characters that are left out at both ends of a snippet. -/
def isBlank (c : Char) : Bool :=
  let v := c.toNat
  (0x09 ≤ v && v ≤ 0x0D) || (0x1C ≤ v && v ≤ 0x20) || v == 0x85 || v == 0xA0
    || v == 0x1680 || (0x2000 ≤ v && v ≤ 0x200A) || v == 0x2028 || v == 0x2029
    || v == 0x202F || v == 0x205F
    || v == 0x3000

/-- The characters without the blank ones at either end. -/
def stripChars (cs : List Char) : List Char :=
  ((cs.dropWhile isBlank).reverse.dropWhile isBlank).reverse

/-- A text without the blanks at either end. -/
def strip (s : String) : String :=
  String.ofList (stripChars s.toList)

end Relay.Text
