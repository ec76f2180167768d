/-!
# Pieces of a text

Cutting a text at a character and joining the pieces again.  A text has one
piece more than it has separators, so the empty text has one piece, which is
empty.
-/

namespace Relay.Text

/-- The parts of a text between the occurrences of a character; one part more
than occurrences. -/
def split (sep : Char) (s : String) : List String :=
  (s.toList.splitOn sep).map String.ofList

/-- A text with every occurrence of one character replaced by another. -/
def replaceChar (old new : Char) (s : String) : String :=
  String.ofList (s.toList.map fun c => if c = old then new else c)

/-- The parts joined by a separator. -/
def join (sep : String) (parts : List String) : String :=
  String.intercalate sep parts

/-- A text starts with another one. -/
def startsWith (s start : String) : Bool :=
  start.toList.isPrefixOf s.toList

/-- A text ends with another one. -/
def endsWith (s tail : String) : Bool :=
  tail.toList.isSuffixOf s.toList

/-- A text without its first `k` characters. -/
def dropChars (k : Nat) (s : String) : String :=
  String.ofList (s.toList.drop k)

end Relay.Text
