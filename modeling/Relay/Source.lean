import Relay.Path
import Relay.Syntax.Program
import Relay.Text.Blank

/-!
# Source files

A source is a file with its syntax tree.  Lines end at line feeds and are
counted from one.  The line of a node is found by counting the line feeds
before it, so it always agrees with the snippet, which is the text of that line
without the blanks around it.
-/

namespace Relay

open Syntax

/-- A file that has been read, with its tree. -/
structure Source where
  path : Path
  bytes : ByteArray
  tree : Node

/-- A file whose text is no program: the line near which the reading is
stuck. -/
structure ParseFailure where
  path : Path
  line : Nat
deriving DecidableEq

/-- What is said about a file whose text is no program. -/
def ParseFailure.message (f : ParseFailure) : String :=
  s!"Failed to parse {f.path} near line {f.line}"

/-- The number of line feeds among some bytes. -/
def lineFeeds (bytes : List UInt8) : Nat :=
  bytes.count 0x0A

/-- The line of a byte: one more than the line feeds before it. -/
def lineAt (bytes : ByteArray) (position : Nat) : Nat :=
  lineFeeds (Text.slice bytes 0 position) + 1

/-- The lines of a text. -/
def linesOf (bytes : ByteArray) : List String :=
  Text.split '\n' (Text.textOf bytes)

/-- A line by its number, without the blanks around it, and nothing for a
number out of range. -/
def snippetAt (bytes : ByteArray) (line : Int) : String :=
  if line < 1 then ""
  else Text.strip (((linesOf bytes)[line.toNat - 1]?).getD "")

namespace Source

/-- The line on which a node starts. -/
def lineOf (s : Source) (n : Node) : Nat :=
  lineAt s.bytes n.start

/-- The text of a line. -/
def snippet (s : Source) (line : Nat) : String :=
  snippetAt s.bytes line

/-- The dialect of a file, by the suffix of its name in lower case. -/
def dialectOf (suffix : String) : Dialect :=
  match suffix with
  | ".ts" | ".mts" => .typescript
  | ".tsx" => .tsx
  | _ => .javascript

/-- Reads the text of a file. -/
def read (path : Path) (bytes : ByteArray) : Except ParseFailure Source :=
  match parse (dialectOf (path.suffix.map Char.toLower)) bytes with
  | .ok tree => .ok ⟨path, bytes, tree⟩
  | .error position => .error ⟨path, lineAt bytes position⟩

end Source

end Relay
