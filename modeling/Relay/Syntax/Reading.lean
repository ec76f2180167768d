import Relay.Syntax.Node
import Relay.Syntax.Scan

/-!
# Reading a source from left to right

A reading moves a cursor along the source and collects the finished children of
the node that is being built.  Reading a token adds a leaf; `node` opens a new
node around what it reads; `around` puts a node around one that is already
finished, which is how an operand becomes the left side of an operator.  A
reading that meets a token it has no use for is stuck in the item that it is
reading.

The grammar is recursive, so its rules are written over a reading for each
`Rule` and tied together once, with a bound computed from the length of the
source.
-/

namespace Relay.Syntax

/-- The languages of a source file. -/
inductive Dialect where
  | javascript | typescript | tsx
deriving DecidableEq, Inhabited

namespace Dialect

/-- Type annotations are read. -/
def typed : Dialect → Bool
  | .javascript => false
  | _ => true

/-- An opening angle bracket can start an element of markup. -/
def markup : Dialect → Bool
  | .typescript => false
  | _ => true

end Dialect

/-- What stays the same during a reading. -/
structure Setting where
  bytes : ByteArray
  dialect : Dialect

/-- Where a reading has come to. -/
structure Cursor where
  /-- The first byte that is not read yet. -/
  pos : Nat := 0
  /-- The end of the latest token. -/
  last : Nat := 0
  /-- The start of the innermost statement, entry or operand in brackets that
  is being read. -/
  item : Nat := 0
  /-- The finished children of the node that is being built, the latest
  first. -/
  made : List Node := []
  /-- The comments passed over, the latest first. -/
  comments : List Node := []

/-- A reading ends with a result or is stuck at a byte. -/
inductive Outcome (α : Type) where
  | done (result : α) (cursor : Cursor)
  | stuck (position : Nat)

/-- A step along the source. -/
def Reading (α : Type) : Type :=
  Setting → Cursor → Outcome α

/-- Constructs that contain each other. -/
inductive Rule where
  | expression | unary | power | binding | statement | type | element
deriving DecidableEq

/-- A reading for every rule. -/
abbrev Rules : Type :=
  Rule → Reading Unit

namespace Reading

/-- Gives a result and reads nothing. -/
def give {α : Type} (a : α) : Reading α :=
  fun _ c => .done a c

/-- Reads one part and then another that depends on it. -/
def andThen {α β : Type} (p : Reading α) (f : α → Reading β) : Reading β :=
  fun s c =>
    match p s c with
    | .done a c' => f a s c'
    | .stuck i => .stuck i

instance : Monad Reading where
  pure := give
  bind := andThen

/-- The dialect of the source. -/
def dialect : Reading Dialect :=
  fun s c => .done s.dialect c

/-- The position of the next token. -/
def next : Reading Nat :=
  fun s c => .done (Scan.tokenStart s.bytes c.pos) c

/-- The first byte that is not read yet, spacing included. -/
def here : Reading Nat :=
  fun _ c => .done c.pos c

/-- The source itself. -/
def source : Reading ByteArray :=
  fun s c => .done s.bytes c

/-- Stuck in the innermost item, or after the latest token if the item has
none. -/
def stuck {α : Type} : Reading α :=
  fun s c => .stuck (if c.item < s.bytes.size then c.item else c.last)

/-- Reads an item: a reading that is stuck in it is stuck where it starts. -/
def item {α : Type} (p : Reading α) : Reading α :=
  fun s c =>
    match p s { c with item := Scan.tokenStart s.bytes c.pos } with
    | .done a c' => .done a { c' with item := c.item }
    | .stuck i => .stuck i

/-- Stuck at a given byte. -/
def stuckAt {α : Type} (i : Nat) : Reading α :=
  fun _ _ => .stuck i

/-- Reads something or, where that is stuck, nothing. -/
def attempt {α : Type} (p : Reading α) : Reading (Option α) :=
  fun s c =>
    match p s c with
    | .done a c' => .done (some a) c'
    | .stuck _ => .done none c

/-- What a reading would give, with the cursor left where it is. -/
def ahead (p : Reading Bool) : Reading Bool :=
  fun s c =>
    match p s c with
    | .done a _ => .done a c
    | .stuck _ => .done false c

/-- Repeats a step for as long as it answers `true`. -/
def repeatWhile (p : Reading Bool) : Reading Unit :=
  fun s c => go s (s.bytes.size + 1) c
where
  go (s : Setting) : Nat → Cursor → Outcome Unit
    | 0, c => .done () c
    | fuel + 1, c =>
      match p s c with
      | .done true c' => go s fuel c'
      | .done false c' => .done () c'
      | .stuck i => .stuck i

/-- Adds a finished node. -/
def add (n : Node) : Reading Unit :=
  fun _ c => .done () { c with made := n :: c.made }

/-- The comments up to the next token. -/
def passed (bytes : ByteArray) (i : Nat) : List Node :=
  (Scan.commentsFrom bytes i).map fun (a, b) => ⟨.comment, none, a, b, []⟩

/-- Adds a leaf for the bytes from `start` to `stop` and goes on after it. -/
def leaf (kind : Kind) (start stop : Nat) : Reading Unit :=
  fun s c =>
    .done () { c with
      pos := stop
      last := stop
      made := ⟨kind, none, start, stop, []⟩ :: c.made
      comments := if c.pos < start then
        (passed s.bytes c.pos).reverse ++ c.comments else c.comments
    }

/-- The latest finished node. -/
def latest? : Reading (Option Node) :=
  fun _ c => .done c.made.head? c

/-- Replaces the latest finished node. -/
def replaceLatest (n : Node) : Reading Unit :=
  fun _ c => .done () { c with made := n :: c.made.tail }

/-- Reads one node and gives it a role. -/
def as (r : Role) (p : Reading Unit) : Reading Unit :=
  fun s c =>
    match p s c with
    | .done () c' =>
      match c'.made with
      | n :: rest => .done () { c' with made := n.withRole r :: rest }
      | [] => .done () c'
    | .stuck i => .stuck i

/-- Builds a node from what is read; its kind is known at its end. -/
def nodeOf (p : Reading Kind) : Reading Unit :=
  fun s c =>
    let start := Scan.tokenStart s.bytes c.pos
    match p s { c with made := [] } with
    | .done kind c' =>
      let n : Node := ⟨kind, none, start, max start c'.last, c'.made.reverse⟩
      .done () { c' with made := n :: c.made }
    | .stuck i => .stuck i

/-- Builds a node of a kind from what is read. -/
def node (kind : Kind) (p : Reading Unit) : Reading Unit :=
  nodeOf do
    p
    return kind

/-- Builds a node around the latest one, which keeps or takes a role in it, and
what is read after it. -/
def wrap (kind : Kind) (r : Option Role) (p : Reading Unit) : Reading Unit :=
  fun s c =>
    match c.made with
    | [] => .stuck c.last
    | first :: rest =>
      match p s { c with made := [{ first with role := r }] } with
      | .done () c' =>
        let n : Node :=
          ⟨kind, none, first.start, max first.stop c'.last, c'.made.reverse⟩
        .done () { c' with made := n :: rest }
      | .stuck i => .stuck i

/-- Builds a node around the latest one, which plays a role in it. -/
def around (kind : Kind) (r : Role) (p : Reading Unit) : Reading Unit :=
  wrap kind (some r) p

/-- Builds a node around the latest one, which plays no role of its own
in it. -/
def enclose (kind : Kind) (p : Reading Unit) : Reading Unit :=
  wrap kind none p

/-- The next token starts with a text. -/
def at? (s : String) : Reading Bool := do
  return Scan.spells (← source) (← next) s

/-- The punctuation mark that comes next, the longest one possible. -/
def mark? : Reading (Option String) := do
  return Scan.punctuator? (← source) (← next)

/-- The word that comes next. -/
def word? : Reading (Option String) := do
  let b ← source
  let i ← next
  let j := Scan.wordEnd b i
  return if i < j then some (Text.textBetween b i j) else none

/-- The next token is a punctuation mark. -/
def isMark (s : String) : Reading Bool := do
  return (← mark?) == some s

/-- The next token is a word. -/
def isWord (s : String) : Reading Bool := do
  return (← word?) == some s

/-- Reads a token with a given text. -/
def exactly (s : String) : Reading Unit := do
  let i ← next
  if Scan.spells (← source) i s then leaf (.token s) i (i + s.utf8ByteSize)
  else stuck

/-- Reads a punctuation mark. -/
def mark (s : String) : Reading Unit := do
  if ← isMark s then exactly s else stuck

/-- Reads a keyword. -/
def keyword (s : String) : Reading Unit := do
  if ← isWord s then exactly s else stuck

/-- Reads a punctuation mark if it comes next, and says whether it did. -/
def skipMark (s : String) : Reading Bool := do
  if ← isMark s then
    exactly s
    return true
  else return false

/-- Reads a keyword if it comes next, and says whether it did. -/
def skipWord (s : String) : Reading Bool := do
  if ← isWord s then
    exactly s
    return true
  else return false

/-- A line ends before the next token. -/
def lineEndsHere : Reading Bool :=
  fun s c =>
    .done (Scan.lineEndsBetween s.bytes c.last (Scan.tokenStart s.bytes c.pos))
      c

/-- Nothing is left but spacing and comments. -/
def atEnd : Reading Bool := do
  return (← source).size ≤ (← next)

/-- Reads a word as a leaf of a kind. -/
def wordAs (kind : Kind) : Reading Unit := do
  let b ← source
  let i ← next
  let j := Scan.wordEnd b i
  if i < j then leaf kind i j else stuck

/-- Reads the name of a variable. -/
def name (kind : Kind) : Reading Unit := do
  match ← word? with
  | some w => if Scan.reservedWords.contains w then stuck else wordAs kind
  | none => stuck

/-- The end of a statement: a semicolon, or a place where one is understood,
which is the end of a line, of a block or of the source. -/
def semicolon : Reading Unit := do
  if ← skipMark ";" then pure ()
  else if ← atEnd then pure ()
  else if ← at? "\x7d" then pure ()
  else if ← lineEndsHere then pure ()
  else stuck

/-- Reads items separated by commas, in which an item may be missing, up to a
closing mark. -/
def commaSeparated (close : String) (entry : Reading Unit) : Reading Unit := do
  repeatWhile do
    if ← isMark close then return false
    else if ← skipMark "," then return true
    else
      item do
        entry
        if ← isMark close then return false
        else
          mark ","
          return true
  exactly close

/-- Reads items separated by commas, with a comma after the last one allowed,
up to a closing mark. -/
def listed (close : String) (entry : Reading Unit) : Reading Unit := do
  repeatWhile do
    if ← at? close then return false
    else
      item do
        entry
        if ← at? close then return false
        else
          mark ","
          return true
  exactly close

end Reading

end Relay.Syntax
