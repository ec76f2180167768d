import Relay.Text.Utf8

/-!
# Scanning source bytes

The smallest pieces of a source: spacing, comments, words, numbers,
punctuation.  Every function takes the position of a byte and gives a position
that is not before it.  A scan that runs along the source has an explicit
bound, the number of bytes, which it cannot use up because it moves on at every
step.
-/

namespace Relay.Syntax.Scan

open Relay.Text

/-- The byte at a position, zero after the end. -/
def byteAt (b : ByteArray) (i : Nat) : UInt8 :=
  b[i]?.getD 0

/-- The character that starts at a position, with its width in bytes.  There is
none at the end or where the bytes are ill-formed. -/
def charAt? (b : ByteArray) (i : Nat) : Option (Char × Nat) :=
  if i < b.size then
    let a := byteAt b i
    if a < 0x80 then some (Char.ofNat a.toNat, 1)
    else (front? (slice b i (i + 4))).map fun (c, more) => (c, more + 1)
  else none

/-- The bytes at a position spell a text. -/
def spells (b : ByteArray) (i : Nat) (s : String) : Bool :=
  i + s.utf8ByteSize ≤ b.size && go s.toUTF8 s.utf8ByteSize
where
  go (t : ByteArray) : Nat → Bool
    | 0 => true
    | k + 1 => byteAt b (i + k) == byteAt t k && go t k

/-- Characters that end a line: a line feed and the two Unicode separators. -/
def isLineEnd (c : Char) : Bool :=
  c == '\n' || c.toNat == 0x2028 || c.toNat == 0x2029

/-- Characters that separate tokens. -/
def isSpace (c : Char) : Bool :=
  let v := c.toNat
  (0x09 ≤ v && v ≤ 0x0D) || v == 0x20 || v == 0xA0 || v == 0x1680 ||
    (0x2000 ≤ v && v ≤ 0x200B)
    || v == 0x2028 || v == 0x2029 || v == 0x202F || v == 0x205F ||
      v == 0x2060 || v == 0x3000
    || v == 0xFEFF

/-- ASCII marks that are never part of a word. -/
def marks : List Char :=
  ":;`\"'@#.,|^&<=>+-*/\\%?!~()[]\x7b\x7d".toList

/-- Characters of a word after its first. -/
def isWordPart (c : Char) : Bool :=
  !(c.toNat < 0x20 || isSpace c || marks.contains c)

/-- Characters that a word can start with. -/
def isWordStart (c : Char) : Bool :=
  isWordPart c && !c.isDigit

/-- Hexadecimal digits. -/
def isHex (c : Char) : Bool :=
  c.isDigit || ('a' ≤ c && c ≤ 'f') || ('A' ≤ c && c ≤ 'F')

/-- The end of the longest run of characters of a class. -/
def runEnd (p : Char → Bool) (b : ByteArray) (i : Nat) : Nat :=
  go (b.size + 1) i
where
  go : Nat → Nat → Nat
    | 0, i => i
    | fuel + 1, i =>
      match charAt? b i with
      | some (c, w) => if p c then go fuel (i + w) else i
      | none => i

/-- The end of a line comment whose text starts at a position; ill-formed bytes
belong to it. -/
def lineCommentEnd (b : ByteArray) (i : Nat) : Nat :=
  go (b.size + 1) i
where
  go : Nat → Nat → Nat
    | 0, i => i
    | fuel + 1, i =>
      if i < b.size then
        match charAt? b i with
        | some (c, w) => if c == '\r' || isLineEnd c then i else go fuel (i + w)
        | none => go fuel (i + 1)
      else i

/-- The end of a block comment whose text starts at a position. -/
def blockCommentEnd? (b : ByteArray) (i : Nat) : Option Nat :=
  go (b.size + 1) i
where
  go : Nat → Nat → Option Nat
    | 0, _ => none
    | fuel + 1, i =>
      if i < b.size then
        if spells b i "*/" then some (i + 2) else go fuel (i + 1)
      else none

/-- The end of the comment at a position, if one starts there and is closed. -/
def commentEnd? (b : ByteArray) (i : Nat) : Option Nat :=
  if spells b i "//" then some (lineCommentEnd b (i + 2))
  else if spells b i "/*" then blockCommentEnd? b (i + 2)
  else none

/-- The position of the next token: spacing and comments are passed over. -/
def tokenStart (b : ByteArray) (i : Nat) : Nat :=
  go (b.size + 1) i
where
  go : Nat → Nat → Nat
    | 0, i => i
    | fuel + 1, i =>
      match charAt? b i with
      | some (c, w) =>
        if isSpace c then go fuel (i + w)
        else
          match commentEnd? b i with
          | some j => go fuel j
          | none => i
      | none => i

/-- The comments that stand between a position and the next token. -/
def commentsFrom (b : ByteArray) (i : Nat) : List (Nat × Nat) :=
  go (b.size + 1) i
where
  go : Nat → Nat → List (Nat × Nat)
    | 0, _ => []
    | fuel + 1, i =>
      match charAt? b i with
      | some (c, w) =>
        if isSpace c then go fuel (i + w)
        else
          match commentEnd? b i with
          | some j => (i, j) :: go fuel j
          | none => []
      | none => []

/-- A line ends somewhere between two positions. -/
def lineEndsBetween (b : ByteArray) (i j : Nat) : Bool :=
  (decodeLossy (slice b i j)).any isLineEnd

/-- The end of an escape for a code point that starts at a position: `\u` and
four hexadecimal digits, or any number of them in braces. -/
def codePointEscapeEnd? (b : ByteArray) (i : Nat) : Option Nat :=
  if spells b i "\\u" then
    if spells b (i + 2) "\x7b" then
      let j := runEnd isHex b (i + 3)
      if i + 3 < j && spells b j "\x7d" then some (j + 1) else none
    else
      let j := runEnd isHex b (i + 2)
      if i + 6 ≤ j then some (i + 6) else none
  else none

/-- The end of the word at a position, or the position itself if no word starts
there. -/
def wordEnd (b : ByteArray) (i : Nat) : Nat :=
  match charAt? b i with
  | some (c, w) =>
    if isWordStart c then go (b.size + 1) (i + w)
    else
      match codePointEscapeEnd? b i with
      | some j => go (b.size + 1) j
      | none => i
  | none => i
where
  go : Nat → Nat → Nat
    | 0, i => i
    | fuel + 1, i =>
      match charAt? b i with
      | some (c, w) =>
        if isWordPart c then go fuel (i + w)
        else
          match codePointEscapeEnd? b i with
          | some j => go fuel j
          | none => i
      | none => i

/-- The end of a run of digits with single underscores between them. -/
def digitsEnd (p : Char → Bool) (b : ByteArray) (i : Nat) : Nat :=
  go (b.size + 1) (runEnd p b i)
where
  go : Nat → Nat → Nat
    | 0, i => i
    | fuel + 1, i =>
      if spells b i "_" then
        let j := runEnd p b (i + 1)
        if i + 1 < j then go fuel j else i
      else i

/-- The end of an exponent part at a position, or the position itself. -/
def exponentEnd (b : ByteArray) (i : Nat) : Nat :=
  if spells b i "e" || spells b i "E" then
    let k :=
      if spells b (i + 1) "+" || spells b (i + 1) "-" then i + 2 else i + 1
    let j := digitsEnd Char.isDigit b k
    if k < j then j else i
  else i

/-- The end of a number with a base mark (`0x`, `0o`, `0b`) at a position. -/
def basedEnd? (b : ByteArray) (i : Nat) : Option Nat :=
  let digits (p : Char → Bool) : Option Nat :=
    let j := digitsEnd p b (i + 2)
    if i + 2 < j then some (if spells b j "n" then j + 1 else j) else none
  if spells b i "0x" || spells b i "0X" then digits isHex
  else if spells b i "0o" || spells b i "0O" then
    digits fun c => '0' ≤ c && c ≤ '7'
  else if spells b i "0b" || spells b i "0B" then
    digits fun c => c == '0' || c == '1'
  else none

/-- The end of the number at a position. -/
def numberEnd? (b : ByteArray) (i : Nat) : Option Nat :=
  match basedEnd? b i with
  | some j => some j
  | none =>
    let whole := digitsEnd Char.isDigit b i
    if i < whole then
      if spells b whole "n" then some (whole + 1)
      else if spells b whole "." then
        some (exponentEnd b (digitsEnd Char.isDigit b (whole + 1)))
      else some (exponentEnd b whole)
    else if spells b i "." then
      let fraction := digitsEnd Char.isDigit b (i + 1)
      if i + 1 < fraction then some (exponentEnd b fraction) else none
    else none

/-- The punctuation marks of the language, longer ones first. -/
def punctuators : List String :=
  [">>>=", "...", "===", "!==", "**=", "<<=", ">>=", ">>>", "&&=", "||=", "??=",
    "=>", "==", "!=", "<=", ">=", "&&", "||", "??", "?.", "++", "--", "+=", "-=", "*=", "/=", "%=", "&=", "|=", "^=",
    "<<", ">>", "**", "\x7b", "\x7d", "(", ")", "[", "]", ".", ";", ",", "<",
    ">", "+", "-", "*", "/", "%", "&", "|", "^", "!", "~", "?", ":", "=", "@",
    "#", "`"]

/-- The longest punctuation mark at a position.  A question mark before a
decimal point of a number stands alone. -/
def punctuator? (b : ByteArray) (i : Nat) : Option String :=
  match punctuators.find? (spells b i) with
  | some "?." =>
    if (Char.ofNat (byteAt b (i + 2)).toNat).isDigit then some "?"
    else some "?."
  | other => other

/-- Words that cannot name a variable. -/
def reservedWords : List String :=
  ["break", "case", "catch", "class", "const", "continue", "debugger",
    "default", "delete", "do", "else", "export", "extends", "false", "finally",
    "for", "function", "if", "import", "in", "instanceof", "new", "null",
    "return", "super", "switch", "this", "throw", "true", "try", "typeof",
    "var", "void", "while", "with"]

end Relay.Syntax.Scan
