/-!
# Reading bytes as text

Source files are bytes.  A byte that starts no well-formed UTF-8 sequence is
left out, and the reading goes on with the next byte.  The key local fact is
that a continuation byte never starts a sequence, so leaving out one byte at a
time drops exactly the ill-formed part and nothing after it.
-/

namespace Relay.Text

/-- A continuation byte carries six bits of a character that started earlier. -/
def isContinuation (b : UInt8) : Bool :=
  0x80 ≤ b && b < 0xC0

/-- The six bits that a continuation byte carries. -/
def payload (b : UInt8) : Nat :=
  b.toNat - 0x80

/-- A code point that a longer sequence may spell: not one that fits a shorter
sequence, and no surrogate. -/
def spelled? (least : Nat) (v : Nat) : Option Char :=
  if least ≤ v ∧ v.isValidChar then some (Char.ofNat v) else none

/-- The character whose well-formed sequence stands in front, with the number
of bytes of it after the first. -/
def front? : List UInt8 → Option (Char × Nat)
  | [] => none
  | a :: rest =>
    if a < 0x80 then some (Char.ofNat a.toNat, 0)
    else if a < 0xC0 then none
    else if a < 0xE0 then
      match rest with
      | b :: _ =>
        if isContinuation b then
          (spelled? 0x80 ((a.toNat - 0xC0) * 64 + payload b)).map (·, 1)
        else none
      | _ => none
    else if a < 0xF0 then
      match rest with
      | b :: c :: _ =>
        if isContinuation b && isContinuation c then
          (spelled? 0x800 (((a.toNat - 0xE0) * 64 + payload b) * 64 +
            payload c)).map (·, 2)
        else none
      | _ => none
    else if a < 0xF8 then
      match rest with
      | b :: c :: d :: _ =>
        if isContinuation b && isContinuation c && isContinuation d then
          (spelled? 0x10000
            ((((a.toNat - 0xF0) * 64 + payload b) * 64 + payload c) * 64 +
              payload d)).map (·, 3)
        else none
      | _ => none
    else none

/-- Characters of the bytes after the first `k`, which belong to a character
already read. -/
def decodeAfter : Nat → List UInt8 → List Char
  | _, [] => []
  | k + 1, _ :: rest => decodeAfter k rest
  | 0, a :: rest =>
    match front? (a :: rest) with
    | some (c, k) => c :: decodeAfter k rest
    | none => decodeAfter 0 rest

/-- The text of some bytes, ill-formed ones left out. -/
def decodeLossy (bytes : List UInt8) : List Char :=
  decodeAfter 0 bytes

/-- The bytes of a range of a byte array, from `start` up to `stop`. -/
def slice (bytes : ByteArray) (start stop : Nat) : List UInt8 :=
  (bytes.extract start stop).data.toList

/-- The text of a range of a byte array. -/
def textBetween (bytes : ByteArray) (start stop : Nat) : String :=
  String.ofList (decodeLossy (slice bytes start stop))

/-- The text of all of a byte array. -/
def textOf (bytes : ByteArray) : String :=
  String.ofList (decodeLossy bytes.data.toList)

end Relay.Text
