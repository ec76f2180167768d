import Relay.Text.Blank
import Relay.Text.Digit

/-!
# Whole numbers in a text

A whole number is written with a sign, if any, and decimal digits of any
script.  A single underscore may stand between two digits, and blanks may stand
around the number.
-/

namespace Relay.Text

/-- A blank that may stand around a number; the information separators
may not. -/
def isOuterBlank (c : Char) : Bool :=
  isBlank c && !(0x1C ≤ c.toNat && c.toNat ≤ 0x1F)

/-- The characters without the blanks around a number. -/
def stripOuter (cs : List Char) : List Char :=
  ((cs.dropWhile isOuterBlank).reverse.dropWhile isOuterBlank).reverse

/-- The number that digits go on with, after a digit. -/
def digitsAfter? (value : Nat) : List Char → Option Nat
  | [] => some value
  | '_' :: c :: rest =>
      (digitValue? c).bind fun d => digitsAfter? (value * 10 + d) rest
  | c :: rest =>
      (digitValue? c).bind fun d => digitsAfter? (value * 10 + d) rest

/-- The number of some digits. -/
def digits? : List Char → Option Nat
  | [] => none
  | c :: rest => (digitValue? c).bind fun d => digitsAfter? d rest

/-- The whole number that a text stands for. -/
def whole? (s : String) : Option Int :=
  match stripOuter s.toList with
  | '-' :: digits => (digits? digits).map fun n => -(n : Int)
  | '+' :: digits => (digits? digits).map Int.ofNat
  | digits => (digits? digits).map Int.ofNat

end Relay.Text
