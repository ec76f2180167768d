/-!
# Binary numbers

Numbers with a fraction are kept in the usual binary format: a mantissa of at
most 53 bits times a power of two from -1074 to 971.  A decimal is read as the
nearest such number; half way between two of them the even mantissa wins.
-/

namespace Relay.Decimal

/-- A binary number: `mantissa * 2 ^ exponent`, an infinity, or no number at
all. -/
inductive Double where
  | finite (negative : Bool) (mantissa : Nat) (exponent : Int)
  | infinite (negative : Bool)
  | undefined
deriving DecidableEq

/-- A quotient rounded to the nearest natural number, half way to the
even one. -/
def roundDiv (num den : Nat) : Nat :=
  let q := num / den
  let r := num % den
  if 2 * r < den then q
  else if den < 2 * r then q + 1
  else if q % 2 = 0 then q else q + 1

/-- The least exponent of a binary number. -/
def leastExponent : Int := -1074

/-- The greatest exponent of a binary number. -/
def greatestExponent : Int := 971

/-- The quotient of `num * 2 ^ (-q)` and `den`, as numerator and denominator. -/
def scaled (num den : Nat) (q : Int) : Nat × Nat :=
  (num * Nat.pow 2 (-q).toNat, den * Nat.pow 2 q.toNat)

/-- The exponent that leaves 53 bits before the point of a positive quotient. -/
def exponentFor (num den : Nat) : Int :=
  let guess : Int := (num.log2 : Int) - den.log2 - 53
  let (a, b) := scaled num den guess
  if a / b < Nat.pow 2 53 then guess else guess + 1

/-- The binary number nearest to a positive quotient. -/
def nearest (negative : Bool) (num den : Nat) : Double :=
  let q := max (exponentFor num den) leastExponent
  let (a, b) := scaled num den q
  let m := roundDiv a b
  let (m, q) := if m = Nat.pow 2 53 then (Nat.pow 2 52, q + 1) else (m, q)
  if greatestExponent < q then .infinite negative else .finite negative m q

/-- The number of decimal digits that the least binary number has after the
point, and more than the greatest one has before it. -/
def decimalReach : Int := 400

/-- The binary number nearest to `digits * 10 ^ exponent`, where `count` bounds
the number of digits. -/
def Double.ofDecimal (negative : Bool) (digits count : Nat) (exponent : Int) :
    Double :=
  if digits = 0 || count + exponent < -decimalReach then
    .finite negative 0 leastExponent
  else if decimalReach < exponent then .infinite negative
  else nearest negative (digits * Nat.pow 10 exponent.toNat)
    (Nat.pow 10 (-exponent).toNat)

/-- The whole part of a number, if it has one. -/
def Double.truncate? : Double → Option Int
  | finite negative m q =>
    let n : Int := (m * Nat.pow 2 q.toNat / Nat.pow 2 (-q).toNat : Nat)
    some (if negative then -n else n)
  | _ => none

/-- A number other than zero. -/
def Double.isNonzero : Double → Bool
  | finite _ m _ => m != 0
  | _ => true

end Relay.Decimal
