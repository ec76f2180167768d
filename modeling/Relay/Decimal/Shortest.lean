import Relay.Decimal.Double

/-!
# Shortest decimals

A binary number is written with the fewest digits that read back as it.  All
decimals between the half-way points to its two neighbours do, with the
half-way points themselves when the mantissa is even.  Of several shortest ones
the nearest is taken.

Numbers are written positionally from `0.0001` to below `10 ^ 16`, and with an
exponent of at least two digits elsewhere.
-/

namespace Relay.Decimal

/-- The decimal `digits * 10 ^ exponent`. -/
structure Digits where
  digits : Nat
  exponent : Int
deriving DecidableEq

/-- Compares `a * 10 ^ i` with `n * 2 ^ j`. -/
def compareScaled (a : Nat) (i : Int) (n : Nat) (j : Int) : Ordering :=
  compare (a * Nat.pow 10 i.toNat * Nat.pow 2 (-j).toNat)
    (n * Nat.pow 2 j.toNat * Nat.pow 10 (-i).toNat)

/-- A decimal reads back as `m * 2 ^ q`. -/
def readsBack (m : Nat) (q : Int) (d : Digits) : Bool :=
  let low :=
    if m = Nat.pow 2 52 ∧ leastExponent < q then 4 * m - 1 else 4 * m - 2
  let below := compareScaled d.digits d.exponent low (q - 2)
  let above := compareScaled d.digits d.exponent (4 * m + 2) (q - 2)
  let closed := m % 2 = 0
  (below == .gt || (closed && below == .eq)) &&
    (above == .lt || (closed && above == .eq))

/-- The least `k` of some candidates with `m * 2 ^ q < 10 ^ k`. -/
def scaleAmong (m : Nat) (q : Int) : List Int → Int
  | [] => 0
  | k :: rest => if compareScaled 1 k m q == .gt then k else scaleAmong m q rest

/-- The least `k` with `m * 2 ^ q < 10 ^ k`. -/
def scaleOf (m : Nat) (q : Int) : Int :=
  let guess := (((m.log2 : Int) + q) * 30103).fdiv 100000
  scaleAmong m q ((List.range 5).map fun i : Nat => guess - 1 + (i : Int))

/-- The nearest of the two decimals with a given last place around `m * 2 ^ q`
that read back. -/
def onGrid? (m : Nat) (q place : Int) : Option Digits :=
  let num := m * Nat.pow 2 q.toNat * Nat.pow 10 (-place).toNat
  let den := Nat.pow 2 (-q).toNat * Nat.pow 10 place.toNat
  let down : Digits := ⟨num / den, place⟩
  let up : Digits := ⟨num / den + 1, place⟩
  match readsBack m q down, readsBack m q up with
  | true, true => some ⟨roundDiv num den, place⟩
  | true, false => some down
  | false, true => some up
  | false, false => none

/-- A decimal without zeros at the end of its digits. -/
def dropZeros : Nat → Digits → Digits
  | 0, d => d
  | k + 1, d =>
    if d.digits % 10 = 0 && d.digits != 0 then
      dropZeros k ⟨d.digits / 10, d.exponent + 1⟩
    else d

/-- The shortest decimal that reads back as `m * 2 ^ q`, where `m` is
not zero. -/
def shortest (m : Nat) (q : Int) : Digits :=
  let k := scaleOf m q
  let found :=
    (List.range 17).findSome? fun i : Nat => onGrid? m q (k - 1 - (i : Int))
  dropZeros 20 (found.getD ⟨m * Nat.pow 2 q.toNat * Nat.pow 5 (-q).toNat,
    min q 0⟩)

/-- A text of zeros. -/
def zeros (n : Nat) : String :=
  String.ofList (List.replicate n '0')

/-- Some digits with a point after the first `k` of them. -/
def withPoint (k : Nat) (digits : String) : String :=
  String.ofList (digits.toList.take k) ++ "." ++
    String.ofList (digits.toList.drop k)

/-- The exponent of a number: a sign and at least two digits. -/
def exponentText (e : Int) : String :=
  let digits := toString e.natAbs
  "e" ++ (if e < 0 then "-" else "+") ++
    (if digits.length < 2 then "0" ++ digits else digits)

/-- The text of a positive decimal. -/
def Digits.text (d : Digits) : String :=
  let digits := toString d.digits
  let count := digits.length
  -- the exponent of the first digit
  let lead := d.exponent + count - 1
  if lead < -4 ∨ 16 ≤ lead then
    (if count = 1 then digits else withPoint 1 digits) ++ exponentText lead
  else if lead < 0 then "0." ++ zeros (-lead - 1).toNat ++ digits
  else if count ≤ lead.toNat + 1 then
    digits ++ zeros (lead.toNat + 1 - count) ++ ".0"
  else withPoint (lead.toNat + 1) digits

/-- The text of a binary number; the texts of what is no finite number are
given. -/
def Double.text (infinite undefined : String) : Double → String
  | finite negative m q =>
    (if negative then "-" else "") ++
      (if m = 0 then "0.0" else (shortest m q).text)
  | .infinite negative => (if negative then "-" else "") ++ infinite
  | .undefined => undefined

end Relay.Decimal
