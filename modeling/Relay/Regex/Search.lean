import Relay.Regex.Basic
import Relay.Text.Blank
import Relay.Text.Case
import Relay.Text.Digit

/-!
# Searching

An expression is searched for without regard to case.  `ends` maps the
positions where a match may start to the positions where it may end; since
these are finitely many, repetition is a growing set of positions that stops
growing after as many rounds as the text has places.
-/

namespace Relay.Regex

open Text

/-- Characters whose lower case is a given character. -/
def capitals (v : Nat) : List Nat :=
  lowerRuns.filterMap fun r =>
    let u := v - r.image + r.first
    if r.image ≤ v && u ≤ r.last && (v - r.image) % r.stride == 0 then some u
    else none

/-- Characters that differ from a given one at most in case. -/
def caseForms (c : Char) : List Nat :=
  let small := ((lowerChar c).headD c).toNat
  let smalls := ((letterForms.find? (·.contains small)).getD [small])
  smalls.flatMap fun v => v :: capitals v

/-- A character is of a category. -/
def Category.holds (c : Char) : Category → Bool
  | word => isWordChar c
  | digit => (digitValue? c).isSome
  | space => isBlank c

/-- A character is a member of a class, without regard to case. -/
def Item.holds (c : Char) : Item → Bool
  | range first last => (caseForms c).any fun v => first ≤ v && v ≤ last
  | category k negated => k.holds c != negated

/-- Two sets of positions together. -/
def union (ps qs : List Nat) : List Nat :=
  ps ++ qs.filter fun q => !ps.contains q

/-- The positions after one character that passes a test. -/
def advance (text : Array Char) (test : Char → Bool) (ps : List Nat) :
    List Nat :=
  ps.filterMap fun p => if (text[p]?).any test then some (p + 1) else none

/-- There is a character of a word at a position. -/
def wordAt (text : Array Char) (p : Nat) : Bool :=
  (text[p]?).any isWordChar

/-- A word starts or ends at a position. -/
def isBoundary (text : Array Char) (p : Nat) : Bool :=
  (p != 0 && wordAt text (p - 1)) != wordAt text p

/-- The positions after so many rounds. -/
def rounds (step : List Nat → List Nat) : Nat → List Nat → List Nat
  | 0, ps => ps
  | k + 1, ps => rounds step k (step ps)

/-- The positions after at most so many rounds. -/
def upTo (step : List Nat → List Nat) : Nat → List Nat → List Nat
  | 0, ps => ps
  | k + 1, ps => union ps (upTo step k (step ps))

/-- The positions where a match that starts at one of some positions may end. -/
def ends (text : Array Char) : Regex → List Nat → List Nat
  | empty, ps => ps
  | any, ps => advance text (· != '\n') ps
  | oneOf negated items, ps =>
      advance text (fun c => items.any (·.holds c) != negated) ps
  | textStart, ps => ps.filter (· == 0)
  | lineEnd, ps =>
    ps.filter fun p => p == text.size ||
      (p + 1 == text.size && text[p]? == some '\n')
  | textEnd, ps => ps.filter (· == text.size)
  | boundary negated, ps =>
      ps.filter fun p => text.size != 0 && isBoundary text p != negated
  | seq a b, ps => ends text b (ends text a ps)
  | alt a b, ps => union (ends text a ps) (ends text b ps)
  | group r, ps => ends text r ps
  | repeated least most r, ps =>
    let more := match most with
      | some most => min (most - least) text.size
      | none => text.size
    upTo (fun qs => ends text r qs) more
      (rounds (fun qs => ends text r qs) least ps)

/-- An expression matches somewhere in a text. -/
def search (r : Regex) (s : String) : Bool :=
  let text := s.toList.toArray
  !(ends text r (List.range (text.size + 1))).isEmpty

end Relay.Regex
