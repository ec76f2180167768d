import Relay.Analysis.ServiceCall
import Relay.Text.Case
import Relay.Text.Pieces

/-!
# Labels

The texts in the boxes and on the arrows of a chart.  A label stands between
double quotes, so those inside it become single ones.
-/

namespace Relay.Chart

open Analysis

/-- A label as it stands between double quotes. -/
def inQuotes (label : String) : String :=
  Text.replaceChar '"' '\'' label

/-- The greatest length of the name of a call. -/
def greatestName : Nat := 35

/-- The parts of the name of a call that do not stand for a value. -/
def fixedParts (name : String) : List String :=
  (Text.split '/' name).filter fun part => part ≠ "" ∧
    ¬ Text.startsWith part "$"

/-- The name of a call, of which a long one is cut to its last two parts. -/
def shortened (name : String) : String :=
  if name.length ≤ greatestName then name
  else
    match fixedParts name with
    | [] => String.ofList (name.toList.take 32) ++ "..."
    | parts => ".../" ++ Text.join "/" (parts.drop (parts.length - 2))

/-- The label of a call. -/
def callLabel (c : ServiceCall) : String :=
  let family := if c.family = "" then "" else Text.upper c.family ++ ": "
  inQuotes (family ++ shortened (c.template.getD ""))

/-- The greatest number of entries on an edge. -/
def greatestEntries : Nat := 12

/-- The number of entries on a line. -/
def entriesPerLine : Nat := 3

/-- Consecutive groups of `n + 1` values, of which the last may be shorter. -/
def inGroups {α : Type} (n : Nat) : List α → List (List α)
  | [] => []
  | a :: rest => (a :: rest.take n) :: inGroups n (rest.drop n)
termination_by items => items.length
decreasing_by
  simp only [List.length_drop, List.length_cons]
  omega

/-- Lines with a text added to the last one. -/
def addToLast (text : String) : List String → List String
  | [] => []
  | [line] => [line ++ text]
  | line :: rest => line :: addToLast text rest

/-- The lines of the label of an edge: with too many properties, the last ones
are only counted. -/
def edgeLines (properties : List String) : List String :=
  let lines := fun (shown : List String) =>
    (inGroups (entriesPerLine - 1) shown).map (Text.join ", ")
  if properties.length ≤ greatestEntries then lines properties
  else
    let more := properties.length - (greatestEntries - 1)
    addToLast s!", +{more} more" (lines (properties.take (greatestEntries - 1)))

/-- The label of an edge. -/
def edgeLabel (properties : List String) : String :=
  Text.join "\\n" (edgeLines properties)

end Relay.Chart
