import Relay.Chart.Label
import Relay.Chart.NodeId

/-!
# The lines of a chart

A chart is written as lines: boxes, frames around boxes, and arrows.
-/

namespace Relay.Chart

open Analysis

/-- The look of a box. -/
inductive Look where
  | plain | writes | reads | both | component | expandable
deriving DecidableEq

/-- The mark of a look. -/
def Look.mark : Look → String
  | plain => ""
  | writes => ":::hasWrites"
  | reads => ":::hasReads"
  | both => ":::hasBoth"
  | component => ":::component"
  | expandable => ":::expandable"

/-- The look of a box by what is done in it. -/
def Look.of (writes reads : Bool) (otherwise : Look) : Look :=
  match writes, reads with
  | true, true => both
  | true, false => .writes
  | false, true => .reads
  | false, false => otherwise

/-- A line of a chart without its indent. -/
inductive Mark where
  /-- The beginning of a frame. -/
  | opening (id : NodeId) (label : String)
  /-- The direction inside a frame. -/
  | direction
  /-- The end of a frame. -/
  | closing
  /-- A box. -/
  | box (id : NodeId) (label : String) (look : Look)
  /-- The box of a call. -/
  | callBox (id : NodeId) (call : ServiceCall)
  /-- An arrow. -/
  | arrow (source target : NodeId)
  /-- The arrow to a call. -/
  | callArrow (source target : NodeId)
  /-- An arrow with a label. -/
  | labelled (source target : NodeId) (label : String)
deriving DecidableEq

/-- The text of a line. -/
def Mark.text : Mark → String
  | opening id label => s!"subgraph {id.text}[\"" ++ label ++ "\"]"
  | direction => "direction TB"
  | closing => "end"
  | box id label look => id.text ++ "[\"" ++ label ++ "\"]" ++ look.mark
  | callBox id call => id.text ++ "([\"" ++ callLabel call ++ "\"]):::external"
  | arrow source target => s!"{source.text} --> {target.text}"
  | callArrow source target => s!"{source.text} -.-> {target.text}"
  | labelled source target label => source.text ++ " -->|\"" ++ label ++ "\"| " ++ target.text

/-- A line of a chart with the number of steps that it is indented by. -/
structure Line where
  indent : Nat
  mark : Mark
deriving DecidableEq

/-- The text of a line; a step is four blanks wide. -/
def Line.text (l : Line) : String :=
  String.ofList (List.replicate (4 * l.indent) ' ') ++ l.mark.text

/-- The call of a line, with the name of its box. -/
def Line.call? (l : Line) : Option (NodeId × ServiceCall) :=
  match l.mark with
  | .callBox id call => some (id, call)
  | _ => none

end Relay.Chart
