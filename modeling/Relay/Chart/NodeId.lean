/-!
# The names of the parts of a chart

A chart has a part for every middleware, for the files below it and for the
calls that are made in them.  The name of a part says where it stands.
-/

namespace Relay.Chart

/-- Where a part of a chart stands. -/
inductive NodeId where
  /-- A middleware. -/
  | middleware (index : Nat)
  /-- The file of a middleware that has other files below it. -/
  | main (index : Nat)
  /-- A file below a middleware, by its positions on the way from the top, the
  last one first. -/
  | component (index : Nat) (steps : List Nat)
  /-- The frame around a file and those below it. -/
  | frame (index : Nat) (steps : List Nat)
  /-- A call that is made in another part. -/
  | call (owner : NodeId) (position : Nat)
deriving DecidableEq

namespace NodeId

/-- The name of a file below a middleware. -/
def componentText (index : Nat) : List Nat → String
  | [] => s!"MW{index + 1}"
  | step :: rest => s!"{componentText index rest}_c{step}"

/-- The name of a part. -/
def text : NodeId → String
  | middleware index => s!"MW{index + 1}"
  | main index => s!"MW{index + 1}_main"
  | component index steps => componentText index steps
  | frame index steps => s!"{componentText index steps}_sg"
  | call owner position => s!"{owner.text}_ext{position}"

end NodeId

end Relay.Chart
