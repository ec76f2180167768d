import Relay.Chart.NodeId
import Relay.Middleware
import Relay.Text.Case

/-!
# Where calls are drawn

A chart can be folded: the files below a middleware are drawn unless it is
folded, and the files below another one only if that one is open.  A call is
drawn at its file, or at the nearest file above it that is drawn.  Files are
told apart by their paths regardless of case.
-/

namespace Relay.Chart

open Analysis

/-- What is folded and what is open, by the names of parts. -/
abbrev Folding := List String

namespace Folding

/-- The files below a middleware are drawn. -/
def showsMiddleware (f : Folding) (index : Nat) : Bool :=
  !f.contains s!"MW{index + 1}_collapsed"

/-- The files below a file are drawn if the file is. -/
def isOpen (f : Folding) (index : Nat) (steps : List Nat) : Bool :=
  f.contains (NodeId.component index steps).text

end Folding

/-- A path regardless of case. -/
def pathKey (p : Path) : String :=
  Text.replaceChar '\\' '/' (Text.lower p.text)

/-- A part at which the calls of a file are drawn; either it is the file's own
or one above it. -/
structure Spot where
  node : NodeId
  isOwn : Bool
deriving DecidableEq

/-- Files with the spots of their calls. -/
abbrev Spots := List (String × Spot)

namespace Spots

/-- The spots with a file at its own part, unless it already has one. -/
def putOwn (key : String) (node : NodeId) : Spots → Spots
  | [] => [(key, ⟨node, true⟩)]
  | (k, spot) :: rest =>
    if k = key then (k, if spot.isOwn then spot else ⟨node, true⟩) :: rest
    else (k, spot) :: putOwn key node rest

/-- The spots with a file at a part above it, unless it already has a spot. -/
def putAbove (spots : Spots) (key : String) (node : NodeId) : Spots :=
  if (spots.lookup key).isSome then spots else spots ++ [(key, ⟨node, false⟩)]

end Spots

section

variable (folding : Folding) (index : Nat)

mutual

/-- Adds the spots of a file and of those below it.  `drawn` says that the file
is drawn, and `above` is the nearest part above it that is drawn. -/
def addSpots (steps : List Nat) (drawn : Bool) (above : NodeId)
    (spots : Spots) : Record → Spots
  | ⟨_, _, path, _, _, _, _, children⟩ =>
    let key := pathKey path
    let spots :=
      if drawn then spots.putOwn key (.component index steps)
      else spots.putAbove key above
    let above := if drawn then .component index steps else above
    addAllSpots steps 0 (drawn && folding.isOpen index steps)
      above spots children

/-- Adds the spots of files that stand below one another, from a position on. -/
def addAllSpots (steps : List Nat) (position : Nat) (drawn : Bool)
    (above : NodeId) (spots : Spots) : List Record → Spots
  | [] => spots
  | r :: rest =>
    addAllSpots steps (position + 1) drawn above
      (addSpots (position :: steps) drawn above spots r) rest

end

end

/-- The part of the file of a middleware. -/
def mainId (index : Nat) (m : Middleware) : NodeId :=
  if m.components.isEmpty then .middleware index else .main index

/-- The spots of the files of a middleware. -/
def spotsOf (folding : Folding) (index : Nat) (m : Middleware) : Spots :=
  let own : Spots := match m.path with
    | some path => [(pathKey path, ⟨mainId index m, true⟩)]
    | none => []
  addAllSpots folding index [] 0 (folding.showsMiddleware index)
    (mainId index m) own m.components

/-- What tells the calls of a chart apart. -/
def callMark (c : ServiceCall) : String × Option String × Nat × String :=
  (c.family, c.template, c.line, pathKey c.path)

/-- The calls of a middleware that have a template, with the parts at which
they are drawn. -/
def callsOf (folding : Folding) (index : Nat) (m : Middleware) :
    List (NodeId × ServiceCall) :=
  let spots := spotsOf folding index m
  (m.calls.filter fun c => c.template.getD "" ≠ "").map fun c =>
    (((spots.lookup (pathKey c.path)).map Spot.node).getD (mainId index m), c)

/-- The calls of a chart with the parts at which they are drawn, each call
once. -/
def placedCalls (folding : Folding) (middlewares : List Middleware) :
    List (NodeId × ServiceCall) :=
  uniqueBy (fun placed => callMark placed.2)
    (middlewares.zipIdx.flatMap fun (m, index) => callsOf folding index m)

end Relay.Chart
