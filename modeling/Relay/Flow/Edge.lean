import Relay.Middleware

/-!
# Edges

An edge joins two middlewares that follow each other.  A component edge joins
two files of which one writes a property that the other reads, if the writer
does not come later.
-/

namespace Relay

open Analysis

/-- Two middlewares that follow each other, with the properties that one writes
and the other reads. -/
structure Edge where
  source : String
  target : String
  properties : List String
deriving DecidableEq

/-- The properties that one middleware writes and another reads, each once. -/
def sharedProperties (current following : Middleware) : List String :=
  (current.localsWrites.map (·.property)).foldl (fun shared p =>
    if following.localsReads.any (·.property = p) then addOnce shared p
    else shared) []

/-- The edges between neighbours. -/
def edgesBetween (middlewares : List Middleware) : List Edge :=
  List.zipWith (fun a b => ⟨a.name, b.name, sharedProperties a b⟩) middlewares
    (middlewares.drop 1)

/-- Two files of which one writes a property that the other reads. -/
structure ComponentEdge where
  source : String
  target : String
  property : String
deriving DecidableEq

/-- A property that is used in a file of the middleware with a number. -/
structure Occurrence where
  property : String
  index : Nat
  path : Path
deriving DecidableEq

/-- The occurrences of some usages in the files of each middleware. -/
def occurrences (m : Memory) (usages : Facts → List PropertyUsage)
    (middlewares : List Middleware) :
    List Occurrence :=
  middlewares.zipIdx.flatMap fun (middleware, index) =>
    (middleware.record.map m.expand |>.getD []).flatMap fun r =>
      (usages r.facts).map fun u => ⟨u.property, index, r.path⟩

/-- The edge from a writing to a reading file, if the state can flow
that way. -/
def componentEdge? (write read : Occurrence) : Option ComponentEdge :=
  if write.property = read.property ∧ write.index ≤ read.index ∧
      write.path ≠ read.path then
    some ⟨write.path.short, read.path.short, write.property⟩
  else none

/-- The occurrences grouped by property, in the order of the first one of each
property. -/
def groupedByProperty (occurrences : List Occurrence) : List Occurrence :=
  (uniqueBy id (occurrences.map (·.property))).flatMap fun p =>
    occurrences.filter (·.property = p)

/-- The edges between single files. -/
def componentEdges (m : Memory) (middlewares : List Middleware) :
    List ComponentEdge :=
  let writes :=
    groupedByProperty (occurrences m (·.usages.localsWrites) middlewares)
  let reads := occurrences m (·.usages.localsReads) middlewares
  uniqueBy id (writes.flatMap fun w => reads.filterMap (componentEdge? w))

end Relay
