import Relay.Middleware

/-!
# Who writes and who reads a property

Every property of a bag has producers and consumers along an endpoint.  They
are files, and a file stands for the middleware that it was first met in, which
owns it.
-/

namespace Relay

open Analysis

/-- Who writes and who reads a property. -/
structure PropertyFlow where
  producers : List String := []
  consumers : List String := []
deriving DecidableEq

/-- The flow with one more member on the side of writers or readers. -/
def PropertyFlow.add (flow : PropertyFlow) (kind : UsageKind)
    (member : String) : PropertyFlow :=
  match kind with
  | .write => { flow with producers := addOnce flow.producers member }
  | .read => { flow with consumers := addOnce flow.consumers member }

/-- Properties with who writes and who reads them, in the order of their first
mention. -/
abbrev PropertyFlows := List (String × PropertyFlow)

/-- The flows with the flow of one property changed, which is added if it is
new. -/
def PropertyFlows.update (f : PropertyFlow → PropertyFlow) (property : String) :
    PropertyFlows → PropertyFlows
  | [] => [(property, f {})]
  | (p, flow) :: rest =>
    if p = property then (p, f flow) :: rest
    else (p, flow) :: update f property rest

/-- Files with the middleware that they were first met in. -/
abbrev Owners := List (Path × String)

/-- The owners with a file that belongs to a middleware unless it has an
owner. -/
def Owners.claim (owners : Owners) (path : Path) (specifier : String) :
    Owners :=
  if (List.lookup path owners).isSome then owners
  else owners ++ [(path, specifier)]

/-- The owner of a file, which is the given middleware if it has none. -/
def Owners.owner (owners : Owners) (path : Path) (specifier : String) :
    String :=
  (List.lookup path owners).getD specifier

/-- The owners of files and the flows of properties. -/
structure Ledger where
  owners : Owners := []
  flows : PropertyFlows := []
deriving DecidableEq

namespace Ledger

/-- Takes in one usage of a middleware. -/
def add (kind : UsageKind) (specifier : String) (l : Ledger)
    (u : PropertyUsage) : Ledger where
  owners := l.owners.claim u.path specifier
  flows :=
    let member := s!"{l.owners.owner u.path specifier}::{u.path.short}"
    PropertyFlows.update (·.add kind member) u.property l.flows

/-- Takes in the usages of a middleware, the writes first. -/
def addAll (l : Ledger) (specifier : String)
    (writes reads : List PropertyUsage) : Ledger :=
  reads.foldl (add .read specifier) (writes.foldl (add .write specifier) l)

end Ledger

end Relay
