import Relay.Endpoint
import Relay.Flow.Edge
import Relay.Flow.Property
import Relay.Json.Shown

/-!
# The flow of state along an endpoint

The middlewares of an endpoint are analysed one after the other.  From what is
known about them follow the edges between neighbours and between single files,
and who writes and reads each property.
-/

namespace Relay

/-- What is known about the flow of state along an endpoint. -/
structure FlowResult where
  endpoint : Endpoint
  middlewares : List Middleware := []
  edges : List Edge := []
  locals : PropertyFlows := []
  transaction : PropertyFlows := []
  componentEdges : List ComponentEdge := []
  cancelled : Bool := false

/-- The flows of the shared properties, the most consumed first. -/
def FlowResult.summary (r : FlowResult) : PropertyFlows :=
  r.locals.mergeSort fun a b => b.2.consumers.length ≤ a.2.consumers.length

/-- What is known while the middlewares are analysed one after the other. -/
structure Passed where
  middlewares : List Middleware := []
  owners : Owners := []
  locals : PropertyFlows := []
  transaction : PropertyFlows := []
  cancelled : Bool := false

/-- Takes one more middleware into what is known. -/
def Passed.add (t : Passed) (m : Middleware) : Passed :=
  let locals :=
    Ledger.addAll ⟨t.owners, t.locals⟩ m.name m.localsWrites m.localsReads
  let transaction :=
    Ledger.addAll ⟨locals.owners, t.transaction⟩ m.name
      m.transactionWrites m.transactionReads
  { t with
    middlewares := t.middlewares ++ [m]
    owners := transaction.owners
    locals := locals.flows
    transaction := transaction.flows }

/-- The progress with one more entry about the flow in the log. -/
def Progress.tell (p : Progress) (level : Level) (text : String) : Progress :=
  { p with log := p.log ++ [⟨level, .flow, text⟩] }

namespace Scene

/-- Analyses middlewares one after the other; `patience` is the number of them
after which the analysis is cancelled, if it is. -/
def analyzeChain (s : Scene) (patience : Option Nat) (p : Progress)
    (t : Passed) :
    List String → Attempt Passed
  | [] => (p, .ok t)
  | specifier :: rest =>
    if patience = some 0 then
      (p.tell .info
        s!"Analysis cancelled after {t.middlewares.length} middlewares",
        .ok { t with cancelled := true })
    else
      match s.analyzeMiddleware p specifier with
      | (p, .error e) => (p, .error e)
      | (p, .ok m) => analyzeChain s (patience.map (· - 1)) p (t.add m) rest

/-- The address of an endpoint in the log. -/
def addressText (endpoint : Endpoint) (unnamed : String) : String :=
  if endpoint.uri.isFilled then endpoint.uri.shown else unnamed

/-- The result that follows from what is known about the middlewares. -/
def conclude (m : Memory) (endpoint : Endpoint) (t : Passed) : FlowResult where
  endpoint := endpoint
  middlewares := t.middlewares
  edges := edgesBetween t.middlewares
  locals := t.locals
  transaction := t.transaction
  componentEdges := componentEdges m t.middlewares
  cancelled := t.cancelled

/-- Analyses the middlewares of an endpoint, with nothing remembered from
before. -/
def analyzeFlow (s : Scene) (patience : Option Nat) (p : Progress)
    (endpoint : Endpoint) :
    Attempt FlowResult :=
  let p := p.remember fun _ => {}
  match endpoint.specifiers? with
  | none =>
    let address := addressText endpoint "<unknown>"
    (p.tell .warning s!"Invalid middleware list for endpoint {address}",
      .ok { endpoint := endpoint })
  | some specifiers =>
    let address := addressText endpoint "<endpoint>"
    let p :=
      p.tell .info s!"Analyzing {specifiers.length} middlewares for {address}"
    match s.analyzeChain patience p {} specifiers with
    | (p, .error e) => (p, .error e)
    | (p, .ok t) =>
      let result := conclude p.memory endpoint t
      (p.tell .info
        s!"Finished {address}: {result.locals.length} properties, {result.edges.length} edges",
        .ok result)

end Scene

end Relay
