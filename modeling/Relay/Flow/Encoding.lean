import Relay.Encoding
import Relay.Flow.Result

/-!
# The flow as data

The form that the flow along an endpoint has in a report, with a row for every
property and a tree of the files below each middleware.
-/

namespace Relay

/-- The data of a middleware. -/
def Middleware.toJson (m : Middleware) : Json :=
  .object (
    [("name", .string m.name), ("filePath", .ofPath? m.path),
      ("exists", .bool m.isThere),
      ("runFunctionLine", .ofNat? (m.exportLine? "run")),
      ("panicFunctionLine", .ofNat? (m.exportLine? "panic"))]
    ++ m.ownFacts.fields
    ++ [("components", .array (Record.toJsonAll m.components)),
      ("allResLocalsReads", .array (m.localsReads.map (·.toJson))),
      ("allResLocalsWrites", .array (m.localsWrites.map (·.toJson))),
      ("allReqTransactionReads", .array (m.transactionReads.map (·.toJson))),
      ("allReqTransactionWrites", .array (m.transactionWrites.map (·.toJson))),
      ("allDataUsages", .array (m.data.map (·.toJson))),
      ("allExternalCalls", .array (m.calls.map (·.toJson))),
      ("allConfigDeps", .array (m.lookups.map (·.toJson)))])

/-- The data of the flow of a property. -/
def PropertyFlow.toJson (f : PropertyFlow) : Json :=
  .object [("producers", .strings f.producers),
    ("consumers", .strings f.consumers)]

/-- The data of the flows of some properties. -/
def PropertyFlows.toJson (fs : PropertyFlows) : Json :=
  .object (fs.map fun (name, flow) => (name, flow.toJson))

/-- The data of an edge. -/
def Edge.toJson (e : Edge) : Json :=
  .object
    [("from", .string e.source), ("to", .string e.target),
      ("properties", .strings e.properties)]

/-- The data of an edge between files. -/
def ComponentEdge.toJson (e : ComponentEdge) : Json :=
  .object
    [("from", .string e.source), ("to", .string e.target),
      ("property", .string e.property), ("type", .string "write-read")]

/-- A row of the summary. -/
def PropertyFlow.row (name : String) (f : PropertyFlow) : Json :=
  .object
    [("property", .string name), ("producers", .strings f.producers),
      ("consumers", .strings f.consumers)]

/-- The node of a usage in the tree of files. -/
def Analysis.PropertyUsage.treeNode (u : Analysis.PropertyUsage) : Json :=
  .object [("property", .string u.property), ("line", .int u.line)]

/-- The node of a service call in the tree of files. -/
def Analysis.ServiceCall.treeNode (c : Analysis.ServiceCall) : Json :=
  .object [("type", .string c.family), ("template", .ofString? c.template),
    ("line", .int c.line)]

/-- The node of a look-up in the tree of files. -/
def Analysis.Lookup.treeNode (l : Analysis.Lookup) : Json :=
  .object [("source", .string l.source), ("key", .string l.key),
    ("line", .int l.line)]

namespace Record

mutual

/-- The node of a record in the tree of files. -/
def treeNode : Record → Json
  | ⟨_, displayName, path, _, _, facts, shallow, children⟩ =>
    .object
      [("name", .string displayName), ("path", .string path.text),
        ("shallow", .bool shallow), ("resLocals", .object
          [("reads", .array (facts.usages.localsReads.map (·.treeNode))),
            ("writes", .array (facts.usages.localsWrites.map (·.treeNode)))]),
        ("externalCalls", .array (facts.calls.map (·.treeNode))),
        ("configDeps", .array (facts.lookups.map (·.treeNode))),
        ("children", .array (treeNodes children))]

/-- The nodes of some records in the tree of files. -/
def treeNodes : List Record → List Json
  | [] => []
  | r :: rest => r.treeNode :: treeNodes rest

end

end Record

/-- The tree of the files below the middleware with a number. -/
def Middleware.tree (index : Nat) (m : Middleware) : Json :=
  .object
    [("index", .int index), ("name", .string m.name), ("path", .ofPath? m.path),
      ("exists", .bool m.isThere),
      ("components", .array (Record.treeNodes m.components))]

namespace FlowResult

/-- The rows of the summary. -/
def rows (r : FlowResult) : Json :=
  .array (r.summary.map fun (name, flow) => flow.row name)

/-- The trees of the files below the middlewares. -/
def tree (r : FlowResult) : Json :=
  .array (r.middlewares.zipIdx.map fun (m, i) => m.tree (i + 1))

/-- The data of the flow along an endpoint. -/
def fields (r : FlowResult) : Json.Fields :=
  [("endpoint", r.endpoint.toJson),
    ("middlewares", .array (r.middlewares.map (·.toJson))),
    ("dataFlow", .array (r.edges.map (·.toJson))),
    ("allResLocalsProperties", r.locals.toJson),
    ("allReqTransactionProperties", r.transaction.toJson),
    ("componentDataFlow", .array (r.componentEdges.map (·.toJson))),
    ("cancelled", .bool r.cancelled)]

end FlowResult

end Relay
