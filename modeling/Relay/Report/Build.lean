import Relay.Chart.Draw
import Relay.Flow.Encoding
import Relay.Settings.Load

/-!
# The report of an analysis

A report holds the settings, the flow along the endpoint, the rows and trees
that follow from it, and the drawing.
-/

namespace Relay.Report

/-- The calls of a drawing by the names of their boxes. -/
def callsByName (chart : Chart) : Json :=
  .object (chart.calls.map fun (id, call) => (id.text, call.toJson))

/-- The report of an analysis. -/
def build (settings : Settings) (result : FlowResult) (chart : Chart) : Json :=
  .object (
    [("config", settings.toJson)]
    ++ result.fields
    ++ [("dataFlowSummary", result.rows), ("componentTree", result.tree),
      ("diagram", .string chart.text), ("externalCallsMap", callsByName chart)])

end Relay.Report
