import Relay.Chart.Line
import Relay.Chart.Placement
import Relay.Flow.Result

/-!
# Drawing the flow along an endpoint

Every middleware is a box, or a frame around the boxes of its files; the calls
hang on the boxes, and arrows join the middlewares in their order.
-/

namespace Relay

open Analysis

namespace Chart

/-- What is drawn where: the folding, and the calls with the parts at which
they are drawn. -/
structure Canvas where
  folding : Folding
  calls : List (NodeId × ServiceCall)

namespace Canvas

/-- The calls that hang on a part. -/
def callsAt (c : Canvas) (owner : NodeId) : List ServiceCall :=
  (c.calls.filter (·.1 = owner)).map (·.2)

/-- The lines of the calls that hang on a part. -/
def callLines (c : Canvas) (indent : Nat) (owner : NodeId) : List Line :=
  (c.callsAt owner).zipIdx.flatMap fun (call, position) =>
    [⟨indent, .callBox (.call owner position) call⟩,
      ⟨indent, .callArrow owner (.call owner position)⟩]

/-- The label of a box with others below it. -/
def foldLabel (isOpen : Bool) (name : String) (below : List Record) : String :=
  inQuotes (if isOpen then s!"▼  {name}"
    else s!"▶  {name} ({Record.sizeAll below})")

/-- The look of the box of a file without others below it. -/
def lookOf (facts : Facts) : Look :=
  Look.of (!facts.usages.localsWrites.isEmpty)
    (!facts.usages.localsReads.isEmpty) .component

section

variable (c : Canvas) (index : Nat)

mutual

/-- The lines of a file and of those below it that are drawn. -/
def fileLines (steps : List Nat) (parent : NodeId) : Record → List Line
  | ⟨_, name, _, _, _, facts, _, children⟩ =>
    let id := NodeId.component index steps
    let indent := steps.length + 1
    let isOpen := c.folding.isOpen index steps
    if children.isEmpty then
      [⟨indent, .box id (inQuotes name) (lookOf facts)⟩,
        ⟨indent, .arrow parent id⟩]
        ++ c.callLines indent id
    else if isOpen then
      [⟨indent, .opening (.frame index steps) " "⟩, ⟨indent + 1, .direction⟩,
          ⟨indent + 1, .box id (foldLabel isOpen name children) .expandable⟩]
        ++ c.callLines (indent + 1) id
        ++ filesLines steps 0 id children
        ++ [⟨indent, .closing⟩, ⟨indent, .arrow parent id⟩]
    else
      [⟨indent, .box id (foldLabel isOpen name children) .expandable⟩,
        ⟨indent, .arrow parent id⟩]
        ++ c.callLines indent id

/-- The lines of files that stand below one another, from a position on. -/
def filesLines (steps : List Nat) (position : Nat) (parent : NodeId) :
    List Record → List Line
  | [] => []
  | r :: rest =>
    fileLines (position :: steps) parent r ++
      filesLines steps (position + 1) parent rest

end

end

/-- The lines of the middleware with an index. -/
def middlewareLines (c : Canvas) (index : Nat) (m : Middleware) : List Line :=
  let id := NodeId.middleware index
  let label := inQuotes s!"{index + 1}. {m.shortName}"
  if m.components.isEmpty then
    [⟨1, .box id label
      (Look.of (!m.localsWrites.isEmpty) (!m.localsReads.isEmpty) .plain)⟩]
      ++ c.callLines 1 id
  else
    let isOpen := c.folding.showsMiddleware index
    [⟨1, .opening id label⟩,
        ⟨2, .box (.main index) (foldLabel isOpen m.shortName m.components)
          .expandable⟩]
      ++ c.callLines 2 (.main index)
      ++ (if isOpen then c.filesLines index [] 0 (.main index) m.components
        else [])
      ++ [⟨1, .closing⟩]

end Canvas

/-- The first position of a name. -/
def positionOf? (middlewares : List Middleware) (name : String) : Option Nat :=
  middlewares.findIdx? (·.name = name)

/-- The line of an edge, if it joins two middlewares. -/
def edgeLine? (middlewares : List Middleware) (e : Edge) : Option Line := do
  let source ← positionOf? middlewares e.source
  let target ← positionOf? middlewares e.target
  if e.properties.isEmpty then
    return ⟨1, .arrow (.middleware source) (.middleware target)⟩
  else
    return ⟨1, .labelled (.middleware source) (.middleware target)
      (edgeLabel e.properties)⟩

end Chart

/-- A drawing: the lines of the middlewares and those of the edges between
them. -/
structure Chart where
  body : List Chart.Line
  edges : List Chart.Line
deriving DecidableEq

namespace Chart

/-- Draws the flow along an endpoint. -/
def draw (folding : Folding) (r : FlowResult) : Chart :=
  let canvas : Canvas := ⟨folding, placedCalls folding r.middlewares⟩
  ⟨r.middlewares.zipIdx.flatMap
      fun (m, index) => canvas.middlewareLines index m,
    r.edges.filterMap (edgeLine? r.middlewares)⟩

/-- The calls that are drawn, with the names of their boxes. -/
def calls (chart : Chart) : List (NodeId × ServiceCall) :=
  chart.body.filterMap Line.call?

/-- The lines that say how boxes look. -/
def looks : List String :=
  ["classDef default fill:#2d2d2d,stroke:#555,color:#fff",
    "classDef hasWrites fill:#1a472a,stroke:#2d5a3d,color:#90EE90",
    "classDef hasReads fill:#1a365d,stroke:#2a4a7f,color:#87CEEB",
    "classDef hasBoth fill:#4a3728,stroke:#6b4423,color:#DEB887",
    "classDef component fill:#3d3d3d,stroke:#666,color:#ccc",
    "classDef expandable fill:#3d3d3d,stroke:#888,color:#fff,stroke-width:2px,font-weight:bold",
    "classDef external fill:#4a1a2e,stroke:#6b2340,color:#FFB6C1,font-size:12px"]

/-- The text of a drawing. -/
def text (chart : Chart) : String :=
  Text.join "\n"
    (["flowchart TD"] ++ looks.map ("    " ++ ·) ++ [""] ++
      chart.body.map (·.text) ++ [""]
      ++ chart.edges.map (·.text)) ++ "\n"

end Chart

end Relay
