import Relay.Json.Shown
import Relay.Json.Write
import Relay.Text.Blank
import Relay.Unique

/-!
# Reports as text

A report is data, and each format is a view of it: the data itself, a
description for people, the drawing, or a table of the properties.  A view
takes what it shows from the fields of the data; a field that is missing or
holds a value of the wrong kind is a fault.
-/

namespace Relay.Report

/-- Why data cannot be shown. -/
inductive Fault where
  /-- A field is missing. -/
  | missingField
  /-- A value has no fields at all. -/
  | noFields
  /-- A value is not of the kind that is asked for. -/
  | wrongKind
deriving DecidableEq

/-- The field of a value that has to be there. -/
def field (key : String) : Json → Except Fault Json
  | .object fields =>
    match Json.Fields.get? fields key with
    | some value => .ok value
    | none => .error .missingField
  | _ => .error .wrongKind

/-- The field of a value that has fields, or a value instead of it. -/
def fieldOr (key : String) (default : Json) : Json → Except Fault Json
  | .object fields => .ok ((Json.Fields.get? fields key).getD default)
  | _ => .error .noFields

/-- The items of a value: those of an array, the characters of a text or the
names of fields. -/
def items : Json → Except Fault (List Json)
  | .array items => .ok items
  | .string s => .ok (s.toList.map fun c => .string c.toString)
  | .object fields => .ok (fields.map fun f => .string f.1)
  | _ => .error .wrongKind

/-- A value that is a text. -/
def text : Json → Except Fault String
  | .string s => .ok s
  | _ => .error .wrongKind

/-- The texts of a value, joined by commas. -/
def commaTexts (value : Json) : Except Fault String := do
  return Text.join ", " (← (← items value).mapM text)

/-- The value of a field as it is shown. -/
def shownField (key : String) (value : Json) : Except Fault String := do
  return (← field key value).shown

/-- The length of a value. -/
def length : Json → Except Fault Nat
  | .string s => .ok s.length
  | .array items => .ok items.length
  | .object fields => .ok fields.length
  | _ => .error .wrongKind

/-- A text with blanks up to a width. -/
def padded (width : Nat) (s : String) : String :=
  s ++ String.ofList (List.replicate (width - s.length) ' ')

/-- The text of a property in the table. -/
def propertyText : Json → Except Fault String
  | .string s => .ok s
  | _ => .error .noFields

/-- The members of a row, or a dash if there are none. -/
def memberText (value : Json) : Except Fault String :=
  if value.isFilled then commaTexts value else .ok "-"

/-- The line of a row. -/
def rowLine (width : Nat) (row : Json) : Except Fault String := do
  let property ← propertyText (← field "property" row)
  let producers ← memberText (← field "producers" row)
  let consumers ← memberText (← field "consumers" row)
  return s!"{padded width property}  {producers} -> {consumers}"

/-- The title of the first column. -/
def columnTitle : String := "property"

/-- The table of the properties. -/
def summary (report : Json) : Except Fault String := do
  let rows ← fieldOr "dataFlowSummary" .null report
  if !rows.isFilled then return "No res.locals properties found."
  let rows ← items rows
  let widths ← rows.mapM fun row => do length (← field "property" row)
  let width := widths.foldl max columnTitle.length
  let lines ← rows.mapM (rowLine width)
  return Text.join "\n"
    (s!"{padded width columnTitle}  producers -> consumers" :: lines)

/-- Texts in order, each once. -/
def sortedTexts (texts : List String) : List String :=
  (uniqueBy id texts).mergeSort fun a b => !(b < a)

/-- The line with the properties of some usages, if there are any. -/
def usageLine (label : String) (usages : Json) :
    Except Fault (List String) := do
  if !usages.isFilled then return []
  let properties ← (← items usages).mapM (shownField "property")
  return [s!"    {label}: " ++ Text.join ", " (sortedTexts properties)]

/-- The lists of usages of a middleware, with their labels. -/
def usageLists : List (String × String) :=
  [("res.locals reads", "allResLocalsReads"),
    ("res.locals writes", "allResLocalsWrites"),
    ("req.transaction reads", "allReqTransactionReads"),
    ("req.transaction writes", "allReqTransactionWrites")]

/-- The line of a usage of a facet. -/
def dataLine (usage : Json) : Except Fault String := do
  let kind ← shownField "kind" usage
  let source ← shownField "source" usage
  let property ← shownField "property" usage
  let line ← shownField "lineNumber" usage
  return s!"    {kind} {source}.{property} (line {line})"

/-- The line of a service call. -/
def callLine (call : Json) : Except Fault String := do
  let template ← fieldOr "template" .null call
  let template := if template.isFilled then template.shown else "?"
  let family ← shownField "type" call
  let path ← shownField "sourcePath" call
  let line ← shownField "lineNumber" call
  return s!"    call {family}: {template} ({path}:{line})"

/-- The line of a look-up. -/
def lookupLine (lookup : Json) : Except Fault String := do
  let source ← shownField "source" lookup
  let key ← shownField "key" lookup
  return s!"    config {source}: {key}"

/-- The lines of the items of a field. -/
def linesOfField (key : String) (line : Json → Except Fault String)
    (value : Json) :
    Except Fault (List String) := do
  (← items (← fieldOr key (.array []) value)).mapM line

/-- The lines of the middleware with a number. -/
def middlewareLines (number : Nat) (middleware : Json) :
    Except Fault (List String) := do
  let isThere ← fieldOr "exists" .null middleware
  let status := if isThere.isFilled then "" else " (file not found)"
  let name ← shownField "name" middleware
  let usages ← usageLists.mapM fun (label, key) => do
    usageLine label (← fieldOr key (.array []) middleware)
  let data ← linesOfField "allDataUsages" dataLine middleware
  let calls ← linesOfField "allExternalCalls" callLine middleware
  let lookups ← linesOfField "allConfigDeps" lookupLine middleware
  return s!"{number}. {name}{status}" :: usages.flatten ++ data ++
    calls ++ lookups

/-- The line of an edge. -/
def edgeLine (edge : Json) : Except Fault String := do
  let properties ← commaTexts (← field "properties" edge)
  let properties :=
    if properties = "" then "(no shared properties)" else properties
  let source ← shownField "from" edge
  let target ← shownField "to" edge
  return s!"    {source} -> {target}: {properties}"

/-- A value as it is shown, or an empty text if it does not count. -/
def shownOrEmpty (value : Json) : String :=
  if value.isFilled then value.shown else ""

/-- The title of an endpoint. -/
def title (endpoint : Json) : Except Fault String := do
  let method ← fieldOr "method" .null endpoint
  let uri ← fieldOr "endpointUri" .null endpoint
  let title := Text.strip (shownOrEmpty method ++ " " ++ shownOrEmpty uri)
  return if title = "" then "(unnamed)" else title

/-- The description for people. -/
def description (report : Json) : Except Fault String := do
  let title ← title (← fieldOr "endpoint" (.object []) report)
  let cancelled ← fieldOr "cancelled" .null report
  let middlewares ← fieldOr "middlewares" (.array []) report
  let sections ← ((← items middlewares).zipIdx 1).mapM fun (m, number) =>
    middlewareLines number m
  let edges ← fieldOr "dataFlow" (.array []) report
  let edges ← if edges.isFilled then (← items edges).mapM edgeLine else .ok []
  return Text.join "\n"
    ([s!"Endpoint: {title}"]
      ++ (if cancelled.isFilled then
        ["Analysis cancelled; results are partial."] else [])
      ++ (if middlewares.isFilled then [] else ["No middlewares analyzed."])
      ++ sections.flatten
      ++ (if edges.isEmpty then [] else "Data flow:" :: edges))

/-- The format of a report. -/
inductive Format where
  | json | human | mermaid | summary
deriving DecidableEq

namespace Format

/-- The formats in the order in which they are offered. -/
def all : List Format := [json, human, mermaid, summary]

/-- The name of a format. -/
def name : Format → String
  | json => "json"
  | human => "human"
  | mermaid => "mermaid"
  | summary => "summary"

/-- The format with a name. -/
def ofName? (name : String) : Option Format :=
  all.find? fun f => f.name = name

end Format

/-- A report in a format. -/
def view (format : Format) (report : Json) : Except Fault String :=
  match format with
  | .json => .ok report.indented
  | .human => description report
  | .mermaid => do return shownOrEmpty (← fieldOr "diagram" .null report)
  | .summary => summary report

end Relay.Report
