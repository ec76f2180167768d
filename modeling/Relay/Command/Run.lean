import Relay.Command.Request
import Relay.Command.Usage
import Relay.Files.Write
import Relay.Report.Build

/-!
# Running the command line

A run reads files, and its outcome is what is written to the two output streams
and to files, with a status.
-/

namespace Relay.Command

open Report (Format)

/-- Why a run breaks off. -/
inductive Fault where
  /-- The settings cannot be loaded. -/
  | settings (fault : Settings.Fault)
  /-- The file with the endpoint cannot be read. -/
  | endpointFile (fault : FileFault)
  /-- The file with the endpoint does not hold JSON. -/
  | endpointText (text : String) (error : Json.ReadError)
  /-- The file with the endpoint does not describe one. -/
  | endpoint (fault : Endpoint.Fault)
  /-- There are no middlewares, since the name of the file with the endpoint is
  empty. -/
  | noMiddlewares
  /-- A pattern of the settings is none. -/
  | pattern (fault : BadPattern)
  /-- A setting that has to be a text is none. -/
  | notText
  /-- A name is too long to be looked up. -/
  | nameTooLong (fault : NameTooLong)
  /-- The report cannot be shown. -/
  | view (fault : Report.Fault)
  /-- A report cannot be written to a file. -/
  | output (fault : FileFault)

/-- What is said about a file that cannot be read or written. -/
def fileMessage : FileFault → String
  | .missing => "there is no such file"
  | .isDirectory => "this is a directory"
  | .notDirectory => "a plain file stands where a directory is needed"
  | .isFile => "there is a file of that name"
  | .nameTooLong => "the name is too long"
  | .notText => "the file does not hold text"

/-- What is said when a run breaks off. -/
def Fault.message : Fault → String
  | settings (.file fault) => s!"settings: {fileMessage fault}"
  | settings fault => s!"settings: {fault.message}"
  | endpointFile fault => s!"endpoint: {fileMessage fault}"
  | endpointText text error => s!"endpoint: {error.message text}"
  | endpoint _ => "endpoint: the file does not describe one"
  | noMiddlewares => "there are no middlewares"
  | pattern _ => "settings: a pattern cannot be read"
  | notText => "settings: a pattern or an extension is not a text"
  | nameTooLong fault => fault.message
  | view _ => "the report cannot be shown"
  | output fault => s!"output: {fileMessage fault}"

/-- How a run ends. -/
inductive Status where
  | exit (code : Nat)
  | broken (fault : Fault)

/-- What a run leaves. -/
structure Outcome where
  status : Status
  output : String := ""
  errors : String := ""
  files : Files

/-- The endpoint that a request is about. -/
def endpointOf (fs : Files) (r : Request) : Except Fault Endpoint :=
  match r.endpoint.filter (· ≠ "") with
  | some path =>
    match fs.readText (Path.ofString path) with
    | .error fault => .error (.endpointFile fault)
    | .ok text =>
      match Json.read text with
      | .error e => .error (.endpointText text e)
      | .ok data => (Endpoint.ofJson data).mapError .endpoint
  | none =>
    match r.middlewares with
    | some names => .ok { middleware := .strings names }
    | none => .error .noMiddlewares

/-- The resolver of some settings. -/
def resolverOf (s : Settings) : Except Fault Resolver := do
  let resolver ← (Resolver.of s.config).mapError .pattern
  if s.isTextual then return resolver else throw .notText

/-- The settings of a request. -/
def settingsOf (fs : Files) (r : Request) : Except Fault Settings :=
  (Settings.load fs (Path.ofString r.workspace) (r.name.getD "")
    ((r.config.filter (· ≠ "")).map Path.ofString)
    (r.maxDepth.toList.map fun depth => ("max_depth", .int depth))).mapError
      .settings

/-- What an analysis is made with: the settings, the endpoint and the
resolver. -/
def prepare (fs : Files) (r : Request) :
    Except Fault (Settings × Endpoint × Resolver) := do
  let settings ← settingsOf fs r
  let endpoint ← endpointOf fs r
  return (settings, endpoint, ← resolverOf settings)

/-- The lines of the log that are shown. -/
def logText (r : Request) (log : List LogEntry) : String :=
  let entries := entriesFrom (if r.verbose then .debug else .warning) log
  String.join (entries.map fun e => e.line ++ "\n")

/-- The views of a report in some formats, each once. -/
def viewsOf (report : Json) (formats : List Format) :
    Except Fault (List (Format × String)) :=
  (uniqueBy id formats).mapM fun format => do
    return (format, ← (Report.view format report).mapError .view)

/-- What is printed: with several formats, each has a heading. -/
def printed (views : List (Format × String)) : String :=
  String.join (views.zipIdx.map fun ((format, text), i) =>
    (if views.length > 1 then s!"--- {format.name} report {i + 1}/{views.length} ---\n" else "")
      ++ text ++ "\n")

/-- Writes the reports that are asked for to files; the log tells of unknown
formats. -/
def writeOutputs (report : Json) (fs : Files) (log : List LogEntry) :
    List (String × String) → Files × List LogEntry × Option Fault
  | [] => (fs, log, none)
  | (name, path) :: rest =>
    match Format.ofName? name with
    | none =>
      let entry : LogEntry :=
        ⟨.warning, .command, s!"Unknown output format {name}"⟩
      writeOutputs report fs (log ++ [entry]) rest
    | some format =>
      match Report.view format report with
      | .error fault => (fs, log, some (.view fault))
      | .ok text =>
        match fs.writeText (Path.ofString path) text with
        | .error fault => (fs, log, some (.output fault))
        | .ok fs => writeOutputs report fs log rest

/-- Runs an analysis. -/
def analyze (fs : Files) (r : Request) : Outcome :=
  match prepare fs r with
  | .error fault => { status := .broken fault, files := fs }
  | .ok (settings, endpoint, resolver) =>
    let scene : Scene := ⟨fs, resolver⟩
    match scene.analyzeFlow none {} endpoint with
    | (p, .error e) =>
      { status := .broken (.nameTooLong e), errors := logText r p.log,
        files := fs }
    | (p, .ok result) =>
      let report := Report.build settings result (Chart.draw r.expand result)
      match viewsOf report (if r.formats.isEmpty then [.json] else r.formats)
          with
      | .error fault =>
          { status := .broken fault, errors := logText r p.log, files := fs }
      | .ok views =>
        let (written, log, fault) := writeOutputs report fs p.log r.outputs
        { status := match fault with
            | some fault => .broken fault
            | none => .exit 0
          output := printed views
          errors := logText r log
          files := written }

/-- Runs a command line. -/
def run (fs : Files) (arguments : List String) : Outcome :=
  match readInvocation arguments with
  | .help => { status := .exit 0, output := help, files := fs }
  | .analysisHelp => { status := .exit 0, output := analysisHelp, files := fs }
  | .nothing => { status := .exit 1, output := help, files := fs }
  | .refused r => { status := .exit 2, errors := refusalText r, files := fs }
  | .analysisRefused r =>
      { status := .exit 2, errors := analysisRefusalText r, files := fs }
  | .analyze r => analyze fs r

end Relay.Command
