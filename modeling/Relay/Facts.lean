import Relay.Analysis.Export
import Relay.Analysis.Lookup
import Relay.Analysis.ServiceCall
import Relay.Analysis.Usage
import Relay.Log
import Relay.Resolver

/-!
# The facts of a file

What is found in one file by itself: its usages of shared state, its calls of
services, the configuration it looks up, the modules it requires and the names
it exports.  The requirements are resolved one after the other; a name that is
too long ends that, and the file has no facts.
-/

namespace Relay

open Analysis

/-- A required module with the file that its specifier stands for. -/
structure Dependency where
  specifier : String
  binder : String
  path : Option Path
  line : Nat
  isLocal : Bool
  isNamespaced : Bool
deriving DecidableEq

/-- What is found in one file by itself. -/
structure Facts where
  usages : Usages := {}
  calls : List ServiceCall := []
  lookups : List Lookup := []
  dependencies : List Dependency := []
  exports : List Export := []
deriving DecidableEq

/-- A required module in a file, with the entry of the log if its specifier
stands for nothing. -/
def dependencyOf (r : Resolver) (fs : Files) (file : Path) (q : Requirement) :
    Except NameTooLong (Dependency × List LogEntry) := do
  let outcome ← r.resolve fs q.specifier file
  let log : List LogEntry := match outcome with
    | .missing =>
        [⟨.debug, .resolver,
          s!"Unresolved specifier {q.specifier} from {file}"⟩]
    | _ => []
  return (⟨q.specifier, q.binder, outcome.path?, q.line,
    isLocalSpecifier q.specifier,
    Text.startsWith q.specifier r.config.packageMark⟩, log)

/-- The required modules of a file, in order, with the log up to the first that
cannot be looked up. -/
def dependenciesOf (r : Resolver) (fs : Files) (file : Path) :
    List Requirement → List LogEntry × Except NameTooLong (List Dependency)
  | [] => ([], .ok [])
  | q :: rest =>
    match dependencyOf r fs file q with
    | .error e => ([], .error e)
    | .ok (d, entries) =>
      match dependenciesOf r fs file rest with
      | (log, .ok ds) => (entries ++ log, .ok (d :: ds))
      | (log, .error e) => (entries ++ log, .error e)

/-- The facts of a file. -/
def factsOf (r : Resolver) (fs : Files) (s : Source) :
    List LogEntry × Except NameTooLong Facts :=
  let isLibrary := r.isLibrary s.path.text
  match dependenciesOf r fs s.path (requirementsOf s) with
  | (log, .error e) => (log, .error e)
  | (log, .ok dependencies) =>
    (log, .ok
      { usages := Usages.of s isLibrary r.config.expandLiterals
        calls := ServiceCalls.of s isLibrary
        lookups := lookupsOf s
        dependencies := dependencies
        exports := exportsOf s })

end Relay
