import Relay.Analyzer
import Relay.Unique

/-!
# Middlewares

A middleware is a file together with the facts of all files that it leads to.
Of several facts that say the same about one file the first is kept.
-/

namespace Relay

open Analysis

/-- A middleware with the facts of all files that it leads to. -/
structure Middleware where
  name : String
  path : Option Path
  isThere : Bool
  record : Option Record := none
  localsReads : List PropertyUsage := []
  localsWrites : List PropertyUsage := []
  transactionReads : List PropertyUsage := []
  transactionWrites : List PropertyUsage := []
  data : List DataUsage := []
  calls : List ServiceCall := []
  lookups : List Lookup := []

namespace Middleware

/-- The records right below the middleware's own. -/
def components (m : Middleware) : List Record :=
  (m.record.map (·.children)).getD []

/-- The last part of the name. -/
def shortName (m : Middleware) : String :=
  (Text.split '/' m.name).getLast?.getD ""

/-- The facts of the middleware's own file. -/
def ownFacts (m : Middleware) : Facts :=
  (m.record.map (·.facts)).getD {}

/-- The line on which the middleware exports a name. -/
def exportLine? (m : Middleware) (name : String) : Option Nat :=
  (m.ownFacts.exports.find? (·.name = name)).map (·.line)

/-- What tells the usages of a bag apart. -/
def usageMark (u : PropertyUsage) : String × Path :=
  (u.property, u.path)

/-- The middleware with the facts of some records rolled up. -/
def rollUp (m : Middleware) (records : List Record) : Middleware :=
  { m with
    localsReads :=
      uniqueBy usageMark (records.flatMap (·.facts.usages.localsReads))
    localsWrites :=
      uniqueBy usageMark (records.flatMap (·.facts.usages.localsWrites))
    transactionReads :=
      uniqueBy usageMark (records.flatMap (·.facts.usages.transactionReads))
    transactionWrites :=
      uniqueBy usageMark (records.flatMap (·.facts.usages.transactionWrites))
    data := uniqueBy (fun u => (u.facet, u.property, u.kind, u.path))
      (records.flatMap (·.facts.usages.data))
    calls := uniqueBy (fun c => (c.family, c.template, c.line, c.path))
      (records.flatMap (·.facts.calls))
    lookups :=
      uniqueBy (fun l => (l.source, l.key, l.path))
        (records.flatMap (·.facts.lookups)) }

end Middleware

namespace Scene

/-- Analyses one middleware and rolls up the facts of the files that it leads
to. -/
def analyzeMiddleware (s : Scene) (p : Progress) (specifier : String) :
    Attempt Middleware :=
  match s.resolver.entryPath s.files specifier with
  | .error e => (p, .error e)
  | .ok none => (p, .ok { name := specifier, path := none, isThere := false })
  | .ok (some path) =>
    let m : Middleware :=
      { name := specifier, path := some path, isThere := true }
    match s.analyze p path 0 none with
    | (p, .error e) => (p, .error e)
    | (p, .ok none) => (p, .ok m)
    | (p, .ok (some record)) =>
      (p,
        .ok ({ m with record := some record }.rollUp (p.memory.expand record)))

end Scene

end Relay
