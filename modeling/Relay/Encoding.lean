import Relay.Json.Value
import Relay.Record

/-!
# Facts and records as data

The form that facts and records have in a report.
-/

namespace Relay

open Analysis

/-- A path, or nothing. -/
def Json.ofPath? (p : Option Path) : Json :=
  Json.ofString? (p.map Path.text)

/-- The data of a usage of a bag. -/
def Analysis.PropertyUsage.toJson (u : PropertyUsage) : Json :=
  .object
    [("property", .string u.property), ("kind", .string u.kind.name),
      ("lineNumber", .int u.line), ("codeSnippet", .string u.snippet),
      ("fullPath", .string u.property), ("sourcePath", .string u.path.text),
      ("isLibrary", .bool u.isLibrary)]

/-- The data of a usage of a facet. -/
def Analysis.DataUsage.toJson (u : DataUsage) : Json :=
  .object
    [("source", .string u.facet.name), ("property", .string u.property),
      ("kind", .string u.kind.name), ("lineNumber", .int u.line),
      ("codeSnippet", .string u.snippet),
      ("sourcePath", .string u.path.text), ("isLibrary", .bool u.isLibrary)]

/-- The data of a service call. -/
def Analysis.ServiceCall.toJson (c : ServiceCall) : Json :=
  .object
    [("type", .string c.family), ("template", .ofString? c.template),
      ("lineNumber", .int c.line), ("codeSnippet", .string c.snippet),
      ("sourcePath", .string c.path.text), ("isLibrary", .bool c.isLibrary)]

/-- The data of a look-up. -/
def Analysis.Lookup.toJson (l : Lookup) : Json :=
  .object
    [("source", .string l.source), ("key", .string l.key),
      ("lineNumber", .int l.line), ("codeSnippet", .string l.snippet),
      ("sourcePath", .string l.path.text)]

/-- The data of a required module. -/
def Dependency.toJson (d : Dependency) : Json :=
  .object
    [("modulePath", .string d.specifier), ("variableName", .string d.binder),
      ("resolvedPath", .ofPath? d.path), ("lineNumber", .int d.line),
      ("isLocal", .bool d.isLocal), ("isAglModule", .bool d.isNamespaced)]

/-- The data of the usages, calls and look-ups of a file. -/
def Facts.fields (f : Facts) : Json.Fields :=
  [("resLocalsReads", .array (f.usages.localsReads.map (·.toJson))),
    ("resLocalsWrites", .array (f.usages.localsWrites.map (·.toJson))),
    ("reqTransactionReads", .array (f.usages.transactionReads.map (·.toJson))),
    ("reqTransactionWrites",
      .array (f.usages.transactionWrites.map (·.toJson))),
    ("dataUsages", .array (f.usages.data.map (·.toJson))),
    ("externalCalls", .array (f.calls.map (·.toJson))),
    ("configDeps", .array (f.lookups.map (·.toJson)))]

namespace Record

mutual

/-- The data of a record and of all below it. -/
def toJson : Record → Json
  | ⟨name, displayName, path, depth, parent, facts, shallow, children⟩ =>
    .object (
      [("name", .string name), ("displayName", .string displayName),
        ("filePath", .string path.text), ("exists", .bool true),
        ("depth", .int depth), ("parentPath", .ofPath? parent)]
      ++ facts.fields
      ++ [("requires", .array (facts.dependencies.map (·.toJson))),
        ("children", .array (toJsonAll children)),
        ("exportedFunctions", .strings (facts.exports.map (·.name))),
        ("mainFunctionLine", .ofNat? (mainLine? facts.exports)),
        ("isShallowReference", .bool shallow)])

/-- The data of some records. -/
def toJsonAll : List Record → List Json
  | [] => []
  | r :: rest => r.toJson :: toJsonAll rest

end

end Record

end Relay
