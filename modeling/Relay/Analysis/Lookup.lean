import Relay.Source
import Relay.Syntax.Shape
import Relay.Syntax.Walk
import Relay.Unique

/-!
# Configuration look-ups

A file asks the application cache for its configuration.  Each pair of a part
of the configuration and a key is kept once, with the first line that asks for
it.
-/

namespace Relay.Analysis

open Syntax

/-- The name that the application cache goes by. -/
def cacheName : String := "appCache"

/-- The part of the configuration that a method of the cache looks into. -/
def lookupSource? (method : String) : Option String :=
  match method with
  | "getMWareConfig" => some "mWareConfig"
  | "getAppConfig" => some "appConfig"
  | "getSysParameter" => some "sysParameter"
  | "get" => some "appCache"
  | _ => none

/-- The key of a look-up that names none. -/
def defaultKey : String := "default"

/-- A look-up of a key in a part of the configuration. -/
structure Lookup where
  source : String
  key : String
  line : Nat
  snippet : String
  path : Path
deriving DecidableEq

/-- The part and the key that a call looks up. -/
def lookupAt? (bytes : ByteArray) (call : Node) : Option (String × String) :=
  (call.inner? .function).bind fun callee =>
    if callee.kind = .memberExpression
        ∧ (callee.inner? .object).bind (nameOf? bytes) = some cacheName then
      ((propertyName? bytes callee).bind lookupSource?).map fun source =>
        let first :=
          ((callArguments call).head?.bind Node.unwrap).bind
            (stringValue? bytes)
        (source, (filled? first).getD defaultKey)
    else none

/-- What tells the look-ups of a file apart. -/
def Lookup.stamp (l : Lookup) : String × String :=
  (l.source, l.key)

/-- The look-ups of a file after one more node of its walk, with the stamps that
have been seen. -/
def visitLookup (s : Source) (found : Collection Lookup (String × String))
    (v : Visit) : Collection Lookup (String × String) :=
  if v.node.kind = .callExpression then
    match lookupAt? s.bytes v.node with
    | some (source, key) =>
      let line := s.lineOf v.node
      found.add Lookup.stamp ⟨source, key, line, s.snippet line, s.path⟩
    | none => found
  else found

/-- The look-ups of a file. -/
def lookupsOf (s : Source) : List Lookup :=
  ((entered (walkAll s.tree)).foldl (visitLookup s) {}).items

end Relay.Analysis
