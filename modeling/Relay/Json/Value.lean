import Relay.Decimal.Double

/-!
# Values of the data format

A value is what a JSON text stands for.  The fields of an object have an order:
a new field goes to the end, and a field that is set again keeps its place.
-/

namespace Relay

open Decimal

/-- A value of the JSON data format. -/
inductive Json where
  | null
  | bool (b : Bool)
  | int (i : Int)
  | double (d : Double)
  | string (s : String)
  | array (items : List Json)
  | object (fields : List (String × Json))

namespace Json

/-- The fields of an object, in order. -/
abbrev Fields := List (String × Json)

namespace Fields

/-- The value of a field. -/
def get? (fields : Fields) (key : String) : Option Json :=
  List.lookup key fields

/-- The fields with one of them set: in its place, or at the end. -/
def set (fields : Fields) (key : String) (value : Json) : Fields :=
  match fields with
  | [] => [(key, value)]
  | (k, v) :: rest =>
      if k = key then (k, value) :: rest else (k, v) :: set rest key value

/-- The names of the fields. -/
def keys (fields : Fields) : List String :=
  fields.map (·.1)

end Fields

/-- A list of texts. -/
def strings (ss : List String) : Json :=
  .array (ss.map .string)

/-- A text, or nothing. -/
def ofString? (s : Option String) : Json :=
  match s with
  | some s => .string s
  | none => .null

/-- A natural number, or nothing. -/
def ofNat? (n : Option Nat) : Json :=
  match n with
  | some n => .int n
  | none => .null

/-- The field of an object. -/
def field? (value : Json) (key : String) : Option Json :=
  match value with
  | .object fields => fields.lookup key
  | _ => none

end Json

end Relay
