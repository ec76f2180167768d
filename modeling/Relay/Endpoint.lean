import Relay.Json.Value

/-!
# Endpoints

An endpoint is described by data: an address, a method, a list of middlewares
and some settings.  All of its values are kept as they are given, and fields
that are not known are passed through.
-/

namespace Relay

/-- The description of an endpoint. -/
structure Endpoint where
  uri : Json := .string ""
  method : Json := .string ""
  middleware : Json := .array []
  template : Json := .null
  panic : Json := .null
  panicKey : Json := .null
  nanoKey : Json := .null
  extra : Json.Fields := []

namespace Endpoint

/-- The names of the known fields. -/
def knownFields : List String :=
  ["endpointUri", "method", "middleware", "template", "panic", "panicConfigKey",
    "nanoConfigKey"]

/-- What can be wrong with the data of an endpoint. -/
inductive Fault where
  /-- A known name cannot be looked up in the data. -/
  | noLookup
  /-- The data has no fields. -/
  | noFields
deriving DecidableEq

/-- A text holds another one. -/
def holdsText (part s : String) : Bool :=
  (List.range (s.length + 1)).any fun k =>
    part.toList.isPrefixOf (s.toList.drop k)

/-- What is wrong with data that is no object.  Lists and texts can be searched
for the known names, but nothing can be looked up in them by name. -/
def faultOf : Json → Fault
  | .array items =>
    if items.any fun item => match item with
      | .string s => knownFields.contains s
      | _ => false
    then .noLookup else .noFields
  | .string s =>
      if knownFields.any fun name => holdsText name s then .noLookup
      else .noFields
  | _ => .noLookup

/-- The endpoint with some fields. -/
def ofFields (fields : Json.Fields) : Endpoint where
  uri := (fields.get? "endpointUri").getD (.string "")
  method := (fields.get? "method").getD (.string "")
  middleware := (fields.get? "middleware").getD (.array [])
  template := (fields.get? "template").getD .null
  panic := (fields.get? "panic").getD .null
  panicKey := (fields.get? "panicConfigKey").getD .null
  nanoKey := (fields.get? "nanoConfigKey").getD .null
  extra := fields.filter fun f => !knownFields.contains f.1

/-- Reads the description of an endpoint. -/
def ofJson : Json → Except Fault Endpoint
  | .object fields => .ok (ofFields fields)
  | other => .error (faultOf other)

/-- A field, unless it has no value. -/
def optionalField (name : String) : Json → Json.Fields
  | .null => []
  | value => [(name, value)]

/-- The fields of an endpoint. -/
def fields (e : Endpoint) : Json.Fields :=
  e.extra
    ++ [("endpointUri", e.uri), ("method", e.method),
      ("middleware", e.middleware)]
    ++ optionalField "template" e.template
    ++ optionalField "panic" e.panic
    ++ optionalField "panicConfigKey" e.panicKey
    ++ optionalField "nanoConfigKey" e.nanoKey

/-- The data of an endpoint. -/
def toJson (e : Endpoint) : Json :=
  .object e.fields

/-- The specifiers of the middlewares, if the field is a list of texts. -/
def specifiers? (e : Endpoint) : Option (List String) :=
  match e.middleware with
  | .array items => items.mapM fun item => match item with
    | .string s => some s
    | _ => none
  | _ => none

end Endpoint

end Relay
