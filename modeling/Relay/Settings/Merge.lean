import Relay.Json.Value

/-!
# Layers of settings

Settings come in layers, and each layer changes those below it.  Where both
have an object, the objects are merged; any other value of the upper layer
replaces what is below it.
-/

namespace Relay.Settings

mutual

/-- What an upper value makes of what is below it. -/
def mergeValue (below : Option Json) : Json → Json
  | .object updates =>
    match below with
    | some (.object fields) => .object (merge fields updates)
    | _ => .object updates
  | value => value

/-- The fields of a layer with those of an upper layer merged into them. -/
def merge (fields : Json.Fields) : List (String × Json) → Json.Fields
  | [] => fields
  | (key, value) :: rest =>
      merge (fields.set key (mergeValue (fields.get? key) value)) rest

end

end Relay.Settings
