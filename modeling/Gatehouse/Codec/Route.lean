import Gatehouse.Codec.Role
import Gatehouse.Route.Basic

/-!
Routes as JSON. Tags are left out when there are none.
-/

namespace Gatehouse

/-- The tags of a route as members of an object. -/
def Route.tagMembers (r : Route) : List (String × Json) :=
  if r.tags.isEmpty then [] else [("tags", .ofStrings r.tags)]

/-- A route as JSON. -/
def Route.toJson (r : Route) : Json :=
  .object ([("method", .string r.method), ("path", .string r.path),
    ("operation_id", .string r.operation.text)] ++ r.tagMembers)

end Gatehouse
