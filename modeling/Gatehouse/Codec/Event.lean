import Gatehouse.Event.Basic
import Gatehouse.Json.Record

/-!
Events as JSON.

An event is an object whose member `type` names it, wherever that member stands, beside the one
field of the event; or an array of the name and the field. The whole value must be readable, also
the members that are skipped.
-/

namespace Gatehouse

open Json

namespace Event

/-- The kinds of events: name, field and constructor. -/
def kinds : List (String × String × (UInt64 → Event)) :=
  [("RolePermissionsChanged", "role_id", .rolePermissionsChanged),
    ("UserRoleAssigned", "user_id", .userRoleAssigned),
    ("UserDeleted", "user_id", .userDeleted)]

/-- An event as JSON. -/
def toJson : Event → Json
  | .rolePermissionsChanged role =>
    .object [("type", .string "RolePermissionsChanged"), ("role_id", .natural role.toNat)]
  | .userRoleAssigned user =>
    .object [("type", .string "UserRoleAssigned"), ("user_id", .natural user.toNat)]
  | .userDeleted user =>
    .object [("type", .string "UserDeleted"), ("user_id", .natural user.toNat)]

/-- The greatest number of arrays and objects inside each other. -/
def depth : Nat := 127

/-- The kind of event that a string names. -/
def readKind : Reader (String × (UInt64 → Event)) :=
  readText fun name => kinds.lookup name

/-- Reads the field of an event. -/
def readBody (kind : String × (UInt64 → Event)) : Reader Event := fun j =>
  kind.2 <$> readRecord [.of kind.1 .required readUInt64 fun v _ => v] 0 j

/-- The members of an object with a name, and the others. -/
def withName (name : String) (members : List (String × Json)) :
    List (String × Json) × List (String × Json) :=
  members.partition (·.1 == name)

/-- Reads an event. -/
def read : Reader Event := fun j =>
  if !j.readableWithin depth then .error .malformed
  else match j with
    | .object members =>
      match withName "type" members with
      | ([(_, tag)], others) => do readBody (← readKind tag) (.object others)
      | _ => .error .mismatch
    | .array (tag :: items) => do readBody (← readKind tag) (.array items)
    | _ => .error .mismatch

end Event

end Gatehouse
