import Gatehouse.Json.Record
import Gatehouse.Role.Basic

/-!
Permissions, roles and entitlements as JSON.
-/

namespace Gatehouse

open Json

/-- A list of strings. -/
def Json.ofStrings (ss : List String) : Json := .array (ss.map .string)

namespace Permission

/-- A permission as JSON. -/
def toJson (p : Permission) : Json :=
  .object [("operation_pattern", .string p.operation), ("resource_pattern", .string p.resource)]

/-- A resource pattern; `null` and the empty text stand for every resource. -/
def readResource : Reader String := fun j => do
  let text ← readOptional readString j
  return if text.getD "" = "" then Pattern.wildcard else text.getD ""

/-- The fields of a permission. -/
def fields : List (RecordField Permission) :=
  [.of "operation_pattern" .required readString fun v p => { p with operation := v },
    .of "resource_pattern" .defaulted readResource fun v p => { p with resource := v }]

/-- Reads a permission; without a resource pattern it is one on every resource. -/
def read : Reader Permission := readRecord fields ⟨"", Pattern.wildcard⟩

end Permission

namespace Role

/-- A role as JSON. -/
def toJson (r : Role) : Json :=
  .object [("id", .natural r.id.toNat), ("name", .string r.name),
    ("display_name", .string r.displayName), ("is_system", .bool r.isSystem),
    ("permissions", .array (r.permissions.map Permission.toJson))]

/-- The fields of a role. -/
def fields : List (RecordField Role) :=
  [.of "id" .required readUInt64 fun v r => { r with id := v },
    .of "name" .required readString fun v r => { r with name := v },
    .of "display_name" .required readString fun v r => { r with displayName := v },
    .of "is_system" .defaulted readBool fun v r => { r with isSystem := v },
    .of "permissions" .defaulted (readList Permission.read) fun v r => { r with permissions := v }]

/-- Reads a role. -/
def read : Reader Role := readRecord fields ⟨0, "", "", false, []⟩

end Role

namespace Entitlements

/-- Entitlements as JSON. -/
def toJson (e : Entitlements) : Json :=
  .object [("roles", .ofStrings e.roles),
    ("permissions", .array (e.permissions.map Permission.toJson))]

/-- The fields of entitlements. -/
def fields : List (RecordField Entitlements) :=
  [.of "roles" .required (readList readString) fun v e => { e with roles := v },
    .of "permissions" .required (readList Permission.read) fun v e => { e with permissions := v }]

/-- Reads entitlements. -/
def read : Reader Entitlements := readRecord fields ⟨[], []⟩

end Entitlements

end Gatehouse
