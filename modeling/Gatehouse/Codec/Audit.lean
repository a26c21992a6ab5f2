import Gatehouse.Audit
import Gatehouse.Codec.Token

/-!
Audit entries as JSON.
-/

namespace Gatehouse

open Json

/-- Reads an identifier in any of its forms. -/
def Uuid.read : Reader Uuid := readText Uuid.ofText?

/-- An identifying number as JSON. -/
def Json.ofId (id : UInt64) : Json := .natural id.toNat

namespace AuditEntry

/-- An audit entry as JSON. -/
def toJson (e : AuditEntry) : Json :=
  .object ([("request_id", .string e.requestId.text), ("operation_id", .string e.operation),
      ("method", .string e.method), ("path", .string e.path)] ++
    Json.optional "user_id" .ofId e.user ++
    Json.optional "auth_kind" (fun kind => .string kind.name) e.authKind ++
    Json.optional "org_id" .ofId e.org ++ Json.optional "team_id" .ofId e.team ++
    [("timestamp", .string e.time.text)])

/-- The fields of an audit entry. -/
def fields : List (RecordField AuditEntry) :=
  [.of "request_id" .required Uuid.read fun v e => { e with requestId := v },
    .of "operation_id" .required readString fun v e => { e with operation := v },
    .of "method" .required readString fun v e => { e with method := v },
    .of "path" .required readString fun v e => { e with path := v },
    .of "user_id" .optional (readOptional readUInt64) fun v e => { e with user := v },
    .of "auth_kind" .optional (readOptional (readTag AuthKind.names)) fun v e =>
      { e with authKind := v },
    .of "org_id" .optional (readOptional readUInt64) fun v e => { e with org := v },
    .of "team_id" .optional (readOptional readUInt64) fun v e => { e with team := v },
    .of "timestamp" .required Timestamp.read fun v e => { e with time := v }]

/-- Reads an audit entry. -/
def read : Reader AuditEntry :=
  readRecord fields ⟨default, "", "", "", none, none, none, none, default⟩

end AuditEntry

end Gatehouse
