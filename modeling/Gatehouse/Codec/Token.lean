import Gatehouse.Codec.Role
import Gatehouse.Token.Basic

/-!
Access tokens and their scopes as JSON.
-/

namespace Gatehouse

open Json

namespace TokenStatus

/-- The states by name. -/
def names : List (String × TokenStatus) :=
  [("active", .active), ("disabled", .disabled), ("expired", .expired)]

end TokenStatus

namespace TokenScope

/-- The scopes by name. -/
def names : List (String × TokenScope) := all.map fun s => (s.name, s)

/-- A scope as it is offered. -/
def toJson (s : TokenScope) : Json :=
  .object [("name", .string s.name), ("display_name", .string s.displayName),
    ("description", .string s.description)]

end TokenScope

/-- Reads a moment. -/
def Timestamp.read : Reader Timestamp := readText Timestamp.ofText?

/-- An optional member of an object. -/
def Json.optional {α : Type} (name : String) (encode : α → Json) (value : Option α) :
    List (String × Json) :=
  value.toList.map fun a => (name, encode a)

namespace Token

/-- A token as JSON. -/
def toJson (t : Token) : Json :=
  .object ([("id", .string t.id), ("user_id", .natural t.owner.toNat), ("name", .string t.name),
      ("token_hash", .string t.hash), ("scopes", .ofStrings t.scopes),
      ("status", .string t.status.name)] ++
    Json.optional "expires_at" (fun time => .string time.text) t.expiresAt ++
    [("ip_whitelist", .ofStrings t.allowlist), ("created_at", .string t.createdAt.text)])

/-- The fields of a token. -/
def fields : List (RecordField Token) :=
  [.of "id" .required readString fun v t => { t with id := v },
    .of "user_id" .required readUInt64 fun v t => { t with owner := v },
    .of "name" .required readString fun v t => { t with name := v },
    .of "token_hash" .required readString fun v t => { t with hash := v },
    .of "scopes" .required (readList readString) fun v t => { t with scopes := v },
    .of "status" .required (readTag TokenStatus.names) fun v t => { t with status := v },
    .of "expires_at" .optional (readOptional Timestamp.read) fun v t => { t with expiresAt := v },
    .of "ip_whitelist" .defaulted (readList readString) fun v t => { t with allowlist := v },
    .of "created_at" .required Timestamp.read fun v t => { t with createdAt := v }]

/-- Reads a token. -/
def read : Reader Token := readRecord fields ⟨"", 0, "", "", [], .active, none, [], default⟩

end Token

end Gatehouse
