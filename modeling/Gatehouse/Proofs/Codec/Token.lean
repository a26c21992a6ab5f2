import Gatehouse.Codec.Audit
import Gatehouse.Proofs.Codec.Role
import Gatehouse.Proofs.Time.Written
import Gatehouse.Proofs.Uuid

/-!
Access tokens and audit entries are read back from their JSON as they were written.

Members that are left out leave the field as it was before, which is empty. The moments must be of the
years that are written in four digits.
-/

namespace Gatehouse

open Json

/-! ### Members that may be left out -/

namespace Json

variable {α ρ : Type} {name : String} {encode : α → Json} {value : Option α}

theorem membersPlain_optional (plain : ∀ a, IsPlain (encode a)) :
    MembersPlain (Json.optional name encode value) := by
  cases value with
  | none => trivial
  | some a => exact ⟨plain a, trivial⟩

theorem sublist_optional : ((Json.optional name encode value).map Prod.fst).Sublist [name] := by
  cases value with
  | none => exact List.nil_sublist _
  | some a => exact List.Sublist.refl _

/-- A member that may be left out stores its value, if the field is empty before. -/
theorem stores_optional {fields : List (RecordField ρ)} {presence : Presence} {read : Reader α}
    {set : Option α → ρ → ρ} {r r' : ρ}
    (named : fields.find? (·.name == name) = some (.of name presence (readOptional read) set))
    (empty : set none r = r) (stored : set value r = r')
    (given : ∀ a, encode a ≠ .null ∧ encode a ≠ .misnamed)
    (back : ∀ a, value = some a → read (encode a) = .ok a) :
    Stores fields (Json.optional name encode value) r r' := by
  cases value with
  | none =>
      rw [← stored, empty]
      exact .nil r
  | some a =>
      have decoded : readOptional read (encode a) = .ok (some a) := by
        rw [readOptional.eq_2 _ _ (given a).1, back a rfl]
        rfl
      exact .read named (given a).2 decoded (stored ▸ .nil _)

end Json

/-! ### Access tokens -/

theorem TokenStatus.readTag_name (status : TokenStatus) :
    readTag names (.string status.name) = .ok status := by
  cases status <;> rfl

theorem Timestamp.read_text {t : Timestamp} (year : t.InFourDigits) : read (.string t.text) = .ok t :=
  readText_string (ofText?_text year)

namespace Token

variable {t : Token}

theorem isPlain_toJson (t : Token) : IsPlain t.toJson := by
  have first : MembersPlain [("id", .string t.id), ("user_id", .natural t.owner.toNat),
      ("name", .string t.name), ("token_hash", .string t.hash), ("scopes", .ofStrings t.scopes),
      ("status", .string t.status.name)] :=
    ⟨trivial, isPlain_natural _, trivial, trivial, isPlain_ofStrings _, trivial, trivial⟩
  have expiry : MembersPlain (Json.optional "expires_at" (fun time => .string time.text) t.expiresAt) :=
    membersPlain_optional fun _ => trivial
  exact membersPlain_append (membersPlain_append first expiry)
    ⟨isPlain_ofStrings _, trivial, trivial⟩

theorem read_toJson (created : t.createdAt.InFourDigits)
    (expires : ∀ expiry, t.expiresAt = some expiry → expiry.InFourDigits) :
    read t.toJson = .ok t := by
  have first : Stores fields [("id", .string t.id), ("user_id", .natural t.owner.toNat),
      ("name", .string t.name), ("token_hash", .string t.hash), ("scopes", .ofStrings t.scopes),
      ("status", .string t.status.name)] ⟨"", 0, "", "", [], .active, none, [], default⟩
      ⟨t.id, t.owner, t.name, t.hash, t.scopes, t.status, none, [], default⟩ :=
    .read rfl nofun rfl <| .read rfl nofun (readUInt64_natural _) <| .read rfl nofun rfl <|
      .read rfl nofun rfl <| .read rfl nofun (readList_ofStrings _) <|
        .read rfl nofun (TokenStatus.readTag_name _) <| .nil _
  have expiry : Stores fields (Json.optional "expires_at" (fun time => .string time.text) t.expiresAt)
      ⟨t.id, t.owner, t.name, t.hash, t.scopes, t.status, none, [], default⟩
      ⟨t.id, t.owner, t.name, t.hash, t.scopes, t.status, t.expiresAt, [], default⟩ :=
    stores_optional rfl rfl rfl (fun _ => ⟨Json.noConfusion, Json.noConfusion⟩)
      fun e given => Timestamp.read_text (expires e given)
  have last : Stores fields [("ip_whitelist", .ofStrings t.allowlist),
      ("created_at", .string t.createdAt.text)]
      ⟨t.id, t.owner, t.name, t.hash, t.scopes, t.status, t.expiresAt, [], default⟩ t :=
    .read rfl nofun (readList_ofStrings _) <| .read rfl nofun (Timestamp.read_text created) <| .nil _
  refine ((first.append expiry).append last).readRecord_eq ?inOrder (by decide) ?complete
  case inOrder =>
    simp only [List.map_append]
    exact (List.Sublist.append (.refl _) sublist_optional).append (.refl _)
  case complete =>
    simp [fields, RecordField.of]

end Token

/-! ### Audit entries -/

theorem AuthKind.readTag_name (kind : AuthKind) : readTag names (.string kind.name) = .ok kind := by
  cases kind <;> rfl

theorem Uuid.read_text (u : Uuid) : read (.string u.text) = .ok u := readText_string (ofText?_text u)

theorem Json.stores_optionalId {ρ : Type} {fields : List (RecordField ρ)} {name : String}
    {presence : Presence} {set : Option UInt64 → ρ → ρ} {id : Option UInt64} {r r' : ρ}
    (named : fields.find? (·.name == name) =
      some (.of name presence (readOptional readUInt64) set))
    (empty : set none r = r) (stored : set id r = r') :
    Stores fields (Json.optional name .ofId id) r r' :=
  stores_optional named empty stored (fun _ => ⟨Json.noConfusion, Json.noConfusion⟩)
    fun id _ => readUInt64_natural id

namespace AuditEntry

variable {e : AuditEntry}

theorem isPlain_toJson (e : AuditEntry) : IsPlain e.toJson := by
  have first : MembersPlain [("request_id", .string e.requestId.text),
      ("operation_id", .string e.operation), ("method", .string e.method),
      ("path", .string e.path)] := ⟨trivial, trivial, trivial, trivial, trivial⟩
  have ids (name : String) (id : Option UInt64) : MembersPlain (Json.optional name .ofId id) :=
    membersPlain_optional isPlain_natural
  have kind : MembersPlain (Json.optional "auth_kind" (fun kind => .string kind.name) e.authKind) :=
    membersPlain_optional fun _ => trivial
  have last : MembersPlain [("timestamp", .string e.time.text)] := ⟨trivial, trivial⟩
  exact membersPlain_append (membersPlain_append (membersPlain_append (membersPlain_append
    (membersPlain_append first (ids _ _)) kind) (ids _ _)) (ids _ _)) last

theorem read_toJson (recorded : e.time.InFourDigits) : read e.toJson = .ok e := by
  have first : Stores fields [("request_id", .string e.requestId.text),
      ("operation_id", .string e.operation), ("method", .string e.method), ("path", .string e.path)]
      ⟨default, "", "", "", none, none, none, none, default⟩
      ⟨e.requestId, e.operation, e.method, e.path, none, none, none, none, default⟩ :=
    .read rfl nofun (Uuid.read_text _) <| .read rfl nofun rfl <| .read rfl nofun rfl <|
      .read rfl nofun rfl <| .nil _
  have user : Stores fields (Json.optional "user_id" .ofId e.user)
      ⟨e.requestId, e.operation, e.method, e.path, none, none, none, none, default⟩
      ⟨e.requestId, e.operation, e.method, e.path, e.user, none, none, none, default⟩ :=
    stores_optionalId rfl rfl rfl
  have kind : Stores fields (Json.optional "auth_kind" (fun kind => .string kind.name) e.authKind)
      ⟨e.requestId, e.operation, e.method, e.path, e.user, none, none, none, default⟩
      ⟨e.requestId, e.operation, e.method, e.path, e.user, e.authKind, none, none, default⟩ :=
    stores_optional rfl rfl rfl (fun _ => ⟨Json.noConfusion, Json.noConfusion⟩)
      fun kind _ => kind.readTag_name
  have org : Stores fields (Json.optional "org_id" .ofId e.org)
      ⟨e.requestId, e.operation, e.method, e.path, e.user, e.authKind, none, none, default⟩
      ⟨e.requestId, e.operation, e.method, e.path, e.user, e.authKind, e.org, none, default⟩ :=
    stores_optionalId rfl rfl rfl
  have team : Stores fields (Json.optional "team_id" .ofId e.team)
      ⟨e.requestId, e.operation, e.method, e.path, e.user, e.authKind, e.org, none, default⟩
      ⟨e.requestId, e.operation, e.method, e.path, e.user, e.authKind, e.org, e.team, default⟩ :=
    stores_optionalId rfl rfl rfl
  have last : Stores fields [("timestamp", .string e.time.text)]
      ⟨e.requestId, e.operation, e.method, e.path, e.user, e.authKind, e.org, e.team, default⟩ e :=
    .read rfl nofun (Timestamp.read_text recorded) <| .nil _
  have whole := ((((first.append user).append kind).append org).append team).append last
  refine whole.readRecord_eq ?inOrder (by decide) ?complete
  case inOrder =>
    simp only [List.map_append]
    exact (((((List.Sublist.refl _).append sublist_optional).append sublist_optional).append
      sublist_optional).append sublist_optional).append (.refl _)
  case complete =>
    simp [fields, RecordField.of]

end AuditEntry

end Gatehouse
