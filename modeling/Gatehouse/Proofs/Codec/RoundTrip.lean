import Gatehouse.Codec.Config
import Gatehouse.Codec.Event
import Gatehouse.Proofs.Cache.Coherence
import Gatehouse.Proofs.Codec.Token

/-!
Whatever is kept or sent as JSON is read back as it was.

Settings and events have members of their own shape. With permissions, roles, tokens and audit entries
they make up all that is written and read again (`decode?_compact_toJson`). Two kinds of values are
left out: permissions with an empty resource pattern, which is read as every resource, and moments of
years that are not written in four digits. Since entitlements are read back, the cache gives out just
what was put into it (`PermissionCache.get_put`).
-/

namespace Gatehouse

open Json

/-! ### Settings -/

theorem CacheSettings.isPlain_toJson (s : CacheSettings) : IsPlain s.toJson :=
  ⟨isPlain_natural _, trivial, isPlain_natural _, trivial⟩

theorem CacheSettings.read_toJson (s : CacheSettings) : read s.toJson = .ok s := by
  have stores : Stores fields [("ttl_secs", .natural s.lifetime.toNat),
      ("key_prefix", .string s.keyPrefix), ("capacity", .natural s.capacity.toNat)] ⟨0, "", 0⟩ s :=
    .read rfl nofun (readUInt64_natural _) <| .read rfl nofun rfl <|
      .read rfl nofun (readUInt64_natural _) <| .nil _
  exact stores.readRecord_eq (.refl _) (by decide) (by simp [fields, RecordField.of])

theorem Config.isPlain_toJson (c : Config) : IsPlain c.toJson :=
  ⟨c.port.toNat_lt.trans (by decide), c.cache.isPlain_toJson, trivial, isPlain_natural _, trivial⟩

theorem Config.read_toJson (c : Config) : read c.toJson = .ok c := by
  have stores : Stores fields [("port", .natural c.port.toNat), ("cache", c.cache.toJson),
      ("pat_prefix", .string c.tokenPrefix), ("audit_buffer", .natural c.auditBuffer.toNat)]
      .default c :=
    .read rfl nofun (readUInt16_natural _) <| .read rfl nofun c.cache.read_toJson <|
      .read rfl nofun rfl <| .read rfl nofun (readUInt64_natural _) <| .nil _
  exact stores.readRecord_eq (.refl _) (by decide) (by simp [fields, RecordField.of])

/-! ### Events -/

namespace Event

theorem isPlain_toJson (e : Event) : IsPlain e.toJson := by
  cases e with
  | rolePermissionsChanged role => exact ⟨trivial, isPlain_natural role, trivial⟩
  | userRoleAssigned user => exact ⟨trivial, isPlain_natural user, trivial⟩
  | userDeleted user => exact ⟨trivial, isPlain_natural user, trivial⟩

/-- The one field of an event is read. -/
theorem readBody_natural (kind : String × (UInt64 → Event)) (id : UInt64) :
    readBody kind (.object [(kind.1, .natural id.toNat)]) = .ok (kind.2 id) := by
  have stores : Stores [.of kind.1 .required readUInt64 fun v _ => v]
      [(kind.1, .natural id.toNat)] 0 id :=
    .read (List.find?_cons_of_pos (beq_self_eq_true kind.1)) nofun (readUInt64_natural id) (.nil _)
  have body := stores.readRecord_eq (.refl _) (List.nodup_singleton _)
    (by simp [RecordField.of])
  rw [readBody, body]
  rfl

theorem read_toJson (e : Event) : read e.toJson = .ok e := by
  cases e with
  | rolePermissionsChanged role => exact readBody_natural ("role_id", .rolePermissionsChanged) role
  | userRoleAssigned user => exact readBody_natural ("user_id", .userRoleAssigned) user
  | userDeleted user => exact readBody_natural ("user_id", .userDeleted) user

end Event

/-! ### The cache -/

/-- While the backend can be reached and the entry lasts, the cache gives what was put into it. -/
theorem PermissionCache.get_put {c : PermissionCache} {m m' : Moment} {user : UserId}
    {entry : Entitlements} (given : ∀ p ∈ entry.permissions, p.resource ≠ "")
    (written : m.outage.cache
      (.set (c.key user) entry.toJson.compact c.settings.lifetime.toNat) = false)
    (read : m'.outage.cache (.get (c.key user)) = false)
    (live : m'.tick ≤ m.tick + c.settings.lifetime.toNat * 1000000000) :
    ((c.put m user entry).get m' user).1 = some entry := by
  have sameKey : (c.put m user entry).key user = c.key user := by
    rw [key, put_settings, key]
  have memory : (c.put m user entry).memory = c.memory.set m.eviction m.tick (c.key user)
      entry.toJson.compact c.settings.lifetime.toNat := by
    simp [put, store, written, note]
  have fetched : ((c.put m user entry).fetch m' (c.key user)).1 =
      .ok (some entry.toJson.compact) := by
    simp [fetch, read, note, memory, MemoryCache.set, MemoryCache.get_write live]
  unfold get
  rw [sameKey]
  split <;> rename_i got <;> rw [got] at fetched <;> cases fetched
  rw [Entitlements.decode?_compact given]

/-! ### Everything that is written -/

/-- **What is written as JSON is read back as it was.** This goes for entitlements and roles whose
permissions name resources, for tokens and audit entries of years in four digits, and for every event
and all settings. So an entry of the cache is the one that was put there, while it lasts. -/
theorem decode?_compact_toJson :
    (∀ e : Entitlements, (∀ p ∈ e.permissions, p.resource ≠ "") →
      decode? Entitlements.read e.toJson.compact = some e) ∧
    (∀ r : Role, (∀ p ∈ r.permissions, p.resource ≠ "") →
      decode? Role.read r.toJson.compact = some r) ∧
    (∀ t : Token, t.createdAt.InFourDigits →
      (∀ expiry, t.expiresAt = some expiry → expiry.InFourDigits) →
        decode? Token.read t.toJson.compact = some t) ∧
    (∀ e : AuditEntry, e.time.InFourDigits →
      decode? AuditEntry.read e.toJson.compact = some e) ∧
    (∀ e : Event, decode? Event.read e.toJson.compact = some e) ∧
    (∀ c : Config, decode? Config.read c.toJson.compact = some c) ∧
    ∀ (c : PermissionCache) (m m' : Moment) (user : UserId) (entry : Entitlements),
      (∀ p ∈ entry.permissions, p.resource ≠ "") →
        (∀ call, m.outage.cache call = false) → (∀ call, m'.outage.cache call = false) →
          m'.tick ≤ m.tick + c.settings.lifetime.toNat * 1000000000 →
            ((c.put m user entry).get m' user).1 = some entry := by
  refine ⟨?entitlements, ?role, ?token, ?audit, ?event, ?config, ?cache⟩
  case entitlements => exact fun _ given => Entitlements.decode?_compact given
  case role => exact fun r given => decode?_eq_some r.isPlain_toJson (Role.read_toJson given)
  case token =>
    exact fun t created expires => decode?_eq_some t.isPlain_toJson (Token.read_toJson created expires)
  case audit =>
    exact fun e recorded => decode?_eq_some e.isPlain_toJson (AuditEntry.read_toJson recorded)
  case event => exact fun e => decode?_eq_some e.isPlain_toJson e.read_toJson
  case config => exact fun c => decode?_eq_some c.isPlain_toJson c.read_toJson
  case cache =>
    exact fun c m m' user entry given up up' live => PermissionCache.get_put given (up _) (up' _) live

/-! ### An editor -/

/-- The role of editors. -/
def Role.editor : Role := ⟨3, "editor", "Editor", false, [⟨"org:team:read", "org/7"⟩]⟩

/-- What an editor is entitled to. -/
def Entitlements.ofEditor : Entitlements := ⟨[Role.editor.name], Role.editor.permissions⟩

/-- An editor's token, which expires at once. -/
def Token.ofEditor : Token :=
  ⟨"laptop", 11, "laptop", "c0ffee", [TokenScope.own.name], .active, some .epoch, [], .epoch⟩

/-- A request of an editor. -/
def AuditEntry.ofEditor : AuditEntry :=
  ⟨.zero, "org:team:create", "POST", "/orgs/7/teams", some 11, some .token, some 7, none, .epoch⟩

theorem editor_read_back :
    decode? Entitlements.read Entitlements.ofEditor.toJson.compact = some .ofEditor ∧
      decode? Role.read Role.editor.toJson.compact = some .editor ∧
      decode? Token.read Token.ofEditor.toJson.compact = some .ofEditor ∧
      decode? AuditEntry.read AuditEntry.ofEditor.toJson.compact = some .ofEditor ∧
      (((PermissionCache.empty Config.default.cache).put default 11 .ofEditor).get default 11).1 =
        some .ofEditor := by
  obtain ⟨entitlements, role, token, audit, _, _, cache⟩ := decode?_compact_toJson
  refine ⟨entitlements _ (by decide), role _ (by decide), token _ (by decide) ?_, audit _ (by decide),
    cache _ _ _ _ _ (by decide) (fun _ => rfl) (fun _ => rfl) (by decide)⟩
  rintro expiry ⟨⟩
  decide

end Gatehouse
