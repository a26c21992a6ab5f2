import Gatehouse.Cache.Permissions
import Gatehouse.Chain.Basic
import Gatehouse.Credential
import Gatehouse.Event.Bus
import Gatehouse.Grant
import Gatehouse.Role.Administration

/-!
A running service: its stores, its cache and who listens to its events.

Every change of roles is made through `administer`, which publishes what changed; the cache listens,
and drops the entries of the users concerned.
-/

namespace Gatehouse

/-- What is done with events. -/
inductive Listener where
  /-- The cache drops the entries that an event makes stale. -/
  | invalidator
  /-- The event is written down under a name. Afterwards the listener may report a failure. -/
  | journal (name : String) (fails : Bool)
  deriving Repr, DecidableEq

/-- An event that a journal has written down. -/
structure Delivery where
  listener : String
  event : Event
  deriving Repr, DecidableEq

/-- A running service. -/
structure Site where
  config : Config
  roles : RoleStore
  directory : Directory
  tokens : TokenStore
  sessions : Sessions
  cache : PermissionCache
  /-- Who listens to which topics, in order. -/
  listeners : List (String × Listener)
  /-- What journals have written down, in order. -/
  deliveries : List Delivery
  audit : AuditSink
  /-- When the service started, by the clock that never goes back. -/
  startedAt : Nat
  deriving Repr, DecidableEq

/-- The topics that the cache listens to: whatever happens to roles and users. -/
def Listener.cacheTopics : List String := ["role.*", "user.*"]

namespace Listener

/-- What a listener does with an event. -/
def handle (m : Moment) (roles : RoleStore) (l : Listener) (e : Event)
    (s : PermissionCache × List Delivery) : Except Error Unit × PermissionCache × List Delivery :=
  let (cache, deliveries) := s
  match l with
  | .journal name fails =>
    (if fails then .error (.foreign .internal "the journal is out of order") else .ok (), cache,
      deliveries ++ [⟨name, e⟩])
  | .invalidator =>
    match e with
    | .rolePermissionsChanged role =>
      match cache.invalidateHolders m roles role with
      | (.ok _, cache) => (.ok (), cache, deliveries)
      | (.error err, cache) => (.error err, cache, deliveries)
    | .userRoleAssigned user | .userDeleted user => (.ok (), cache.invalidate m user, deliveries)

end Listener

namespace Site

/-- A service that starts with nothing stored. -/
def start (config : Config) (audit : AuditSink) (tick : Nat) : Site where
  config
  roles := .empty
  directory := .empty
  tokens := .empty
  sessions := .empty
  cache := .empty config.cache
  listeners := Listener.cacheTopics.map fun topic => (topic, .invalidator)
  deliveries := []
  audit
  startedAt := tick

/-- Lets a listener hear of topics. -/
def subscribe (s : Site) (pattern : String) (l : Listener) : Site :=
  { s with listeners := s.listeners ++ [(pattern, l)] }

/-- The subscriptions of the listeners. -/
def subscriptions (m : Moment) (s : Site) : List (Subscription (PermissionCache × List Delivery)) :=
  s.listeners.map fun (pattern, l) => ⟨pattern, l.handle m s.roles⟩

/-- Publishes an event, and tells how many listeners heard of it. -/
def publish (m : Moment) (s : Site) (e : Event) : Nat × Site :=
  let (n, cache, deliveries) := Subscription.publish (s.subscriptions m) e (s.cache, s.deliveries)
  (n, { s with cache, deliveries })

/-- Publishes events in order. -/
def publishAll (m : Moment) : List Event → Site → Site
  | [], s => s
  | e :: rest, s => publishAll m rest (s.publish m e).2

/-- Makes a change of roles, as far as it goes, and publishes what it tells of. -/
def administer (m : Moment) (change : Outage → Attempt Change Unit) (s : Site) :
    Except Error Unit × Site :=
  let (outcome, c) := (change m.outage).run (.start s.roles)
  (outcome, publishAll m c.events { s with roles := c.store })

/-- What a user is entitled to, from the cache if it knows. -/
def entitlements (m : Moment) (s : Site) (user : UserId) : Except Error Entitlements × Site :=
  let (result, cache) := s.cache.load m s.roles user
  (result, { s with cache })

/-- A caller and what it may do. -/
structure Caller where
  identity : Identity
  roles : List String
  permissions : List Permission
  deriving Repr, DecidableEq

/-- The permissions of an identity: those its user is entitled to, as far as the scopes of its
token go. -/
def permissionsOf (identity : Identity) (e : Entitlements) : List Permission :=
  match identity.scopes with
  | some scopes => Scopes.restrict scopes e.permissions
  | none => e.permissions

/-- The caller that a header names, from an address. -/
def authenticate (m : Moment) (s : Site) (header : Option String) (address : Option Address) :
    Except Error Caller × Site :=
  match Credential.ofHeader s.config.tokenPrefix header with
  | .error fault => (.error (.credential fault), s)
  | .ok credential =>
    match credential.resolve m s.sessions s.tokens address with
    | .error e => (.error e, s)
    | .ok identity =>
      match s.entitlements m identity.user with
      | (.error e, s) => (.error e, s)
      | (.ok e, s) => (.ok ⟨identity, e.roles, permissionsOf identity e⟩, s)

end Site

end Gatehouse
