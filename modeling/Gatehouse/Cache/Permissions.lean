import Gatehouse.Codec.Role
import Gatehouse.Config
import Gatehouse.Moment
import Gatehouse.Role.Store
import Gatehouse.Text.Rate

/-!
The cache of what users are entitled to.

Entitlements are kept as text under a key of the user, each for the lifetime that the settings give.
They are filled from the role store when they are missing. The cache never fails on its own account:
a read that fails or yields a text that cannot be read counts as missing, a write or a deletion that
fails is left at that. Statistics count what happened, and every call to the backend is kept in
order.
-/

namespace Gatehouse

/-- Counts of what happened in a cache. -/
structure CacheStats where
  /-- Reads that gave an entry. -/
  hits : Nat
  /-- Reads that gave none. -/
  misses : Nat
  /-- Calls to the backend that failed, and texts that could not be read. -/
  errors : Nat
  /-- Deletions, whether they failed or not. -/
  invalidations : Nat
  deriving Repr, DecidableEq

namespace CacheStats

/-- Nothing has happened. -/
def zero : CacheStats := ⟨0, 0, 0, 0⟩

/-- The share of hits among the reads. -/
def hitRate (s : CacheStats) : String := Text.rate s.hits (s.hits + s.misses)

/-- A read that gave an entry. -/
def hit (s : CacheStats) : CacheStats := { s with hits := s.hits + 1 }

/-- A read that gave none. -/
def miss (s : CacheStats) : CacheStats := { s with misses := s.misses + 1 }

/-- A failure. -/
def fault (s : CacheStats) : CacheStats := { s with errors := s.errors + 1 }

/-- A deletion. -/
def invalidation (s : CacheStats) : CacheStats := { s with invalidations := s.invalidations + 1 }

end CacheStats

/-- The cache of entitlements. -/
structure PermissionCache where
  settings : CacheSettings
  memory : MemoryCache
  stats : CacheStats
  /-- The calls made to the backend, the last one first. -/
  calls : List CacheCall
  deriving Repr, DecidableEq

namespace PermissionCache

/-- A cache that holds nothing. -/
def empty (settings : CacheSettings) : PermissionCache :=
  ⟨settings, .empty settings.capacity.toNat, .zero, []⟩

/-- The key of a user. -/
def key (c : PermissionCache) (user : UserId) : String := s!"{c.settings.keyPrefix}{user}"

/-! ### Calls to the backend -/

/-- Notes a call. -/
def note (c : PermissionCache) (call : CacheCall) : PermissionCache :=
  { c with calls := call :: c.calls }

/-- The text under a key. -/
def fetch (m : Moment) (c : PermissionCache) (key : String) :
    Except Error (Option String) × PermissionCache :=
  let c := c.note (.get key)
  if m.outage.cache (.get key) then (.error (.cacheDown (.get key)), c)
  else
    let (text, memory) := c.memory.get m.tick key
    (.ok text, { c with memory })

/-- Writes a text under a key. -/
def store (m : Moment) (c : PermissionCache) (key text : String) :
    Except Error Unit × PermissionCache :=
  let lifetime := c.settings.lifetime.toNat
  let c := c.note (.set key text lifetime)
  if m.outage.cache (.set key text lifetime) then (.error (.cacheDown (.set key text lifetime)), c)
  else (.ok (), { c with memory := c.memory.set m.eviction m.tick key text lifetime })

/-- Deletes what is under a key. -/
def drop (m : Moment) (c : PermissionCache) (key : String) : Except Error Unit × PermissionCache :=
  let c := c.note (.delete key)
  if m.outage.cache (.delete key) then (.error (.cacheDown (.delete key)), c)
  else (.ok (), { c with memory := c.memory.delete key })

/-! ### Entitlements -/

/-- Counts something. -/
def count (c : PermissionCache) (f : CacheStats → CacheStats) : PermissionCache :=
  { c with stats := f c.stats }

/-- The entry of a user, if there is one that can be read. -/
def get (m : Moment) (c : PermissionCache) (user : UserId) :
    Option Entitlements × PermissionCache :=
  match c.fetch m (c.key user) with
  | (.ok none, c) => (none, c.count .miss)
  | (.error _, c) => (none, c.count fun s => s.fault.miss)
  | (.ok (some text), c) =>
    match Json.decode? Entitlements.read text with
    | some entry => (some entry, c.count .hit)
    | none => (none, c.count fun s => s.fault.miss)

/-- Writes the entry of a user. -/
def put (m : Moment) (c : PermissionCache) (user : UserId) (entry : Entitlements) :
    PermissionCache :=
  match c.store m (c.key user) entry.toJson.compact with
  | (.ok (), c) => c
  | (.error _, c) => c.count .fault

/-- What a user is entitled to: the entry, or what the role store says, which then becomes the
entry. -/
def load (m : Moment) (roles : RoleStore) (c : PermissionCache) (user : UserId) :
    Except Error Entitlements × PermissionCache :=
  match c.get m user with
  | (some entry, c) => (.ok entry, c)
  | (none, c) =>
    match roles.entitlements m.outage user with
    | .error e => (.error e, c)
    | .ok entry => (.ok entry, c.put m user entry)

/-- Deletes the entry of a user. -/
def invalidate (m : Moment) (c : PermissionCache) (user : UserId) : PermissionCache :=
  match (c.count .invalidation).drop m (c.key user) with
  | (.ok (), c) => c
  | (.error _, c) => c.count .fault

/-- Deletes the entries of several users, in their order. -/
def invalidateAll (m : Moment) : List UserId → PermissionCache → PermissionCache
  | [], c => c
  | user :: users, c => invalidateAll m users (c.invalidate m user)

/-- Deletes the entries of the users a role is assigned to, and tells how many they are. -/
def invalidateHolders (m : Moment) (roles : RoleStore) (c : PermissionCache) (role : RoleId) :
    Except Error Nat × PermissionCache :=
  match m.outage.reach .userIdsWithRole (roles.holders role) with
  | .error e => (.error e, c)
  | .ok holders => (.ok holders.length, invalidateAll m holders c)

end PermissionCache

end Gatehouse
