import Gatehouse.Text.Blank
import Gatehouse.Text.Decimal

/-!
Settings of the service, and how the environment changes them.

Numbers in the environment may have blanks around them; one that cannot be read leaves the default.
Prefixes are taken as they are, unless they are empty.
-/

namespace Gatehouse

/-- Settings of the permission cache. -/
structure CacheSettings where
  /-- The lifetime of an entry in seconds. -/
  lifetime : UInt64
  /-- What the key of every entry starts with. -/
  keyPrefix : String
  /-- The greatest number of entries. -/
  capacity : UInt64
  deriving Repr, DecidableEq

/-- Settings of the service. -/
structure Config where
  port : UInt16
  cache : CacheSettings
  /-- What every personal access token starts with. -/
  tokenPrefix : String
  /-- The number of audit entries that may wait. -/
  auditBuffer : UInt64
  deriving Repr, DecidableEq

namespace Config

/-- The settings that nothing changes. -/
def default : Config := ⟨8080, ⟨300, "authz:perms:", 10000⟩, "pat_", 1024⟩

instance : Inhabited Config := ⟨default⟩

/-- A number of the environment, or the default. -/
def numberOr {α : Type} (read : String → Option α) (value : Option String) (default : α) : α :=
  ((value.map Text.trim).bind read).getD default

/-- A text of the environment, or the default. -/
def textOr (value : Option String) (default : String) : String :=
  (value.filter (· ≠ "")).getD default

/-- The settings under an environment. -/
def ofEnvironment (env : String → Option String) : Config where
  port := numberOr Text.uint16? (env "PORT") default.port
  cache := {
    lifetime := numberOr Text.uint64? (env "CACHE_TTL") default.cache.lifetime
    keyPrefix := textOr (env "CACHE_KEY_PREFIX") default.cache.keyPrefix
    capacity := numberOr Text.uint64? (env "CACHE_SIZE") default.cache.capacity }
  tokenPrefix := textOr (env "PAT_PREFIX") default.tokenPrefix
  auditBuffer := numberOr Text.uint64? (env "AUDIT_BUFFER") default.auditBuffer

end Config

end Gatehouse
