import Gatehouse.Config
import Gatehouse.Json.Record

/-!
Settings as JSON. Every setting of the service has a default; those of the cache come together.
-/

namespace Gatehouse

open Json

namespace CacheSettings

/-- Settings of the cache as JSON. -/
def toJson (s : CacheSettings) : Json :=
  .object [("ttl_secs", .natural s.lifetime.toNat), ("key_prefix", .string s.keyPrefix),
    ("capacity", .natural s.capacity.toNat)]

/-- The fields of the settings of the cache. -/
def fields : List (RecordField CacheSettings) :=
  [.of "ttl_secs" .required readUInt64 fun v s => { s with lifetime := v },
    .of "key_prefix" .required readString fun v s => { s with keyPrefix := v },
    .of "capacity" .required readUInt64 fun v s => { s with capacity := v }]

/-- Reads settings of the cache. -/
def read : Reader CacheSettings := readRecord fields ⟨0, "", 0⟩

end CacheSettings

namespace Config

/-- Settings as JSON. -/
def toJson (c : Config) : Json :=
  .object [("port", .natural c.port.toNat), ("cache", c.cache.toJson),
    ("pat_prefix", .string c.tokenPrefix), ("audit_buffer", .natural c.auditBuffer.toNat)]

/-- The fields of the settings. -/
def fields : List (RecordField Config) :=
  [.of "port" .defaulted readUInt16 fun v c => { c with port := v },
    .of "cache" .defaulted CacheSettings.read fun v c => { c with cache := v },
    .of "pat_prefix" .defaulted readString fun v c => { c with tokenPrefix := v },
    .of "audit_buffer" .defaulted readUInt64 fun v c => { c with auditBuffer := v }]

/-- Reads settings. -/
def read : Reader Config := readRecord fields .default

end Config

end Gatehouse
