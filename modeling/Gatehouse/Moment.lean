import Gatehouse.Cache.Memory
import Gatehouse.Outage
import Gatehouse.Time.Timestamp
import Gatehouse.Token.Basic
import Gatehouse.Uuid

/-!
What the outside world adds to one operation.

Operations are functions. What they cannot compute they are given: the time by two clocks, fresh
random values, which calls to stores and cache fail, and which cache entries have to go.
-/

namespace Gatehouse

/-- The circumstances of one operation. -/
structure Moment where
  /-- Universal time. -/
  now : Timestamp
  /-- The nanoseconds of a clock that never goes back. -/
  tick : Nat
  /-- A fresh identifier for a request that has none. -/
  requestId : Uuid
  /-- A fresh identifier for a token. -/
  tokenId : Uuid
  /-- The fresh random part of a token's secret. -/
  nonce : Nonce
  outage : Outage
  eviction : Eviction

instance : Inhabited Moment :=
  ⟨⟨default, 0, default, default, default, default, default⟩⟩

end Gatehouse
