import Gatehouse.Table

/-!
A bounded store of texts that expire.

An entry has a lifetime, and has expired once more time than that has passed since it was written.
An expired entry is never read again, but counts until something removes it. A new key that meets a
full store first drives out the expired entries, and then, if there were none, one entry in ten;
which ones is left to the `Eviction`.

Times and lifetimes are counted in nanoseconds of a clock that never goes back.
-/

namespace Gatehouse

/-- A stored text. -/
structure CacheEntry where
  value : String
  writtenAt : Nat
  lifetime : Nat
  deriving Repr, DecidableEq

/-- The entry has expired. -/
def CacheEntry.isExpired (e : CacheEntry) (now : Nat) : Bool :=
  e.writtenAt + e.lifetime < now

/-- The order in which live entries have to go. -/
structure Eviction where
  order : List (String × CacheEntry) → List (String × CacheEntry)
  perm : ∀ entries, (order entries).Perm entries

/-- Entries go in the order of their keys. -/
def Eviction.byKey : Eviction := ⟨id, fun _ => .refl _⟩

instance : Inhabited Eviction := ⟨.byKey⟩

/-- A store of at most `capacity` texts, and of one if `capacity` is zero. -/
structure MemoryCache where
  capacity : Nat
  entries : Table String CacheEntry
  deriving Repr, DecidableEq

namespace MemoryCache

/-- A store that holds nothing. -/
def empty (capacity : Nat) : MemoryCache := ⟨capacity, .empty⟩

/-- The number of entries it can hold. -/
def room (c : MemoryCache) : Nat := max 1 c.capacity

/-- The number of entries, expired ones included. -/
def size (c : MemoryCache) : Nat := c.entries.size

/-- Removes the expired entries. -/
def cleanup (c : MemoryCache) (now : Nat) : MemoryCache :=
  { c with entries := c.entries.filter fun _ e => !e.isExpired now }

/-- Makes room for a new key. -/
def makeRoom (c : MemoryCache) (eviction : Eviction) (now : Nat) : MemoryCache :=
  let c := c.cleanup now
  if c.size < c.room then c
  else
    let leaving := ((eviction.order c.entries.entries).take (max 1 (c.room / 10))).map Prod.fst
    { c with entries := c.entries.filter fun key _ => !leaving.contains key }

/-- The text of a key, unless it has expired; an expired one is removed. -/
def get (c : MemoryCache) (now : Nat) (key : String) : Option String × MemoryCache :=
  match c.entries.find? key with
  | none => (none, c)
  | some e =>
    if e.isExpired now then (none, { c with entries := c.entries.erase key })
    else (some e.value, c)

/-- Writes a text. -/
def write (c : MemoryCache) (eviction : Eviction) (now : Nat) (key value : String)
    (lifetime : Nat) : MemoryCache :=
  let c := if !c.entries.contains key && c.room ≤ c.size then c.makeRoom eviction now else c
  { c with entries := c.entries.insert key ⟨value, now, lifetime⟩ }

/-- Writes a text for a number of seconds. -/
def set (c : MemoryCache) (eviction : Eviction) (now : Nat) (key value : String)
    (seconds : Nat) : MemoryCache :=
  c.write eviction now key value (seconds * 1000000000)

/-- Removes a key. -/
def delete (c : MemoryCache) (key : String) : MemoryCache :=
  { c with entries := c.entries.erase key }

end MemoryCache

end Gatehouse
