import Gatehouse.Cache.Memory
import Gatehouse.Proofs.Table

/-!
What the bounded store holds after each operation.

No operation brings back what another has removed: what a store holds afterwards it held before, but
for the one entry that `write` writes. Time and eviction only make it hold less.
-/

namespace Gatehouse.MemoryCache

variable {c : MemoryCache} {eviction : Eviction} {now lifetime : Nat} {key value : String}
  {e : String × CacheEntry}

/-- The store holds an entry, whether it has expired or not. -/
def Holds (c : MemoryCache) (e : String × CacheEntry) : Prop := e ∈ c.entries.entries

theorem not_holds_of_empty (empty : c.entries = .empty) : ¬ c.Holds e := by
  intro held
  unfold Holds at held
  rw [empty] at held
  cases held

theorem holds_of_cleanup (held : (c.cleanup now).Holds e) : c.Holds e :=
  (List.mem_filter.mp held).1

theorem holds_of_makeRoom (held : (c.makeRoom eviction now).Holds e) : c.Holds e := by
  unfold makeRoom at held
  simp only at held
  split at held
  · exact holds_of_cleanup held
  · exact holds_of_cleanup (List.mem_filter.mp held).1

/-- Reading leaves a store as it is, or without the entry that has expired. -/
theorem get_cases (c : MemoryCache) (now : Nat) (key : String) :
    (c.get now key).2 = c ∨ (c.get now key).2 = c.delete key := by
  unfold get
  split
  · exact Or.inl rfl
  · split
    · exact Or.inr rfl
    · exact Or.inl rfl

theorem holds_of_get (held : (c.get now key).2.Holds e) : c.Holds e := by
  rcases get_cases c now key with same | dropped
  · exact same ▸ held
  · rw [dropped] at held
    exact (List.mem_filter.mp held).1

/-- A text that is read is held under the key and has not expired, and the read changes nothing. -/
theorem of_get_eq_some {text : String} (read : (c.get now key).1 = some text) :
    ∃ entry, c.Holds (key, entry) ∧ entry.value = text ∧ entry.isExpired now = false ∧
      (c.get now key).2 = c := by
  unfold get at read ⊢
  split at read
  · cases read
  · rename_i entry found
    split at read
    · cases read
    · rename_i live
      exact ⟨entry, Table.mem_of_lookup found, Option.some.inj read, by simpa using live,
        by rw [if_neg live]⟩

/-- The store that a write adds its entry to. -/
def readied (c : MemoryCache) (eviction : Eviction) (now : Nat) (key : String) : MemoryCache :=
  if !c.entries.contains key && c.room ≤ c.size then c.makeRoom eviction now else c

theorem entries_write : (c.write eviction now key value lifetime).entries =
    (c.readied eviction now key).entries.insert key ⟨value, now, lifetime⟩ := rfl

theorem holds_of_readied (held : (c.readied eviction now key).Holds e) : c.Holds e := by
  unfold readied at held
  split at held
  · exact holds_of_makeRoom held
  · exact held

theorem holds_of_write (held : (c.write eviction now key value lifetime).Holds e) :
    e = (key, ⟨value, now, lifetime⟩) ∨ c.Holds e := by
  unfold Holds at held
  rw [entries_write] at held
  exact (Table.mem_entries_insert held).imp_right holds_of_readied

/-- What is written is held. -/
theorem holds_write (c : MemoryCache) (eviction : Eviction) (now lifetime : Nat)
    (key value : String) :
    (c.write eviction now key value lifetime).Holds (key, ⟨value, now, lifetime⟩) :=
  Table.mem_of_lookup (Table.find?_insert_self ..)

/-- What was written is read while its lifetime lasts. -/
theorem get_write {later : Nat} (live : later ≤ now + lifetime) :
    ((c.write eviction now key value lifetime).get later key).1 = some value := by
  have found : (c.write eviction now key value lifetime).entries.find? key =
      some ⟨value, now, lifetime⟩ := Table.find?_insert_self ..
  have fresh : CacheEntry.isExpired ⟨value, now, lifetime⟩ later = false := by
    simpa [CacheEntry.isExpired] using live
  rw [get, found]
  simp [fresh]

theorem holds_of_delete (held : (c.delete key).Holds e) : c.Holds e ∧ e.1 ≠ key := by
  obtain ⟨before, other⟩ := List.mem_filter.mp held
  exact ⟨before, by simpa using other⟩

/-- Entries under other keys stay. -/
theorem holds_delete (held : c.Holds e) (other : e.1 ≠ key) : (c.delete key).Holds e :=
  List.mem_filter.mpr ⟨held, by simpa using other⟩

end Gatehouse.MemoryCache
