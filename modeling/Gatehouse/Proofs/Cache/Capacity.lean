import Gatehouse.Proofs.Cache.Memory
import Mathlib.Data.List.Induction

/-!
The bounded store as a map with lifetimes.

Over any run of uses the store never holds more than it has room for (`Bounded.after`), and what it holds
under a key is what was last written there and not deleted since (`lastWritten_of_holds`). What a write
drives out is counted exactly (`length_lost`): live entries have to go only for a new key, and only from a
store that is full of live entries. Which ones go is left to the eviction throughout. The main statement,
`bounded_faithful`, puts these together.
-/

namespace Gatehouse.MemoryCache

/-! ### Runs -/

/-- A use of a store. -/
inductive Use where
  /-- A text is written; if there is no room, the eviction chooses who has to go. -/
  | write (eviction : Eviction) (key value : String) (lifetime : Nat)
  | get (key : String)
  | delete (key : String)
  | cleanup

/-- The store after a use at a time. -/
def Use.after (now : Nat) : Use → MemoryCache → MemoryCache
  | .write eviction key value lifetime, c => c.write eviction now key value lifetime
  | .get key, c => (c.get now key).2
  | .delete key, c => c.delete key
  | .cleanup, c => c.cleanup now

/-- A use settles what is under a key: it writes or deletes there. -/
def Use.Settles (key : String) : Use → Prop
  | .write _ key' .. | .delete key' => key' = key
  | .get _ | .cleanup => False

/-- A new store after uses at times of their own. -/
def ofUses (capacity : Nat) (uses : List (Nat × Use)) : MemoryCache :=
  uses.foldl (fun c use => use.2.after use.1 c) (empty capacity)

variable {c c' : MemoryCache} {eviction : Eviction} {now lifetime capacity : Nat}
  {key value : String} {e : String × CacheEntry} {use : Use} {uses : List (Nat × Use)}

theorem ofUses_concat (use : Nat × Use) :
    ofUses capacity (uses ++ [use]) = use.2.after use.1 (ofUses capacity uses) := by
  unfold ofUses
  rw [List.foldl_append]
  rfl

/-! ### Room -/

theorem room_makeRoom : (c.makeRoom eviction now).room = c.room := by
  unfold makeRoom
  simp only
  split <;> rfl

theorem ascending_makeRoom (ascending : c.entries.Ascending) :
    (c.makeRoom eviction now).entries.Ascending := by
  have cleaned : (c.cleanup now).entries.Ascending := ascending.filter _
  unfold makeRoom
  simp only
  split
  · exact cleaned
  · exact cleaned.filter _

/-- Where there is room once the expired entries are gone, no other entry has to go. -/
theorem makeRoom_of_lt (free : (c.cleanup now).size < c.room) :
    c.makeRoom eviction now = c.cleanup now := by
  unfold makeRoom
  exact if_pos free

/-- Otherwise all entries stay but the first ones in the order of the eviction, one for ten of room. -/
theorem entries_makeRoom_perm (ascending : c.entries.Ascending)
    (full : c.room ≤ (c.cleanup now).size) :
    (c.makeRoom eviction now).entries.entries.Perm
      ((eviction.order (c.cleanup now).entries.entries).drop (max 1 (c.room / 10))) := by
  have picked := eviction.perm (c.cleanup now).entries.entries
  have once : ((eviction.order (c.cleanup now).entries.entries).map Prod.fst).Nodup :=
    (picked.map Prod.fst).nodup_iff.mpr (Table.Ascending.filter ascending _).nodup_keys
  rw [← Table.filter_keys_take once]
  unfold makeRoom
  simp only
  split
  · rename_i free
    exact absurd free (Nat.not_lt.mpr full)
  · exact (picked.filter _).symm

theorem size_makeRoom (ascending : c.entries.Ascending) (full : c.room ≤ (c.cleanup now).size) :
    (c.makeRoom eviction now).size = (c.cleanup now).size - max 1 (c.room / 10) := by
  have kept : (c.makeRoom eviction now).size = _ := (entries_makeRoom_perm ascending full).length_eq
  rw [kept, List.length_drop, (eviction.perm _).length_eq]
  rfl

theorem room_readied : (c.readied eviction now key).room = c.room := by
  unfold readied
  split
  · exact room_makeRoom
  · rfl

theorem room_after : (use.after now c).room = c.room := by
  cases use with
  | write eviction key value lifetime => exact room_readied
  | get key =>
      have same : (c.get now key).2.room = c.room := by
        rcases get_cases c now key with same | dropped
        · rw [same]
        · rw [dropped]
          rfl
      exact same
  | delete key => rfl
  | cleanup => rfl

theorem readied_of_contains (known : c.entries.contains key = true) :
    c.readied eviction now key = c := by
  simp [readied, known]

theorem ascending_readied (ascending : c.entries.Ascending) :
    (c.readied eviction now key).entries.Ascending := by
  unfold readied
  split
  · exact ascending_makeRoom ascending
  · exact ascending

/-- Keys ascend, and there are no more entries than there is room for. -/
structure Bounded (c : MemoryCache) : Prop where
  ascending : c.entries.Ascending
  small : c.size ≤ c.room

theorem bounded_empty (capacity : Nat) : (empty capacity).Bounded :=
  ⟨Table.ascending_empty, Nat.zero_le _⟩

namespace Bounded

variable (bounded : c.Bounded)

include bounded

theorem holds_iff : c.Holds e ↔ c.entries.find? e.1 = some e.2 :=
  Table.mem_entries_iff bounded.ascending.nodup_keys

theorem cleanup (now : Nat) : (c.cleanup now).Bounded :=
  ⟨bounded.ascending.filter _, Nat.le_trans (List.length_filter_le ..) bounded.small⟩

theorem delete (key : String) : (c.delete key).Bounded :=
  ⟨bounded.ascending.erase key, Nat.le_trans (List.length_filter_le ..) bounded.small⟩

theorem get (now : Nat) (key : String) : (c.get now key).2.Bounded := by
  rcases get_cases c now key with same | dropped
  · rw [same]
    exact bounded
  · rw [dropped]
    exact bounded.delete key

/-- A new key finds room. -/
theorem size_readied_lt (fresh : c.entries.contains key = false) :
    (c.readied eviction now key).size < c.room := by
  have small := bounded.small
  have some_room : 1 ≤ c.room := Nat.le_max_left ..
  unfold readied
  split
  · by_cases free : (c.cleanup now).size < c.room
    · rw [makeRoom_of_lt free]
      exact free
    · have fewer : (c.cleanup now).size ≤ c.room := (bounded.cleanup now).small
      rw [size_makeRoom bounded.ascending (by omega)]
      omega
  · rename_i room
    simpa [fresh] using room

theorem write (eviction : Eviction) (now : Nat) (key value : String) (lifetime : Nat) :
    (c.write eviction now key value lifetime).Bounded := by
  have ascending : (c.readied eviction now key).entries.Ascending :=
    ascending_readied bounded.ascending
  refine ⟨ascending.insert .., ?_⟩
  have room : (c.write eviction now key value lifetime).room = c.room := room_readied
  rw [room]
  unfold size
  rw [entries_write]
  cases known : c.entries.contains key with
  | true =>
      rw [readied_of_contains known, Table.size_insert_of_found bounded.ascending known]
      exact bounded.small
  | false =>
      have fresh : (c.readied eviction now key).entries.find? key = none := by
        refine Option.eq_none_iff_forall_ne_some.mpr fun entry found => ?_
        have before := bounded.holds_iff.mp (holds_of_readied (Table.mem_of_lookup found))
        rw [Table.contains, before] at known
        cases known
      rw [Table.size_insert_of_fresh fresh]
      exact bounded.size_readied_lt known

/-- Every use keeps a store within its room. -/
theorem after (now : Nat) (use : Use) : (use.after now c).Bounded := by
  cases use with
  | write eviction key value lifetime => exact bounded.write eviction now key value lifetime
  | get key => exact bounded.get now key
  | delete key => exact bounded.delete key
  | cleanup => exact bounded.cleanup now

end Bounded

theorem bounded_ofUses (capacity : Nat) (uses : List (Nat × Use)) :
    (ofUses capacity uses).Bounded := by
  induction uses using List.reverseRecOn with
  | nil => exact bounded_empty capacity
  | append_singleton past use ih =>
      rw [ofUses_concat]
      exact ih.after use.1 use.2

theorem room_ofUses (capacity : Nat) (uses : List (Nat × Use)) :
    (ofUses capacity uses).room = max 1 capacity := by
  induction uses using List.reverseRecOn with
  | nil => rfl
  | append_singleton past use ih =>
      rw [ofUses_concat, room_after, ih]

/-! ### What is read -/

/-- In a run an entry was written, and its key has not been written or deleted since. -/
def LastWritten (uses : List (Nat × Use)) (e : String × CacheEntry) : Prop :=
  ∃ before eviction after,
    uses = before ++ (e.2.writtenAt, .write eviction e.1 e.2.value e.2.lifetime) :: after ∧
      ∀ use ∈ after, ¬ use.2.Settles e.1

theorem LastWritten.concat (last : LastWritten uses e) {use : Nat × Use}
    (other : ¬ use.2.Settles e.1) : LastWritten (uses ++ [use]) e := by
  obtain ⟨before, eviction, after, rfl, unsettled⟩ := last
  refine ⟨before, eviction, after ++ [use], by simp, fun use' mem => ?_⟩
  rcases List.mem_append.mp mem with mem | mem
  · exact unsettled use' mem
  · exact List.mem_singleton.mp mem ▸ other

/-- What is held after a write is the new entry, or was held before under another key. -/
theorem Bounded.holds_of_write (bounded : c.Bounded)
    (held : (c.write eviction now key value lifetime).Holds e) :
    e = (key, ⟨value, now, lifetime⟩) ∨ c.Holds e ∧ e.1 ≠ key := by
  by_cases same : e.1 = key
  · refine Or.inl ?_
    have found := (bounded.write eviction now key value lifetime).holds_iff.mp held
    rw [entries_write, same, Table.find?_insert_self] at found
    exact Prod.ext same (Option.some.inj found).symm
  · refine Or.inr ⟨?_, same⟩
    rcases MemoryCache.holds_of_write held with rfl | before
    · exact absurd rfl same
    · exact before

/-- What a store holds was written in its run, and nothing was written or deleted there since. -/
theorem lastWritten_of_holds (held : (ofUses capacity uses).Holds e) : LastWritten uses e := by
  induction uses using List.reverseRecOn generalizing e with
  | nil => exact absurd held (not_holds_of_empty rfl)
  | append_singleton past use ih =>
      obtain ⟨now, use⟩ := use
      rw [ofUses_concat] at held
      cases use with
      | write eviction key value lifetime =>
          rcases (bounded_ofUses capacity past).holds_of_write held with rfl | ⟨before, other⟩
          · exact ⟨past, eviction, [], rfl, nofun⟩
          · exact (ih before).concat (Ne.symm other)
      | get key => exact (ih (holds_of_get held)).concat nofun
      | delete key =>
          obtain ⟨before, other⟩ := holds_of_delete held
          exact (ih before).concat (Ne.symm other)
      | cleanup => exact (ih (holds_of_cleanup held)).concat nofun

/-! ### What a write drives out -/

instance (c : MemoryCache) (e : String × CacheEntry) : Decidable (c.Holds e) := by
  unfold Holds; infer_instance

/-- There is no room left, and no entry has expired. -/
def FullOfLive (c : MemoryCache) (now : Nat) : Prop :=
  c.size = c.room ∧ ∀ e ∈ c.entries.entries, e.2.isExpired now = false

instance (c : MemoryCache) (now : Nat) : Decidable (c.FullOfLive now) := by
  unfold FullOfLive; infer_instance

/-- The live entries under other keys that are no longer held. -/
def lost (c c' : MemoryCache) (now : Nat) (key : String) : List (String × CacheEntry) :=
  c.entries.entries.filter fun e => e.1 ≠ key ∧ e.2.isExpired now = false ∧ ¬ c'.Holds e

/-- The entries of a store that a smaller one holds too are those of the smaller one. -/
theorem filter_holds_perm (ascending : c.entries.Ascending) (ascending' : c'.entries.Ascending)
    (within : ∀ e, c'.Holds e → c.Holds e) :
    (c.entries.entries.filter fun e => c'.Holds e).Perm c'.entries.entries := by
  refine (List.perm_ext_iff_of_nodup (ascending.nodup_entries.filter _)
    ascending'.nodup_entries).mpr fun e => ?_
  rw [List.mem_filter, decide_eq_true_iff]
  exact ⟨fun both => both.2, fun held => ⟨within e held, held⟩⟩

namespace Bounded

variable (bounded : c.Bounded)

include bounded

/-- What a write leaves under other keys was left when room was made for it. -/
theorem holds_write_iff_readied (other : e.1 ≠ key) :
    (c.write eviction now key value lifetime).Holds e ↔ (c.readied eviction now key).Holds e :=
  Table.mem_entries_insert_of_ne (ascending_readied bounded.ascending) other

/-- A write to a known key leaves the other entries as they are. -/
theorem holds_write_iff (known : c.entries.contains key = true) (other : e.1 ≠ key) :
    (c.write eviction now key value lifetime).Holds e ↔ c.Holds e := by
  rw [bounded.holds_write_iff_readied other, readied_of_contains known]

/-- A store with room, or with an expired entry, need not drive out a live one. -/
theorem holds_readied_of_live (held : c.Holds e) (live : e.2.isExpired now = false)
    (spare : ¬ c.FullOfLive now) : (c.readied eviction now key).Holds e := by
  unfold readied
  split
  · rename_i crowded
    have small := bounded.small
    have full : c.size = c.room := by
      have least : c.room ≤ c.size := by
        simp only [Bool.and_eq_true, decide_eq_true_eq] at crowded
        exact crowded.2
      omega
    obtain ⟨expired, mem, gone⟩ : ∃ e ∈ c.entries.entries, ¬ e.2.isExpired now = false := by
      by_contra allLive
      exact spare ⟨full, fun e mem => by_contra fun gone => allLive ⟨e, mem, gone⟩⟩
    have fewer : (c.cleanup now).size < c.size := by
      refine List.length_filter_lt_length_iff_exists.mpr ⟨expired, mem, ?_⟩
      simpa using gone
    rw [makeRoom_of_lt (by omega)]
    exact List.mem_filter.mpr ⟨held, by simpa using live⟩
  · exact held

/-- From a store full of live entries a new key drives out one for ten of room. -/
theorem size_readied_of_full (fresh : c.entries.contains key = false) (full : c.FullOfLive now) :
    (c.readied eviction now key).size = c.size - max 1 (c.room / 10) := by
  obtain ⟨full, live⟩ := full
  have cleaned : (c.cleanup now).size = c.size :=
    congrArg List.length (List.filter_eq_self.mpr fun e mem => by simp [live e mem])
  have crowded : c.readied eviction now key = c.makeRoom eviction now := by
    simp [readied, fresh, full]
  rw [crowded, size_makeRoom bounded.ascending (by omega), cleaned]

/-- What is lost then is all that does not stay: no entry is of the new key, and none had expired. -/
theorem lost_of_full (fresh : c.entries.contains key = false) (full : c.FullOfLive now) :
    c.lost (c.write eviction now key value lifetime) now key =
      c.entries.entries.filter fun e => !decide ((c.readied eviction now key).Holds e) := by
  refine List.filter_congr fun e mem => ?_
  have other : e.1 ≠ key := by
    rintro rfl
    rw [Table.contains, bounded.holds_iff.mp mem] at fresh
    cases fresh
  simp [other, full.2 e mem, bounded.holds_write_iff_readied other]

/-- A write drives out live entries under other keys only for a new key and from a store that is full of
live entries, and then it is one for ten of room. -/
theorem length_lost (eviction : Eviction) (now : Nat) (key value : String) (lifetime : Nat) :
    (c.lost (c.write eviction now key value lifetime) now key).length =
      if c.entries.contains key = false ∧ c.FullOfLive now then max 1 (c.room / 10) else 0 := by
  split
  · rename_i driving
    obtain ⟨fresh, full⟩ := driving
    have stay : (c.readied eviction now key).size = c.size - max 1 (c.room / 10) :=
      bounded.size_readied_of_full fresh full
    have parts : c.size = (c.readied eviction now key).size +
        (c.lost (c.write eviction now key value lifetime) now key).length := by
      have ascending : (c.readied eviction now key).entries.Ascending :=
        ascending_readied bounded.ascending
      have kept := filter_holds_perm bounded.ascending ascending fun e => holds_of_readied
      rw [bounded.lost_of_full fresh full]
      exact (List.length_eq_length_filter_add _).trans (congrArg (· + _) kept.length_eq)
    have some_room : 1 ≤ c.room := Nat.le_max_left ..
    have same : c.size = c.room := full.1
    omega
  · rename_i spare
    refine List.length_eq_zero_iff.mpr (List.filter_eq_nil_iff.mpr fun e mem => ?_)
    simp only [decide_eq_true_eq, not_and, not_not]
    intro other live
    cases known : c.entries.contains key with
    | true => exact (bounded.holds_write_iff known other).mpr mem
    | false =>
        refine (bounded.holds_write_iff_readied other).mpr ?_
        exact bounded.holds_readied_of_live mem live fun full => spare ⟨known, full⟩

end Bounded

/-! ### The store as a map -/

/-- After any uses at any times, with any evictions, a store holds no more entries than it has room for,
and a text that is read is the one last written under its key, not deleted since and no older than its
lifetime. A text just written is held, and is read while its lifetime lasts. Writing under a key that is
there leaves the other entries alone; writing under a new one drives out live entries only where all there
is room for are live, and then one for ten of room. -/
theorem bounded_faithful (capacity : Nat) (uses : List (Nat × Use)) :
    (ofUses capacity uses).size ≤ max 1 capacity ∧
    (∀ now key value, ((ofUses capacity uses).get now key).1 = some value →
      ∃ before eviction writtenAt lifetime after,
        uses = before ++ (writtenAt, .write eviction key value lifetime) :: after ∧
        (∀ use ∈ after, ¬ use.2.Settles key) ∧ now ≤ writtenAt + lifetime) ∧
    ∀ eviction now key value lifetime,
      let c := ofUses capacity uses
      let c' := c.write eviction now key value lifetime
      c'.Holds (key, ⟨value, now, lifetime⟩) ∧
      (∀ later ≤ now + lifetime, (c'.get later key).1 = some value) ∧
      (c.entries.contains key = true → ∀ e, e.1 ≠ key → (c'.Holds e ↔ c.Holds e)) ∧
      (c.lost c' now key).length =
        if c.entries.contains key = false ∧ c.FullOfLive now then max 1 (max 1 capacity / 10)
        else 0 := by
  have bounded := bounded_ofUses capacity uses
  have room := room_ofUses capacity uses
  refine ⟨room ▸ bounded.small, fun now key value read => ?_,
    fun eviction now key value lifetime => ⟨holds_write .., fun later live => get_write live,
      fun known e other => bounded.holds_write_iff known other, ?_⟩⟩
  · obtain ⟨entry, held, rfl, live, -⟩ := of_get_eq_some read
    obtain ⟨before, eviction, after, run, unsettled⟩ := lastWritten_of_holds held
    refine ⟨before, eviction, entry.writtenAt, entry.lifetime, after, run, unsettled, ?_⟩
    simpa [CacheEntry.isExpired] using live
  · rw [← room]
    exact bounded.length_lost eviction now key value lifetime

/-- Two texts in a store with room for two. -/
def twoWrites : List (Nat × Use) :=
  [(0, .write .byKey "a" "1" 10), (1, .write .byKey "b" "2" 10)]

/-- A third text drives one of them out while both are live, and none once one has expired. -/
theorem twoWrites_bounded_faithful :
    ((ofUses 2 twoWrites).get 5 "a").1 = some "1" ∧
    (∃ before eviction writtenAt lifetime after,
      twoWrites = before ++ (writtenAt, .write eviction "a" "1" lifetime) :: after ∧
      (∀ use ∈ after, ¬ use.2.Settles "a") ∧ 5 ≤ writtenAt + lifetime) ∧
    ((ofUses 2 twoWrites).lost ((ofUses 2 twoWrites).write .byKey 5 "c" "3" 10) 5 "c").length = 1 ∧
    ((ofUses 2 twoWrites).lost ((ofUses 2 twoWrites).write .byKey 11 "c" "3" 10) 11 "c").length = 0 := by
  have read : ((ofUses 2 twoWrites).get 5 "a").1 = some "1" := by decide
  obtain ⟨-, last, written⟩ := bounded_faithful 2 twoWrites
  refine ⟨read, last 5 "a" "1" read, ?_, ?_⟩
  · exact (written .byKey 5 "c" "3" 10).2.2.2.trans (if_pos (by decide))
  · exact (written .byKey 11 "c" "3" 10).2.2.2.trans (if_neg (by decide))

end Gatehouse.MemoryCache
