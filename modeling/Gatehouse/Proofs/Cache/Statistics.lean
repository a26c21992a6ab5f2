import Gatehouse.Cache.Permissions
import Mathlib.Algebra.Group.Nat.Defs

/-!
The statistics of a cache account for everything that happened to it.

A run uses the cache in any way, under circumstances of its own each time: any calls to the backend may fail,
and between two uses others may make the backend hold any other texts (`Use.restock`). What the cache asked the
backend for is in its own list of calls; an `Exchange` is a call together with the backend's reply. `Accounts`
says of the exchanges and the reads between two states of a cache that the list of calls and the statistics grew
by just these. One use makes the calls that it is to make (`wanted_accounts`) and accounts for itself
(`perform_accounts`), hence a run does (`play_accounts`), and from a new cache on the statistics are the counts of
what happened (`stats_exact`).
-/

namespace Gatehouse

/-- A call to the backend of a cache and the reply: a failure, or the text that was asked for if there is one.
Calls that ask for none are given none. -/
structure Exchange where
  call : CacheCall
  reply : Except Error (Option String)

namespace Exchange

/-- An entry was to be read. -/
def reads (x : Exchange) : Bool :=
  match x.call with
  | .get _ => true
  | .set .. | .delete _ => false

/-- An entry was to be deleted. -/
def deletes (x : Exchange) : Bool :=
  match x.call with
  | .delete _ => true
  | .get _ | .set .. => false

/-- The backend failed. -/
def failed (x : Exchange) : Bool :=
  match x.reply with
  | .error _ => true
  | .ok _ => false

/-- The backend gave a text that cannot be read. -/
def unreadable (x : Exchange) : Bool :=
  match x.reply with
  | .ok (some text) => (Json.decode? Entitlements.read text).isNone
  | .ok none | .error _ => false

end Exchange

/-- The counts after some exchanges and some reads, each of which gave an entry or none. -/
def CacheStats.after (s : CacheStats) (exchanges : List Exchange)
    (reads : List (Option Entitlements)) : CacheStats where
  hits := s.hits + reads.countP (·.isSome)
  misses := s.misses + reads.countP (·.isNone)
  errors := s.errors + (exchanges.countP (·.failed) + exchanges.countP (·.unreadable))
  invalidations := s.invalidations + exchanges.countP (·.deletes)

theorem CacheStats.after_append (s : CacheStats) (xs xs' : List Exchange)
    (rs rs' : List (Option Entitlements)) :
    s.after (xs ++ xs') (rs ++ rs') = (s.after xs rs).after xs' rs' := by
  simp only [after, List.countP_append, CacheStats.mk.injEq]
  omega

namespace PermissionCache

variable {c c' c'' : PermissionCache} {m : Moment} {roles : RoleStore} {user : UserId} {users : List UserId}
  {entry : Entitlements} {memory : MemoryCache} {calls calls' : List CacheCall} {xs xs' : List Exchange}
  {rs rs' : List (Option Entitlements)}

/-! ### Runs of uses -/

/-- A use of the cache, or of its backend by others. -/
inductive Use where
  | get (user : UserId)
  | put (user : UserId) (entry : Entitlements)
  | load (roles : RoleStore) (user : UserId)
  | invalidate (user : UserId)
  | invalidateHolders (roles : RoleStore) (role : RoleId)
  /-- The backend comes to hold other texts. -/
  | restock (memory : MemoryCache)

/-- The cache after a use. -/
def perform (m : Moment) (c : PermissionCache) : Use → PermissionCache
  | .get user => (c.get m user).2
  | .put user entry => c.put m user entry
  | .load roles user => (c.load m roles user).2
  | .invalidate user => c.invalidate m user
  | .invalidateHolders roles role => (c.invalidateHolders m roles role).2
  | .restock memory => { c with memory }

/-- What the reads of a use gave. Loading begins with one. -/
def reads (m : Moment) (c : PermissionCache) : Use → List (Option Entitlements)
  | .get user | .load _ user => [(c.get m user).1]
  | .put .. | .invalidate _ | .invalidateHolders .. | .restock _ => []

/-- What the backend replies to a call. -/
def reply (m : Moment) (memory : MemoryCache) (call : CacheCall) : Except Error (Option String) :=
  if m.outage.cache call then .error (.cacheDown call)
  else
    match call with
    | .get key => .ok (memory.get m.tick key).1
    | .set .. | .delete _ => .ok none

/-- Calls, each with the reply of a backend that holds some texts. -/
def replied (m : Moment) (memory : MemoryCache) (calls : List CacheCall) : List Exchange :=
  calls.map fun call => ⟨call, reply m memory call⟩

/-- The calls a use makes, in order, each with its reply. No use reads after it has written. -/
def exchanges (m : Moment) (c : PermissionCache) (use : Use) : List Exchange :=
  let calls := (c.perform m use).calls
  replied m c.memory (calls.take (calls.length - c.calls.length)).reverse

/-- The call that writes the entry of a user. -/
def writing (c : PermissionCache) (user : UserId) (entry : Entitlements) : CacheCall :=
  .set (c.key user) entry.toJson.compact c.settings.lifetime.toNat

/-- The calls that a use is to make: one for each read, each write and each deletion. What has been loaded is
written if it was missing, and the entries of the holders of a role are deleted in the order of the holders. -/
def wanted (m : Moment) (c : PermissionCache) : Use → List CacheCall
  | .get user => [.get (c.key user)]
  | .put user entry => [c.writing user entry]
  | .load roles user =>
    .get (c.key user) ::
      if (c.get m user).1.isSome then []
      else ((roles.entitlements m.outage user).toOption.map (c.writing user)).toList
  | .invalidate user => [.delete (c.key user)]
  | .invalidateHolders roles role =>
    if m.outage.stores .userIdsWithRole then []
    else (roles.holders role).map fun user => .delete (c.key user)
  | .restock _ => []

/-- The cache after a run. -/
def play : List (Moment × Use) → PermissionCache → PermissionCache
  | [], c => c
  | (m, use) :: rest, c => play rest (c.perform m use)

/-- All exchanges of a run. -/
def allExchanges : List (Moment × Use) → PermissionCache → List Exchange
  | [], _ => []
  | (m, use) :: rest, c => c.exchanges m use ++ allExchanges rest (c.perform m use)

/-- All calls that the uses of a run are to make. -/
def allWanted : List (Moment × Use) → PermissionCache → List CacheCall
  | [], _ => []
  | (m, use) :: rest, c => c.wanted m use ++ allWanted rest (c.perform m use)

/-- What all reads of a run gave. -/
def allReads : List (Moment × Use) → PermissionCache → List (Option Entitlements)
  | [], _ => []
  | (m, use) :: rest, c => c.reads m use ++ allReads rest (c.perform m use)

/-! ### Accounts -/

/-- The list of calls and the statistics grew by some exchanges and reads. -/
structure Accounts (xs : List Exchange) (rs : List (Option Entitlements)) (c c' : PermissionCache) :
    Prop where
  settings : c'.settings = c.settings
  calls : c'.calls.reverse = c.calls.reverse ++ xs.map Exchange.call
  reads : rs.length = xs.countP (·.reads)
  stats : c'.stats = c.stats.after xs rs

namespace Accounts

theorem nil (c : PermissionCache) : Accounts [] [] c c := ⟨rfl, (List.append_nil _).symm, rfl, rfl⟩

theorem append (first : Accounts xs rs c c') (second : Accounts xs' rs' c' c'') :
    Accounts (xs ++ xs') (rs ++ rs') c c'' where
  settings := second.settings.trans first.settings
  calls := by rw [second.calls, first.calls, List.map_append, List.append_assoc]
  reads := by rw [List.length_append, first.reads, second.reads, List.countP_append]
  stats := by rw [second.stats, first.stats, CacheStats.after_append]

theorem key (accounts : Accounts xs rs c c') (user : UserId) : c'.key user = c.key user := by
  unfold PermissionCache.key
  rw [accounts.settings]

theorem writing (accounts : Accounts xs rs c c') (user : UserId) : c'.writing user = c.writing user := by
  unfold PermissionCache.writing
  rw [accounts.key, accounts.settings]

end Accounts

/-- Some calls account for what became of a cache, and nothing was read. So the replies do not depend on what
the backend holds. -/
def Blind (m : Moment) (calls : List CacheCall) (c c' : PermissionCache) : Prop :=
  ∀ memory, Accounts (replied m memory calls) [] c c'

namespace Blind

theorem refl (c : PermissionCache) : Blind m [] c c := fun _ => .nil c

theorem trans (first : Blind m calls c c') (second : Blind m calls' c' c'') :
    Blind m (calls ++ calls') c c'' := by
  intro memory
  unfold replied
  rw [List.map_append]
  exact (first memory).append (second memory)

end Blind

/-! ### Single operations -/

theorem fetch_fst (key : String) : (c.fetch m key).1 = reply m c.memory (.get key) := by
  unfold fetch reply note
  simp only
  split <;> rfl

theorem fetch_frame (key : String) :
    ∃ memory, (c.fetch m key).2 = { c.note (.get key) with memory } := by
  unfold fetch
  simp only
  split
  · exact ⟨c.memory, rfl⟩
  · exact ⟨_, rfl⟩

/-- A read is one exchange. It misses if the backend fails or has nothing, and if its text cannot be read. -/
theorem get_accounts (user : UserId) :
    Accounts [⟨.get (c.key user), reply m c.memory (.get (c.key user))⟩] [(c.get m user).1] c
      (c.get m user).2 := by
  rw [← fetch_fst]
  obtain ⟨memory, fetched⟩ := fetch_frame (c := c) (m := m) (c.key user)
  unfold get
  -- In turn: nothing is there, the backend fails, it gives a text that can be read, and one that cannot.
  split <;> rename_i result <;> rw [result] at fetched ⊢ <;> cases fetched
  · exact ⟨rfl, List.reverse_cons, rfl, rfl⟩
  · exact ⟨rfl, List.reverse_cons, rfl, rfl⟩
  · split <;> rename_i decoded
    · refine ⟨rfl, List.reverse_cons, rfl, ?_⟩
      simp [CacheStats.after, CacheStats.hit, count, note, decoded, Exchange.failed, Exchange.unreadable,
        Exchange.deletes]
    · refine ⟨rfl, List.reverse_cons, rfl, ?_⟩
      simp [CacheStats.after, CacheStats.miss, CacheStats.fault, count, note, decoded, Exchange.failed,
        Exchange.unreadable, Exchange.deletes]

/-- A write is one exchange. -/
theorem put_blind : Blind m [c.writing user entry] c (c.put m user entry) := by
  intro memory
  unfold put store replied reply writing
  simp only [List.map_cons, List.map_nil]
  split <;> exact ⟨rfl, List.reverse_cons, rfl, rfl⟩

/-- A deletion is one exchange. -/
theorem invalidate_blind : Blind m [.delete (c.key user)] c (c.invalidate m user) := by
  intro memory
  unfold invalidate drop replied reply
  simp only [List.map_cons, List.map_nil]
  split <;> exact ⟨rfl, List.reverse_cons, rfl, rfl⟩

theorem invalidateAll_blind :
    Blind m (users.map fun user => .delete (c.key user)) c (invalidateAll m users c) := by
  induction users generalizing c with
  | nil => exact .refl c
  | cons user users ih =>
      have first : Blind m [.delete (c.key user)] c (c.invalidate m user) := invalidate_blind
      have later := @ih (c.invalidate m user)
      simp only [(first c.memory).key] at later
      exact first.trans later

theorem invalidateHolders_blind (role : RoleId) :
    Blind m (c.wanted m (.invalidateHolders roles role)) c (c.invalidateHolders m roles role).2 := by
  unfold invalidateHolders wanted Outage.reach
  cases m.outage.stores .userIdsWithRole with
  | true => exact .refl c
  | false => exact invalidateAll_blind

/-- After its read, loading is a write if the read gave nothing and the role store answers. -/
theorem load_blind (roles : RoleStore) (user : UserId) :
    Blind m (if (c.get m user).1.isSome then []
      else ((roles.entitlements m.outage user).toOption.map ((c.get m user).2.writing user)).toList)
      (c.get m user).2 (c.load m roles user).2 := by
  unfold load
  rcases c.get m user with ⟨_ | entry, c'⟩
  · cases roles.entitlements m.outage user with
    | error err => exact .refl c'
    | ok entry => exact put_blind
  · exact .refl c'

/-! ### Uses and runs -/

/-- The calls that a use is to make, with the replies of what the backend holds at its beginning, account for
what happens in it. -/
theorem wanted_accounts (m : Moment) (c : PermissionCache) (use : Use) :
    Accounts (replied m c.memory (c.wanted m use)) (c.reads m use) c (c.perform m use) := by
  cases use with
  | get user => exact get_accounts user
  | put user entry => exact put_blind c.memory
  | load roles user =>
      have read := get_accounts (c := c) (m := m) user
      have written := load_blind (m := m) (c := c) roles user c.memory
      rw [read.writing] at written
      exact read.append written
  | invalidate user => exact invalidate_blind c.memory
  | invalidateHolders roles role => exact invalidateHolders_blind role c.memory
  | restock memory => exact ⟨rfl, (List.append_nil _).symm, rfl, rfl⟩

theorem map_call_replied : (replied m memory calls).map Exchange.call = calls := by
  unfold replied
  rw [List.map_map]
  exact List.map_id calls

/-- The exchanges of a use are found again in the list of calls. -/
theorem exchanges_eq {use : Use} (accounts : Accounts (replied m c.memory calls) rs c (c.perform m use)) :
    c.exchanges m use = replied m c.memory calls := by
  have grown : (c.perform m use).calls = calls.reverse ++ c.calls := by
    rw [← List.reverse_inj, accounts.calls, map_call_replied, List.reverse_append, List.reverse_reverse]
  have fresh : calls.reverse.length = (c.perform m use).calls.length - c.calls.length := by
    rw [grown, List.length_append, Nat.add_sub_cancel]
  unfold exchanges
  simp only
  rw [← fresh, grown, List.take_left, List.reverse_reverse]

/-- A use accounts for itself. -/
theorem perform_accounts (m : Moment) (c : PermissionCache) (use : Use) :
    Accounts (c.exchanges m use) (c.reads m use) c (c.perform m use) := by
  have accounts := wanted_accounts m c use
  rwa [exchanges_eq accounts]

/-- A use makes the calls that it is to make, and no other. -/
theorem map_call_exchanges (m : Moment) (c : PermissionCache) (use : Use) :
    (c.exchanges m use).map Exchange.call = c.wanted m use := by
  rw [exchanges_eq (wanted_accounts m c use), map_call_replied]

/-- So does a run. -/
theorem play_accounts (run : List (Moment × Use)) (c : PermissionCache) :
    Accounts (allExchanges run c) (allReads run c) c (play run c) := by
  induction run generalizing c with
  | nil => exact .nil c
  | cons first rest ih =>
      obtain ⟨m, use⟩ := first
      exact (perform_accounts m c use).append (ih (c.perform m use))

theorem map_call_allExchanges (run : List (Moment × Use)) (c : PermissionCache) :
    (allExchanges run c).map Exchange.call = allWanted run c := by
  induction run generalizing c with
  | nil => rfl
  | cons first rest ih =>
      obtain ⟨m, use⟩ := first
      simp only [allExchanges, allWanted, List.map_append, map_call_exchanges, ih]

/-- **The statistics of a cache account for every call.** Let a new cache be used in any way, while any calls to
its backend fail and the backend holds any texts. The exchanges with the backend are the calls of the cache in
their order, and these are the calls that the uses are to make: a read for each that reads, a write for each that
has an entry to write, a deletion for each user whose entry is to go. Those that read are the reads. Hits and
misses add up to the reads, and hits are the reads that gave an entry; invalidations are the deletions that were
asked for; errors are the calls that failed and the texts that could not be read. -/
theorem stats_exact (settings : CacheSettings) (run : List (Moment × Use)) :
    let start := empty settings
    let stats := (play run start).stats
    let exchanges := allExchanges run start
    let reads := allReads run start
    (exchanges.map Exchange.call = (play run start).calls.reverse ∧
      exchanges.map Exchange.call = allWanted run start ∧
      reads.length = exchanges.countP (·.reads)) ∧
    stats.hits + stats.misses = reads.length ∧
    stats.hits = reads.countP (·.isSome) ∧
    stats.invalidations = exchanges.countP (·.deletes) ∧
    stats.errors = exchanges.countP (·.failed) + exchanges.countP (·.unreadable) := by
  intro start stats exchanges reads
  have accounts : Accounts exchanges reads start (play run start) := play_accounts run start
  have counted : stats = CacheStats.zero.after exchanges reads := accounts.stats
  have hits : stats.hits = reads.countP (·.isSome) :=
    (congrArg CacheStats.hits counted).trans (Nat.zero_add _)
  have misses : stats.misses = reads.countP (·.isNone) :=
    (congrArg CacheStats.misses counted).trans (Nat.zero_add _)
  refine ⟨⟨accounts.calls.symm, map_call_allExchanges run start, accounts.reads⟩, ?reads, hits, ?deletions,
    ?errors⟩
  case reads =>
    rw [hits, misses, List.length_eq_countP_add_countP (·.isSome) (l := reads)]
    refine congrArg (_ + ·) (List.countP_congr fun read _ => ?_)
    cases read <;> simp
  case deletions => exact (congrArg CacheStats.invalidations counted).trans (Nat.zero_add _)
  case errors => exact (congrArg CacheStats.errors counted).trans (Nat.zero_add _)

end PermissionCache

end Gatehouse
