import Gatehouse.Proofs.Role.Index
import Gatehouse.Proofs.Site.Publish

/-!
Which deletions an event makes the cache ask for.

`Drops` says what happens to a cache when the entries of some users are dropped: the backend is asked for one
deletion for each of them, in their order, and for nothing else, their entries are gone unless their deletion
fails, and what is held under other keys stays. One user is dropped in this way (`invalidate_drops`), hence any
list of users (`invalidateAll_drops`), hence the users an event is about (`Listener.invalidator_drops`). Of the
two topics the cache listens to, an event is under one (`Site.due_of_onlyCacheListens`), so that a published event
has this effect once (`Site.publish_drops`).
-/

namespace Gatehouse

/-! ### What dropping entries does to a cache -/

namespace PermissionCache

variable {c c' c'' : PermissionCache} {m : Moment} {user : UserId} {users users' : List UserId}

/-- The entries of users were dropped: a deletion was asked for each of them, and counted, whether it failed or
not, nothing is held under their keys but where the deletion failed, and what is held under the key of nobody
among them is as it was. -/
structure Drops (m : Moment) (users : List UserId) (c c' : PermissionCache) : Prop where
  settings : c'.settings = c.settings
  calls : c'.calls.reverse = c.calls.reverse ++ users.map fun user => .delete (c.key user)
  invalidations : c'.stats.invalidations = c.stats.invalidations + users.length
  gone : ∀ user ∈ users, c'.memory.entries.find? (c.key user) =
    if m.outage.cache (.delete (c.key user)) then c.memory.entries.find? (c.key user) else none
  others : ∀ key, (∀ user ∈ users, key ≠ c.key user) →
    c'.memory.entries.find? key = c.memory.entries.find? key

namespace Drops

theorem nil (m : Moment) (c : PermissionCache) : Drops m [] c c :=
  ⟨rfl, (List.append_nil _).symm, rfl, nofun, fun _ _ => rfl⟩

theorem key (drops : Drops m users c c') (user : UserId) : c'.key user = c.key user := by
  unfold PermissionCache.key
  rw [drops.settings]

/-- Dropping the entries of some users and then those of others is dropping them all. -/
theorem append (first : Drops m users c c') (second : Drops m users' c' c'') :
    Drops m (users ++ users') c c'' where
  settings := second.settings.trans first.settings
  calls := by
    rw [second.calls, first.calls]
    simp only [first.key, List.map_append, List.append_assoc]
  invalidations := by
    rw [second.invalidations, first.invalidations, List.length_append, Nat.add_assoc]
  gone := by
    intro user mem
    by_cases again : user ∈ users'
    · have goneSecond := second.gone user again
      rw [first.key] at goneSecond
      rw [goneSecond]
      split
      · rename_i fails
        by_cases before : user ∈ users
        · rw [first.gone user before, if_pos fails]
        · exact first.others _ fun user' mem' same => before (key_injective same ▸ mem')
      · rfl
    · have before := (List.mem_append.mp mem).resolve_right again
      rw [← first.gone user before]
      refine second.others _ fun user' mem' same => ?_
      rw [first.key] at same
      exact again (key_injective same ▸ mem')
  others := by
    intro key foreign
    have foreignFirst : ∀ user ∈ users, key ≠ c.key user :=
      fun user mem => foreign user (List.mem_append_left _ mem)
    have foreignSecond : ∀ user ∈ users', key ≠ c'.key user := by
      intro user mem
      rw [first.key]
      exact foreign user (List.mem_append_right _ mem)
    exact (second.others key foreignSecond).trans (first.others key foreignFirst)

end Drops

/-- A deletion that is asked for removes what is held under its key, unless it fails, and leaves alone what
is held under other keys. -/
theorem exists_drop_eq (c : PermissionCache) (m : Moment) (key : String) : ∃ memory,
    (c.drop m key).2 = { c.note (.delete key) with memory } ∧
      ∀ other, memory.entries.find? other =
        if other = key ∧ m.outage.cache (.delete key) = false then none
        else c.memory.entries.find? other := by
  unfold drop
  simp only
  split
  · rename_i fails
    exact ⟨c.memory, rfl, fun other => by simp [fails]⟩
  · rename_i answers
    refine ⟨c.memory.delete key, rfl, fun other => ?_⟩
    rw [Bool.not_eq_true] at answers
    simp only [answers, and_true]
    exact Table.find?_erase c.memory.entries key other

theorem invalidate_drops : Drops m [user] c (c.invalidate m user) := by
  obtain ⟨memory, dropped, held⟩ := exists_drop_eq (c.count .invalidation) m (c.key user)
  have gone : ∀ user' ∈ [user], memory.entries.find? (c.key user') =
      if m.outage.cache (.delete (c.key user')) then c.memory.entries.find? (c.key user') else none := by
    intro user' mem
    obtain rfl := List.mem_singleton.mp mem
    rw [held]
    cases m.outage.cache (.delete (c.key user')) <;> simp [count]
  have foreign : ∀ key, (∀ user' ∈ [user], key ≠ c.key user') →
      memory.entries.find? key = c.memory.entries.find? key := by
    intro key foreign
    rw [held, if_neg fun own => foreign user (List.mem_singleton_self _) own.1]
    rfl
  unfold invalidate
  split <;> rename_i done <;> rw [done] at dropped <;> cases dropped
  · exact ⟨rfl, List.reverse_cons, rfl, gone, foreign⟩
  · exact ⟨rfl, List.reverse_cons, rfl, gone, foreign⟩

theorem invalidateAll_drops : Drops m users c (invalidateAll m users c) := by
  induction users generalizing c with
  | nil => exact .nil m c
  | cons user users ih => exact invalidate_drops.append ih

/-- While the role store tells who has a role, the entries of its holders are dropped. -/
theorem invalidateHolders_drops {roles : RoleStore} {role : RoleId}
    (answers : m.outage.stores .userIdsWithRole = false) :
    Drops m (roles.holders role) c (c.invalidateHolders m roles role).2 := by
  unfold invalidateHolders
  rw [Outage.reach_eq_ok.mpr ⟨answers, rfl⟩]
  exact invalidateAll_drops

end PermissionCache

/-! ### Who an event is about -/

variable {m : Moment} {roles : RoleStore} {e : Event} {s : Site}

/-- An event is about a user: the changed role is assigned to the user, or it names the user. -/
def Event.Concerns (roles : RoleStore) (user : UserId) : Event → Prop
  | .rolePermissionsChanged role => role ∈ roles.assigned user
  | .userRoleAssigned user' | .userDeleted user' => user = user'

/-- The role store tells whom an event is about, if it has to be asked. -/
def Event.Answered (o : Outage) : Event → Prop
  | .rolePermissionsChanged _ => o.stores .userIdsWithRole = false
  | .userRoleAssigned _ | .userDeleted _ => True

/-- The users an event is about are listed in order, each once. -/
theorem Event.audience_spec (lawful : roles.Lawful) (e : Event) :
    (∀ user, user ∈ e.audience roles ↔ e.Concerns roles user) ∧
      (e.audience roles).Pairwise (· < ·) := by
  cases e with
  | rolePermissionsChanged role =>
      exact ⟨fun user => lawful.mem_holders_iff, lawful.ascending_holders role⟩
  | userRoleAssigned user' =>
      exact ⟨fun user => List.mem_singleton, List.pairwise_singleton _ _⟩
  | userDeleted user' =>
      exact ⟨fun user => List.mem_singleton, List.pairwise_singleton _ _⟩

/-! ### One event -/

/-- The cache drops the entries of the users an event is about, and nothing is written down. -/
theorem Listener.invalidator_drops (roles : RoleStore) (answered : e.Answered m.outage)
    (state : PermissionCache × List Delivery) :
    ∃ cache, (invalidator.handle m roles e state).2 = (cache, state.2) ∧
      PermissionCache.Drops m (e.audience roles) state.1 cache := by
  obtain ⟨cache, deliveries⟩ := state
  cases e with
  | rolePermissionsChanged role =>
      have drops : PermissionCache.Drops m (roles.holders role) cache
          (cache.invalidateHolders m roles role).2 := PermissionCache.invalidateHolders_drops answered
      simp only [handle]
      split <;> rename_i done <;> rw [done] at drops <;> exact ⟨_, rfl, drops⟩
  | userRoleAssigned user => exact ⟨_, rfl, PermissionCache.invalidate_drops⟩
  | userDeleted user => exact ⟨_, rfl, PermissionCache.invalidate_drops⟩

/-- Every event is under one of the topics the cache listens to. -/
theorem Listener.filter_cacheTopics (e : Event) :
    ∃ topic, cacheTopics.filter (fun topic => Topic.covers topic e.topic) = [topic] := by
  have ofRole : cacheTopics.filter (fun topic => Topic.covers topic "role.permissions_changed") =
      ["role.*"] := by decide
  have ofAssignment : cacheTopics.filter (fun topic => Topic.covers topic "user.role_assigned") =
      ["user.*"] := by decide
  have ofRemoval : cacheTopics.filter (fun topic => Topic.covers topic "user.deleted") =
      ["user.*"] := by decide
  cases e with
  | rolePermissionsChanged role => exact ⟨_, ofRole⟩
  | userRoleAssigned user => exact ⟨_, ofAssignment⟩
  | userDeleted user => exact ⟨_, ofRemoval⟩

namespace Site

/-- The cache listens to its topics, and nobody else listens. -/
def OnlyCacheListens (s : Site) : Prop :=
  s.listeners = Listener.cacheTopics.map fun topic => (topic, .invalidator)

/-- Though the cache listens twice, it hears of an event once. -/
theorem due_of_onlyCacheListens (wired : s.OnlyCacheListens) (e : Event) : ∃ topic,
    Subscription.due (s.subscriptions m) e = [⟨topic, Listener.invalidator.handle m s.roles⟩] := by
  obtain ⟨topic, heard⟩ := Listener.filter_cacheTopics e
  refine ⟨topic, ?_⟩
  unfold Subscription.due subscriptions
  rw [wired, List.map_map, List.filter_map]
  exact congrArg (List.map _) heard

/-- A published event drops the entries of the users it is about, once, and does nothing else. -/
theorem publish_drops (wired : s.OnlyCacheListens) (answered : e.Answered m.outage) :
    ∃ cache, s.publish m e = (1, { s with cache }) ∧
      PermissionCache.Drops m (e.audience s.roles) s.cache cache := by
  obtain ⟨topic, due⟩ := due_of_onlyCacheListens (m := m) wired e
  obtain ⟨cache, handled, drops⟩ :=
    Listener.invalidator_drops s.roles answered (s.cache, s.deliveries)
  refine ⟨cache, ?_, drops⟩
  unfold publish Subscription.publish
  simp only [due, Subscription.runAll, handled, List.length_singleton]

/-- **Events drop the entries of exactly those they are about.** While the role store answers, a published event
makes the cache ask its backend for one deletion for each user that the event is about, in ascending order, and
for nothing else; the deletions are counted, whether they fail or not. A user whom the event is about has no entry
afterwards, or the old one if its deletion failed. One listener hears of the event although there are two.
Whatever is held under the key of anybody else stays as it was, users having different keys under every prefix,
and so does the rest of the service. -/
theorem publish_drops_concerned (lawful : s.roles.Lawful) (wired : s.OnlyCacheListens)
    (answered : e.Answered m.outage) :
    let users := e.audience s.roles
    let after := (s.publish m e).2
    ((∀ user, user ∈ users ↔ e.Concerns s.roles user) ∧ users.Pairwise (· < ·)) ∧
      after.cache.calls.reverse =
        s.cache.calls.reverse ++ users.map (fun user => .delete (s.cache.key user)) ∧
      after.cache.stats.invalidations = s.cache.stats.invalidations + users.length ∧
      (∀ user, e.Concerns s.roles user → after.cache.memory.entries.find? (s.cache.key user) =
        if m.outage.cache (.delete (s.cache.key user)) then s.cache.memory.entries.find? (s.cache.key user)
        else none) ∧
      (s.listeners.length = 2 ∧ (s.publish m e).1 = 1) ∧
      (∀ user, ¬ e.Concerns s.roles user →
        after.cache.memory.entries.find? (s.cache.key user) =
          s.cache.memory.entries.find? (s.cache.key user)) ∧
      (∀ user user', s.cache.key user = s.cache.key user' → user = user') ∧
      after = { s with cache := after.cache } := by
  obtain ⟨cache, published, drops⟩ := publish_drops wired answered
  obtain ⟨concerned, ascending⟩ := Event.audience_spec lawful e
  simp only [published]
  refine ⟨⟨concerned, ascending⟩, drops.calls, drops.invalidations,
    fun user concerns => drops.gone user ((concerned user).mpr concerns), ⟨?_, trivial⟩, ?_, ?_, trivial⟩
  · rw [wired]
    rfl
  · intro user unconcerned
    refine drops.others _ ?_
    intro user' mem same
    obtain rfl := PermissionCache.key_injective same
    exact unconcerned ((concerned user).mp mem)
  · intro user user' same
    exact PermissionCache.key_injective same

/-! ### A role with two holders -/

/-- An entry of the cache. -/
def someEntry : CacheEntry := ⟨"", 0, 300⟩

/-- A service in which users 5 and 15 edit. The prefix of its keys ends in a digit: `tenant115` is the key of
user 15 and not that of user 115. -/
def withEditors : Site where
  __ := start { Config.default with cache := ⟨300, "tenant1", 100⟩ } .log 0
  roles := RoleStore.empty.writeAll
    [.put ⟨3, "editor", "Editor", false, [.everywhere "org:doc:*"]⟩, .assign 15 3, .assign 5 3]
  cache := { PermissionCache.empty ⟨300, "tenant1", 100⟩ with
    memory := ⟨100, .ofList
      [("tenant15", someEntry), ("tenant115", someEntry), ("tenant1115", someEntry)]⟩ }

/-- The cache backend refuses to delete the entry of user 5. -/
def refusing : Moment :=
  { (default : Moment) with outage := ⟨fun _ => false, fun call => call = .delete "tenant15"⟩ }

theorem editors_dropped :
    withEditors.roles.Lawful ∧ withEditors.OnlyCacheListens ∧
      Event.Answered refusing.outage (.rolePermissionsChanged 3) ∧
      let after := (withEditors.publish refusing (.rolePermissionsChanged 3)).2
      after.cache.calls.reverse = [.delete "tenant15", .delete "tenant115"] ∧
        after.cache.stats.invalidations = 2 ∧
        after.cache.memory.entries.find? "tenant15" = some someEntry ∧
        after.cache.memory.entries.find? "tenant115" = none ∧
        after.cache.memory.entries.find? "tenant1115" = some someEntry := by
  have lawful : withEditors.roles.Lawful := (RoleStore.linked_empty.writeAll _).toLawful
  have wired : withEditors.OnlyCacheListens := rfl
  have answered : Event.Answered refusing.outage (.rolePermissionsChanged 3) := rfl
  obtain ⟨_, calls, invalidations, gone, _, others, _⟩ := publish_drops_concerned lawful wired answered
  have editors : Event.Concerns withEditors.roles 5 (.rolePermissionsChanged 3) ∧
      Event.Concerns withEditors.roles 15 (.rolePermissionsChanged 3) ∧
        ¬ Event.Concerns withEditors.roles 115 (.rolePermissionsChanged 3) := by
    unfold Event.Concerns
    decide
  exact ⟨lawful, wired, answered, calls, invalidations, gone 5 editors.1, gone 15 editors.2.1,
    others 115 editors.2.2⟩

end Site

end Gatehouse
