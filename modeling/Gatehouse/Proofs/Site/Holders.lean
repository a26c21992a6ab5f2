import Gatehouse.Proofs.Role.Changes
import Gatehouse.Proofs.Site.Coherence

/-!
Whose entries the cache drops when a role changes.

The cache drops the entries of the users that the events of a change are about, and of no others:
`Retains` says of two caches that the later one still holds what the earlier one held for a user, and
publishing an event keeps it so for everyone the event is not about (`Site.publish_retains`). For a role
whose permissions are replaced or that is deleted these users are the ones it is assigned to
(`Site.administer_lacks_iff`). Who has the role without an assignment, as everyone has the role of
everyone, keeps an entry from before the change (`Site.implicit_holder_keeps_entry`).
-/

namespace Gatehouse

/-! ### Caches that keep the entries of a user -/

namespace PermissionCache

variable {c c' : PermissionCache} {m : Moment} {roles : RoleStore} {user user' : UserId}
  {users : List UserId}

/-- A cache holds all that another holds under the key of a user, under the same settings. -/
structure Retains (c' c : PermissionCache) (user : UserId) : Prop where
  settings : c'.settings = c.settings
  holds : ∀ e, c.memory.Holds e → e.1 = c.key user → c'.memory.Holds e

namespace Retains

theorem refl (c : PermissionCache) (user : UserId) : c.Retains c user := ⟨rfl, fun _ held _ => held⟩

theorem key (retains : c'.Retains c user) : c'.key user = c.key user := by
  unfold PermissionCache.key
  rw [retains.settings]

theorem trans {c'' : PermissionCache} (later : c''.Retains c' user) (earlier : c'.Retains c user) :
    c''.Retains c user := by
  refine ⟨later.settings.trans earlier.settings, fun e held own => ?_⟩
  exact later.holds e (earlier.holds e held own) (own.trans earlier.key.symm)

theorem count (retains : c'.Retains c user) (f : CacheStats → CacheStats) :
    (c'.count f).Retains c user :=
  ⟨retains.settings, retains.holds⟩

/-- What is kept was not lacking. -/
theorem lacks (retains : c'.Retains c user) (lacks : c'.Lacks user) : c.Lacks user := by
  intro e held own
  exact lacks e (retains.holds e held own) (own.trans retains.key.symm)

end Retains

theorem drop_retains {key : String} (other : c.key user ≠ key) :
    (c.drop m key).2.Retains c user := by
  unfold drop
  simp only
  split
  · exact ⟨rfl, fun _ held _ => held⟩
  · exact ⟨rfl, fun e held own => MemoryCache.holds_delete held (own ▸ other)⟩

theorem invalidate_retains (other : user ≠ user') : (c.invalidate m user').Retains c user := by
  have counted : (c.count .invalidation).Retains c user := (Retains.refl c user).count _
  have dropped : ((c.count .invalidation).drop m (c.key user')).2.Retains c user :=
    (drop_retains (mt key_injective other)).trans counted
  unfold invalidate
  split <;> rename_i done <;> rw [done] at dropped
  · exact dropped
  · exact dropped.count _

theorem invalidateAll_retains (absent : user ∉ users) :
    (invalidateAll m users c).Retains c user := by
  induction users generalizing c with
  | nil => exact .refl c user
  | cons first users ih =>
      obtain ⟨other, absent⟩ := not_or.mp (mt List.mem_cons.mpr absent)
      exact (ih absent).trans (invalidate_retains other)

theorem invalidateHolders_retains {role : RoleId} (absent : user ∉ roles.holders role) :
    (c.invalidateHolders m roles role).2.Retains c user := by
  unfold invalidateHolders
  split
  · exact .refl c user
  · rename_i holders reached
    obtain ⟨_, rfl⟩ := Outage.reach_eq_ok.mp reached
    exact invalidateAll_retains absent

theorem not_lacks_of_put {entry : Entitlements} (calm : m.outage = .none) :
    ¬ (c.put m user entry).Lacks user := by
  intro lacks
  have key : (c.put m user entry).key user = c.key user := by
    unfold PermissionCache.key
    rw [put_settings]
  have held : (c.put m user entry).memory.Holds
      (c.key user, ⟨entry.toJson.compact, m.tick,
        c.settings.lifetime.toNat * 1000000000⟩) := by
    unfold put store
    rw [calm]
    exact MemoryCache.holds_write ..
  exact lacks _ held key.symm

/-- Whoever is looked up has an entry afterwards. -/
theorem not_lacks_of_load (calm : m.outage = .none) : ¬ (c.load m roles user).2.Lacks user := by
  have key : (c.get m user).2.key user = c.key user := get_within.key user
  unfold load
  split <;> rename_i after got <;> rw [got] at key
  · obtain ⟨held, holds, _, _, same⟩ := of_get_eq_some (congrArg Prod.fst got)
    rw [got] at same
    exact fun lacks => lacks _ (same ▸ holds) key.symm
  · rw [calm, RoleStore.entitlements_none]
    exact not_lacks_of_put calm

end PermissionCache

/-! ### Events that are not about a user -/

variable {m : Moment} {roles : RoleStore} {user : UserId} {e : Event} {s : Site}

/-- A listener drops no entry of a user that the event is not about. -/
theorem Listener.handle_retains {state : PermissionCache × List Delivery} (l : Listener)
    (untold : user ∉ e.audience roles) : (l.handle m roles e state).2.1.Retains state.1 user := by
  obtain ⟨cache, deliveries⟩ := state
  cases l with
  | journal name fails => exact .refl cache user
  | invalidator =>
      cases e with
      | rolePermissionsChanged role =>
          have retains : (cache.invalidateHolders m roles role).2.Retains cache user :=
            PermissionCache.invalidateHolders_retains untold
          simp only [handle]
          split <;> rename_i done <;> rw [done] at retains <;> exact retains
      | userRoleAssigned user' =>
          exact PermissionCache.invalidate_retains (mt List.mem_singleton.mpr untold)
      | userDeleted user' =>
          exact PermissionCache.invalidate_retains (mt List.mem_singleton.mpr untold)

theorem Subscription.runAll_retains
    {subscriptions : List (Subscription (PermissionCache × List Delivery))}
    {state : PermissionCache × List Delivery}
    (retains : ∀ sub ∈ subscriptions, ∀ state, (sub.handle e state).2.1.Retains state.1 user) :
    (runAll e subscriptions state).1.Retains state.1 user := by
  induction subscriptions generalizing state with
  | nil => exact .refl state.1 user
  | cons sub rest ih =>
      have first := retains sub (List.mem_cons_self ..) state
      have later := @ih (sub.handle e state).2 fun sub mem =>
        retains sub (List.mem_cons_of_mem _ mem)
      exact later.trans first

namespace Site

/-- Publishing an event drops no entry of a user that it is not about. -/
theorem publish_retains (untold : user ∉ e.audience s.roles) :
    (s.publish m e).2.cache.Retains s.cache user := by
  refine Subscription.runAll_retains fun sub mem state => ?_
  obtain ⟨⟨pattern, l⟩, _, rfl⟩ := List.mem_map.mp (List.mem_filter.mp mem).1
  exact l.handle_retains untold

theorem publishAll_retains {events : List Event}
    (untold : ∀ e ∈ events, user ∉ e.audience s.roles) :
    (publishAll m events s).cache.Retains s.cache user := by
  induction events generalizing s with
  | nil => exact .refl s.cache user
  | cons e rest ih =>
      have first := publish_retains (m := m) (untold e (List.mem_cons_self ..))
      have later := @ih (s.publish m e).2 fun e mem => untold e (List.mem_cons_of_mem _ mem)
      exact later.trans first

end Site

/-! ### Changes of a role -/

/-- A call replaces the permissions of a role, or deletes it. -/
inductive RoleCall.Changes (id : RoleId) : RoleCall → Prop
  | setPermissions (permissions : List Permission) : Changes id (.setPermissions id permissions)
  | deleteRole : Changes id (.deleteRole id)

/-- The events of a changed role are about the users it was assigned to. -/
theorem RoleCall.Changes.told_iff {call : RoleCall} {id : RoleId} {o : Outage} {c : Change}
    (changes : call.Changes id) (lawful : roles.Lawful)
    (done : (call.change o).run (.start roles) = (.ok (), c)) :
    (∃ e ∈ c.events, user ∈ e.audience c.store) ↔ id ∈ roles.assigned user := by
  cases changes with
  | setPermissions permissions =>
      obtain ⟨_, r, _, _, rfl⟩ := Administration.setPermissions_eq_ok done
      rw [← lawful.mem_holders_iff]
      constructor
      · rintro ⟨e, mem, told⟩
        obtain rfl := List.mem_singleton.mp mem
        exact told
      · intro held
        exact ⟨_, List.mem_singleton_self _, held⟩
  | deleteRole =>
      obtain ⟨r, _, _, rfl⟩ := Administration.deleteRole_eq_ok done
      rw [← lawful.mem_holders_iff]
      constructor
      · rintro ⟨e, mem, told⟩
        obtain ⟨holder, held, rfl⟩ := List.mem_map.mp mem
        obtain rfl := List.mem_singleton.mp told
        exact held
      · intro held
        exact ⟨_, List.mem_map_of_mem held, List.mem_singleton_self _⟩

namespace Site

/-- A changed role leaves the entries of those it was not assigned to. -/
theorem administer_retains {call : RoleCall} {id : RoleId} (lawful : s.roles.Lawful)
    (changes : call.Changes id) (unassigned : id ∉ s.roles.assigned user) :
    (s.administer m call.change).2.cache.Retains s.cache user := by
  rcases administer_cases m s call with ⟨_, same⟩ | ⟨c, done, made⟩
  · rw [same]
    exact .refl s.cache user
  · rw [made]
    refine publishAll_retains (s := { s with roles := c.store }) fun e mem told => ?_
    exact unassigned ((changes.told_iff lawful done).mp ⟨e, mem, told⟩)

/-- **Whose entries a changed role drops**: once the permissions of a role have been replaced or the
role has been deleted, the cache lacks the entry of a user exactly when it lacked it before or the
role was assigned to the user. -/
theorem administer_lacks_iff {call : RoleCall} {id : RoleId} (lawful : s.roles.Lawful)
    (listens : s.CacheListens) (calm : m.outage = .none) (changes : call.Changes id)
    (done : (s.administer m call.change).1 = .ok ()) :
    (s.administer m call.change).2.cache.Lacks user ↔
      s.cache.Lacks user ∨ id ∈ s.roles.assigned user := by
  constructor
  · intro lacks
    by_cases assigned : id ∈ s.roles.assigned user
    · exact Or.inr assigned
    · exact Or.inl ((administer_retains lawful changes assigned).lacks lacks)
  · intro gone
    obtain ⟨c, changed⟩ := administer_ok_iff.mp done
    rw [administer_of_run changed]
    let changedSite : Site := { s with roles := c.store }
    rcases gone with before | assigned
    · exact (publishAll_within (s := changedSite) c.events).lacks before
    · obtain ⟨e, mem, told⟩ := (changes.told_iff lawful changed).mpr assigned
      exact publishAll_lacks (s := changedSite) calm listens mem told

/-! ### A role of everyone that is not built in -/

/-- The role of everyone, as an administrator may create it. -/
def everyoneRole : Role := ⟨2, Role.everyone, "User", false, [.everywhere "self:*:*"]⟩

/-- The role is created, and a user without any assignment is looked up. -/
def everyoneSteps : List (Moment × Step) :=
  [(default, .administer (.createRole everyoneRole)), (default, .load 5)]

/-- A new service after these steps. -/
def withImplicitHolder : Site := play everyoneSteps (start .default .log 0)

theorem roles_withImplicitHolder :
    withImplicitHolder.roles = RoleStore.empty.put everyoneRole := rfl

theorem lawful_withImplicitHolder : withImplicitHolder.roles.Lawful :=
  roles_withImplicitHolder ▸ RoleStore.lawful_empty.put

theorem withImplicitHolder_listens : withImplicitHolder.CacheListens :=
  fun _ mem => List.mem_map_of_mem mem

theorem withImplicitHolder_holds : ¬ withImplicitHolder.cache.Lacks 5 := by
  let created : Site := (Step.administer (.createRole everyoneRole)).after default
    (start .default .log 0)
  have loaded : ¬ (created.cache.load default created.roles 5).2.Lacks 5 :=
    PermissionCache.not_lacks_of_load rfl
  exact loaded

theorem unassigned_withImplicitHolder : 2 ∉ withImplicitHolder.roles.assigned 5 :=
  List.not_mem_nil

/-- What the administrator then makes of the role. -/
def narrowed : RoleCall := .setPermissions 2 [.everywhere "self:profile:get"]

theorem narrowed_done : (withImplicitHolder.administer default narrowed.change).1 = .ok () := rfl

/-- A user who has the role of everyone without an assignment keeps an entry from before the change of
the role. -/
theorem implicit_holder_keeps_entry :
    withImplicitHolder.roles.Lawful ∧ withImplicitHolder.CacheListens ∧
      (withImplicitHolder.administer default narrowed.change).1 = .ok () ∧
        ¬ (withImplicitHolder.administer default narrowed.change).2.cache.Lacks 5 := by
  refine ⟨lawful_withImplicitHolder, withImplicitHolder_listens, narrowed_done, fun lacks => ?_⟩
  rcases (administer_lacks_iff lawful_withImplicitHolder withImplicitHolder_listens rfl
    (.setPermissions _) narrowed_done).mp lacks with before | assigned
  · exact withImplicitHolder_holds before
  · exact unassigned_withImplicitHolder assigned

/-- Not everyone who acts with a role loses the entry when the role changes, whatever services start
with, although names are unique and no call fails. -/
theorem changed_roles_leave_entries :
    ¬ ∀ (start : Site) (steps : List (Moment × Step)) (m : Moment) (call : RoleCall) (id : RoleId)
        (user : UserId),
      start.roles.Lawful → start.CacheListens → (∀ step ∈ steps, step.1.outage = .none) →
        m.outage = .none → call.Changes id →
          let s := play steps start
          (∀ id id' r r', s.roles.find? id = some r → s.roles.find? id' = some r' →
            r.name = r'.name → id = id') →
          (∃ acting, s.roles.effectiveRoles .none user = .ok acting ∧ ∃ r ∈ acting, r.id = id) →
            (s.administer m call.change).1 = .ok () →
              (s.administer m call.change).2.cache.Lacks user := by
  intro drops
  have listens : (start .default .log 0).CacheListens := fun _ mem => List.mem_map_of_mem mem
  have calm : ∀ step ∈ everyoneSteps, step.1.outage = .none := by
    intro step mem
    rcases List.mem_pair.mp mem with rfl | rfl <;> rfl
  have only : ∀ id r, withImplicitHolder.roles.find? id = some r → id = 2 := by
    intro id r found
    rw [roles_withImplicitHolder] at found
    simp only [RoleStore.put, RoleStore.find?, Table.find?_insert] at found
    split at found
    · rename_i same
      exact same
    · cases found
  have unique : ∀ id id' r r', withImplicitHolder.roles.find? id = some r →
      withImplicitHolder.roles.find? id' = some r' → r.name = r'.name → id = id' :=
    fun id id' r r' found found' _ => (only id r found).trans (only id' r' found').symm
  have acts : withImplicitHolder.roles.effectiveRoles .none 5 = .ok [everyoneRole] := by
    rw [roles_withImplicitHolder]
    rfl
  have lacks : (withImplicitHolder.administer default narrowed.change).2.cache.Lacks 5 :=
    drops (start .default .log 0) everyoneSteps default narrowed 2 5 RoleStore.lawful_empty listens
      calm rfl (.setPermissions _) unique
      ⟨[everyoneRole], acts, everyoneRole, List.mem_singleton_self _, rfl⟩ narrowed_done
  have retains : (withImplicitHolder.administer default narrowed.change).2.cache.Retains
      withImplicitHolder.cache 5 :=
    administer_retains lawful_withImplicitHolder (.setPermissions _) unassigned_withImplicitHolder
  exact withImplicitHolder_holds (retains.lacks lacks)

end Site

end Gatehouse
