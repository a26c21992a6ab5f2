import Gatehouse.Proofs.Cache.Coherence
import Gatehouse.Proofs.Role.Atomicity
import Gatehouse.Site.Basic

/-!
What publishing an event does to a service, and what a change of roles does.

The cache drops the entries of the users that the event is about (`publishAll_lacks`), however many
other listeners there are and whether they fail or not. Everything else but what journals write down
stays as it was (`publishAll_frame`). A change of roles publishes what it tells of, and one that fails
leaves the service as it was (`administer_of_error`).
-/

namespace Gatehouse

variable {m : Moment} {roles : RoleStore} {user : UserId} {e : Event} {s : Site}

/-! ### What one listener does -/

namespace Listener

variable {state : PermissionCache × List Delivery}

theorem handle_within (l : Listener) : (l.handle m roles e state).2.1.Within state.1 := by
  obtain ⟨cache, deliveries⟩ := state
  cases l with
  | journal name fails => exact .refl cache
  | invalidator =>
      cases e with
      | rolePermissionsChanged role =>
          have within : (cache.invalidateHolders m roles role).2.Within cache :=
            PermissionCache.invalidateHolders_within role
          simp only [handle]
          split <;> rename_i done <;> rw [done] at within <;> exact within
      | userRoleAssigned user => exact PermissionCache.invalidate_within
      | userDeleted user => exact PermissionCache.invalidate_within

/-- The cache drops the entries of the users that an event is about. -/
theorem invalidator_lacks (calm : m.outage = .none) (told : user ∈ e.audience roles) :
    (invalidator.handle m roles e state).2.1.Lacks user := by
  obtain ⟨cache, deliveries⟩ := state
  cases e with
  | rolePermissionsChanged role =>
      have lacks := PermissionCache.invalidateHolders_lacks (c := cache) calm told
      simp only [handle]
      split <;> rename_i done <;> rw [done] at lacks <;> exact lacks
  | userRoleAssigned user' =>
      obtain rfl := List.mem_singleton.mp told
      exact PermissionCache.invalidate_lacks calm
  | userDeleted user' =>
      obtain rfl := List.mem_singleton.mp told
      exact PermissionCache.invalidate_lacks calm

/-- Every event has a topic that the cache listens to. -/
theorem cacheTopics_cover (e : Event) : ∃ topic ∈ cacheTopics, Topic.covers topic e.topic = true := by
  cases e with
  | rolePermissionsChanged role =>
      have covers : Topic.covers "role.*" "role.permissions_changed" = true := by decide
      exact ⟨"role.*", by decide, covers⟩
  | userRoleAssigned user =>
      have covers : Topic.covers "user.*" "user.role_assigned" = true := by decide
      exact ⟨"user.*", by decide, covers⟩
  | userDeleted user =>
      have covers : Topic.covers "user.*" "user.deleted" = true := by decide
      exact ⟨"user.*", by decide, covers⟩

end Listener

/-! ### What all listeners do -/

namespace Subscription

variable {subscriptions : List (Subscription (PermissionCache × List Delivery))}
  {state : PermissionCache × List Delivery}

theorem runAll_within
    (within : ∀ sub ∈ subscriptions, ∀ state, (sub.handle e state).2.1.Within state.1) :
    (runAll e subscriptions state).1.Within state.1 := by
  induction subscriptions generalizing state with
  | nil => exact .refl state.1
  | cons sub rest ih =>
      have first := within sub (List.mem_cons_self ..) state
      have later := @ih (sub.handle e state).2 fun sub mem =>
        within sub (List.mem_cons_of_mem _ mem)
      exact later.trans first

/-- What one handler drops no other handler brings back. -/
theorem runAll_lacks
    (within : ∀ sub ∈ subscriptions, ∀ state, (sub.handle e state).2.1.Within state.1)
    (drops : ∃ sub ∈ subscriptions, ∀ state, (sub.handle e state).2.1.Lacks user) :
    (runAll e subscriptions state).1.Lacks user := by
  induction subscriptions generalizing state with
  | nil => simp at drops
  | cons first rest ih =>
      have withinRest := fun sub mem => within sub (List.mem_cons_of_mem first mem)
      obtain ⟨sub, mem, lacks⟩ := drops
      rcases List.mem_cons.mp mem with rfl | later
      · exact (runAll_within withinRest).lacks (lacks state)
      · exact ih withinRest ⟨sub, later, lacks⟩

end Subscription

namespace Site

/-- The cache hears of every event. -/
def CacheListens (s : Site) : Prop :=
  ∀ topic ∈ Listener.cacheTopics, (topic, Listener.invalidator) ∈ s.listeners

theorem due_within : ∀ sub ∈ Subscription.due (s.subscriptions m) e, ∀ state,
    (sub.handle e state).2.1.Within state.1 := by
  intro sub mem state
  obtain ⟨⟨pattern, l⟩, _, rfl⟩ := List.mem_map.mp (List.mem_filter.mp mem).1
  exact l.handle_within

theorem publish_within : (s.publish m e).2.cache.Within s.cache :=
  Subscription.runAll_within due_within

theorem publish_lacks (calm : m.outage = .none) (listens : s.CacheListens)
    (told : user ∈ e.audience s.roles) : (s.publish m e).2.cache.Lacks user := by
  refine Subscription.runAll_lacks due_within ?_
  obtain ⟨topic, listed, covers⟩ := Listener.cacheTopics_cover e
  have subscribed : ⟨topic, Listener.invalidator.handle m s.roles⟩ ∈ s.subscriptions m :=
    List.mem_map.mpr ⟨_, listens topic listed, rfl⟩
  exact ⟨_, List.mem_filter.mpr ⟨subscribed, covers⟩, fun _ => Listener.invalidator_lacks calm told⟩

/-- Publishing changes nothing but the cache and what journals have written down. -/
theorem publishAll_frame (events : List Event) : ∃ cache deliveries,
    publishAll m events s = { s with cache, deliveries } := by
  induction events generalizing s with
  | nil => exact ⟨s.cache, s.deliveries, rfl⟩
  | cons e rest ih =>
      obtain ⟨cache, deliveries, published⟩ := @ih (s.publish m e).2
      exact ⟨cache, deliveries, published⟩

theorem publishAll_roles (events : List Event) : (publishAll m events s).roles = s.roles := by
  obtain ⟨_, _, published⟩ := publishAll_frame events
  rw [published]

theorem publishAll_listeners (events : List Event) :
    (publishAll m events s).listeners = s.listeners := by
  obtain ⟨_, _, published⟩ := publishAll_frame events
  rw [published]

theorem publishAll_within (events : List Event) :
    (publishAll m events s).cache.Within s.cache := by
  induction events generalizing s with
  | nil => exact .refl s.cache
  | cons e rest ih => exact ih.trans publish_within

/-! ### What a change of roles does -/

variable {change : Outage → Attempt Change Unit} {outcome : Except Error Unit} {c : Change} {err : Error}

theorem administer_of_run (ended : (change m.outage).run (.start s.roles) = (outcome, c)) :
    s.administer m change = (outcome, publishAll m c.events { s with roles := c.store }) := by
  unfold administer
  rw [ended]

/-- A change of roles, whether it succeeds or not, adds nothing to the cache. -/
theorem administer_within : (s.administer m change).2.cache.Within s.cache := publishAll_within _

/-- It changes nothing but the role store, the cache and what journals have written down. -/
theorem administer_frame (change : Outage → Attempt Change Unit) :
    ∃ roles cache deliveries, (s.administer m change).2 = { s with roles, cache, deliveries } := by
  rcases ended : (change m.outage).run (.start s.roles) with ⟨outcome, c⟩
  rw [administer_of_run ended]
  obtain ⟨cache, deliveries, published⟩ :=
    publishAll_frame (m := m) (s := { s with roles := c.store }) c.events
  exact ⟨c.store, cache, deliveries, published⟩

theorem administer_tokens : (s.administer m change).2.tokens = s.tokens := by
  obtain ⟨_, _, _, after⟩ := administer_frame (m := m) (s := s) change
  rw [after]

theorem administer_ok_iff : (s.administer m change).1 = .ok () ↔
    ∃ c, (change m.outage).run (.start s.roles) = (.ok (), c) := by
  rcases ended : (change m.outage).run (.start s.roles) with ⟨outcome, c⟩
  rw [administer_of_run ended]
  simp

/-- A call to the administration is made as a whole and told of, or leaves the service as it was. -/
theorem administer_cases (m : Moment) (s : Site) (call : RoleCall) :
    (∃ err, s.administer m call.change = (.error err, s)) ∨
      ∃ c, (call.change m.outage).run (.start s.roles) = (.ok (), c) ∧
        s.administer m call.change = (.ok (), publishAll m c.events { s with roles := c.store }) := by
  rcases ended : (call.change m.outage).run (.start s.roles) with ⟨err | done, c⟩
  · obtain rfl := call.change_atomic _ err c ended
    exact Or.inl ⟨err, administer_of_run ended⟩
  · exact Or.inr ⟨c, rfl, administer_of_run ended⟩

/-- A call that fails has written nothing and published nothing, and so the service is as it was. -/
theorem administer_of_error {call : RoleCall} (failed : (s.administer m call.change).1 = .error err) :
    (s.administer m call.change).2 = s ∧
      ((call.change m.outage).run (.start s.roles)).2 = .start s.roles := by
  rcases ended : (call.change m.outage).run (.start s.roles) with ⟨outcome, c⟩
  rw [administer_of_run ended] at failed ⊢
  cases failed
  obtain rfl := call.change_atomic _ err c ended
  exact ⟨rfl, rfl⟩

/-- The role store after a call is what it leaves if it is made, or as it was. -/
theorem administer_roles (m : Moment) (s : Site) (call : RoleCall) :
    (s.administer m call.change).2.roles = s.roles ∨
      ∃ c, (call.change m.outage).run (.start s.roles) = (.ok (), c) ∧
        (s.administer m call.change).2.roles = c.store := by
  rcases administer_cases m s call with ⟨_, same⟩ | ⟨c, changed, made⟩
  · exact Or.inl (congrArg (·.2.roles) same)
  · refine Or.inr ⟨c, changed, ?_⟩
    rw [made]
    exact publishAll_roles c.events

/-! ### Users who are told of -/

/-- Once events are published the cache holds nothing of the users they are about. -/
theorem publishAll_lacks (calm : m.outage = .none) (listens : s.CacheListens)
    {events : List Event} (mem : e ∈ events) (told : user ∈ e.audience s.roles) :
    (publishAll m events s).cache.Lacks user := by
  induction events generalizing s with
  | nil => cases mem
  | cons first rest ih =>
      rcases List.mem_cons.mp mem with rfl | later
      · exact (publishAll_within rest).lacks (publish_lacks calm listens told)
      · exact ih listens later told

end Site

end Gatehouse
