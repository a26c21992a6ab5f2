import Gatehouse.Proofs.Site.Publish
import Gatehouse.Proofs.Site.Stages

/-!
A service keeps its cache coherent with its role store, whatever is done with it.

A change of roles publishes events, and the cache drops the entries of the users they are about. So
every step keeps a service `Coherent` (`Coherent.after`), and so does any sequence of steps
(`Coherent.play`): whoever asks the cache afterwards hears what the role store says.
-/

namespace Gatehouse.Site

variable {m : Moment} {user : UserId} {s : Site}

/-! ### What every step keeps -/

/-- A service whose cache agrees with its role store, and will hear of changes. -/
structure Coherent (s : Site) : Prop where
  seeded : s.roles.Seeded
  listens : s.CacheListens
  cache : s.cache.Coherent s.roles

/-- What may happen to a service. -/
inductive Step where
  /-- Roles are changed. -/
  | administer (call : RoleCall)
  /-- The cache is asked what a user is entitled to. -/
  | load (user : UserId)
  /-- The cache drops the entry of a user. -/
  | invalidate (user : UserId)
  /-- A request comes to a route. -/
  | guard (route : Route) (request : Request)

/-- The service after a step, in the circumstances of a moment. -/
def Step.after (m : Moment) : Step → Site → Site
  | .administer call, s => (s.administer m call.change).2
  | .load user, s => (s.entitlements m user).2
  | .invalidate user, s => { s with cache := s.cache.invalidate m user }
  | .guard route request, s => ((Chain.build route .standard).execute m request s).2

/-- The service after steps at moments of their own, between which any time may pass. -/
def play : List (Moment × Step) → Site → Site
  | [], s => s
  | (m, step) :: rest, s => play rest (step.after m s)

namespace Coherent

variable (coherent : s.Coherent)

include coherent

theorem administer {call : RoleCall} (calm : m.outage = .none) :
    (s.administer m call.change).2.Coherent := by
  rcases administer_cases m s call with ⟨_, same⟩ | ⟨c, done, made⟩
  · rw [same]
    exact coherent
  rw [made]
  let changed : Site := { s with roles := c.store }
  have listens : changed.CacheListens := coherent.listens
  have roles : (publishAll m c.events changed).roles = c.store := publishAll_roles c.events
  constructor
  · rw [roles]
    exact coherent.seeded.change done
  · unfold CacheListens
    rw [publishAll_listeners]
    exact listens
  · rw [roles]
    refine coherent.cache.of_within (publishAll_within c.events) fun user => ?_
    by_cases told : ∃ e ∈ c.events, user ∈ e.audience c.store
    · obtain ⟨e, mem, told⟩ := told
      exact Or.inl (publishAll_lacks calm listens mem told)
    · refine Or.inr (coherent.seeded.entitled_of_untold done fun e mem => ?_)
      exact fun concerned => told ⟨e, mem, concerned⟩

theorem entitlements : (s.entitlements m user).2.Coherent :=
  ⟨coherent.seeded, coherent.listens, coherent.cache.load⟩

theorem invalidate : Coherent { s with cache := s.cache.invalidate m user } :=
  ⟨coherent.seeded, coherent.listens,
    coherent.cache.of_within PermissionCache.invalidate_within fun _ => Or.inr rfl⟩

omit coherent

theorem standard_keep : Concerns.standard.Keep Site.Coherent :=
  Concerns.standard_keep (fun _ _ _ coherent => coherent.entitlements)
    fun _ _ coherent => ⟨coherent.seeded, coherent.listens, coherent.cache⟩

include coherent

/-- Every step keeps a service coherent. -/
theorem after (calm : m.outage = .none) (step : Step) : (step.after m s).Coherent := by
  cases step with
  | administer call => exact coherent.administer calm
  | load user => exact coherent.entitlements
  | invalidate user => exact coherent.invalidate
  | guard route request => exact Chain.execute_build_keeps standard_keep coherent

/-- Every sequence of steps keeps a service coherent. -/
theorem play {steps : List (Moment × Step)} (calm : ∀ step ∈ steps, step.1.outage = .none) :
    (Site.play steps s).Coherent := by
  induction steps generalizing s with
  | nil => exact coherent
  | cons first rest ih =>
      obtain ⟨m, step⟩ := first
      have calmFirst := calm _ (List.mem_cons_self ..)
      have calmRest := fun step mem => calm step (List.mem_cons_of_mem _ mem)
      exact ih (coherent.after calmFirst step) calmRest

end Coherent

/-- A new service with the built-in roles is coherent, whoever its users are. -/
theorem coherent_builtIn {config : Config} {sink : AuditSink} {tick : Nat} {directory : Directory}
    {tokens : TokenStore} {sessions : Sessions} :
    Coherent { start config sink tick with roles := .builtIn, directory, tokens, sessions } where
  seeded := RoleStore.seeded_builtIn
  listens := fun _ mem => List.mem_map_of_mem (f := fun topic => (topic, Listener.invalidator)) mem
  cache := PermissionCache.coherent_of_empty rfl

/-! ### The cache agrees with the role store -/

/-- A service that starts with an empty cache, over a role store as services start with, gives at
every later moment from its cache what its role store says then. Whatever the cache holds is what
the role store entitles a user to: no permission that was taken away, and none that a request lent
to the lead of a team. -/
theorem entitlements_after_play {steps : List (Moment × Step)} (seeded : s.roles.Seeded)
    (listens : s.CacheListens) (empty : s.cache.memory.entries = .empty)
    (calm : ∀ step ∈ steps, step.1.outage = .none) (calmNow : m.outage = .none) (user : UserId) :
    ((play steps s).entitlements m user).1 = (play steps s).roles.entitlements m.outage user ∧
      ∀ key entry, (play steps s).cache.memory.entries.find? key = some entry →
        ∃ owner, key = (play steps s).cache.key owner ∧
          entry.value = ((play steps s).roles.entitled owner).toJson.compact := by
  have start : s.Coherent := ⟨seeded, listens, PermissionCache.coherent_of_empty empty⟩
  have coherent := start.play calm
  refine ⟨?_, ?_⟩
  · rw [calmNow, RoleStore.entitlements_none]
    exact coherent.cache.load_eq coherent.seeded calmNow
  · intro key entry found
    exact coherent.cache (key, entry) (Table.mem_of_lookup found)

/-- A user is given a role, is looked up, and loses the role again. -/
theorem entitlements_after_revocation :
    let s := { Site.start .default .log 0 with roles := .builtIn }
    let auditor : Role := ⟨7, "auditor", "Auditor", false, [.everywhere "sys:*:*"]⟩
    let later : Moment := { (default : Moment) with tick := 60000000000 }
    let steps : List (Moment × Step) :=
      [(default, .administer (.createRole auditor)), (default, .administer (.assignRole 5 7)),
        (default, .load 5), (later, .administer (.revokeRole 5 7))]
    ((play steps s).entitlements later 5).1 = (play steps s).roles.entitlements .none 5 ∧
      ∀ key entry, (play steps s).cache.memory.entries.find? key = some entry →
        ∃ owner, key = (play steps s).cache.key owner ∧
          entry.value = ((play steps s).roles.entitled owner).toJson.compact := by
  intro s auditor later steps
  have calm : ∀ step ∈ steps, step.1.outage = .none := by
    intro step mem
    simp only [steps, List.mem_cons, List.not_mem_nil, or_false] at mem
    rcases mem with rfl | rfl | rfl | rfl <;> rfl
  have listens : s.CacheListens := fun topic mem => List.mem_map_of_mem mem
  exact entitlements_after_play RoleStore.seeded_builtIn listens rfl calm rfl 5

end Gatehouse.Site
