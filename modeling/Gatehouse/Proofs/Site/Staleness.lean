import Gatehouse.Proofs.Site.Publish
import Mathlib.Data.List.Induction

/-!
How old an answer of the cache may be when calls to its backend fail.

Roles may be changed without a word to the cache, and the backend may fail to drop, to write or to read
an entry at any time. Then the cache may answer with what was true once. But every entry is written as
of its time (`WrittenIn`), which every step of a run keeps (`Turn.holds_after`) and so does the run
(`writtenIn_of_holds`). An entry is not read once its lifetime has passed, so an answer is never older
than that (`entitlements_within_lifetime`).
-/

namespace Gatehouse.Site

/-! ### Runs with direct writes -/

/-- What may happen to a service whose role store is also written to directly. -/
inductive Turn where
  /-- Roles are changed. -/
  | administer (call : RoleCall)
  /-- The role store is written to, and nobody is told. -/
  | write (w : RoleStore.Write)
  /-- The cache is asked what a user is entitled to. -/
  | load (user : UserId)

namespace Turn

/-- The service after a turn, in the circumstances of a moment. -/
def after (m : Moment) : Turn → Site → Site
  | .administer call, s => (s.administer m call.change).2
  | .write w, s => { s with roles := w.apply s.roles }
  | .load user, s => (s.entitlements m user).2

/-- The service after turns at moments of their own. -/
def runAll (turns : List (Moment × Turn)) (s : Site) : Site :=
  turns.foldl (fun s turn => turn.2.after turn.1 s) s

/-- The permissions that are written directly have a resource pattern. -/
def Resourced : Turn → Prop
  | .write w => w.Resourced
  | _ => True

/-- Time does not go back from one turn to the next. -/
def InOrder (turns : List (Moment × Turn)) : Prop :=
  turns.Pairwise fun earlier later => earlier.1.tick ≤ later.1.tick

variable {m : Moment} {s : Site} {turn : Turn} {turns : List (Moment × Turn)}
  {e : String × CacheEntry}

/-! ### One turn -/

theorem settings_after : (turn.after m s).cache.settings = s.cache.settings := by
  cases turn with
  | administer call => exact administer_within.settings
  | write w => rfl
  | load user => exact PermissionCache.load_settings

theorem resourced_after (resourced : s.roles.Resourced) (given : turn.Resourced) :
    (turn.after m s).roles.Resourced := by
  cases turn with
  | administer call =>
      unfold after
      rcases administer_roles m s call with same | ⟨c, done, same⟩
      · exact same ▸ resourced
      · exact same ▸ resourced.change done
  | write w => exact resourced.write given
  | load user => exact resourced

/-- A turn adds no entry to the cache but one that says what the store says now. -/
theorem holds_after (held : (turn.after m s).cache.memory.Holds e) : s.cache.memory.Holds e ∨
    ∃ user, e = (s.cache.key user,
      ⟨(s.roles.entitled user).toJson.compact, m.tick,
        s.cache.settings.lifetime.toNat * 1000000000⟩) := by
  cases turn with
  | administer call => exact Or.inl (administer_within.holds held)
  | write w => exact Or.inl held
  | load user => exact (PermissionCache.holds_of_load held).imp_right fun fresh => ⟨user, fresh⟩

/-! ### A whole run -/

theorem runAll_concat (turn : Moment × Turn) :
    runAll (turns ++ [turn]) s = turn.2.after turn.1 (runAll turns s) := by
  unfold runAll
  rw [List.foldl_append]
  rfl

theorem settings_runAll : (runAll turns s).cache.settings = s.cache.settings := by
  induction turns using List.reverseRecOn with
  | nil => rfl
  | append_singleton past turn ih => rw [runAll_concat, settings_after, ih]

theorem key_runAll (user : UserId) : (runAll turns s).cache.key user = s.cache.key user := by
  unfold PermissionCache.key
  rw [settings_runAll]

theorem resourced_runAll (resourced : s.roles.Resourced)
    (given : ∀ turn ∈ turns, turn.2.Resourced) : (runAll turns s).roles.Resourced := by
  induction turns using List.reverseRecOn with
  | nil => exact resourced
  | append_singleton past turn ih =>
      rw [runAll_concat]
      refine resourced_after (ih fun turn mem => given turn (List.mem_append_left _ mem)) ?_
      exact given turn (List.mem_append_right _ (List.mem_singleton_self _))

end Turn

/-! ### What the store said at a time -/

/-- The role store as it was at a time of a run: after some turns that were not later than that, and
before the others, which were not earlier. -/
def StoredAt (s : Site) (turns : List (Moment × Turn)) (t : Nat) (roles : RoleStore) : Prop :=
  ∃ before after, turns = before ++ after ∧ (Turn.runAll before s).roles = roles ∧
    (∀ turn ∈ before, turn.1.tick ≤ t) ∧ ∀ turn ∈ after, t ≤ turn.1.tick

variable {m : Moment} {s : Site} {turns : List (Moment × Turn)} {turn : Moment × Turn} {t : Nat}
  {roles : RoleStore} {e : String × CacheEntry}

theorem storedAt_now (last : ∀ turn ∈ turns, turn.1.tick ≤ t) :
    StoredAt s turns t (Turn.runAll turns s).roles :=
  ⟨turns, [], (List.append_nil turns).symm, rfl, last, fun _ mem => absurd mem List.not_mem_nil⟩

theorem StoredAt.concat (stored : StoredAt s turns t roles) (later : t ≤ turn.1.tick) :
    StoredAt s (turns ++ [turn]) t roles := by
  obtain ⟨before, after, rfl, same, past, future⟩ := stored
  refine ⟨before, after ++ [turn], List.append_assoc .., same, past, fun other mem => ?_⟩
  rcases List.mem_append.mp mem with mem | mem
  · exact future other mem
  · exact List.mem_singleton.mp mem ▸ later

theorem StoredAt.resourced (stored : StoredAt s turns t roles) (resourced : s.roles.Resourced)
    (given : ∀ turn ∈ turns, turn.2.Resourced) : roles.Resourced := by
  obtain ⟨before, after, rfl, rfl, _⟩ := stored
  exact Turn.resourced_runAll resourced fun turn mem => given turn (List.mem_append_left _ mem)

/-! ### Entries of the cache -/

/-- An entry was written in a run: it says what the store said of a user at the time of a turn, and
lives from then on as long as the settings say. -/
def WrittenIn (s : Site) (turns : List (Moment × Turn)) (e : String × CacheEntry) : Prop :=
  ∃ turn ∈ turns, ∃ user roles, StoredAt s turns turn.1.tick roles ∧
    e = (s.cache.key user,
      ⟨(roles.entitled user).toJson.compact, turn.1.tick,
        s.cache.settings.lifetime.toNat * 1000000000⟩)

/-- A cache that was empty holds only what was written in the run since. -/
theorem writtenIn_of_holds (empty : s.cache.memory.entries = .empty)
    (ordered : Turn.InOrder turns) (held : (Turn.runAll turns s).cache.memory.Holds e) :
    WrittenIn s turns e := by
  induction turns using List.reverseRecOn generalizing e with
  | nil => exact absurd held (MemoryCache.not_holds_of_empty empty)
  | append_singleton past turn ih =>
      obtain ⟨orderedPast, _, last⟩ := List.pairwise_append.mp ordered
      have last : ∀ earlier ∈ past, earlier.1.tick ≤ turn.1.tick :=
        fun earlier mem => last earlier mem turn (List.mem_singleton_self _)
      rw [Turn.runAll_concat] at held
      rcases Turn.holds_after held with before | ⟨user, rfl⟩
      · obtain ⟨writer, mem, user, roles, stored, rfl⟩ := ih orderedPast before
        exact ⟨writer, List.mem_append_left _ mem, user, roles, stored.concat (last writer mem), rfl⟩
      · refine ⟨turn, List.mem_append_right _ (List.mem_singleton_self _), user,
          (Turn.runAll past s).roles, (storedAt_now last).concat (Nat.le_refl _), ?_⟩
        rw [Turn.key_runAll, Turn.settings_runAll]

/-! ### Answers -/

/-- **The cache is never staler than the lifetime of its entries**, and never the cause of an error:
whatever calls to its backend fail, and whatever is written past it, it answers with what the store said
at a time that is not longer ago. When nothing can be read from the backend, it answers with what the
store says now. -/
theorem entitlements_within_lifetime (empty : s.cache.memory.entries = .empty)
    (resourced : s.roles.Resourced) (given : ∀ turn ∈ turns, turn.2.Resourced)
    (ordered : Turn.InOrder turns) (last : ∀ turn ∈ turns, turn.1.tick ≤ m.tick)
    (up : m.outage.stores = fun _ => false) (user : UserId) :
    ∃ e, ((Turn.runAll turns s).entitlements m user).1 = .ok e ∧
      (∃ t roles, StoredAt s turns t roles ∧ roles.entitlements .none user = .ok e ∧ t ≤ m.tick ∧
        m.tick ≤ t + s.cache.settings.lifetime.toNat * 1000000000) ∧
      ((∀ text, ((Turn.runAll turns s).cache.fetch m (s.cache.key user)).1 = .ok (some text) →
          Json.decode? Entitlements.read text = none) →
        (Turn.runAll turns s).roles.entitlements .none user = .ok e) := by
  have key : (Turn.runAll turns s).cache.key user = s.cache.key user := Turn.key_runAll user
  cases read : ((Turn.runAll turns s).cache.get m user).1 with
  | none =>
      refine ⟨_, PermissionCache.load_of_get_eq_none up read, ?_, fun _ => RoleStore.entitlements_none⟩
      exact ⟨m.tick, _, storedAt_now last, RoleStore.entitlements_none, Nat.le_refl _,
        Nat.le_add_right ..⟩
  | some entry =>
      refine ⟨entry, PermissionCache.load_of_get_eq_some read, ?_, fun nothing => ?_⟩
      · obtain ⟨held, holds, decoded, live, _⟩ := PermissionCache.of_get_eq_some read
        obtain ⟨writer, mem, owner, roles, stored, same⟩ := writtenIn_of_holds empty ordered holds
        obtain ⟨own, rfl⟩ := Prod.mk.inj same
        rw [key] at own
        obtain rfl := PermissionCache.key_injective own
        rw [(stored.resourced resourced given).decode?_entitled] at decoded
        cases decoded
        refine ⟨writer.1.tick, roles, stored, RoleStore.entitlements_none, last writer mem, ?_⟩
        simpa [CacheEntry.isExpired] using live
      · obtain ⟨text, found, decoded, _⟩ := PermissionCache.fetch_of_get_eq_some read
        rw [key] at found
        rw [nothing text found] at decoded
        cases decoded

/-- A user is looked up, is given a role while the backend fails, and loses the role again by a direct
write. -/
theorem entitlements_after_lost_deletion :
    let s := { Site.start .default .log 0 with roles := .builtIn }
    let deaf : Moment := { (default : Moment) with
      tick := 60000000000, outage := ⟨fun _ => false, fun _ => true⟩ }
    let later : Moment := { (default : Moment) with tick := 120000000000 }
    let turns : List (Moment × Turn) :=
      [(default, .load 5), (deaf, .administer (.assignRole 5 1)), (later, .write (.revoke 5 1))]
    s.roles.Resourced ∧ Turn.InOrder turns ∧
      ∃ e, ((Turn.runAll turns s).entitlements later 5).1 = .ok e ∧
        ∃ t roles, StoredAt s turns t roles ∧ roles.entitlements .none 5 = .ok e ∧
          t ≤ 120000000000 ∧ 120000000000 ≤ t + 300 * 1000000000 := by
  intro s deaf later turns
  have resourced : s.roles.Resourced := by
    have builtIn : RoleStore.builtIn.Resourced := by decide
    exact builtIn
  have given : ∀ turn ∈ turns, turn.2.Resourced := by
    simp [turns, Turn.Resourced, RoleStore.Write.Resourced]
  have first : (default : Moment).tick = 0 := rfl
  have ordered : Turn.InOrder turns := by simp [Turn.InOrder, turns, deaf, later, first]
  have last : ∀ turn ∈ turns, turn.1.tick ≤ later.tick := by simp [turns, deaf, later, first]
  obtain ⟨e, answer, ⟨t, roles, stored, said, past, recent⟩, _⟩ :=
    entitlements_within_lifetime rfl resourced given ordered last rfl 5
  exact ⟨resourced, ordered, e, answer, t, roles, stored, said, past, recent⟩

end Gatehouse.Site
