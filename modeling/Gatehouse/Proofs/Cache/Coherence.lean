import Gatehouse.Cache.Permissions
import Gatehouse.Proofs.Cache.Memory
import Gatehouse.Proofs.Role.Seeded
import Std.Data.String.ToNat

/-!
The cache of entitlements agrees with the role store.

A cache is `Coherent` with a role store when every text it holds is what the store entitles the user
of its key to. Loading keeps a cache coherent, and from a coherent cache it gives what the store
gives (`Coherent.load_eq`). After a change of the store the texts of the users concerned have to go:
`Lacks` says of a cache that those of a user are gone.
-/

namespace Gatehouse.PermissionCache

variable {c c' : PermissionCache} {m : Moment} {roles roles' : RoleStore} {user user' : UserId}
  {users : List UserId} {entry : Entitlements} {e : String × CacheEntry}

/-- Users have different keys. -/
theorem key_injective (same : c.key user = c.key user') : user = user' := by
  have digits : Nat.repr user.toNat = Nat.repr user'.toNat :=
    (String.append_right_inj _).mp same
  exact UInt64.toNat_inj.mp (Nat.repr_injective digits)

/-! ### Caches that hold less -/

/-- A cache holds nothing that another does not, under the same settings. -/
structure Within (c' c : PermissionCache) : Prop where
  settings : c'.settings = c.settings
  holds : ∀ {e}, c'.memory.Holds e → c.memory.Holds e

/-- A cache holds nothing under the key of a user. -/
def Lacks (c : PermissionCache) (user : UserId) : Prop :=
  ∀ e, c.memory.Holds e → e.1 ≠ c.key user

namespace Within

theorem refl (c : PermissionCache) : c.Within c := ⟨rfl, id⟩

theorem trans {c'' : PermissionCache} (later : c''.Within c') (earlier : c'.Within c) :
    c''.Within c :=
  ⟨later.settings.trans earlier.settings, fun held => earlier.holds (later.holds held)⟩

theorem count (within : c'.Within c) (f : CacheStats → CacheStats) : (c'.count f).Within c :=
  ⟨within.settings, within.holds⟩

theorem key (within : c'.Within c) (user : UserId) : c'.key user = c.key user := by
  unfold PermissionCache.key
  rw [within.settings]

theorem lacks (within : c'.Within c) (lacks : c.Lacks user) : c'.Lacks user := by
  intro e held
  rw [within.key]
  exact lacks e (within.holds held)

end Within

theorem fetch_within (key : String) : (c.fetch m key).2.Within c := by
  unfold fetch
  simp only
  split
  · exact ⟨rfl, id⟩
  · exact ⟨rfl, MemoryCache.holds_of_get⟩

theorem drop_within (key : String) : (c.drop m key).2.Within c := by
  unfold drop
  simp only
  split
  · exact ⟨rfl, id⟩
  · exact ⟨rfl, fun held => (MemoryCache.holds_of_delete held).1⟩

theorem get_within : (c.get m user).2.Within c := by
  have fetched := fetch_within (c := c) (m := m) (c.key user)
  unfold get
  split <;> rename_i found <;> rw [found] at fetched
  · exact fetched.count .miss
  · exact fetched.count fun s => s.fault.miss
  · split
    · exact fetched.count .hit
    · exact fetched.count fun s => s.fault.miss

/-- A text that is fetched is held under the key and has not expired, and stays in the cache. -/
theorem of_fetch_eq_some {key text : String} (found : (c.fetch m key).1 = .ok (some text)) :
    ∃ held, c.memory.Holds (key, held) ∧ held.value = text ∧ held.isExpired m.tick = false ∧
      (c.fetch m key).2.memory = c.memory := by
  unfold fetch at found ⊢
  simp only at found ⊢
  split at found
  · cases found
  · rename_i up
    rw [if_neg up]
    exact MemoryCache.of_get_eq_some (Except.ok.inj found)

/-- An entry that is read was fetched as a text that can be read. -/
theorem fetch_of_get_eq_some (read : (c.get m user).1 = some entry) :
    ∃ text, (c.fetch m (c.key user)).1 = .ok (some text) ∧
      Json.decode? Entitlements.read text = some entry ∧
        (c.get m user).2.memory = (c.fetch m (c.key user)).2.memory := by
  unfold get at read ⊢
  split at read <;> rename_i found
  · cases read
  · cases read
  · rename_i text after
    split at read
    · rename_i decoded
      rw [found]
      exact ⟨text, rfl, Option.some.inj read ▸ decoded, rfl⟩
    · cases read

/-- An entry that is read comes from a text under the key of the user that has not expired, and stays
in the cache. -/
theorem of_get_eq_some (read : (c.get m user).1 = some entry) :
    ∃ held, c.memory.Holds (c.key user, held) ∧
      Json.decode? Entitlements.read held.value = some entry ∧ held.isExpired m.tick = false ∧
        (c.get m user).2.memory = c.memory := by
  obtain ⟨text, found, decoded, same⟩ := fetch_of_get_eq_some read
  obtain ⟨held, holds, rfl, live, same'⟩ := of_fetch_eq_some found
  exact ⟨held, holds, decoded, live, same.trans same'⟩

theorem invalidate_within : (c.invalidate m user).Within c := by
  have dropped := drop_within (c := c.count .invalidation) (m := m) (c.key user)
  unfold invalidate
  split <;> rename_i done <;> rw [done] at dropped
  · exact dropped.trans ((Within.refl c).count _)
  · exact (dropped.trans ((Within.refl c).count _)).count _

theorem invalidateAll_within : (invalidateAll m users c).Within c := by
  induction users generalizing c with
  | nil => exact .refl c
  | cons user users ih => exact ih.trans invalidate_within

theorem invalidateHolders_within (role : RoleId) :
    (c.invalidateHolders m roles role).2.Within c := by
  unfold invalidateHolders
  split
  · exact .refl c
  · exact invalidateAll_within

/-! ### Caches without the texts of some users -/

variable (calm : m.outage = .none)

include calm

theorem invalidate_lacks : (c.invalidate m user).Lacks user := by
  intro e held
  rw [invalidate_within.key]
  unfold invalidate drop at held
  rw [calm] at held
  exact (MemoryCache.holds_of_delete held).2

theorem invalidateAll_lacks (mem : user ∈ users) : (invalidateAll m users c).Lacks user := by
  induction users generalizing c with
  | nil => cases mem
  | cons first users ih =>
      rcases List.mem_cons.mp mem with rfl | later
      · have rest : (invalidateAll m users (c.invalidate m user)).Within (c.invalidate m user) :=
          invalidateAll_within
        exact rest.lacks (invalidate_lacks calm)
      · exact ih later

theorem invalidateHolders_lacks {role : RoleId} (mem : user ∈ roles.holders role) :
    (c.invalidateHolders m roles role).2.Lacks user := by
  unfold invalidateHolders
  rw [calm]
  exact invalidateAll_lacks calm mem

omit calm

/-! ### Coherent caches -/

/-- Every text is what the store entitles the user of its key to. -/
def Coherent (c : PermissionCache) (roles : RoleStore) : Prop :=
  ∀ e, c.memory.Holds e →
    ∃ user, e.1 = c.key user ∧ e.2.value = (roles.entitled user).toJson.compact

theorem coherent_of_empty (empty : c.memory.entries = .empty) : c.Coherent roles :=
  fun _ held => absurd held (MemoryCache.not_holds_of_empty empty)

/-- A coherent cache is coherent with every store that entitles the users it knows to the same. -/
theorem Coherent.of_within (coherent : c.Coherent roles) (within : c'.Within c)
    (same : ∀ user, c'.Lacks user ∨ roles'.entitled user = roles.entitled user) :
    c'.Coherent roles' := by
  intro e held
  obtain ⟨user, key, value⟩ := coherent e (within.holds held)
  have key' : e.1 = c'.key user := key.trans (within.key user).symm
  rcases same user with lacks | same
  · exact absurd key' (lacks e held)
  · rw [← same] at value
    exact ⟨user, key', value⟩

/-- The entry that is read is what the user is entitled to. -/
theorem Coherent.get_eq_some (coherent : c.Coherent roles) (resourced : roles.Resourced)
    (read : (c.get m user).1 = some entry) : entry = roles.entitled user := by
  obtain ⟨held, holds, decoded, _⟩ := of_get_eq_some read
  obtain ⟨owner, key, written⟩ := coherent _ holds
  obtain rfl := key_injective key
  rw [written, resourced.decode?_entitled] at decoded
  exact (Option.some.inj decoded).symm

/-- Writing the entry of a user adds this entry, as of now, and no other. -/
theorem holds_of_put (held : (c.put m user entry).memory.Holds e) :
    e = (c.key user,
        ⟨entry.toJson.compact, m.tick, c.settings.lifetime.toNat * 1000000000⟩) ∨
      c.memory.Holds e := by
  unfold put store at held
  simp only at held
  split at held <;> rename_i done <;> split at done
  · cases done
  · obtain ⟨_, rfl⟩ := Prod.mk.inj done
    exact MemoryCache.holds_of_write held
  · obtain ⟨_, rfl⟩ := Prod.mk.inj done
    exact Or.inr held
  · cases done

theorem put_settings : (c.put m user entry).settings = c.settings := by
  unfold put store
  simp only
  split <;> rename_i done <;> split at done <;> cases done <;> rfl

theorem load_settings : (c.load m roles user).2.settings = c.settings := by
  have read : (c.get m user).2.settings = c.settings := get_within.settings
  unfold load
  split <;> rename_i got <;> rw [got] at read
  · exact read
  · split
    · exact read
    · exact put_settings.trans read

theorem load_key (user' : UserId) : (c.load m roles user).2.key user' = c.key user' := by
  unfold key
  rw [load_settings]

/-- Loading adds what the store says now, and nothing else. -/
theorem holds_of_load (held : (c.load m roles user).2.memory.Holds e) : c.memory.Holds e ∨
    e = (c.key user, ⟨(roles.entitled user).toJson.compact, m.tick,
      c.settings.lifetime.toNat * 1000000000⟩) := by
  have read : (c.get m user).2.Within c := get_within
  unfold load at held
  split at held <;> rename_i got <;> rw [got] at read
  · exact Or.inl (read.holds held)
  · split at held
    · exact Or.inl (read.holds held)
    · rename_i given
      obtain rfl := roles.entitlements_eq_ok given
      rcases holds_of_put held with fresh | before
      · rw [read.key, read.settings] at fresh
        exact Or.inr fresh
      · exact Or.inl (read.holds before)

/-- Loading keeps a cache coherent. -/
theorem Coherent.load (coherent : c.Coherent roles) : (c.load m roles user).2.Coherent roles := by
  intro e held
  rcases holds_of_load held with before | rfl
  · obtain ⟨owner, key, value⟩ := coherent e before
    exact ⟨owner, key.trans (load_key owner).symm, value⟩
  · exact ⟨user, (load_key user).symm, rfl⟩

/-- An entry that is read is the answer. -/
theorem load_of_get_eq_some (read : (c.get m user).1 = some entry) :
    (c.load m roles user).1 = .ok entry := by
  unfold load
  split <;> rename_i got
  · rw [got] at read
    exact congrArg Except.ok (Option.some.inj read)
  · rw [got] at read
    cases read

/-- When no entry is read, the answer is the store's. -/
theorem load_of_get_eq_none (up : m.outage.stores = fun _ => false)
    (read : (c.get m user).1 = none) : (c.load m roles user).1 = .ok (roles.entitled user) := by
  unfold load
  split <;> rename_i got
  · rw [got] at read
    cases read
  · rw [RoleStore.entitlements_of_up up]

/-- Whatever the cache gives for a user, whenever it is asked, is what the store entitles the user to. -/
def Truthful (c : PermissionCache) (roles : RoleStore) (user : UserId) : Prop :=
  ∀ m entry, (c.get m user).1 = some entry → entry = roles.entitled user

theorem Coherent.truthful (coherent : c.Coherent roles) (resourced : roles.Resourced)
    (user : UserId) : c.Truthful roles user := fun _ _ read => coherent.get_eq_some resourced read

/-- Loading from a truthful cache gives what the store gives, whether the cache can be reached or not. -/
theorem Truthful.load_eq (truthful : c.Truthful roles user) (up : m.outage.stores = fun _ => false) :
    (c.load m roles user).1 = .ok (roles.entitled user) := by
  cases read : (c.get m user).1 with
  | none => exact load_of_get_eq_none up read
  | some entry => rw [load_of_get_eq_some read, truthful m entry read]

/-- Loading from a coherent cache gives what the store gives. -/
theorem Coherent.load_eq (coherent : c.Coherent roles) (seeded : roles.Seeded)
    (calm : m.outage = .none) : (c.load m roles user).1 = .ok (roles.entitled user) :=
  (coherent.truthful seeded.resourced user).load_eq (by rw [calm]; rfl)

end Gatehouse.PermissionCache
