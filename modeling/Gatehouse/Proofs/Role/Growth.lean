import Gatehouse.Proofs.Role.Union

/-!
Changes of roles that take nothing from anyone.

A call that makes a role, assigns one, or replaces the permissions of one by more leaves every user with
all of its roles (`ActsAs.of_widens`). A user is entitled to the permissions of the roles it acts as, in
whichever order they come and whatever else is assigned (`mem_entitled_iff`); so in a seeded store it is
left with all of its permissions too (`Seeded.entitled_subset`).
-/

namespace Gatehouse

/-- A call takes nothing away: it makes a role, assigns one, or gives one permissions among which all of
its former ones are. -/
inductive RoleCall.Widens (s : RoleStore) : RoleCall → Prop
  | createRole (r : Role) : Widens s (.createRole r)
  | setPermissions {id : RoleId} {permissions : List Permission}
      (kept : ∀ r, s.find? id = some r → r.permissions ⊆ Administration.stored permissions) :
      Widens s (.setPermissions id permissions)
  | assignRole (user : UserId) (id : RoleId) : Widens s (.assignRole user id)

/-- What may be stored is stored as it is. -/
theorem Permission.on_of_check {p : Permission} (checked : p.check = .ok ()) :
    Permission.on p.operation p.resource = p :=
  congrArg (Permission.mk p.operation) (if_neg (resource_ne_empty_of_check checked))

namespace RoleStore

variable {s : RoleStore} {o : Outage} {call : RoleCall} {c : Change} {user : UserId} {id : RoleId}
  {r : Role} {p : Permission} {permissions : List Permission}

/-- Whoever acts as a role acts as it after its permissions, or those of another role, are replaced. -/
theorem ActsAs.of_setPermissions (acts : s.ActsAs user r)
    (done : ((RoleCall.setPermissions id permissions).change o).run (.start s) = (.ok (), c)) :
    c.store.ActsAs user
      (if r.id = id then { r with permissions := Administration.stored permissions } else r) := by
  obtain ⟨_, _, _, _, rfl⟩ := Administration.setPermissions_eq_ok done
  split
  · rename_i same
    refine ⟨?_, acts.given⟩
    rw [find?, Table.find?_adjust, if_pos same]
    exact congrArg (Option.map _) acts.found
  · rename_i other
    refine ⟨?_, acts.given⟩
    rw [find?, Table.find?_adjust, if_neg other]
    exact acts.found

/-- Whoever acts as a role before a call that takes nothing away acts as one with no fewer permissions
afterwards. -/
theorem ActsAs.of_widens (acts : s.ActsAs user r) (widens : call.Widens s)
    (done : (call.change o).run (.start s) = (.ok (), c)) :
    ∃ r', c.store.ActsAs user r' ∧ r.permissions ⊆ r'.permissions := by
  cases widens with
  | createRole fresh =>
      obtain ⟨_, _, _, freshId, _, rfl⟩ := Administration.createRole_eq_ok done
      have other : r.id ≠ fresh.id := by
        intro same
        rw [← same, acts.found] at freshId
        cases freshId
      have found := (Table.find?_insert_of_ne s.roles fresh other).trans acts.found
      exact ⟨r, ⟨found, acts.given⟩, List.Subset.refl _⟩
  | @setPermissions id permissions kept =>
      refine ⟨_, acts.of_setPermissions done, ?_⟩
      split
      · rename_i same
        exact kept r (same ▸ acts.found)
      · exact List.Subset.refl _
  | assignRole user' id =>
      obtain ⟨_, ids, all, rfl⟩ := Administration.assignRole_eq_ok done
      refine ⟨r, ⟨acts.found, acts.given.imp_left fun assigned => ?_⟩, List.Subset.refl _⟩
      rw [assigned_insert]
      split
      · rename_i own
        exact (all r.id).mpr (Or.inr (own ▸ assigned))
      · exact assigned

namespace Seeded

theorem check_of_mem_entitled (seeded : s.Seeded) (mem : p ∈ (s.entitled user).permissions) :
    p.check = .ok () := by
  obtain ⟨r, listed, mem⟩ := exists_mem_list_of_entitled mem
  exact seeded.storable (seeded.mem_list_iff.mp listed) p mem

/-- In a seeded store a user is entitled to the permissions of the roles it acts as. -/
theorem entitled_iff (seeded : s.Seeded) :
    p ∈ (s.entitled user).permissions ↔ ∃ r, s.ActsAs user r ∧ p ∈ r.permissions :=
  mem_entitled_iff seeded.toLawful seeded.unique seeded.every_storable

/-- What is given in permissions that a store holds already is kept as it is. -/
theorem widens_of_subset (seeded : s.Seeded)
    (kept : ∀ r, s.find? id = some r → r.permissions ⊆ permissions) :
    (RoleCall.setPermissions id permissions).Widens s := by
  exact .setPermissions fun r found p mem => List.mem_map.mpr
    ⟨p, kept r found mem, Permission.on_of_check (seeded.storable found p mem)⟩

/-- A call that takes nothing away leaves every user entitled to all it was entitled to. -/
theorem entitled_subset (seeded : s.Seeded) (widens : call.Widens s)
    (done : (call.change o).run (.start s) = (.ok (), c)) (user : UserId) :
    (s.entitled user).permissions ⊆ (c.store.entitled user).permissions := by
  intro p mem
  obtain ⟨r, acts, mem⟩ := seeded.entitled_iff.mp mem
  obtain ⟨r', acts', more⟩ := acts.of_widens widens done
  exact (seeded.change done).entitled_iff.mpr ⟨r', acts', more mem⟩

end Seeded

end RoleStore

end Gatehouse
