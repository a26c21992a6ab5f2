import Gatehouse.Proofs.Role.Index
import Gatehouse.Proofs.Role.Rules

/-!
Role stores as a service starts with them, and what changes of roles do to them.

In a `Seeded` store names are unique, permissions may be stored, assignments name stored roles, and
the role of everyone is a system role. Every change keeps a seeded store seeded (`Seeded.change`),
and leaves what a user is entitled to as it was unless one of its events is about the user
(`Seeded.entitled_of_untold`).
-/

namespace Gatehouse.RoleStore

/-- A store in which every role is as it may be stored and the role of everyone is built in. -/
structure Seeded (s : RoleStore) : Prop extends s.Lawful where
  uniqueNames : ∀ {id id' r r'}, s.find? id = some r → s.find? id' = some r' →
    r.name = r'.name → id = id'
  storable : ∀ {id r}, s.find? id = some r → ∀ p ∈ r.permissions, p.check = .ok ()
  assignedStored : ∀ {user id}, id ∈ s.assigned user → ∃ r, s.find? id = some r
  everyone : ∃ id r, s.find? id = some r ∧ r.name = Role.everyone ∧ r.isSystem = true

/-- The roles of a new service. -/
theorem seeded_builtIn : builtIn.Seeded := by
  have lawful : builtIn.Lawful := lawful_empty.put.put
  have list : builtIn.list = [⟨1, "admin", "Administrator", true, [.everywhere "*:*:*"]⟩,
      ⟨2, Role.everyone, "User", true, [.everywhere "self:*:*"]⟩] := by decide
  refine ⟨lawful, ?_, ?_, ?_, ⟨2, _, rfl, rfl, rfl⟩⟩
  · intro id id' r r' found found' same
    have distinct : ∀ r ∈ builtIn.list, ∀ r' ∈ builtIn.list, r.name = r'.name → r.id = r'.id := by
      rw [list]
      decide
    rw [← lawful.ownId id r found, ← lawful.ownId id' r' found']
    exact distinct r (lawful.mem_list_of_find? found) r' (lawful.mem_list_of_find? found') same
  · intro id r found
    have storable : ∀ r ∈ builtIn.list, ∀ p ∈ r.permissions, p.check = .ok () := by
      rw [list]
      decide
    exact storable r (lawful.mem_list_of_find? found)
  · intro user id mem
    cases mem

namespace Seeded

variable {s : RoleStore} {o : Outage} {call : RoleCall} {c : Change} {user : UserId} {id : RoleId}
  {r : Role} {permissions : List Permission}

/-! ### Every change keeps a store seeded -/

/-- A role that may be changed is not that of everyone. -/
theorem name_ne_everyone (seeded : s.Seeded) (found : s.find? id = some r)
    (custom : r.isSystem = false) : r.name ≠ Role.everyone := by
  intro name
  obtain ⟨id', r', found', name', system⟩ := seeded.everyone
  have same := seeded.uniqueNames found found' (name.trans name'.symm)
  rw [same, found'] at found
  cases found
  rw [custom] at system
  cases system

/-- The role of everyone is another than one that may be changed. -/
theorem exists_everyone_ne (seeded : s.Seeded) (found : s.find? id = some r)
    (custom : r.isSystem = false) : ∃ id' r', id' ≠ id ∧ s.find? id' = some r' ∧
      r'.name = Role.everyone ∧ r'.isSystem = true := by
  obtain ⟨id', r', found', name, system⟩ := seeded.everyone
  refine ⟨id', r', ?_, found', name, system⟩
  rintro rfl
  rw [found'] at found
  cases found
  exact seeded.name_ne_everyone found' custom name

/-- What the administration keeps in every store, a seeded one has too. -/
theorem unique (seeded : s.Seeded) : s.UniqueNames :=
  fun _ _ _ _ found found' same => seeded.uniqueNames found found' same

theorem every_storable (seeded : s.Seeded) : s.Every Role.Storable :=
  fun _ _ found => seeded.storable found

theorem linked (seeded : s.Seeded) : s.Linked :=
  ⟨seeded.toLawful, fun mem => Option.isSome_iff_exists.mpr (seeded.assignedStored mem)⟩

theorem put (seeded : s.Seeded) (checked : Permission.checkAll r.permissions = .ok ())
    (freshId : s.find? r.id = none) (freshName : s.findNamed? r.name = none) :
    (s.put r).Seeded where
  toLawful := seeded.toLawful.put
  uniqueNames := seeded.unique.put seeded.toLawful freshName _ _ _ _
  storable := seeded.every_storable.put (Permission.check_of_checkAll checked) _ _
  assignedStored mem := Option.isSome_iff_exists.mp ((seeded.linked.write (.put r)).stored mem)
  everyone := by
    obtain ⟨id, r', found, name, system⟩ := seeded.everyone
    have other : id ≠ r.id := by
      rintro rfl
      rw [freshId] at found
      cases found
    exact ⟨id, r', (Table.find?_insert_of_ne s.roles r other).trans found, name, system⟩

theorem adjustPermissions (seeded : s.Seeded) (found : s.find? id = some r)
    (custom : r.isSystem = false) (checked : Permission.checkAll permissions = .ok ()) :
    Seeded { s with roles := s.roles.adjust id fun r => { r with permissions } } where
  toLawful := seeded.toLawful.adjustPermissions permissions
  uniqueNames := seeded.unique.adjustPermissions _ _ _ _
  storable :=
    seeded.every_storable.adjustPermissions (fun _ _ => Permission.check_of_checkAll checked) _ _
  assignedStored := by
    intro user id' mem
    obtain ⟨r', found'⟩ := seeded.assignedStored mem
    simp only [find?, Table.find?_adjust]
    split
    · exact ⟨_, Option.map_eq_some_iff.mpr ⟨r', found', rfl⟩⟩
    · exact ⟨r', found'⟩
  everyone := by
    obtain ⟨id', r', other, found', name, system⟩ := seeded.exists_everyone_ne found custom
    refine ⟨id', r', ?_, name, system⟩
    simp only [find?, Table.find?_adjust, if_neg other]
    exact found'

theorem delete (seeded : s.Seeded) (found : s.find? id = some r) (custom : r.isSystem = false) :
    (s.delete id).Seeded where
  toLawful := seeded.toLawful.delete
  uniqueNames := seeded.unique.delete _ _ _ _
  storable := seeded.every_storable.delete _ _
  assignedStored mem := Option.isSome_iff_exists.mp ((seeded.linked.write (.delete id)).stored mem)
  everyone := by
    obtain ⟨id', r', other, found', name, system⟩ := seeded.exists_everyone_ne found custom
    refine ⟨id', r', ?_, name, system⟩
    simp only [RoleStore.delete, find?, Table.find?_erase, if_neg other]
    exact found'

/-- Other assignments of stored roles keep a store seeded. -/
theorem reassign (seeded : s.Seeded) {s' : RoleStore} (linked : s'.Linked)
    (roles : s'.roles = s.roles) : s'.Seeded := by
  have same : s'.find? = s.find? := by
    unfold find?
    rw [roles]
  exact {
    toLawful := linked.toLawful
    uniqueNames := by rw [same]; exact seeded.uniqueNames
    storable := by rw [same]; exact seeded.storable
    assignedStored := fun mem => Option.isSome_iff_exists.mp (linked.stored mem)
    everyone := by rw [same]; exact seeded.everyone }

/-- Every change keeps a seeded store seeded. -/
theorem change (seeded : s.Seeded) (done : (call.change o).run (.start s) = (.ok (), c)) : c.store.Seeded := by
  cases call with
  | createRole r =>
      obtain ⟨_, _, checked, freshId, freshName, rfl⟩ := Administration.createRole_eq_ok done
      exact seeded.put checked freshId freshName
  | setPermissions id permissions =>
      obtain ⟨checked, r, found, custom, rfl⟩ := Administration.setPermissions_eq_ok done
      exact seeded.adjustPermissions found custom checked
  | deleteRole id =>
      obtain ⟨r, found, custom, rfl⟩ := Administration.deleteRole_eq_ok done
      exact seeded.delete found custom
  | assignRole user id =>
      obtain ⟨known, ids, only, rfl⟩ := Administration.assignRole_eq_ok done
      refine seeded.reassign ⟨seeded.assignTo ids, fun {user' id'} mem => ?_⟩ rfl
      rw [assigned_insert] at mem
      split at mem
      · rcases (only id').mp mem with rfl | before
        · exact known
        · exact seeded.linked.stored before
      · exact seeded.linked.stored mem
  | revokeRole user id =>
      obtain rfl := Administration.revokeRole_eq_ok done
      exact seeded.reassign (seeded.linked.write (.revoke user id)) rfl
  | deleteUser user =>
      obtain rfl := Administration.deleteUser_eq_ok done
      exact seeded.reassign (seeded.linked.write (.removeUser user)) rfl

/-! ### Entitlements change only for those who are told -/

/-- A role that everyone does not have by name is not looked at for it. -/
theorem entitled_put (seeded : s.Seeded) (freshId : s.find? r.id = none)
    (freshName : s.findNamed? r.name = none) (user : UserId) :
    (s.put r).entitled user = s.entitled user := by
  have absent : ∀ r', (r.id, r') ∉ s.roles.entries := by
    intro r' mem
    rw [seeded.find?_of_mem_entries mem] at freshId
    cases freshId
  refine entitled_congr ?_ ?_
  · refine Table.filter_values_insert (fun r' mem => absurd mem (absent r')) ?_
    have unassigned : r.id ∉ s.assigned user := by
      intro mem
      obtain ⟨r', found⟩ := seeded.assignedStored mem
      rw [freshId] at found
      cases found
    simpa [RoleStore.put, assigned] using unassigned
  · obtain ⟨id, r', found, name, _⟩ := seeded.everyone
    have other : r.name ≠ Role.everyone := by
      rw [← name]
      exact (seeded.name_ne_of_findNamed? freshName found).symm
    rw [findNamed?_eq_head?, findNamed?_eq_head?]
    exact congrArg List.head? (Table.filter_values_insert
      (fun r' mem => absurd mem (absent r')) (by simpa using other))

theorem entitled_adjustPermissions (seeded : s.Seeded) (found : s.find? id = some r)
    (custom : r.isSystem = false) (unassigned : id ∉ s.assigned user) :
    entitled { s with roles := s.roles.adjust id fun r => { r with permissions } } user =
      s.entitled user := by
  have own := seeded.ownId id r found
  refine entitled_congr ?_ ?_
  · refine Table.filter_values_adjust fun r' mem => ?_
    obtain rfl := seeded.eq_of_mem_entries found mem
    simpa [own, assigned] using unassigned
  · have other := seeded.name_ne_everyone found custom
    rw [findNamed?_eq_head?, findNamed?_eq_head?]
    refine congrArg List.head? (Table.filter_values_adjust fun r' mem => ?_)
    obtain rfl := seeded.eq_of_mem_entries found mem
    simpa using other

theorem entitled_delete (seeded : s.Seeded) (found : s.find? id = some r)
    (custom : r.isSystem = false) (unassigned : id ∉ s.assigned user) :
    (s.delete id).entitled user = s.entitled user := by
  have own := seeded.ownId id r found
  have same : (s.delete id).assigned user = s.assigned user := by
    rw [assigned_delete, List.filter_eq_self]
    intro id' mem
    have other : id' ≠ id := by
      rintro rfl
      exact unassigned mem
    simpa using other
  refine entitled_congr ?_ ?_
  · unfold ofUser
    rw [same]
    refine Table.filter_values_erase fun r' mem => ?_
    obtain rfl := seeded.eq_of_mem_entries found mem
    simpa [own] using unassigned
  · have other := seeded.name_ne_everyone found custom
    rw [findNamed?_eq_head?, findNamed?_eq_head?]
    refine congrArg List.head? (Table.filter_values_erase fun r' mem => ?_)
    obtain rfl := seeded.eq_of_mem_entries found mem
    simpa using other

/-- Assignments to others change nothing for a user. -/
theorem entitled_reassign {s' : RoleStore} (roles : s'.roles = s.roles)
    (same : s'.assigned user = s.assigned user) : s'.entitled user = s.entitled user := by
  refine entitled_congr ?_ ?_
  · unfold ofUser list
    rw [roles, same]
  · unfold findNamed?
    rw [roles]

/-- A change leaves what a user is entitled to as it was, unless one of its events is about the
user. -/
theorem entitled_of_untold (seeded : s.Seeded) (done : (call.change o).run (.start s) = (.ok (), c))
    (untold : ∀ e ∈ c.events, user ∉ e.audience c.store) :
    c.store.entitled user = s.entitled user := by
  cases call with
  | createRole r =>
      obtain ⟨_, _, _, freshId, freshName, rfl⟩ := Administration.createRole_eq_ok done
      exact seeded.entitled_put freshId freshName user
  | setPermissions id permissions =>
      have seeded' := seeded.change done
      obtain ⟨_, r, found, custom, rfl⟩ := Administration.setPermissions_eq_ok done
      have absent := untold _ (List.mem_singleton_self _)
      exact seeded.entitled_adjustPermissions found custom (mt seeded'.mem_holders_iff.mpr absent)
  | deleteRole id =>
      obtain ⟨r, found, custom, rfl⟩ := Administration.deleteRole_eq_ok done
      refine seeded.entitled_delete found custom fun assigned => ?_
      have told := List.mem_map_of_mem (f := Event.userRoleAssigned)
        (seeded.mem_holders_iff.mpr assigned)
      exact untold _ told (List.mem_singleton_self user)
  | assignRole user' id =>
      obtain ⟨_, ids, _, rfl⟩ := Administration.assignRole_eq_ok done
      have other : user ≠ user' := mt List.mem_singleton.mpr (untold _ (List.mem_singleton_self _))
      exact entitled_reassign rfl ((assigned_insert ..).trans (if_neg other))
  | revokeRole user' id =>
      obtain rfl := Administration.revokeRole_eq_ok done
      have other : user ≠ user' := mt List.mem_singleton.mpr (untold _ (List.mem_singleton_self _))
      exact entitled_reassign rfl ((assigned_revoke ..).trans (if_neg other))
  | deleteUser user' =>
      obtain rfl := Administration.deleteUser_eq_ok done
      have other : user ≠ user' := mt List.mem_singleton.mpr (untold _ (List.mem_singleton_self _))
      exact entitled_reassign rfl ((assigned_removeUser ..).trans (if_neg other))

theorem resourced (seeded : s.Seeded) : s.Resourced := by
  intro r listed p mem
  exact Permission.resource_ne_empty_of_check (seeded.storable (seeded.mem_list_iff.mp listed) p mem)

end Seeded

end Gatehouse.RoleStore
