import Gatehouse.Proofs.Role.Changes

/-!
The rules that the administration keeps in a role store.

In an `Orderly` store names are unique and not empty, and every permission may be stored. Every change
keeps a store orderly (`Orderly.change`) and its system roles as they are (`systemRoles_change`). A rule
about single roles is kept by every write of a role that satisfies it (`Every.put` and its neighbours).
-/

namespace Gatehouse

/-- The permissions of a role may be stored. -/
def Role.Storable (r : Role) : Prop := ∀ p ∈ r.permissions, p.check = .ok ()

namespace RoleStore

variable {s : RoleStore} {P : Role → Prop} {o : Outage} {call : RoleCall} {c : Change}
  {id id' : RoleId} {r r' : Role} {permissions : List Permission}

/-! ### Rules about single roles -/

/-- Every stored role has a property. -/
def Every (P : Role → Prop) (s : RoleStore) : Prop := ∀ id r, s.find? id = some r → P r

namespace Every

theorem put (every : s.Every P) (holds : P r) : (s.put r).Every P := by
  intro id r' found
  simp only [RoleStore.put, find?, Table.find?_insert] at found
  split at found
  · cases found
    exact holds
  · exact every id r' found

/-- Replaced permissions matter for nothing but the role they are replaced of. -/
theorem adjustPermissions (every : s.Every P)
    (holds : ∀ r, P r → P { r with permissions }) :
    Every P { s with roles := s.roles.adjust id fun r => { r with permissions } } := by
  intro id' r' found
  simp only [find?, Table.find?_adjust] at found
  split at found
  · obtain ⟨old, stored, rfl⟩ := Option.map_eq_some_iff.mp found
    exact holds old (every id' old stored)
  · exact every id' r' found

theorem delete (every : s.Every P) : (s.delete id).Every P := by
  intro id' r' found
  simp only [RoleStore.delete, find?, Table.find?_erase] at found
  split at found
  · cases found
  · exact every id' r' found

end Every

/-! ### Unique names -/

/-- No two stored roles have one name. -/
def UniqueNames (s : RoleStore) : Prop :=
  ∀ id id' r r', s.find? id = some r → s.find? id' = some r' → r.name = r'.name → id = id'

namespace UniqueNames

variable (unique : s.UniqueNames)

include unique

/-- A new role has a new name. -/
theorem put (lawful : s.Lawful) (fresh : s.findNamed? r.name = none) : (s.put r).UniqueNames := by
  intro id id' r₁ r₂ found found' same
  simp only [RoleStore.put, find?, Table.find?_insert] at found found'
  split at found <;> split at found'
  · rename_i first second
    exact first.trans second.symm
  · cases found
    exact absurd same.symm (lawful.name_ne_of_findNamed? fresh found')
  · cases found'
    exact absurd same (lawful.name_ne_of_findNamed? fresh found)
  · exact unique id id' r₁ r₂ found found' same

/-- A role keeps its name when its permissions are replaced. -/
theorem adjustPermissions :
    UniqueNames { s with roles := s.roles.adjust id fun r => { r with permissions } } := by
  have unchanged : ∀ {id' r'}, (s.roles.adjust id fun r => { r with permissions }).find? id' =
      some r' → ∃ old, s.find? id' = some old ∧ old.name = r'.name := by
    intro id' r' found
    rw [Table.find?_adjust] at found
    split at found
    · obtain ⟨old, stored, rfl⟩ := Option.map_eq_some_iff.mp found
      exact ⟨old, stored, rfl⟩
    · exact ⟨r', found, rfl⟩
  intro id₁ id₂ r₁ r₂ found₁ found₂ same
  obtain ⟨old₁, stored₁, name₁⟩ := unchanged found₁
  obtain ⟨old₂, stored₂, name₂⟩ := unchanged found₂
  exact unique id₁ id₂ old₁ old₂ stored₁ stored₂ (name₁.trans (same.trans name₂.symm))

theorem delete : (s.delete id).UniqueNames := by
  intro id₁ id₂ r₁ r₂ found₁ found₂ same
  simp only [RoleStore.delete, find?, Table.find?_erase] at found₁ found₂
  split at found₁
  · cases found₁
  split at found₂
  · cases found₂
  exact unique id₁ id₂ r₁ r₂ found₁ found₂ same

end UniqueNames

/-! ### System roles -/

/-- The roles that are built in, by identifier. -/
def systemRoles (s : RoleStore) : List Role := s.list.filter (·.isSystem)

/-- No change makes, changes or removes a system role. -/
theorem systemRoles_change (lawful : s.Lawful) (done : (call.change o).run (.start s) = (.ok (), c)) :
    c.store.systemRoles = s.systemRoles := by
  have custom_of_mem : ∀ {id r}, s.find? id = some r → r.isSystem = false →
      ∀ r', (id, r') ∈ s.roles.entries → r'.isSystem = false := by
    intro id r found custom r' mem
    obtain rfl := lawful.eq_of_mem_entries found mem
    exact custom
  cases call with
  | createRole r =>
      obtain ⟨custom, _, _, freshId, _, rfl⟩ := Administration.createRole_eq_ok done
      refine Table.filter_values_insert (fun r' mem => ?_) custom
      have stored := lawful.find?_of_mem_entries mem
      rw [freshId] at stored
      cases stored
  | setPermissions id permissions =>
      obtain ⟨_, r, found, custom, rfl⟩ := Administration.setPermissions_eq_ok done
      refine Table.filter_values_adjust fun r' mem => ?_
      exact ⟨custom_of_mem found custom r' mem, custom_of_mem found custom r' mem⟩
  | deleteRole id =>
      obtain ⟨r, found, custom, rfl⟩ := Administration.deleteRole_eq_ok done
      exact Table.filter_values_erase (custom_of_mem found custom)
  | assignRole user id =>
      obtain ⟨_, _, _, rfl⟩ := Administration.assignRole_eq_ok done
      rfl
  | revokeRole user id =>
      obtain rfl := Administration.revokeRole_eq_ok done
      rfl
  | deleteUser user =>
      obtain rfl := Administration.deleteUser_eq_ok done
      rfl

/-! ### Orderly stores -/

/-- Names are unique and not empty, and every permission may be stored. -/
structure Orderly (s : RoleStore) : Prop extends s.Lawful where
  uniqueNames : s.UniqueNames
  named : s.Every fun r => r.name ≠ ""
  storable : s.Every Role.Storable

/-- Every change keeps a store orderly. -/
theorem Orderly.change (orderly : s.Orderly) (done : (call.change o).run (.start s) = (.ok (), c)) :
    c.store.Orderly := by
  cases call with
  | createRole r =>
      obtain ⟨_, named, checked, _, freshName, rfl⟩ := Administration.createRole_eq_ok done
      exact ⟨orderly.toLawful.put, orderly.uniqueNames.put orderly.toLawful freshName,
        orderly.named.put named, orderly.storable.put (Permission.check_of_checkAll checked)⟩
  | setPermissions id permissions =>
      obtain ⟨checked, r, _, _, rfl⟩ := Administration.setPermissions_eq_ok done
      exact ⟨orderly.toLawful.adjustPermissions _, orderly.uniqueNames.adjustPermissions,
        orderly.named.adjustPermissions fun _ named => named,
        orderly.storable.adjustPermissions fun _ _ => Permission.check_of_checkAll checked⟩
  | deleteRole id =>
      obtain ⟨r, _, _, rfl⟩ := Administration.deleteRole_eq_ok done
      exact ⟨orderly.toLawful.delete, orderly.uniqueNames.delete, orderly.named.delete,
        orderly.storable.delete⟩
  | assignRole user id =>
      obtain ⟨_, ids, _, rfl⟩ := Administration.assignRole_eq_ok done
      exact ⟨orderly.toLawful.assignTo ids, orderly.uniqueNames, orderly.named, orderly.storable⟩
  | revokeRole user id =>
      obtain rfl := Administration.revokeRole_eq_ok done
      exact ⟨orderly.toLawful.revoke, orderly.uniqueNames, orderly.named, orderly.storable⟩
  | deleteUser user =>
      obtain rfl := Administration.deleteUser_eq_ok done
      exact ⟨orderly.toLawful.removeUser, orderly.uniqueNames, orderly.named, orderly.storable⟩

end RoleStore

end Gatehouse
