import Gatehouse.Proofs.Codec.Role
import Gatehouse.Proofs.Role.Changes

/-!
Role stores that are also written to directly, past the administration.

A direct write does what the store can do, asks nothing and tells nobody. All that is required of it is
that permissions come with a resource pattern. This is enough for what a user is entitled to to be read
back as it was written (`Resourced.decode?_entitled`), and both writes and changes keep it so
(`Resourced.write` and `Resourced.change`).
-/

namespace Gatehouse.RoleStore

variable {s s' : RoleStore} {o : Outage} {r : Role} {id : RoleId} {user : UserId}
  {permissions : List Permission}

/-! ### Direct writes -/

/-- A direct write to the store. -/
inductive Write where
  | put (r : Role)
  | delete (id : RoleId)
  | replacePermissions (id : RoleId) (permissions : List Permission)
  | assign (user : UserId) (id : RoleId)
  | revoke (user : UserId) (id : RoleId)
  | removeUser (user : UserId)
  deriving Repr, DecidableEq

/-- The store after a write, whether it was refused or not. -/
def Write.apply (s : RoleStore) : Write → RoleStore
  | .put r => s.put r
  | .delete id => s.delete id
  | .replacePermissions id permissions => ((RoleStore.replacePermissions id permissions).run s).2
  | .assign user id => ((RoleStore.assign user id).run s).2
  | .revoke user id => s.revoke user id
  | .removeUser user => s.removeUser user

/-- Permissions are replaced of a stored role; otherwise nothing happens. -/
theorem Write.apply_replacePermissions (s : RoleStore) (id : RoleId) (permissions : List Permission) :
    (replacePermissions id permissions).apply s =
        { s with roles := s.roles.adjust id fun r => { r with permissions } } ∨
      (replacePermissions id permissions).apply s = s := by
  unfold apply RoleStore.replacePermissions
  simp only [Attempt.run_get_bind]
  split
  · exact Or.inl rfl
  · exact Or.inr rfl

/-- A stored role is assigned, in addition to those of the user; otherwise nothing happens. -/
theorem Write.apply_assign (s : RoleStore) (user : UserId) (id : RoleId) :
    (s.roles.contains id = true ∧ ∃ ids, (∀ id', id' ∈ ids ↔ id' = id ∨ id' ∈ s.assigned user) ∧
        (assign user id).apply s = { s with assignments := s.assignments.insert user ids }) ∨
      s.roles.contains id = false ∧ (assign user id).apply s = s := by
  unfold apply
  simp only
  rcases done : (RoleStore.assign user id).run s with ⟨err | _, s'⟩
  · obtain rfl := assign_atomic user id s err s' done
    refine Or.inr ⟨?_, rfl⟩
    cases known : s'.roles.contains id with
    | false => rfl
    | true => simp [RoleStore.assign, Attempt.run_get_bind, known] at done
  · obtain ⟨known, ids, only, rfl⟩ := assign_eq_ok done
    exact Or.inl ⟨known, ids, only, rfl⟩

/-! ### Resource patterns -/

/-- The permissions that are written have a resource pattern. -/
def Write.Resourced : Write → Prop
  | .put r => ∀ p ∈ r.permissions, p.resource ≠ ""
  | .replacePermissions _ permissions => ∀ p ∈ permissions, p.resource ≠ ""
  | _ => True

instance (w : Write) : Decidable w.Resourced := by
  cases w <;> unfold Write.Resourced <;> infer_instance

/-- The permissions of every role have a resource pattern. -/
def Resourced (s : RoleStore) : Prop := ∀ r ∈ s.list, ∀ p ∈ r.permissions, p.resource ≠ ""

instance (s : RoleStore) : Decidable s.Resourced := by
  unfold Resourced; infer_instance

theorem resource_ne_empty_of_checkAll (checked : Permission.checkAll permissions = .ok ()) :
    ∀ p ∈ permissions, p.resource ≠ "" :=
  fun p mem => Permission.resource_ne_empty_of_check (Permission.check_of_checkAll checked p mem)

namespace Resourced

variable (resourced : s.Resourced)

include resourced

/-- What a user is entitled to is read back as it was written. -/
theorem decode?_entitled (user : UserId) :
    Json.decode? Entitlements.read (s.entitled user).toJson.compact = some (s.entitled user) := by
  refine Entitlements.decode?_compact fun p mem => ?_
  obtain ⟨r, listed, mem⟩ := exists_mem_list_of_entitled mem
  exact resourced r listed p mem

theorem put (given : ∀ p ∈ r.permissions, p.resource ≠ "") : (s.put r).Resourced := by
  intro r' listed
  rcases Table.mem_values_insert listed with rfl | before
  · exact given
  · exact resourced r' before

theorem delete : (s.delete id).Resourced :=
  fun r listed => resourced r (Table.mem_values_erase listed)

theorem adjustPermissions (given : ∀ p ∈ permissions, p.resource ≠ "") :
    Resourced { s with roles := s.roles.adjust id fun r => { r with permissions } } := by
  intro r' listed
  rcases Table.mem_values_adjust listed with before | ⟨r, _, rfl⟩
  · exact resourced r' before
  · exact given

theorem of_roles_eq (same : s'.roles = s.roles) : s'.Resourced := by
  unfold Resourced list
  rw [same]
  exact resourced

/-- Every write keeps a store's permissions with a resource pattern. -/
theorem write {w : Write} (given : w.Resourced) : (w.apply s).Resourced := by
  cases w with
  | put r => exact resourced.put given
  | delete id => exact resourced.delete
  | replacePermissions id permissions =>
      rcases Write.apply_replacePermissions s id permissions with replaced | same
      · rw [replaced]
        exact resourced.adjustPermissions given
      · rw [same]
        exact resourced
  | assign user id =>
      rcases Write.apply_assign s user id with ⟨_, ids, _, assigned⟩ | ⟨_, same⟩
      · rw [assigned]
        exact resourced.of_roles_eq rfl
      · rw [same]
        exact resourced
  | revoke user id => exact resourced.of_roles_eq rfl
  | removeUser user => exact resourced.of_roles_eq rfl

/-- Every change keeps them too: what it writes has been checked. -/
theorem change {call : RoleCall} {c : Change} (done : (call.change o).run (.start s) = (.ok (), c)) :
    c.store.Resourced := by
  cases call with
  | createRole r =>
      obtain ⟨_, _, checked, _, _, rfl⟩ := Administration.createRole_eq_ok done
      exact resourced.put (resource_ne_empty_of_checkAll checked)
  | setPermissions id permissions =>
      obtain ⟨checked, _, _, _, rfl⟩ := Administration.setPermissions_eq_ok done
      exact resourced.adjustPermissions (resource_ne_empty_of_checkAll checked)
  | deleteRole id =>
      obtain ⟨_, _, _, rfl⟩ := Administration.deleteRole_eq_ok done
      exact resourced.delete
  | assignRole user id =>
      obtain ⟨_, _, _, rfl⟩ := Administration.assignRole_eq_ok done
      exact resourced.of_roles_eq rfl
  | revokeRole user id =>
      obtain rfl := Administration.revokeRole_eq_ok done
      exact resourced.of_roles_eq rfl
  | deleteUser user =>
      obtain rfl := Administration.deleteUser_eq_ok done
      exact resourced.of_roles_eq rfl

end Resourced

end Gatehouse.RoleStore
