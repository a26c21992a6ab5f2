import Gatehouse.Proofs.Role.Changes

/-!
Which changes of roles are made, and what they leave alone.

Every call to the administration asks and checks before it writes, and publishes after that. It writes once, the
store checks what it is asked to write before it writes it (`RoleStore.assign_atomic`), and what follows cannot fail.
So a call that fails leaves the store as it was and publishes nothing (`RoleCall.change_atomic`). While the stores
answer, a call succeeds exactly when it is admissible (`RoleCall.change_ok_iff`): what it writes may be stored, and
what it changes may be changed. Permissions that are set are those of one role, and nothing else is different
afterwards (`RoleStore.repermits_of_setPermissions`).
-/

namespace Gatehouse

open Attempt

variable {o : Outage} {s s' : RoleStore} {c : Change} {id : RoleId} {r : Role} {user : UserId}
  {permissions : List Permission} {call : StoreCall}

/-! ### Calls that fail -/

namespace Administration

theorem ask_looks {α : Type} (answer : RoleStore → α) : Looks (ask o call answer) :=
  looks_get.bind fun _ => looks_lift _

/-- A write that fails leaves no trace if the store leaves none. -/
theorem write_atomic {writing : Attempt RoleStore Unit} (atomic : writing.Atomic) :
    Atomic (write o call writing) := by
  intro c err c' failed
  rw [run_write] at failed
  rcases ended : writing.run c.store with ⟨outcome, store⟩
  rw [ended] at failed
  split at failed <;> cases failed
  · rfl
  · obtain rfl := atomic c.store err store ended
    rfl

theorem publish_succeeds (e : Event) : Succeeds (publish e) := succeeds_modify _

theorem changeable_looks : Looks (changeable o id) := by
  refine (ask_looks _).bind fun found => ?_
  split
  · exact looks_throw _
  · split
    · exact looks_throw _
    · exact looks_pure _

theorem createRole_atomic : Atomic (createRole o r) := by
  unfold createRole
  split
  · exact (looks_throw _).atomic
  split
  · exact (looks_throw _).atomic
  refine (looks_lift _).bind_atomic fun _ => (ask_looks _).bind_atomic fun _ => ?_
  split
  · exact (looks_throw _).atomic
  refine (ask_looks _).bind_atomic fun _ => ?_
  split
  · exact (looks_throw _).atomic
  · exact write_atomic (succeeds_modify _).atomic

theorem setPermissions_atomic : Atomic (setPermissions o id permissions) :=
  (looks_lift _).bind_atomic fun _ => changeable_looks.bind_atomic fun _ =>
    (write_atomic (RoleStore.replacePermissions_atomic _ _)).bind_succeeds fun _ => publish_succeeds _

theorem deleteRole_atomic : Atomic (deleteRole o id) := by
  refine changeable_looks.bind_atomic fun _ => (ask_looks _).bind_atomic fun users => ?_
  exact (write_atomic (succeeds_modify _).atomic).bind_succeeds fun _ c => ⟨(), _, run_publishEach users _⟩

theorem assignRole_atomic : Atomic (assignRole o user id) :=
  (write_atomic (RoleStore.assign_atomic _ _)).bind_succeeds fun _ => publish_succeeds _

theorem revokeRole_atomic : Atomic (revokeRole o user id) :=
  (write_atomic (succeeds_modify _).atomic).bind_succeeds fun _ => publish_succeeds _

theorem deleteUser_atomic : Atomic (deleteUser o user) :=
  (write_atomic (succeeds_modify _).atomic).bind_succeeds fun _ => publish_succeeds _

end Administration

/-- A call that fails leaves the store as it was and publishes nothing. -/
theorem RoleCall.change_atomic (call : RoleCall) : Atomic (call.change o) := by
  cases call with
  | createRole r => exact Administration.createRole_atomic
  | setPermissions id permissions => exact Administration.setPermissions_atomic
  | deleteRole id => exact Administration.deleteRole_atomic
  | assignRole user id => exact Administration.assignRole_atomic
  | revokeRole user id => exact Administration.revokeRole_atomic
  | deleteUser user => exact Administration.deleteUser_atomic

/-! ### Admissible calls -/

/-- A stored role that is not built in. -/
def RoleStore.Custom (s : RoleStore) (id : RoleId) : Prop :=
  ∃ r, s.find? id = some r ∧ r.isSystem = false

/-- A role that may be created: it is not built in, has a name and permissions that may be stored, and
neither its identifier nor its name is taken. -/
structure RoleStore.Accepts (s : RoleStore) (r : Role) : Prop where
  custom : r.isSystem = false
  named : r.name ≠ ""
  storable : Permission.checkAll r.permissions = .ok ()
  freshId : s.find? r.id = none
  freshName : s.findNamed? r.name = none

/-- What a call to the administration requires. -/
def RoleCall.Admissible (s : RoleStore) : RoleCall → Prop
  | .createRole r => s.Accepts r
  | .setPermissions id permissions =>
    Permission.checkAll (Administration.stored permissions) = .ok () ∧ s.Custom id
  | .deleteRole id => s.Custom id
  | .assignRole _ id => ∃ r, s.find? id = some r
  | .revokeRole .. | .deleteUser _ => True

theorem RoleCall.admissible_of_ok {call : RoleCall} (done : (call.change o).run (.start s) = (.ok (), c)) :
    call.Admissible s := by
  cases call with
  | createRole r =>
      obtain ⟨custom, named, storable, freshId, freshName, _⟩ :=
        Administration.createRole_eq_ok done
      exact ⟨custom, named, storable, freshId, freshName⟩
  | setPermissions id permissions =>
      obtain ⟨storable, r, found, custom, _⟩ := Administration.setPermissions_eq_ok done
      exact ⟨storable, r, found, custom⟩
  | deleteRole id =>
      obtain ⟨r, found, custom, _⟩ := Administration.deleteRole_eq_ok done
      exact ⟨r, found, custom⟩
  | assignRole user id =>
      obtain ⟨known, _⟩ := Administration.assignRole_eq_ok done
      exact Option.isSome_iff_exists.mp known
  | revokeRole user id => trivial
  | deleteUser user => trivial

section Up

variable (up : o.stores = fun _ => false)

include up

theorem Administration.changeable_of_custom (found : c.store.find? id = some r)
    (custom : r.isSystem = false) : (changeable o id).run c = (.ok r, c) := by
  refine ask_bind_eq_ok.mpr ⟨congrFun up _, ?_⟩
  simp only [found, custom, Bool.false_eq_true, if_false, run_pure]

/-- While the stores answer, nothing but the rules stands in the way of a call. -/
theorem RoleCall.ok_of_admissible {call : RoleCall} (admissible : call.Admissible s) :
    ∃ c, (call.change o).run (.start s) = (.ok (), c) := by
  have answers : ∀ call, o.stores call = false := congrFun up
  cases call with
  | createRole r =>
      obtain ⟨custom, named, storable, freshId, freshName⟩ := admissible
      refine ⟨⟨s.put r, []⟩, ?_⟩
      simp only [change, Administration.createRole, custom, named, Bool.false_eq_true, if_false]
      refine run_lift_bind_eq_ok.mpr ⟨(), storable, Administration.ask_bind_eq_ok.mpr ⟨answers _, ?_⟩⟩
      rw [Change.start_store, freshId, Option.isSome_none, if_neg Bool.false_ne_true]
      refine Administration.ask_bind_eq_ok.mpr ⟨answers _, ?_⟩
      rw [Change.start_store, freshName, Option.isSome_none, if_neg Bool.false_ne_true]
      exact Administration.write_eq_ok.mpr ⟨answers _, s.put r, rfl, rfl⟩
  | setPermissions id permissions =>
      obtain ⟨storable, r, found, custom⟩ := admissible
      have changeable := Administration.changeable_of_custom (c := .start s) up found custom
      obtain ⟨_, replaced⟩ := RoleStore.replacePermissions_of_known (Administration.stored permissions)
        (Option.isSome_iff_exists.mpr ⟨r, found⟩)
      exact ⟨_, run_lift_bind_eq_ok.mpr ⟨(), storable, (run_bind_of_ok changeable).trans
        (Administration.write_bind_eq_ok.mpr ⟨answers _, _, replaced, rfl⟩)⟩⟩
  | deleteRole id =>
      obtain ⟨r, found, custom⟩ := admissible
      have changeable := Administration.changeable_of_custom (c := .start s) up found custom
      refine ⟨⟨s.delete id, (s.holders id).map .userRoleAssigned⟩, (run_bind_of_ok changeable).trans ?_⟩
      refine Administration.ask_bind_eq_ok.mpr ⟨answers _, ?_⟩
      refine Administration.write_bind_eq_ok.mpr ⟨answers _, s.delete id, rfl, ?_⟩
      exact Administration.run_publishEach _ _
  | assignRole user id =>
      obtain ⟨_, assigned⟩ := RoleStore.assign_of_known user (Option.isSome_iff_exists.mpr admissible)
      exact ⟨_, Administration.write_bind_eq_ok.mpr ⟨answers _, _, assigned, rfl⟩⟩
  | revokeRole user id =>
      exact ⟨_, Administration.write_bind_eq_ok.mpr ⟨answers _, s.revoke user id, rfl, rfl⟩⟩
  | deleteUser user =>
      exact ⟨_, Administration.write_bind_eq_ok.mpr ⟨answers _, s.removeUser user, rfl, rfl⟩⟩

theorem RoleCall.change_ok_iff {call : RoleCall} :
    (∃ c, (call.change o).run (.start s) = (.ok (), c)) ↔ call.Admissible s := by
  constructor
  · rintro ⟨c, done⟩
    exact admissible_of_ok done
  · exact ok_of_admissible up

end Up

/-! ### Other permissions of a role -/

/-- A store in which one role that is not built in has other permissions, and nothing else is
different. -/
structure RoleStore.Repermits (s : RoleStore) (id : RoleId) (permissions : List Permission)
    (s' : RoleStore) : Prop where
  replaced : ∃ r, s.find? id = some r ∧ r.isSystem = false ∧
    s'.find? id = some { r with permissions }
  others : ∀ id', id' ≠ id → s'.find? id' = s.find? id'
  listed : s'.roles.keys = s.roles.keys
  assigned : s'.assignments = s.assignments

theorem RoleStore.repermits_of_setPermissions
    (done : (Administration.setPermissions o id permissions).run (.start s) = (.ok (), c)) :
    s.Repermits id (Administration.stored permissions) c.store := by
  obtain ⟨_, r, found, custom, rfl⟩ := Administration.setPermissions_eq_ok done
  refine ⟨⟨r, found, custom, ?_⟩, fun id' other => ?_, Table.keys_adjust .., rfl⟩
  · have adjusted := Table.find?_adjust s.roles id id fun r =>
      { r with permissions := Administration.stored permissions }
    rw [if_pos rfl] at adjusted
    unfold find? at found ⊢
    rw [adjusted, found]
    rfl
  · have adjusted := Table.find?_adjust s.roles id id' fun r =>
      { r with permissions := Administration.stored permissions }
    rw [if_neg other] at adjusted
    exact adjusted

end Gatehouse
