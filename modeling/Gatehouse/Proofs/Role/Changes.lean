import Gatehouse.Proofs.Attempt
import Gatehouse.Proofs.Role.Store
import Gatehouse.Role.Administration

/-!
What the six changes of roles do.

For each change one lemma says all that follows from its success: what the store was asked and
answered, the new store and the events. Whether calls fail by an outage makes no difference to it.
-/

namespace Gatehouse

/-! ### The calls of the administration -/

/-- A change of roles, as it is asked for. -/
inductive RoleCall where
  | createRole (r : Role)
  | setPermissions (id : RoleId) (permissions : List Permission)
  | deleteRole (id : RoleId)
  | assignRole (user : UserId) (id : RoleId)
  | revokeRole (user : UserId) (id : RoleId)
  | deleteUser (user : UserId)
  deriving Repr, DecidableEq

/-- What a call does. -/
def RoleCall.change : RoleCall → Outage → Attempt Change Unit
  | .createRole r, o => Administration.createRole o r
  | .setPermissions id permissions, o => Administration.setPermissions o id permissions
  | .deleteRole id, o => Administration.deleteRole o id
  | .assignRole user id, o => Administration.assignRole o user id
  | .revokeRole user id, o => Administration.revokeRole o user id
  | .deleteUser user, o => Administration.deleteUser o user

/-- The users that an event is about: for a role, those it is assigned to. -/
def Event.audience (roles : RoleStore) : Event → List UserId
  | .rolePermissionsChanged id => roles.holders id
  | .userRoleAssigned user | .userDeleted user => [user]

namespace Administration

open Attempt

variable {o : Outage} {s : RoleStore} {c c' : Change} {user : UserId} {id : RoleId} {r : Role}
  {permissions : List Permission} {call : StoreCall}

/-! ### The parts of a change -/

theorem ask_eq_ok {α : Type} {answer : RoleStore → α} {a : α} :
    (ask o call answer).run c = (.ok a, c') ↔ o.stores call = false ∧ answer c.store = a ∧ c = c' := by
  have asked : (ask o call answer).run c = (o.reach call (answer c.store), c) := rfl
  rw [asked, Prod.mk.injEq, Outage.reach_eq_ok, and_assoc]

/-- A write ends as the store ends it, and leaves the store that it leaves. -/
theorem run_write {writing : Attempt RoleStore Unit} : (write o call writing).run c =
    if o.stores call then (.error (.storeDown call), c)
    else ((writing.run c.store).1, { c with store := (writing.run c.store).2 }) := by
  unfold write Outage.reach
  cases o.stores call <;> rfl

theorem write_eq_ok {writing : Attempt RoleStore Unit} : (write o call writing).run c = (.ok (), c') ↔
    o.stores call = false ∧ ∃ store, writing.run c.store = (.ok (), store) ∧ c' = { c with store } := by
  rw [run_write]
  rcases writing.run c.store with ⟨outcome, store⟩
  cases o.stores call <;> simp [eq_comm]

/-- A change goes on with the answer of the store. -/
theorem ask_bind_eq_ok {α β : Type} {answer : RoleStore → α} {f : α → Attempt Change β} {b : β} :
    Attempt.run (ask o call answer >>= f) c = (.ok b, c') ↔
      o.stores call = false ∧ (f (answer c.store)).run c = (.ok b, c') := by
  rw [run_bind_eq_ok]
  constructor
  · rintro ⟨_, _, asked, done⟩
    obtain ⟨up, rfl, rfl⟩ := ask_eq_ok.mp asked
    exact ⟨up, done⟩
  · rintro ⟨up, done⟩
    exact ⟨_, c, ask_eq_ok.mpr ⟨up, rfl, rfl⟩, done⟩

/-- A change goes on with the store that it has written. -/
theorem write_bind_eq_ok {β : Type} {writing : Attempt RoleStore Unit} {f : Unit → Attempt Change β}
    {b : β} : Attempt.run (write o call writing >>= f) c = (.ok b, c') ↔
      o.stores call = false ∧ ∃ store, writing.run c.store = (.ok (), store) ∧
        (f ()).run { c with store } = (.ok b, c') := by
  rw [run_bind_eq_ok]
  constructor
  · rintro ⟨_, _, wrote, done⟩
    obtain ⟨up, store, stored, rfl⟩ := write_eq_ok.mp wrote
    exact ⟨up, store, stored, done⟩
  · rintro ⟨up, store, stored, done⟩
    exact ⟨(), _, write_eq_ok.mpr ⟨up, store, stored, rfl⟩, done⟩

theorem run_publish (e : Event) :
    (publish e).run c = (.ok (), { c with events := c.events ++ [e] }) := rfl

theorem run_publishEach (users : List UserId) (e : UserId → Event) :
    Attempt.run (forM users fun user => publish (e user)) c =
      (.ok (), { c with events := c.events ++ users.map e }) := by
  induction users generalizing c with
  | nil => simp
  | cons user rest ih =>
      rw [List.forM_cons, run_bind_of_ok (run_publish (e user)), ih, List.append_assoc]
      rfl

theorem changeable_eq_ok (done : (changeable o id).run c = (.ok r, c')) :
    c.store.find? id = some r ∧ r.isSystem = false ∧ c' = c := by
  obtain ⟨_, done⟩ := ask_bind_eq_ok.mp done
  split at done
  · cases done
  rename_i r' stored
  split at done
  · cases done
  rename_i custom
  cases done
  exact ⟨stored, by simpa using custom, rfl⟩

/-! ### What follows from the success of each call -/

theorem createRole_eq_ok (done : (createRole o r).run (.start s) = (.ok (), c)) :
    r.isSystem = false ∧ r.name ≠ "" ∧ Permission.checkAll r.permissions = .ok () ∧
      s.find? r.id = none ∧ s.findNamed? r.name = none ∧ c = ⟨s.put r, []⟩ := by
  unfold createRole at done
  split at done
  · cases done
  rename_i custom
  split at done
  · cases done
  rename_i named
  obtain ⟨_, checked, done⟩ := run_lift_bind_eq_ok.mp done
  obtain ⟨_, done⟩ := ask_bind_eq_ok.mp done
  split at done
  · cases done
  rename_i freshId
  obtain ⟨_, done⟩ := ask_bind_eq_ok.mp done
  split at done
  · cases done
  rename_i freshName
  obtain ⟨_, _, stored, rfl⟩ := write_eq_ok.mp done
  cases stored
  refine ⟨by simpa using custom, named, checked, ?_, ?_, rfl⟩
  · simpa using freshId
  · simpa using freshName

/-- Permissions as they are stored: an empty resource pattern stands for every resource. -/
def stored (permissions : List Permission) : List Permission :=
  permissions.map fun p => Permission.on p.operation p.resource

theorem setPermissions_eq_ok (done : (setPermissions o id permissions).run (.start s) = (.ok (), c)) :
    Permission.checkAll (stored permissions) = .ok () ∧
      ∃ r, s.find? id = some r ∧ r.isSystem = false ∧
        c = ⟨{ s with roles := s.roles.adjust id fun r =>
          { r with permissions := stored permissions } }, [.rolePermissionsChanged id]⟩ := by
  obtain ⟨_, checked, done⟩ := run_lift_bind_eq_ok.mp done
  obtain ⟨r, _, changed, done⟩ := run_bind_eq_ok.mp done
  obtain ⟨found, custom, rfl⟩ := changeable_eq_ok changed
  obtain ⟨_, _, replaced, done⟩ := write_bind_eq_ok.mp done
  cases done
  unfold RoleStore.replacePermissions at replaced
  rw [run_get_bind] at replaced
  split at replaced
  · cases replaced
    exact ⟨checked, r, found, custom, rfl⟩
  · cases replaced

theorem deleteRole_eq_ok (done : (deleteRole o id).run (.start s) = (.ok (), c)) :
    ∃ r, s.find? id = some r ∧ r.isSystem = false ∧
      c = ⟨s.delete id, (s.holders id).map .userRoleAssigned⟩ := by
  obtain ⟨r, _, changed, done⟩ := run_bind_eq_ok.mp done
  obtain ⟨found, custom, rfl⟩ := changeable_eq_ok changed
  obtain ⟨_, done⟩ := ask_bind_eq_ok.mp done
  obtain ⟨_, _, deleted, done⟩ := write_bind_eq_ok.mp done
  cases deleted
  rw [run_publishEach] at done
  cases done
  exact ⟨r, found, custom, rfl⟩

theorem assignRole_eq_ok (done : (assignRole o user id).run (.start s) = (.ok (), c)) :
    s.roles.contains id = true ∧
      ∃ ids, (∀ id', id' ∈ ids ↔ id' = id ∨ id' ∈ s.assigned user) ∧
        c = ⟨{ s with assignments := s.assignments.insert user ids }, [.userRoleAssigned user]⟩ := by
  obtain ⟨_, _, assigned, done⟩ := write_bind_eq_ok.mp done
  cases done
  obtain ⟨known, ids, only, rfl⟩ := RoleStore.assign_eq_ok assigned
  exact ⟨known, ids, only, rfl⟩

theorem revokeRole_eq_ok (done : (revokeRole o user id).run (.start s) = (.ok (), c)) :
    c = ⟨s.revoke user id, [.userRoleAssigned user]⟩ := by
  obtain ⟨_, _, revoked, done⟩ := write_bind_eq_ok.mp done
  cases revoked
  cases done
  rfl

theorem deleteUser_eq_ok (done : (deleteUser o user).run (.start s) = (.ok (), c)) :
    c = ⟨s.removeUser user, [.userDeleted user]⟩ := by
  obtain ⟨_, _, removed, done⟩ := write_bind_eq_ok.mp done
  cases removed
  cases done
  rfl

end Administration

end Gatehouse
