import Gatehouse.Event.Basic
import Gatehouse.Role.Store

/-!
Changes of roles and assignments, as administrators make them.

A change asks the store what it needs to know, writes to it, and publishes events that tell of what it wrote. It
works on the store and on the list of its events; a call that fails ends it, and what was written and published
before that remains. What is written has been checked: names are unique and not empty, permissions may be stored,
and system roles stay as they are.
-/

namespace Gatehouse

/-- What a change works on. -/
structure Change where
  store : RoleStore
  /-- The events to publish, in order. -/
  events : List Event
  deriving Repr, DecidableEq

namespace Change

/-- Nothing is changed yet. -/
def start (store : RoleStore) : Change := ⟨store, []⟩

@[simp] theorem start_store (store : RoleStore) : (start store).store = store := rfl

end Change

namespace Administration

/-! ### What changes are made of -/

/-- Asks the store. -/
def ask {α : Type} (o : Outage) (call : StoreCall) (answer : RoleStore → α) : Attempt Change α := do
  o.reach call (answer (← get).store)

/-- Has the store write something. It may refuse to; what it has written stays. -/
def write (o : Outage) (call : StoreCall) (writing : Attempt RoleStore Unit) : Attempt Change Unit := do
  o.reach call ()
  let (outcome, store) := writing.run (← get).store
  modify ({ · with store })
  outcome

/-- Publishes an event. -/
def publish (e : Event) : Attempt Change Unit := modify fun c => { c with events := c.events ++ [e] }

/-- The role with an identifier, if it may be changed. -/
def changeable (o : Outage) (id : RoleId) : Attempt Change Role := do
  match ← ask o .getRole (·.find? id) with
  | none => throw (.unknownRole id)
  | some r => if r.isSystem then throw (.systemRoleFixed r.name) else return r

/-! ### The changes -/

/-- Creates a role. -/
def createRole (o : Outage) (r : Role) : Attempt Change Unit := do
  if r.isSystem then throw .systemRoleCreated
  else if r.name = "" then throw .namelessRole
  else
    Permission.checkAll r.permissions
    if (← ask o .getRole (·.find? r.id)).isSome then throw (.roleIdTaken r.id)
    else if (← ask o .findRoleByName (·.findNamed? r.name)).isSome then throw (.roleNameTaken r.name)
    else write o .putRole (modify (·.put r))

/-- Replaces the permissions of a role; empty resource patterns stand for every resource. -/
def setPermissions (o : Outage) (id : RoleId) (permissions : List Permission) : Attempt Change Unit := do
  let permissions := permissions.map fun p => Permission.on p.operation p.resource
  Permission.checkAll permissions
  let _ ← changeable o id
  write o .replacePermissions (RoleStore.replacePermissions id permissions)
  publish (.rolePermissionsChanged id)

/-- Deletes a role. -/
def deleteRole (o : Outage) (id : RoleId) : Attempt Change Unit := do
  let _ ← changeable o id
  let holders ← ask o .userIdsWithRole (·.holders id)
  write o .deleteRole (modify (·.delete id))
  forM holders fun user => publish (.userRoleAssigned user)

/-- Assigns a role to a user. -/
def assignRole (o : Outage) (user : UserId) (id : RoleId) : Attempt Change Unit := do
  write o .assignRole (RoleStore.assign user id)
  publish (.userRoleAssigned user)

/-- Takes a role from a user. -/
def revokeRole (o : Outage) (user : UserId) (id : RoleId) : Attempt Change Unit := do
  write o .revokeRole (modify (·.revoke user id))
  publish (.userRoleAssigned user)

/-- Takes every role from a user. -/
def deleteUser (o : Outage) (user : UserId) : Attempt Change Unit := do
  write o .removeUser (modify (·.removeUser user))
  publish (.userDeleted user)

end Administration

end Gatehouse
