import Gatehouse.Attempt
import Gatehouse.Role.Basic
import Gatehouse.Table

/-!
The stored roles and who has them.

Roles are stored by identifier, and every user has a set of assigned roles. Listings of roles and of
users ascend. The entitlements of a user come from the assigned roles, in the order of their
identifiers, and from the role of everyone, which comes last unless it is assigned.
-/

namespace Gatehouse

/-- The stored roles and assignments. -/
structure RoleStore where
  roles : Table RoleId Role
  /-- The roles of each user, without repeats and in no particular order. -/
  assignments : Table UserId (List RoleId)
  deriving Repr, DecidableEq

namespace RoleStore

/-- No role and no assignment. -/
def empty : RoleStore := ⟨.empty, .empty⟩

instance : Inhabited RoleStore := ⟨empty⟩

/-! ### Look-ups -/

/-- The role with an identifier. -/
def find? (s : RoleStore) (id : RoleId) : Option Role := s.roles.find? id

/-- The role with a name. -/
def findNamed? (s : RoleStore) (name : String) : Option Role :=
  s.roles.values.find? (·.name = name)

/-- All roles, by identifier. -/
def list (s : RoleStore) : List Role := s.roles.values

/-- The identifiers assigned to a user. -/
def assigned (s : RoleStore) (user : UserId) : List RoleId := (s.assignments.find? user).getD []

/-- The roles assigned to a user, by identifier. -/
def ofUser (s : RoleStore) (user : UserId) : List Role :=
  s.list.filter fun r => (s.assigned user).contains r.id

/-- The users that a role is assigned to, in ascending order. -/
def holders (s : RoleStore) (id : RoleId) : List UserId :=
  (s.assignments.filter fun _ ids => ids.contains id).keys

/-! ### Changes -/

/-- Stores a role, in the place of one with the same identifier. -/
def put (s : RoleStore) (r : Role) : RoleStore := { s with roles := s.roles.insert r.id r }

/-- Removes a role and its assignments. -/
def delete (s : RoleStore) (id : RoleId) : RoleStore :=
  ⟨s.roles.erase id, s.assignments.mapValues fun _ ids => ids.filter (· ≠ id)⟩

/-- Gives a stored role other permissions. -/
def replacePermissions (id : RoleId) (permissions : List Permission) : Attempt RoleStore Unit := do
  if (← get).roles.contains id then
    modify fun s => { s with roles := s.roles.adjust id fun r => { r with permissions } }
  else throw (.unknownRole id)

/-- Assigns a stored role to a user. -/
def assign (user : UserId) (id : RoleId) : Attempt RoleStore Unit := do
  if (← get).roles.contains id then
    modify fun s =>
      let ids := s.assigned user
      { s with assignments :=
        s.assignments.insert user (if ids.contains id then ids else id :: ids) }
  else throw (.unknownRole id)

/-- Takes a role from a user. -/
def revoke (s : RoleStore) (user : UserId) (id : RoleId) : RoleStore :=
  { s with assignments := s.assignments.adjust user fun ids => ids.filter (· ≠ id) }

/-- Takes every role from a user. -/
def removeUser (s : RoleStore) (user : UserId) : RoleStore :=
  { s with assignments := s.assignments.erase user }

/-! ### Entitlements -/

/-- The roles a user acts with: those assigned, and the role of everyone if it exists. -/
def effectiveRoles (o : Outage) (s : RoleStore) (user : UserId) : Except Error (List Role) := do
  let assigned ← o.reach .rolesForUser (s.ofUser user)
  if assigned.any (·.name = Role.everyone) then return assigned
  let everyone ← o.reach .findRoleByName (s.findNamed? Role.everyone)
  return assigned ++ everyone.toList

/-- What a user is entitled to. -/
def entitlements (o : Outage) (s : RoleStore) (user : UserId) : Except Error Entitlements :=
  Entitlements.ofRoles <$> s.effectiveRoles o user

/-! ### The roles of a new service -/

/-- The built-in roles: one may do everything, the other is everyone's. -/
def builtIn : RoleStore :=
  (empty.put ⟨1, "admin", "Administrator", true, [.everywhere "*:*:*"]⟩).put
    ⟨2, Role.everyone, "User", true, [.everywhere "self:*:*"]⟩

end RoleStore

end Gatehouse
