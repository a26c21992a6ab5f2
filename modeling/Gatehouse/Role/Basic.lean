import Gatehouse.Permission

/-!
Roles and what they entitle to.

A role is a named list of permissions. What a user is entitled to are the names of the user's roles
and the permissions of all of them, each once.
-/

namespace Gatehouse

/-- A named list of permissions. -/
structure Role where
  id : RoleId
  name : String
  displayName : String
  /-- Built in: neither changed nor deleted. -/
  isSystem : Bool
  permissions : List Permission
  deriving Repr, DecidableEq, Inhabited

/-- The role that every caller has, whether assigned or not. -/
def Role.everyone : String := "user"

/-- The names of a user's roles and their permissions. -/
structure Entitlements where
  roles : List String
  permissions : List Permission
  deriving Repr, DecidableEq, Inhabited

/-- What a list of roles entitles to, in their order. -/
def Entitlements.ofRoles (roles : List Role) : Entitlements :=
  ⟨roles.map (·.name), Permission.withoutRepeats (roles.flatMap (·.permissions))⟩

end Gatehouse
