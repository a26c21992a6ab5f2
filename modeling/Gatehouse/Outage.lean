/-!
Calls to the stores and to the cache backend, and outages.

An outage decides for every call whether it fails. A failing call to a store is an error of the
operation that makes it; a failing call to the cache backend is not.
-/

namespace Gatehouse

/-- A call to one of the stores. -/
inductive StoreCall where
  | getRole | findRoleByName | listRoles | putRole | deleteRole | replacePermissions
  | rolesForUser | userIdsWithRole | assignRole | revokeRole | removeUser
  | orgExists | orgRole | teamOrg | teamRole
  | findToken | insertToken | setTokenStatus | listTokens
  | verifySession
  deriving Repr, DecidableEq

namespace StoreCall

/-- The name of a call, the store before the point. -/
def name : StoreCall → String
  | .getRole => "roles.get_role"
  | .findRoleByName => "roles.find_role_by_name"
  | .listRoles => "roles.list_roles"
  | .putRole => "roles.put_role"
  | .deleteRole => "roles.delete_role"
  | .replacePermissions => "roles.replace_permissions"
  | .rolesForUser => "roles.roles_for_user"
  | .userIdsWithRole => "roles.user_ids_with_role"
  | .assignRole => "roles.assign_role"
  | .revokeRole => "roles.revoke_role"
  | .removeUser => "roles.remove_user"
  | .orgExists => "memberships.org_exists"
  | .orgRole => "memberships.org_role"
  | .teamOrg => "memberships.team_org"
  | .teamRole => "memberships.team_role"
  | .findToken => "tokens.find_by_hash"
  | .insertToken => "tokens.insert"
  | .setTokenStatus => "tokens.set_status"
  | .listTokens => "tokens.list_for_user"
  | .verifySession => "sessions.verify"

end StoreCall

/-- A call to the cache backend. -/
inductive CacheCall where
  | get (key : String)
  /-- The lifetime is in seconds. -/
  | set (key value : String) (lifetime : Nat)
  | delete (key : String)
  deriving Repr, DecidableEq

/-- The name of a call. -/
def CacheCall.name : CacheCall → String
  | .get _ => "cache.get"
  | .set .. => "cache.set"
  | .delete _ => "cache.delete"

/-- Which calls fail. -/
structure Outage where
  stores : StoreCall → Bool
  cache : CacheCall → Bool

namespace Outage

/-- Every call succeeds. -/
def none : Outage := ⟨fun _ => false, fun _ => false⟩

instance : Inhabited Outage := ⟨none⟩

/-- The calls with these names fail. -/
def ofNames (names : List String) : Outage :=
  ⟨fun call => names.contains call.name, fun call => names.contains call.name⟩

end Outage

end Gatehouse
