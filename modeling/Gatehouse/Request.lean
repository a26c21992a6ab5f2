import Gatehouse.Audit
import Gatehouse.Membership
import Gatehouse.Net.Address
import Gatehouse.Operation
import Gatehouse.Permission
import Gatehouse.Variables

/-!
A request, and what becomes known of it on its way through the stages of a route.
-/

namespace Gatehouse

/-- A request, whatever it came by. -/
structure Request where
  method : String
  path : String
  /-- The `Authorization` header. -/
  authorization : Option String
  /-- The address it came from. -/
  address : Option Address
  /-- The parameters of the path. -/
  parameters : Table String String
  /-- The identifier that whoever passed the request on gave it. -/
  id : Option String
  deriving Repr, DecidableEq

/-- What is known of a request. It lasts as long as the request. -/
structure Context where
  requestId : Uuid
  operation : Operation
  user : Option UserId
  authKind : Option AuthKind
  roles : List String
  /-- The permissions the caller has in this request, also those that come from its team. -/
  permissions : List Permission
  org : Option OrgId
  orgRole : Option OrgRole
  team : Option TeamId
  teamRole : Option TeamRole
  vars : Variables
  audit : Option AuditEntry
  /-- The permission that let the request pass. -/
  grantedBy : Option Permission
  deriving Repr, DecidableEq

/-- What is known before the first stage: the operation. -/
def Context.start (operation : Operation) : Context :=
  { requestId := .zero, operation, user := none, authKind := none, roles := [], permissions := [],
    org := none, orgRole := none, team := none, teamRole := none, vars := .empty,
    audit := none, grantedBy := none }

end Gatehouse
