import Gatehouse.Identifier
import Gatehouse.Outage

/-!
Everything that can go wrong, by cause.

Each cause belongs to one `Kind`, which decides the status a client sees, and has one wording,
`detail`. A client is told the wording of a rejection, but nothing about a failure of the service
itself.
-/

namespace Gatehouse

/-- The kinds of errors. -/
inductive Kind where
  | unauthenticated | forbidden | notFound | badRequest | invalidPattern
  | cacheUnavailable | storeFailure | internal
  deriving Repr, DecidableEq

namespace Kind

/-- The name of a kind in answers. -/
def code : Kind → String
  | .unauthenticated => "unauthenticated"
  | .forbidden => "forbidden"
  | .notFound => "not_found"
  | .badRequest => "bad_request"
  | .invalidPattern => "invalid_pattern"
  | .cacheUnavailable => "cache_unavailable"
  | .storeFailure => "store_error"
  | .internal => "internal_error"

/-- What the wording of an error starts with. -/
def title : Kind → String
  | .unauthenticated => "Unauthenticated"
  | .forbidden => "Forbidden"
  | .notFound => "Not found"
  | .badRequest => "Bad request"
  | .invalidPattern => "Invalid permission pattern"
  | .cacheUnavailable => "Cache unavailable"
  | .storeFailure => "Store error"
  | .internal => "Internal error"

/-- The status of an answer to a request. -/
def status : Kind → Nat
  | .unauthenticated => 401
  | .forbidden => 403
  | .notFound => 404
  | .badRequest | .invalidPattern => 400
  | .cacheUnavailable | .storeFailure | .internal => 500

/-- The request is at fault and not the service. -/
def isRejection (kind : Kind) : Bool :=
  400 ≤ kind.status && kind.status < 500

/-- All kinds. -/
def all : List Kind :=
  [.unauthenticated, .forbidden, .notFound, .badRequest, .invalidPattern, .cacheUnavailable,
    .storeFailure, .internal]

/-- The kind with a name. -/
def ofCode? (code : String) : Option Kind := all.find? (·.code == code)

end Kind

/-- Why a permission pattern cannot be stored. -/
inductive PatternFault where
  | emptyOperation
  | operationSegments (pattern : String) (found : Nat)
  | emptyOperationSegment (pattern : String)
  | partialWildcard (segment : String)
  | operationCharacters (segment : String)
  | emptyResource
  | tooManySegments (pattern : String)
  | tooFewSegments (pattern : String)
  | emptyResourceSegment (pattern : String)
  | wildcardInside (segment : String)
  | resourceComponent (component pattern : String)
  deriving Repr, DecidableEq

/-- The wording of a fault. -/
def PatternFault.detail : PatternFault → String
  | .emptyOperation => "operation pattern cannot be empty"
  | .operationSegments pattern found =>
    s!"operation pattern '{pattern}' must have 3 segments, found {found}"
  | .emptyOperationSegment pattern => s!"operation pattern '{pattern}' has an empty segment"
  | .partialWildcard segment => s!"wildcards must be standalone segments: '{segment}'"
  | .operationCharacters segment => s!"invalid characters in operation segment '{segment}'"
  | .emptyResource => "resource pattern cannot be empty"
  | .tooManySegments pattern => s!"resource pattern '{pattern}' has more than 3 segments"
  | .tooFewSegments pattern =>
    s!"resource pattern '{pattern}' must have 3 segments or end with ':*'"
  | .emptyResourceSegment pattern => s!"resource pattern '{pattern}' has an empty segment"
  | .wildcardInside segment => s!"nested wildcard must terminate the segment: '{segment}'"
  | .resourceComponent component pattern =>
    s!"invalid resource component '{component}' in '{pattern}'"

/-- Why a bearer credential is refused. -/
inductive CredentialFault where
  | missingHeader
  | malformedHeader
  | unsupportedScheme (scheme : String)
  | emptyToken
  | unknownSession
  | unknownToken
  | disabledToken
  | expiredToken
  | foreignAddress
  deriving Repr, DecidableEq

/-- The wording of a fault. -/
def CredentialFault.detail : CredentialFault → String
  | .missingHeader => "missing authorization header"
  | .malformedHeader => "malformed authorization header"
  | .unsupportedScheme scheme => s!"unsupported authorization scheme '{scheme}'"
  | .emptyToken => "empty bearer token"
  | .unknownSession => "invalid session token"
  | .unknownToken => "unknown access token"
  | .disabledToken => "token is disabled"
  | .expiredToken => "token has expired"
  | .foreignAddress => "token is not valid from this address"

/-- An error of an operation. -/
inductive Error where
  | pattern (fault : PatternFault)
  | credential (fault : CredentialFault)
  -- operations and routes
  | malformedOperation (text : String)
  | teamWithoutOrg (method path : String)
  | operationTaken (operation : String)
  | routeTaken (method path first second : String)
  -- roles
  | unknownRole (id : RoleId)
  | systemRoleFixed (name : String)
  | systemRoleCreated
  | namelessRole
  | roleIdTaken (id : RoleId)
  | roleNameTaken (name : String)
  -- tokens
  | unknownScope (name : String)
  | malformedRange (entry : String)
  | expiredNotStored
  | noSuchToken (id : String)
  | namelessToken
  -- requests
  | missingParameter (name : String)
  | nonNumericParameter (name text : String)
  | orgWithoutCaller
  | unknownOrg (id : OrgId)
  | notInOrg (id : OrgId)
  | teamBeforeOrg
  | unknownTeam (team : TeamId) (org : OrgId)
  | notInTeam (id : TeamId)
  | missingPermission (operation : String)
  | noCaller
  | noTeam
  -- outages
  | storeDown (call : StoreCall)
  | cacheDown (call : CacheCall)
  /-- An error in the words of a stage or an event handler that is not of this library. -/
  | foreign (kind : Kind) (detail : String)
  deriving Repr, DecidableEq

namespace Error

/-- The kind of an error. -/
def kind : Error → Kind
  | .pattern _ => .invalidPattern
  | .credential _ | .orgWithoutCaller | .noCaller => .unauthenticated
  | .malformedOperation _ | .teamWithoutOrg .. | .operationTaken _ | .routeTaken .. => .badRequest
  | .namelessRole | .roleIdTaken _ | .roleNameTaken _ => .badRequest
  | .unknownScope _ | .malformedRange _ | .expiredNotStored | .namelessToken => .badRequest
  | .missingParameter _ | .nonNumericParameter .. => .badRequest
  | .unknownRole _ | .noSuchToken _ | .unknownOrg _ | .unknownTeam .. => .notFound
  | .systemRoleFixed _ | .systemRoleCreated => .forbidden
  | .notInOrg _ | .notInTeam _ | .missingPermission _ => .forbidden
  | .teamBeforeOrg | .noTeam => .internal
  | .storeDown _ => .storeFailure
  | .cacheDown _ => .cacheUnavailable
  | .foreign kind _ => kind

/-- The wording of an error, without its kind. -/
def detail : Error → String
  | .pattern fault => fault.detail
  | .credential fault => fault.detail
  | .malformedOperation text => s!"operation '{text}' must have the form scope:resource:action"
  | .teamWithoutOrg method path =>
    s!"route {method} {path} declares \x7bteam_id\x7d without \x7borg_id\x7d"
  | .operationTaken operation => s!"duplicate operation id '{operation}'"
  | .routeTaken method path first second =>
    s!"{method} {path} is declared by both '{first}' and '{second}'"
  | .unknownRole id => s!"role {id}"
  | .systemRoleFixed name => s!"system role '{name}' cannot be modified"
  | .systemRoleCreated => "system roles cannot be created through the API"
  | .namelessRole => "role name cannot be empty"
  | .roleIdTaken id => s!"role id {id} already exists"
  | .roleNameTaken name => s!"role name '{name}' already exists"
  | .unknownScope name => s!"unknown token scope '{name}'"
  | .malformedRange entry => s!"invalid IP allowlist entry '{entry}'"
  | .expiredNotStored => "expired status is derived, not stored"
  | .noSuchToken id => s!"token {id}"
  | .namelessToken => "token name cannot be empty"
  | .missingParameter name => s!"missing path parameter '{name}'"
  | .nonNumericParameter name text => s!"{name} must be numeric, got '{text}'"
  | .orgWithoutCaller => "organization context requires a caller"
  | .unknownOrg id => s!"organization {id}"
  | .notInOrg id => s!"not a member of organization {id}"
  | .teamBeforeOrg => "team context resolved before organization context"
  | .unknownTeam team org => s!"team {team} in organization {org}"
  | .notInTeam id => s!"not a member of team {id}"
  | .missingPermission operation => s!"missing permission for '{operation}'"
  | .noCaller => "no authenticated caller"
  | .noTeam => "team context missing"
  | .storeDown call => s!"{call.name} failed"
  | .cacheDown call => s!"{call.name} failed"
  | .foreign _ detail => detail

/-- The full wording of an error. -/
def message (e : Error) : String := s!"{e.kind.title}: {e.detail}"

/-- What a client is told: nothing of what goes wrong inside the service. -/
def publicMessage (e : Error) : String :=
  if e.kind.isRejection then e.message else "internal server error"

end Error

namespace Outage

/-- The answer of a store to a call, unless the call fails. -/
def reach {α : Type} (o : Outage) (call : StoreCall) (answer : α) : Except Error α :=
  if o.stores call then .error (.storeDown call) else .ok answer

@[simp] theorem reach_none {α : Type} (call : StoreCall) (answer : α) :
    none.reach call answer = .ok answer := rfl

end Outage

end Gatehouse
