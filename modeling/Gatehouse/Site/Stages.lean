import Gatehouse.Site.Basic

/-!
The stages that guard the routes of a service.

In their order: the caller is authenticated, its place in the organization and in the team of the
path is looked up, a permission for the operation is looked for, and requests that may change
something are recorded. Stages write to what is known of a request as they go; what a stage has written
before it refuses the request stays written.
-/

namespace Gatehouse

namespace Stage

/-- A stage that looks at the service without changing it. -/
def ofLook (name : String) (look : Moment → Site → Request → Attempt Context Unit) : Stage Site where
  name
  process m request := fun (ctx, s) =>
    let (outcome, ctx) := (look m s request).run ctx
    (outcome, ctx, s)

/-- A parameter of the path that must be an identifier. -/
def numericParameter (request : Request) (name : String) : Except Error UInt64 :=
  match request.parameters.find? name with
  | none => .error (.missingParameter name)
  | some text =>
    match Text.uint64? text with
    | some n => .ok n
    | none => .error (.nonNumericParameter name text)

/-! ### The caller -/

/-- What is known once the caller is. -/
def withCaller (ctx : Context) (caller : Site.Caller) : Context :=
  { ctx with
    user := some caller.identity.user
    authKind := some caller.identity.kind
    roles := caller.roles
    permissions := caller.permissions
    vars := ctx.vars.bind Variables.me (toString caller.identity.user) }

/-- Writes down the caller, if it was found. -/
def noteCaller (found : Except Error Site.Caller) : Attempt Context Unit := do
  let caller ← found
  modify (withCaller · caller)

/-- Finds out who the caller is and what it may do. -/
def authentication : Stage Site where
  name := "authentication"
  process m request := fun (ctx, s) =>
    let (found, s) := s.authenticate m request.authorization request.address
    let (outcome, ctx) := (noteCaller found).run ctx
    (outcome, ctx, s)

/-! ### The organization and the team -/

/-- The caller's place in the organization of the path, of which it must be a member. -/
def lookUpOrg (m : Moment) (s : Site) (request : Request) : Attempt Context Unit := do
  let org ← numericParameter request orgParameter
  match (← get).user with
  | none => throw .orgWithoutCaller
  | some user =>
    if !(← m.outage.reach .orgExists (s.directory.orgExists org)) then throw (.unknownOrg org)
    else match ← m.outage.reach .orgRole (s.directory.orgRole? org user) with
      | none => throw (.notInOrg org)
      | some role =>
        modify fun ctx => { ctx with
          org := some org
          orgRole := some role
          vars := ctx.vars.bind Variables.org (toString org) }

/-- Writes down the caller's place in a team. A team's lead is granted what leads may do. -/
def noteTeam (org : OrgId) (team : TeamId) (role : Option TeamRole) : Attempt Context Unit := do
  modify fun ctx => { ctx with
    team := some team
    teamRole := role
    vars := ctx.vars.bind Variables.team (toString team) }
  if role = some .lead then
    modify fun ctx => { ctx with permissions := ctx.permissions ++ [Grant.teamLead org team] }

/-- The caller's place in the team of the path, which must belong to the organization. The caller
must be a member of the team, unless its place in the organization reaches every team. -/
def lookUpTeam (m : Moment) (s : Site) (request : Request) : Attempt Context Unit := do
  let team ← numericParameter request teamParameter
  let ctx ← get
  match ctx.org, ctx.orgRole, ctx.user with
  | some org, some orgRole, some user =>
    if (← m.outage.reach .teamOrg (s.directory.teamOrg? team)) ≠ some org then
      throw (.unknownTeam team org)
    else
      let role ← m.outage.reach .teamRole (s.directory.teamRole? team user)
      if role.isNone && !orgRole.reachesTeams then throw (.notInTeam team) else noteTeam org team role
  | _, _, _ => throw .teamBeforeOrg

/-- Looks up the organization. -/
def org : Stage Site := .ofLook "org_context" lookUpOrg

/-- Looks up the team. -/
def team : Stage Site := .ofLook "team_context" lookUpTeam

/-! ### The permission -/

/-- The first permission of the caller that grants the operation. -/
def lookForGrant : Attempt Context Unit := do
  let ctx ← get
  match Grant.find? ctx.permissions ctx.operation (Grant.candidates ctx.operation ctx.vars) with
  | some p => modify ({ · with grantedBy := some p })
  | none => throw (.missingPermission ctx.operation.text)

/-- Looks for a permission. -/
def permission : Stage Site := .ofLook "rbac" fun _ _ _ => lookForGrant

/-! ### The audit -/

/-- The audit entry of a request. -/
def auditEntry (m : Moment) (request : Request) (ctx : Context) : AuditEntry where
  requestId := ctx.requestId
  operation := ctx.operation.text
  method := request.method
  path := request.path
  user := ctx.user
  authKind := ctx.authKind
  org := ctx.org
  team := ctx.team
  time := m.now

/-- Records the request. -/
def audit : Stage Site where
  name := "audit"
  process m request := fun (ctx, s) =>
    let entry := auditEntry m request ctx
    (.ok (), { ctx with audit := some entry }, { s with audit := s.audit.record entry })

end Stage

/-- Every concern is provided for. -/
def Concerns.standard : Concerns Site where
  authentication := some Stage.authentication
  org := some Stage.org
  team := some Stage.team
  permission := some Stage.permission
  audit := some Stage.audit

end Gatehouse
