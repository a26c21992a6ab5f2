import Gatehouse.Codec.Audit
import Gatehouse.Http.MediaType
import Gatehouse.Http.Message
import Gatehouse.Site.Stages
import Gatehouse.Text.Percent

/-!
The endpoints of the web interface and what each does.

An endpoint runs after the chain of its route has let the request pass, and is given what is then
known of it. Parameters and bodies are read first: a body that is not JSON, or not of the shape
needed, is answered with an explanation and changes nothing.
-/

namespace Gatehouse.Http

open Json

/-- The version that the service reports. -/
def version : String := "0.1.0"

/-- The endpoints. -/
inductive Endpoint where
  | health | tokenScopes | profile | listTokens | createToken | listUsers | cacheStats
  | setPermissions | teamSettings
  deriving Repr, DecidableEq

namespace Endpoint

/-- All endpoints, in the order their routes are declared. -/
def all : List Endpoint :=
  [.health, .tokenScopes, .profile, .listTokens, .createToken, .listUsers, .cacheStats,
    .setPermissions, .teamSettings]

/-- The route of an endpoint. -/
def route : Endpoint → Route
  | .health => ⟨"GET", "/health", ⟨"public:health:get", by decide⟩, ["system"]⟩
  | .tokenScopes => ⟨"GET", "/tokens/scopes", ⟨"public:tokens:scopes", by decide⟩, ["tokens"]⟩
  | .profile => ⟨"GET", "/profile", ⟨"self:profile:get", by decide⟩, ["profile"]⟩
  | .listTokens => ⟨"GET", "/tokens", ⟨"self:tokens:list", by decide⟩, ["tokens"]⟩
  | .createToken => ⟨"POST", "/tokens", ⟨"self:tokens:create", by decide⟩, ["tokens"]⟩
  | .listUsers => ⟨"GET", "/admin/users", ⟨"sys:users:list", by decide⟩, ["admin"]⟩
  | .cacheStats => ⟨"GET", "/admin/cache/stats", ⟨"sys:cache:stats", by decide⟩, ["admin"]⟩
  | .setPermissions =>
    ⟨"PUT", "/admin/roles/\x7brole_id\x7d/permissions", ⟨"sys:roles:update", by decide⟩,
      ["admin", "roles"]⟩
  | .teamSettings =>
    ⟨"GET", "/orgs/\x7borg_id\x7d/teams/\x7bteam_id\x7d/settings",
      ⟨"org:team:settings", by decide⟩, ["teams"]⟩

/-! ### What the endpoints read -/

/-- A parameter of a path, as it stands there. -/
def rawParameter? (template path name : String) : Option String :=
  ((Text.split '/' template).zip (Text.split '/' path)).findSome? fun (segment, value) =>
    if placeholder? segment = some name then some value else none

/-- The role that a path names. -/
def roleOfPath? (path : String) : Option RoleId := do
  let raw ← rawParameter? Endpoint.setPermissions.route.path path "role_id"
  Text.uint64? (← Text.percentDecode? raw)

/-- Reads the JSON value that a body leads with, or explains why it cannot. -/
def readBody {α : Type} (read : Reader α) (msg : Message) : Except Response α :=
  if !(((msg.header? "content-type").bind MediaType.ofText?).map MediaType.isJson).getD false then
    .error (.explain 415 "Expected request with content type application/json")
  else match decodeLeading read msg.body with
    | .ok a => .ok a
    | .error .malformed => .error (.explain 400 "Failed to parse the request body as JSON")
    | .error .mismatch => .error (.explain 422 "Failed to read the JSON body as the expected type")

/-- The fields of a request for a token; its owner is the caller. -/
def orderFields : List (RecordField Token.Order) :=
  [.of "name" .required readString fun v o => { o with name := v },
    .of "scopes" .defaulted (readList readString) fun v o => { o with scopes := v },
    .of "expires_at" .defaulted (readOptional Timestamp.read) fun v o => { o with expiresAt := v },
    .of "ip_whitelist" .defaulted (readList readString) fun v o => { o with allowlist := v }]

/-- Reads a request for a token. -/
def readOrder (owner : UserId) : Reader Token.Order :=
  readRecord orderFields ⟨owner, "", [], none, []⟩

/-- Reads a request for other permissions of a role. -/
def readPermissions : Reader (List Permission) :=
  readRecord [.of "permissions" .required (readList Permission.read) fun v _ => v] []

/-! ### What the endpoints answer with -/

/-- A value, or `null`. -/
def orNull {α : Type} (encode : α → Json) (value : Option α) : Json :=
  (value.map encode).getD .null

/-- A token as its owner sees it: without the hash, with the state at the time. -/
def tokenView (now : Timestamp) (t : Token) : List (String × Json) :=
  [("id", .string t.id), ("name", .string t.name), ("scopes", .ofStrings t.scopes),
    ("status", .string (t.statusAt now).name)] ++
    Json.optional "expires_at" (fun time => .string time.text) t.expiresAt ++
    [("ip_whitelist", .ofStrings t.allowlist), ("created_at", .string t.createdAt.text)]

/-- Statistics of the cache as JSON. -/
def statsJson (s : CacheStats) : Json :=
  .object [("hits", .natural s.hits), ("misses", .natural s.misses), ("errors", .natural s.errors),
    ("invalidations", .natural s.invalidations)]

/-- The users that have any of a list of roles, in ascending order. -/
def holdersOfAny (o : Outage) (s : RoleStore) :
    List Role → Table UserId Unit → Except Error (List UserId)
  | [], found => .ok found.keys
  | r :: rest, found => do
    let users ← o.reach .userIdsWithRole (s.holders r.id)
    holdersOfAny o s rest (users.foldl (fun found user => found.insert user ()) found)

/-! ### What the endpoints do -/

/-- The caller that a chain has found. -/
def caller (ctx : Context) : Except Error UserId :=
  match ctx.user with
  | some user => .ok user
  | none => .error .noCaller

/-- Answers with what was computed, or with the error. -/
def answerWith {α : Type} (status : Nat) (encode : α → Json) : Except Error α → Response
  | .ok a => .ofJson status (encode a)
  | .error e => .ofError e

/-- Answers with the caller's own account. -/
def showProfile (ctx : Context) : Except Error Json := do
  let user ← caller ctx
  return .object [("user_id", .ofId user),
    ("auth_kind", orNull (fun kind => .string kind.name) ctx.authKind),
    ("roles", .ofStrings ctx.roles),
    ("permissions", .array (ctx.permissions.map Permission.toJson))]

/-- Answers with the caller's tokens, in the order of their creation. -/
def showTokens (m : Moment) (ctx : Context) (s : Site) : Except Error Json := do
  let user ← caller ctx
  let tokens ← m.outage.reach .listTokens (s.tokens.ofUser user)
  let tokens := tokens.mergeSort fun a b => decide (a.createdAt ≤ b.createdAt)
  return .array (tokens.map fun t => .object (tokenView m.now t))

/-- Answers with the users that have any role. -/
def showUsers (m : Moment) (s : Site) : Except Error Json := do
  let roles ← m.outage.reach .listRoles s.roles.list
  let users ← holdersOfAny m.outage s.roles roles .empty
  return .object [("users", .array (users.map .ofId))]

/-- Answers with the caller's place in the team of the path. -/
def showTeam (ctx : Context) : Except Error Json :=
  match ctx.org, ctx.team with
  | some org, some team =>
    .ok (.object [("org_id", .ofId org), ("team_id", .ofId team),
      ("org_role", orNull (fun role => .string role.name) ctx.orgRole),
      ("team_role", orNull (fun role => .string role.name) ctx.teamRole),
      ("granted_by", orNull Permission.toJson ctx.grantedBy)])
  | _, _ => .error .noTeam

/-- Issues a token and stores it. The answer holds the secret, this once. -/
def issueToken (m : Moment) (msg : Message) (ctx : Context) (s : Site) : Response × Site :=
  match readBody (readOrder (ctx.user.getD 0)) msg with
  | .error r => (r, s)
  | .ok order =>
    let secret := Token.secretOf s.config.tokenPrefix m.nonce
    let issued : Except Error Token := do
      let _ ← caller ctx
      if Text.trim order.name = "" then .error .namelessToken
      else
        let token ← Token.issue order m.tokenId.text secret m.now
        m.outage.reach .insertToken token
    match issued with
    | .error e => (.ofError e, s)
    | .ok token =>
      (.ofJson 201 (.object (("token", .string secret) :: tokenView m.now token)),
        { s with tokens := s.tokens.insert token })

/-- Replaces the permissions of the role of the path. -/
def changeRole (m : Moment) (msg : Message) (s : Site) : Response × Site :=
  match roleOfPath? msg.path with
  | none => (.explain 400 "Cannot read the role of the path", s)
  | some role =>
    match readBody readPermissions msg with
    | .error r => (r, s)
    | .ok permissions =>
      match s.administer m fun o => Administration.setPermissions o role permissions with
      | (.ok (), s) => (.bare 204, s)
      | (.error e, s) => (.ofError e, s)

/-- What an endpoint does with a request that its chain has let pass. -/
def handle (m : Moment) (msg : Message) (ctx : Context) (s : Site) : Endpoint → Response × Site
  | .health =>
    (.ofJson 200 (.object [("status", .string "healthy"),
      ("uptime_seconds", .natural ((m.tick - s.startedAt) / 1000000000)),
      ("version", .string version)]), s)
  | .tokenScopes => (.ofJson 200 (.array (TokenScope.all.map TokenScope.toJson)), s)
  | .profile => (answerWith 200 id (showProfile ctx), s)
  | .listTokens => (answerWith 200 id (showTokens m ctx s), s)
  | .createToken => issueToken m msg ctx s
  | .listUsers => (answerWith 200 id (showUsers m s), s)
  | .cacheStats => (.ofJson 200 (statsJson s.cache.stats), s)
  | .setPermissions => changeRole m msg s
  | .teamSettings => (answerWith 200 id (showTeam ctx), s)

end Endpoint

end Gatehouse.Http
