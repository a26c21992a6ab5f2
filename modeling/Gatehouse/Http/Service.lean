import Gatehouse.Http.Endpoint

/-!
The web interface of a service.

A path is matched exactly, segment by segment, and a placeholder takes one segment, which may be
empty. Where a route answers `GET`, it also answers `HEAD`, without the body. Every route is guarded
by its chain: a request that the chain refuses never reaches the endpoint. Responses of a route
carry the identifier of the request.

Pages of every origin may use the service. They ask for leave with `OPTIONS`, which is answered on
every path.
-/

namespace Gatehouse.Http

/-- The segments of a path are those of a template, placeholders aside. -/
def segmentsFit : List String → List String → Bool
  | [], [] => true
  | segment :: template, value :: rest =>
    ((placeholder? segment).isSome || segment = value) && segmentsFit template rest
  | _, _ => false

namespace Endpoint

/-- The path leads to the endpoint. -/
def isAt (e : Endpoint) (path : String) : Bool :=
  segmentsFit (Text.split '/' e.route.path) (Text.split '/' path)

/-- The methods that an endpoint answers. -/
def methods (e : Endpoint) : List String :=
  if e.route.method = "GET" then ["GET", "HEAD"] else [e.route.method]

/-- The chain that guards an endpoint. -/
def chain (e : Endpoint) : Chain Site := .build e.route .standard

end Endpoint

/-- A message as a request of a route. -/
def Message.request (msg : Message) (route : Route) : Request where
  method := msg.method
  path := msg.path
  authorization := msg.header? "authorization"
  address := msg.client?
  parameters := (route.extract? msg.path).getD .empty
  id := msg.header? "x-request-id"

/-- The header that carries the identifier of a request. -/
def requestIdHeader : String := "x-request-id"

/-- The headers that tell pages of other origins what they may do. -/
def sharingHeaders (asksForLeave : Bool) : List (String × String) :=
  [("vary", "origin, access-control-request-method, access-control-request-headers"),
    ("access-control-allow-origin", "*")] ++
    if asksForLeave then
      [("access-control-allow-methods", "GET,POST,PUT,OPTIONS"),
        ("access-control-allow-headers", "content-type,authorization,accept,x-request-id")]
    else [("access-control-expose-headers", requestIdHeader)]

/-- Runs the chain of an endpoint, and the endpoint if the chain lets the request pass. -/
def guarded (m : Moment) (msg : Message) (e : Endpoint) (s : Site) : Response × Site :=
  let result := e.chain.run m (msg.request e.route) s
  let (response, s) := match result.outcome with
    | .ok () => e.handle m msg result.context result.state
    | .error err => (.ofError err, result.state)
  (response.withHeader requestIdHeader result.context.requestId.text, s)

/-- The response to a request that has an endpoint, or to one that has none. -/
def dispatch (m : Moment) (msg : Message) (s : Site) : Response × Site :=
  let here := Endpoint.all.filter (·.isAt msg.path)
  let allowed := here.flatMap Endpoint.methods
  let refuse (status : Nat) : Response :=
    if here.isEmpty then .bare status
    else (Response.bare status).withHeader "allow" (String.intercalate "," allowed)
  if msg.method = "OPTIONS" then (refuse 200, s)
  else match here.find? (·.methods.contains msg.method) with
    | some e =>
      let (response, s) := guarded m msg e s
      (if msg.method = "HEAD" then response.withoutBody else response, s)
    | none => (refuse (if here.isEmpty then 404 else 405), s)

/-- The response to a request. -/
def respond (m : Moment) (msg : Message) (s : Site) : Response × Site :=
  let (response, s) := dispatch m msg s
  ({ response with headers := response.headers ++ sharingHeaders (msg.method = "OPTIONS") }, s)

end Gatehouse.Http
