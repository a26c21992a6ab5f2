import Gatehouse.Route.Basic

/-!
The routes of a service.

Routes are registered in order. Each operation is guarded by one route, each method and template by
one operation, and a route with a team has an organization too; the first route that breaks one of
these rules is refused.
-/

namespace Gatehouse

/-- Registered routes, in the order of their declaration. -/
structure Registry where
  routes : List Route
  deriving Repr, DecidableEq

namespace Registry

/-- No route. -/
def empty : Registry := ⟨[]⟩

/-- The route that guards an operation. -/
def get? (g : Registry) (operation : String) : Option Route :=
  g.routes.find? (·.operation.text = operation)

/-- The route with a method and a template. -/
def withPath? (g : Registry) (method path : String) : Option Route :=
  g.routes.find? fun r => r.method = method && r.path = path

/-- Registers one more route. -/
def add (g : Registry) (r : Route) : Except Error Registry :=
  if r.needsTeam && !r.needsOrg then .error (.teamWithoutOrg r.method r.path)
  else if (g.get? r.operation.text).isSome then .error (.operationTaken r.operation.text)
  else match g.withPath? r.method r.path with
    | some first => .error (.routeTaken r.method r.path first.operation.text r.operation.text)
    | none => .ok ⟨g.routes ++ [r]⟩

/-- Registers further routes. -/
def addAll (g : Registry) : List Route → Except Error Registry
  | [] => .ok g
  | r :: rest =>
    match g.add r with
    | .ok g => addAll g rest
    | .error e => .error e

/-- Registers a list of routes. -/
def build (routes : List Route) : Except Error Registry := addAll empty routes

/-- The first route for a method, in any case, and a path, with the parameters of the path. -/
def find? (g : Registry) (method path : String) : Option (Route × Table String String) :=
  g.routes.findSome? fun r =>
    if Text.sameLetters r.method method then (r.extract? path).map fun ps => (r, ps) else none

end Registry

end Gatehouse
