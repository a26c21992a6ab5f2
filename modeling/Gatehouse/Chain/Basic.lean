import Gatehouse.Moment
import Gatehouse.Request
import Gatehouse.Route.Registry

/-!
Chains of stages.

A route is guarded by a chain of stages. Each stage adds to what is known of a request or refuses
it; the first refusal ends the processing and is the outcome. Afterwards every stage of the chain,
also those that were not reached, is told the outcome. Stages work on a state of any type `σ`.

Which stages a route needs follows from the route: a caller, an organization, a team, a permission
and an audit entry are separate `Concerns`, and one that is not provided for is left out.
-/

namespace Gatehouse

variable {σ : Type}

/-- One step of a chain. -/
structure Stage (σ : Type) where
  name : String
  /-- Adds to what is known, or refuses the request. -/
  process : Moment → Request → Context × σ → Except Error Unit × Context × σ
  /-- Is told what became of the request. -/
  complete : Moment → Request → Context → Except Error Unit → σ → σ := fun _ _ _ _ s => s

/-- The stages that a route may need, each optional. -/
structure Concerns (σ : Type) where
  authentication : Option (Stage σ)
  org : Option (Stage σ)
  team : Option (Stage σ)
  permission : Option (Stage σ)
  audit : Option (Stage σ)

/-- A route and the stages that guard it. -/
structure Chain (σ : Type) where
  route : Route
  stages : List (Stage σ)

namespace Stage

/-- Gives the request an identifier: the one it came with, if well-formed, or a fresh one. -/
def requestId : Stage σ where
  name := "request_id"
  process m request := fun (ctx, s) =>
    (.ok (), { ctx with requestId := (request.id.bind Uuid.ofText?).getD m.requestId }, s)

/-- Ends every chain. It lets everything pass; what became of the request is for the log. -/
def responseLog : Stage σ where
  name := "response_log"
  process _ _ := fun (ctx, s) => (.ok (), ctx, s)

/-- Runs stages up to the first that refuses. -/
def processAll (m : Moment) (request : Request) :
    List (Stage σ) → Context × σ → Except Error Unit × Context × σ
  | [], known => (.ok (), known)
  | stage :: rest, known =>
    match stage.process m request known with
    | (.ok (), known) => processAll m request rest known
    | (.error e, known) => (.error e, known)

/-- Tells stages what became of a request. -/
def completeAll (m : Moment) (request : Request) (ctx : Context) (outcome : Except Error Unit) :
    List (Stage σ) → σ → σ
  | [], s => s
  | stage :: rest, s =>
    completeAll m request ctx outcome rest (stage.complete m request ctx outcome s)

end Stage

namespace Chain

/-- The chain that a route needs. -/
def build (route : Route) (concerns : Concerns σ) : Chain σ :=
  let guarded := !route.isPublic
  let wanted (stage : Option (Stage σ)) (needed : Bool) := if needed then stage.toList else []
  ⟨route, Stage.requestId ::
    (wanted concerns.authentication guarded ++ wanted concerns.org route.needsOrg ++
      wanted concerns.team route.needsTeam ++ wanted concerns.permission guarded ++
      wanted concerns.audit (guarded && !route.isReadOnly) ++ [Stage.responseLog])⟩

/-- The names of the stages in order. -/
def stageNames (c : Chain σ) : List String := c.stages.map (·.name)

/-- What is known of a request after its way through the chain, the outcome, and the state. -/
structure Result (σ : Type) where
  context : Context
  outcome : Except Error Unit
  state : σ

/-- Runs a request through the chain. -/
def run (c : Chain σ) (m : Moment) (request : Request) (s : σ) : Result σ :=
  let (outcome, ctx, s) := Stage.processAll m request c.stages (.start c.route.operation, s)
  ⟨ctx, outcome, Stage.completeAll m request ctx outcome c.stages s⟩

/-- What is known of a request that passes the chain, or why it does not. -/
def execute (c : Chain σ) (m : Moment) (request : Request) (s : σ) : Except Error Context × σ :=
  let result := c.run m request s
  match result.outcome with
  | .ok () => (.ok result.context, result.state)
  | .error e => (.error e, result.state)

end Chain

/-- The chains of the routes of a service. -/
structure ChainTable (σ : Type) where
  chains : List (Chain σ)

namespace ChainTable

/-- The chain of every registered route. -/
def assemble (g : Registry) (concerns : Concerns σ) : ChainTable σ :=
  ⟨g.routes.map fun r => .build r concerns⟩

/-- The chain that guards an operation. -/
def get? (t : ChainTable σ) (operation : String) : Option (Chain σ) :=
  t.chains.find? (·.route.operation.text = operation)

/-- The number of chains. -/
def size (t : ChainTable σ) : Nat := t.chains.length

end ChainTable

end Gatehouse
