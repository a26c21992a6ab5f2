import Gatehouse.Operation
import Gatehouse.Table
import Gatehouse.Text.Blank
import Gatehouse.Text.Case

/-!
Routes: a method and a path template that guard an operation.

A template is a path in which a segment `{name}` is a placeholder. It matches the paths with as many
segments, outer slashes aside, whose other segments are the same; what stands in the place of a
placeholder is the parameter of that name and must not be empty.
-/

namespace Gatehouse

open Gatehouse.Text

/-- The name of a placeholder, if a segment is one. -/
def placeholder? (segment : String) : Option String :=
  match segment.toList with
  | '{' :: rest => if rest.getLast? = some '}' then some (String.ofList rest.dropLast) else none
  | _ => none

/-- The parameter of the organization. -/
def orgParameter : String := "org_id"

/-- The parameter of the team. -/
def teamParameter : String := "team_id"

/-- The declaration of an endpoint. -/
structure Route where
  /-- In upper case. -/
  method : String
  /-- The template of the path. -/
  path : String
  operation : Operation
  tags : List String
  deriving Repr, DecidableEq

namespace Route

/-- Declares a route. -/
def declare (method path operation : String) (tags : List String) : Except Error Route :=
  match Operation.parse operation with
  | .ok op => .ok ⟨upper method, path, op, tags⟩
  | .error e => .error e

/-- The names of the placeholders in order. -/
def parameters (r : Route) : List String := (split '/' r.path).filterMap placeholder?

/-- The template has a placeholder with a name. -/
def hasParameter (r : Route) (name : String) : Bool := r.parameters.contains name

/-- Requests act within an organization. -/
def needsOrg (r : Route) : Bool := r.hasParameter orgParameter

/-- Requests act within a team. -/
def needsTeam (r : Route) : Bool := r.hasParameter teamParameter

/-- The operation is open to everyone. -/
def isPublic (r : Route) : Bool := r.operation.isPublic

/-- Requests only read. -/
def isReadOnly (r : Route) : Bool := r.method = "GET" || r.method = "HEAD"

/-- The template with placeholders in the form `:name`. -/
def colonPath (r : Route) : String :=
  join '/' ((split '/' r.path).map fun segment =>
    match placeholder? segment with
    | some name => ":" ++ name
    | none => segment)

/-- The segments of a path without its outer slashes. -/
def innerSegments (path : String) : List String :=
  split '/' (String.ofList (trimOf (· = '/') path.toList))

/-- The parameters that a row of segments gives a row of template segments. -/
def matchSegments (found : Table String String) :
    List String → List String → Option (Table String String)
  | [], [] => some found
  | segment :: template, value :: rest =>
    match placeholder? segment with
    | some name =>
      if value = "" then none else matchSegments (found.insert name value) template rest
    | none => if segment = value then matchSegments found template rest else none
  | _, _ => none

/-- The parameters of a path, if the template matches it. -/
def extract? (r : Route) (path : String) : Option (Table String String) :=
  matchSegments .empty (innerSegments r.path) (innerSegments path)

end Route

end Gatehouse
