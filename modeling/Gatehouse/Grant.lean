import Gatehouse.Operation
import Gatehouse.Permission
import Gatehouse.Variables

/-!
Which permission grants an operation.

An operation is tried on a few resources, its candidates, which depend on its domain and on the
variables bound so far. A permission grants the operation when its operation pattern matches and its
resource pattern is `*` or matches one of the candidates; of several the first one counts.
-/

namespace Gatehouse

namespace Grant

/-- The candidate of every operation. -/
def universal : String := "*:*:*"

/-- The caller as a resource. -/
def ownTemplate : String := "self:user:@me"

/-- An organization as a resource. -/
def orgTemplate : String := "org.@org:*:*"

/-- A team as a resource. -/
def teamTemplate : String := "org.@org.team.@team:*:*"

/-- The resources an operation is tried on; a template counts only once its variables are bound,
but the caller's also as it is. -/
def candidates (op : Operation) (vars : Variables) : List String :=
  universal ::
    match op.domain? with
    | some .own => ownTemplate :: (vars.resolveBound ownTemplate [Variables.me]).toList
    | some .org =>
      (vars.resolveBound orgTemplate [Variables.org]).toList ++
        (vars.resolveBound teamTemplate [Variables.org, Variables.team]).toList
    | _ => []

/-- The permission grants the operation on one of the candidates. -/
def permits (op : Operation) (candidates : List String) (p : Permission) : Bool :=
  Pattern.matchesOperation p.operation op.text &&
    (p.resource = Pattern.wildcard || candidates.any (Pattern.matchesResource p.resource))

/-- The first permission that grants the operation. -/
def find? (ps : List Permission) (op : Operation) (candidates : List String) :
    Option Permission :=
  List.find? (permits op candidates) ps

/-- What a team's lead may do in the team, for the time of a request. -/
def teamLead (org : OrgId) (team : TeamId) : Permission :=
  .on "org:team:*" s!"org.{org}.team.{team}:*:*"

end Grant

end Gatehouse
