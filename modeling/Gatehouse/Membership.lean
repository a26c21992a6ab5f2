import Gatehouse.Identifier
import Gatehouse.Table

/-!
Who belongs to which organization and team.

Every team belongs to the organization it was first registered in. Registering an organization or a
team again changes nothing about its members.
-/

namespace Gatehouse

/-- The place of a member in an organization. -/
inductive OrgRole where
  | owner | admin | member
  deriving Repr, DecidableEq

namespace OrgRole

/-- The places by name. -/
def names : List (String × OrgRole) := [("owner", .owner), ("admin", .admin), ("member", .member)]

/-- The name of a place. -/
def name : OrgRole → String
  | .owner => "owner"
  | .admin => "admin"
  | .member => "member"

/-- Owners and admins reach every team of their organization without being its members. -/
def reachesTeams : OrgRole → Bool
  | .owner | .admin => true
  | .member => false

end OrgRole

/-- The place of a member in a team. -/
inductive TeamRole where
  | lead | member
  deriving Repr, DecidableEq

namespace TeamRole

/-- The places by name. -/
def names : List (String × TeamRole) := [("lead", .lead), ("member", .member)]

/-- The name of a place. -/
def name : TeamRole → String
  | .lead => "lead"
  | .member => "member"

end TeamRole

/-- A registered team. -/
structure Team where
  org : OrgId
  members : Table UserId TeamRole
  deriving Repr, DecidableEq

/-- The registered organizations and teams with their members. -/
structure Directory where
  orgs : Table OrgId (Table UserId OrgRole)
  teams : Table TeamId Team
  deriving Repr, DecidableEq

namespace Directory

/-- No organization and no team. -/
def empty : Directory := ⟨.empty, .empty⟩

instance : Inhabited Directory := ⟨empty⟩

/-- The organization is registered. -/
def orgExists (d : Directory) (org : OrgId) : Bool := d.orgs.contains org

/-- The place of a user in an organization. -/
def orgRole? (d : Directory) (org : OrgId) (user : UserId) : Option OrgRole :=
  (d.orgs.find? org).bind (·.find? user)

/-- The organization a team belongs to. -/
def teamOrg? (d : Directory) (team : TeamId) : Option OrgId := (d.teams.find? team).map (·.org)

/-- The place of a user in a team. -/
def teamRole? (d : Directory) (team : TeamId) (user : UserId) : Option TeamRole :=
  (d.teams.find? team).bind (·.members.find? user)

/-- Registers an organization. -/
def addOrg (d : Directory) (org : OrgId) : Directory :=
  { d with orgs := d.orgs.insert org ((d.orgs.find? org).getD .empty) }

/-- Gives a user a place in an organization, which is registered if need be. -/
def addOrgMember (d : Directory) (org : OrgId) (user : UserId) (role : OrgRole) : Directory :=
  { d with orgs := d.orgs.insert org (((d.orgs.find? org).getD .empty).insert user role) }

/-- Registers a team in an organization, which is registered if need be. -/
def addTeam (d : Directory) (org : OrgId) (team : TeamId) : Directory :=
  { d.addOrg org with teams := d.teams.insert team ((d.teams.find? team).getD ⟨org, .empty⟩) }

/-- Gives a user a place in a team, and tells whether the team is registered. -/
def addTeamMember (d : Directory) (team : TeamId) (user : UserId) (role : TeamRole) :
    Bool × Directory :=
  match d.teams.find? team with
  | some t =>
    let t := { t with members := t.members.insert user role }
    (true, { d with teams := d.teams.insert team t })
  | none => (false, d)

end Directory

end Gatehouse
