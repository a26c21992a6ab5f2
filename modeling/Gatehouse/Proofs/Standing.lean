import Gatehouse.Membership
import Gatehouse.Proofs.Pattern
import Gatehouse.Proofs.Variables

/-!
Where a caller stands in a request, and what follows from it for the grant.

A request may act within an organization or within a team of one; the caller's place there is its
`Standing`. The candidates of an operation are the resources of the standing (`candidates_vars`), and
the look-up of a grant finds one exactly when a permission matches the operation and one of these
resources (`isSome_find?_iff`).
-/

namespace Gatehouse

/-! ### Which permissions grant an operation -/

/-- One of the permissions matches the operation and one of the resources. -/
def Grant.Given (ps : List Permission) (op : Operation) (resources : List String) : Prop :=
  ∃ p ∈ ps, Pattern.matchesOperation p.operation op.text = true ∧
    ∃ resource ∈ resources, Pattern.matchesResource p.resource resource = true

namespace Grant

variable {op : Operation} {resources : List String} {ps : List Permission} {p : Permission}

theorem permits_eq_true_iff : permits op resources p = true ↔
    Pattern.matchesOperation p.operation op.text = true ∧ (p.resource = Pattern.wildcard ∨
      ∃ resource ∈ resources, Pattern.matchesResource p.resource resource = true) := by
  unfold permits
  simp only [Bool.and_eq_true, Bool.or_eq_true, decide_eq_true_eq, List.any_eq_true]

theorem permits_iff (nonempty : resources ≠ []) :
    permits op resources p = true ↔ Pattern.matchesOperation p.operation op.text = true ∧
      ∃ resource ∈ resources, Pattern.matchesResource p.resource resource = true := by
  rw [permits_eq_true_iff]
  refine and_congr_right fun _ => ⟨?_, Or.inr⟩
  rintro (everywhere | matching)
  · obtain ⟨first, mem⟩ := List.exists_mem_of_ne_nil _ nonempty
    rw [everywhere]
    exact ⟨first, mem, Pattern.matchesResource_wildcard first⟩
  · exact matching

theorem isSome_find?_iff (nonempty : resources ≠ []) :
    (find? ps op resources).isSome = true ↔ Given ps op resources := by
  unfold find? Given
  rw [List.find?_isSome]
  exact exists_congr fun p => and_congr_right fun _ => permits_iff nonempty

/-- The resource of an organization. -/
def orgResource (org : OrgId) : String := "org." ++ toString org ++ ":*:*"

/-- The resource of a team. -/
def teamResource (org : OrgId) (team : TeamId) : String :=
  "org." ++ toString org ++ ".team." ++ toString team ++ ":*:*"

/-- The resource of a user. -/
def ownResource (user : UserId) : String := "self:user:" ++ toString user

theorem teamLead_eq (org : OrgId) (team : TeamId) :
    teamLead org team = ⟨"org:team:*", teamResource org team⟩ := by
  have given : teamResource org team ≠ "" := fun empty =>
    absurd (String.append_eq_empty_iff.mp empty).2 (by decide)
  exact congrArg (Permission.mk _) (if_neg given)

end Grant

/-! ### Standings -/

/-- Where a caller stands in a request. -/
inductive Standing where
  /-- The request is about no organization. -/
  | outside
  /-- The caller's place in the organization. -/
  | inOrg (org : OrgId) (role : OrgRole)
  /-- The caller's places in the organization and in the team, in which it may have none. -/
  | inTeam (org : OrgId) (role : OrgRole) (team : TeamId) (teamRole : Option TeamRole)
  deriving Repr, DecidableEq

namespace Standing

/-- What the names in templates stand for. -/
def vars (user : UserId) (standing : Standing) : Variables :=
  let own := Variables.empty.bind Variables.me (toString user)
  match standing with
  | .outside => own
  | .inOrg org _ => own.bind Variables.org (toString org)
  | .inTeam org _ team _ =>
    (own.bind Variables.org (toString org)).bind Variables.team (toString team)

/-- The permissions that the caller has in this request only: those of a team's lead. -/
def lent : Standing → List Permission
  | .inTeam org _ team (some .lead) => [Grant.teamLead org team]
  | _ => []

/-- The resources on which the caller may be granted an operation. -/
def resources (op : Operation) (user : UserId) (standing : Standing) : List String :=
  Grant.universal ::
    match op.domain?, standing with
    | some .own, _ => [Grant.ownTemplate, Grant.ownResource user]
    | some .org, .inOrg org _ => [Grant.orgResource org]
    | some .org, .inTeam org _ team _ => [Grant.orgResource org, Grant.teamResource org team]
    | _, _ => []

theorem resources_ne_nil (standing : Standing) (op : Operation) (user : UserId) :
    standing.resources op user ≠ [] := List.cons_ne_nil _ _

/-! ### The candidates of a standing -/

variable {op : Operation} {user : UserId} {standing : Standing} {org : OrgId} {role : OrgRole}
  {team : TeamId} {teamRole : Option TeamRole}

theorem ofRequest_vars : (standing.vars user).OfRequest := by
  have own := Variables.OfRequest.empty.bind
    (show Variables.me ∈ Variables.namesOfRequest by decide) user
  cases standing with
  | outside => exact own
  | inOrg org _ => exact own.bind (by decide) org
  | inTeam org _ team _ => exact (own.bind (by decide) org).bind (by decide) team

theorem resolveBound_own : (standing.vars user).resolveBound Grant.ownTemplate [Variables.me] =
    some (Grant.ownResource user) := by
  have bound : (standing.vars user).find? Variables.me = some (toString user) := by
    cases standing <;> rfl
  have required : [Variables.me].all (standing.vars user).isBound = true := by
    cases standing <;> rfl
  unfold Variables.resolveBound
  rw [if_pos required, ofRequest_vars.resolve_ownTemplate bound]
  rfl

theorem resolveBound_org_inOrg :
    ((inOrg org role).vars user).resolveBound Grant.orgTemplate [Variables.org] =
      some (Grant.orgResource org) :=
  congrArg some (ofRequest_vars.resolve_orgTemplate rfl)

theorem resolveBound_org_inTeam :
    ((inTeam org role team teamRole).vars user).resolveBound Grant.orgTemplate [Variables.org] =
      some (Grant.orgResource org) :=
  congrArg some (ofRequest_vars.resolve_orgTemplate rfl)

theorem resolveBound_team_inTeam :
    ((inTeam org role team teamRole).vars user).resolveBound Grant.teamTemplate
      [Variables.org, Variables.team] = some (Grant.teamResource org team) :=
  congrArg some (ofRequest_vars.resolve_teamTemplate rfl rfl)

/-- The candidates of an operation are the resources of the standing. -/
theorem candidates_vars :
    Grant.candidates op (standing.vars user) = standing.resources op user := by
  unfold Grant.candidates resources
  cases domain : op.domain? with
  | none => rfl
  | some d =>
      cases d with
      | anyone => rfl
      | own => rw [resolveBound_own]; rfl
      | org =>
          cases standing with
          | outside => rfl
          | inOrg org role => rw [resolveBound_org_inOrg]; rfl
          | inTeam org role team teamRole =>
              rw [resolveBound_org_inTeam, resolveBound_team_inTeam]; rfl
      | sys => rfl

/-- The team's resource is one of those of an operation on organizations. -/
theorem teamResource_mem_resources (domain : op.domain? = some .org) :
    Grant.teamResource org team ∈ (inTeam org role team teamRole).resources op user := by
  simp [resources, domain]

end Standing

end Gatehouse
