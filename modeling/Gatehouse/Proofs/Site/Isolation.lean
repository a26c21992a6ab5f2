import Gatehouse.Proofs.Token.Confinement

/-!
Requests stay within their organization and their team.

A permission may name an organization, or a team of one, by its number in the first segment of its
resource, or names below it. What passes with such a permission is a request about this organization
and this team, whatever other permissions there are and whichever calls fail: the resources an
operation is tried on name no other (`Standing.Names.org_of_isUnder` and
`Standing.Names.team_of_isUnder`), and the numbers between the points of a name are found again by
cutting it at the points. Together with the caller's places this is `isolated_of_executes`.
-/

namespace Gatehouse

open Text (split pieces)

/-! ### Names of organizations and teams -/

namespace Grant

/-- The name of the organization with a number. -/
def orgName (n : String) : String := "org." ++ n

/-- The name of the team with a number, in the organization with a number. -/
def teamName (n k : String) : String := "org." ++ n ++ ".team." ++ k

variable {n k : String}

theorem pieces_orgName (digits : Text.IsDigits n) :
    pieces '.' (orgName n).toList = ["org".toList, n.toList] := by
  have letters : (orgName n).toList = "org".toList ++ '.' :: n.toList := by
    rw [orgName, String.toList_append]
    rfl
  rw [letters, Text.pieces_append, Text.pieces_of_notMem (digits.notMem (by decide))]
  rfl

theorem pieces_teamName (digits : Text.IsDigits n) (digits' : Text.IsDigits k) :
    pieces '.' (teamName n k).toList =
      ["org".toList, n.toList, "team".toList, k.toList] := by
  have letters : (teamName n k).toList =
      (orgName n).toList ++ '.' :: ("team".toList ++ '.' :: k.toList) := by
    rw [teamName, ← orgName, String.toList_append, String.toList_append, List.append_assoc]
    rfl
  rw [letters, Text.pieces_append, pieces_orgName digits, Text.pieces_append,
    Text.pieces_of_notMem (digits'.notMem (by decide))]
  rfl

theorem notMem_orgName {c : Char} (digits : Text.IsDigits n) (other : c.isDigit = false)
    (letters : c ∉ "org.".toList) : c ∉ (orgName n).toList := by
  rw [orgName, String.toList_append, List.mem_append]
  exact not_or.mpr ⟨letters, digits.notMem other⟩

theorem notMem_teamName {c : Char} (digits : Text.IsDigits n) (digits' : Text.IsDigits k)
    (other : c.isDigit = false) (letters : c ∉ "org.".toList) (letters' : c ∉ ".team.".toList) :
    c ∉ (teamName n k).toList := by
  rw [teamName, ← orgName, String.toList_append, String.toList_append, List.mem_append,
    List.mem_append]
  exact not_or.mpr ⟨not_or.mpr ⟨notMem_orgName digits other letters, letters'⟩,
    digits'.notMem other⟩

end Grant

/-- The first segment of the resource of a permission. -/
def Permission.firstSegment (p : Permission) : String := (split ':' p.resource).headD ""

theorem Permission.split_resource (p : Permission) :
    ∃ rest, split ':' p.resource = p.firstSegment :: rest := by
  unfold firstSegment
  cases segments : split ':' p.resource with
  | nil => exact absurd segments (Text.split_ne_nil ':' p.resource)
  | cons first rest => exact ⟨rest, rfl⟩

/-! ### What a standing names -/

namespace Standing

variable {standing : Standing} {op : Operation} {user : UserId} {n k segment : String}

/-- The organization of a standing. -/
def org? : Standing → Option OrgId
  | .outside => none
  | .inOrg org _ | .inTeam org _ _ _ => some org

/-- The team of a standing. -/
def team? : Standing → Option TeamId
  | .outside | .inOrg .. => none
  | .inTeam _ _ team _ => some team

/-- The first segments of the resources on which a caller may be granted an operation. -/
inductive Names (standing : Standing) : String → Prop
  | apart {word : String} (mem : word ∈ [Pattern.wildcard, "self"]) : Names standing word
  | org {org : OrgId} (inOrg : standing.org? = some org) :
      Names standing (Grant.orgName (toString org))
  | team {org : OrgId} {team : TeamId} (inOrg : standing.org? = some org)
      (inTeam : standing.team? = some team) :
      Names standing (Grant.teamName (toString org) (toString team))

/-- A text that goes on with a colon after a name has the name for its first segment. -/
theorem split_of_name {name : String} (rest : String) (whole : ':' ∉ name.toList) :
    ∃ segments, split ':' (name ++ (":" ++ rest)) = name :: segments := by
  rw [← String.append_assoc]
  exact ⟨split ':' rest, Text.split_append whole rest⟩

theorem split_orgResource (org : OrgId) :
    ∃ rest, split ':' (Grant.orgResource org) = Grant.orgName (toString org) :: rest :=
  split_of_name "*:*"
    (Grant.notMem_orgName (Text.isDigits_toString org) (by decide) (by decide))

theorem split_teamResource (org : OrgId) (team : TeamId) :
    ∃ rest, split ':' (Grant.teamResource org team) =
      Grant.teamName (toString org) (toString team) :: rest :=
  split_of_name "*:*"
    (Grant.notMem_teamName (Text.isDigits_toString org) (Text.isDigits_toString team) (by decide)
      (by decide) (by decide))

theorem split_ownResource (user : UserId) :
    ∃ rest, split ':' (Grant.ownResource user) = "self" :: rest := by
  have letters : Grant.ownResource user = "self" ++ (":" ++ ("user:" ++ toString user)) := by
    rw [Grant.ownResource, ← String.append_assoc, ← String.append_assoc]
    rfl
  rw [letters]
  exact split_of_name _ (by decide)

/-- The first segment of a resource of a standing is one of the names of the standing. -/
theorem exists_names {resource : String} (mem : resource ∈ standing.resources op user) :
    ∃ first rest, split ':' resource = first :: rest ∧ standing.Names first := by
  rcases List.mem_cons.mp mem with rfl | mem
  · exact ⟨_, ["*", "*"], by decide, .apart (List.mem_cons_self ..)⟩
  · split at mem
    · rcases List.mem_pair.mp mem with rfl | rfl
      · exact ⟨"self", ["user", "@me"], by decide, .apart (by decide)⟩
      · obtain ⟨rest, segments⟩ := split_ownResource user
        exact ⟨_, rest, segments, .apart (by decide)⟩
    · obtain rfl := List.mem_singleton.mp mem
      obtain ⟨rest, segments⟩ := split_orgResource _
      exact ⟨_, rest, segments, .org rfl⟩
    · rcases List.mem_pair.mp mem with rfl | rfl
      · obtain ⟨rest, segments⟩ := split_orgResource _
        exact ⟨_, rest, segments, .org rfl⟩
      · obtain ⟨rest, segments⟩ := split_teamResource _ _
        exact ⟨_, rest, segments, .team rfl rfl⟩
    · cases mem

theorem point_notMem_of_apart {word : String} (mem : word ∈ [Pattern.wildcard, "self"]) :
    '.' ∉ word.toList := by
  rcases List.mem_pair.mp mem with rfl | rfl <;> decide

/-- A name of a standing that lies under an organization's names the standing's organization. -/
theorem Names.org_of_isUnder (named : standing.Names segment) (digits : Text.IsDigits n)
    (under : Pattern.IsUnder (Grant.orgName n) segment) :
    ∃ org, standing.org? = some org ∧ n = toString org := by
  have parts := under.pieces_prefix
  rw [Grant.pieces_orgName digits] at parts
  cases named with
  | apart mem =>
      rw [Text.pieces_of_notMem (point_notMem_of_apart mem)] at parts
      exact absurd parts.length_le (by simp)
  | org inOrg =>
      rw [Grant.pieces_orgName (Text.isDigits_toString _)] at parts
      simp only [List.cons_prefix_cons] at parts
      exact ⟨_, inOrg, String.toList_inj.mp parts.2.1⟩
  | team inOrg inTeam =>
      rw [Grant.pieces_teamName (Text.isDigits_toString _) (Text.isDigits_toString _)] at parts
      simp only [List.cons_prefix_cons] at parts
      exact ⟨_, inOrg, String.toList_inj.mp parts.2.1⟩

/-- A name of a standing that lies under a team's names the standing's team. -/
theorem Names.team_of_isUnder (named : standing.Names segment) (digits : Text.IsDigits n)
    (digits' : Text.IsDigits k) (under : Pattern.IsUnder (Grant.teamName n k) segment) :
    ∃ team, standing.team? = some team ∧ k = toString team := by
  have parts := under.pieces_prefix
  rw [Grant.pieces_teamName digits digits'] at parts
  cases named with
  | apart mem =>
      rw [Text.pieces_of_notMem (point_notMem_of_apart mem)] at parts
      exact absurd parts.length_le (by simp)
  | org inOrg =>
      rw [Grant.pieces_orgName (Text.isDigits_toString _)] at parts
      exact absurd parts.length_le (by simp)
  | team inOrg inTeam =>
      rw [Grant.pieces_teamName (Text.isDigits_toString _) (Text.isDigits_toString _)] at parts
      simp only [List.cons_prefix_cons] at parts
      exact ⟨_, inTeam, String.toList_inj.mp parts.2.2.2.1⟩

/-- What the permission that is found for a standing lies under, a name of the standing does too. -/
theorem exists_isUnder_of_find? {ps : List Permission} {p : Permission} {name : String}
    (found : Grant.find? ps op (standing.resources op user) = some p) (plain : '*' ∉ name.toList)
    (under : Pattern.IsUnder name p.firstSegment) :
    ∃ first, standing.Names first ∧ Pattern.IsUnder name first := by
  have permits := List.find?_some found
  obtain ⟨_, resource, mem, matching⟩ :=
    (Grant.permits_iff (standing.resources_ne_nil op user)).mp permits
  obtain ⟨first, _, segments, named⟩ := exists_names mem
  obtain ⟨_, patternSegments⟩ := p.split_resource
  have matching := Pattern.segmentMatches_of_matchesResource patternSegments segments matching
  exact ⟨first, named, under.of_segmentMatches plain matching⟩

end Standing

/-! ### Requests that pass -/

/-- What is known of a request that passed stays within its organization and its team: its caller
has its places there, and its permission names no other. -/
structure Context.Isolated (ctx : Context) (d : Directory) (route : Route) (user : UserId)
    (org : OrgId) (role : OrgRole) (p : Permission) : Prop where
  caller : ctx.user = some user
  placed : ctx.org = some org
  member : d.orgRole? org user = some role
  reached : route.needsTeam = true → ∃ team, ctx.team = some team ∧ d.teamOrg? team = some org ∧
    ((d.teamRole? team user).isSome = true ∨ role = .owner ∨ role = .admin)
  granted : ctx.grantedBy = some p
  ownOrg : ∀ n, Text.IsDigits n → Pattern.IsUnder (Grant.orgName n) p.firstSegment →
    n = toString org
  ownTeam : ∀ n k, Text.IsDigits n → Text.IsDigits k →
    Pattern.IsUnder (Grant.teamName n k) p.firstSegment →
      ∃ team, ctx.team = some team ∧ k = toString team

variable {m : Moment} {s : Site} {request : Request} {route : Route} {ctx : Context}

theorem OrgRole.eq_of_reachesTeams {role : OrgRole} (reaches : role.reachesTeams = true) :
    role = .owner ∨ role = .admin := by
  cases role with
  | owner => exact Or.inl rfl
  | admin => exact Or.inr rfl
  | member => cases reaches

theorem Context.placed_org {id : Uuid} {operation : Operation} {caller : Site.Caller}
    {standing : Standing} : (placed id operation caller standing).org = standing.org? := by
  cases standing <;> rfl

theorem Context.placed_team {id : Uuid} {operation : Operation} {caller : Site.Caller}
    {standing : Standing} : (placed id operation caller standing).team = standing.team? := by
  cases standing <;> rfl

/-- A standing that holds in a request to a route with an organization is in one. -/
theorem Standing.Holds.exists_inOrg {d : Directory} {user : UserId} {standing : Standing}
    (holds : standing.Holds d route request user) (inOrg : route.needsOrg = true) :
    ∃ org role, standing.org? = some org ∧ d.orgRole? org user = some role ∧
      (route.needsTeam = true → ∃ team, standing.team? = some team ∧ d.teamOrg? team = some org ∧
        ((d.teamRole? team user).isSome = true ∨ role = .owner ∨ role = .admin)) := by
  cases standing with
  | outside => cases inOrg.symm.trans holds.1
  | inOrg org role =>
      obtain ⟨_, needsTeam, member⟩ := holds
      exact ⟨org, role, rfl, member.member, fun needed => by cases needed.symm.trans needsTeam⟩
  | inTeam org role team teamRole =>
      obtain ⟨_, _, member, ⟨_, owned, place, reached⟩⟩ := holds
      refine ⟨org, role, rfl, member.member, fun _ => ⟨team, rfl, owned, ?_⟩⟩
      rw [place]
      exact reached.imp_right OrgRole.eq_of_reachesTeams

/-- **A request that passes stays within its organization and its team**: its caller, whom the
request proves, has a place in the organization, reaches the team, and is granted the operation by a
permission that names no other organization and no other team. -/
theorem isolated_of_executes (guarded : route.isPublic = false) (inOrg : route.needsOrg = true)
    (passes : ((Chain.build route .standard).execute m request s).1 = .ok ctx) :
    ∃ identity org role p, Proves m s request identity ∧
      ctx.Isolated s.directory route identity.user org role p := by
  obtain ⟨passed, rfl⟩ := Chain.execute_eq_ok.mp passes
  obtain ⟨id, identity, e, standing, p, audit, proves, holds, found, known⟩ :=
    granted_of_passes guarded (fun _ => inOrg) passed
  obtain ⟨org, role, placed, member, team⟩ := holds.exists_inOrg inOrg
  refine ⟨identity, org, role, p, proves, ?_⟩
  rw [known]
  refine ⟨Context.placed_user, Context.placed_org.trans placed, member, ?_, rfl, ?_, ?_⟩
  · intro needed
    obtain ⟨teamId, placedTeam, reached⟩ := team needed
    exact ⟨teamId, Context.placed_team.trans placedTeam, reached⟩
  · intro n digits under
    obtain ⟨first, named, under⟩ := Standing.exists_isUnder_of_find? found
      (Grant.notMem_orgName digits (by decide) (by decide)) under
    obtain ⟨org', placed', rfl⟩ := named.org_of_isUnder digits under
    rw [Option.some.inj (placed.symm.trans placed')]
  · intro n k digits digits' under
    obtain ⟨first, named, under⟩ := Standing.exists_isUnder_of_find? found
      (Grant.notMem_teamName digits digits' (by decide) (by decide) (by decide)) under
    obtain ⟨teamId, placedTeam, same⟩ := named.team_of_isUnder digits digits' under
    exact ⟨teamId, Context.placed_team.trans placedTeam, same⟩

/-- The lead of a team, granted the settings by what the team lends it, stays within the team. -/
theorem isolated_lead :
    Route.teamSettings.isPublic = false ∧ Route.teamSettings.needsOrg = true ∧
      ∃ ctx, ((Chain.build .teamSettings .standard).execute default
          (.forTeamSettings "Bearer pat_lead") (.ofOneLead "pat_lead")).1 = .ok ctx ∧
        ∃ user org role p,
          ctx.Isolated (Site.ofOneLead "pat_lead").directory .teamSettings user org role p := by
  have guarded : Route.teamSettings.isPublic = false := by decide
  have inOrg : Route.teamSettings.needsOrg = true := by decide
  obtain ⟨ctx, passes⟩ := lead_executes .empty
  obtain ⟨identity, org, role, p, _, isolated⟩ := isolated_of_executes guarded inOrg passes
  exact ⟨guarded, inOrg, ctx, passes, identity.user, org, role, p, isolated⟩

end Gatehouse
