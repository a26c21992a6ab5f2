import Gatehouse.Proofs.Site.Stages

/-!
The decision of a service about a request equals its specification.

`Admits` says in words of the stores alone when a request of a known identity is let pass: the
caller has a standing that holds, and one of the permissions that it is entitled to, as far as its
token goes, or that its standing lends it, matches the operation and one of the resources of the
standing. While no call fails, the chain of a route that is not public lets a request pass exactly
when it proves an identity that is admitted (`admitted_of_passes`, `passes_of_admitted`).
-/

namespace Gatehouse

/-- A request of an identity is admitted to a route. -/
def Admits (m : Moment) (s : Site) (route : Route) (request : Request) (identity : Identity) :
    Prop :=
  ∃ (standing : Standing) (e : Entitlements), standing.Holds s.directory route request identity.user ∧
    (s.cache.load m s.roles identity.user).1 = .ok e ∧
      Grant.Given (Site.permissionsOf identity e ++ standing.lent) route.operation
        (standing.resources route.operation identity.user)

variable {m : Moment} {s s' : Site} {request : Request} {route : Route} {id : Uuid}
  {operation : Operation} {caller : Site.Caller} {standing : Standing} {known : Context × Site}

/-! ### The stages one after the other -/

namespace Stage

theorem requestId_ok : requestId.process m request (.start operation, s) = (.ok (), known) ↔
    ∃ id, id = (request.id.bind Uuid.ofText?).getD m.requestId ∧
      known = ({ Context.start operation with requestId := id }, s) := by
  simp [requestId, eq_comm]

/-- Every request passes the end of a chain. -/
theorem end_ok (recorded : Bool) (known : Context × Site) :
    ∃ known', processAll m request ((if recorded then [audit] else []) ++ [responseLog]) known =
      (.ok (), known') := by
  cases recorded with
  | false => exact ⟨known, rfl⟩
  | true => exact ⟨_, rfl⟩

/-- The end of a chain adds nothing to what is known but the audit entry. -/
theorem end_context {recorded : Bool} {known known' : Context × Site}
    (passed : processAll m request ((if recorded then [audit] else []) ++ [responseLog]) known =
      (.ok (), known')) : known'.1 = { known.1 with audit := known'.1.audit } := by
  cases recorded <;> cases passed <;> rfl

/-- Whom authentication lets pass has proved an identity, whichever calls may fail. -/
theorem proves_of_authentication {ctx : Context}
    (done : authentication.process m request (ctx, s) = (.ok (), known)) :
    ∃ identity e s', Proves m s request identity ∧
      s.entitlements m identity.user = (.ok e, s') ∧
        known = (withCaller ctx ⟨identity, e.roles, Site.permissionsOf identity e⟩, s') := by
  obtain ⟨caller, accepted, noted⟩ := authentication_eq_ok_iff.mp done
  obtain ⟨identity, e, proves, loaded, rfl⟩ := Site.proves_of_authenticate accepted
  exact ⟨identity, e, known.2, proves, loaded, Prod.ext noted rfl⟩

/-- Whom the look-up of the organization lets pass is a member, whichever calls may fail. -/
theorem inOrg_of_org
    (done : org.process m request (.ofCaller id operation caller, s) = (.ok (), known)) :
    ∃ orgId role, s.directory.InOrg request caller.identity.user orgId role ∧
      known = (.placed id operation caller (.inOrg orgId role), s) := by
  obtain ⟨looked, same⟩ := ofLook_eq_iff.mp done
  obtain ⟨orgId, role, inOrg, found⟩ := inOrg_of_lookUpOrg looked
  exact ⟨orgId, role, inOrg, Prod.ext found same⟩

/-- Whom the look-up of the team lets pass may reach it, whichever calls may fail. -/
theorem inTeam_of_team {orgId : OrgId} {role : OrgRole}
    (done : team.process m request (.placed id operation caller (.inOrg orgId role), s) =
      (.ok (), known)) :
    ∃ teamId teamRole,
      s.directory.InTeam request caller.identity.user orgId role teamId teamRole ∧
        known = (.placed id operation caller (.inTeam orgId role teamId teamRole), s) := by
  obtain ⟨looked, same⟩ := ofLook_eq_iff.mp done
  obtain ⟨teamId, teamRole, inTeam, found⟩ := inTeam_of_lookUpTeam looked
  exact ⟨teamId, teamRole, inTeam, Prod.ext found same⟩

/-- Whom the look-ups of a route let pass has a standing in it, whichever calls may fail. -/
theorem standing_of_places (paired : route.needsTeam = true → route.needsOrg = true)
    (done : processAll m request ((if route.needsOrg then [org] else []) ++
      (if route.needsTeam then [team] else [])) (.ofCaller id operation caller, s) =
        (.ok (), known)) :
    ∃ standing : Standing, standing.Holds s.directory route request caller.identity.user ∧
      known = (.placed id operation caller standing, s) := by
  obtain ⟨between, first, second⟩ := processAll_append_ok.mp done
  cases needsOrg : route.needsOrg with
  | false =>
      have needsTeam : route.needsTeam = false :=
        Bool.eq_false_iff.mpr fun needed => by simp [paired needed] at needsOrg
      simp only [needsOrg, needsTeam, Bool.false_eq_true, if_false, processAll_nil_ok]
        at first second
      subst first second
      exact ⟨.outside, ⟨needsOrg, needsTeam⟩, by rw [Context.placed_outside]⟩
  | true =>
      rw [needsOrg, if_pos rfl, processAll_singleton_ok] at first
      obtain ⟨orgId, role, inOrg, rfl⟩ := inOrg_of_org first
      cases needsTeam : route.needsTeam with
      | false =>
          rw [needsTeam, if_neg Bool.false_ne_true] at second
          obtain rfl := processAll_nil_ok.mp second
          exact ⟨.inOrg orgId role, ⟨needsOrg, needsTeam, inOrg⟩, rfl⟩
      | true =>
          rw [needsTeam, if_pos rfl, processAll_singleton_ok] at second
          obtain ⟨teamId, teamRole, inTeam, rfl⟩ := inTeam_of_team second
          exact ⟨.inTeam orgId role teamId teamRole, ⟨needsOrg, needsTeam, inOrg, inTeam⟩, rfl⟩

/-- The permission that is found is the first one given for the standing. -/
theorem permission_eq_ok :
    permission.process m request (.placed id operation caller standing, s) = (.ok (), known) ↔
      ∃ p, Grant.find? (caller.permissions ++ standing.lent) operation
          (standing.resources operation caller.identity.user) = some p ∧
        known = ({ Context.placed id operation caller standing with grantedBy := some p }, s) := by
  unfold permission
  simp only [ofLook_eq_iff, lookForGrant_eq_ok_iff, Context.placed_permissions, Context.placed_operation,
    Context.placed_vars, Standing.candidates_vars, Prod.ext_iff (x := known), and_assoc, ← exists_and_right]

/-- A permission is found when one is given for the standing. -/
theorem permission_ok :
    (∃ known, permission.process m request (.placed id operation caller standing, s) =
      (.ok (), known)) ↔
      Grant.Given (caller.permissions ++ standing.lent) operation
        (standing.resources operation caller.identity.user) := by
  rw [← Grant.isSome_find?_iff (standing.resources_ne_nil operation caller.identity.user),
    Option.isSome_iff_exists]
  constructor
  · rintro ⟨known, granted⟩
    obtain ⟨p, found, _⟩ := permission_eq_ok.mp granted
    exact ⟨p, found⟩
  · rintro ⟨p, found⟩
    exact ⟨_, permission_eq_ok.mpr ⟨p, found, rfl⟩⟩

variable (calm : m.outage = .none)

include calm

theorem authentication_ok {ctx : Context} :
    authentication.process m request (ctx, s) = (.ok (), known) ↔
      ∃ identity e s', Proves m s request identity ∧
        s.entitlements m identity.user = (.ok e, s') ∧
          known = (withCaller ctx ⟨identity, e.roles, Site.permissionsOf identity e⟩, s') := by
  constructor
  · exact proves_of_authentication
  · rintro ⟨identity, e, s', proves, loaded, rfl⟩
    exact authentication_eq_ok_iff.mpr
      ⟨_, (Site.authenticate_eq_ok calm).mpr ⟨identity, e, proves, loaded, rfl⟩, rfl⟩

theorem org_ok : org.process m request (.ofCaller id operation caller, s) = (.ok (), known) ↔
    ∃ orgId role, s.directory.InOrg request caller.identity.user orgId role ∧
      known = (.placed id operation caller (.inOrg orgId role), s) := by
  constructor
  · exact inOrg_of_org
  · rintro ⟨orgId, role, inOrg, rfl⟩
    exact ofLook_eq_iff.mpr ⟨(lookUpOrg_eq_ok calm).mpr ⟨orgId, role, inOrg, rfl⟩, rfl⟩

theorem team_ok {orgId : OrgId} {role : OrgRole} :
    team.process m request (.placed id operation caller (.inOrg orgId role), s) =
      (.ok (), known) ↔
      ∃ teamId teamRole,
        s.directory.InTeam request caller.identity.user orgId role teamId teamRole ∧
          known = (.placed id operation caller (.inTeam orgId role teamId teamRole), s) := by
  constructor
  · exact inTeam_of_team
  · rintro ⟨teamId, teamRole, inTeam, rfl⟩
    exact ofLook_eq_iff.mpr ⟨(lookUpTeam_eq_ok calm).mpr ⟨teamId, teamRole, inTeam, rfl⟩, rfl⟩

/-- The look-ups of a route let pass who has a standing in it. -/
theorem places_ok (paired : route.needsTeam = true → route.needsOrg = true) :
    processAll m request ((if route.needsOrg then [org] else []) ++
      (if route.needsTeam then [team] else [])) (.ofCaller id operation caller, s) =
        (.ok (), known) ↔
      ∃ standing : Standing, standing.Holds s.directory route request caller.identity.user ∧
        known = (.placed id operation caller standing, s) := by
  constructor
  · exact standing_of_places paired
  · rintro ⟨standing, holds, rfl⟩
    cases standing with
    | outside =>
        obtain ⟨needsOrg, needsTeam⟩ := holds
        rw [needsOrg, needsTeam, Context.placed_outside]
        rfl
    | inOrg orgId role =>
        obtain ⟨needsOrg, needsTeam, inOrg⟩ := holds
        rw [needsOrg, needsTeam]
        exact processAll_singleton_ok.mpr ((org_ok calm).mpr ⟨orgId, role, inOrg, rfl⟩)
    | inTeam orgId role teamId teamRole =>
        obtain ⟨needsOrg, needsTeam, inOrg, inTeam⟩ := holds
        rw [needsOrg, needsTeam]
        refine processAll_cons_ok.mpr ⟨_, (org_ok calm).mpr ⟨orgId, role, inOrg, rfl⟩, ?_⟩
        exact processAll_singleton_ok.mpr
          ((team_ok calm).mpr ⟨teamId, teamRole, inTeam, rfl⟩)

end Stage

/-! ### The whole chain -/

/-- The stages of a route: those that find out who the caller is, those that look up its places, the one
that looks for its permission, and those that end the chain. -/
theorem Chain.stages_build (route : Route) : (build route .standard).stages =
    (Stage.requestId :: if !route.isPublic then [Stage.authentication] else []) ++
      (((if route.needsOrg then [Stage.org] else []) ++
        (if route.needsTeam then [Stage.team] else [])) ++
          ((if !route.isPublic then [Stage.permission] else []) ++
            ((if !route.isPublic && !route.isReadOnly then [Stage.audit] else []) ++
              [Stage.responseLog]))) := by
  simp [build, Concerns.standard]

theorem Chain.stages_build_standard (guarded : route.isPublic = false) :
    (build route .standard).stages = Stage.requestId :: Stage.authentication ::
      (((if route.needsOrg then [Stage.org] else []) ++
        (if route.needsTeam then [Stage.team] else [])) ++ (Stage.permission ::
          ((if !route.isReadOnly then [Stage.audit] else []) ++ [Stage.responseLog]))) := by
  simp [stages_build, guarded]

theorem Chain.stages_build_standard_public (isOpen : route.isPublic = true) :
    (build route .standard).stages = Stage.requestId ::
      ((if route.needsOrg then [Stage.org] else []) ++
        ((if route.needsTeam then [Stage.team] else []) ++ [Stage.responseLog])) := by
  simp [stages_build, isOpen]

/-- A request that passes the chain of a route that is not public passes authentication, the
look-ups and the search for a permission one after the other. -/
theorem Chain.steps_of_passes (guarded : route.isPublic = false)
    (passes : ((build route .standard).run m request s).outcome = .ok ()) :
    ∃ id authenticated placed granted,
      Stage.authentication.process m request
        ({ Context.start route.operation with requestId := id }, s) = (.ok (), authenticated) ∧
      Stage.processAll m request ((if route.needsOrg then [Stage.org] else []) ++
        (if route.needsTeam then [Stage.team] else [])) authenticated = (.ok (), placed) ∧
      Stage.permission.process m request placed = (.ok (), granted) ∧
      ((build route .standard).run m request s).context = { granted.1 with
        audit := ((build route .standard).run m request s).context.audit } := by
  obtain ⟨known, passed⟩ := run_ok_iff.mp passes
  rw [run_context passed]
  rw [stages_build_standard guarded] at passed
  obtain ⟨_, identified, passed⟩ := Stage.processAll_cons_ok.mp passed
  obtain ⟨id, _, rfl⟩ := Stage.requestId_ok.mp identified
  obtain ⟨authenticated, first, passed⟩ := Stage.processAll_cons_ok.mp passed
  obtain ⟨placed, second, passed⟩ := Stage.processAll_append_ok.mp passed
  obtain ⟨granted, third, ended⟩ := Stage.processAll_cons_ok.mp passed
  exact ⟨id, authenticated, placed, granted, first, second, third, Stage.end_context ended⟩

/-- What is known in the end of a request that passes: the caller that it proves, a standing that
holds, and the first permission of the caller there that grants the operation. Whichever calls
fail. -/
theorem granted_of_passes (guarded : route.isPublic = false)
    (paired : route.needsTeam = true → route.needsOrg = true)
    (passes : ((Chain.build route .standard).run m request s).outcome = .ok ()) :
    ∃ id identity e standing p audit, Proves m s request identity ∧
      standing.Holds s.directory route request identity.user ∧
      Grant.find? (Site.permissionsOf identity e ++ standing.lent) route.operation
        (standing.resources route.operation identity.user) = some p ∧
      ((Chain.build route .standard).run m request s).context =
        { Context.placed id route.operation
            ⟨identity, e.roles, Site.permissionsOf identity e⟩ standing with
          grantedBy := some p
          audit } := by
  obtain ⟨id, _, _, _, authenticated, placed, granted, known⟩ :=
    Chain.steps_of_passes guarded passes
  obtain ⟨identity, e, s', proves, loaded, rfl⟩ := Stage.proves_of_authentication authenticated
  obtain ⟨standing, holds, rfl⟩ := Stage.standing_of_places paired placed
  obtain ⟨p, found, rfl⟩ := Stage.permission_eq_ok.mp granted
  obtain ⟨_, rfl⟩ := Prod.mk.inj loaded
  exact ⟨id, identity, e, standing, p, _, proves, holds, found, known⟩

/-- A request that passes the chain of a route that is not public has proved an identity that is
admitted, and whose user is known from then on. -/
theorem admitted_of_passes (guarded : route.isPublic = false)
    (paired : route.needsTeam = true → route.needsOrg = true) (calm : m.outage = .none)
    (passes : ((Chain.build route .standard).run m request s).outcome = .ok ()) :
    ∃ identity, Proves m s request identity ∧ Admits m s route request identity ∧
      ((Chain.build route .standard).run m request s).context.user = some identity.user := by
  obtain ⟨id, _, _, between, authenticated, placed, granted, known⟩ :=
    Chain.steps_of_passes guarded passes
  obtain ⟨identity, e, s', proves, loaded, rfl⟩ := (Stage.authentication_ok calm).mp authenticated
  obtain ⟨standing, holds, rfl⟩ := (Stage.places_ok calm paired).mp placed
  have given := Stage.permission_ok.mp ⟨between, granted⟩
  obtain ⟨p, _, rfl⟩ := Stage.permission_eq_ok.mp granted
  obtain ⟨load, rfl⟩ := Prod.mk.inj loaded
  refine ⟨identity, proves, ⟨standing, e, holds, load, given⟩, ?_⟩
  rw [known]
  simp only [Context.placed_user]

/-- A request of an identity that is admitted passes the chain. -/
theorem passes_of_admitted {identity : Identity} (guarded : route.isPublic = false)
    (paired : route.needsTeam = true → route.needsOrg = true) (calm : m.outage = .none)
    (proves : Proves m s request identity) (admits : Admits m s route request identity) :
    ((Chain.build route .standard).run m request s).outcome = .ok () := by
  rw [Chain.run_ok_iff, Chain.stages_build_standard guarded]
  obtain ⟨standing, e, holds, load, given⟩ := admits
  let id := (request.id.bind Uuid.ofText?).getD m.requestId
  let caller : Site.Caller := ⟨identity, e.roles, Site.permissionsOf identity e⟩
  let s' : Site := { s with cache := (s.cache.load m s.roles identity.user).2 }
  have authenticated : Stage.authentication.process m request
      ({ Context.start route.operation with requestId := id }, s) =
        (.ok (), .ofCaller id route.operation caller, s') :=
    (Stage.authentication_ok calm).mpr ⟨identity, e, s', proves, Prod.ext load rfl, rfl⟩
  have placed : Stage.processAll m request ((if route.needsOrg then [Stage.org] else []) ++
      (if route.needsTeam then [Stage.team] else []))
        (.ofCaller id route.operation caller, s') =
          (.ok (), .placed id route.operation caller standing, s') :=
    (Stage.places_ok calm paired).mpr ⟨standing, holds, rfl⟩
  obtain ⟨between, granted⟩ : ∃ between, Stage.permission.process m request
      (.placed id route.operation caller standing, s') = (.ok (), between) :=
    Stage.permission_ok.mpr given
  obtain ⟨known, ended⟩ : ∃ known, Stage.processAll m request
      ((if !route.isReadOnly then [Stage.audit] else []) ++ [Stage.responseLog]) between =
        (.ok (), known) :=
    Stage.end_ok _ between
  refine ⟨known, Stage.processAll_cons_ok.mpr ⟨_, rfl, ?_⟩⟩
  refine Stage.processAll_cons_ok.mpr ⟨_, authenticated, ?_⟩
  refine Stage.processAll_append_ok.mpr ⟨_, placed, ?_⟩
  exact Stage.processAll_cons_ok.mpr ⟨_, granted, ended⟩

/-- The decision of the chain is that of the specification. -/
theorem passes_iff_admitted (guarded : route.isPublic = false)
    (paired : route.needsTeam = true → route.needsOrg = true) (calm : m.outage = .none) :
    ((Chain.build route .standard).run m request s).outcome = .ok () ↔
      ∃ identity, Proves m s request identity ∧ Admits m s route request identity := by
  constructor
  · intro passes
    obtain ⟨identity, proves, admits, _⟩ := admitted_of_passes guarded paired calm passes
    exact ⟨identity, proves, admits⟩
  · rintro ⟨identity, proves, admits⟩
    exact passes_of_admitted guarded paired calm proves admits

/-! ### Routes that are not in the specification -/

/-- A route with a team and no organization lets nothing pass. -/
theorem paired_of_passes (guarded : route.isPublic = false)
    (passes : ((Chain.build route .standard).run m request s).outcome = .ok ()) :
    route.needsTeam = true → route.needsOrg = true := by
  intro needsTeam
  obtain ⟨id, authenticated, between, _, first, second, _, _⟩ :=
    Chain.steps_of_passes guarded passes
  obtain ⟨identity, e, s', _, _, rfl⟩ := Stage.proves_of_authentication first
  cases needsOrg : route.needsOrg with
  | true => rfl
  | false =>
      rw [needsOrg, needsTeam] at second
      obtain ⟨looked, _⟩ := Stage.ofLook_eq_iff.mp (Stage.processAll_singleton_ok.mp second)
      obtain ⟨_, _, _, _, _, _, inOrg, _⟩ := Stage.lookUpTeam_eq_ok_iff.mp looked
      cases inOrg

/-- A route that is public lets everything pass, unless it asks for a place that only callers have. -/
theorem passes_public_iff (isOpen : route.isPublic = true) :
    ((Chain.build route .standard).run m request s).outcome = .ok () ↔
      route.needsOrg = false ∧ route.needsTeam = false := by
  rw [Chain.run_ok_iff, Chain.stages_build_standard_public isOpen]
  constructor
  · rintro ⟨known, passed⟩
    obtain ⟨_, identified, passed⟩ := Stage.processAll_cons_ok.mp passed
    obtain ⟨id, _, rfl⟩ := Stage.requestId_ok.mp identified
    obtain ⟨between, first, passed⟩ := Stage.processAll_append_ok.mp passed
    cases needsOrg : route.needsOrg with
    | true =>
        rw [needsOrg] at first
        obtain ⟨looked, _⟩ := Stage.ofLook_eq_iff.mp (Stage.processAll_singleton_ok.mp first)
        obtain ⟨_, _, _, known, _⟩ := Stage.lookUpOrg_eq_ok_iff.mp looked
        cases known
    | false =>
        refine ⟨rfl, Bool.eq_false_iff.mpr fun needsTeam => ?_⟩
        rw [needsOrg] at first
        obtain rfl := Stage.processAll_nil_ok.mp first
        obtain ⟨_, second, _⟩ := Stage.processAll_append_ok.mp passed
        rw [needsTeam] at second
        obtain ⟨looked, _⟩ := Stage.ofLook_eq_iff.mp (Stage.processAll_singleton_ok.mp second)
        obtain ⟨_, _, _, _, _, known, _⟩ := Stage.lookUpTeam_eq_ok_iff.mp looked
        cases known
  · rintro ⟨needsOrg, needsTeam⟩
    rw [needsOrg, needsTeam]
    exact ⟨_, rfl⟩

/-! ### A team of an organization -/

theorem isOperation_teamSettings : isOperation "org:team:settings" = true := by decide

/-- The settings of a team. -/
def Route.teamSettings : Route :=
  ⟨"GET", "/orgs/\x7borg_id\x7d/teams/\x7bteam_id\x7d/settings",
    ⟨"org:team:settings", isOperation_teamSettings⟩, []⟩

/-- An organization with a team, whose lead is an ordinary member of the organization. -/
def Directory.ofOneTeam : Directory :=
  (((empty.addTeam 7 3).addOrgMember 7 11 .member).addTeamMember 3 11 .lead).2

/-- A request for the settings of the team. -/
def Request.forTeamSettings (authorization : String) : Request :=
  ⟨"GET", "/orgs/7/teams/3/settings", some authorization, none,
    .ofList [("org_id", "7"), ("team_id", "3")], none⟩

theorem holds_ofOneTeam (authorization : String) :
    (Standing.inTeam 7 .member 3 (some .lead)).Holds .ofOneTeam .teamSettings
      (.forTeamSettings authorization) 11 :=
  ⟨by decide, by decide, ⟨⟨"7", rfl, by decide⟩, by decide, by decide⟩,
    ⟨⟨"3", rfl, by decide⟩, by decide, by decide, Or.inl rfl⟩⟩

/-- The lead of a team passes with a session, by what the team lends to its lead. -/
theorem session_of_lead_passes :
    let s := { Site.start .default .log 0 with
      roles := .builtIn, directory := .ofOneTeam, sessions := Sessions.empty.add "secret" 11 }
    Route.teamSettings.isPublic = false ∧
      ((Chain.build .teamSettings .standard).run default (.forTeamSettings "Bearer secret")
        s).outcome = .ok () := by
  intro s
  have guarded : Route.teamSettings.isPublic = false := by decide
  have needsOrg : Route.teamSettings.needsOrg = true := by decide
  refine ⟨guarded, (passes_iff_admitted guarded (fun _ => needsOrg) rfl).mpr ?_⟩
  have header : Credential.ofHeader "pat_" (some "Bearer secret") = .ok (.session "secret") := by
    decide
  refine ⟨⟨11, .session, none⟩, .session header (by decide), ?_⟩
  refine ⟨.inTeam 7 .member 3 (some .lead), ⟨["user"], [.everywhere "self:*:*"]⟩,
    holds_ofOneTeam _, ?_, ?_⟩
  · rfl
  · refine ⟨Grant.teamLead 7 3, by decide, by decide, Grant.teamResource 7 3, ?_, ?_⟩
    · exact Standing.teamResource_mem_resources (by decide)
    · decide

end Gatehouse
