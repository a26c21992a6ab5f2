import Gatehouse.Proofs.Token.Confinement

/-!
A token never does more than its owner.

Two requests differ in their credential only: one bears a token, the other a session of the token's
owner. Every stage that lets the first pass lets the second pass too, since what is known of the
second covers what is known of the first (`Context.Covers`): the same caller in the same places, with
all of the permissions and maybe more. So what the token passes, the session passes
(`session_passes_of_token`). Nothing is asked of the route, the scopes or the stores, and of the calls
only that sessions can be verified.
-/

namespace Gatehouse

/-- What is known of a request covers what is known of another: it is the same but for how the caller
was authenticated, and no permission is missing. -/
structure Context.Covers (ctx' ctx : Context) : Prop where
  requestId : ctx'.requestId = ctx.requestId
  operation : ctx'.operation = ctx.operation
  user : ctx'.user = ctx.user
  roles : ctx'.roles = ctx.roles
  permissions : ctx.permissions ⊆ ctx'.permissions
  org : ctx'.org = ctx.org
  orgRole : ctx'.orgRole = ctx.orgRole
  team : ctx'.team = ctx.team
  teamRole : ctx'.teamRole = ctx.teamRole
  vars : ctx'.vars = ctx.vars

theorem Context.Covers.refl (ctx : Context) : ctx.Covers ctx :=
  ⟨rfl, rfl, rfl, rfl, List.Subset.refl _, rfl, rfl, rfl, rfl, rfl⟩

/-- Two runs that began with the same service: no store has changed in either, their caches are the
same, and what is known in the second covers what is known in the first. -/
structure Covered (s : Site) (known known' : Context × Site) : Prop where
  covers : known'.1.Covers known.1
  config : known.2.config = s.config ∧ known'.2.config = s.config
  roles : known.2.roles = s.roles ∧ known'.2.roles = s.roles
  directory : known.2.directory = s.directory ∧ known'.2.directory = s.directory
  tokens : known.2.tokens = s.tokens ∧ known'.2.tokens = s.tokens
  sessions : known.2.sessions = s.sessions ∧ known'.2.sessions = s.sessions
  cache : known'.2.cache = known.2.cache

theorem Covered.refl (s : Site) (ctx : Context) : Covered s (ctx, s) (ctx, s) :=
  ⟨.refl ctx, ⟨rfl, rfl⟩, ⟨rfl, rfl⟩, ⟨rfl, rfl⟩, ⟨rfl, rfl⟩, ⟨rfl, rfl⟩, rfl⟩

variable {m : Moment} {s : Site} {request : Request} {route : Route} {header : Option String}
  {secret opened : String} {token : Token}

/-- More permissions grant no less. -/
theorem Grant.exists_find?_of_subset {ps ps' : List Permission} {op : Operation}
    {resources : List String} {p : Permission} (more : ps ⊆ ps')
    (found : find? ps op resources = some p) : ∃ p', find? ps' op resources = some p' := by
  have grants := List.find?_some found
  exact Option.isSome_iff_exists.mp
    (List.find?_isSome.mpr ⟨p, more (List.mem_of_find?_eq_some found), grants⟩)

/-! ### One stage after the other -/

namespace Stage

theorem requestId_carries :
    requestId.Carries m request { request with authorization := header } (Covered s) := by
  intro known known' after related passed
  cases passed
  exact ⟨_, rfl, { related with covers := { related.covers with requestId := rfl } }⟩

theorem responseLog_carries :
    responseLog.Carries m request { request with authorization := header } (Covered s) := by
  intro known known' after related passed
  cases passed
  exact ⟨_, rfl, related⟩

theorem audit_carries :
    audit.Carries m request { request with authorization := header } (Covered s) := by
  intro known known' after related passed
  cases passed
  exact ⟨_, rfl, { related with covers := { related.covers with } }⟩

theorem org_carries :
    org.Carries m request { request with authorization := header } (Covered s) := by
  rintro ⟨ctx, s₁⟩ ⟨ctx', s₂⟩ ⟨after, _⟩ related passed
  obtain ⟨looked, rfl⟩ := ofLook_eq_iff.mp passed
  obtain ⟨user, orgId, role, known, named, present, asked, rfl⟩ := lookUpOrg_eq_ok_iff.mp looked
  have looked' : (lookUpOrg m s₂ { request with authorization := header }).run ctx' = (.ok (), { ctx' with
      org := some orgId
      orgRole := some role
      vars := ctx'.vars.bind Variables.org (toString orgId) }) := by
    have directory := related.directory.2.trans related.directory.1.symm
    refine lookUpOrg_eq_ok_iff.mpr ⟨user, orgId, role, related.covers.user.trans known, named, ?_, ?_,
      rfl⟩
    · rw [directory, present]
    · rw [directory, asked]
  refine ⟨(_, s₂), ofLook_eq_iff.mpr ⟨looked', rfl⟩, { related with covers := { related.covers with
    org := rfl, orgRole := rfl, vars := ?_ } }⟩
  rw [related.covers.vars]

theorem team_carries :
    team.Carries m request { request with authorization := header } (Covered s) := by
  rintro ⟨ctx, s₁⟩ ⟨ctx', s₂⟩ ⟨after, _⟩ related passed
  obtain ⟨looked, rfl⟩ := ofLook_eq_iff.mp passed
  obtain ⟨user, orgId, role, teamId, teamRole, known, inOrg, place, named, owned, asked, reached,
    rfl⟩ := lookUpTeam_eq_ok_iff.mp looked
  have looked' : (lookUpTeam m s₂ { request with authorization := header }).run ctx' = (.ok (), { ctx' with
      team := some teamId
      teamRole
      vars := ctx'.vars.bind Variables.team (toString teamId)
      permissions :=
        if teamRole = some .lead then ctx'.permissions ++ [Grant.teamLead orgId teamId]
        else ctx'.permissions }) := by
    have directory := related.directory.2.trans related.directory.1.symm
    refine lookUpTeam_eq_ok_iff.mpr ⟨user, orgId, role, teamId, teamRole,
      related.covers.user.trans known, related.covers.org.trans inOrg,
      related.covers.orgRole.trans place, named, ?_, ?_, reached, rfl⟩
    · rw [directory, owned]
    · rw [directory, asked]
  refine ⟨(_, s₂), ofLook_eq_iff.mpr ⟨looked', rfl⟩, { related with covers := { related.covers with
    permissions := ?_, team := rfl, teamRole := rfl, vars := ?_ } }⟩
  · -- What a lead is lent, it is lent in both runs.
    by_cases leads : teamRole = some .lead
    · simp only [leads, if_true]
      exact List.append_subset.mpr ⟨List.subset_append_of_subset_left _ related.covers.permissions,
        List.subset_append_right _ _⟩
    · simp only [leads, if_false]
      exact related.covers.permissions
  · rw [related.covers.vars]

theorem permission_carries :
    permission.Carries m request { request with authorization := header } (Covered s) := by
  rintro ⟨ctx, s₁⟩ ⟨ctx', s₂⟩ ⟨after, _⟩ related passed
  obtain ⟨looked, rfl⟩ := ofLook_eq_iff.mp passed
  obtain ⟨p, found, rfl⟩ := lookForGrant_eq_ok_iff.mp looked
  obtain ⟨p', found'⟩ := Grant.exists_find?_of_subset related.covers.permissions found
  have looked' : lookForGrant.run ctx' = (.ok (), { ctx' with grantedBy := some p' }) := by
    refine lookForGrant_eq_ok_iff.mpr ⟨p', ?_, rfl⟩
    rw [related.covers.operation, related.covers.vars, found']
  exact ⟨(_, s₂), ofLook_eq_iff.mpr ⟨looked', rfl⟩,
    { related with covers := { related.covers with } }⟩

/-- Where a token of the owner is accepted, a session of the owner is accepted too, and nothing that
the owner is entitled to is kept from it. -/
theorem authentication_carries (bears : request.Bears s secret)
    (stored : s.tokens.find? (Token.hashOf secret) = some token)
    (named : Credential.ofHeader s.config.tokenPrefix header = .ok (.session opened))
    (known : s.sessions.byToken.find? opened = some token.owner)
    (up : m.outage.stores .verifySession = false) :
    authentication.Carries m request { request with authorization := header } (Covered s) := by
  rintro ⟨ctx, s₁⟩ ⟨ctx', s₂⟩ after related passed
  obtain ⟨identity, e, s', proves, loaded, rfl⟩ := proves_of_authentication passed
  have bears : request.Bears s₁ secret := by
    unfold Request.Bears
    rw [related.config.1, bears]
  obtain ⟨token', stored', rfl, _⟩ := proves.of_bears bears
  rw [related.tokens.1] at stored'
  cases stored.symm.trans stored'
  obtain ⟨load, rfl⟩ := Prod.mk.inj loaded
  let caller : Site.Caller := ⟨⟨token.owner, .session, none⟩, e.roles, e.permissions⟩
  let s₂' : Site := { s₂ with cache := (s₂.cache.load m s₂.roles token.owner).2 }
  have roles := related.roles.2.trans related.roles.1.symm
  have loaded' : s₂.entitlements m token.owner = (.ok e, s₂') := by
    refine Prod.ext ?_ rfl
    rw [← load, ← related.cache, ← roles]
    rfl
  have accepted : s₂.authenticate m header request.address = (.ok caller, s₂') := by
    unfold Site.authenticate
    rw [related.config.2, named]
    simp only
    rw [Credential.resolve_session up (by rw [related.sessions.2, known])]
    simp only
    rw [loaded']
    rfl
  have passed' : authentication.process m { request with authorization := header } (ctx', s₂) =
      (.ok (), withCaller ctx' caller, s₂') :=
    authentication_eq_ok_iff.mpr ⟨caller, accepted, rfl⟩
  refine ⟨_, passed', { related with
    covers := { related.covers with user := rfl, roles := rfl, permissions := ?_, vars := ?_ }
    cache := ?_ }⟩
  · exact fun p mem => Scopes.mem_of_mem_restrict mem
  · exact congrArg (·.bind Variables.me (toString token.owner)) related.covers.vars
  · show (s₂.cache.load m s₂.roles token.owner).2 = (s₁.cache.load m s₁.roles token.owner).2
    rw [related.cache, roles]

end Stage

/-! ### The whole chain -/

/-- **A token never exceeds its owner**: a request that passes with a token passes with a session of
the token's owner, from the same service and in the same places. -/
theorem session_passes_of_token {ctx : Context} (bears : request.Bears s secret)
    (stored : s.tokens.find? (Token.hashOf secret) = some token)
    (named : Credential.ofHeader s.config.tokenPrefix header = .ok (.session opened))
    (known : s.sessions.byToken.find? opened = some token.owner)
    (up : m.outage.stores .verifySession = false)
    (passes : ((Chain.build route .standard).execute m request s).1 = .ok ctx) :
    ∃ ctx', ((Chain.build route .standard).execute m
      { request with authorization := header } s).1 = .ok ctx' ∧ ctx'.Covers ctx := by
  have carries : ∀ stage ∈ (Chain.build route .standard).stages,
      stage.Carries m request { request with authorization := header } (Covered s) := by
    intro stage mem
    rcases Chain.mem_stages_build mem with rfl | caller | org | team | permission | audit | rfl
    · exact Stage.requestId_carries
    · obtain rfl := Option.some.inj caller
      exact Stage.authentication_carries bears stored named known up
    · obtain rfl := Option.some.inj org
      exact Stage.org_carries
    · obtain rfl := Option.some.inj team
      exact Stage.team_carries
    · obtain rfl := Option.some.inj permission
      exact Stage.permission_carries
    · obtain rfl := Option.some.inj audit
      exact Stage.audit_carries
    · exact Stage.responseLog_carries
  obtain ⟨ctx', _, _, passes', related⟩ := Chain.execute_carries carries (.refl s _) passes
  exact ⟨ctx', passes', related.covers⟩

/-- What the lead of a team does with a token that is good for its own account only, it does with a
session. -/
theorem lead_passes_with_session :
    let s := { Site.ofOneLead "pat_lead" with sessions := Sessions.empty.add "secret" 11 }
    (Request.forTeamSettings "Bearer pat_lead").Bears s "pat_lead" ∧
      ∃ ctx ctx', ((Chain.build .teamSettings .standard).execute default
          (.forTeamSettings "Bearer pat_lead") s).1 = .ok ctx ∧
        ((Chain.build .teamSettings .standard).execute default
          (.forTeamSettings "Bearer secret") s).1 = .ok ctx' ∧ ctx'.Covers ctx := by
  intro s
  have stored := TokenStore.find?_insert_self .empty (.ofOwnAccount 11 "pat_lead")
  have named : Credential.ofHeader "pat_" (some "Bearer secret") = .ok (.session "secret") := by
    decide
  have known : (Sessions.empty.add "secret" 11).byToken.find? "secret" = some 11 := by decide
  obtain ⟨ctx, passes⟩ := lead_executes (Sessions.empty.add "secret" 11)
  obtain ⟨ctx', passes', covers⟩ :=
    session_passes_of_token (s := s) bears_lead_secret stored named known rfl passes
  exact ⟨bears_lead_secret, ctx, ctx', passes, passes', covers⟩

end Gatehouse
