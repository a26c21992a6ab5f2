import Gatehouse.Proofs.Attempt
import Gatehouse.Proofs.Chain
import Gatehouse.Proofs.Standing
import Gatehouse.Site.Stages

/-!
Which requests the stages of a service let pass, and what is known afterwards.

While no call fails, authentication lets pass who proves an identity (`Proves`), and the look-ups of
the organization and the team let pass who has a `Standing` that holds (`Standing.Holds`). Each has
one lemma that gives the exact result of its success.
-/

namespace Gatehouse

/-! ### What the stages ask for -/

/-- The path of a request names an identifier in one of its parameters. -/
def Request.Names (request : Request) (name : String) (n : UInt64) : Prop :=
  ∃ text, request.parameters.find? name = some text ∧ Text.uint64? text = some n

/-- A request proves an identity: its header names an open session, or the secret of a stored token
that may be used now and from where the request came. -/
inductive Proves (m : Moment) (s : Site) (request : Request) : Identity → Prop
  | session {token : String} {user : UserId}
      (header : Credential.ofHeader s.config.tokenPrefix request.authorization =
        .ok (.session token))
      (known : s.sessions.byToken.find? token = some user) :
      Proves m s request ⟨user, .session, none⟩
  | personal {secret : String} {token : Token}
      (header : Credential.ofHeader s.config.tokenPrefix request.authorization =
        .ok (.personal secret))
      (stored : s.tokens.find? (Token.hashOf secret) = some token)
      (valid : token.check m.now request.address = .ok ()) :
      Proves m s request ⟨token.owner, .token, some token.scopes⟩

/-- The header of a request is the secret of a token. -/
def Request.Bears (request : Request) (s : Site) (secret : String) : Prop :=
  Credential.ofHeader s.config.tokenPrefix request.authorization = .ok (.personal secret)

/-- A request is about an organization of which its caller is a member. -/
structure Directory.InOrg (d : Directory) (request : Request) (user : UserId) (org : OrgId)
    (role : OrgRole) : Prop where
  named : request.Names orgParameter org
  registered : d.orgExists org = true
  member : d.orgRole? org user = some role

/-- A request is about a team of the organization, which its caller may reach. -/
structure Directory.InTeam (d : Directory) (request : Request) (user : UserId) (org : OrgId)
    (role : OrgRole) (team : TeamId) (teamRole : Option TeamRole) : Prop where
  named : request.Names teamParameter team
  owned : d.teamOrg? team = some org
  place : d.teamRole? team user = teamRole
  reached : teamRole.isSome = true ∨ role.reachesTeams = true

/-- A standing is the caller's in a request to a route. -/
def Standing.Holds (d : Directory) (route : Route) (request : Request) (user : UserId) :
    Standing → Prop
  | .outside => route.needsOrg = false ∧ route.needsTeam = false
  | .inOrg org role =>
    route.needsOrg = true ∧ route.needsTeam = false ∧ d.InOrg request user org role
  | .inTeam org role team teamRole =>
    route.needsOrg = true ∧ route.needsTeam = true ∧ d.InOrg request user org role ∧
      d.InTeam request user org role team teamRole

/-! ### What is known after the stages -/

/-- What is known once the caller is. -/
def Context.ofCaller (id : Uuid) (operation : Operation) (caller : Site.Caller) : Context :=
  Stage.withCaller { Context.start operation with requestId := id } caller

/-- What is known once the caller's standing is. -/
def Context.placed (id : Uuid) (operation : Operation) (caller : Site.Caller)
    (standing : Standing) : Context :=
  let ctx := { Context.ofCaller id operation caller with
    vars := standing.vars caller.identity.user
    permissions := caller.permissions ++ standing.lent }
  match standing with
  | .outside => ctx
  | .inOrg org role => { ctx with org := some org, orgRole := some role }
  | .inTeam org role team teamRole =>
    { ctx with org := some org, orgRole := some role, team := some team, teamRole := teamRole }

variable {m : Moment} {s s' : Site} {request : Request} {route : Route} {ctx : Context}
  {id : Uuid} {operation : Operation} {caller : Site.Caller} {standing : Standing}
  {known : Context × Site}

theorem Context.placed_permissions :
    (placed id operation caller standing).permissions = caller.permissions ++ standing.lent := by
  cases standing <;> rfl

theorem Context.placed_user :
    (placed id operation caller standing).user = some caller.identity.user := by
  cases standing <;> rfl

theorem Context.placed_vars :
    (placed id operation caller standing).vars = standing.vars caller.identity.user := by
  cases standing <;> rfl

theorem Context.placed_operation : (placed id operation caller standing).operation = operation := by
  cases standing <;> rfl

theorem Context.placed_outside : placed id operation caller .outside = ofCaller id operation caller := by
  unfold placed ofCaller Stage.withCaller
  simp [Standing.lent, Standing.vars, Context.start]

theorem Context.placed_inOrg (org : OrgId) (role : OrgRole) :
    placed id operation caller (.inOrg org role) =
      { ofCaller id operation caller with
        org := some org
        orgRole := some role
        vars := (ofCaller id operation caller).vars.bind Variables.org (toString org) } := by
  simp [placed, Standing.lent, Standing.vars, ofCaller, Stage.withCaller, Context.start]

theorem Context.placed_inTeam (org : OrgId) (role : OrgRole) (team : TeamId)
    (teamRole : Option TeamRole) :
    placed id operation caller (.inTeam org role team teamRole) =
      { placed id operation caller (.inOrg org role) with
        team := some team
        teamRole
        vars := (placed id operation caller (.inOrg org role)).vars.bind Variables.team
          (toString team)
        permissions :=
          if teamRole = some .lead then
            (placed id operation caller (.inOrg org role)).permissions ++
              [Grant.teamLead org team]
          else (placed id operation caller (.inOrg org role)).permissions } := by
  rcases teamRole with _ | _ | _ <;> simp [placed, Standing.lent, Standing.vars]

/-! ### Looks -/

namespace Stage

variable {name : String} {look : Moment → Site → Request → Attempt Context Unit}

/-- How a stage that only looks at the service ends. -/
theorem ofLook_eq_iff {outcome : Except Error Unit} :
    (ofLook name look).process m request (ctx, s) = (outcome, known) ↔
      (look m s request).run ctx = (outcome, known.1) ∧ known.2 = s := by
  obtain ⟨ctx', s'⟩ := known
  rcases ended : (look m s request).run ctx with ⟨_, _⟩
  simp only [ofLook, ended, Prod.mk.injEq, and_assoc, eq_comm (a := s)]

theorem numericParameter_eq_ok {n : UInt64} :
    numericParameter request name = .ok n ↔ request.Names name n := by
  unfold numericParameter Request.Names
  cases found : request.parameters.find? name with
  | none => simp
  | some text => cases read : Text.uint64? text <;> simp [read]

end Stage

/-- A parameter of a path names one identifier at most. -/
theorem Request.Names.unique {name : String} {n n' : UInt64} (named : request.Names name n)
    (named' : request.Names name n') : n = n' := by
  obtain ⟨text, found, parsed⟩ := named
  obtain ⟨text', found', parsed'⟩ := named'
  cases found.symm.trans found'
  exact Option.some.inj (parsed.symm.trans parsed')

/-! ### What the stages change -/

/-- A stage that only looks at the service keeps everything. -/
theorem Stage.ofLook_keeps {name : String} {look : Moment → Site → Request → Attempt Context Unit}
    {P : Site → Prop} : (ofLook name look).Keeps P where
  process _ _ _ := id
  complete _ _ _ _ _ := id

/-- Authentication changes nothing but what the cache holds. -/
theorem Site.authenticate_keeps {P : Site → Prop} {header : Option String}
    {address : Option Address}
    (cache : ∀ s user, P s → P { s with cache := (s.cache.load m s.roles user).2 })
    (holds : P s) : P (s.authenticate m header address).2 := by
  unfold authenticate
  split
  · exact holds
  split
  · exact holds
  rename_i identity _
  have loaded : P (s.entitlements m identity.user).2 := cache s identity.user holds
  split <;> rename_i given <;> rw [given] at loaded <;> exact loaded

theorem Stage.authentication_keeps {P : Site → Prop}
    (cache : ∀ m s user, P s → P { s with cache := (s.cache.load m s.roles user).2 }) :
    authentication.Keeps P where
  process m _ _ := Site.authenticate_keeps (cache m)
  complete _ _ _ _ _ := id

/-- The stages of a service keep what neither the cache nor the audit has a part in. -/
theorem Concerns.standard_keep {P : Site → Prop}
    (cache : ∀ m s user, P s → P { s with cache := (s.cache.load m s.roles user).2 })
    (audit : ∀ s sink, P s → P { s with audit := sink }) : standard.Keep P where
  authentication := by
    rintro _ ⟨⟩
    exact Stage.authentication_keeps cache
  org := by
    rintro _ ⟨⟩
    exact Stage.ofLook_keeps
  team := by
    rintro _ ⟨⟩
    exact Stage.ofLook_keeps
  permission := by
    rintro _ ⟨⟩
    exact Stage.ofLook_keeps
  audit := by
    rintro _ ⟨⟩
    exact ⟨fun _ _ _ holds => audit _ _ holds, fun _ _ _ _ _ => id⟩

/-- No stage of a service does anything once the outcome is known. -/
theorem Chain.silent_standard (route : Route) :
    ∀ stage ∈ (build route .standard).stages, stage.Silent := by
  intro stage mem
  rcases mem_stages_build mem with rfl | ⟨⟨⟩⟩ | ⟨⟨⟩⟩ | ⟨⟨⟩⟩ | ⟨⟨⟩⟩ | ⟨⟨⟩⟩ | rfl <;>
    exact fun _ _ _ _ _ => rfl

/-- Whatever becomes of a request, nothing changes but what the cache holds and what has been recorded. -/
theorem Chain.run_standard_frame (route : Route) (request : Request) : ∃ cache audit,
    ((build route .standard).run m request s).state = { s with cache, audit } := by
  let P : Site → Prop := fun t => ∃ cache audit, t = { s with cache, audit }
  have keep : Concerns.standard.Keep P := by
    refine Concerns.standard_keep ?_ ?_
    · rintro m _ user ⟨cache, audit, rfl⟩
      exact ⟨_, audit, rfl⟩
    · rintro _ sink ⟨cache, audit, rfl⟩
      exact ⟨cache, sink, rfl⟩
  exact run_build_keeps (P := P) keep ⟨s.cache, s.audit, rfl⟩

theorem Chain.execute_standard_frame (route : Route) (request : Request) : ∃ cache audit,
    ((build route .standard).execute m request s).2 = { s with cache, audit } := by
  rw [execute_state]
  exact run_standard_frame route request

/-! ### The caller -/

/-- An open session is accepted while sessions can be verified. -/
theorem Credential.resolve_session {sessions : Sessions} {tokens : TokenStore}
    {address : Option Address} {token : String} {user : UserId}
    (up : m.outage.stores .verifySession = false) (known : sessions.byToken.find? token = some user) :
    (session token).resolve m sessions tokens address = .ok ⟨user, .session, none⟩ := by
  refine Outcome.bind_eq_ok.mpr ⟨_, Outage.reach_eq_ok.mpr ⟨up, rfl⟩, ?_⟩
  refine Outcome.bind_eq_ok.mpr ⟨user, ?_, rfl⟩
  unfold Sessions.verify
  rw [known]

/-- A credential that is accepted proves its identity, whichever calls may fail. -/
theorem Proves.of_resolve {credential : Credential} {identity : Identity}
    (header : Credential.ofHeader s.config.tokenPrefix request.authorization = .ok credential)
    (accepted : credential.resolve m s.sessions s.tokens request.address = .ok identity) :
    Proves m s request identity := by
  cases credential with
  | session token =>
      obtain ⟨_, reached, accepted⟩ := Outcome.bind_eq_ok.mp accepted
      obtain ⟨_, rfl⟩ := Outage.reach_eq_ok.mp reached
      obtain ⟨user, verified, accepted⟩ := Outcome.bind_eq_ok.mp accepted
      cases accepted
      unfold Sessions.verify at verified
      split at verified
      · rename_i known
        cases verified
        exact .session header known
      · cases verified
  | personal secret =>
      obtain ⟨_, reached, accepted⟩ := Outcome.bind_eq_ok.mp accepted
      obtain ⟨_, rfl⟩ := Outage.reach_eq_ok.mp reached
      split at accepted
      · cases accepted
      · rename_i token stored
        obtain ⟨_, valid, accepted⟩ := Outcome.bind_eq_ok.mp accepted
        cases accepted
        exact .personal header stored valid

/-- A request that bears a secret proves the identity of the token stored for it, or none. -/
theorem Proves.of_bears {secret : String} {identity : Identity} (bears : request.Bears s secret)
    (proves : Proves m s request identity) :
    ∃ token, s.tokens.find? (Token.hashOf secret) = some token ∧
      identity = ⟨token.owner, .token, some token.scopes⟩ ∧
        token.check m.now request.address = .ok () := by
  cases proves with
  | session header known =>
      rw [bears] at header
      cases header
  | personal header stored valid =>
      rw [bears] at header
      cases header
      exact ⟨_, stored, rfl, valid⟩

/-- A request proves one identity at most. -/
theorem Proves.unique {identity identity' : Identity} (proves : Proves m s request identity)
    (proves' : Proves m s request identity') : identity = identity' := by
  cases proves with
  | session header known =>
      cases proves' with
      | session header' known' =>
          cases header.symm.trans header'
          cases known.symm.trans known'
          rfl
      | personal header' => cases header.symm.trans header'
  | personal bears stored =>
      obtain ⟨token, stored', rfl, _⟩ := proves'.of_bears bears
      cases stored.symm.trans stored'
      rfl

/-- Whom authentication accepts has proved an identity, whichever calls may fail. -/
theorem Site.proves_of_authenticate
    (done : s.authenticate m request.authorization request.address = (.ok caller, s')) :
    ∃ identity e, Proves m s request identity ∧ s.entitlements m identity.user = (.ok e, s') ∧
      caller = ⟨identity, e.roles, permissionsOf identity e⟩ := by
  unfold authenticate at done
  split at done
  · cases done
  rename_i credential header
  split at done
  · cases done
  rename_i identity accepted
  split at done
  · cases done
  rename_i e s'' loaded
  cases done
  exact ⟨identity, e, .of_resolve header accepted, loaded, rfl⟩

/-- Everything that authentication does when it succeeds. -/
theorem Stage.authentication_eq_ok_iff : authentication.process m request (ctx, s) = (.ok (), known) ↔
    ∃ caller, s.authenticate m request.authorization request.address = (.ok caller, known.2) ∧
      known.1 = withCaller ctx caller := by
  obtain ⟨ctx', s'⟩ := known
  rcases found : s.authenticate m request.authorization request.address with ⟨err | caller, t⟩
  · simp [authentication, noteCaller, Attempt.run_bind, found]
  · simp [authentication, noteCaller, Attempt.run_bind, found, and_comm, eq_comm]

/-! ### The caller's places -/

namespace Stage

/-- Everything that the look-up of the organization does when it succeeds. -/
theorem lookUpOrg_eq_ok_iff {ctx' : Context} : (lookUpOrg m s request).run ctx = (.ok (), ctx') ↔
    ∃ user orgId role, ctx.user = some user ∧ request.Names orgParameter orgId ∧
      m.outage.reach .orgExists (s.directory.orgExists orgId) = .ok true ∧
      m.outage.reach .orgRole (s.directory.orgRole? orgId user) = .ok (some role) ∧
      ctx' = { ctx with
        org := some orgId
        orgRole := some role
        vars := ctx.vars.bind Variables.org (toString orgId) } := by
  unfold lookUpOrg
  simp only [Attempt.run_lift_bind_eq_ok, Attempt.run_get_bind, numericParameter_eq_ok]
  constructor
  · rintro ⟨orgId, named, done⟩
    split at done
    · cases done
    rename_i user known
    obtain ⟨registered, present, done⟩ := Attempt.run_lift_bind_eq_ok.mp done
    split at done
    · cases done
    rename_i found
    obtain rfl : registered = true := by simpa using found
    obtain ⟨place, asked, done⟩ := Attempt.run_lift_bind_eq_ok.mp done
    split at done
    · cases done
    rename_i role
    exact ⟨user, orgId, role, known, named, present, asked, (Prod.mk.inj done).2.symm⟩
  · rintro ⟨user, orgId, role, known, named, present, asked, after⟩
    refine ⟨orgId, named, ?_⟩
    rw [known]
    refine Attempt.run_lift_bind_eq_ok.mpr ⟨true, present, ?_⟩
    refine Attempt.run_lift_bind_eq_ok.mpr ⟨some role, asked, ?_⟩
    exact congrArg (Prod.mk _) after.symm

theorem noteTeam_run {orgId : OrgId} {teamId : TeamId} {teamRole : Option TeamRole} :
    (noteTeam orgId teamId teamRole).run ctx = (.ok (), { ctx with
      team := some teamId
      teamRole
      vars := ctx.vars.bind Variables.team (toString teamId)
      permissions :=
        if teamRole = some .lead then ctx.permissions ++ [Grant.teamLead orgId teamId]
        else ctx.permissions }) := by
  unfold noteTeam
  rw [Attempt.run_bind_of_ok (Attempt.run_modify _)]
  split <;> rfl

/-- Everything that the look-up of the team does when it succeeds. -/
theorem lookUpTeam_eq_ok_iff {ctx' : Context} : (lookUpTeam m s request).run ctx = (.ok (), ctx') ↔
    ∃ user orgId role teamId teamRole, ctx.user = some user ∧ ctx.org = some orgId ∧
      ctx.orgRole = some role ∧ request.Names teamParameter teamId ∧
      m.outage.reach .teamOrg (s.directory.teamOrg? teamId) = .ok (some orgId) ∧
      m.outage.reach .teamRole (s.directory.teamRole? teamId user) = .ok teamRole ∧
      (teamRole.isSome = true ∨ role.reachesTeams = true) ∧
      ctx' = { ctx with
        team := some teamId
        teamRole
        vars := ctx.vars.bind Variables.team (toString teamId)
        permissions :=
          if teamRole = some .lead then ctx.permissions ++ [Grant.teamLead orgId teamId]
          else ctx.permissions } := by
  have turnedAway : ∀ (teamRole : Option TeamRole) (role : OrgRole),
      (teamRole.isNone && !role.reachesTeams) = true ↔
        ¬ (teamRole.isSome = true ∨ role.reachesTeams = true) := by
    intro teamRole role
    cases teamRole <;> cases role.reachesTeams <;> simp
  unfold lookUpTeam
  simp only [Attempt.run_lift_bind_eq_ok, Attempt.run_get_bind, numericParameter_eq_ok]
  constructor
  · rintro ⟨teamId, named, done⟩
    split at done
    · rename_i orgId role user inOrg place known
      obtain ⟨owner, owned, done⟩ := Attempt.run_lift_bind_eq_ok.mp done
      split at done
      · cases done
      rename_i same
      obtain rfl := not_not.mp same
      obtain ⟨teamRole, asked, done⟩ := Attempt.run_lift_bind_eq_ok.mp done
      split at done
      · cases done
      rename_i admitted
      have reached := not_not.mp (mt (turnedAway teamRole role).mpr admitted)
      rw [noteTeam_run] at done
      exact ⟨user, orgId, role, teamId, teamRole, known, inOrg, place, named, owned, asked, reached,
        (Prod.mk.inj done).2.symm⟩
    · cases done
  · rintro ⟨user, orgId, role, teamId, teamRole, known, inOrg, place, named, owned, asked, reached,
      after⟩
    refine ⟨teamId, named, ?_⟩
    rw [inOrg, place, known]
    refine Attempt.run_lift_bind_eq_ok.mpr ⟨some orgId, owned, ?_⟩
    rw [if_neg (not_not.mpr rfl)]
    refine Attempt.run_lift_bind_eq_ok.mpr ⟨teamRole, asked, ?_⟩
    rw [if_neg (mt (turnedAway teamRole role).mp (not_not.mpr reached))]
    exact noteTeam_run.trans (congrArg (Prod.mk _) after.symm)

/-- Everything that the search for a permission does when it succeeds. -/
theorem lookForGrant_eq_ok_iff {ctx' : Context} : lookForGrant.run ctx = (.ok (), ctx') ↔
    ∃ p, Grant.find? ctx.permissions ctx.operation (Grant.candidates ctx.operation ctx.vars) = some p ∧
      ctx' = { ctx with grantedBy := some p } := by
  unfold lookForGrant
  rw [Attempt.run_get_bind]
  cases Grant.find? ctx.permissions ctx.operation (Grant.candidates ctx.operation ctx.vars) with
  | none => simp
  | some p => simp [eq_comm]

/-- Whom the look-up of the organization lets pass is a member, whichever calls may fail. -/
theorem inOrg_of_lookUpOrg
    (done : (lookUpOrg m s request).run (.ofCaller id operation caller) = (.ok (), ctx)) :
    ∃ orgId role, s.directory.InOrg request caller.identity.user orgId role ∧
      ctx = .placed id operation caller (.inOrg orgId role) := by
  obtain ⟨user, orgId, role, known, named, present, asked, rfl⟩ := lookUpOrg_eq_ok_iff.mp done
  cases known
  obtain ⟨_, registered⟩ := Outage.reach_eq_ok.mp present
  obtain ⟨_, member⟩ := Outage.reach_eq_ok.mp asked
  exact ⟨orgId, role, ⟨named, registered, member⟩, (Context.placed_inOrg orgId role).symm⟩

/-- Whom the look-up of the team lets pass may reach it, whichever calls may fail. -/
theorem inTeam_of_lookUpTeam {orgId : OrgId} {role : OrgRole}
    (done : (lookUpTeam m s request).run (.placed id operation caller (.inOrg orgId role)) =
      (.ok (), ctx)) :
    ∃ teamId teamRole,
      s.directory.InTeam request caller.identity.user orgId role teamId teamRole ∧
        ctx = .placed id operation caller (.inTeam orgId role teamId teamRole) := by
  obtain ⟨user, _, _, teamId, teamRole, known, inOrg, place, named, owned, asked, reached, rfl⟩ :=
    lookUpTeam_eq_ok_iff.mp done
  cases known
  cases inOrg
  cases place
  obtain ⟨_, owned⟩ := Outage.reach_eq_ok.mp owned
  obtain ⟨_, place⟩ := Outage.reach_eq_ok.mp asked
  exact ⟨teamId, teamRole, ⟨named, owned, place, reached⟩,
    (Context.placed_inTeam orgId role teamId teamRole).symm⟩

end Stage

/-! ### While no call fails -/

section Calm

variable (calm : m.outage = .none)

include calm

/-- While no call fails, every identity that is proved is accepted. -/
theorem Proves.resolve {identity : Identity} (proves : Proves m s request identity) :
    ∃ credential, Credential.ofHeader s.config.tokenPrefix request.authorization = .ok credential ∧
      credential.resolve m s.sessions s.tokens request.address = .ok identity := by
  cases proves with
  | session header known =>
      exact ⟨_, header, Credential.resolve_session (by rw [calm]; rfl) known⟩
  | personal header stored valid =>
      refine ⟨_, header, ?_⟩
      simp [Credential.resolve, calm, stored, valid, bind, Except.bind, pure, Except.pure]

theorem Site.authenticate_eq_ok :
    s.authenticate m request.authorization request.address = (.ok caller, s') ↔
      ∃ identity e, Proves m s request identity ∧ s.entitlements m identity.user = (.ok e, s') ∧
        caller = ⟨identity, e.roles, permissionsOf identity e⟩ := by
  constructor
  · exact proves_of_authenticate
  · rintro ⟨identity, e, proves, loaded, rfl⟩
    obtain ⟨credential, header, accepted⟩ := proves.resolve calm
    unfold authenticate
    simp only [header, accepted, loaded]

namespace Stage

theorem lookUpOrg_eq_ok :
    (lookUpOrg m s request).run (.ofCaller id operation caller) = (.ok (), ctx) ↔
      ∃ orgId role, s.directory.InOrg request caller.identity.user orgId role ∧
        ctx = .placed id operation caller (.inOrg orgId role) := by
  constructor
  · exact inOrg_of_lookUpOrg
  · rintro ⟨orgId, role, ⟨named, registered, member⟩, rfl⟩
    refine lookUpOrg_eq_ok_iff.mpr
      ⟨_, orgId, role, rfl, named, ?_, ?_, Context.placed_inOrg orgId role⟩
    · rw [calm, Outage.reach_none, registered]
    · rw [calm, Outage.reach_none, member]

theorem lookUpTeam_eq_ok {orgId : OrgId} {role : OrgRole} :
    (lookUpTeam m s request).run (.placed id operation caller (.inOrg orgId role)) = (.ok (), ctx) ↔
      ∃ teamId teamRole,
        s.directory.InTeam request caller.identity.user orgId role teamId teamRole ∧
          ctx = .placed id operation caller (.inTeam orgId role teamId teamRole) := by
  constructor
  · exact inTeam_of_lookUpTeam
  · rintro ⟨teamId, teamRole, ⟨named, owned, place, reached⟩, rfl⟩
    refine lookUpTeam_eq_ok_iff.mpr ⟨_, orgId, role, teamId, teamRole, rfl, rfl, rfl, named, ?_, ?_,
      reached, Context.placed_inTeam orgId role teamId teamRole⟩
    · rw [calm, Outage.reach_none, owned]
    · rw [calm, Outage.reach_none, place]

end Stage

end Calm

end Gatehouse
