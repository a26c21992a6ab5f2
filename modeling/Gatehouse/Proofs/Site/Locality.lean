import Gatehouse.Proofs.Site.Admission
import Gatehouse.Proofs.Site.Coherence
import Gatehouse.Proofs.Token.Confinement

/-!
A decision depends on nothing but the caller.

Two services may differ in all that is about others: their assignments, tokens, sessions and memberships,
and whatever the caches hold. As long as they are alike for a user (`Site.AlikeFor`) and their caches tell
the truth about it, a request of this user has the same outcome in both, down to the error, and what is
known of it in the end is the same but for its identifier and its audit entry (`outcome_eq_of_alike`). The
proof follows the two runs from stage to stage: until the caller is known they are as they began
(`Untouched`), and from then on they stay alongside each other (`Alongside`).
-/

namespace Gatehouse

variable {m m' : Moment} {s s' : Site} {request : Request} {route : Route} {user : UserId}
  {ctx : Context} {uuid : Uuid} {entry : Option AuditEntry} {stage : Stage Site}

/-! ### Services that are alike for a user -/

/-- Two directories give the same answers about a user in the places that a request names. -/
structure Directory.AlikeFor (d d' : Directory) (request : Request) (user : UserId) : Prop where
  orgExists : ∀ {org}, request.Names orgParameter org → d'.orgExists org = d.orgExists org
  orgRole : ∀ {org}, request.Names orgParameter org → d'.orgRole? org user = d.orgRole? org user
  teamOrg : ∀ {team}, request.Names teamParameter team → d'.teamOrg? team = d.teamOrg? team
  teamRole : ∀ {team}, request.Names teamParameter team →
    d'.teamRole? team user = d.teamRole? team user

/-- Two services have the same roles, and know the same of a user and of the credential and the places
of a request. -/
structure Site.AlikeFor (s s' : Site) (request : Request) (user : UserId) : Prop where
  tokenPrefix : s'.config.tokenPrefix = s.config.tokenPrefix
  session : ∀ {token}, Credential.ofHeader s.config.tokenPrefix request.authorization =
    .ok (.session token) → s'.sessions.byToken.find? token = s.sessions.byToken.find? token
  personal : ∀ {secret}, request.Bears s secret →
    s'.tokens.find? (Token.hashOf secret) = s.tokens.find? (Token.hashOf secret)
  roles : s'.roles.roles = s.roles.roles
  assigned : ∀ id, id ∈ s'.roles.assigned user ↔ id ∈ s.roles.assigned user
  directory : s.directory.AlikeFor s'.directory request user

/-- Two moments are of one time, and stores answer at both. Calls to the cache may fail at either, and any
other clock may differ. -/
structure Moment.Together (m m' : Moment) : Prop where
  up : m.outage.stores = fun _ => false
  up' : m'.outage.stores = fun _ => false
  now : m'.now = m.now

/-- What is known of a request under another identifier and with another audit entry. -/
def Context.retag (ctx : Context) (id : Uuid) (entry : Option AuditEntry) : Context :=
  { ctx with requestId := id, audit := entry }

@[simp] theorem Context.retag_user : (ctx.retag uuid entry).user = ctx.user := rfl

@[simp] theorem Context.retag_org : (ctx.retag uuid entry).org = ctx.org := rfl

@[simp] theorem Context.retag_orgRole : (ctx.retag uuid entry).orgRole = ctx.orgRole := rfl

/-- What is known of two requests differs in nothing but their identifiers and audit entries. -/
def Context.Alike (ctx ctx' : Context) : Prop := ∃ id entry, ctx' = ctx.retag id entry

theorem Context.Alike.permissions_eq {ctx' : Context} (alike : ctx.Alike ctx') :
    ctx'.permissions = ctx.permissions := by
  obtain ⟨id, entry, rfl⟩ := alike
  rfl

theorem Context.Alike.grantedBy_eq {ctx' : Context} (alike : ctx.Alike ctx') :
    ctx'.grantedBy = ctx.grantedBy := by
  obtain ⟨id, entry, rfl⟩ := alike
  rfl

/-! ### The caller -/

namespace Site.AlikeFor

variable (alike : s.AlikeFor s' request user)

include alike

theorem entitled_eq : s'.roles.entitled user = s.roles.entitled user := by
  have same : ∀ r : Role, (s'.roles.assigned user).contains r.id =
      (s.roles.assigned user).contains r.id := by
    intro r
    rw [Bool.eq_iff_iff, List.contains_iff_mem, List.contains_iff_mem, alike.assigned]
  refine RoleStore.entitled_congr ?_ ?_
  · unfold RoleStore.ofUser RoleStore.list
    simp only [same, alike.roles]
  · unfold RoleStore.findNamed?
    rw [alike.roles]

variable (together : m.Together m')

include together

/-- A credential proves the same in both services, or is refused for the same reason. -/
theorem resolve_eq {credential : Credential}
    (header : Credential.ofHeader s.config.tokenPrefix request.authorization = .ok credential) :
    credential.resolve m' s'.sessions s'.tokens request.address =
      credential.resolve m s.sessions s.tokens request.address := by
  cases credential with
  | session token =>
      unfold Credential.resolve Sessions.verify
      simp only [Outage.reach_of_up together.up, Outage.reach_of_up together.up', alike.session header]
  | personal secret =>
      unfold Credential.resolve
      simp only [Outage.reach_of_up together.up, Outage.reach_of_up together.up',
        alike.personal header, together.now]

/-- Both services find the same caller, or refuse it for the same reason. -/
theorem authenticate_eq (own : ∀ identity, Proves m s request identity → identity.user = user)
    (truthful : s.cache.Truthful s.roles user) (truthful' : s'.cache.Truthful s'.roles user) :
    (s'.authenticate m' request.authorization request.address).1 =
      (s.authenticate m request.authorization request.address).1 := by
  unfold authenticate
  rw [alike.tokenPrefix]
  cases header : Credential.ofHeader s.config.tokenPrefix request.authorization with
  | error fault => rfl
  | ok credential =>
      simp only [alike.resolve_eq together header]
      cases accepted : credential.resolve m s.sessions s.tokens request.address with
      | error e => rfl
      | ok identity =>
          obtain rfl := own identity (.of_resolve header accepted)
          obtain ⟨t, load⟩ : ∃ t, s.entitlements m identity.user =
              (.ok (s.roles.entitled identity.user), t) :=
            ⟨_, Prod.ext (truthful.load_eq together.up) rfl⟩
          obtain ⟨t', load'⟩ : ∃ t', s'.entitlements m' identity.user =
              (.ok (s.roles.entitled identity.user), t') :=
            ⟨_, Prod.ext ((truthful'.load_eq together.up').trans
              (congrArg Except.ok alike.entitled_eq)) rfl⟩
          simp only [load, load']

end Site.AlikeFor

/-! ### Two runs -/

/-- Nothing has been asked of two services yet, and what is known of the requests is alike. -/
structure Untouched (s s' : Site) (known known' : Context × Site) : Prop where
  context : known.1.Alike known'.1
  unknown : known.1.user = none
  sites : known.2 = s ∧ known'.2 = s'

/-- What is known in two runs is alike, and so is what the directories say of the caller. -/
structure Alongside (request : Request) (user : UserId) (known known' : Context × Site) : Prop where
  context : known.1.Alike known'.1
  own : ∀ caller, known.1.user = some caller → caller = user
  directory : known.2.directory.AlikeFor known'.2.directory request user

theorem Untouched.alongside {known known' : Context × Site} (untouched : Untouched s s' known known')
    (alike : s.AlikeFor s' request user) : Alongside request user known known' where
  context := untouched.context
  own caller given := by
    rw [untouched.unknown] at given
    cases given
  directory := by
    rw [untouched.sites.1, untouched.sites.2]
    exact alike.directory

namespace Stage

theorem requestId_agree : Agree (requestId.process m request) (requestId.process m' request)
    (Untouched s s') (Untouched s s') := by
  rintro ⟨ctx, t⟩ ⟨_, t'⟩ ⟨⟨id, entry, rfl⟩, unknown, sites⟩
  exact ⟨.ok (), _, _, rfl, rfl, fun _ => ⟨⟨_, entry, rfl⟩, unknown, sites⟩⟩

theorem authentication_agree (alike : s.AlikeFor s' request user)
    (own : ∀ identity, Proves m s request identity → identity.user = user)
    (truthful : s.cache.Truthful s.roles user) (truthful' : s'.cache.Truthful s'.roles user)
    (together : m.Together m') :
    Agree (authentication.process m request) (authentication.process m' request)
      (Untouched s s') (Alongside request user) := by
  rintro ⟨ctx, t⟩ ⟨_, t'⟩ ⟨⟨id, entry, rfl⟩, _, here, there⟩
  obtain rfl : s = t := here.symm
  obtain rfl : s' = t' := there.symm
  have same := alike.authenticate_eq together own truthful truthful'
  -- Whatever authentication does to the caches, the directories stay as alike as they were.
  have directory : ∀ (m : Moment) (t : Site), (t.authenticate m request.authorization
      request.address).2.directory = t.directory := fun m t =>
    Site.authenticate_keeps (P := fun after => after.directory = t.directory) (fun _ _ same => same)
      rfl
  have kept := directory m s
  have kept' := directory m' s'
  cases done : s.authenticate m request.authorization request.address with
  | mk result t =>
    cases done' : s'.authenticate m' request.authorization request.address with
    | mk result' t' =>
        rw [done] at same kept
        rw [done'] at same kept'
        obtain rfl : result' = result := same
        unfold authentication noteCaller
        simp only [done, done']
        cases result' with
        | error e => exact ⟨.error e, _, _, rfl, rfl, nofun⟩
        | ok caller =>
            refine ⟨.ok (), _, _, rfl, rfl, fun _ => ⟨⟨id, entry, rfl⟩, ?_, ?_⟩⟩
            · rintro _ ⟨⟩
              obtain ⟨identity, e, proves, _, rfl⟩ := Site.proves_of_authenticate done
              exact own identity proves
            · rw [kept, kept']
              exact alike.directory

/-- A look at alike services finds the same, if it takes what is known as it is. -/
theorem ofLook_agree {name : String} {look : Moment → Site → Request → Attempt Context Unit}
    (same : ∀ {s s' ctx} uuid entry, (∀ caller, ctx.user = some caller → caller = user) →
      s.directory.AlikeFor s'.directory request user →
        (look m' s' request).run (ctx.retag uuid entry) =
          ((look m s request).run ctx).map id (·.retag uuid entry))
    (keeps : ∀ {s ctx ctx'}, (look m s request).run ctx = (.ok (), ctx') → ctx'.user = ctx.user) :
    Agree ((ofLook name look).process m request) ((ofLook name look).process m' request)
      (Alongside request user) (Alongside request user) := by
  rintro ⟨ctx, t⟩ ⟨_, t'⟩ ⟨⟨uuid, entry, rfl⟩, own, directory⟩
  rcases found : (look m t request).run ctx with ⟨outcome, ctx'⟩
  have found' := same uuid entry own directory
  rw [found] at found'
  refine ⟨outcome, (ctx', t), (ctx'.retag uuid entry, t'), ofLook_eq_iff.mpr ⟨found, rfl⟩,
    ofLook_eq_iff.mpr ⟨found', rfl⟩, ?_⟩
  rintro rfl
  refine ⟨⟨uuid, entry, rfl⟩, fun caller known => ?_, directory⟩
  exact own caller ((keeps found).symm.trans known)

theorem permission_agree : Agree (permission.process m request) (permission.process m' request)
    (Alongside request user) (Alongside request user) := by
  refine ofLook_agree (fun {_ _ ctx} uuid entry _ _ => ?_) fun {_ ctx ctx'} looked => ?_
  · unfold lookForGrant Context.retag
    simp only [Attempt.run_get_bind]
    cases Grant.find? ctx.permissions ctx.operation (Grant.candidates ctx.operation ctx.vars) <;> rfl
  · obtain ⟨_, _, rfl⟩ := lookForGrant_eq_ok_iff.mp looked
    rfl

theorem audit_agree : Agree (audit.process m request) (audit.process m' request)
    (Alongside request user) (Alongside request user) := by
  rintro ⟨ctx, t⟩ ⟨_, t'⟩ ⟨⟨id, entry, rfl⟩, own, directory⟩
  exact ⟨.ok (), _, _, rfl, rfl, fun _ => ⟨⟨id, _, rfl⟩, own, directory⟩⟩

theorem responseLog_agree : Agree (responseLog.process m request) (responseLog.process m' request)
    (Alongside request user) (Alongside request user) := by
  rintro known known' alongside
  exact ⟨.ok (), known, known', rfl, rfl, fun _ => alongside⟩

variable (together : m.Together m')

include together

theorem lookUpOrg_retag (own : ∀ caller, ctx.user = some caller → caller = user)
    (alike : s.directory.AlikeFor s'.directory request user) :
    (lookUpOrg m' s' request).run (ctx.retag uuid entry) =
      ((lookUpOrg m s request).run ctx).map id (·.retag uuid entry) := by
  unfold lookUpOrg
  cases named : numericParameter request orgParameter with
  | error e => rfl
  | ok org =>
      have named := numericParameter_eq_ok.mp named
      simp only [Attempt.run_ok_bind, Attempt.run_get_bind, Context.retag_user]
      split
      · rfl
      · rename_i caller known
        obtain rfl := own caller known
        simp only [Outage.reach_of_up together.up, Outage.reach_of_up together.up',
          alike.orgExists named, alike.orgRole named, Attempt.run_ok_bind]
        split
        · rfl
        rw [Attempt.run_ok_bind, Attempt.run_ok_bind]
        split <;> rfl

theorem lookUpTeam_retag (own : ∀ caller, ctx.user = some caller → caller = user)
    (alike : s.directory.AlikeFor s'.directory request user) :
    (lookUpTeam m' s' request).run (ctx.retag uuid entry) =
      ((lookUpTeam m s request).run ctx).map id (·.retag uuid entry) := by
  unfold lookUpTeam
  cases named : numericParameter request teamParameter with
  | error e => rfl
  | ok team =>
      have named := numericParameter_eq_ok.mp named
      simp only [Attempt.run_ok_bind, Attempt.run_get_bind, Context.retag_org, Context.retag_orgRole,
        Context.retag_user]
      split
      · rename_i org orgRole caller inOrg place known
        obtain rfl := own caller known
        simp only [Outage.reach_of_up together.up, Outage.reach_of_up together.up',
          alike.teamOrg named, alike.teamRole named, Attempt.run_ok_bind]
        split
        · rfl
        rw [Attempt.run_ok_bind, Attempt.run_ok_bind]
        split
        · rfl
        · rw [noteTeam_run, noteTeam_run]
          rfl
      · rfl

theorem org_agree : Agree (org.process m request) (org.process m' request)
    (Alongside request user) (Alongside request user) := by
  refine ofLook_agree (fun uuid entry own alike => lookUpOrg_retag together own alike) fun looked => ?_
  obtain ⟨_, _, _, _, _, _, _, rfl⟩ := lookUpOrg_eq_ok_iff.mp looked
  rfl

theorem team_agree : Agree (team.process m request) (team.process m' request)
    (Alongside request user) (Alongside request user) := by
  refine ofLook_agree (fun uuid entry own alike => lookUpTeam_retag together own alike) fun looked => ?_
  obtain ⟨_, _, _, _, _, _, _, _, _, _, _, _, rfl⟩ := lookUpTeam_eq_ok_iff.mp looked
  rfl

/-- Once the caller is known, or need not be, every stage agrees in the two runs. -/
theorem later_agree (later : stage ∈ [org, team, permission, audit, responseLog]) :
    Agree (stage.process m request) (stage.process m' request) (Alongside request user)
      (Alongside request user) := by
  simp only [List.mem_cons, List.not_mem_nil, or_false] at later
  rcases later with rfl | rfl | rfl | rfl | rfl
  · exact org_agree together
  · exact team_agree together
  · exact permission_agree
  · exact audit_agree
  · exact responseLog_agree

end Stage

/-! ### The whole chain -/

/-- The whole chain agrees in the two runs. -/
theorem Chain.standard_agree (alike : s.AlikeFor s' request user)
    (own : ∀ identity, Proves m s request identity → identity.user = user)
    (truthful : s.cache.Truthful s.roles user) (truthful' : s'.cache.Truthful s'.roles user)
    (together : m.Together m') :
    Stage.Agree (Stage.processAll m request (build route .standard).stages)
      (Stage.processAll m' request (build route .standard).stages) (Untouched s s')
      (Alongside request user) := by
  cases guarded : route.isPublic with
  | true =>
      rw [stages_build_standard_public guarded]
      -- No caller is asked for, and so none is known that could be another than the user.
      refine Stage.processAll_cons_agree Stage.requestId_agree fun known known' untouched => ?_
      refine Stage.processAll_agree (fun stage mem => Stage.later_agree together ?_) known known'
        (untouched.alongside alike)
      simp only [List.mem_append, List.mem_cons, List.mem_ite_nil_right, List.not_mem_nil,
        or_false] at mem
      rcases mem with ⟨_, rfl⟩ | ⟨_, rfl⟩ | rfl <;> simp
  | false =>
      rw [stages_build_standard guarded]
      refine Stage.processAll_cons_agree Stage.requestId_agree (Stage.processAll_cons_agree
        (Stage.authentication_agree alike own truthful truthful' together) ?_)
      refine Stage.processAll_agree fun stage mem => Stage.later_agree together ?_
      simp only [List.mem_append, List.mem_cons, List.mem_ite_nil_right, List.not_mem_nil,
        or_false] at mem
      rcases mem with (⟨_, rfl⟩ | ⟨_, rfl⟩) | rfl | ⟨_, rfl⟩ | rfl <;> simp

/-- **Decisions are local to the caller.** Two services that are alike for a user, and whose caches tell the
truth about it, decide alike at the same time about a request that proves no other identity than the
user's, on every route: the outcome is the same, also the error, and if the request passes, so are the
permissions and the one that grants the operation. -/
theorem outcome_eq_of_alike (alike : s.AlikeFor s' request user)
    (own : ∀ identity, Proves m s request identity → identity.user = user)
    (truthful : s.cache.Truthful s.roles user) (truthful' : s'.cache.Truthful s'.roles user)
    (together : m.Together m') :
    let here := (Chain.build route .standard).run m request s
    let there := (Chain.build route .standard).run m' request s'
    there.outcome = here.outcome ∧ (here.outcome = .ok () → here.context.Alike there.context ∧
      there.context.permissions = here.context.permissions ∧
        there.context.grantedBy = here.context.grantedBy) := by
  have start : Untouched s s' (.start route.operation, s) (.start route.operation, s') :=
    ⟨⟨_, _, rfl⟩, rfl, rfl, rfl⟩
  exact Chain.run_agree (K := fun ctx ctx' => ctx.Alike ctx' ∧ ctx'.permissions = ctx.permissions ∧
    ctx'.grantedBy = ctx.grantedBy) (Chain.standard_agree alike own truthful truthful' together) start
      fun known known' alongside => ⟨alongside.context, alongside.context.permissions_eq,
        alongside.context.grantedBy_eq⟩

/-! ### A lead among others -/

/-- The service of a team's lead, after it has come to know another user: an administrator who has a
session, a place in the organization and an entry in the cache. -/
def Site.ofLeadAndAdmin (secret : String) : Site :=
  { Site.play [(default, .administer (.assignRole 5 1)), (default, .load 5)] (.ofOneLead secret) with
    directory := Directory.ofOneTeam.addOrgMember 7 5 .admin
    sessions := Sessions.empty.add "secret" 5 }

theorem alikeFor_lead : (Site.ofOneLead "pat_lead").AlikeFor (.ofLeadAndAdmin "pat_lead")
    (.forTeamSettings "Bearer pat_lead") 11 where
  tokenPrefix := rfl
  session header := by
    have other := header.symm.trans bears_lead_secret
    cases other
  personal _ := rfl
  roles := by decide +kernel
  assigned id := by
    have same : (Site.ofLeadAndAdmin "pat_lead").roles.assigned 11 =
        (Site.ofOneLead "pat_lead").roles.assigned 11 := by
      decide +kernel
    rw [same]
  directory := by
    have org : (Request.forTeamSettings "Bearer pat_lead").Names orgParameter 7 :=
      ⟨"7", rfl, by decide⟩
    have team : (Request.forTeamSettings "Bearer pat_lead").Names teamParameter 3 :=
      ⟨"3", rfl, by decide⟩
    constructor
    · rintro _ named
      obtain rfl := named.unique org
      decide
    · rintro _ named
      obtain rfl := named.unique org
      decide
    · rintro _ named
      obtain rfl := named.unique team
      decide
    · rintro _ named
      obtain rfl := named.unique team
      decide

/-- The lead of a team passes as before when the service has come to know others. -/
theorem lead_passes_among_others :
    (Site.ofOneLead "pat_lead").AlikeFor (.ofLeadAndAdmin "pat_lead")
        (.forTeamSettings "Bearer pat_lead") 11 ∧
      ((Chain.build .teamSettings .standard).run default (.forTeamSettings "Bearer pat_lead")
        (.ofLeadAndAdmin "pat_lead")).outcome = .ok () := by
  have own : ∀ identity, Proves default (.ofOneLead "pat_lead")
      (.forTeamSettings "Bearer pat_lead") identity → identity.user = 11 := by
    intro identity proves
    obtain ⟨token, stored, rfl, _⟩ := proves.of_bears bears_lead_secret
    have stored' := TokenStore.find?_insert_self .empty (.ofOwnAccount 11 "pat_lead")
    obtain rfl := Option.some.inj (stored'.symm.trans stored)
    rfl
  have coherent : (Site.ofOneLead "pat_lead").Coherent := Site.coherent_builtIn
  have coherent' : (Site.play [(default, .administer (.assignRole 5 1)), (default, .load 5)]
      (.ofOneLead "pat_lead")).Coherent :=
    coherent.play (List.forall_mem_cons.mpr ⟨rfl, List.forall_mem_singleton.mpr rfl⟩)
  have same : ((Chain.build .teamSettings .standard).run default
      (.forTeamSettings "Bearer pat_lead") (.ofLeadAndAdmin "pat_lead")).outcome =
        ((Chain.build .teamSettings .standard).run default (.forTeamSettings "Bearer pat_lead")
          (.ofOneLead "pat_lead")).outcome :=
    (outcome_eq_of_alike alikeFor_lead own
      (coherent.cache.truthful coherent.seeded.resourced 11)
      (coherent'.cache.truthful coherent'.seeded.resourced 11) ⟨rfl, rfl, rfl⟩).1
  exact ⟨alikeFor_lead, same.trans (Chain.execute_ok_iff.mp (lead_executes .empty))⟩

end Gatehouse
