import Gatehouse.Proofs.Role.Store
import Gatehouse.Proofs.Route.Registry
import Gatehouse.Proofs.Site.Admission
import Gatehouse.Proofs.Token.Scope

/-!
How far the scopes of a token confine it.

Scopes narrow what the token's owner is entitled to by roles. They do not narrow what a team lends to
its lead, which is added afterwards (`admits_of_lead`). So a token of narrow scopes lets a request
pass whose operation is of none of its scopes exactly when its owner leads the team of the path and
the operation is one of those that leads are lent.
-/

namespace Gatehouse

variable {m : Moment} {s : Site} {request : Request} {route : Route} {identity : Identity}
  {secret : String} {token : Token}

/-! ### What a team lends -/

theorem PermissionCache.exists_load_eq_ok {c : PermissionCache} {roles : RoleStore} {user : UserId}
    (calm : m.outage = .none) : ∃ e, (c.load m roles user).1 = .ok e := by
  unfold load
  split
  · exact ⟨_, rfl⟩
  · rw [calm, RoleStore.entitlements_none]
    exact ⟨_, rfl⟩

/-- What leads may do are operations on organizations. -/
theorem Operation.scope_of_lent {op : Operation}
    (matching : Pattern.matchesOperation "org:team:*" op.text = true) : op.scope = "org" := by
  have segments : Text.split ':' "org:team:*" = "org" :: ["team", "*"] := by decide
  exact Pattern.scope_of_matchesOperation segments (by decide) matching

/-- The lead of the team of the path is admitted to what leads may do, whatever its scopes. -/
theorem admits_of_lead {orgId : OrgId} {role : OrgRole} {teamId : TeamId}
    (calm : m.outage = .none)
    (leads : (Standing.inTeam orgId role teamId (some .lead)).Holds s.directory route request
      identity.user)
    (matching : Pattern.matchesOperation "org:team:*" route.operation.text = true) :
    Admits m s route request identity := by
  obtain ⟨e, load⟩ : ∃ e, (s.cache.load m s.roles identity.user).1 = .ok e :=
    PermissionCache.exists_load_eq_ok calm
  have domain : route.operation.domain? = some .org := by
    unfold Operation.domain?
    rw [Operation.scope_of_lent matching]
    rfl
  refine ⟨_, e, leads, load, ⟨"org:team:*", Grant.teamResource orgId teamId⟩, ?_, matching, ?_⟩
  · rw [← Grant.teamLead_eq]
    exact List.mem_append_right _ (List.mem_singleton_self _)
  · exact ⟨Grant.teamResource orgId teamId, Standing.teamResource_mem_resources domain,
      Pattern.matchesResource_self _⟩

/-! ### What narrow scopes let pass -/

/-- The scopes are names of scopes that narrow. -/
def Scopes.Narrow (scopes : List String) : Prop :=
  scopes ≠ [] ∧ ∀ scope ∈ scopes, scope = TokenScope.own.name ∨ scope = TokenScope.sys.name

instance (scopes : List String) : Decidable (Scopes.Narrow scopes) := by
  unfold Scopes.Narrow; infer_instance

namespace Scopes.Narrow

variable {scopes : List String} (narrow : Narrow scopes)

include narrow

theorem areFull_eq_false : areFull scopes = false := by
  have nonempty : scopes.isEmpty = false := by simpa using narrow.1
  have notFull : TokenScope.full.name ∉ scopes := by
    intro listed
    rcases narrow.2 _ listed with same | same <;> revert same <;> decide
  unfold areFull
  rw [nonempty, Bool.false_or]
  simpa using notFull

theorem words : ∀ scope ∈ scopes, ':' ∉ scope.toList ∧ scope ≠ Pattern.wildcard := by
  intro scope listed
  rcases narrow.2 scope listed with rfl | rfl <;> decide

theorem org_notMem : "org" ∉ scopes := by
  intro listed
  rcases narrow.2 _ listed with same | same <;> revert same <;> decide

end Scopes.Narrow

/-- A token of narrow scopes lets a request pass to an operation of none of them exactly when it may
be used, its owner leads the team of the path, and the operation is one that leads are lent. -/
theorem passes_outside_scopes_iff {routes : List Route} {g : Registry}
    (built : Registry.build routes = .ok g) (registered : route ∈ g.routes)
    (guarded : route.isPublic = false) (calm : m.outage = .none) (bears : request.Bears s secret)
    (stored : s.tokens.find? (Token.hashOf secret) = some token)
    (narrow : Scopes.Narrow token.scopes) :
    ((∃ ctx, ((Chain.build route .standard).execute m request s).1 = .ok ctx) ∧
        route.operation.scope ∉ token.scopes) ↔
      token.check m.now request.address = .ok () ∧
        Pattern.matchesOperation "org:team:*" route.operation.text = true ∧
          ∃ orgId role teamId, (Standing.inTeam orgId role teamId (some .lead)).Holds s.directory
            route request token.owner := by
  have paired := Registry.paired_of_build built route registered
  rw [Chain.execute_ok_iff]
  constructor
  · rintro ⟨passes, outside⟩
    obtain ⟨identity, proves, ⟨standing, e, holds, _, p, mem, matching, _⟩, _⟩ :=
      admitted_of_passes guarded paired calm passes
    obtain ⟨found, stored', rfl, valid⟩ := proves.of_bears bears
    obtain rfl := Option.some.inj (stored'.symm.trans stored)
    rcases List.mem_append.mp mem with kept | lent
    · have inside := Scopes.scope_mem_of_mem_restrict narrow.areFull_eq_false narrow.words kept
        matching
      exact absurd inside outside
    · cases standing with
      | outside => cases lent
      | inOrg => cases lent
      | inTeam orgId role teamId teamRole =>
          rcases teamRole with _ | _ | _
          · cases lent
          · obtain rfl := List.mem_singleton.mp lent
            exact ⟨valid, matching, orgId, role, teamId, holds⟩
          · cases lent
  · rintro ⟨valid, matching, orgId, role, teamId, leads⟩
    constructor
    · exact passes_of_admitted guarded paired calm (.personal bears stored valid)
        (admits_of_lead calm leads matching)
    · rw [Operation.scope_of_lent matching]
      exact narrow.org_notMem

/-! ### A lead with a token for its own account -/

/-- A token that is good for a user's own account only. -/
def Token.ofOwnAccount (owner : UserId) (secret : String) : Token :=
  ⟨"laptop", owner, "laptop", Token.hashOf secret, [TokenScope.own.name], .active, none, [],
    default⟩

/-- A service with the lead of a team, who has a token for its own account. -/
def Site.ofOneLead (secret : String) : Site :=
  { Site.start .default .log 0 with
    roles := .builtIn
    directory := .ofOneTeam
    tokens := TokenStore.empty.insert (.ofOwnAccount 11 secret) }

theorem bears_lead_secret :
    (Request.forTeamSettings "Bearer pat_lead").Bears (.ofOneLead "pat_lead") "pat_lead" := by
  have header : Credential.ofHeader "pat_" (some "Bearer pat_lead") = .ok (.personal "pat_lead") := by
    decide
  exact header

/-- The lead's token passes to the settings of the team, whatever sessions are open. -/
theorem lead_executes (sessions : Sessions) :
    ∃ ctx, ((Chain.build .teamSettings .standard).execute default
      (.forTeamSettings "Bearer pat_lead")
        { Site.ofOneLead "pat_lead" with sessions }).1 = .ok ctx := by
  have stored := TokenStore.find?_insert_self .empty (.ofOwnAccount 11 "pat_lead")
  have valid : (Token.ofOwnAccount 11 "pat_lead").check (default : Moment).now none = .ok () := by
    decide
  refine Chain.execute_ok_iff.mpr (passes_of_admitted (by decide) (fun _ => by decide) rfl
    (.personal bears_lead_secret stored valid) ?_)
  exact admits_of_lead rfl (holds_ofOneTeam "Bearer pat_lead") (by decide)

/-- The lead's token passes to the settings of the team, although it is for its own account only. -/
theorem own_account_token_passes_to_team :
    Registry.build [.teamSettings] = .ok ⟨[.teamSettings]⟩ ∧
      (∃ ctx, ((Chain.build .teamSettings .standard).execute default
        (.forTeamSettings "Bearer pat_lead") (.ofOneLead "pat_lead")).1 = .ok ctx) ∧
        Route.teamSettings.operation.scope ∉ [TokenScope.own.name] := by
  have built : Registry.build [.teamSettings] = .ok ⟨[.teamSettings]⟩ := rfl
  have stored := TokenStore.find?_insert_self .empty (.ofOwnAccount 11 "pat_lead")
  refine ⟨built, (passes_outside_scopes_iff built (List.mem_singleton_self _) (by decide) rfl
    bears_lead_secret stored (by decide)).mpr ?_⟩
  exact ⟨by decide, by decide, 7, .member, 3, holds_ofOneTeam _⟩

/-- Tokens of narrow scopes are not confined to operations of their scopes. -/
theorem narrow_tokens_not_confined :
    ¬ ∀ (m : Moment) (s : Site) (request : Request) (secret : String) (token : Token)
      (routes : List Route) (g : Registry), Registry.build routes = .ok g → ∀ route ∈ g.routes,
        route.isPublic = false → m.outage = .none → request.Bears s secret →
          s.tokens.find? (Token.hashOf secret) = some token → Scopes.Narrow token.scopes →
            (∃ ctx, ((Chain.build route .standard).execute m request s).1 = .ok ctx) →
              route.operation.scope ∈ token.scopes := by
  intro confined
  have built : Registry.build [.teamSettings] = .ok ⟨[.teamSettings]⟩ := rfl
  have stored := TokenStore.find?_insert_self .empty (.ofOwnAccount 11 "pat_lead")
  have guarded : Route.teamSettings.isPublic = false := by decide
  have valid : (Token.ofOwnAccount 11 "pat_lead").check (default : Moment).now none = .ok () := by
    decide
  have passes := passes_of_admitted guarded (fun _ => by decide) rfl
    (.personal bears_lead_secret stored valid)
    (admits_of_lead rfl (holds_ofOneTeam "Bearer pat_lead") (by decide))
  have inside := confined default _ _ _ _ _ _ built _ (List.mem_singleton_self _) guarded rfl
    bears_lead_secret stored (by decide) (Chain.execute_ok_iff.mpr passes)
  exact absurd inside (by decide)

end Gatehouse
