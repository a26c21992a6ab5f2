import Gatehouse.Proofs.Http.Service
import Gatehouse.Proofs.Role.Changes
import Gatehouse.Proofs.Site.Refusals

/-!
Which failures the web interface answers with.

While the stores answer, no message is answered with a server error (`noServerError_of_up`). Every error
that a chain or an endpoint ends with is then the request's own. The cache fails no request, and a request
that passes to a team is known in its organization and in the team (`team_of_passes`).
-/

namespace Gatehouse

open Http

variable {m : Moment} {msg : Message} {s : Site} {request : Request} {route : Route} {ctx : Context}
  {o : Outage}

/-! ### Kinds of errors -/

theorem Kind.isRejection_iff {kind : Kind} :
    kind.isRejection = true ↔ kind ∉ [Kind.internal, .storeFailure, .cacheUnavailable] := by
  cases kind <;> decide

theorem Kind.status_lt_of_isRejection {kind : Kind} (rejection : kind.isRejection = true) :
    kind.status < 500 := by
  unfold isRejection at rejection
  simp only [Bool.and_eq_true, decide_eq_true_eq] at rejection
  exact rejection.2

/-! ### Orders of tokens -/

theorem Scopes.collect_accounts {kept names : List String} : o.Accounts (collect kept names) := by
  induction names generalizing kept with
  | nil => exact Outage.accounts_ok _
  | cons name names ih =>
      unfold collect TokenScope.parse
      cases TokenScope.all.find? (·.name == name) with
      | none => exact Outage.accounts_rejection rfl
      | some scope => exact ih

theorem Token.checkAllowlist_accounts {entries : List String} :
    o.Accounts (checkAllowlist entries) := by
  induction entries with
  | nil => exact Outage.accounts_ok _
  | cons entry rest ih =>
      unfold checkAllowlist
      split
      · exact ih
      · exact Outage.accounts_rejection rfl

theorem Token.issue_accounts {order : Order} {id secret : String} {now : Timestamp} :
    o.Accounts (issue order id secret now) := by
  have normalized : o.Accounts (Scopes.normalize order.scopes) := by
    unfold Scopes.normalize
    split
    · exact Outage.accounts_ok _
    · exact Scopes.collect_accounts
  refine normalized.bind fun scopes _ => ?_
  exact checkAllowlist_accounts.bind fun _ _ => Outage.accounts_ok _

/-! ### Other permissions of a role -/

theorem Permission.checkAll_accounts {permissions : List Permission} :
    o.Accounts (checkAll permissions) := by
  induction permissions with
  | nil => exact Outage.accounts_ok _
  | cons p rest ih =>
      unfold checkAll check
      cases Pattern.checkOperation p.operation with
      | error fault => exact Outage.accounts_rejection rfl
      | ok _ =>
          cases Pattern.checkResource p.resource with
          | error fault => exact Outage.accounts_rejection rfl
          | ok _ => exact ih

namespace Administration

open Attempt

variable {c : Change} {id : RoleId}

theorem ask_accounts {α : Type} {call : StoreCall} (answer : RoleStore → α) :
    o.Accounts ((ask o call answer).run c).1 :=
  Outage.accounts_reach call (answer c.store)

theorem changeable_accounts : o.Accounts ((changeable o id).run c).1 := by
  refine failsOnly_bind (ask_accounts _) fun found _ _ => ?_
  split
  · exact Outage.accounts_rejection rfl
  · split
    · exact Outage.accounts_rejection rfl
    · exact Outage.accounts_ok _

theorem setPermissions_accounts {permissions : List Permission} :
    o.Accounts ((setPermissions o id permissions).run c).1 := by
  refine failsOnly_lift_bind Permission.checkAll_accounts fun _ _ => ?_
  refine failsOnly_bind changeable_accounts fun r c _ => ?_
  refine failsOnly_bind ?wrote fun _ _ _ => Outage.accounts_ok ()
  case wrote =>
    rw [run_write]
    split
    · rename_i down
      exact Outcome.failsOnly_error (Outage.explains_storeDown down)
    unfold RoleStore.replacePermissions
    rw [run_get_bind]
    split
    · exact Outage.accounts_ok _
    · exact Outage.accounts_rejection rfl

end Administration

namespace Http

/-! ### Answers of the endpoints -/

/-- A server error has an excuse: some call to a store fails. -/
def Response.Excused (o : Outage) (r : Response) : Prop :=
  r.status < 500 ∨ ∃ call, o.stores call = true

theorem excused_ofError {err : Error} (explains : o.Explains err) :
    (Response.ofError err).Excused o := by
  rcases explains with rejection | ⟨call, down, _⟩
  · exact Or.inl (Kind.status_lt_of_isRejection rejection)
  · exact Or.inr ⟨call, down⟩

namespace Endpoint

theorem excused_answerWith {α : Type} {encode : α → Json} {result : Except Error α}
    (accounts : o.Accounts result) : (answerWith 200 encode result).Excused o := by
  cases result with
  | error err => exact excused_ofError (accounts err rfl)
  | ok a => exact Or.inl (by decide : 200 < 500)

theorem excused_of_readBody {α : Type} {read : Json.Reader α} {r : Response}
    (failed : readBody read msg = .error r) : r.Excused o := by
  obtain ⟨status, words, rfl, _, below⟩ := explain_of_readBody failed
  exact Or.inl below

theorem caller_accounts : o.Accounts (caller ctx) := by
  unfold caller
  split
  · exact Outage.accounts_ok _
  · exact Outage.accounts_rejection rfl

theorem holdersOfAny_accounts {roles : RoleStore} {listed : List Role} {found : Table UserId Unit} :
    o.Accounts (holdersOfAny o roles listed found) := by
  induction listed generalizing found with
  | nil => exact Outage.accounts_ok _
  | cons r rest ih => exact (Outage.accounts_reach _ _).bind fun users _ => ih

theorem issueToken_excused : (issueToken m msg ctx s).1.Excused m.outage := by
  unfold issueToken
  split
  · rename_i failed
    exact excused_of_readBody failed
  rename_i order _
  simp only
  split
  · rename_i err failed
    refine excused_ofError (Outage.Accounts.bind caller_accounts (fun user _ => ?_) err failed)
    split
    · exact Outage.accounts_rejection rfl
    · exact Token.issue_accounts.bind fun token _ => Outage.accounts_reach _ _
  · exact Or.inl (by decide : 201 < 500)

theorem changeRole_excused : (changeRole m msg s).1.Excused m.outage := by
  unfold changeRole
  split
  · exact Or.inl (by decide : 400 < 500)
  rename_i role _
  split
  · rename_i failed
    exact excused_of_readBody failed
  rename_i permissions _
  have accounts : m.outage.Accounts
      (s.administer m fun o => Administration.setPermissions o role permissions).1 :=
    Administration.setPermissions_accounts
  split <;> rename_i done <;> rw [done] at accounts
  · exact Or.inl (by decide : 204 < 500)
  · exact excused_ofError (accounts _ rfl)

/-- The endpoint of a team is the only one that needs more than the caller. -/
theorem handle_excused {e : Endpoint} (inTeam : e = .teamSettings → ∃ shown, showTeam ctx = .ok shown) :
    (e.handle m msg ctx s).1.Excused m.outage := by
  cases e with
  | health => exact Or.inl (by decide : 200 < 500)
  | tokenScopes => exact Or.inl (by decide : 200 < 500)
  | profile => exact excused_answerWith (caller_accounts.bind fun user _ => Outage.accounts_ok _)
  | listTokens =>
      refine excused_answerWith (caller_accounts.bind fun user _ => ?_)
      exact (Outage.accounts_reach _ _).bind fun tokens _ => Outage.accounts_ok _
  | createToken =>
      rw [handle_createToken]
      exact issueToken_excused
  | listUsers =>
      refine excused_answerWith ((Outage.accounts_reach _ _).bind fun roles _ => ?_)
      exact holdersOfAny_accounts.bind fun users _ => Outage.accounts_ok _
  | cacheStats => exact Or.inl (by decide : 200 < 500)
  | setPermissions =>
      rw [handle_setPermissions]
      exact changeRole_excused
  | teamSettings =>
      obtain ⟨shown, known⟩ := inTeam rfl
      have answer : Endpoint.teamSettings.handle m msg ctx s =
          (answerWith 200 id (showTeam ctx), s) := rfl
      rw [answer, known]
      exact excused_answerWith (Outage.accounts_ok _)

end Endpoint

end Http

/-! ### The whole interface -/

/-- A request that passes the chain of a route with a team is known in an organization and a team. -/
theorem team_of_passes (guarded : route.isPublic = false)
    (paired : route.needsTeam = true → route.needsOrg = true) (needsTeam : route.needsTeam = true)
    (passes : ((Chain.build route .standard).run m request s).outcome = .ok ()) :
    ∃ org team, ((Chain.build route .standard).run m request s).context.org = some org ∧
      ((Chain.build route .standard).run m request s).context.team = some team := by
  obtain ⟨id, identity, e, standing, p, audit, _, holds, _, known⟩ :=
    granted_of_passes guarded paired passes
  rw [known]
  cases standing with
  | outside =>
      obtain ⟨_, without⟩ := holds
      rw [needsTeam] at without
      cases without
  | inOrg org role =>
      obtain ⟨_, without, _⟩ := holds
      rw [needsTeam] at without
      cases without
  | inTeam org role team teamRole => exact ⟨org, team, rfl, rfl⟩

namespace Http

theorem Endpoint.showTeam_of_passes
    (passes : (teamSettings.chain.run m request s).outcome = .ok ()) :
    ∃ shown, showTeam (teamSettings.chain.run m request s).context = .ok shown := by
  have guarded : teamSettings.route.isPublic = false := by decide
  have needsTeam : teamSettings.route.needsTeam = true := by decide
  have chain : teamSettings.chain = .build teamSettings.route .standard := rfl
  rw [chain] at passes ⊢
  obtain ⟨org, team, inOrg, inTeam⟩ := team_of_passes guarded teamSettings.paired needsTeam passes
  unfold showTeam
  rw [inOrg, inTeam]
  exact ⟨_, rfl⟩

/-- Every server error that a message is answered with has an excuse. -/
theorem guarded_excused (e : Endpoint) : (guarded m msg e s).1.Excused m.outage := by
  obtain ⟨result, ran⟩ : ∃ result, e.chain.run m (msg.request e.route) s = result := ⟨_, rfl⟩
  cases outcome : result.outcome with
  | error err =>
      rw [guarded_of_error ran outcome]
      rw [← ran] at outcome
      exact excused_ofError (Chain.explains_of_refused e.paired outcome)
  | ok done =>
      obtain ⟨status, _⟩ := guarded_frame_of_ok ran outcome
      unfold Response.Excused
      rw [status]
      refine Endpoint.handle_excused fun atTeam => ?_
      subst atTeam ran
      exact Endpoint.showTeam_of_passes outcome

theorem respond_excused (m : Moment) (msg : Message) (s : Site) : (respond m msg s).1.Excused m.outage := by
  cases found : msg.endpoint? with
  | none =>
      obtain ⟨possible, _⟩ := respond_of_endpoint?_eq_none (m := m) (s := s) found
      exact Or.inl (by omega)
  | some e =>
      obtain ⟨same, _⟩ := respond_of_endpoint?_eq_some (m := m) (s := s) found
      unfold Response.Excused
      rw [same]
      exact guarded_excused e

/-- **While the stores answer, no failure of the service itself comes to light.** This is so whatever is
stored, whatever the backend of the cache holds and whichever calls to it fail. No message is answered
with a server error. No chain of registered routes refuses a request with an error inside the service,
such as a team that is looked up before its organization, nor with one of a store or of the cache. And
the endpoint of a team always knows the team that it is asked about. -/
theorem noServerError_of_up {routes : List Route} {g : Registry}
    (built : Registry.build routes = .ok g) (up : m.outage.stores = fun _ => false) (s : Site) :
    (∀ msg, (respond m msg s).1.status < 500) ∧
      (∀ chain ∈ (ChainTable.assemble g .standard).chains, ∀ request err,
        (chain.run m request s).outcome = .error err →
          err.kind ∉ [Kind.internal, .storeFailure, .cacheUnavailable]) ∧
      ∀ request, (Endpoint.teamSettings.chain.run m request s).outcome = .ok () →
        ∃ shown, Endpoint.showTeam (Endpoint.teamSettings.chain.run m request s).context =
          .ok shown := by
  refine ⟨fun msg => ?_, ?_, fun request => Endpoint.showTeam_of_passes⟩
  · rcases respond_excused m msg s with below | ⟨call, down⟩
    · exact below
    · rw [up] at down
      cases down
  · intro chain mem request err refused
    obtain ⟨route, registered, rfl⟩ := List.mem_map.mp mem
    have paired := Registry.paired_of_build built route registered
    have rejection := (Chain.explains_of_refused paired refused).isRejection up
    exact Kind.isRejection_iff.mp rejection

/-- With the cache cut off, the lead of a team is shown its settings. -/
theorem lead_shown_without_cache :
    let m : Moment := { (default : Moment) with outage := ⟨fun _ => false, fun _ => true⟩ }
    let s := { Site.start .default .log 0 with
      roles := .builtIn, directory := .ofOneTeam, sessions := Sessions.empty.add "secret" 11 }
    let msg : Message :=
      ⟨"GET", "/orgs/7/teams/3/settings", [("Authorization", "Bearer secret")], "", none⟩
    ∃ g, Registry.build (Endpoint.all.map Endpoint.route) = .ok g ∧
      m.outage.stores = (fun _ => false) ∧ (respond m msg s).1.status < 500 ∧
      ∃ shown, Endpoint.showTeam (Endpoint.teamSettings.chain.run m
        (.forTeamSettings "Bearer secret") s).context = .ok shown := by
  intro m s msg
  have built : Registry.build (Endpoint.all.map Endpoint.route) =
      .ok ⟨Endpoint.all.map Endpoint.route⟩ := by rfl
  have up : m.outage.stores = fun _ => false := rfl
  have passes : (Endpoint.teamSettings.chain.run m (.forTeamSettings "Bearer secret") s).outcome =
      .ok () := by decide
  obtain ⟨answers, _, shows⟩ := noServerError_of_up built up s
  exact ⟨_, built, up, answers msg, shows _ passes⟩

end Http

end Gatehouse
