import Gatehouse.Proofs.Route.Registry
import Gatehouse.Proofs.Site.Admission

/-!
Which public routes are open.

On a public route nobody is asked for a credential and nobody for a permission, but the organization of
the path is looked up all the same, and this look-up wants a caller. No caller is ever known there. So a
public route lets everything pass, or nothing: it is open exactly when its path has no organization
(`public_passes_iff_outside`).
-/

namespace Gatehouse

variable {m : Moment} {s : Site} {request : Request} {route : Route}

/-- What is known in the end of a request to a route that asks for nothing. -/
def Context.anonymous (m : Moment) (request : Request) (route : Route) : Context :=
  { Context.start route.operation with
    requestId := (request.id.bind Uuid.ofText?).getD m.requestId }

/-- The error that a request for an organization ends with where no caller is known. -/
def Request.unknownCallerFault (request : Request) : Error :=
  match Stage.numericParameter request orgParameter with
  | .error err => err
  | .ok _ => .orgWithoutCaller

/-- Without a caller, the look-up of the organization fails, whatever organization it is. -/
theorem Stage.org_of_unknown {ctx : Context} (unknown : ctx.user = none) :
    org.process m request (ctx, s) = (.error request.unknownCallerFault, ctx, s) := by
  refine ofLook_eq_iff.mpr ⟨?_, rfl⟩
  unfold lookUpOrg Request.unknownCallerFault
  cases numericParameter request orgParameter with
  | error err => rfl
  | ok orgId =>
      rw [Attempt.run_ok_bind, Attempt.run_get_bind, unknown]
      rfl

namespace Chain

theorem execute_public_outside (isOpen : route.isPublic = true) (needsOrg : route.needsOrg = false)
    (needsTeam : route.needsTeam = false) :
    ((build route .standard).execute m request s).1 = .ok (.anonymous m request route) := by
  unfold execute run
  rw [stages_build_standard_public isOpen, needsOrg, needsTeam]
  rfl

theorem execute_public_inOrg (isOpen : route.isPublic = true) (needsOrg : route.needsOrg = true) :
    ((build route .standard).execute m request s).1 = .error request.unknownCallerFault := by
  have identified : Stage.requestId.process m request (.start route.operation, s) =
      (.ok (), .anonymous m request route, s) := rfl
  have refused : Stage.org.process m request (.anonymous m request route, s) =
      (.error request.unknownCallerFault, .anonymous m request route, s) := Stage.org_of_unknown rfl
  unfold execute run
  rw [stages_build_standard_public isOpen, needsOrg]
  simp only [if_true, List.cons_append, List.nil_append, Stage.processAll, build, identified, refused]

end Chain

/-- **A public route is open exactly when its path has no organization.** Then every request passes, and
nobody is taken for its caller. With an organization every request is refused, whatever credential it
bears: its organization is no number, or it has no caller. -/
theorem public_passes_iff_outside {routes : List Route} {g : Registry}
    (built : Registry.build routes = .ok g) (registered : route ∈ g.routes)
    (isOpen : route.isPublic = true) :
    ((∃ ctx, ((Chain.build route .standard).execute m request s).1 = .ok ctx) ↔
        route.needsOrg = false) ∧
      ((Chain.build route .standard).execute m request s).1 =
        if route.needsOrg then .error request.unknownCallerFault
        else .ok (.anonymous m request route) := by
  have paired := Registry.paired_of_build built route registered
  cases needsOrg : route.needsOrg with
  | true => simp [Chain.execute_public_inOrg isOpen needsOrg]
  | false =>
      have needsTeam : route.needsTeam = false := by
        refine Bool.eq_false_iff.mpr fun needsTeam => ?_
        cases needsOrg.symm.trans (paired needsTeam)
      simp [Chain.execute_public_outside isOpen needsOrg needsTeam]

/-! ### A page about an organization -/

theorem isOperation_about : isOperation "public:org:about" = true := by decide

/-- What everyone may know of an organization. -/
def Route.about : Route :=
  ⟨"GET", "/orgs/{org_id}/about", ⟨"public:org:about", isOperation_about⟩, []⟩

/-- A request for it. -/
def Request.forAbout (authorization : Option String) : Request :=
  ⟨"GET", "/orgs/7/about", authorization, none, .ofList [("org_id", "7")], none⟩

/-- A member of the organization is refused with an open session, as everyone is. -/
theorem about_refused_to_member :
    let s := { Site.start .default .log 0 with
      roles := .builtIn, directory := .ofOneTeam, sessions := Sessions.empty.add "secret" 11 }
    Registry.build [.about] = .ok ⟨[.about]⟩ ∧ Route.about.isPublic = true ∧
      s.directory.orgRole? 7 11 = some .member ∧
        ((Chain.build .about .standard).execute default (.forAbout (some "Bearer secret")) s).1 =
          .error .orgWithoutCaller := by
  intro s
  have built : Registry.build [.about] = .ok ⟨[.about]⟩ := rfl
  have isOpen : Route.about.isPublic = true := by decide
  refine ⟨built, isOpen, by decide, ?_⟩
  exact (public_passes_iff_outside built (List.mem_singleton_self _) isOpen).2

/-- Public routes are not open to every request that is made for them. -/
theorem public_routes_not_open :
    ¬ ∀ (m : Moment) (s : Site) (request : Request) (routes : List Route) (g : Registry),
      Registry.build routes = .ok g → ∀ route ∈ g.routes, route.isPublic = true →
        ∀ path, route.extract? path = some request.parameters →
          ∃ ctx, ((Chain.build route .standard).execute m request s).1 = .ok ctx := by
  intro allOpen
  have built : Registry.build [.about] = .ok ⟨[.about]⟩ := rfl
  obtain ⟨ctx, passes⟩ := allOpen default (.start .default .log 0) (.forAbout none) _ _ built _
    (List.mem_singleton_self _) (by decide) "/orgs/7/about" (by decide +kernel)
  rw [Chain.execute_public_inOrg (by decide) (by decide)] at passes
  cases passes

end Gatehouse
