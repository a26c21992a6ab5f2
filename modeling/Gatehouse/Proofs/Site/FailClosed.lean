import Gatehouse.Proofs.Site.Admission

/-!
Whatever stages are left out, nothing passes without a caller and a permission.

The stages that find out who the caller is, where it stands and what is recorded may each be missing
from a chain, as long as one looks for a permission. Every stage before that one maintains that who is
unknown has no permission (`Context.Vouched`), so whatever passes has been granted to a caller who was
authenticated (`granted_of_partOfStandard`); without authentication nothing passes.
-/

namespace Gatehouse

/-- Every stage that is provided is the one that services use, and one looks for a permission. -/
structure Concerns.PartOfStandard (concerns : Concerns Site) : Prop where
  authentication : ∀ stage ∈ concerns.authentication, stage = .authentication
  org : ∀ stage ∈ concerns.org, stage = .org
  team : ∀ stage ∈ concerns.team, stage = .team
  permission : concerns.permission = some .permission
  audit : ∀ stage ∈ concerns.audit, stage = .audit

namespace Context

/-- What is known of the caller was found out by authentication, and who is unknown has no
permission. -/
structure Vouched (concerns : Concerns Site) (op : Operation) (ctx : Context) : Prop where
  operation : ctx.operation = op
  unknown : ctx.user = none → ctx.permissions = []
  known : ctx.user.isSome = true →
    ctx.authKind.isSome = true ∧ concerns.authentication.isSome = true

/-- The operation was granted to a caller who is known, by one of its permissions. -/
structure Granted (op : Operation) (ctx : Context) : Prop where
  user : ctx.user.isSome = true
  authKind : ctx.authKind.isSome = true
  permission : ∃ p, ctx.grantedBy = some p ∧ p ∈ ctx.permissions ∧
    Pattern.matchesOperation p.operation op.text = true ∧ (p.resource = Pattern.wildcard ∨
      ∃ candidate ∈ Grant.candidates op ctx.vars,
        Pattern.matchesResource p.resource candidate = true)

theorem vouched_start (concerns : Concerns Site) (op : Operation) : (start op).Vouched concerns op :=
  ⟨rfl, fun _ => rfl, nofun⟩

end Context

/-! ### What each stage maintains -/

namespace Stage

variable {concerns : Concerns Site} {op : Operation}

theorem requestId_maintains : (requestId : Stage Site).Maintains (·.Vouched concerns op) := by
  intro m request known known' vouched passed
  cases passed
  exact ⟨vouched.operation, vouched.unknown, vouched.known⟩

theorem authentication_maintains (provided : concerns.authentication.isSome = true) :
    authentication.Maintains (·.Vouched concerns op) := by
  rintro m request ⟨ctx, s⟩ known' vouched passed
  obtain ⟨identity, e, s', _, _, rfl⟩ := proves_of_authentication passed
  exact ⟨vouched.operation, nofun, fun _ => ⟨rfl, provided⟩⟩

theorem org_maintains : org.Maintains (·.Vouched concerns op) := by
  rintro m request ⟨ctx, s⟩ ⟨after, _⟩ vouched passed
  obtain ⟨looked, rfl⟩ := ofLook_eq_iff.mp passed
  obtain ⟨_, _, _, _, _, _, _, rfl⟩ := lookUpOrg_eq_ok_iff.mp looked
  exact ⟨vouched.operation, vouched.unknown, vouched.known⟩

/-- A team lends a permission only to a caller who is known. -/
theorem team_maintains : team.Maintains (·.Vouched concerns op) := by
  rintro m request ⟨ctx, s⟩ ⟨after, _⟩ vouched passed
  obtain ⟨looked, rfl⟩ := ofLook_eq_iff.mp passed
  obtain ⟨user, _, _, _, _, known, _, _, _, _, _, _, rfl⟩ := lookUpTeam_eq_ok_iff.mp looked
  refine ⟨vouched.operation, fun unknown => ?_, vouched.known⟩
  cases known.symm.trans unknown

/-- The search for a permission grants to those only who have one, and so are known. -/
theorem granted_of_permission {m : Moment} {request : Request} {known known' : Context × Site}
    (vouched : known.1.Vouched concerns op)
    (passed : permission.process m request known = (.ok (), known')) :
    concerns.authentication.isSome = true ∧ known'.1.Granted op := by
  obtain ⟨ctx, s⟩ := known
  obtain ⟨after, _⟩ := known'
  obtain ⟨looked, rfl⟩ := ofLook_eq_iff.mp passed
  obtain ⟨p, found, rfl⟩ := lookForGrant_eq_ok_iff.mp looked
  rw [vouched.operation] at found
  have listed : p ∈ ctx.permissions := List.mem_of_find?_eq_some found
  obtain ⟨matching, reached⟩ := Grant.permits_eq_true_iff.mp (List.find?_some found)
  -- Who is unknown has no permission, and one was found.
  have known : ctx.user.isSome = true := by
    cases user : ctx.user with
    | none =>
        rw [vouched.unknown user] at listed
        cases listed
    | some user => rfl
  obtain ⟨kind, provided⟩ := vouched.known known
  exact ⟨provided, ⟨known, kind, p, rfl, listed, matching, reached⟩⟩

theorem audit_maintains : audit.Maintains (·.Granted op) := by
  rintro m request ⟨ctx, s⟩ known' granted passed
  cases passed
  exact ⟨granted.user, granted.authKind, granted.permission⟩

end Stage

/-! ### The whole chain -/

/-- **Chains fail closed.** Whichever of the stages are left out, a request that passes to a route that is
not public has a caller who was authenticated and a permission that grants the operation. -/
theorem granted_of_partOfStandard {m : Moment} {s : Site} {request : Request} {route : Route}
    {concerns : Concerns Site} {ctx : Context} (partly : concerns.PartOfStandard)
    (guarded : route.isPublic = false)
    (passes : ((Chain.build route concerns).execute m request s).1 = .ok ctx) :
    concerns.authentication.isSome = true ∧ ctx.Granted route.operation := by
  obtain ⟨passed, rfl⟩ := Chain.execute_eq_ok.mp passes
  obtain ⟨known, processed⟩ := Chain.run_ok_iff.mp passed
  rw [Chain.run_context processed]
  obtain ⟨before, after, stages, early, late⟩ :=
    Chain.exists_stages_build guarded partly.permission
  rw [stages] at processed
  obtain ⟨sought, first, rest⟩ := Stage.processAll_append_ok.mp processed
  obtain ⟨found, granting, last⟩ := Stage.processAll_cons_ok.mp rest
  have vouched : sought.1.Vouched concerns route.operation := by
    refine Stage.processAll_maintains (fun stage mem => ?_) (Context.vouched_start ..) first
    rcases early stage mem with rfl | caller | org | team
    · exact Stage.requestId_maintains
    · rw [partly.authentication stage caller]
      exact Stage.authentication_maintains (Option.isSome_of_mem caller)
    · rw [partly.org stage org]
      exact Stage.org_maintains
    · rw [partly.team stage team]
      exact Stage.team_maintains
  obtain ⟨provided, granted⟩ := Stage.granted_of_permission vouched granting
  refine ⟨provided, Stage.processAll_maintains (fun stage mem => ?_) granted last⟩
  rcases late stage mem with audit | rfl
  · rw [partly.audit stage audit]
    exact Stage.audit_maintains
  · exact Stage.responseLog_maintains

/-! ### Only a caller and a permission -/

/-- An administrator passes to the settings of a team where nobody looks for the team. -/
theorem admin_passes_without_places :
    let concerns : Concerns Site := { Concerns.standard with org := none, team := none, audit := none }
    let s := { Site.start .default .log 0 with
      roles := { RoleStore.builtIn with assignments := Table.empty.insert 1 [1] }
      sessions := Sessions.empty.add "secret" 1 }
    concerns.PartOfStandard ∧ Route.teamSettings.isPublic = false ∧
      ∃ ctx, ((Chain.build .teamSettings concerns).execute default (.forTeamSettings "Bearer secret")
        s).1 = .ok ctx ∧ concerns.authentication.isSome = true ∧
          ctx.Granted Route.teamSettings.operation := by
  intro concerns s
  have partly : concerns.PartOfStandard :=
    ⟨by rintro _ ⟨⟩; rfl, by rintro _ ⟨⟩, by rintro _ ⟨⟩, rfl, by rintro _ ⟨⟩⟩
  have guarded : Route.teamSettings.isPublic = false := by decide
  have passed : ((Chain.build .teamSettings concerns).run default (.forTeamSettings "Bearer secret")
      s).outcome = .ok () := by
    decide +kernel
  obtain ⟨ctx, passes⟩ := Chain.execute_ok_iff.mpr passed
  obtain ⟨provided, granted⟩ := granted_of_partOfStandard partly guarded passes
  exact ⟨partly, guarded, ctx, passes, provided, granted⟩

end Gatehouse
