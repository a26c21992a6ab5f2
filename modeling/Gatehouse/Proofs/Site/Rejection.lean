import Gatehouse.Proofs.Chain.Calls
import Gatehouse.Proofs.Site.Bindings

/-!
What a refused request leaves behind.

What a stage has written when it refuses a request stays written. But each stage of a service writes what it
has found out only once nothing can fail any more: stage by stage, all that may fail only looks, and what
writes succeeds. So a refusal adds nothing to what is known of the request
(`Stage.refusesCleanly_of_mem_standard`). With the calls of chains of any stages this gives
`Chain.run_in_order_and_atomic`: a chain goes through its stages in order up to the first refusal, and the
context of a request that a service refuses is the one that the stages before the refusal have made.
-/

namespace Gatehouse

variable {m : Moment} {s : Site} {request : Request} {stage : Stage Site}

namespace Stage

theorem standard_of_build (route : Route) : (Chain.build route .standard).stages ⊆ standard := by
  intro stage mem
  rcases Chain.mem_stages_build mem with rfl | ⟨⟨⟩⟩ | ⟨⟨⟩⟩ | ⟨⟨⟩⟩ | ⟨⟨⟩⟩ | ⟨⟨⟩⟩ | rfl <;> simp [standard]

/-! ### What is written last -/

open Attempt

theorem noteCaller_atomic (found : Except Error Site.Caller) : (noteCaller found).Atomic :=
  (looks_lift found).bind_atomic fun _ => (succeeds_modify _).atomic

/-- The organization is written down when it is registered and the caller's place in it is known. -/
theorem lookUpOrg_atomic (m : Moment) (s : Site) (request : Request) :
    (lookUpOrg m s request).Atomic := by
  refine (looks_lift _).bind_atomic fun orgId => looks_get.bind_atomic fun ctx => ?_
  split
  · exact (looks_throw _).atomic
  refine (looks_lift _).bind_atomic fun registered => ?_
  split
  · exact (looks_throw _).atomic
  refine (looks_lift _).bind_atomic fun place => ?_
  split
  · exact (looks_throw _).atomic
  · exact (succeeds_modify _).atomic

theorem noteTeam_succeeds (orgId : OrgId) (teamId : TeamId) (teamRole : Option TeamRole) :
    (noteTeam orgId teamId teamRole).Succeeds := fun _ => ⟨(), _, noteTeam_run⟩

/-- The team is written down, and its lead is granted what leads may do, when the caller is known to
reach the team. -/
theorem lookUpTeam_atomic (m : Moment) (s : Site) (request : Request) :
    (lookUpTeam m s request).Atomic := by
  refine (looks_lift _).bind_atomic fun teamId => looks_get.bind_atomic fun ctx => ?_
  split
  · refine (looks_lift _).bind_atomic fun owner => ?_
    split
    · exact (looks_throw _).atomic
    refine (looks_lift _).bind_atomic fun teamRole => ?_
    split
    · exact (looks_throw _).atomic
    · exact (noteTeam_succeeds _ _ _).atomic
  · exact (looks_throw _).atomic

theorem lookForGrant_atomic : lookForGrant.Atomic := by
  refine looks_get.bind_atomic fun ctx => ?_
  split
  · exact (succeeds_modify _).atomic
  · exact (looks_throw _).atomic

/-! ### Clean refusals -/

/-- What an atomic look writes before it fails, if anything, is nowhere to be seen. -/
theorem ofLook_refusesCleanly {name : String} {look : Moment → Site → Request → Attempt Context Unit}
    (atomic : ∀ m s request, (look m s request).Atomic) : (ofLook name look).RefusesCleanly := by
  rintro m request ⟨ctx, s⟩ known' err refused
  exact atomic m s request ctx err known'.1 (ofLook_eq_iff.mp refused).1

/-- A look that writes too early leaves a trace of the request that it refuses. -/
example (ctx : Context) :
    let early : Stage Site := .ofLook "early" fun _ _ _ => do
      modify ({ · with org := some 7 })
      throw (.unknownOrg 7)
    early.process m request (ctx, s) = (.error (.unknownOrg 7), { ctx with org := some 7 }, s) := rfl

/-- Who fails to be authenticated is not known afterwards, though the cache may have been filled. -/
theorem authentication_refusesCleanly : authentication.RefusesCleanly := by
  rintro m request ⟨ctx, s⟩ known' err refused
  obtain ⟨failed, written⟩ := Prod.mk.inj refused
  refine noteCaller_atomic (s.authenticate m request.authorization request.address).1 ctx err known'.1 ?_
  exact Prod.ext failed (congrArg Prod.fst written)

/-- A stage of a service that refuses a request leaves what is known of it as it was. -/
theorem refusesCleanly_of_mem_standard (mem : stage ∈ standard) : stage.RefusesCleanly := by
  simp only [standard, List.mem_cons, List.not_mem_nil, or_false] at mem
  -- The first stage and the last two refuse nothing.
  rcases mem with rfl | rfl | rfl | rfl | rfl | rfl | rfl
  · intro m request known known' err refused
    cases refused
  · exact authentication_refusesCleanly
  · exact ofLook_refusesCleanly lookUpOrg_atomic
  · exact ofLook_refusesCleanly lookUpTeam_atomic
  · exact ofLook_refusesCleanly fun _ _ _ => lookForGrant_atomic
  · intro m request known known' err refused
    cases refused
  · intro m request known known' err refused
    cases refused

end Stage

/-- **Chains go through their stages in order, and refusals are atomic.** A chain of any stages gives a request
to those on its course, each once and in order, up to and with the first that refuses it, and to none after it;
then it tells every stage, once and in order, what is known in the end and the outcome. The request is let pass
exactly when every stage lets it pass, and otherwise the outcome is the error of the first refusal. A stage of a
service that refuses a request leaves what is known of it as it was, so that in a chain of such stages, as every
route of a service has one, what is known of a refused request is what the stages before the refusal have left. -/
theorem Chain.run_in_order_and_atomic :
    (∀ {σ : Type} (c : Chain σ) (m : Moment) (request : Request) (s : σ),
      let result := c.run m request s
      (∃ n t, Stage.Course m request c.stages (.start c.route.operation, s) n result.outcome
          (result.context, t) ∧
        c.watched.run m request (s, []) =
          ⟨result.context, result.outcome, result.state,
            (List.range n).map .process ++ (List.range c.stages.length).map fun place =>
              .complete place result.context result.outcome⟩) ∧
      (result.outcome = .ok () ↔
        ∃ known, Stage.Passes m request c.stages (.start c.route.operation, s) known)) ∧
    (∀ stage ∈ Stage.standard, ∀ m request known known' err,
      stage.process m request known = (.error err, known') → known'.1 = known.1) ∧
    (∀ route, (build route .standard).stages ⊆ Stage.standard) ∧
    ∀ c : Chain Site, c.stages ⊆ Stage.standard → ∀ m request s err,
      (c.run m request s).outcome = .error err →
        ∃ before stage after between, c.stages = before ++ stage :: after ∧
          Stage.Passes m request before (.start c.route.operation, s) between ∧
            (stage.process m request between).1 = .error err ∧
              (c.run m request s).context = between.1 := by
  refine ⟨?_, ?_, ?_, ?_⟩
  · intro σ c m request s
    exact ⟨run_watched c m request s, run_ok_iff_passes⟩
  · intro stage mem
    exact Stage.refusesCleanly_of_mem_standard mem
  · exact Stage.standard_of_build
  · intro c served m request s err refused
    have clean : ∀ stage ∈ c.stages, stage.RefusesCleanly :=
      fun stage mem => Stage.refusesCleanly_of_mem_standard (served mem)
    exact context_of_refused clean refused

/-! ### A team that does not exist -/

/-- A request for the settings of a team that is not registered. -/
def Request.forLostTeam : Request :=
  { Request.forTeamSettings "Bearer secret" with parameters := .ofList [("org_id", "7"), ("team_id", "4")] }

/-- A member of the organization who asks for it is known as that, and as nothing more. -/
theorem lost_team_refused :
    let s := Site.ofLeadSession
    let c := Chain.build .teamSettings .standard
    c.stages ⊆ Stage.standard ∧
      (c.run default .forLostTeam s).outcome = .error (.unknownTeam 4 7) ∧
      ∃ before stage after between, c.stages = before ++ stage :: after ∧
        Stage.Passes default .forLostTeam before (.start c.route.operation, s) between ∧
          (stage.process default .forLostTeam between).1 = .error (.unknownTeam 4 7) ∧
            (c.run default .forLostTeam s).context = between.1 := by
  intro s c
  have served : c.stages ⊆ Stage.standard := Stage.standard_of_build _
  have refused : (c.run default .forLostTeam s).outcome = .error (.unknownTeam 4 7) := by decide
  exact ⟨served, refused,
    Chain.run_in_order_and_atomic.2.2.2 c served default .forLostTeam s _ refused⟩

end Gatehouse
