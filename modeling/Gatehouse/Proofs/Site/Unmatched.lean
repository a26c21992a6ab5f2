import Gatehouse.Proofs.Pattern.Subsumption
import Gatehouse.Proofs.Site.Rejection

/-!
Resource patterns that are refused for being short.

A resource pattern of fewer than three segments may be stored only if the last one is `*`. The others
would be good for nothing: whatever the stages of a service have bound, and even if one of them has
refused the request (`Stage.ofRequest_processAll`), the resources that an operation is tried on have three
segments, and without a `*` in the end a pattern matches what has as many segments as itself. So no
operation is ever granted by such a pattern (`short_matches_nothing`).
-/

namespace Gatehouse

open Text Pattern

variable {m : Moment} {s : Site} {request : Request} {stages : List (Stage Site)} {route op : Operation}
  {vars : Variables} {pattern : String}

/-- Whether stages let a request pass or not, they bind names of a request to numbers. -/
theorem Stage.ofRequest_processAll (served : stages ⊆ standard) :
    (processAll m request stages (.start route, s)).2.1.vars.OfRequest := by
  rcases processed : processAll m request stages (.start route, s) with ⟨outcome, known⟩
  cases outcome with
  | ok => exact processAll_ofRequest served processed
  | error err =>
      obtain ⟨before, stage, after, between, rfl, passes, refused⟩ := processAll_eq_error_iff.mp processed
      have mem : stage ∈ standard := served (List.mem_append_right _ (List.mem_cons_self ..))
      have bound : between.1.vars.OfRequest :=
        processAll_ofRequest (fun _ mem => served (List.mem_append_left _ mem))
          (processAll_eq_ok_iff.mpr passes)
      rw [refusesCleanly_of_mem_standard mem m request between known err refused]
      exact bound

namespace Grant

/-- A pattern that does not end in `*` matches no candidate unless it has three segments. -/
theorem matchesResource_eq_false_of_mem_candidates (bound : vars.OfRequest) {c : String}
    (mem : c ∈ candidates op vars) (other : (split ':' pattern).length ≠ 3)
    (last : (split ':' pattern).getLast? ≠ some wildcard) : matchesResource pattern c = false := by
  rw [Bool.eq_false_iff]
  intro matching
  exact other ((length_eq_of_matchesResource matching last).trans (length_of_mem_candidates bound mem))

/-- Permissions that grant nothing may be left out. -/
theorem find?_filter_of_permits {ps : List Permission} {candidates : List String} {keep : Permission → Bool}
    (kept : ∀ p, permits op candidates p = true → keep p = true) :
    find? (ps.filter keep) op candidates = find? ps op candidates := by
  have same : (fun p => decide (keep p = true ∧ permits op candidates p = true)) = permits op candidates := by
    funext p
    simpa using kept p
  rw [find?, List.find?_filter, same, find?]

end Grant

/-- **Short resource patterns are refused without loss.** A pattern that may not be stored because it has
fewer than three segments, the last of them not `*`, matches none of the resources that an operation is
tried on, whichever operation it is and whichever stages of a service the request has gone through, passed
or refused: all of these resources have three segments, for every caller, organization and team. So to
leave permissions with this pattern out of a list never changes what is found in it. -/
theorem short_matches_nothing (served : stages ⊆ Stage.standard)
    (rejected : checkResource pattern = .error (.tooFewSegments pattern)) (op : Operation) :
    let candidates := Grant.candidates op (Stage.processAll m request stages (.start route, s)).2.1.vars
    ((split ':' pattern).length < 3 ∧ (split ':' pattern).getLast? ≠ some "*") ∧
      (∀ c ∈ candidates, (split ':' c).length = 3 ∧ matchesResource pattern c = false) ∧
      (∀ ps, Grant.find? (ps.filter (·.resource ≠ pattern)) op candidates = Grant.find? ps op candidates) ∧
      ∀ (user : UserId) (standing : Standing), ∀ c ∈ Grant.candidates op (standing.vars user),
        (split ':' c).length = 3 ∧ matchesResource pattern c = false := by
  intro candidates
  have bound : (Stage.processAll m request stages (.start route, s)).2.1.vars.OfRequest :=
    Stage.ofRequest_processAll served
  obtain ⟨-, short, last⟩ := checkResource_eq_tooFewSegments_iff.mp rejected
  have unmatched {vars : Variables} (bound : vars.OfRequest) (c : String) (mem : c ∈ Grant.candidates op vars) :
      (split ':' c).length = 3 ∧ matchesResource pattern c = false :=
    ⟨Grant.length_of_mem_candidates bound mem,
      Grant.matchesResource_eq_false_of_mem_candidates bound mem short.ne last⟩
  refine ⟨⟨short, last⟩, unmatched bound, fun ps => ?_, fun user standing => unmatched standing.ofRequest_vars⟩
  refine Grant.find?_filter_of_permits fun p permitted => decide_eq_true ?_
  rintro rfl
  obtain ⟨_, c, mem, matching⟩ := (Grant.permits_iff Grant.candidates_ne_nil).mp permitted
  rw [(unmatched bound c mem).2] at matching
  cases matching

/-- For the team of a lead `org.7.*` is too short. -/
theorem short_matches_nothing_for_lead :
    let vars := (Stage.processAll default (.forTeamSettings "Bearer secret") Stage.placing
      (.start Route.teamSettings.operation, Site.ofLeadSession)).2.1.vars
    let candidates := Grant.candidates Route.teamSettings.operation vars
    Stage.placing ⊆ Stage.standard ∧ checkResource "org.7.*" = .error (.tooFewSegments "org.7.*") ∧
      candidates = ["*:*:*", "org.7:*:*", "org.7.team.3:*:*"] ∧
      ∀ c ∈ candidates, matchesResource "org.7.*" c = false := by
  intro vars candidates
  have rejected : checkResource "org.7.*" = .error (.tooFewSegments "org.7.*") := by decide
  have tried : candidates = ["*:*:*", "org.7:*:*", "org.7.team.3:*:*"] := by
    obtain ⟨known, passed, bound⟩ := lead_placed
    have placed : vars = known.1.vars := by simp only [vars, passed]
    simp only [candidates, placed, bound]
    decide
  refine ⟨Stage.placing_subset, rejected, tried, fun c mem => ?_⟩
  exact ((short_matches_nothing Stage.placing_subset rejected Route.teamSettings.operation).2.1 c mem).2

end Gatehouse
