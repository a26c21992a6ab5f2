import Gatehouse.Proofs.Site.Audit
import Gatehouse.Proofs.Site.Bindings

/-!
The spelling of an identifier changes nothing.

An identifier in a path may be spelled with zeros or a plus sign in front. The stages of a service read
the number that a text spells and go on with that, so two requests that differ in the spelling of their
organization and their team only (`Request.Respells`) are given the same by every stage
(`Stage.process_respelled`), but for the path that the audit writes down. In the end they have one
outcome, and the same is known of them (`run_eq_of_respelled`).
-/

namespace Gatehouse

variable {m : Moment} {s : Site} {request request' : Request} {route : Route} {stage : Stage Site}
  {stages : List (Stage Site)} {name : String}

/-! ### Spellings -/

/-- What two paths have for an identifier is the same text, or nothing in both, or two texts that spell one
number. -/
inductive SameIdentifier : Option String → Option String → Prop where
  | same (text : Option String) : SameIdentifier text text
  | number {text text' : String} {n : UInt64} (read : Text.uint64? text = some n)
      (read' : Text.uint64? text' = some n) : SameIdentifier (some text) (some text')

/-- Two requests are the same, but for how their organization and their team are spelled. They may differ in the
paths, where the spellings stand, and in further parameters, which nothing reads. -/
structure Request.Respells (request request' : Request) : Prop where
  method : request'.method = request.method
  authorization : request'.authorization = request.authorization
  address : request'.address = request.address
  id : request'.id = request.id
  org : SameIdentifier (request.parameters.find? orgParameter) (request'.parameters.find? orgParameter)
  team : SameIdentifier (request.parameters.find? teamParameter) (request'.parameters.find? teamParameter)

/-! ### The stages -/

namespace Stage

/-- A parameter is read as the same number, or refused in the same words. -/
theorem numericParameter_respelled
    (same : SameIdentifier (request.parameters.find? name) (request'.parameters.find? name)) :
    numericParameter request' name = numericParameter request name := by
  unfold numericParameter
  generalize request.parameters.find? name = text at same ⊢
  generalize request'.parameters.find? name = text' at same ⊢
  cases same with
  | same => rfl
  | number read read' => simp only [read, read']

variable (respells : request.Respells request')

include respells

/-- No stage but the audit tells the requests apart. -/
theorem process_respelled
    (mem : stage ∈ [requestId, authentication, org, team, permission, responseLog]) :
    stage.process m request' = stage.process m request := by
  simp only [List.mem_cons, List.not_mem_nil, or_false] at mem
  rcases mem with rfl | rfl | rfl | rfl | rfl | rfl
  · simp only [requestId, respells.id]
  · simp only [authentication, respells.authorization, respells.address]
  · simp only [org, ofLook, lookUpOrg, numericParameter_respelled respells.org]
  · simp only [team, ofLook, lookUpTeam, numericParameter_respelled respells.team]
  · rfl
  · rfl

/-- The audit tells them apart by their paths only. -/
theorem audit_respelled (path : request'.path = request.path) :
    audit.process m request' = audit.process m request := by
  simp only [audit, auditEntry, respells.method, path]

end Stage

/-! ### The whole chain -/

/-- Two results of one chain are the same, but for what the audit has written down. -/
structure Chain.Result.Alike (here there : Chain.Result Site) : Prop where
  outcome : there.outcome = here.outcome
  context : there.context = { here.context with audit := there.context.audit }
  state : there.state = { here.state with audit := there.state.audit }

theorem Chain.Result.Alike.refl (here : Chain.Result Site) : here.Alike here := ⟨rfl, rfl, rfl⟩

/-- The front of a chain does the same to both requests, and what comes after it refuses neither. -/
theorem Chain.run_alike (respells : request.Respells request') :
    ((build route .standard).run m request s).Alike ((build route .standard).run m request' s) := by
  obtain ⟨front, stages, among⟩ := exists_front route
  have same : Stage.processAll m request' front (.start route.operation, s) =
      Stage.processAll m request front (.start route.operation, s) :=
    Stage.processAll_congr fun stage mem =>
      Stage.process_respelled respells (List.mem_append_left [Stage.responseLog] (among mem))
  have silent := silent_standard route
  rcases processed : Stage.processAll m request front (.start route.operation, s) with ⟨outcome, known⟩
  rw [processed] at same
  cases outcome with
  | error err =>
      have refused {request : Request} (processed : Stage.processAll m request front
          (.start route.operation, s) = (.error err, known)) :
          Stage.processAll m request (build route .standard).stages (.start route.operation, s) =
            (.error err, known) := by
        rw [stages, Stage.processAll_append, processed]
      rw [run_of_silent silent (refused processed), run_of_silent silent (refused same)]
      exact .refl _
  | ok done =>
      have passed {request : Request} (processed : Stage.processAll m request front
          (.start route.operation, s) = (.ok done, known)) :
          Stage.processAll m request (build route .standard).stages (.start route.operation, s) =
            Stage.processAll m request
              ((if route.IsAudited then [Stage.audit] else []) ++ [Stage.responseLog]) known := by
        rw [stages, Stage.processAll_append, processed]
      by_cases audited : route.IsAudited
      · rw [if_pos audited] at passed
        rw [run_of_silent silent (passed processed), run_of_silent silent (passed same)]
        exact ⟨rfl, rfl, rfl⟩
      · rw [if_neg audited] at passed
        rw [run_of_silent silent (passed processed), run_of_silent silent (passed same)]
        exact .refl _

/-- Under one path the audit tells nothing apart either. -/
theorem Chain.run_respelled (respells : request.Respells request') (path : request'.path = request.path) :
    (build route .standard).run m request' s = (build route .standard).run m request s := by
  refine run_congr (silent_standard route) fun stage mem => ?_
  rcases mem_stages_build mem with rfl | ⟨⟨⟩⟩ | ⟨⟨⟩⟩ | ⟨⟨⟩⟩ | ⟨⟨⟩⟩ | ⟨⟨⟩⟩ | rfl
  · exact Stage.process_respelled respells (by simp)
  · exact Stage.process_respelled respells (by simp)
  · exact Stage.process_respelled respells (by simp)
  · exact Stage.process_respelled respells (by simp)
  · exact Stage.process_respelled respells (by simp)
  · exact Stage.audit_respelled respells path
  · exact Stage.process_respelled respells (by simp)

/-- **The spelling of an identifier changes nothing.** Two requests that are the same but for how their
organization and their team are spelled come to one outcome, on every route, in every state of the stores
and at every time: both pass, or both are refused with one error. The names that are bound are the same,
and with them the resources that the operation is tried on, the permissions of the caller and the one that
grants the operation; so is all else that is known and what the service is left in, but for the path in
the audit entry, and if the paths are the same that too. -/
theorem run_eq_of_respelled (respells : request.Respells request') :
    let here := (Chain.build route .standard).run m request s
    let there := (Chain.build route .standard).run m request' s
    there.outcome = here.outcome ∧ there.context.vars = here.context.vars ∧
      Grant.candidates route.operation there.context.vars =
        Grant.candidates route.operation here.context.vars ∧
      there.context.permissions = here.context.permissions ∧
      there.context.grantedBy = here.context.grantedBy ∧ here.Alike there ∧
      (request'.path = request.path → there = here) := by
  intro here there
  have alike : here.Alike there := Chain.run_alike respells
  have vars : there.context.vars = here.context.vars := by rw [alike.context]
  refine ⟨alike.outcome, vars, by rw [vars], ?_, ?_, alike, Chain.run_respelled respells⟩
  · rw [alike.context]
  · rw [alike.context]

/-- The request of a lead for the settings of its team, with zeros and a plus sign in front of the numbers. -/
def Request.forTeamSettingsRespelled (authorization : String) : Request :=
  { Request.forTeamSettings authorization with
    path := "/orgs/+007/teams/03/settings"
    parameters := .ofList [("org_id", "+007"), ("team_id", "03")] }

/-- The lead passes with it as with the other spelling, by what the team lends to its lead, for the team's
number as it is written out. -/
theorem lead_passes_respelled :
    let respelled := Request.forTeamSettingsRespelled "Bearer secret"
    (Request.forTeamSettings "Bearer secret").Respells respelled ∧
      let result := (Chain.build .teamSettings .standard).run default respelled .ofLeadSession
      result.outcome = .ok () ∧ result.context.grantedBy = some ⟨"org:team:*", "org.7.team.3:*:*"⟩ := by
  intro respelled
  have respells : (Request.forTeamSettings "Bearer secret").Respells respelled :=
    ⟨rfl, rfl, rfl, rfl, .number (n := 7) (by decide) (by decide), .number (n := 3) (by decide) (by decide)⟩
  have granted : ((Chain.build .teamSettings .standard).run default (.forTeamSettings "Bearer secret")
      .ofLeadSession).context.grantedBy = some ⟨"org:team:*", "org.7.team.3:*:*"⟩ := by
    decide +kernel
  obtain ⟨outcome, _, _, _, grantedBy, _⟩ := run_eq_of_respelled respells
  exact ⟨respells, outcome.trans session_of_lead_passes.2, grantedBy.trans granted⟩

end Gatehouse
