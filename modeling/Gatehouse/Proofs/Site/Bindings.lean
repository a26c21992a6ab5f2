import Gatehouse.Proofs.Site.Admission
import Gatehouse.Proofs.Variables.Stored

/-!
What the stages of a service bind, and what names in stored permissions mean then.

Whichever stages a request has passed, the names that are bound are those of the caller, its
organization and its team, and they stand for numbers (`processAll_ofRequest`). So the search for a
permission treats names in stored permissions in two ways (`stored_iff_resolved`): where a permission
names the caller in the last segment of its resource pattern, and names nothing else, the name means the
caller; names anywhere else mean nothing. An organization, say, cannot be named in a stored permission,
although the names that are resolved for it are bound (`stored_org_not_resolved`).
-/

namespace Gatehouse

open Text Grant

variable {m : Moment} {s : Site} {request : Request} {stages : List (Stage Site)}
  {route op : Operation} {known : Context × Site} {p : Permission}

/-! ### What the stages bind -/

namespace Stage

/-- The stages of a service. -/
def standard : List (Stage Site) :=
  [requestId, authentication, org, team, permission, audit, responseLog]

/-- A stage that binds a name, binds one of a request to a number. -/
theorem ofRequest_maintains {stage : Stage Site} (mem : stage ∈ standard) :
    stage.Maintains (·.vars.OfRequest) := by
  simp only [standard, List.mem_cons, List.not_mem_nil, or_false] at mem
  rintro m request ⟨ctx, s⟩ ⟨after, s'⟩ bound passed
  rcases mem with rfl | rfl | rfl | rfl | rfl | rfl | rfl
  · cases passed
    exact bound
  · obtain ⟨identity, e, s', _, _, same⟩ := proves_of_authentication passed
    cases same
    exact bound.bind (by decide) identity.user
  · obtain ⟨looked, _⟩ := ofLook_eq_iff.mp passed
    obtain ⟨_, orgId, _, _, _, _, _, rfl⟩ := lookUpOrg_eq_ok_iff.mp looked
    exact bound.bind (by decide) orgId
  · obtain ⟨looked, _⟩ := ofLook_eq_iff.mp passed
    obtain ⟨_, _, _, teamId, _, _, _, _, _, _, _, _, rfl⟩ := lookUpTeam_eq_ok_iff.mp looked
    exact bound.bind (by decide) teamId
  · obtain ⟨looked, _⟩ := ofLook_eq_iff.mp passed
    obtain ⟨_, _, rfl⟩ := lookForGrant_eq_ok_iff.mp looked
    exact bound
  · cases passed
    exact bound
  · cases passed
    exact bound

/-- Whichever stages let a request pass, they bind names of a request to numbers. -/
theorem processAll_ofRequest (served : stages ⊆ standard)
    (passed : processAll m request stages (.start route, s) = (.ok (), known)) :
    known.1.vars.OfRequest :=
  processAll_maintains (K := (·.vars.OfRequest)) (fun _ mem => ofRequest_maintains (served mem))
    Variables.OfRequest.empty passed

end Stage

/-! ### A request of which all names are bound -/

/-- A service to which the lead of a team has an open session. -/
def Site.ofLeadSession : Site :=
  { Site.start .default .log 0 with
    roles := .builtIn, directory := .ofOneTeam, sessions := Sessions.empty.add "secret" 11 }

/-- The stages that find out who calls and where. -/
def Stage.placing : List (Stage Site) := [requestId, authentication, org, team]

theorem Stage.placing_subset : placing ⊆ standard := by
  intro stage mem
  simp only [placing, List.mem_cons, List.not_mem_nil, or_false] at mem
  rcases mem with rfl | rfl | rfl | rfl <;> simp [standard]

/-- The request of a lead for the settings of the team binds all three names. -/
theorem lead_placed : ∃ known : Context × Site,
    Stage.processAll default (.forTeamSettings "Bearer secret") Stage.placing
        (.start Route.teamSettings.operation, .ofLeadSession) = (.ok (), known) ∧
      known.1.vars = (Standing.inTeam 7 .member 3 (some .lead)).vars 11 := by
  have passed : (Stage.processAll default (.forTeamSettings "Bearer secret") Stage.placing
      (.start Route.teamSettings.operation, .ofLeadSession)).1 = .ok () := by
    decide +kernel
  exact ⟨_, Prod.ext passed rfl, by decide +kernel⟩

/-! ### What names in stored permissions mean -/

/-- Every name in a resource pattern is bound. -/
def Variables.Binds (vars : Variables) (pattern : String) : Prop :=
  ∀ segment ∈ split ':' pattern, ∀ component ∈ split '.' segment,
    '@' ∈ component.toList → vars.isBound component = true

instance (vars : Variables) (pattern : String) : Decidable (vars.Binds pattern) :=
  inferInstanceAs (Decidable (∀ segment ∈ split ':' pattern, ∀ component ∈ split '.' segment,
    '@' ∈ component.toList → vars.isBound component = true))

/-- Names in stored permissions do not mean what they are bound to: the lead of a team is not granted
what is stored for the organization of the request, but would be if it were stored for the number of
this organization. -/
theorem stored_org_not_resolved :
    ¬ ∀ (m : Moment) (s : Site) (request : Request) (stages : List (Stage Site))
      (route op : Operation) (known : Context × Site) (p : Permission), stages ⊆ Stage.standard →
        Stage.processAll m request stages (.start route, s) = (.ok (), known) →
          p.check = .ok () → known.1.vars.Binds p.resource →
            ((Grant.find? [p] op (Grant.candidates op known.1.vars)).isSome = true ↔
              (Grant.find? [{ p with resource := known.1.vars.resolve p.resource }] op
                (Grant.candidates op known.1.vars)).isSome = true) := by
  intro means
  obtain ⟨known, passed, vars⟩ := lead_placed
  have agree := means _ _ _ _ _ Route.teamSettings.operation known ⟨"org:*:*", orgTemplate⟩
    Stage.placing_subset passed (by decide) (by rw [vars]; decide)
  rw [vars] at agree
  revert agree
  decide

/-- **The caller may be named in a stored permission, in one place, and nothing else may.** After any of
the stages of a service, a permission whose resource pattern names the caller in its last segment, or
nothing at all, grants an operation exactly when the permission with the resolved pattern does. A
permission with names elsewhere grants nothing, whatever is bound. -/
theorem stored_iff_resolved (served : stages ⊆ Stage.standard)
    (passed : Stage.processAll m request stages (.start route, s) = (.ok (), known))
    (checked : p.check = .ok ()) :
    let candidates := Grant.candidates op known.1.vars
    (NamesCallerOnly p.resource →
      ((Grant.find? [p] op candidates).isSome = true ↔
        (Grant.find? [{ p with resource := known.1.vars.resolve p.resource }] op
          candidates).isSome = true)) ∧
      (¬ NamesCallerOnly p.resource → Grant.find? [p] op candidates = none) := by
  have bound := Stage.processAll_ofRequest served passed
  exact ⟨isSome_find?_resolve_iff bound, find?_eq_none bound checked⟩

/-- The lead of a team is granted its own account where the caller is named, and no operation where the
organization is. -/
theorem lead_own_not_org :
    let own : Permission := ⟨"self:*:*", ownTemplate⟩
    let org : Permission := ⟨"org:*:*", orgTemplate⟩
    ∃ known, Stage.processAll default (.forTeamSettings "Bearer secret") Stage.placing
        (.start Route.teamSettings.operation, .ofLeadSession) = (.ok (), known) ∧
      Stage.placing ⊆ Stage.standard ∧ own.check = .ok () ∧ org.check = .ok () ∧
      (Grant.find? [own] ⟨"self:profile:get", by decide⟩
        (Grant.candidates ⟨"self:profile:get", by decide⟩ known.1.vars)).isSome = true ∧
      ∀ op, Grant.find? [org] op (Grant.candidates op known.1.vars) = none := by
  intro own org
  obtain ⟨known, passed, vars⟩ := lead_placed
  have ownForm : NamesCallerOnly ("self" ++ ":" ++ "user" ++ ":" ++ Variables.me) :=
    .caller (by decide) (by decide) (by decide) (by decide)
  have orgForm : ¬ NamesCallerOnly org.resource := fun form =>
    absurd (form.getLast?_eq (by decide)) (by decide)
  refine ⟨known, passed, Stage.placing_subset, by decide, by decide, ?_, fun op => ?_⟩
  · obtain ⟨same, _⟩ := stored_iff_resolved (p := own) Stage.placing_subset passed (by decide)
    rw [same ownForm, vars]
    decide
  · exact (stored_iff_resolved (p := org) Stage.placing_subset passed (by decide)).2 orgForm

end Gatehouse
