import Gatehouse.Proofs.Chain.Calls
import Gatehouse.Proofs.Route.Template
import Gatehouse.Proofs.Site.Refusals

/-!
Parameters that are read from paths.

Filling a template in and reading the path are inverse (`Route.fill_extract_inverse`), so a path that matches
the template of a route has a parameter for every placeholder. A chain looks for the parameter of an
organization or a team only where the template of its route has the placeholder, so that no request with the
parameters of its path is refused because one is missing (`Chain.ne_missingParameter`).
-/

namespace Gatehouse

variable {m : Moment} {s : Site} {request : Request} {route : Route} {name : String}

theorem Outage.covers_ne_missingParameter (o : Outage) (name : String) :
    o.Covers (· ≠ .missingParameter name) :=
  ⟨fun _ _ other => other name, fun _ _ => nofun⟩

/-- A path that matches has the parameters of its template. -/
theorem Route.find?_ne_none {path : String} {values : Table String String}
    (read : route.extract? path = some values) (named : name ∈ route.parameters) :
    values.find? name ≠ none := by
  have known := ((assigns_of_extract? read).named name).mpr named
  exact Option.isSome_iff_ne_none.mp known

namespace Stage

theorem numericParameter_ne_missingParameter {name' : String}
    (present : request.parameters.find? name ≠ none) :
    numericParameter request name ≠ .error (.missingParameter name') := by
  intro failed
  exact numericParameter_failsOnly (Outage.none.covers_ne_missingParameter name')
    (fun absent => absurd absent present) _ failed rfl

theorem mem_parameters_of_hasParameter (declared : route.hasParameter name = true) :
    name ∈ route.parameters := List.contains_iff_mem.mp declared

/-- A stage of a route does not miss a parameter of the template. -/
theorem ne_missingParameter_of_mem {stage : Stage Site} {known : Context × Site}
    (read : ∀ name ∈ route.parameters, request.parameters.find? name ≠ none)
    (mem : stage ∈ (Chain.build route .standard).stages) :
    (stage.process m request known).1 ≠ .error (.missingParameter name) := by
  intro refused
  have covers := m.outage.covers_ne_missingParameter name
  obtain ⟨ctx, s⟩ := known
  obtain ⟨known', processed⟩ : ∃ known', stage.process m request (ctx, s) =
    (.error (.missingParameter name), known') := ⟨_, Prod.ext refused rfl⟩
  rcases Chain.needed_of_mem_stages_build mem with
    rfl | ⟨⟨⟩⟩ | ⟨needsOrg, ⟨⟨⟩⟩⟩ | ⟨needsTeam, ⟨⟨⟩⟩⟩ | ⟨⟨⟩⟩ | ⟨⟨⟩⟩ | rfl
  · cases processed
  · exact authentication_refuses covers _ _ _ _ processed rfl
  · have present := read orgParameter (mem_parameters_of_hasParameter needsOrg)
    exact lookUpOrg_failsOnly covers (fun absent => absurd absent present) _
      (congrArg Prod.fst (ofLook_eq_iff.mp processed).1) rfl
  · have present := read teamParameter (mem_parameters_of_hasParameter needsTeam)
    exact lookUpTeam_failsOnly covers (fun absent => absurd absent present) (fun _ => nofun) _
      (congrArg Prod.fst (ofLook_eq_iff.mp processed).1) rfl
  · exact permission_refuses covers _ _ _ _ processed rfl
  · exact audit_refuses (E := (· ≠ .missingParameter name)) _ _ _ _ processed rfl
  · cases processed

end Stage

/-- A request that comes with the parameters of the template is never refused for the lack of one. -/
theorem Chain.ne_missingParameter
    (read : ∀ name ∈ route.parameters, request.parameters.find? name ≠ none) :
    ((build route .standard).run m request s).outcome ≠ .error (.missingParameter name) := by
  intro refused
  obtain ⟨known, processed⟩ := run_error_iff.mp refused
  obtain ⟨before, stage, after, between, parts, _, last⟩ := Stage.processAll_eq_error_iff.mp processed
  have mem : stage ∈ (build route .standard).stages := by
    rw [parts]
    exact List.mem_append_right _ (List.mem_cons_self ..)
  exact Stage.ne_missingParameter_of_mem read mem (congrArg Prod.fst last)

/-- **Filling templates in and reading paths are inverse.** Values for exactly the placeholders of a template,
none of them empty or with a slash, are read again from the path that they are filled in to give. What is read
from a path are values for exactly the placeholders, and if no two placeholders have one name, filling them in
gives the path again, but for slashes at its ends. So a request that comes with what is read from its path has
every parameter of the template, and the chain of its route never refuses it because one is missing. -/
theorem Route.fill_extract_inverse (r : Route) :
    (∀ values, r.Assigns values → r.extract? (r.fill values) = some values) ∧
    (∀ path values, r.extract? path = some values →
      (∀ name, values.contains name = true ↔ name ∈ r.parameters) ∧
      (r.parameters.Nodup →
        Text.trimOf (· = '/') (r.fill values).toList = Text.trimOf (· = '/') path.toList)) ∧
    ∀ path request, r.extract? path = some request.parameters →
      (∀ name ∈ r.parameters, Stage.numericParameter request name ≠ .error (.missingParameter name)) ∧
      ∀ m s name,
        ((Chain.build r .standard).run m request s).outcome ≠ .error (.missingParameter name) := by
  refine ⟨fun values => extract?_fill, ?_, ?_⟩
  · intro path values read
    exact ⟨(assigns_of_extract? read).named, fun once => trimOf_fill once read⟩
  · intro path request read
    have present : ∀ name ∈ r.parameters, request.parameters.find? name ≠ none := fun name =>
      find?_ne_none read
    exact ⟨fun name named => Stage.numericParameter_ne_missingParameter (present name named),
      fun m s name => Chain.ne_missingParameter present⟩

/-- The settings of the third team of an organization, with a slash too many at the end of the path. -/
theorem Route.fill_extract_teamSettings :
    let values : Table String String := .ofList [("org_id", "7"), ("team_id", "3")]
    let path := "/orgs/7/teams/3/settings/"
    teamSettings.Assigns values ∧ teamSettings.extract? (teamSettings.fill values) = some values ∧
      teamSettings.extract? path = some values ∧ teamSettings.parameters.Nodup ∧
      Text.trimOf (· = '/') (teamSettings.fill values).toList = Text.trimOf (· = '/') path.toList ∧
      ((Chain.build teamSettings .standard).run default (.forTeamSettings "Bearer secret")
        (.start .default .log 0)).outcome ≠ .error (.missingParameter orgParameter) := by
  intro values path
  obtain ⟨again, inverse, never⟩ := fill_extract_inverse teamSettings
  have read : teamSettings.extract? path = some values := by decide +kernel
  have once : teamSettings.parameters.Nodup := by decide
  have assigns : teamSettings.Assigns values := assigns_of_extract? read
  exact ⟨assigns, again values assigns, read, once, (inverse path values read).2 once,
    (never path (.forTeamSettings "Bearer secret") read).2 default _ orgParameter⟩

end Gatehouse
