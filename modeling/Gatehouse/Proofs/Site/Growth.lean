import Gatehouse.Proofs.Pattern.Subsumption
import Gatehouse.Proofs.Role.Growth
import Gatehouse.Proofs.Site.Admission
import Gatehouse.Proofs.Site.Coherence
import Gatehouse.Proofs.Token.Scope

/-!
What is given to users takes nothing from them.

Permissions only allow. So whoever is admitted stays admitted when others that may stand for them take the
place of its permissions, as far as its scopes keep these (`Admits.of_covered`), and in particular when it is
entitled to more (`Admits.of_more`): a coherent cache tells so at once. A step that takes nothing away leaves
everyone entitled to no less (`Site.Step.Widens.entitled_subset`). Hence whatever passes a route passes it
after any such steps (`passes_after_widening`).
-/

namespace Gatehouse

variable {m m' : Moment} {s s' : Site} {request : Request} {route : Route} {identity : Identity}

/-! ### What more permissions admit -/

/-- What is given by permissions is given by others that cover them. -/
theorem Grant.Given.of_covered {ps ps' : List Permission} {op : Operation} {standing : Standing}
    {user : UserId} (given : Given ps op (standing.resources op user))
    (covered : Permission.Covered ps ps') : Given ps' op (standing.resources op user) := by
  rw [← isSome_find?_iff (standing.resources_ne_nil op user), ← Standing.candidates_vars] at given ⊢
  exact isSome_find?_of_covered Standing.ofRequest_vars covered given

/-- An identity keeps a permission of its user: the scopes of its token do, if it has one. -/
def Identity.Keeps (identity : Identity) (p : Permission) : Prop :=
  ∀ scopes, identity.scopes = some scopes → Scopes.Keeps scopes p

theorem Site.mem_permissionsOf_iff {e : Entitlements} {p : Permission}
    (checked : ∀ p ∈ e.permissions, p.check = .ok ()) :
    p ∈ permissionsOf identity e ↔ p ∈ e.permissions ∧ identity.Keeps p := by
  unfold permissionsOf Identity.Keeps
  cases identity.scopes with
  | none => simp
  | some scopes => simpa using Scopes.mem_restrict_iff_keeps checked

/-- Whoever is admitted stays admitted when what its identity keeps of its permissions is covered. -/
theorem Admits.of_covered (admits : Admits m s route request identity) (coherent : s.Coherent)
    (coherent' : s'.Coherent) (calm : m.outage = .none) (directory : s'.directory = s.directory)
    (covered : ∀ q ∈ (s.roles.entitled identity.user).permissions, identity.Keeps q →
      ∃ p ∈ (s'.roles.entitled identity.user).permissions, identity.Keeps p ∧ p.StandsFor q) :
    Admits m s' route request identity := by
  obtain ⟨standing, e, holds, load, given⟩ := admits
  rw [coherent.cache.load_eq coherent.seeded calm] at load
  obtain rfl := Except.ok.inj load
  have load' : (s'.cache.load m s'.roles identity.user).1 = .ok (s'.roles.entitled identity.user) :=
    coherent'.cache.load_eq coherent'.seeded calm
  refine ⟨standing, s'.roles.entitled identity.user, directory ▸ holds, load', given.of_covered ?_⟩
  -- What the standing lends is the same; what the credential leaves is covered.
  refine Permission.Covered.append (fun q mem => ?_) (Permission.covered_of_subset (List.Subset.refl _))
  obtain ⟨listed, kept⟩ :=
    (Site.mem_permissionsOf_iff fun p mem => coherent.seeded.check_of_mem_entitled mem).mp mem
  obtain ⟨p, listed', kept', stands⟩ := covered q listed kept
  exact ⟨p, (Site.mem_permissionsOf_iff fun p mem => coherent'.seeded.check_of_mem_entitled mem).mpr
    ⟨listed', kept'⟩, stands⟩

/-- Whoever is admitted stays admitted when it is entitled to more. -/
theorem Admits.of_more (admits : Admits m s route request identity) (coherent : s.Coherent)
    (coherent' : s'.Coherent) (calm : m.outage = .none) (directory : s'.directory = s.directory)
    (more : (s.roles.entitled identity.user).permissions ⊆
      (s'.roles.entitled identity.user).permissions) : Admits m s' route request identity :=
  admits.of_covered coherent coherent' calm directory fun q listed kept =>
    ⟨q, more listed, kept, Or.inl rfl⟩

/-! ### Steps that take nothing away -/

namespace Site

/-- A step takes nothing from the users of a service: if it changes roles, then by a call that only
gives. -/
def Step.Widens (s : Site) : Step → Prop
  | .administer call => call.Widens s.roles
  | _ => True

/-- None of the steps takes anything from the users of a service, as it is then. -/
def Widening (s : Site) : List (Moment × Step) → Prop
  | [] => True
  | (m, step) :: rest => step.Widens s ∧ (step.after m s).Widening rest

/-- A step leaves tokens, sessions and memberships alone, and the settings. -/
theorem Step.after_frame (step : Step) : ∃ roles cache deliveries audit,
    step.after m s = { s with roles, cache, deliveries, audit } := by
  cases step with
  | administer call =>
      obtain ⟨roles, cache, deliveries, after⟩ := administer_frame (m := m) (s := s) call.change
      exact ⟨roles, cache, deliveries, s.audit, after⟩
  | load user => exact ⟨s.roles, (s.entitlements m user).2.cache, s.deliveries, s.audit, rfl⟩
  | invalidate user => exact ⟨s.roles, s.cache.invalidate m user, s.deliveries, s.audit, rfl⟩
  | guard route request =>
      obtain ⟨cache, audit, after⟩ :=
        Chain.execute_standard_frame (m := m) (s := s) route request
      exact ⟨s.roles, cache, s.deliveries, audit, after⟩

/-- A step takes no identity away. -/
theorem Step.proves_after (step : Step) (proves : Proves m s request identity) :
    Proves m (step.after m' s) request identity := by
  obtain ⟨roles, cache, deliveries, audit, after⟩ := step.after_frame (m := m') (s := s)
  rw [after]
  cases proves with
  | session header known => exact .session header known
  | personal header stored valid => exact .personal header stored valid

/-- Steps take no identity away. -/
theorem proves_play {steps : List (Moment × Step)} (proves : Proves m s request identity) :
    Proves m (play steps s) request identity := by
  induction steps generalizing s with
  | nil => exact proves
  | cons first rest ih => exact ih (first.2.proves_after proves)

theorem Step.directory_after (step : Step) : (step.after m s).directory = s.directory := by
  obtain ⟨_, _, _, _, after⟩ := step.after_frame (m := m) (s := s)
  rw [after]

/-- A step that takes nothing away leaves every user entitled to all it was entitled to. -/
theorem Step.Widens.entitled_subset {step : Step} (widens : step.Widens s) (seeded : s.roles.Seeded)
    (user : UserId) : (s.roles.entitled user).permissions ⊆
      ((step.after m s).roles.entitled user).permissions := by
  cases step with
  | administer call =>
      have changed := administer_roles m s call
      simp only [Step.after]
      rcases changed with same | ⟨c, done, same⟩
      · rw [same]
        exact List.Subset.refl _
      · rw [same]
        exact seeded.entitled_subset widens done user
  | load user => exact List.Subset.refl _
  | invalidate user => exact List.Subset.refl _
  | guard route request =>
      obtain ⟨cache, audit, after⟩ :=
        Chain.execute_standard_frame (m := m) (s := s) route request
      simp only [Step.after, after]
      exact List.Subset.refl _

end Site

/-- What passes a route before a step that takes nothing away passes it afterwards. -/
theorem passes_after_step {step : Site.Step} (coherent : s.Coherent) (calm : m.outage = .none)
    (calm' : m'.outage = .none) (widens : step.Widens s)
    (passes : ((Chain.build route .standard).run m request s).outcome = .ok ()) :
    ((Chain.build route .standard).run m request (step.after m' s)).outcome = .ok () := by
  cases guarded : route.isPublic with
  -- A public route decides without looking at the service.
  | true => exact (passes_public_iff guarded).mpr ((passes_public_iff guarded).mp passes)
  | false =>
      have paired := paired_of_passes guarded passes
      obtain ⟨identity, proves, admits, _⟩ := admitted_of_passes guarded paired calm passes
      have admits' : Admits m (step.after m' s) route request identity :=
        admits.of_more coherent (coherent.after calm' step) calm step.directory_after
          (widens.entitled_subset coherent.seeded identity.user)
      exact passes_of_admitted guarded paired calm (step.proves_after proves) admits'

/-- **Giving takes nothing away.** What passes a route passes it too, at the same time, after any steps of
which none takes anything from the users: roles may be made and assigned, and the permissions of one
replaced by more. -/
theorem passes_after_widening {steps : List (Moment × Site.Step)} (coherent : s.Coherent)
    (calm : m.outage = .none) (calms : ∀ step ∈ steps, step.1.outage = .none)
    (widening : s.Widening steps)
    (passes : ((Chain.build route .standard).run m request s).outcome = .ok ()) :
    ((Chain.build route .standard).run m request (Site.play steps s)).outcome = .ok () := by
  induction steps generalizing s with
  | nil => exact passes
  | cons first rest ih =>
      obtain ⟨m', step⟩ := first
      obtain ⟨widens, widening⟩ := widening
      have calm' : m'.outage = .none := calms _ (List.mem_cons_self ..)
      exact ih (coherent.after calm' step) (fun step mem => calms step (List.mem_cons_of_mem _ mem))
        widening (passes_after_step coherent calm calm' widens passes)

/-! ### A role that is given more -/

/-- A service with the owner of an organization, who has a session. -/
def Site.ofOneOwner : Site :=
  { Site.start .default .log 0 with
    roles := .builtIn
    directory := Directory.ofOneTeam.addOrgMember 7 12 .owner
    sessions := Sessions.empty.add "secret" 12 }

/-- Whoever passes by a role passes too when the role is given one more permission, everyone's role is
assigned to the user, and the request has come before. -/
theorem owner_passes_after_more :
    let settings : Permission := ⟨"org:team:settings", "org.7.*:*:*"⟩
    let request : Request := .forTeamSettings "Bearer secret"
    let s := Site.play [(default, .administer (.createRole ⟨7, "owner", "Owner", false, [settings]⟩)),
      (default, .administer (.assignRole 12 7))] .ofOneOwner
    let steps : List (Moment × Site.Step) := [(default, .guard .teamSettings request),
      (default, .administer (.setPermissions 7 [.everywhere "sys:audit:*", settings])),
      (default, .administer (.assignRole 12 2))]
    s.Coherent ∧ s.Widening steps ∧
      ((Chain.build .teamSettings .standard).run default request s).outcome = .ok () ∧
      ((Chain.build .teamSettings .standard).run default request (Site.play steps s)).outcome =
        .ok () := by
  intro settings request s steps
  have coherent : s.Coherent := Site.coherent_builtIn.play
    (List.forall_mem_cons.mpr ⟨rfl, List.forall_mem_singleton.mpr rfl⟩)
  have guarded : (Site.Step.after default (.guard .teamSettings request) s).Coherent :=
    coherent.after rfl _
  have widens : (RoleCall.setPermissions 7 [.everywhere "sys:audit:*", settings]).Widens
      (Site.Step.after default (.guard .teamSettings request) s).roles := by
    refine guarded.seeded.widens_of_subset fun r found => ?_
    have stored : (Site.Step.after default (.guard .teamSettings request) s).roles.find? 7 =
        some ⟨7, "owner", "Owner", false, [settings]⟩ := by
      decide +kernel
    obtain rfl := Option.some.inj (stored.symm.trans found)
    exact List.subset_cons_self _ _
  have widening : s.Widening steps := ⟨trivial, widens, .assignRole 12 2, trivial⟩
  have calms : ∀ step ∈ steps, step.1.outage = .none :=
    List.forall_mem_cons.mpr ⟨rfl, List.forall_mem_cons.mpr ⟨rfl, List.forall_mem_singleton.mpr rfl⟩⟩
  have passes : ((Chain.build .teamSettings .standard).run default request s).outcome = .ok () := by
    decide +kernel
  exact ⟨coherent, widening, passes, passes_after_widening coherent rfl calms widening passes⟩

end Gatehouse
