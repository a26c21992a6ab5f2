import Gatehouse.Proofs.Route.Registry
import Gatehouse.Proofs.Site.Admission

/-!
Why requests are refused.

The chain of a route refuses a request because the request is at fault or a store is down, and for no
other reason (`Chain.explains_of_refused`). The cache is never the reason: it takes every failure of its
backend for an entry that is missing. Nor is a team ever looked up before its organization: no
registry has a route with a team alone, and who is let pass to an organization is known in it.
-/

namespace Gatehouse

variable {m : Moment} {s : Site} {request : Request} {route : Route} {ctx : Context} {user : UserId}
  {E : Error → Prop}

/-- A property that every explained error has, but for missing parameters, of which nothing is said. -/
structure Outage.Covers (o : Outage) (E : Error → Prop) : Prop where
  rejection : ∀ err : Error, err.kind.isRejection = true → (∀ name, err ≠ .missingParameter name) → E err
  down : ∀ call, o.stores call = true → E (.storeDown call)

theorem Outage.covers_explains (o : Outage) : o.Covers o.Explains :=
  ⟨fun _ rejection _ => Or.inl rejection, fun _ => explains_storeDown⟩

/-! ### What the caller may do -/

section Caller

open Outcome

theorem RoleStore.entitlements_failsOnly {o : Outage} {roles : RoleStore} (covers : o.Covers E) :
    FailsOnly E (roles.entitlements o user) := by
  refine FailsOnly.map ?_
  refine (failsOnly_reach _ (covers.down _)).bind fun assigned _ => ?_
  split
  · exact failsOnly_ok _
  · exact (failsOnly_reach _ (covers.down _)).bind fun everyone _ => failsOnly_ok _

/-- No failure of the backend of a cache becomes an error. -/
theorem PermissionCache.load_failsOnly {c : PermissionCache} {roles : RoleStore}
    (covers : m.outage.Covers E) : FailsOnly E (c.load m roles user).1 := by
  unfold load
  split
  · exact failsOnly_ok _
  · split
    · rename_i err failed
      exact failsOnly_error (RoleStore.entitlements_failsOnly covers err failed)
    · exact failsOnly_ok _

theorem failsOnly_credential {α : Type} {o : Outage} (covers : o.Covers E) (fault : CredentialFault) :
    FailsOnly E (.error (.credential fault) : Except Error α) :=
  failsOnly_error (covers.rejection _ rfl nofun)

theorem Token.check_failsOnly {o : Outage} {token : Token} {now : Timestamp}
    {address : Option Address} (covers : o.Covers E) : FailsOnly E (token.check now address) := by
  unfold check
  split
  · exact failsOnly_credential covers _
  · exact failsOnly_credential covers _
  · split
    · exact failsOnly_ok _
    · exact failsOnly_credential covers _

theorem Sessions.verify_failsOnly {o : Outage} {sessions : Sessions} {token : String}
    (covers : o.Covers E) : FailsOnly E (sessions.verify token) := by
  unfold verify
  split
  · exact failsOnly_ok _
  · exact failsOnly_credential covers _

theorem Credential.resolve_failsOnly {credential : Credential} {sessions : Sessions}
    {tokens : TokenStore} {address : Option Address} (covers : m.outage.Covers E) :
    FailsOnly E (credential.resolve m sessions tokens address) := by
  cases credential with
  | session token =>
      refine (failsOnly_reach _ (covers.down _)).bind fun verified reached => ?_
      obtain ⟨_, rfl⟩ := Outage.reach_eq_ok.mp reached
      exact (Sessions.verify_failsOnly covers).bind fun user _ => failsOnly_ok _
  | personal secret =>
      refine (failsOnly_reach _ (covers.down _)).bind fun found _ => ?_
      split
      · exact failsOnly_credential covers _
      · exact (Token.check_failsOnly covers).bind fun _ _ => failsOnly_ok _

theorem Site.authenticate_failsOnly {header : Option String} {address : Option Address}
    (covers : m.outage.Covers E) : FailsOnly E (s.authenticate m header address).1 := by
  unfold authenticate
  split
  · exact failsOnly_credential covers _
  split
  · rename_i err failed
    exact failsOnly_error (Credential.resolve_failsOnly covers err failed)
  rename_i identity _
  have loaded : FailsOnly E (s.entitlements m identity.user).1 :=
    PermissionCache.load_failsOnly covers
  split
  · rename_i err _ failed
    exact failsOnly_error (loaded err (congrArg Prod.fst failed))
  · exact failsOnly_ok _

end Caller

/-! ### The caller's places -/

namespace Stage

open Outcome

theorem numericParameter_failsOnly {o : Outage} {name : String} (covers : o.Covers E)
    (missing : request.parameters.find? name = none → E (.missingParameter name)) :
    FailsOnly E (numericParameter request name) := by
  unfold numericParameter
  split
  · rename_i absent
    exact failsOnly_error (missing absent)
  · split
    · exact failsOnly_ok _
    · exact failsOnly_error (covers.rejection _ rfl nofun)

theorem noteCaller_failsOnly {found : Except Error Site.Caller} (failsOnly : FailsOnly E found) :
    FailsOnly E ((noteCaller found).run ctx).1 :=
  Attempt.failsOnly_lift_bind failsOnly fun _ _ => failsOnly_ok _

theorem lookUpOrg_failsOnly (covers : m.outage.Covers E)
    (missing : request.parameters.find? orgParameter = none → E (.missingParameter orgParameter)) :
    FailsOnly E ((lookUpOrg m s request).run ctx).1 := by
  refine Attempt.failsOnly_lift_bind (numericParameter_failsOnly covers missing) fun orgId _ => ?_
  rw [Attempt.run_get_bind]
  split
  · exact failsOnly_error (covers.rejection _ rfl nofun)
  refine Attempt.failsOnly_lift_bind (failsOnly_reach _ (covers.down _)) fun registered _ => ?_
  split
  · exact failsOnly_error (covers.rejection _ rfl nofun)
  refine Attempt.failsOnly_lift_bind (failsOnly_reach _ (covers.down _)) fun place _ => ?_
  split
  · exact failsOnly_error (covers.rejection _ rfl nofun)
  · exact failsOnly_ok _

/-- The order of the look-ups is to blame only when the caller is not known in an organization. -/
theorem lookUpTeam_failsOnly (covers : m.outage.Covers E)
    (missing : request.parameters.find? teamParameter = none → E (.missingParameter teamParameter))
    (early : ctx.org = none ∨ ctx.orgRole = none ∨ ctx.user = none → E .teamBeforeOrg) :
    FailsOnly E ((lookUpTeam m s request).run ctx).1 := by
  refine Attempt.failsOnly_lift_bind (numericParameter_failsOnly covers missing) fun teamId _ => ?_
  rw [Attempt.run_get_bind]
  split
  · refine Attempt.failsOnly_lift_bind (failsOnly_reach _ (covers.down _)) fun owner _ => ?_
    split
    · exact failsOnly_error (covers.rejection _ rfl nofun)
    refine Attempt.failsOnly_lift_bind (failsOnly_reach _ (covers.down _)) fun teamRole _ => ?_
    split
    · exact failsOnly_error (covers.rejection _ rfl nofun)
    · rw [noteTeam_run]
      exact failsOnly_ok _
  · rename_i unknown
    refine failsOnly_error (early ?_)
    cases org : ctx.org with
    | none => exact .inl rfl
    | some orgId =>
        cases place : ctx.orgRole with
        | none => exact .inr (.inl rfl)
        | some role =>
            cases caller : ctx.user with
            | none => exact .inr (.inr rfl)
            | some user => exact absurd caller (unknown orgId role user org place)

/-! ### The stages -/

theorem ofLook_refuses {name : String} {look : Moment → Site → Request → Attempt Context Unit}
    (failsOnly : ∀ request s ctx, FailsOnly E ((look m s request).run ctx).1) :
    (ofLook name look).Refuses m E := by
  rintro request ⟨ctx, s⟩ known err refused
  exact failsOnly request s ctx err (congrArg Prod.fst (ofLook_eq_iff.mp refused).1)

theorem authentication_refuses (covers : m.outage.Covers E) : authentication.Refuses m E := by
  rintro request ⟨ctx, s⟩ known' err refused
  exact noteCaller_failsOnly (Site.authenticate_failsOnly covers) err (congrArg Prod.fst refused)

theorem org_refuses : org.Refuses m m.outage.Explains :=
  ofLook_refuses fun _ _ _ => lookUpOrg_failsOnly m.outage.covers_explains fun _ => Or.inl rfl

theorem permission_refuses (covers : m.outage.Covers E) : permission.Refuses m E := by
  refine ofLook_refuses fun _ _ ctx => ?_
  unfold lookForGrant
  rw [Attempt.run_get_bind]
  split
  · exact failsOnly_ok _
  · exact failsOnly_error (covers.rejection _ rfl nofun)

theorem audit_refuses : audit.Refuses m E := by
  rintro request known known' err refused
  cases refused

/-- Where a team is looked up, its organization has been. -/
theorem places_refuse (paired : route.needsTeam = true → route.needsOrg = true)
    {known known' : Context × Site} {err : Error}
    (refused : processAll m request ((if route.needsOrg then [org] else []) ++
      (if route.needsTeam then [team] else [])) known = (.error err, known')) :
    m.outage.Explains err := by
  rcases processAll_append_error.mp refused with first | ⟨between, first, second⟩
  · refine processAll_refuses (fun stage mem => ?_) first
    obtain rfl := eq_of_mem_wanted mem
    exact org_refuses
  · split at second
    · rename_i needsTeam
      rw [paired needsTeam, if_pos rfl, processAll_singleton_ok] at first
      obtain ⟨looked, _⟩ := ofLook_eq_iff.mp first
      obtain ⟨user, orgId, role, known, _, _, _, after⟩ := lookUpOrg_eq_ok_iff.mp looked
      have inOrg : between.1.org = some orgId := by rw [after]
      have place : between.1.orgRole = some role := by rw [after]
      have caller : between.1.user = some user := by rw [after, known]
      rw [processAll_singleton] at second
      refine lookUpTeam_failsOnly m.outage.covers_explains (fun _ => Or.inl rfl) (fun early => ?_) err
        (congrArg Prod.fst (ofLook_eq_iff.mp second).1)
      simp [inOrg, place, caller] at early
    · cases second

end Stage

/-! ### The whole chain -/

namespace Chain

/-- Whatever error a chain refuses a request with, the request is at fault, or a store that is down. -/
theorem explains_of_refused (paired : route.needsTeam = true → route.needsOrg = true) {err : Error}
    (refused : ((build route .standard).run m request s).outcome = .error err) :
    m.outage.Explains err := by
  obtain ⟨known, processed⟩ := run_error_iff.mp refused
  rw [stages_build] at processed
  rcases Stage.processAll_append_error.mp processed with caller | ⟨_, _, processed⟩
  · refine Stage.processAll_refuses (fun stage mem => ?_) caller
    rcases List.mem_cons.mp mem with rfl | mem
    · exact Stage.requestId_refuses
    · obtain rfl := Stage.eq_of_mem_wanted mem
      exact Stage.authentication_refuses m.outage.covers_explains
  rcases Stage.processAll_append_error.mp processed with places | ⟨_, _, processed⟩
  · exact Stage.places_refuse paired places
  · refine Stage.processAll_refuses (fun stage mem => ?_) processed
    rcases List.mem_append.mp mem with permission | mem
    · obtain rfl := Stage.eq_of_mem_wanted permission
      exact Stage.permission_refuses m.outage.covers_explains
    rcases List.mem_append.mp mem with audit | last
    · obtain rfl := Stage.eq_of_mem_wanted audit
      exact Stage.audit_refuses
    · obtain rfl := List.mem_singleton.mp last
      exact Stage.responseLog_refuses

end Chain

end Gatehouse
