import Gatehouse.Http.Endpoint
import Gatehouse.Proofs.Audit
import Gatehouse.Proofs.Site.Admission
import Gatehouse.Proofs.Site.Coherence
import Mathlib.Data.List.Forall2

/-!
Which requests are recorded.

The audit comes last: a request reaches it when the other stages of its chain have let it pass, and from
there on nothing refuses it. So a request is recorded, once, exactly when it passes on a route that is not
public and not only read, and its entry tells of it what is known in the end (`Chain.run_audit`). Nothing
else that is done with a service writes to its sink. Hence what the sink is given are the entries of these
requests in their order (`Site.play_audit`).
-/

namespace Gatehouse

variable {m : Moment} {s : Site} {request : Request} {route : Route} {ctx : Context}

/-- An entry tells of a request what is known of it in the end. -/
structure AuditEntry.Tells (m : Moment) (request : Request) (ctx : Context) (entry : AuditEntry) :
    Prop where
  requestId : entry.requestId = ctx.requestId
  operation : entry.operation = ctx.operation.text
  method : entry.method = request.method
  path : entry.path = request.path
  user : entry.user = ctx.user
  authKind : entry.authKind = ctx.authKind
  org : entry.org = ctx.org
  team : entry.team = ctx.team
  time : entry.time = m.now
  known : ctx.audit = some entry

/-- Requests to the route are recorded if they pass: it is not public, and they do not only read. -/
def Route.IsAudited (route : Route) : Prop := route.isPublic = false ∧ route.isReadOnly = false

instance (route : Route) : Decidable route.IsAudited := by
  unfold Route.IsAudited; infer_instance

/-! ### One request -/

namespace Chain

/-- The stages before the audit are those that find out who calls, where, and whether it is granted. -/
theorem exists_front (route : Route) : ∃ front,
    (build route .standard).stages =
      front ++ ((if route.IsAudited then [Stage.audit] else []) ++ [Stage.responseLog]) ∧
      front ⊆ [Stage.requestId, Stage.authentication, Stage.org, Stage.team, Stage.permission] := by
  refine ⟨(Stage.requestId :: if !route.isPublic then [Stage.authentication] else []) ++
      (((if route.needsOrg then [Stage.org] else []) ++
        (if route.needsTeam then [Stage.team] else [])) ++
          (if !route.isPublic then [Stage.permission] else [])), ?_, fun stage mem => ?_⟩
  · rw [stages_build]
    simp [Route.IsAudited, List.append_assoc]
  · simp only [List.mem_append, List.mem_cons] at mem
    rcases mem with (rfl | caller) | (org | team) | permission
    · simp
    · simp [Stage.eq_of_mem_wanted caller]
    · simp [Stage.eq_of_mem_wanted org]
    · simp [Stage.eq_of_mem_wanted team]
    · simp [Stage.eq_of_mem_wanted permission]

/-- None of the stages before the audit writes to the sink. -/
theorem exists_guards (route : Route) : ∃ guards,
    (build route .standard).stages =
      guards ++ ((if route.IsAudited then [Stage.audit] else []) ++ [Stage.responseLog]) ∧
      ∀ sink, ∀ stage ∈ guards, stage.Keeps fun s => s.audit = sink := by
  obtain ⟨front, stages, among⟩ := exists_front route
  refine ⟨front, stages, fun sink stage mem => ?_⟩
  have mem := among mem
  simp only [List.mem_cons, List.not_mem_nil, or_false] at mem
  rcases mem with rfl | rfl | rfl | rfl | rfl
  · exact Stage.requestId_keeps
  · exact Stage.authentication_keeps fun _ _ _ same => same
  · exact Stage.ofLook_keeps
  · exact Stage.ofLook_keeps
  · exact Stage.ofLook_keeps

/-- The audit lets everything pass, records the request if its route is audited, and is the last to have
a part in what is known. -/
theorem processAll_end (m : Moment) (request : Request) (route : Route) (known : Context × Site) :
    ∃ ctx s',
    Stage.processAll m request ((if route.IsAudited then [Stage.audit] else []) ++
      [Stage.responseLog]) known = (.ok (), ctx, s') ∧
      (route.IsAudited → ∃ entry : AuditEntry, entry.Tells m request ctx ∧
        s'.audit = known.2.audit.record entry) ∧
      (¬ route.IsAudited → s'.audit = known.2.audit) := by
  by_cases audited : route.IsAudited
  · rw [if_pos audited]
    refine ⟨_, _, rfl, fun _ => ⟨Stage.auditEntry m request known.1, ?_, rfl⟩, absurd audited⟩
    exact ⟨rfl, rfl, rfl, rfl, rfl, rfl, rfl, rfl, rfl, rfl⟩
  · rw [if_neg audited]
    exact ⟨known.1, known.2, rfl, fun is => absurd is audited, fun _ => rfl⟩

/-- What a chain gives its sink: of a request that passes on an audited route one entry that tells of it,
and nothing otherwise. -/
theorem run_audit (route : Route) (request : Request) (s : Site) :
    (((build route .standard).run m request s).outcome = .ok () ∧ route.IsAudited ∧
      ∃ entry : AuditEntry, entry.Tells m request ((build route .standard).run m request s).context ∧
        ((build route .standard).run m request s).state.audit = s.audit.record entry) ∨
    (((build route .standard).run m request s).outcome = .ok () → ¬ route.IsAudited) ∧
      ((build route .standard).run m request s).state.audit = s.audit := by
  obtain ⟨guards, stages, keeps⟩ := exists_guards route
  obtain ⟨outcome, known, processed⟩ : ∃ outcome known, Stage.processAll m request guards
      (.start route.operation, s) = (outcome, known) := ⟨_, _, rfl⟩
  have same : known.2.audit = s.audit := by
    have kept : (Stage.processAll m request guards (.start route.operation, s)).2.2.audit =
        s.audit := Stage.processAll_keeps (keeps s.audit) rfl
    rw [processed] at kept
    exact kept
  cases outcome with
  | error err =>
      have refused : Stage.processAll m request (build route .standard).stages
          (.start route.operation, s) = (.error err, known) := by
        rw [stages, Stage.processAll_append, processed]
      rw [run_of_silent (silent_standard route) refused]
      exact Or.inr ⟨nofun, same⟩
  | ok done =>
      obtain ⟨ctx, s', ended, records, leaves⟩ :=
        processAll_end m request route known
      have passed : Stage.processAll m request (build route .standard).stages
          (.start route.operation, s) = (.ok (), ctx, s') := by
        rw [stages, Stage.processAll_append, processed]
        exact ended
      rw [run_of_silent (silent_standard route) passed, ← same]
      by_cases audited : route.IsAudited
      · exact Or.inl ⟨rfl, audited, records audited⟩
      · exact Or.inr ⟨fun _ => audited, leaves audited⟩

end Chain

/-! ### Any number of requests -/

namespace Site

/-- Entries tell of requests: each entry of one request, in the same order. -/
def TellAll : List (Moment × Request × Context) → List AuditEntry → Prop :=
  List.Forall₂ fun visit entry => entry.Tells visit.1 visit.2.1 visit.2.2

theorem tellAll_singleton {entry : AuditEntry} (tells : entry.Tells m request ctx) :
    TellAll [(m, request, ctx)] [entry] :=
  .cons tells .nil

/-- A request to a route, with its moment and what is known of it in the end, if it passes and the route is
audited. -/
def auditedOf (m : Moment) (route : Route) (request : Request) :
    Except Error Context → List (Moment × Request × Context)
  | .ok ctx => if route.IsAudited then [(m, request, ctx)] else []
  | .error _ => []

theorem auditedOf_ok (isAudited : route.IsAudited) :
    auditedOf m route request (.ok ctx) = [(m, request, ctx)] := if_pos isAudited

theorem auditedOf_nil {result : Except Error Context}
    (unaudited : ∀ ctx, result = .ok ctx → ¬ route.IsAudited) :
    auditedOf m route request result = [] := by
  cases result with
  | error err => rfl
  | ok ctx => exact if_neg (unaudited ctx rfl)

/-- The request of a step that passes on an audited route. -/
def Step.audited (m : Moment) (s : Site) : Step → List (Moment × Request × Context)
  | .guard route request =>
    auditedOf m route request ((Chain.build route .standard).execute m request s).1
  | _ => []

/-- The requests of a sequence of steps that pass on audited routes, in their order. -/
def audited : List (Moment × Step) → Site → List (Moment × Request × Context)
  | [], _ => []
  | (m, step) :: rest, s => step.audited m s ++ audited rest (step.after m s)

theorem Step.after_guard :
    (guard route request).after m s = ((Chain.build route .standard).execute m request s).2 := rfl

theorem Step.audited_guard : (guard route request).audited m s =
    auditedOf m route request ((Chain.build route .standard).execute m request s).1 := rfl

theorem execute_audit (route : Route) (request : Request) : ∃ entries,
    TellAll (auditedOf m route request ((Chain.build route .standard).execute m request s).1)
      entries ∧
    ((Chain.build route .standard).execute m request s).2.audit =
      entries.foldl AuditSink.record s.audit := by
  rw [Chain.execute_state]
  rcases Chain.run_audit (m := m) route request s with
    ⟨passes, isAudited, entry, tells, recorded⟩ | ⟨unaudited, same⟩
  · rw [Chain.execute_eq_ok.mpr ⟨passes, rfl⟩, auditedOf_ok isAudited, recorded]
    exact ⟨[entry], tellAll_singleton tells, rfl⟩
  · rw [auditedOf_nil fun ctx done => unaudited (Chain.execute_eq_ok.mp done).1]
    exact ⟨[], .nil, same⟩

theorem Step.audit_after (step : Step) : ∃ entries, TellAll (step.audited m s) entries ∧
    (step.after m s).audit = entries.foldl AuditSink.record s.audit := by
  cases step with
  | administer call =>
      obtain ⟨_, _, _, after⟩ := administer_frame (m := m) (s := s) call.change
      refine ⟨[], .nil, ?_⟩
      simp only [Step.after, after]
      rfl
  | load user => exact ⟨[], .nil, rfl⟩
  | invalidate user => exact ⟨[], .nil, rfl⟩
  | guard route request =>
      rw [audited_guard, after_guard]
      exact execute_audit route request

/-- What the sink of a service is given are the entries of the requests that pass on audited routes. -/
theorem play_audit (steps : List (Moment × Step)) (s : Site) : ∃ entries,
    TellAll (audited steps s) entries ∧
      (play steps s).audit = entries.foldl AuditSink.record s.audit := by
  induction steps generalizing s with
  | nil => exact ⟨[], .nil, rfl⟩
  | cons first rest ih =>
      obtain ⟨m, step⟩ := first
      obtain ⟨entries, tell, after⟩ := step.audit_after (m := m) (s := s)
      obtain ⟨later, tellLater, afterLater⟩ := ih (step.after m s)
      refine ⟨entries ++ later, List.rel_append tell tellLater, ?_⟩
      rw [List.foldl_append, ← after]
      exact afterLater

/-- **Every request that may have changed something is recorded, and what a queue loses is known.**
Whatever happens to a service and whichever calls fail, its sink is given one entry of each request that
passes on a route, registered or not, that is not public and does not only read, in the order of the
requests and with what is known of them in the end, and no other. A queue records what it is given. Of what
is recorded, while the consumer receives and the queue may be closed at any time, the consumer receives a
part, each entry once and in order. What it has received and what waits are the entries that are not lost,
and an entry is lost only if it is recorded while unread entries fill the queue, or once the queue is
closed. Each time that the consumer receives, it is given the oldest entry that waits, and so gets nothing
only if nothing waits; in no other turn is it given anything. -/
theorem audit_complete (steps : List (Moment × Step)) (s : Site) (buffer : Nat)
    (turns : List AuditQueue.Turn) :
    (∃ entries, TellAll (audited steps s) entries ∧
      (play steps s).audit = entries.foldl AuditSink.record s.audit ∧
      ∀ q, s.audit = .queue q → (play steps s).audit =
        .queue (AuditQueue.play (entries.map AuditQueue.Turn.record) q).2) ∧
    (AuditQueue.play turns (.ofBuffer buffer)).1.Sublist (AuditQueue.recorded turns) ∧
    (AuditQueue.play turns (.ofBuffer buffer)).1 ++
        (AuditQueue.play turns (.ofBuffer buffer)).2.waiting = AuditQueue.kept buffer [] turns ∧
    (∀ past e rest, turns = past ++ .record e :: rest →
      e ∈ (AuditQueue.play turns (.ofBuffer buffer)).1 ∨
        e ∈ (AuditQueue.play turns (.ofBuffer buffer)).2.waiting ∨
          AuditQueue.Loses buffer past) ∧
    ∀ past turn rest, turns = past ++ turn :: rest →
      (AuditQueue.play (past ++ [turn]) (.ofBuffer buffer)).1 =
        (AuditQueue.play past (.ofBuffer buffer)).1 ++
          if turn = .receive then (AuditQueue.unread buffer past).take 1 else [] := by
  obtain ⟨entries, tell, given⟩ := play_audit steps s
  refine ⟨⟨entries, tell, given, fun q queue => ?_⟩,
    AuditQueue.received_sublist_recorded buffer turns,
    AuditQueue.received_append_waiting buffer turns, ?_,
    fun past turn _ _ => AuditQueue.received_snoc buffer past turn⟩
  · rw [given, queue]
    exact AuditSink.foldl_record_queue entries q
  · rintro past e rest rfl
    exact AuditQueue.received_or_waits_or_loses past e rest

/-- A service with an administrator, whose sink is the shortest queue. -/
def ofAdministrator : Site :=
  { start .default (.queue (.ofBuffer 0)) 0 with
    roles := ((RoleStore.assign 11 1).run .builtIn).2
    sessions := Sessions.empty.add "secret" 11 }

/-- The administrator changes a role and looks at an account, and somebody else tries to. -/
def visitsOfAdministrator : List (Moment × Step) :=
  let change (authorization : Option String) : Request :=
    ⟨"PUT", "/admin/roles/7/permissions", authorization, none, .empty, none⟩
  [(default, .guard Http.Endpoint.setPermissions.route (change none)),
    (default, .guard Http.Endpoint.setPermissions.route (change (some "Bearer secret"))),
    (default, .guard Http.Endpoint.profile.route
      ⟨"GET", "/profile", some "Bearer secret", none, .empty, none⟩)]

/-- Only the change is recorded. A second one would be lost while nobody receives the first. -/
theorem change_recorded : ∃ entry : AuditEntry, entry.operation = "sys:roles:update" ∧
    (play visitsOfAdministrator ofAdministrator).audit = .queue ⟨0, [entry], false⟩ ∧
      AuditQueue.Loses 0 [.record entry] ∧
        entry ∈ (AuditQueue.play [.record entry, .receive, .close] (.ofBuffer 0)).1 := by
  have operations : (audited visitsOfAdministrator ofAdministrator).map
      (·.2.2.operation.text) = ["sys:roles:update"] := by decide +kernel
  obtain ⟨⟨entries, tell, _, recorded⟩, _⟩ :=
    audit_complete visitsOfAdministrator ofAdministrator 0 []
  obtain ⟨visit, rest, single, operation, nomore⟩ := List.map_eq_cons_iff.mp operations
  obtain rfl := List.map_eq_nil_iff.mp nomore
  rw [single] at tell
  cases entries with
  | nil => cases tell
  | cons entry later =>
      obtain ⟨tells, nomore⟩ := List.forall₂_cons.mp tell
      cases nomore
      refine ⟨entry, tells.operation.trans operation, recorded (.ofBuffer 0) rfl, ?_, ?_⟩
      · exact Or.inr (Nat.le_refl 1)
      · exact List.mem_singleton_self entry

end Site

end Gatehouse
