import Gatehouse.Chain.Basic

/-!
What a chain keeps and which of its stages let a request pass.

A property of the state that every stage keeps is kept by the chain (`Chain.run_keeps`), whatever the
outcome. A request passes a chain when it passes its stages one after the other
(`Stage.processAll_cons_ok` and `Stage.processAll_append_ok`), and what all of them maintain of what is
known is known in the end (`Stage.processAll_maintains`). If every stage carries a relation from
one run over to another, a request that passes in the one passes in the other
(`Chain.execute_carries`); if every stage agrees in two runs, so do the chains (`Chain.run_agree`).
-/

namespace Gatehouse

variable {σ : Type} {P : σ → Prop} {m m' : Moment} {request request' : Request} {stage : Stage σ}
  {stages : List (Stage σ)} {known known' : Context × σ}
  {R : Context × σ → Context × σ → Prop}

namespace Stage

theorem eq_of_mem_wanted {stage' : Stage σ} {wanted : Bool}
    (mem : stage ∈ if wanted then [stage'] else []) : stage = stage' := by
  split at mem
  · exact List.mem_singleton.mp mem
  · cases mem

/-! ### What stages keep -/

/-- A stage keeps a property of the state, whether it lets a request pass or not. -/
structure Keeps (stage : Stage σ) (P : σ → Prop) : Prop where
  process : ∀ m request known, P known.2 → P (stage.process m request known).2.2
  complete : ∀ m request ctx outcome s, P s → P (stage.complete m request ctx outcome s)

theorem requestId_keeps : requestId.Keeps P := ⟨fun _ _ _ => id, fun _ _ _ _ _ => id⟩

theorem responseLog_keeps : responseLog.Keeps P := ⟨fun _ _ _ => id, fun _ _ _ _ _ => id⟩

theorem processAll_keeps (keeps : ∀ stage ∈ stages, stage.Keeps P) (holds : P known.2) :
    P (processAll m request stages known).2.2 := by
  induction stages generalizing known with
  | nil => exact holds
  | cons stage rest ih =>
      have first := (keeps stage (List.mem_cons_self ..)).process m request known holds
      unfold processAll
      split <;> rename_i passed <;> rw [passed] at first
      · exact ih (fun stage mem => keeps stage (List.mem_cons_of_mem _ mem)) first
      · exact first

theorem completeAll_keeps {ctx : Context} {outcome : Except Error Unit} {s : σ}
    (keeps : ∀ stage ∈ stages, stage.Keeps P) (holds : P s) :
    P (completeAll m request ctx outcome stages s) := by
  induction stages generalizing s with
  | nil => exact holds
  | cons stage rest ih =>
      have first := (keeps stage (List.mem_cons_self ..)).complete m request ctx outcome s holds
      exact ih (fun stage mem => keeps stage (List.mem_cons_of_mem _ mem)) first

/-- A stage does nothing once the outcome is known. -/
def Silent (stage : Stage σ) : Prop :=
  ∀ m request ctx outcome s, stage.complete m request ctx outcome s = s

theorem completeAll_of_silent {ctx : Context} {outcome : Except Error Unit} {s : σ}
    (silent : ∀ stage ∈ stages, stage.Silent) : completeAll m request ctx outcome stages s = s := by
  induction stages generalizing s with
  | nil => rfl
  | cons stage rest ih =>
      unfold completeAll
      rw [silent stage (List.mem_cons_self ..)]
      exact ih fun stage mem => silent stage (List.mem_cons_of_mem _ mem)

/-! ### Which requests stages let pass -/

theorem processAll_nil_ok : processAll m request [] known = (.ok (), known') ↔ known = known' := by
  simp [processAll]

/-- A request passes stages when it passes the first one and then the others. -/
theorem processAll_cons_ok :
    processAll m request (stage :: stages) known = (.ok (), known') ↔
      ∃ between, stage.process m request known = (.ok (), between) ∧
        processAll m request stages between = (.ok (), known') := by
  rw [processAll]
  constructor
  · intro passed
    split at passed
    · rename_i between first
      exact ⟨between, first, passed⟩
    · cases passed
  · rintro ⟨between, first, rest⟩
    rw [first]
    exact rest

theorem processAll_singleton :
    processAll m request [stage] known = stage.process m request known := by
  unfold processAll
  split <;> rename_i processed <;> exact processed.symm

theorem processAll_singleton_ok : processAll m request [stage] known = (.ok (), known') ↔
    stage.process m request known = (.ok (), known') := by
  rw [processAll_singleton]

/-- What stages do to a request, they do before later ones do what they do. -/
theorem processAll_append {more : List (Stage σ)} : processAll m request (stages ++ more) known =
    match processAll m request stages known with
    | (.ok (), between) => processAll m request more between
    | (.error err, between) => (.error err, between) := by
  induction stages generalizing known with
  | nil => rfl
  | cons stage stages ih =>
      simp only [List.cons_append, processAll]
      split
      · exact ih
      · rfl

theorem processAll_append_ok {more : List (Stage σ)} :
    processAll m request (stages ++ more) known = (.ok (), known') ↔
      ∃ between, processAll m request stages known = (.ok (), between) ∧
        processAll m request more between = (.ok (), known') := by
  rw [processAll_append]
  split
  · rename_i between passed
    simp [passed]
  · rename_i err between refused
    simp [refused]

/-- Stages that do the same to two requests, one by one, do the same to them together. -/
theorem processAll_congr
    (each : ∀ stage ∈ stages, stage.process m request' = stage.process m request) :
    processAll m request' stages known = processAll m request stages known := by
  induction stages generalizing known with
  | nil => rfl
  | cons stage rest ih =>
      obtain ⟨first, later⟩ := List.forall_mem_cons.mp each
      simp only [processAll, first, ih later]

/-! ### Which requests stages refuse -/

theorem processAll_append_error {more : List (Stage σ)} {err : Error} :
    processAll m request (stages ++ more) known = (.error err, known') ↔
      processAll m request stages known = (.error err, known') ∨
        ∃ between, processAll m request stages known = (.ok (), between) ∧
          processAll m request more between = (.error err, known') := by
  rw [processAll_append]
  split
  · rename_i between passed
    simp [passed]
  · rename_i err between refused
    simp [refused]

/-- A stage refuses requests with errors of one kind only. -/
def Refuses (stage : Stage σ) (m : Moment) (E : Error → Prop) : Prop :=
  ∀ request known known' err, stage.process m request known = (.error err, known') → E err

theorem requestId_refuses {E : Error → Prop} : (requestId : Stage σ).Refuses m E := by
  rintro request known known' err refused
  cases refused

theorem responseLog_refuses {E : Error → Prop} : (responseLog : Stage σ).Refuses m E := by
  rintro request known known' err refused
  cases refused

theorem processAll_refuses {E : Error → Prop} {err : Error}
    (each : ∀ stage ∈ stages, stage.Refuses m E)
    (refused : processAll m request stages known = (.error err, known')) : E err := by
  induction stages generalizing known with
  | nil => cases refused
  | cons stage rest ih =>
      unfold processAll at refused
      split at refused
      · exact ih (fun stage mem => each stage (List.mem_cons_of_mem _ mem)) refused
      · rename_i first
        cases refused
        exact each stage (List.mem_cons_self ..) request known known' err first

/-! ### What stages maintain -/

/-- A stage that lets a request pass maintains a property of what is known of it. -/
def Maintains (stage : Stage σ) (K : Context → Prop) : Prop :=
  ∀ m request known known', K known.1 → stage.process m request known = (.ok (), known') →
    K known'.1

theorem responseLog_maintains {K : Context → Prop} : (responseLog : Stage σ).Maintains K := by
  intro m request known known' holds passed
  cases passed
  exact holds

theorem processAll_maintains {K : Context → Prop} (maintains : ∀ stage ∈ stages, stage.Maintains K)
    (holds : K known.1) (passed : processAll m request stages known = (.ok (), known')) :
    K known'.1 := by
  induction stages generalizing known with
  | nil =>
      obtain rfl := processAll_nil_ok.mp passed
      exact holds
  | cons stage rest ih =>
      obtain ⟨between, first, passed⟩ := processAll_cons_ok.mp passed
      have after := maintains stage (List.mem_cons_self ..) m request known between holds first
      exact ih (fun stage mem => maintains stage (List.mem_cons_of_mem _ mem)) after passed

/-! ### Two runs -/

/-- A stage carries a relation from a run of one request over to a run of another: what it lets pass
in the first run, it lets pass in the second, and the runs stay related. -/
def Carries (stage : Stage σ) (m : Moment) (request request' : Request)
    (R : Context × σ → Context × σ → Prop) : Prop :=
  ∀ known known' after, R known known' → stage.process m request known = (.ok (), after) →
    ∃ after', stage.process m request' known' = (.ok (), after') ∧ R after after'

theorem processAll_carries {after : Context × σ}
    (carries : ∀ stage ∈ stages, stage.Carries m request request' R) (related : R known known')
    (passed : processAll m request stages known = (.ok (), after)) :
    ∃ after', processAll m request' stages known' = (.ok (), after') ∧ R after after' := by
  induction stages generalizing known known' with
  | nil =>
      obtain rfl := processAll_nil_ok.mp passed
      exact ⟨known', rfl, related⟩
  | cons stage rest ih =>
      obtain ⟨between, first, passed⟩ := processAll_cons_ok.mp passed
      obtain ⟨between', first', related⟩ :=
        carries stage (List.mem_cons_self ..) known known' between related first
      obtain ⟨after', passed', related⟩ :=
        ih (fun stage mem => carries stage (List.mem_cons_of_mem _ mem)) related passed
      exact ⟨after', processAll_cons_ok.mpr ⟨between', first', passed'⟩, related⟩

/-- Two ways to process a request agree: where two related runs go these ways, they have one outcome, and
they are related afterwards if the request is let pass. -/
def Agree (process process' : Context × σ → Except Error Unit × Context × σ)
    (R S : Context × σ → Context × σ → Prop) : Prop :=
  ∀ known known', R known known' → ∃ outcome after after', process known = (outcome, after) ∧
    process' known' = (outcome, after') ∧ (outcome = .ok () → S after after')

theorem processAll_cons_agree {S T : Context × σ → Context × σ → Prop}
    (first : Agree (stage.process m request) (stage.process m' request) R S)
    (rest : Agree (processAll m request stages) (processAll m' request stages) S T) :
    Agree (processAll m request (stage :: stages)) (processAll m' request (stage :: stages)) R T := by
  intro known known' related
  obtain ⟨outcome, between, between', here, there, related⟩ := first known known' related
  simp only [processAll, here, there]
  cases outcome with
  | error e => exact ⟨_, between, between', rfl, rfl, nofun⟩
  | ok done => exact rest between between' (related rfl)

theorem processAll_agree
    (each : ∀ stage ∈ stages, Agree (stage.process m request) (stage.process m' request) R R) :
    Agree (processAll m request stages) (processAll m' request stages) R R := by
  induction stages with
  | nil => exact fun known known' related => ⟨.ok (), known, known', rfl, rfl, fun _ => related⟩
  | cons stage rest ih =>
      exact processAll_cons_agree (each stage (List.mem_cons_self ..))
        (ih fun stage mem => each stage (List.mem_cons_of_mem _ mem))

end Stage

/-! ### Chains -/

/-- Every stage that is provided keeps a property of the state. -/
structure Concerns.Keep (concerns : Concerns σ) (P : σ → Prop) : Prop where
  authentication : ∀ stage ∈ concerns.authentication, stage.Keeps P
  org : ∀ stage ∈ concerns.org, stage.Keeps P
  team : ∀ stage ∈ concerns.team, stage.Keeps P
  permission : ∀ stage ∈ concerns.permission, stage.Keeps P
  audit : ∀ stage ∈ concerns.audit, stage.Keeps P

namespace Chain

variable {c : Chain σ} {route : Route} {concerns : Concerns σ} {s : σ}

theorem run_keeps (keeps : ∀ stage ∈ c.stages, stage.Keeps P) (holds : P s) :
    P (c.run m request s).state := by
  have processed : P (Stage.processAll m request c.stages (.start c.route.operation, s)).2.2 :=
    Stage.processAll_keeps keeps holds
  exact Stage.completeAll_keeps keeps processed

theorem execute_state : (c.execute m request s).2 = (c.run m request s).state := by
  unfold execute
  simp only
  split <;> rfl

/-- A request passes a chain when it passes the stages. -/
theorem run_ok_iff : (c.run m request s).outcome = .ok () ↔
    ∃ known, Stage.processAll m request c.stages (.start c.route.operation, s) =
      (.ok (), known) := by
  unfold run
  constructor
  · intro passed
    exact ⟨_, Prod.ext passed rfl⟩
  · rintro ⟨known, passed⟩
    rw [passed]

/-- A chain refuses a request when its stages do. -/
theorem run_error_iff {err : Error} : (c.run m request s).outcome = .error err ↔
    ∃ known, Stage.processAll m request c.stages (.start c.route.operation, s) =
      (.error err, known) := by
  unfold run
  constructor
  · intro refused
    exact ⟨_, Prod.ext refused rfl⟩
  · rintro ⟨known, refused⟩
    rw [refused]

theorem run_context {outcome : Except Error Unit}
    (processed : Stage.processAll m request c.stages (.start c.route.operation, s) =
      (outcome, known)) : (c.run m request s).context = known.1 := by
  unfold run
  rw [processed]

theorem execute_eq_ok {ctx : Context} : (c.execute m request s).1 = .ok ctx ↔
    (c.run m request s).outcome = .ok () ∧ (c.run m request s).context = ctx := by
  unfold execute
  cases outcome : (c.run m request s).outcome with
  | error e => simp [outcome]
  | ok done => simp [outcome]

theorem execute_ok_iff : (∃ ctx, (c.execute m request s).1 = .ok ctx) ↔
    (c.run m request s).outcome = .ok () := by
  simp only [execute_eq_ok, exists_and_left, exists_eq', and_true]

/-- A chain of silent stages leaves what they leave. -/
theorem run_of_silent {outcome : Except Error Unit} (silent : ∀ stage ∈ c.stages, stage.Silent)
    (processed : Stage.processAll m request c.stages (.start c.route.operation, s) =
      (outcome, known)) : c.run m request s = ⟨known.1, outcome, known.2⟩ := by
  unfold run
  rw [processed]
  simp only [Stage.completeAll_of_silent silent]

/-- A chain of silent stages that do the same to two requests does the same to both. -/
theorem run_congr (silent : ∀ stage ∈ c.stages, stage.Silent)
    (each : ∀ stage ∈ c.stages, stage.process m request' = stage.process m request) :
    c.run m request' s = c.run m request s := by
  unfold run
  simp only [Stage.processAll_congr each, Stage.completeAll_of_silent silent]

/-- What passes a chain in one run, passes it in another that its stages carry a relation over to. -/
theorem execute_carries {ctx : Context} {s' : σ}
    (carries : ∀ stage ∈ c.stages, stage.Carries m request request' R)
    (related : R (.start c.route.operation, s) (.start c.route.operation, s'))
    (passes : (c.execute m request s).1 = .ok ctx) :
    ∃ ctx' t t', (c.execute m request' s').1 = .ok ctx' ∧ R (ctx, t) (ctx', t') := by
  obtain ⟨passed, same⟩ := execute_eq_ok.mp passes
  obtain ⟨after, processed⟩ := run_ok_iff.mp passed
  obtain ⟨after', processed', related⟩ := Stage.processAll_carries carries related processed
  rw [run_context processed] at same
  subst same
  refine ⟨after'.1, after.2, after'.2, execute_eq_ok.mpr ⟨?_, run_context processed'⟩, related⟩
  exact run_ok_iff.mpr ⟨after', processed'⟩

/-- Two runs of a chain whose stages agree have one outcome, and if it is let pass, what is known is as the
stages leave it. -/
theorem run_agree {S : Context × σ → Context × σ → Prop} {K : Context → Context → Prop} {s' : σ}
    (agree : Stage.Agree (Stage.processAll m request c.stages) (Stage.processAll m' request c.stages)
      R S) (related : R (.start c.route.operation, s) (.start c.route.operation, s'))
    (ends : ∀ known known', S known known' → K known.1 known'.1) :
    (c.run m' request s').outcome = (c.run m request s).outcome ∧
      ((c.run m request s).outcome = .ok () →
        K (c.run m request s).context (c.run m' request s').context) := by
  obtain ⟨outcome, after, after', here, there, related⟩ := agree _ _ related
  unfold run
  rw [here, there]
  exact ⟨rfl, fun passed => ends after after' (related passed)⟩

theorem mem_wanted_iff {provided : Option (Stage σ)} {needed : Bool} :
    stage ∈ (if needed then provided.toList else []) ↔ needed = true ∧ stage ∈ provided := by
  cases needed <;> simp

theorem mem_of_mem_wanted {provided : Option (Stage σ)} {needed : Bool}
    (mem : stage ∈ if needed then provided.toList else []) : stage ∈ provided :=
  (mem_wanted_iff.mp mem).2

/-- A stage of a chain begins it, ends it or provides for a concern; for a place it provides only if the route
has one. -/
theorem needed_of_mem_stages_build (mem : stage ∈ (build route concerns).stages) :
    stage = .requestId ∨ stage ∈ concerns.authentication ∨
      route.needsOrg = true ∧ stage ∈ concerns.org ∨ route.needsTeam = true ∧ stage ∈ concerns.team ∨
      stage ∈ concerns.permission ∨ stage ∈ concerns.audit ∨ stage = .responseLog := by
  simp only [build, List.mem_cons, List.mem_append] at mem
  rcases mem with first | (((((caller | org) | team) | permission) | audit) | last)
  · exact .inl first
  · exact .inr (.inl (mem_of_mem_wanted caller))
  · exact .inr (.inr (.inl (mem_wanted_iff.mp org)))
  · exact .inr (.inr (.inr (.inl (mem_wanted_iff.mp team))))
  · exact .inr (.inr (.inr (.inr (.inl (mem_of_mem_wanted permission)))))
  · exact .inr (.inr (.inr (.inr (.inr (.inl (mem_of_mem_wanted audit))))))
  · exact .inr (.inr (.inr (.inr (.inr (.inr (last.resolve_right List.not_mem_nil))))))

theorem mem_stages_build (mem : stage ∈ (build route concerns).stages) :
    stage = .requestId ∨ stage ∈ concerns.authentication ∨ stage ∈ concerns.org ∨
      stage ∈ concerns.team ∨ stage ∈ concerns.permission ∨ stage ∈ concerns.audit ∨
      stage = .responseLog :=
  (needed_of_mem_stages_build mem).imp_right <| Or.imp_right <|
    Or.imp And.right <| Or.imp_left And.right

/-- The chain of a route that is not public looks for a permission: what comes before provides for the
caller and its places, what comes after only for the audit. -/
theorem exists_stages_build (guarded : route.isPublic = false)
    (sought : concerns.permission = some stage) :
    ∃ before after, (build route concerns).stages = before ++ stage :: after ∧
      (∀ earlier ∈ before, earlier = .requestId ∨ earlier ∈ concerns.authentication ∨
        earlier ∈ concerns.org ∨ earlier ∈ concerns.team) ∧
      ∀ later ∈ after, later ∈ concerns.audit ∨ later = .responseLog := by
  refine ⟨.requestId :: (concerns.authentication.toList ++
      (if route.needsOrg then concerns.org.toList else []) ++
        if route.needsTeam then concerns.team.toList else []),
    (if !route.isReadOnly then concerns.audit.toList else []) ++ [.responseLog], ?_, ?_, ?_⟩
  · unfold build
    simp [guarded, sought]
  · intro earlier mem
    simp only [List.mem_cons, List.mem_append] at mem
    rcases mem with first | ((caller | org) | team)
    · exact .inl first
    · exact .inr (.inl (Option.mem_toList.mp caller))
    · exact .inr (.inr (.inl (mem_of_mem_wanted org)))
    · exact .inr (.inr (.inr (mem_of_mem_wanted team)))
  · intro later mem
    rcases List.mem_append.mp mem with audit | last
    · exact .inl (mem_of_mem_wanted audit)
    · exact .inr (List.mem_singleton.mp last)

/-- Whatever becomes of a request, the chain of its route keeps what the concerns keep. -/
theorem run_build_keeps (keep : concerns.Keep P) (holds : P s) :
    P ((build route concerns).run m request s).state := by
  refine run_keeps (fun stage mem => ?_) holds
  rcases mem_stages_build mem with rfl | caller | org | team | permission | audit | rfl
  · exact Stage.requestId_keeps
  · exact keep.authentication stage caller
  · exact keep.org stage org
  · exact keep.team stage team
  · exact keep.permission stage permission
  · exact keep.audit stage audit
  · exact Stage.responseLog_keeps

theorem execute_build_keeps (keep : concerns.Keep P) (holds : P s) :
    P ((build route concerns).execute m request s).2 := by
  rw [execute_state]
  exact run_build_keeps keep holds

end Chain

end Gatehouse
