import Gatehouse.Proofs.Chain

/-!
Which stages of a chain are called, and with what.

A request takes a `Course` through stages: it passes all of them, or it passes some and is refused by the next.
Calls are counted by a chain that is `watched`: each stage does what it does and writes down that it was called.
Being watched changes nothing (`Chain.run_watched`), and what is written down in the end is that each stage on
the course was given the request, once and in order, no other was, and then every stage of the chain was told
the outcome. A stage that `RefusesCleanly` adds nothing to what is known when it refuses, so that what is known
in the end is what the stages before it left (`Chain.context_of_refused`).
-/

namespace Gatehouse

variable {σ : Type} {m : Moment} {request : Request} {ctx : Context} {s : σ} {stages : List (Stage σ)}
  {known known' : Context × σ} {outcome : Except Error Unit} {n : Nat}

namespace Stage

/-! ### The course of a request -/

/-- A request passes stages: each lets it pass, and finds what the one before has left. -/
inductive Passes (m : Moment) (request : Request) :
    List (Stage σ) → Context × σ → Context × σ → Prop where
  | none (known : Context × σ) : Passes m request [] known known
  | next {stage : Stage σ} {stages : List (Stage σ)} {known between known' : Context × σ} :
      stage.process m request known = (.ok (), between) → Passes m request stages between known' →
        Passes m request (stage :: stages) known known'

/-- The way of a request through stages: how many of them are given it, and how it ends. -/
inductive Course (m : Moment) (request : Request) (stages : List (Stage σ)) (known : Context × σ) :
    Nat → Except Error Unit → Context × σ → Prop where
  | passed {known' : Context × σ} : Passes m request stages known known' →
      Course m request stages known stages.length (.ok ()) known'
  | refused {before after : List (Stage σ)} {stage : Stage σ} {between known' : Context × σ}
      {err : Error} : stages = before ++ stage :: after → Passes m request before known between →
        stage.process m request between = (.error err, known') →
          Course m request stages known (before.length + 1) (.error err) known'

theorem processAll_eq_ok_iff :
    processAll m request stages known = (.ok (), known') ↔ Passes m request stages known known' := by
  constructor
  · intro passed
    induction stages generalizing known with
    | nil =>
        obtain rfl := processAll_nil_ok.mp passed
        exact .none known
    | cons stage rest ih =>
        obtain ⟨between, first, passed⟩ := processAll_cons_ok.mp passed
        exact .next first (ih passed)
  · intro passes
    induction passes with
    | none known => rfl
    | next first _ ih => exact processAll_cons_ok.mpr ⟨_, first, ih⟩

/-- A request is refused by the first stage that does not let it pass. -/
theorem processAll_eq_error_iff {err : Error} :
    processAll m request stages known = (.error err, known') ↔
      ∃ before stage after between, stages = before ++ stage :: after ∧
        Passes m request before known between ∧
          stage.process m request between = (.error err, known') := by
  constructor
  · intro refused
    induction stages generalizing known with
    | nil => cases refused
    | cons stage rest ih =>
        unfold processAll at refused
        split at refused
        · rename_i between first
          obtain ⟨before, last, after, found, rfl, passes, refused⟩ := ih refused
          exact ⟨stage :: before, last, after, found, rfl, .next first passes, refused⟩
        · rename_i first
          cases refused
          exact ⟨[], stage, rest, known, rfl, .none known, first⟩
  · rintro ⟨before, stage, after, between, rfl, passes, refused⟩
    refine processAll_append_error.mpr (Or.inr ⟨between, processAll_eq_ok_iff.mpr passes, ?_⟩)
    unfold processAll
    rw [refused]

/-- Every request takes a course, and it is the one that is run. -/
theorem course_processAll (m : Moment) (request : Request) (stages : List (Stage σ))
    (known : Context × σ) : ∃ n, Course m request stages known n
      (processAll m request stages known).1 (processAll m request stages known).2 := by
  obtain ⟨outcome, known', processed⟩ : ∃ outcome known',
    processAll m request stages known = (outcome, known') := ⟨_, _, rfl⟩
  rw [processed]
  cases outcome with
  | ok done => exact ⟨_, .passed (processAll_eq_ok_iff.mp processed)⟩
  | error err =>
      obtain ⟨before, stage, after, between, parts, passes, refused⟩ :=
        processAll_eq_error_iff.mp processed
      exact ⟨_, .refused parts passes refused⟩

/-! ### Calls of stages -/

/-- A call of the stage at a place of a chain. -/
inductive Call where
  /-- The stage is given the request. -/
  | process (place : Nat)
  /-- The stage is told what is known of the request in the end, and its outcome. -/
  | complete (place : Nat) (ctx : Context) (outcome : Except Error Unit)

/-- The stage, which writes down its calls. -/
def watched (place : Nat) (stage : Stage σ) : Stage (σ × List Call) where
  name := stage.name
  process m request := fun (ctx, s, calls) =>
    let (outcome, ctx, s) := stage.process m request (ctx, s)
    (outcome, ctx, s, calls ++ [.process place])
  complete m request ctx outcome := fun (s, calls) =>
    (stage.complete m request ctx outcome s, calls ++ [.complete place ctx outcome])

/-- The stages from a place on, which write down their calls. -/
def watchedFrom (place : Nat) : List (Stage σ) → List (Stage (σ × List Call))
  | [] => []
  | stage :: rest => stage.watched place :: watchedFrom (place + 1) rest

theorem watchedFrom_append (place : Nat) (before after : List (Stage σ)) :
    watchedFrom place (before ++ after) =
      watchedFrom place before ++ watchedFrom (place + before.length) after := by
  induction before generalizing place with
  | nil => rfl
  | cons stage rest ih =>
      have later := ih (place + 1)
      rw [Nat.add_assoc, Nat.add_comm 1] at later
      exact congrArg (stage.watched place :: ·) later

theorem process_watched {stage : Stage σ} (place : Nat) (calls : List Call)
    (processed : stage.process m request known = (outcome, known')) :
    (stage.watched place).process m request (known.1, known.2, calls) =
      (outcome, known'.1, known'.2, calls ++ [.process place]) := by
  obtain ⟨ctx, s⟩ := known
  simp only [watched, processed]

/-- Stages that let a request pass are given it in order, watched or not. -/
theorem Passes.watched (passes : Passes m request stages known known') (place : Nat)
    (calls : List Call) :
    Passes m request (watchedFrom place stages) (known.1, known.2, calls)
      (known'.1, known'.2, calls ++ (List.range' place stages.length).map .process) := by
  induction passes generalizing place calls with
  | none known =>
      rw [List.length_nil, List.range'_zero, List.map_nil, List.append_nil]
      exact .none _
  | next first _ ih =>
      have later := ih (place + 1) (calls ++ [.process place])
      rw [List.append_assoc] at later
      exact .next (process_watched place calls first) later

/-- The stages on the course of a request are given it in order, and no others. -/
theorem Course.processAll_watched (course : Course m request stages known n outcome known') :
    processAll m request (watchedFrom 0 stages) (known.1, known.2, []) =
      (outcome, known'.1, known'.2, (List.range n).map .process) := by
  cases course with
  | passed passes =>
      rw [List.range_eq_range']
      exact processAll_eq_ok_iff.mpr (passes.watched 0 [])
  | @refused before after stage between _ err parts passes refused =>
      subst parts
      refine processAll_eq_error_iff.mpr ⟨watchedFrom 0 before, stage.watched before.length,
        watchedFrom (before.length + 1) after, _, ?_, passes.watched 0 [], ?_⟩
      · rw [watchedFrom_append, Nat.zero_add]
        rfl
      · have last := process_watched before.length
          ([] ++ (List.range' 0 before.length).map .process) refused
        rw [List.nil_append, ← List.range_eq_range', ← List.map_singleton, ← List.map_append,
          ← List.range_succ] at last
        rw [List.nil_append, ← List.range_eq_range']
        exact last

/-- Every stage is told the outcome, in order. -/
theorem completeAll_watched (place : Nat) (calls : List Call) :
    completeAll m request ctx outcome (watchedFrom place stages) (s, calls) =
      (completeAll m request ctx outcome stages s,
        calls ++ (List.range' place stages.length).map fun place => .complete place ctx outcome) := by
  induction stages generalizing place calls s with
  | nil => simp [watchedFrom, completeAll]
  | cons stage rest ih =>
      refine (ih (place + 1) (calls ++ [.complete place ctx outcome])).trans ?_
      rw [List.append_assoc]
      rfl

/-! ### Refusals that leave no trace -/

/-- A stage that refuses a request adds nothing to what is known of it. -/
def RefusesCleanly (stage : Stage σ) : Prop :=
  ∀ m request known known' err, stage.process m request known = (.error err, known') →
    known'.1 = known.1

end Stage

namespace Chain

variable {c : Chain σ}

/-- The chain, whose stages write down their calls. -/
def watched (c : Chain σ) : Chain (σ × List Stage.Call) := ⟨c.route, Stage.watchedFrom 0 c.stages⟩

/-- **The calls of a chain.** Watched or not, a chain does the same. It gives the request to the stages on its
course, each once and in order, and to no others; then it tells every stage, once and in order, what is known
in the end and the outcome. -/
theorem run_watched (c : Chain σ) (m : Moment) (request : Request) (s : σ) :
    ∃ n t, Stage.Course m request c.stages (.start c.route.operation, s) n (c.run m request s).outcome
        ((c.run m request s).context, t) ∧
      c.watched.run m request (s, []) =
        ⟨(c.run m request s).context, (c.run m request s).outcome, (c.run m request s).state,
          (List.range n).map .process ++ (List.range c.stages.length).map fun place =>
            .complete place (c.run m request s).context (c.run m request s).outcome⟩ := by
  obtain ⟨n, course⟩ := Stage.course_processAll m request c.stages (.start c.route.operation, s)
  refine ⟨n, _, course, ?_⟩
  have processed := course.processAll_watched
  unfold watched run
  simp only [processed, Stage.completeAll_watched, List.range_eq_range']

/-- A request is let pass exactly when every stage lets it pass. -/
theorem run_ok_iff_passes : (c.run m request s).outcome = .ok () ↔
    ∃ known, Stage.Passes m request c.stages (.start c.route.operation, s) known := by
  simp only [run_ok_iff, Stage.processAll_eq_ok_iff]

/-- What is known of a refused request is what the stages before the first refusal have left. -/
theorem context_of_refused {err : Error} (clean : ∀ stage ∈ c.stages, stage.RefusesCleanly)
    (refused : (c.run m request s).outcome = .error err) :
    ∃ before stage after between, c.stages = before ++ stage :: after ∧
      Stage.Passes m request before (.start c.route.operation, s) between ∧
        (stage.process m request between).1 = .error err ∧
          (c.run m request s).context = between.1 := by
  obtain ⟨known, processed⟩ := run_error_iff.mp refused
  obtain ⟨before, stage, after, between, parts, passes, last⟩ :=
    Stage.processAll_eq_error_iff.mp processed
  have mem : stage ∈ c.stages := by
    rw [parts]
    exact List.mem_append_right _ (List.mem_cons_self ..)
  refine ⟨before, stage, after, between, parts, passes, congrArg Prod.fst last, ?_⟩
  exact (run_context processed).trans (clean stage mem m request between known err last)

end Chain

end Gatehouse
