import Gatehouse.Event.Bus
import Mathlib.Data.List.Basic

/-!
Which handlers a published event runs.

A pattern `Meets` the topics that it is written for: all, one, or those of a family. `Topic.covers` decides just
this (`covers_iff_meets`), so the places of the subscriptions that an event goes to can be told from the patterns
alone (`Topic.places`). Runs of handlers are counted by subscriptions that are `watched`: each does what it does
and writes down that it was run.

The main statement is `publishAll_exact`, about any subscriptions and any row of events: every event runs the
handlers whose pattern meets its topic, each once and in order, and no others, and their number is the answer.
What handlers report, failures too, is looked at by nobody.
-/

namespace Gatehouse

/-! ### Patterns of topics -/

namespace Topic

variable {pattern topic : String} {family cs : List Char}

/-- A pattern is written for a topic: it is `*`, or the topic itself, or a word with `.*` behind it where the
topic is the word, a point, and something more. -/
inductive Meets : String → String → Prop where
  | all (topic : String) : Meets "*" topic
  | one (topic : String) : Meets topic topic
  | family (word rest : String) (given : rest ≠ "") : Meets (word ++ ".*") (word ++ "." ++ rest)

theorem family?_eq_some_iff : family? pattern = some family ↔ pattern.toList = family ++ ['.', '*'] := by
  unfold family?
  split
  · rename_i rest reversed
    have letters : pattern.toList = rest.reverse ++ ['.', '*'] := by
      simpa using congrArg List.reverse reversed
    rw [letters, Option.some.injEq, List.append_cancel_right_eq]
  · rename_i other
    simp only [reduceCtorEq, false_iff]
    intro letters
    exact other family.reverse (by simp [letters])

theorem isWithin_iff : isWithin family cs = true ↔ ∃ rest, rest ≠ [] ∧ cs = family ++ '.' :: rest := by
  unfold isWithin
  rw [Bool.and_eq_true, List.isPrefixOf_iff_prefix]
  constructor
  · rintro ⟨⟨tail, rfl⟩, behind⟩
    rw [List.drop_left] at behind
    split at behind
    · rename_i rest
      exact ⟨rest, by simpa using behind, rfl⟩
    · cases behind
  · rintro ⟨rest, given, rfl⟩
    refine ⟨List.prefix_append .., ?_⟩
    rw [List.drop_left]
    simpa using given

/-- A pattern covers the topics it is written for. -/
theorem covers_iff_meets : covers pattern topic = true ↔ Meets pattern topic := by
  unfold covers
  rw [Bool.or_eq_true, decide_eq_true_eq]
  constructor
  · rintro (rfl | covered)
    · exact .all topic
    split at covered
    · rename_i family found
      obtain ⟨rest, given, letters⟩ := isWithin_iff.mp covered
      have pattern_eq : pattern = String.ofList family ++ ".*" :=
        String.toList_inj.mp (by simp [family?_eq_some_iff.mp found])
      have topic_eq : topic = String.ofList family ++ "." ++ String.ofList rest :=
        String.toList_inj.mp (by simp [letters])
      rw [pattern_eq, topic_eq]
      exact .family _ _ (by simpa using given)
    · obtain rfl := of_decide_eq_true covered
      exact .one pattern
  · intro meets
    cases meets with
    | all => exact Or.inl rfl
    | one =>
        refine Or.inr ?_
        split
        · rename_i family found
          -- A topic that looks like a family is in this family.
          exact isWithin_iff.mpr ⟨['*'], by simp, family?_eq_some_iff.mp found⟩
        · exact decide_eq_true rfl
    | family word rest given =>
        refine Or.inr ?_
        have found : family? (word ++ ".*") = some word.toList :=
          family?_eq_some_iff.mpr (String.toList_append ..)
        rw [found]
        exact isWithin_iff.mpr ⟨rest.toList, by simpa using given, by simp⟩

instance : Decidable (Meets pattern topic) := decidable_of_iff _ covers_iff_meets

/-- The places of the patterns that are written for a topic, in order. -/
def places (patterns : List String) (topic : String) : List Nat :=
  (patterns.zipIdx.filter fun (pattern, _) => Meets pattern topic).map Prod.snd

theorem mem_places_iff {patterns : List String} {place : Nat} :
    place ∈ places patterns topic ↔
      ∃ pattern, patterns[place]? = some pattern ∧ Meets pattern topic := by
  simp [places, List.mem_zipIdx_iff_getElem?, and_comm]

theorem pairwise_places (patterns : List String) (topic : String) :
    (places patterns topic).Pairwise (· < ·) := by
  have ascending : (patterns.zipIdx.map Prod.snd).Pairwise (· < ·) := by
    rw [List.zipIdx_map_snd]
    exact List.pairwise_lt_range'
  exact ascending.sublist (List.filter_sublist.map Prod.snd)

example : places ["*", "role.*", "user.deleted", "user.*", "user.*.*"] "user.deleted" = [0, 2, 3] := by decide

end Topic

/-! ### Runs of handlers -/

namespace Subscription

variable {σ : Type} {subscriptions : List (Subscription σ)} {e : Event} {events : List Event} {s : σ}

/-- Delivers events one after the other: the answer to each, and the state after all. -/
def publishAll (subscriptions : List (Subscription σ)) : List Event → σ → List Nat × σ
  | [], s => ([], s)
  | e :: rest, s =>
    let (n, s) := publish subscriptions e s
    let (ns, s) := publishAll subscriptions rest s
    (n :: ns, s)

/-- A run of the handler at a place of a list of subscriptions. -/
structure Run where
  place : Nat
  event : Event
  deriving Repr, DecidableEq

/-- The subscription, which writes down the runs of its handler. -/
def watched (place : Nat) (sub : Subscription σ) : Subscription (σ × List Run) where
  pattern := sub.pattern
  handle e := fun (s, runs) =>
    let (report, s) := sub.handle e s
    (report, s, runs ++ [⟨place, e⟩])

/-- The subscriptions, all of them watched. -/
def watchAll (subscriptions : List (Subscription σ)) : List (Subscription (σ × List Run)) :=
  subscriptions.zipIdx.map fun (sub, place) => sub.watched place

/-- The subscription, whose handler does what it does and reports something else. -/
def reporting (report : Event → σ → Except Error Unit) (sub : Subscription σ) : Subscription σ :=
  { sub with handle := fun e s => (report e s, (sub.handle e s).2) }

theorem publish_eq (subscriptions : List (Subscription σ)) (e : Event) (s : σ) :
    publish subscriptions e s = ((due subscriptions e).length, runAll e (due subscriptions e) s) := rfl

/-- Watched or not, handlers do the same, and each is written down. -/
theorem runAll_watched (placed : List (Subscription σ × Nat)) (s : σ) (runs : List Run) :
    runAll e (placed.map fun (sub, place) => sub.watched place) (s, runs) =
      (runAll e (placed.map Prod.fst) s, runs ++ placed.map fun (_, place) => ⟨place, e⟩) := by
  induction placed generalizing s runs with
  | nil => simp [runAll]
  | cons first rest ih =>
      obtain ⟨sub, place⟩ := first
      refine (ih (sub.handle e s).2 (runs ++ [⟨place, e⟩])).trans ?_
      rw [List.append_assoc]
      rfl

/-- The subscriptions an event goes to, with their places. -/
def duePlaced (subscriptions : List (Subscription σ)) (e : Event) : List (Subscription σ × Nat) :=
  subscriptions.zipIdx.filter fun (sub, _) => Topic.covers sub.pattern e.topic

theorem fst_duePlaced : (duePlaced subscriptions e).map Prod.fst = due subscriptions e := by
  have unplaced := List.filter_map (f := Prod.fst) (p := fun sub => Topic.covers sub.pattern e.topic)
    (l := subscriptions.zipIdx)
  rw [List.zipIdx_map_fst] at unplaced
  exact unplaced.symm

theorem due_watchAll : due (watchAll subscriptions) e =
    (duePlaced subscriptions e).map fun (sub, place) => sub.watched place := List.filter_map

theorem snd_duePlaced : (duePlaced subscriptions e).map Prod.snd =
    Topic.places (subscriptions.map (·.pattern)) e.topic := by
  rw [Topic.places, List.zipIdx_map, List.filter_map, List.map_map]
  have alike : ∀ placed ∈ subscriptions.zipIdx, Topic.covers placed.1.pattern e.topic =
      decide (Topic.Meets placed.1.pattern e.topic) := by
    intro placed _
    rw [Bool.eq_iff_iff, Topic.covers_iff_meets, decide_eq_true_iff]
  exact congrArg (List.map Prod.snd) (List.filter_congr alike)

/-- How many handlers an event runs is told by the patterns. -/
theorem length_due : (due subscriptions e).length =
    (Topic.places (subscriptions.map (·.pattern)) e.topic).length := by
  rw [← fst_duePlaced, ← snd_duePlaced, List.length_map, List.length_map]

/-- One event runs the handlers at the places whose patterns meet its topic. -/
theorem publish_watchAll (runs : List Run) : publish (watchAll subscriptions) e (s, runs) =
    ((Topic.places (subscriptions.map (·.pattern)) e.topic).length,
      (publish subscriptions e s).2,
      runs ++ (Topic.places (subscriptions.map (·.pattern)) e.topic).map (⟨·, e⟩)) := by
  rw [publish_eq, publish_eq, due_watchAll, runAll_watched, fst_duePlaced, ← snd_duePlaced,
    List.length_map, List.length_map, List.map_map]
  rfl

/-- So do several, one after the other. -/
theorem publishAll_watchAll (runs : List Run) : publishAll (watchAll subscriptions) events (s, runs) =
    (events.map fun e => (Topic.places (subscriptions.map (·.pattern)) e.topic).length,
      (publishAll subscriptions events s).2,
      runs ++ events.flatMap fun e =>
        (Topic.places (subscriptions.map (·.pattern)) e.topic).map (⟨·, e⟩)) := by
  induction events generalizing s runs with
  | nil => simp [publishAll]
  | cons e rest ih => simp only [publishAll, publish_watchAll, ih, List.map_cons, List.flatMap_cons,
      List.append_assoc]

theorem publishAll_fst : (publishAll subscriptions events s).1 =
    events.map fun e => (Topic.places (subscriptions.map (·.pattern)) e.topic).length := by
  induction events generalizing s with
  | nil => rfl
  | cons e rest ih => simp only [publishAll, publish_eq, length_due, ih, List.map_cons]

/-! ### What handlers report -/

/-- The same subscriptions, whose handlers report whatever they are told to. -/
def reportAll (reports : Nat → Event → σ → Except Error Unit) (subscriptions : List (Subscription σ)) :
    List (Subscription σ) :=
  subscriptions.zipIdx.map fun (sub, place) => sub.reporting (reports place)

variable {reports : Nat → Event → σ → Except Error Unit}

theorem runAll_reporting (placed : List (Subscription σ × Nat)) :
    runAll e (placed.map fun (sub, place) => sub.reporting (reports place)) s =
      runAll e (placed.map Prod.fst) s := by
  induction placed generalizing s with
  | nil => rfl
  | cons first rest ih => exact ih

theorem due_reportAll : due (reportAll reports subscriptions) e =
    (duePlaced subscriptions e).map fun (sub, place) => sub.reporting (reports place) := List.filter_map

/-- Nobody looks at what handlers report. -/
theorem publish_reportAll : publish (reportAll reports subscriptions) e s = publish subscriptions e s := by
  rw [publish_eq, publish_eq, due_reportAll, runAll_reporting, fst_duePlaced, List.length_map,
    ← fst_duePlaced, List.length_map]

theorem publishAll_reportAll :
    publishAll (reportAll reports subscriptions) events s = publishAll subscriptions events s := by
  induction events generalizing s with
  | nil => rfl
  | cons e rest ih => simp only [publishAll, publish_reportAll, ih]

theorem patterns_reportAll :
    (reportAll reports subscriptions).map (·.pattern) = subscriptions.map (·.pattern) := by
  have unplaced := congrArg (List.map (·.pattern)) (List.zipIdx_map_fst 0 subscriptions)
  rw [List.map_map] at unplaced
  rw [reportAll, List.map_map]
  exact unplaced

/-- **Delivery of events.** Let any subscriptions be given, and any row of events. Each event runs the handlers
at the places whose pattern meets its topic, each once and in order, and no others, and the answer is their
number. This is so whatever handlers do and whichever of them fail: if they did the same and reported something
else, the answers, the handlers that are run and the state in the end would be the same. -/
theorem publishAll_exact (subscriptions : List (Subscription σ)) (events : List Event) (s : σ) :
    let patterns := subscriptions.map (·.pattern)
    (∀ topic, (Topic.places patterns topic).Pairwise (· < ·) ∧
      ∀ place, place ∈ Topic.places patterns topic ↔
        ∃ pattern, patterns[place]? = some pattern ∧ Topic.Meets pattern topic) ∧
    (publishAll subscriptions events s).1 = (events.map fun e => (Topic.places patterns e.topic).length) ∧
    publishAll (watchAll subscriptions) events (s, []) =
      ((publishAll subscriptions events s).1, (publishAll subscriptions events s).2,
        events.flatMap fun e => (Topic.places patterns e.topic).map (⟨·, e⟩)) ∧
    ∀ reports, publishAll (watchAll (reportAll reports subscriptions)) events (s, []) =
      publishAll (watchAll subscriptions) events (s, []) := by
  intro patterns
  refine ⟨fun topic => ⟨Topic.pairwise_places .., fun place => Topic.mem_places_iff⟩, publishAll_fst, ?runs,
    fun reports => ?reports⟩
  case runs => rw [publishAll_watchAll, publishAll_fst, List.nil_append]
  case reports => rw [publishAll_watchAll, publishAll_watchAll, patterns_reportAll, publishAll_reportAll]

end Subscription

end Gatehouse
