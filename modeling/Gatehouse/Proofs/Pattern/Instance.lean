import Gatehouse.Proofs.Pattern
import Mathlib.Data.List.Forall2

/-!
A pattern matches exactly its instances.

An instance of a pattern is a text that is made from it by replacing its wildcards. What may stand for
a wildcard is said of texts that are put together from segments, and not of texts that are cut
(`OperationInstance`, `ResourceInstance`). The main statement is `matches_iff_instance`: both matchers
accept the instances and nothing else.
-/

namespace Gatehouse

namespace Pattern

open Gatehouse.Text

variable {p c pattern candidate : String} {ps cs : List String}

/-- Segments without colons that a pattern consists of. -/
structure Segments (ps : List String) (pattern : String) : Prop where
  nonempty : ps ≠ []
  whole : ∀ p ∈ ps, ':' ∉ p.toList
  joined : pattern = join ':' ps

theorem segments_split (pattern : String) : Segments (split ':' pattern) pattern :=
  ⟨split_ne_nil _ _, fun _ => notMem_of_mem_split, (join_split _ _).symm⟩

theorem Segments.split_eq (segments : Segments ps pattern) : split ':' pattern = ps := by
  rw [segments.joined, split_join segments.nonempty segments.whole]

/-! ### Operations -/

/-- What a segment of an operation pattern may become: `*` any text without a colon, and every other
segment only itself. -/
inductive OperationSegment : String → String → Prop where
  | any {c : String} (whole : ':' ∉ c.toList) : OperationSegment wildcard c
  | same {p : String} (fixed : p ≠ wildcard) : OperationSegment p p

/-- The texts that an operation pattern may become, segment by segment. -/
def OperationInstance (pattern candidate : String) : Prop :=
  ∃ ps cs, Segments ps pattern ∧ List.Forall₂ OperationSegment ps cs ∧ candidate = join ':' cs

theorem operationSegment_iff (whole : ':' ∉ c.toList) :
    OperationSegment p c ↔ p = wildcard ∨ p = c := by
  constructor
  · rintro (⟨_⟩ | ⟨_⟩)
    · exact Or.inl rfl
    · exact Or.inr rfl
  · rintro (rfl | rfl)
    · exact .any whole
    · by_cases everything : p = wildcard
      · subst everything
        exact .any whole
      · exact .same everything

theorem operationSegmentsMatch_iff (whole : ∀ c ∈ cs, ':' ∉ c.toList) :
    operationSegmentsMatch ps cs = true ↔ List.Forall₂ OperationSegment ps cs := by
  fun_induction operationSegmentsMatch ps cs with
  | case1 => simp
  | case2 p ps c cs ih =>
      have first := operationSegment_iff (p := p) (whole c (List.mem_cons_self ..))
      have later := ih fun c mem => whole c (List.mem_cons_of_mem _ mem)
      simp [first, later]
  | case3 ps cs notBoth notEither =>
      simp only [Bool.false_eq_true, false_iff]
      rintro (_ | _)
      · exact notBoth rfl rfl
      · exact notEither _ _ _ _ rfl rfl

/-- Segments without colons become segments without colons, as many of them. -/
theorem segments_of_forall₂ (segments : Segments ps pattern)
    (becomes : List.Forall₂ OperationSegment ps cs) : Segments cs (join ':' cs) := by
  refine ⟨?_, ?_, rfl⟩
  · rintro rfl
    cases becomes
    exact segments.nonempty rfl
  · have whole := segments.whole
    clear segments
    induction becomes with
    | nil => exact whole
    | cons first _ ih =>
        rw [List.forall_mem_cons] at whole ⊢
        refine ⟨?_, ih whole.2⟩
        cases first with
        | any whole => exact whole
        | same => exact whole.1

theorem matchesOperation_iff_instance :
    matchesOperation pattern candidate = true ↔ OperationInstance pattern candidate := by
  unfold matchesOperation
  constructor
  · intro matching
    exact ⟨_, _, segments_split pattern,
      (operationSegmentsMatch_iff fun _ => notMem_of_mem_split).mp matching, (join_split _ _).symm⟩
  · rintro ⟨ps, cs, segments, becomes, rfl⟩
    have segments' := segments_of_forall₂ segments becomes
    rw [segments.split_eq, segments'.split_eq]
    exact (operationSegmentsMatch_iff segments'.whole).mpr becomes

/-! ### Resources -/

/-- What a segment of a resource pattern may become that is not a last `*`: `*` any text without a
colon, and one that ends in `.*` goes on after the point, by one character at least and without a
colon. Every other segment becomes only itself. -/
inductive ResourceSegment : String → String → Prop where
  | any {c : String} (whole : ':' ∉ c.toList) : ResourceSegment wildcard c
  | below {stem tail : String} (further : tail ≠ "") (whole : ':' ∉ tail.toList) :
      ResourceSegment (stem ++ ".*") (stem ++ "." ++ tail)
  | same {p : String} (fixed : p ≠ wildcard) (ends : ∀ stem, p ≠ stem ++ ".*") : ResourceSegment p p

/-- What a row of segments may become: a last `*` any text, colons included, or nothing, and then the
colon in front of it goes too. -/
inductive ResourceRow : List String → String → Prop where
  | everything {c : String} : ResourceRow [wildcard] c
  | last {p c : String} (fixed : p ≠ wildcard) (becomes : ResourceSegment p c) : ResourceRow [p] c
  | dropped {p c : String} (becomes : ResourceSegment p c) : ResourceRow [p, wildcard] c
  | next {p c rest : String} {ps : List String} (becomes : ResourceSegment p c)
      (others : ResourceRow ps rest) : ResourceRow (p :: ps) (c ++ ":" ++ rest)

/-- The texts that a resource pattern may become. -/
def ResourceInstance (pattern candidate : String) : Prop :=
  ∃ ps, Segments ps pattern ∧ ResourceRow ps candidate

/-- A segment has a stem exactly if it ends in `.*`. -/
theorem stem?_eq_some_iff {stem : List Char} :
    stem? p = some stem ↔ ∃ s : String, p = s ++ ".*" ∧ stem = s.toList ++ ['.'] := by
  constructor
  · intro found
    have whole := stem?_eq_some found
    unfold stem? at found
    split at found
    · rename_i rest _
      obtain rfl := Option.some.inj found
      refine ⟨String.ofList rest.reverse, String.toList_inj.mp ?_, ?_⟩
      · simpa using whole
      · simp
    · cases found
  · rintro ⟨s, rfl, rfl⟩
    simp [stem?]

theorem resourceSegment_iff_eq (fixed : p ≠ wildcard) (ends : ∀ stem, p ≠ stem ++ ".*") :
    ResourceSegment p c ↔ p = c := by
  constructor
  · intro becomes
    cases becomes with
    | any => exact absurd rfl fixed
    | below => exact absurd rfl (ends _)
    | same => rfl
  · rintro rfl
    exact .same fixed ends

/-- A segment that ends in `.*` becomes the longer segments that begin with what stands before the
`*`. -/
theorem resourceSegment_below_iff {stem : String} (whole : ':' ∉ c.toList) :
    ResourceSegment (stem ++ ".*") c ↔
      stem.toList ++ ['.'] <+: c.toList ∧ (stem.toList ++ ['.']).length < c.toList.length := by
  constructor
  · intro becomes
    generalize pattern : stem ++ ".*" = p at becomes
    cases becomes with
    | any =>
        have letters := congrArg (·.toList.length) pattern
        simp [wildcard] at letters
    | @below stem' tail further _ =>
        obtain rfl : stem = stem' := (String.append_left_inj _).mp pattern
        have longer : tail.toList ≠ [] := by simpa using further
        simpa using List.length_pos_of_ne_nil longer
    | same _ ends => exact absurd pattern.symm (ends stem)
  · rintro ⟨⟨tail, letters⟩, longer⟩
    have further : String.ofList tail ≠ "" := by
      intro empty
      have : tail = [] := by simpa using congrArg String.toList empty
      rw [← letters, this] at longer
      simp at longer
    obtain rfl : c = stem ++ "." ++ String.ofList tail := by
      apply String.toList_inj.mp
      simp [← letters]
    refine .below further fun mem => whole ?_
    rw [String.toList_append]
    exact List.mem_append_right _ mem

theorem segmentMatches_iff (whole : ':' ∉ c.toList) :
    segmentMatches p c = true ↔ ResourceSegment p c := by
  by_cases everything : p = wildcard
  · subst everything
    simp [segmentMatches, ResourceSegment.any whole]
  cases found : stem? p with
  | none =>
      have ends : ∀ stem, p ≠ stem ++ ".*" := by
        intro stem same
        rw [stem?_eq_some_iff.mpr ⟨stem, same, rfl⟩] at found
        cases found
      simp [segmentMatches, everything, found, resourceSegment_iff_eq everything ends]
  | some stem =>
      obtain ⟨s, rfl, rfl⟩ := stem?_eq_some_iff.mp found
      simp only [segmentMatches, everything, found, decide_false, Bool.false_or, Bool.and_eq_true,
        decide_eq_true_eq, List.isPrefixOf_iff_prefix, resourceSegment_below_iff whole]

/-- A segment without a colon becomes one without a colon. -/
theorem ResourceSegment.whole (becomes : ResourceSegment p c) (whole : ':' ∉ p.toList) :
    ':' ∉ c.toList := by
  cases becomes with
  | any whole => exact whole
  | below _ whole' =>
      simp only [String.toList_append, List.mem_append, not_or] at whole ⊢
      exact ⟨⟨whole.1, by decide⟩, whole'⟩
  | same => exact whole

/-- What becomes of a row when the text has no colon. -/
theorem resourceRow_iff_of_notMem (whole : ':' ∉ c.toList) :
    ResourceRow (p :: ps) c ↔ (ps = [] ∨ ps = [wildcard]) ∧ ResourceSegment p c := by
  constructor
  · intro row
    cases row with
    | everything => exact ⟨Or.inl rfl, .any whole⟩
    | last _ becomes => exact ⟨Or.inl rfl, becomes⟩
    | dropped becomes => exact ⟨Or.inr rfl, becomes⟩
    | next => simp at whole
  · rintro ⟨rfl | rfl, becomes⟩
    · by_cases everything : p = wildcard
      · exact everything ▸ .everything
      · exact .last everything becomes
    · exact .dropped becomes

/-- What becomes of a row when the text has a colon. -/
theorem resourceRow_append_iff {rest : String} (whole : ':' ∉ p.toList) (whole' : ':' ∉ c.toList) :
    ResourceRow (p :: ps) (c ++ ":" ++ rest) ↔
      p = wildcard ∧ ps = [] ∨ ResourceSegment p c ∧ ResourceRow ps rest := by
  constructor
  · intro row
    generalize text : c ++ ":" ++ rest = t at row
    have colon : ':' ∈ t.toList := by simp [← text]
    cases row with
    | everything => exact Or.inl ⟨rfl, rfl⟩
    | last _ becomes => exact absurd colon (becomes.whole whole)
    | dropped becomes => exact absurd colon (becomes.whole whole)
    | next becomes others =>
        obtain ⟨rfl, rfl⟩ := append_inj whole' (becomes.whole whole) text
        exact Or.inr ⟨becomes, others⟩
  · rintro (⟨rfl, rfl⟩ | ⟨becomes, others⟩)
    · exact .everything
    · exact .next becomes others

/-- The last segment of a candidate is met by the last segment of the pattern, but for a `*`. -/
theorem resourceSegmentsMatch_singleton :
    resourceSegmentsMatch (p :: ps) [c] = true ↔
      (ps = [] ∨ ps = [wildcard]) ∧ segmentMatches p c = true := by
  have everything : p = wildcard → segmentMatches p c = true := by
    rintro rfl
    simp [segmentMatches]
  rcases ps with _ | ⟨q, _ | ⟨q', ps⟩⟩
  · simpa [resourceSegmentsMatch] using everything
  · simp [resourceSegmentsMatch, and_comm]
  · simp [resourceSegmentsMatch]

/-- Where more segments of a candidate follow, the pattern goes on too, or ends in a `*`. -/
theorem resourceSegmentsMatch_cons (further : cs ≠ []) :
    resourceSegmentsMatch (p :: ps) (c :: cs) = true ↔
      p = wildcard ∧ ps = [] ∨ segmentMatches p c = true ∧ resourceSegmentsMatch ps cs = true := by
  match ps, cs, further with
  | [], c' :: cs, _ => simp [resourceSegmentsMatch]
  | q :: ps, c' :: cs, _ => simp [resourceSegmentsMatch]

/-- The induction is on the segments of the pattern: each takes the text up to the next colon. -/
theorem resourceSegmentsMatch_iff (whole : ∀ p ∈ ps, ':' ∉ p.toList) :
    resourceSegmentsMatch ps (split ':' candidate) = true ↔ ResourceRow ps candidate := by
  induction ps generalizing candidate with
  | nil =>
      have some_segment := split_ne_nil ':' candidate
      simp only [resourceSegmentsMatch, List.isEmpty_iff, some_segment, false_iff]
      intro row
      cases row
  | cons p ps ih =>
      obtain ⟨first, later⟩ := List.forall_mem_cons.mp whole
      rcases notMem_or_eq_append ':' candidate with whole' | ⟨c, rest, whole', rfl⟩
      · rw [split_of_notMem whole', resourceSegmentsMatch_singleton, segmentMatches_iff whole',
          resourceRow_iff_of_notMem whole']
      · rw [split_append whole', resourceSegmentsMatch_cons (split_ne_nil _ _),
          segmentMatches_iff whole', ih later]
        exact (resourceRow_append_iff first whole').symm

theorem matchesResource_iff_instance :
    matchesResource pattern candidate = true ↔ ResourceInstance pattern candidate := by
  unfold matchesResource
  constructor
  · intro matching
    have segments := segments_split pattern
    exact ⟨_, segments, (resourceSegmentsMatch_iff segments.whole).mp matching⟩
  · rintro ⟨ps, segments, row⟩
    rw [segments.split_eq]
    exact (resourceSegmentsMatch_iff segments.whole).mpr row

/-! ### Both -/

/-- **A pattern matches its instances and nothing else**: an operation matches exactly if the segments
of the pattern become it one by one, a resource exactly if the row of its segments does. -/
theorem matches_iff_instance (pattern candidate : String) :
    (matchesOperation pattern candidate = true ↔ OperationInstance pattern candidate) ∧
      (matchesResource pattern candidate = true ↔ ResourceInstance pattern candidate) :=
  ⟨matchesOperation_iff_instance, matchesResource_iff_instance⟩

example : matchesResource "org.7:*" "org.7" = true ∧
    matchesResource "org.7.*:*" "org.7.:x" = false := by
  decide

end Pattern

end Gatehouse
