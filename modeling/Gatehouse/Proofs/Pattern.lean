import Gatehouse.Operation
import Gatehouse.Pattern.Match
import Gatehouse.Proofs.Text.Split

/-!
What patterns match.

A pattern whose first segment is a scope matches only operations of this scope. A resource pattern
matches itself, read as a resource, and `*` matches every resource. A resource pattern whose first
segment is a name, or goes on below it, matches only resources whose first segment does so too
(`IsUnder.of_segmentMatches`).
-/

namespace Gatehouse

namespace Pattern

/-- What matches a pattern with a fixed first segment has the same first segment. -/
theorem head_of_operationSegmentsMatch {p : String} {ps cs : List String} (fixed : p ≠ wildcard)
    (matching : operationSegmentsMatch (p :: ps) cs = true) : cs.headD "" = p := by
  cases cs with
  | nil => cases matching
  | cons c cs =>
      simp only [operationSegmentsMatch, Bool.and_eq_true, Bool.or_eq_true, decide_eq_true_eq]
        at matching
      exact (matching.1.resolve_left fixed).symm

theorem scope_of_matchesOperation {pattern : String} {op : Operation} {scope : String}
    {rest : List String} (segments : Text.split ':' pattern = scope :: rest)
    (fixed : scope ≠ wildcard) (matching : matchesOperation pattern op.text = true) :
    op.scope = scope := by
  unfold matchesOperation at matching
  rw [segments] at matching
  exact head_of_operationSegmentsMatch fixed matching

/-! ### Resources -/

theorem matchesResource_wildcard (resource : String) :
    matchesResource wildcard resource = true := by
  have segments : Text.split ':' wildcard = [wildcard] := by decide
  unfold matchesResource
  rw [segments]
  simp [resourceSegmentsMatch]

theorem stem?_eq_some {segment : String} {stem : List Char} (found : stem? segment = some stem) :
    segment.toList = stem ++ ['*'] := by
  unfold stem? at found
  split at found
  · rename_i rest reversed
    have same := congrArg List.reverse reversed
    rw [List.reverse_reverse, List.reverse_cons] at same
    rw [same, Option.some.inj found]
  · cases found

theorem segmentMatches_self (segment : String) : segmentMatches segment segment = true := by
  unfold segmentMatches
  cases found : stem? segment with
  | none => simp
  | some stem => simp [stem?_eq_some found]

theorem resourceSegmentsMatch_self (ps : List String) : resourceSegmentsMatch ps ps = true := by
  induction ps with
  | nil => rfl
  | cons p ps ih =>
      cases ps with
      | nil => simp [resourceSegmentsMatch, segmentMatches_self]
      | cons q ps => simp only [resourceSegmentsMatch, segmentMatches_self, ih, Bool.true_and]

/-- A resource pattern matches itself. -/
theorem matchesResource_self (pattern : String) : matchesResource pattern pattern = true :=
  resourceSegmentsMatch_self _

/-! ### What lies under a name -/

/-- A segment is a name, or goes on with a point after it. -/
def IsUnder (name segment : String) : Prop :=
  segment = name ∨ name.toList ++ ['.'] <+: segment.toList

instance (name segment : String) : Decidable (IsUnder name segment) := by
  unfold IsUnder; infer_instance

/-- The parts of a name are the first parts of what lies under it. -/
theorem IsUnder.pieces_prefix {name segment : String} (under : IsUnder name segment) :
    Text.pieces '.' name.toList <+: Text.pieces '.' segment.toList := by
  rcases under with rfl | ⟨rest, same⟩
  · exact List.prefix_rfl
  · rw [← same, List.append_assoc, List.singleton_append, Text.pieces_append]
    exact List.prefix_append _ _

/-- What lies under a name without a `*` matches only what lies under it too: the stem of a segment
that ends in `.*` goes at least as far as the name. -/
theorem IsUnder.of_segmentMatches {name p c : String} (plain : '*' ∉ name.toList)
    (under : IsUnder name p) (matching : segmentMatches p c = true) : IsUnder name c := by
  have fixed : p ≠ wildcard := by
    rintro rfl
    rcases under with same | ⟨rest, same⟩
    · exact plain (same ▸ List.mem_singleton_self '*')
    · cases letters : name.toList <;> rw [letters] at same <;> simp [wildcard] at same
  unfold segmentMatches at matching
  rw [decide_eq_false fixed, Bool.false_or] at matching
  cases found : stem? p with
  | none =>
      rw [found] at matching
      exact of_decide_eq_true matching ▸ under
  | some stem =>
      rw [found] at matching
      have begins : stem <+: c.toList :=
        List.isPrefixOf_iff_prefix.mp (Bool.and_eq_true_iff.mp matching).1
      have whole := stem?_eq_some found
      rcases under with rfl | longer
      · rw [whole] at plain
        exact absurd (List.mem_append_right _ (List.mem_singleton_self _)) plain
      · rw [whole, List.prefix_concat_iff] at longer
        rcases longer with ends | within
        · have last := congrArg List.getLast? ends
          simp at last
        · exact Or.inr (within.trans begins)

example : IsUnder "org.7" "org.7.team.3" ∧ ¬ IsUnder "org.7" "org.77.*" := by decide

/-- The first segments of a resource pattern and of a resource that it matches, match. -/
theorem segmentMatches_of_matchesResource {pattern resource p c : String} {ps cs : List String}
    (patternSegments : Text.split ':' pattern = p :: ps)
    (segments : Text.split ':' resource = c :: cs)
    (matching : matchesResource pattern resource = true) : segmentMatches p c = true := by
  unfold matchesResource at matching
  rw [patternSegments, segments] at matching
  by_cases everything : p = wildcard
  · simp [segmentMatches, everything]
  cases ps with
  | nil =>
      cases cs with
      | nil => simpa [resourceSegmentsMatch, everything] using matching
      | cons next cs => simp [resourceSegmentsMatch, everything] at matching
  | cons next ps => exact (Bool.and_eq_true_iff.mp matching).1

end Pattern

end Gatehouse
