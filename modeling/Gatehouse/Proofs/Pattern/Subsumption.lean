import Gatehouse.Proofs.Grant

/-!
Patterns that match patterns.

A pattern that matches another one, read as a text, matches what the other matches. For operations this
always holds (`matchesOperation_trans`). For resources it holds of all patterns with at most one segment more
than the text (`matchesResource_trans`): a last `*` may match the end of a pattern, so that another segment
stands where a shorter text has nothing. Patterns that may be stored have no more than three segments, and
candidates have three; so a permission that subsumes another one grants what the other grants
(`permits_of_subsumes`), and may stand for it in any list (`isSome_find?_of_covered`).
-/

namespace Gatehouse

open Text

/-! ### Patterns -/

namespace Pattern

variable {p q c : String} {ps qs cs : List String}

theorem operationSegmentsMatch_trans (matching : operationSegmentsMatch ps qs = true)
    (matching' : operationSegmentsMatch qs cs = true) : operationSegmentsMatch ps cs = true := by
  induction ps generalizing qs cs with
  | nil =>
      match qs, cs with
      | [], [] => rfl
  | cons p ps ih =>
      match qs, cs with
      | q :: qs, c :: cs =>
          simp only [operationSegmentsMatch, Bool.and_eq_true, Bool.or_eq_true, decide_eq_true_eq]
            at matching matching' ⊢
          obtain ⟨first, later⟩ := matching
          obtain ⟨first', later'⟩ := matching'
          refine ⟨?_, ih later later'⟩
          rcases first with everything | rfl
          · exact Or.inl everything
          · exact first'

theorem matchesOperation_trans (matching : matchesOperation p q = true)
    (matching' : matchesOperation q c = true) : matchesOperation p c = true :=
  operationSegmentsMatch_trans matching matching'

/-- The first segment of a pattern that matches another one is the other's, or `*`. -/
theorem head_of_matchesOperation {pattern pattern' : String}
    (matching : matchesOperation pattern pattern' = true) :
    (split ':' pattern).head? = some wildcard ∨
      (split ':' pattern).head? = (split ':' pattern').head? := by
  unfold matchesOperation at matching
  generalize split ':' pattern = ps at matching ⊢
  generalize split ':' pattern' = cs at matching ⊢
  match ps, cs with
  | [], [] => exact Or.inr rfl
  | p :: ps, c :: cs =>
      simp only [operationSegmentsMatch, Bool.and_eq_true, Bool.or_eq_true, decide_eq_true_eq]
        at matching
      exact matching.1.imp (congrArg some) (congrArg some)

/-- A segment that ends in `.*` matches the texts that go on behind its stem. -/
theorem segmentMatches_iff_of_stem {stem : List Char} (found : stem? p = some stem) :
    segmentMatches p c = true ↔ stem <+: c.toList ∧ stem.length < c.toList.length := by
  have fixed : p ≠ wildcard := by
    rintro rfl
    cases found
  simp only [segmentMatches, fixed, decide_false, found, Bool.false_or, Bool.and_eq_true,
    List.isPrefixOf_iff_prefix, decide_eq_true_eq]

theorem segmentMatches_wildcard (c : String) : segmentMatches wildcard c = true := by
  simp [segmentMatches]

theorem segmentMatches_trans (matching : segmentMatches p q = true)
    (matching' : segmentMatches q c = true) : segmentMatches p c = true := by
  by_cases everything : p = wildcard
  · rw [everything]
    exact segmentMatches_wildcard c
  have fixed : q ≠ wildcard := by
    rintro rfl
    exact everything (segmentMatches_star_iff.mp matching)
  cases found : stem? p with
  | none =>
      obtain rfl : p = q := by simpa [segmentMatches, everything, found] using matching
      exact matching'
  | some stem =>
      rw [segmentMatches_iff_of_stem found] at matching ⊢
      cases found' : stem? q with
      | none =>
          obtain rfl : q = c := by simpa [segmentMatches, fixed, found'] using matching'
          exact matching
      | some stem' =>
          obtain ⟨begins', longer'⟩ := (segmentMatches_iff_of_stem found').mp matching'
          obtain ⟨begins, longer⟩ := matching
          rw [stem?_eq_some found'] at begins longer
          -- What goes on behind the stem has a stem at least as long.
          have within : stem <+: stem' := by
            refine (List.prefix_concat_iff.mp begins).resolve_left fun whole => ?_
            rw [whole] at longer
            exact lt_irrefl _ longer
          exact ⟨within.trans begins', within.length_le.trans_lt longer'⟩

/-- A row of segments matches another one: a last `*` the rest, whatever it is, and other segments one
each. -/
inductive RowMatches : List String → List String → Prop where
  | everything {cs : List String} : RowMatches [wildcard] cs
  | nil : RowMatches [] []
  | cons {p c : String} {ps cs : List String} (first : segmentMatches p c = true)
      (later : RowMatches ps cs) : RowMatches (p :: ps) (c :: cs)

theorem rowMatches_nil_iff : RowMatches ps [] ↔ ps = [] ∨ ps = [wildcard] := by
  constructor
  · intro row
    cases row with
    | everything => exact Or.inr rfl
    | nil => exact Or.inl rfl
  · rintro (rfl | rfl)
    · exact .nil
    · exact .everything

theorem rowMatches_cons_iff : RowMatches (p :: ps) (c :: cs) ↔
    p = wildcard ∧ ps = [] ∨ segmentMatches p c = true ∧ RowMatches ps cs := by
  constructor
  · intro row
    cases row with
    | everything => exact Or.inl ⟨rfl, rfl⟩
    | cons first later => exact Or.inr ⟨first, later⟩
  · rintro (⟨rfl, rfl⟩ | ⟨first, later⟩)
    · exact .everything
    · exact .cons first later

theorem resourceSegmentsMatch_iff_row : resourceSegmentsMatch ps cs = true ↔ RowMatches ps cs := by
  induction ps generalizing cs with
  | nil =>
      cases cs with
      | nil => exact iff_of_true rfl .nil
      | cons c cs => exact iff_of_false nofun nofun
  | cons p ps ih =>
      match cs with
      | [] =>
          rw [rowMatches_nil_iff]
          cases ps <;> simp [resourceSegmentsMatch]
      | [c] =>
          have matched : p = wildcard → segmentMatches p c = true := by
            rintro rfl
            exact segmentMatches_wildcard c
          rw [resourceSegmentsMatch_singleton, rowMatches_cons_iff, rowMatches_nil_iff]
          grind
      | c :: c' :: cs => rw [resourceSegmentsMatch_cons (List.cons_ne_nil _ _), rowMatches_cons_iff, ih]

/-- A row of which the last segment is not `*` matches rows of its own length only. -/
theorem RowMatches.length_eq (row : RowMatches ps cs) (last : ps.getLast? ≠ some wildcard) :
    ps.length = cs.length := by
  induction row with
  | everything => exact absurd rfl last
  | nil => rfl
  | @cons p c ps cs first later ih =>
      rw [List.length_cons, List.length_cons]
      cases ps with
      | nil =>
          cases later
          rfl
      | cons next ps => rw [ih (by rwa [List.getLast?_cons_cons] at last)]

/-- A resource pattern that matches what has another number of segments has `*` for its last one. -/
theorem length_eq_of_matchesResource (matching : matchesResource p c = true)
    (last : (split ':' p).getLast? ≠ some wildcard) : (split ':' p).length = (split ':' c).length :=
  (resourceSegmentsMatch_iff_row.mp matching).length_eq last

/-- The bound is passed on segment by segment. It is used where the second row ends in a `*` and the first one
has another `*` behind it. -/
theorem RowMatches.trans (row : RowMatches ps qs) (row' : RowMatches qs cs)
    (short : ps.length ≤ cs.length + 1) : RowMatches ps cs := by
  induction row generalizing cs with
  | everything => exact .everything
  | nil =>
      cases row'
      exact .nil
  | @cons p q ps qs first later ih =>
      cases row' with
      | everything =>
          obtain rfl := segmentMatches_star_iff.mp first
          rcases rowMatches_nil_iff.mp later with rfl | rfl
          · exact .everything
          · match cs with
            | [] => simp at short
            | c :: cs => exact .cons (segmentMatches_wildcard c) .everything
      | cons first' later' =>
          exact .cons (segmentMatches_trans first first') (ih later' (by simpa using short))

theorem matchesResource_trans (short : (split ':' p).length ≤ (split ':' c).length + 1)
    (matching : matchesResource p q = true) (matching' : matchesResource q c = true) :
    matchesResource p c = true := by
  have row := resourceSegmentsMatch_iff_row.mp matching
  have row' := resourceSegmentsMatch_iff_row.mp matching'
  exact resourceSegmentsMatch_iff_row.mpr (row.trans row' short)

/-- The bound on the segments is needed. -/
example : matchesResource "*:*:*" "*:*" = true ∧ matchesResource "*:*" "x" = true ∧
    matchesResource "*:*:*" "x" = false := by
  decide

end Pattern

/-! ### Permissions -/

namespace Permission

variable {p q : Permission} {ps ps' : List Permission} {before after : List Permission}

/-- The patterns of a permission match those of another one. -/
structure Subsumes (p q : Permission) : Prop where
  operation : Pattern.matchesOperation p.operation q.operation = true
  resource : Pattern.matchesResource p.resource q.resource = true

instance : Decidable (Subsumes p q) :=
  decidable_of_iff (Pattern.matchesOperation p.operation q.operation = true ∧
      Pattern.matchesResource p.resource q.resource = true)
    ⟨fun ⟨operation, resource⟩ => ⟨operation, resource⟩,
      fun ⟨operation, resource⟩ => ⟨operation, resource⟩⟩

/-- A permission may stand for another one: it is the same, or it may be stored and subsumes it. -/
def StandsFor (p q : Permission) : Prop := p = q ∨ p.check = .ok () ∧ p.Subsumes q

/-- For each of the permissions there is one that may stand for it. -/
def Covered (ps ps' : List Permission) : Prop := ∀ q ∈ ps, ∃ p ∈ ps', p.StandsFor q

theorem covered_of_subset (more : ps ⊆ ps') : Covered ps ps' :=
  fun q mem => ⟨q, more mem, Or.inl rfl⟩

theorem Covered.append {qs qs' : List Permission} (covered : Covered ps ps') (covered' : Covered qs qs') :
    Covered (ps ++ qs) (ps' ++ qs') := by
  intro q mem
  rcases List.mem_append.mp mem with mem | mem
  · obtain ⟨p, listed, stands⟩ := covered q mem
    exact ⟨p, List.mem_append_left _ listed, stands⟩
  · obtain ⟨p, listed, stands⟩ := covered' q mem
    exact ⟨p, List.mem_append_right _ listed, stands⟩

/-- One permission of a list is replaced. -/
theorem covered_replace (stands : p.StandsFor q) : Covered (before ++ q :: after) (before ++ p :: after) := by
  have rest : Covered after after := covered_of_subset (List.Subset.refl _)
  refine (covered_of_subset (List.Subset.refl _)).append fun r mem => ?_
  rcases List.mem_cons.mp mem with rfl | mem
  · exact ⟨p, List.mem_cons_self .., stands⟩
  · exact ⟨r, List.mem_cons_of_mem _ mem, Or.inl rfl⟩

end Permission

/-! ### Grants -/

namespace Grant

open Pattern

variable {op : Operation} {vars : Variables} {ps ps' : List Permission} {p q : Permission} {c : String}

/-- Candidates have three segments. -/
theorem length_of_mem_candidates (request : vars.OfRequest) (mem : c ∈ candidates op vars) :
    (split ':' c).length = 3 := by
  rcases mem_candidates request mem with ⟨place, whole, -, rfl⟩ | ⟨-, rfl | ⟨n, bound, rfl⟩⟩
  · have segments : split ':' (place ++ ":" ++ "*" ++ ":" ++ "*") = [place, "*", "*"] :=
      split_three whole (by decide) (by decide)
    exact congrArg List.length segments
  · decide
  · have noColon : ':' ∉ n.toList := (request.isValue bound).2.notMem (by decide)
    have segments : split ':' ("self" ++ ":" ++ "user" ++ ":" ++ n) = ["self", "user", n] :=
      split_three (by decide) (by decide) noColon
    exact congrArg List.length segments

/-- A permission that stands for another one grants what the other grants. -/
theorem permits_of_standsFor (request : vars.OfRequest) (stands : p.StandsFor q)
    (permitted : permits op (candidates op vars) q = true) : permits op (candidates op vars) p = true := by
  rcases stands with rfl | ⟨checked, subsumes⟩
  · exact permitted
  rw [permits_iff candidates_ne_nil] at permitted ⊢
  obtain ⟨operation, c, mem, resource⟩ := permitted
  refine ⟨matchesOperation_trans subsumes.operation operation, c, mem, ?_⟩
  have few := (checkResource_eq_ok_iff.mp (Permission.check_eq_ok_iff.mp checked).2).1
  have three := length_of_mem_candidates request mem
  exact matchesResource_trans (by omega) subsumes.resource resource

/-- What is granted on a list is granted on every list that covers it. -/
theorem isSome_find?_of_covered (request : vars.OfRequest) (covered : Permission.Covered ps ps')
    (granted : (find? ps op (candidates op vars)).isSome = true) :
    (find? ps' op (candidates op vars)).isSome = true := by
  obtain ⟨q, mem, permitted⟩ := List.find?_isSome.mp granted
  obtain ⟨p, listed, stands⟩ := covered q mem
  exact List.find?_isSome.mpr ⟨p, listed, permits_of_standsFor request stands permitted⟩

end Grant

end Gatehouse
