import Gatehouse.Pattern.Check
import Gatehouse.Proofs.Text.Split

/-!
Which operation patterns may be stored.

An operation pattern is accepted exactly when it has three segments and each of them is `*` or a name
(`checkOperation_eq_ok_iff`). So its characters are those of names, colons and stars.
-/

namespace Gatehouse

namespace Pattern

open Text

variable {pattern segment : String} {c : Char}

theorem isNameChar_of_mem {cs : List Char} (name : isName cs = true) (mem : c ∈ cs) :
    isNameChar c = true :=
  List.all_eq_true.mp (Bool.and_eq_true_iff.mp name).2 c mem

/-- A segment of an operation pattern has no fault when it is `*` or a name. -/
theorem operationFault?_eq_none_iff :
    operationFault? pattern segment = none ↔ segment = wildcard ∨ isName segment.toList = true := by
  unfold operationFault?
  constructor
  · intro faultless
    split at faultless
    · rename_i same
      exact Or.inl same
    split at faultless
    · cases faultless
    split at faultless
    · cases faultless
    split at faultless
    · rename_i name
      exact Or.inr name
    · cases faultless
  · rintro (same | name)
    · rw [if_pos same]
    · have given : segment ≠ "" := by
        rintro rfl
        cases name
      have plain : ¬ segment.toList.contains '*' = true := by
        intro star
        have mem : '*' ∈ segment.toList := by simpa using star
        exact absurd (isNameChar_of_mem name mem) (by decide)
      rw [if_neg given, if_neg plain, if_pos name, ite_self]

/-- An operation pattern is accepted when it has three segments, each `*` or a name. -/
theorem checkOperation_eq_ok_iff : checkOperation pattern = .ok () ↔
    ∃ scope resource action, split ':' pattern = [scope, resource, action] ∧
      ∀ segment ∈ [scope, resource, action],
        segment = wildcard ∨ isName segment.toList = true := by
  have segments_empty : split ':' "" = [""] := by decide
  unfold checkOperation
  constructor
  · intro accepted
    split at accepted
    · cases accepted
    simp only at accepted
    split at accepted
    · cases accepted
    rename_i three
    split at accepted
    · cases accepted
    rename_i faultless
    obtain ⟨scope, resource, action, segments⟩ := List.length_eq_three.mp (not_not.mp three)
    refine ⟨scope, resource, action, segments, fun segment mem => ?_⟩
    rw [segments] at faultless
    exact operationFault?_eq_none_iff.mp (List.findSome?_eq_none_iff.mp faultless segment mem)
  · rintro ⟨scope, resource, action, segments, names⟩
    have given : pattern ≠ "" := by
      rintro rfl
      rw [segments_empty] at segments
      cases segments
    have faultless : [scope, resource, action].findSome? (operationFault? pattern) = none :=
      List.findSome?_eq_none_iff.mpr fun segment mem =>
        operationFault?_eq_none_iff.mpr (names segment mem)
    rw [if_neg given]
    simp only [segments, faultless, List.length_cons, List.length_nil, Nat.reduceAdd, ne_eq,
      not_true_eq_false, if_false]

/-- Other characters do not occur in an operation pattern that is accepted. -/
theorem notMem_of_checkOperation (accepted : checkOperation pattern = .ok ())
    (noName : isNameChar c = false) (noColon : c ≠ ':') (noStar : c ≠ '*') :
    c ∉ pattern.toList := by
  obtain ⟨scope, resource, action, segments, names⟩ := checkOperation_eq_ok_iff.mp accepted
  rw [notMem_iff_split noColon, segments]
  intro segment listed mem
  rcases names segment listed with rfl | name
  · exact noStar (List.mem_singleton.mp mem)
  · rw [isNameChar_of_mem name mem] at noName
    cases noName

end Pattern

end Gatehouse
