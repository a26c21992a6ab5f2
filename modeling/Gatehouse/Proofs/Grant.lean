import Gatehouse.Proofs.Variables.Stored

/-!
Which permissions grant operations that are not about an account or an organization.

Such an operation is tried on one resource only, of three stars, whatever is bound in the request
(`candidates_eq_universal`). Of the resource patterns that may be stored, that resource is matched just by
those that consist of stars (`matchesResource_universal_iff`). The main statement is
`granted_iff_everywhere`: a permission for fewer resources never grants such an operation, and a permission
for all of them always does when its operation pattern matches.
-/

namespace Gatehouse

open Text

namespace Pattern

variable {p pattern : String}

/-- The resource patterns of stars alone. -/
def everywhere : List String := ["*", "*:*", "*:*:*"]

/-- A star is matched by a star only. -/
theorem segmentMatches_star_iff : segmentMatches p "*" = true ↔ p = "*" := by
  constructor
  · intro matching
    by_cases everything : p = wildcard
    · exact everything
    · exact eq_of_segmentMatches matching everything (by decide)
  · rintro rfl
    exact segmentMatches_self _

/-- A pattern that may be stored matches the resource of three stars when all its segments are stars. -/
theorem matchesResource_universal_iff (checked : checkResource pattern = .ok ()) :
    matchesResource pattern Grant.universal = true ↔ pattern ∈ everywhere := by
  constructor
  · intro matching
    cases checkResource_iff_form.mp checked with
    | one => decide
    | @two first form =>
        have segments : split ':' (first ++ ":" ++ "*") = [first, "*"] :=
          split_append form.noColon "*"
        have star : segmentMatches first "*" = true :=
          segmentMatches_of_matchesResource segments rfl matching
        obtain rfl := segmentMatches_star_iff.mp star
        decide
    | @three first second third form form' form'' =>
        have universal : Grant.universal = "*" ++ ":" ++ "*" ++ ":" ++ "*" := by decide
        rw [universal, matchesResource_three form.noColon form'.noColon form''.noColon (by decide)
          (by decide) (by decide)] at matching
        simp only [Bool.and_eq_true, segmentMatches_star_iff] at matching
        obtain ⟨rfl, rfl, rfl⟩ := matching
        decide
  · intro stars
    have each : ∀ pattern ∈ everywhere, matchesResource pattern Grant.universal = true := by decide
    exact each pattern stars

end Pattern

theorem Operation.domain?_eq_some_iff {op : Operation} {d : Domain} :
    op.domain? = some d ↔ op.scope = d.name := by
  unfold domain?
  constructor
  · intro known
    have names : ∀ entry ∈ Domain.names, entry.1 = entry.2.name := by decide
    obtain ⟨_, _, listed, _⟩ := List.lookup_eq_some_iff.mp known
    exact names (op.scope, d) (listed ▸ by simp)
  · intro same
    rw [same, Domain.ofName?_name]

namespace Grant

open Pattern

variable {op : Operation} {vars : Variables} {ps : List Permission} {p : Permission}

/-- Outside of accounts and organizations there is one candidate. -/
theorem candidates_eq_universal (notOwn : op.scope ≠ Domain.own.name)
    (notOrg : op.scope ≠ Domain.org.name) : candidates op vars = [universal] := by
  unfold candidates
  split
  · rename_i own
    exact absurd (Operation.domain?_eq_some_iff.mp own) notOwn
  · rename_i org
    exact absurd (Operation.domain?_eq_some_iff.mp org) notOrg
  · rfl

/-- A permission for everything grants what its operation pattern matches. -/
theorem permits_of_everywhere (stars : p.resource ∈ everywhere)
    (matching : matchesOperation p.operation op.text = true) :
    permits op (candidates op vars) p = true := by
  have each : ∀ pattern ∈ everywhere, matchesResource pattern universal = true := by decide
  exact permits_eq_true_iff.mpr ⟨matching, Or.inr ⟨universal, List.mem_cons_self .., each _ stars⟩⟩

/-- A permission that may be stored grants such an operation only if it is for everything. -/
theorem everywhere_of_permits (checked : p.check = .ok ()) (notOwn : op.scope ≠ Domain.own.name)
    (notOrg : op.scope ≠ Domain.org.name) (permitted : permits op (candidates op vars) p = true) :
    p.resource ∈ everywhere := by
  rw [candidates_eq_universal notOwn notOrg] at permitted
  obtain ⟨_, everything | ⟨c, only, matching⟩⟩ := permits_eq_true_iff.mp permitted
  · rw [everything]
    decide
  · obtain rfl := List.mem_singleton.mp only
    exact (matchesResource_universal_iff (Permission.check_eq_ok_iff.mp checked).2).mp matching

/-- **Permissions for some resources only never grant an operation of the system.** Outside of accounts
and organizations, and whatever is bound in the request, what grants an operation is a permission for
everything; and every permission for everything grants, alone and in any list, the operations that its
operation pattern matches. -/
theorem granted_iff_everywhere (checked : ∀ p ∈ ps, p.check = .ok ()) (notOwn : op.scope ≠ "self")
    (notOrg : op.scope ≠ "org") (vars : Variables) :
    (∀ p, find? ps op (candidates op vars) = some p → p.resource ∈ ["*", "*:*", "*:*:*"]) ∧
      ∀ p, p.resource ∈ ["*", "*:*", "*:*:*"] → matchesOperation p.operation op.text = true →
        find? [p] op (candidates op vars) = some p ∧
          ∀ qs, p ∈ qs → (find? qs op (candidates op vars)).isSome = true := by
  refine ⟨fun p found => ?_, fun p stars matching => ?_⟩
  · exact everywhere_of_permits (checked p (List.mem_of_find?_eq_some found)) notOwn notOrg
      (List.find?_some found)
  · have permitted : permits op (candidates op vars) p = true :=
      permits_of_everywhere stars matching
    refine ⟨List.find?_cons_of_pos permitted, fun qs mem => ?_⟩
    exact List.find?_isSome.mpr ⟨p, mem, permitted⟩

theorem isOperation_usersList : isOperation "sys:users:list" = true := by decide

/-- The permission for one organization does not grant the list of all users, the other one does. -/
theorem usersList_granted_everywhere :
    let op : Operation := ⟨"sys:users:list", isOperation_usersList⟩
    let ps : List Permission := [⟨"sys:*:*", "org.7:*"⟩, ⟨"sys:users:*", "*:*"⟩]
    (∀ p ∈ ps, p.check = .ok ()) ∧ op.scope ≠ "self" ∧ op.scope ≠ "org" ∧
      find? [⟨"sys:*:*", "org.7:*"⟩] op (candidates op .empty) = none ∧
      ∃ p, find? ps op (candidates op .empty) = some p ∧ p.resource ∈ ["*", "*:*", "*:*:*"] ∧
        (find? (ps ++ ps) op (candidates op .empty)).isSome = true := by
  intro op ps
  have checked : ∀ p ∈ ps, p.check = .ok () := by decide
  have notOwn : op.scope ≠ "self" := by decide
  have notOrg : op.scope ≠ "org" := by decide
  have refused : find? [⟨"sys:*:*", "org.7:*"⟩] op (candidates op .empty) = none := by decide
  have found : find? ps op (candidates op .empty) = some ⟨"sys:users:*", "*:*"⟩ := by decide
  have matching : matchesOperation "sys:users:*" op.text = true := by decide
  obtain ⟨only, every⟩ := granted_iff_everywhere checked notOwn notOrg .empty
  have stars := only _ found
  exact ⟨checked, notOwn, notOrg, refused, _, found, stars,
    (every _ stars matching).2 (ps ++ ps) (by decide)⟩

end Grant

end Gatehouse
