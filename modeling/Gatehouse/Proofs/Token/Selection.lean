import Gatehouse.Grant
import Gatehouse.Proofs.Pattern.Grammar
import Gatehouse.Proofs.Token.Scope

/-!
Which permissions scopes select.

Scopes are read by the first segment of an operation pattern: scopes that restrict select the
permissions whose first segment is one of them, but not the one to do everything (`Selects`). The main
statement is `restrict_exact`: what is left is just the selected permissions, in their order and each
once, so that the order of the scopes does not matter, narrowing twice is narrowing once, scopes taken
together leave what each of them leaves, and an operation is granted exactly by a selected permission.
-/

namespace Gatehouse.Scopes

variable {scopes scopes' : List String} {ps : List Permission} {p : Permission}

/-- Some scopes, without the one that leaves everything. -/
def Restrictive (scopes : List String) : Prop := scopes ≠ [] ∧ TokenScope.full.name ∉ scopes

instance : Decidable (Restrictive scopes) :=
  inferInstanceAs (Decidable (scopes ≠ [] ∧ TokenScope.full.name ∉ scopes))

/-- The permission is not for every operation, and the first segment of its operation pattern is one
of the scopes. -/
def Selects (scopes : List String) (p : Permission) : Prop :=
  p.operation ≠ Permission.everyOperation ∧
    ∃ scope ∈ scopes, (Text.split ':' p.operation).head? = some scope

instance : Decidable (Selects scopes p) :=
  inferInstanceAs (Decidable (p.operation ≠ Permission.everyOperation ∧
    ∃ scope ∈ scopes, (Text.split ':' p.operation).head? = some scope))

/-! ### Scopes and first segments -/

theorem areFull_eq_false_iff : areFull scopes = false ↔ Restrictive scopes := by
  simp [areFull, Restrictive]

theorem areFull_eq_true_iff :
    areFull scopes = true ↔ scopes = [] ∨ TokenScope.full.name ∈ scopes := by
  simp [areFull]

/-- A pattern that may be stored begins with a word and a colon when the word is its first segment. -/
theorem prefix_iff_head? {scope operation : String} (whole : ':' ∉ scope.toList)
    (checked : Pattern.checkOperation operation = .ok ()) :
    scope.toList ++ [':'] <+: operation.toList ↔
      (Text.split ':' operation).head? = some scope := by
  constructor
  · intro begins
    obtain ⟨rest, segments⟩ :=
      Text.split_of_isPrefixOf whole (List.isPrefixOf_iff_prefix.mpr begins)
    rw [segments, List.head?_cons]
  -- Here the pattern must be one that may be stored: a lone segment has no colon behind it.
  · obtain ⟨first, second, third⟩ := Pattern.checkOperation_iff_form.mp checked
    have segments := Text.split_three first.noColon second.noColon third.noColon
    intro head
    obtain rfl := Option.some.inj ((congrArg List.head? segments).symm.trans head)
    simp

/-- The scopes cover a permission that may be stored, other than the one to do everything, when they
select it. -/
theorem covers_iff_selects (words : ∀ scope ∈ scopes, ':' ∉ scope.toList)
    (checked : p.check = .ok ()) : (!p.isSuperAdmin && cover scopes p) = true ↔ Selects scopes p := by
  have operation := (Permission.check_eq_ok_iff.mp checked).1
  rw [Bool.and_eq_true_iff, cover_iff, Selects, Permission.isSuperAdmin]
  refine and_congr (by simp) (exists_congr fun scope => and_congr_right fun listed => ?_)
  exact prefix_iff_head? (words scope listed) operation

/-! ### What is left -/

/-- Scopes that restrict leave the permissions that they select, each where it is first. -/
theorem restrict_of_restrictive (words : ∀ scope ∈ scopes, ':' ∉ scope.toList)
    (checked : ∀ p ∈ ps, p.check = .ok ()) (restrictive : Restrictive scopes) :
    restrict scopes ps = (ps.filter fun p => Selects scopes p).eraseDups := by
  have checkedKept : ∀ q ∈ ps.filter fun p => !p.isSuperAdmin && cover scopes p,
      q.check = .ok () := fun q mem => checked q (List.mem_filter.mp mem).1
  rw [restrict_of_narrow (areFull_eq_false_iff.mpr restrictive),
    Permission.withoutRepeats_eq_eraseDups checkedKept]
  refine congrArg List.eraseDups (List.filter_congr fun p mem => ?_)
  rw [Bool.eq_iff_iff, covers_iff_selects words (checked p mem), decide_eq_true_iff]

theorem mem_restrict_iff (words : ∀ scope ∈ scopes, ':' ∉ scope.toList)
    (checked : ∀ p ∈ ps, p.check = .ok ()) (restrictive : Restrictive scopes) :
    p ∈ restrict scopes ps ↔ p ∈ ps ∧ Selects scopes p := by
  rw [restrict_of_restrictive words checked restrictive, List.mem_eraseDups, List.mem_filter,
    decide_eq_true_iff]

/-- What is left once is left again. -/
theorem restrict_restrict (scopes : List String) (ps : List Permission) :
    restrict scopes (restrict scopes ps) = restrict scopes ps := by
  cases full : areFull scopes with
  | true => rw [restrict_of_full full]
  | false =>
      have kept : (restrict scopes ps).filter (fun p => !p.isSuperAdmin && cover scopes p) =
          restrict scopes ps := by
        refine List.filter_eq_self.mpr fun p mem => ?_
        obtain ⟨ordinary, covered⟩ := covered_of_mem_restrict full mem
        rw [ordinary, covered]
        rfl
      rw [restrict_of_narrow full, kept, restrict_of_narrow full,
        Permission.withoutRepeats_withoutRepeats]

/-- Only which scopes there are matters, not their order or how often they are there. -/
theorem restrict_congr (same : ∀ scope, scope ∈ scopes' ↔ scope ∈ scopes) :
    restrict scopes' ps = restrict scopes ps := by
  have full : areFull scopes' = areFull scopes := by
    rw [Bool.eq_iff_iff, areFull_eq_true_iff, areFull_eq_true_iff, same]
    simp only [List.eq_nil_iff_forall_not_mem, same]
  have covers : ∀ p, cover scopes' p = cover scopes p := by
    intro p
    rw [Bool.eq_iff_iff, cover_iff, cover_iff]
    simp only [same]
  simp only [restrict, full, covers]

theorem Restrictive.append (restrictive : Restrictive scopes) (restrictive' : Restrictive scopes') :
    Restrictive (scopes ++ scopes') :=
  ⟨List.append_ne_nil_of_left_ne_nil restrictive.1 _,
    fun mem => (List.mem_append.mp mem).elim restrictive.2 restrictive'.2⟩

theorem selects_append_iff :
    Selects (scopes ++ scopes') p ↔ Selects scopes p ∨ Selects scopes' p := by
  simp only [Selects, List.mem_append, or_and_right, exists_or, and_or_left]

/-- **Scopes select by first segments, and nothing else.** Scopes leave the permissions that may be
stored as they are, or, when they restrict, the first of each that they select. They do so whatever
their order and repetitions, they leave it again, and together with others they leave what they and the
others leave. An operation is granted on what is left just when a permission that they select grants
it. -/
theorem restrict_exact (words : ∀ scope ∈ scopes, ':' ∉ scope.toList)
    (checked : ∀ p ∈ ps, p.check = .ok ()) :
    restrict scopes ps =
        (if scopes = [] ∨ TokenScope.full.name ∈ scopes then ps
          else (ps.filter fun p => Selects scopes p).eraseDups) ∧
      restrict scopes (restrict scopes ps) = restrict scopes ps ∧
      (∀ scopes', (∀ scope, scope ∈ scopes' ↔ scope ∈ scopes) →
        restrict scopes' ps = restrict scopes ps) ∧
      (∀ scopes', (∀ scope ∈ scopes', ':' ∉ scope.toList) → Restrictive scopes →
        Restrictive scopes' → ∀ p, p ∈ restrict (scopes ++ scopes') ps ↔
          p ∈ restrict scopes ps ∨ p ∈ restrict scopes' ps) ∧
      (Restrictive scopes → ∀ op candidates,
        (Grant.find? (restrict scopes ps) op candidates).isSome = true ↔
          ∃ p ∈ ps, Selects scopes p ∧ Grant.permits op candidates p = true) := by
  refine ⟨?_, restrict_restrict scopes ps, fun _ => restrict_congr, ?_, ?_⟩
  · split
    · rename_i full
      exact restrict_of_full (areFull_eq_true_iff.mpr full)
    · rename_i restrictive
      exact restrict_of_restrictive words checked (not_or.mp restrictive)
  · intro scopes' words' restrictive restrictive' p
    have both : ∀ scope ∈ scopes ++ scopes', ':' ∉ scope.toList := fun scope mem =>
      (List.mem_append.mp mem).elim (words scope) (words' scope)
    rw [mem_restrict_iff both checked (restrictive.append restrictive'),
      mem_restrict_iff words checked restrictive, mem_restrict_iff words' checked restrictive',
      selects_append_iff, and_or_left]
  · intro restrictive op candidates
    rw [Grant.find?, List.find?_isSome]
    simp only [mem_restrict_iff words checked restrictive, and_assoc]

/-- Of three permissions, one of them listed twice and one for everything, the scope `self` leaves its
own, once; and it may do with it what the permission is for. -/
theorem restrict_self_once :
    let ps : List Permission := [⟨"self:*:*", "*"⟩, ⟨"*:*:*", "*"⟩, ⟨"self:*:*", "*"⟩, ⟨"sys:*:*", "*"⟩]
    (∀ p ∈ ps, p.check = .ok ()) ∧ restrict ["self"] ps = [⟨"self:*:*", "*"⟩] ∧
      (Grant.find? (restrict ["self"] ps) ⟨"self:profile:get", by decide⟩ []).isSome = true := by
  intro ps
  have checked : ∀ p ∈ ps, p.check = .ok () := by decide
  have words : ∀ scope ∈ ["self"], ':' ∉ scope.toList := by decide
  obtain ⟨exactly, _, _, _, granted⟩ := restrict_exact words checked
  refine ⟨checked, ?_, (granted (by decide) _ _).mpr ?_⟩
  · rw [exactly]
    decide
  · exact ⟨⟨"self:*:*", "*"⟩, by decide, by decide, by decide⟩

end Gatehouse.Scopes
