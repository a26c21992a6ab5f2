import Gatehouse.Proofs.Pattern
import Gatehouse.Proofs.Permission
import Gatehouse.Token.Scope

/-!
What the scopes of a token leave of its owner's permissions.

Scopes only take permissions away (`mem_of_mem_restrict`), leave of those that may be stored just the ones
that they keep (`mem_restrict_iff_keeps`), and when they narrow, leave only permissions for operations of
their own (`scope_mem_of_mem_restrict`). Some scopes are `NoWider` than others, for every owner, exactly when
the others are full, or when they themselves narrow and are among the others (`noWider_iff`); for the scopes
that a token is issued with, this can be read off the request (`noWider_normalize_iff`).
-/

namespace Gatehouse

/-! ### The names of scopes -/

namespace TokenScope

theorem name_of_parse {name : String} {scope : TokenScope} (parsed : parse name = .ok scope) :
    scope.name = name := by
  unfold parse at parsed
  split at parsed
  · rename_i found
    cases parsed
    have same := List.find?_some found
    exact eq_of_beq same
  · cases parsed

theorem colon_notMem_name (scope : TokenScope) : ':' ∉ scope.name.toList := by
  cases scope <;> decide

end TokenScope

namespace Scopes

variable {scopes scopes' requested : List String} {ps : List Permission} {p q : Permission}
  {scope : String}

/-! ### Scopes take permissions away -/

theorem restrict_of_full (full : areFull scopes = true) : restrict scopes ps = ps := by
  unfold restrict
  rw [if_pos full]

theorem restrict_of_narrow (narrow : areFull scopes = false) :
    restrict scopes ps =
      Permission.withoutRepeats (ps.filter fun p => !p.isSuperAdmin && cover scopes p) := by
  unfold restrict
  rw [if_neg (by simp [narrow])]

theorem mem_of_mem_restrict (mem : p ∈ restrict scopes ps) : p ∈ ps := by
  cases full : areFull scopes with
  | true => rwa [restrict_of_full full] at mem
  | false =>
      rw [restrict_of_narrow full] at mem
      exact (List.mem_filter.mp (Permission.mem_of_mem_withoutRepeats mem)).1

/-- Scopes keep a permission: they are full, or it begins with one of them and is not for everything. -/
def Keeps (scopes : List String) (p : Permission) : Prop :=
  areFull scopes = true ∨ p.isSuperAdmin = false ∧ cover scopes p = true

instance : Decidable (Keeps scopes p) :=
  inferInstanceAs (Decidable (areFull scopes = true ∨ p.isSuperAdmin = false ∧ cover scopes p = true))

/-- Of permissions that may be stored, scopes leave those that they keep. -/
theorem mem_restrict_iff_keeps (checked : ∀ q ∈ ps, q.check = .ok ()) :
    p ∈ restrict scopes ps ↔ p ∈ ps ∧ Keeps scopes p := by
  cases full : areFull scopes with
  | true => rw [restrict_of_full full, Keeps, full, and_iff_left (Or.inl rfl)]
  | false =>
      have checkedKept : ∀ q ∈ ps.filter (fun p => !p.isSuperAdmin && cover scopes p),
          q.check = .ok () := fun q mem => checked q (List.mem_filter.mp mem).1
      rw [restrict_of_narrow full, Permission.mem_withoutRepeats_of_checked checkedKept, List.mem_filter]
      simp [Keeps, full]

theorem covered_of_mem_restrict (narrow : areFull scopes = false)
    (mem : p ∈ restrict scopes ps) : p.isSuperAdmin = false ∧ cover scopes p = true := by
  rw [restrict_of_narrow narrow] at mem
  have kept := (List.mem_filter.mp (Permission.mem_of_mem_withoutRepeats mem)).2
  simpa using kept

theorem cover_iff : cover scopes p = true ↔
    ∃ scope ∈ scopes, (scope.toList ++ [':']) <+: p.operation.toList := by
  simp [cover, List.any_eq_true, List.isPrefixOf_iff_prefix]

/-- What narrow scopes leave is for operations of one of them. -/
theorem scope_mem_of_mem_restrict {op : Operation} (narrow : areFull scopes = false)
    (words : ∀ scope ∈ scopes, ':' ∉ scope.toList ∧ scope ≠ Pattern.wildcard)
    (mem : p ∈ restrict scopes ps) (matching : Pattern.matchesOperation p.operation op.text = true) :
    op.scope ∈ scopes := by
  obtain ⟨scope, listed, begins⟩ := cover_iff.mp (covered_of_mem_restrict narrow mem).2
  obtain ⟨whole, fixed⟩ := words scope listed
  obtain ⟨rest, segments⟩ :=
    Text.split_of_isPrefixOf whole (List.isPrefixOf_iff_prefix.mpr begins)
  rw [Pattern.scope_of_matchesOperation segments fixed matching]
  exact listed

/-! ### Comparing scopes -/

/-- Of two words with a colon behind them, none begins the other unless they are the same. -/
theorem eq_of_colon_begins {word word' : List Char} (whole : ':' ∉ word)
    (begins : word' ++ [':'] <+: word ++ [':']) : word' = word := by
  rcases List.prefix_concat_iff.mp begins with same | inside
  · exact List.append_cancel_right same
  · have colon : ':' ∈ word := inside.subset (by simp)
    exact absurd colon whole

theorem operation_prefix_key (p : Permission) : p.operation.toList <+: p.key.toList :=
  p.toList_key ▸ List.prefix_append ..

/-- Of two permissions with one key, one word cannot cover the one and another word the other. -/
theorem covered_of_key_eq (whole : ':' ∉ scope.toList)
    (begins : scope.toList ++ [':'] <+: p.operation.toList)
    (covered : cover scopes q = true) (same : q.key = p.key) :
    scope.toList ++ [':'] <+: q.operation.toList := by
  have ofKey : scope.toList ++ [':'] <+: q.key.toList :=
    same ▸ begins.trans (operation_prefix_key p)
  rcases List.prefix_or_prefix_of_prefix ofKey (operation_prefix_key q) with inside | short
  · exact inside
  · obtain ⟨other, _, beginsOther⟩ := cover_iff.mp covered
    have sameWord := eq_of_colon_begins whole (beginsOther.trans short)
    rw [← sameWord]
    exact beginsOther

/-- Scopes leave nothing that others do not, whatever their owner is entitled to. -/
def NoWider (scopes' scopes : List String) : Prop :=
  ∀ ps, ∀ p ∈ restrict scopes' ps, p ∈ restrict scopes ps

theorem NoWider.refl (scopes : List String) : NoWider scopes scopes := fun _ _ mem => mem

/-- Only full scopes leave the permission to do everything. -/
theorem NoWider.areFull_eq_false (less : NoWider scopes' scopes) (narrow : areFull scopes = false) :
    areFull scopes' = false := by
  cases full : areFull scopes' with
  | false => rfl
  | true =>
      have whole : Permission.everywhere "*:*:*" ∈ restrict scopes' [.everywhere "*:*:*"] := by
        rw [restrict_of_full full]
        exact List.mem_singleton_self _
      have kept := (covered_of_mem_restrict narrow (less _ _ whole)).1
      have everything : (Permission.everywhere "*:*:*").isSuperAdmin = true := by decide
      rw [everything] at kept
      cases kept

/-- A scope leaves the permission for all operations that begin with it, and no other scope does. -/
theorem NoWider.mem (less : NoWider scopes' scopes) (whole : ':' ∉ scope.toList)
    (narrow : areFull scopes = false) (listed : scope ∈ scopes') : scope ∈ scopes := by
  have narrow' := less.areFull_eq_false narrow
  let p : Permission := ⟨scope ++ ":", "*"⟩
  have operation : p.operation.toList = scope.toList ++ [':'] := String.toList_append
  have ordinary : p.isSuperAdmin = false := by
    refine decide_eq_false fun same => ?_
    have last := congrArg (fun s => s.toList.getLast?) same
    simp only [operation] at last
    simp [Permission.everyOperation] at last
  have covered : cover scopes' p = true :=
    cover_iff.mpr ⟨scope, listed, operation ▸ List.prefix_refl _⟩
  have kept : p ∈ restrict scopes' [p] := by
    rw [restrict_of_narrow narrow', Permission.mem_withoutRepeats_iff]
    simp [ordinary, covered]
  have cover := (covered_of_mem_restrict narrow (less _ _ kept)).2
  obtain ⟨other, listedOther, begins⟩ := cover_iff.mp cover
  rw [operation] at begins
  have same := String.toList_inj.mp (eq_of_colon_begins whole begins)
  exact same ▸ listedOther

/-- Scopes that narrow are no wider than others among which they are. -/
theorem noWider_of_mem (words : ∀ scope ∈ scopes', ':' ∉ scope.toList)
    (narrow' : areFull scopes' = false) (among : ∀ scope ∈ scopes', scope ∈ scopes) :
    NoWider scopes' scopes := by
  intro ps p mem
  cases narrow : areFull scopes with
  | true =>
      rw [restrict_of_full narrow]
      exact mem_of_mem_restrict mem
  | false =>
      obtain ⟨ordinary, covered⟩ := covered_of_mem_restrict narrow' mem
      obtain ⟨scope, listed, begins⟩ := cover_iff.mp covered
      rw [restrict_of_narrow narrow'] at mem
      rw [restrict_of_narrow narrow]
      refine Permission.mem_withoutRepeats_filter ?_ ?_ mem
      · simp only [ordinary, Bool.not_false, Bool.true_and]
        exact cover_iff.mpr ⟨scope, among scope listed, begins⟩
      -- Repeats go by key: what the key keeps back must be covered by the same scope.
      · intro q _ same kept
        obtain ⟨ordinaryQ, coveredQ⟩ := Bool.and_eq_true_iff.mp kept
        have beginsQ := covered_of_key_eq (words scope listed) begins coveredQ same
        rw [ordinaryQ, Bool.true_and]
        exact cover_iff.mpr ⟨scope, listed, beginsQ⟩

/-- Scopes are no wider than others exactly when the others are full, or when they narrow and are
among the others. -/
theorem noWider_iff (words : ∀ scope ∈ scopes', ':' ∉ scope.toList) :
    NoWider scopes' scopes ↔
      areFull scopes = true ∨ areFull scopes' = false ∧ ∀ scope ∈ scopes', scope ∈ scopes := by
  constructor
  · intro less
    cases narrow : areFull scopes with
    | true => exact Or.inl rfl
    | false =>
        exact Or.inr ⟨less.areFull_eq_false narrow, fun scope listed =>
          less.mem (words scope listed) narrow listed⟩
  · rintro (full | ⟨narrow', among⟩)
    · intro ps p mem
      rw [restrict_of_full full]
      exact mem_of_mem_restrict mem
    · exact noWider_of_mem words narrow' among

/-! ### The scopes that a token is issued with -/

/-- Collecting keeps what was kept and adds every name, all of them names of scopes. -/
theorem collect_eq_ok {kept names : List String} (done : collect kept names = .ok scopes) :
    (∀ name, name ∈ scopes ↔ name ∈ kept ∨ name ∈ names) ∧
      ∀ name ∈ names, ∃ scope : TokenScope, scope.name = name := by
  induction names generalizing kept with
  | nil =>
      cases done
      simp
  | cons first rest ih =>
      unfold collect at done
      split at done
      · cases done
      rename_i scope parsed
      obtain rfl := TokenScope.name_of_parse parsed
      obtain ⟨collected, named⟩ := ih done
      refine ⟨fun name => ?_, ?_⟩
      · rw [collected, List.mem_cons]
        split
        · rename_i already
          have kept : scope.name ∈ kept := by simpa using already
          constructor
          · rintro (before | later)
            · exact Or.inl before
            · exact Or.inr (Or.inr later)
          · rintro (before | rfl | later)
            · exact Or.inl before
            · exact Or.inl kept
            · exact Or.inr later
        · rw [List.mem_append, List.mem_singleton, or_assoc]
      · intro name mem
        rcases List.mem_cons.mp mem with rfl | later
        · exact ⟨scope, rfl⟩
        · exact named name later

/-- A token is issued with the scopes requested, or with `full` when none are. -/
theorem mem_normalize_iff (normalized : normalize requested = .ok scopes) (name : String) :
    name ∈ scopes ↔ name ∈ requested ∨ requested = [] ∧ name = TokenScope.full.name := by
  unfold normalize at normalized
  cases requested with
  | nil =>
      cases normalized
      simp
  | cons first rest =>
      have collected := (collect_eq_ok normalized).1 name
      simpa using collected

/-- A token is issued with names of scopes. -/
theorem exists_name_of_mem_normalize (normalized : normalize requested = .ok scopes) :
    ∀ name ∈ scopes, ∃ scope : TokenScope, scope.name = name := by
  unfold normalize at normalized
  intro name mem
  split at normalized
  · cases normalized
    exact ⟨.full, (List.mem_singleton.mp mem).symm⟩
  · obtain ⟨collected, named⟩ := collect_eq_ok normalized
    exact named name (((collected name).mp mem).resolve_left List.not_mem_nil)

theorem colon_notMem_of_mem_normalize (normalized : normalize requested = .ok scopes) :
    ∀ scope ∈ scopes, ':' ∉ scope.toList := by
  intro name mem
  obtain ⟨scope, rfl⟩ := exists_name_of_mem_normalize normalized name mem
  exact scope.colon_notMem_name

/-- A request for scopes stays within others: those are full, or it names some and only of them. -/
def Within (requested scopes : List String) : Prop :=
  areFull scopes = true ∨ requested ≠ [] ∧ ∀ scope ∈ requested, scope ∈ scopes

/-- The scopes a token is issued with are no wider than others exactly when the request for them
stays within the others. -/
theorem noWider_normalize_iff (normalized : normalize requested = .ok scopes') :
    NoWider scopes' scopes ↔ Within requested scopes := by
  have issued := mem_normalize_iff normalized
  rw [noWider_iff (colon_notMem_of_mem_normalize normalized), Within]
  refine or_congr_right' fun narrow => ?_
  have notFull : areFull scopes = false := by simpa using narrow
  constructor
  · rintro ⟨narrow', among⟩
    refine ⟨?_, fun scope mem => among scope ((issued scope).mpr (Or.inl mem))⟩
    rintro rfl
    cases normalized
    cases narrow'
  · rintro ⟨nonempty, among⟩
    have same : ∀ name, name ∈ scopes' ↔ name ∈ requested := by
      intro name
      simpa [nonempty] using issued name
    refine ⟨?_, fun scope mem => among scope ((same scope).mp mem)⟩
    obtain ⟨first, listed⟩ := List.exists_mem_of_ne_nil _ nonempty
    have someIssued : scopes' ≠ [] := List.ne_nil_of_mem ((same first).mpr listed)
    have fullIssued : TokenScope.full.name ∉ scopes' := by
      intro mem
      have inside := among _ ((same _).mp mem)
      have full : areFull scopes = true := by simp [areFull, inside]
      rw [notFull] at full
      cases full
    simp [areFull, someIssued, fullIssued]

end Scopes

end Gatehouse
