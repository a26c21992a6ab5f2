import Gatehouse.Permission
import Gatehouse.Proofs.Pattern.Check

/-!
Permissions that may be stored, and what is left of a list of permissions without its repetitions.

Repetitions go by key. The keys of permissions that may be stored tell them apart (`eq_of_key_eq`), so
nothing is lost of a list of such permissions (`mem_withoutRepeats_of_checked`), and each one stays where
it is first (`withoutRepeats_eq_eraseDups`).
-/

namespace Gatehouse.Permission

variable {p q : Permission} {ps : List Permission}

/-! ### Permissions that may be stored -/

theorem check_eq_ok_iff : p.check = .ok () ↔
    Pattern.checkOperation p.operation = .ok () ∧ Pattern.checkResource p.resource = .ok () := by
  unfold check
  cases Pattern.checkOperation p.operation with
  | error fault => simp
  | ok done => cases Pattern.checkResource p.resource <;> simp

theorem toList_key (p : Permission) : p.key.toList = p.operation.toList ++ '|' :: p.resource.toList := by
  unfold key
  simp [toString]

/-- The key of a permission that may be stored is cut at its first bar. -/
theorem cutFirst_key (checked : p.check = .ok ()) :
    Text.cutFirst '|' p.key.toList = some (p.operation.toList, p.resource.toList) := by
  have noBar : '|' ∉ p.operation.toList :=
    Pattern.notMem_of_checkOperation (check_eq_ok_iff.mp checked).1 (by decide) (by decide)
      (by decide)
  exact Text.cutFirst_eq_some_iff.mpr ⟨toList_key p, noBar⟩

/-- Of permissions that may be stored no two have one key. -/
theorem eq_of_key_eq (checked : p.check = .ok ()) (checked' : q.check = .ok ())
    (same : p.key = q.key) : p = q := by
  have cut := cutFirst_key checked
  rw [same, cutFirst_key checked'] at cut
  obtain ⟨operation, resource⟩ := Prod.mk.inj (Option.some.inj cut)
  cases p
  cases q
  exact congrArg₂ Permission.mk (String.toList_inj.mp operation.symm)
    (String.toList_inj.mp resource.symm)

theorem check_of_checkAll (checked : checkAll ps = .ok ()) : ∀ p ∈ ps, p.check = .ok () := by
  induction ps with
  | nil => simp
  | cons p ps ih =>
      unfold checkAll at checked
      split at checked
      · cases checked
      · rename_i first
        intro q mem
        rcases List.mem_cons.mp mem with rfl | later
        · exact first
        · exact ih checked q later

/-! ### Lists without repetitions -/

theorem mem_go_iff {seen : List String} : p ∈ withoutRepeats.go seen ps ↔
    p.key ∉ seen ∧ ps.find? (·.key = p.key) = some p := by
  induction ps generalizing seen with
  | nil => simp [withoutRepeats.go]
  | cons q ps ih =>
      unfold withoutRepeats.go
      by_cases same : q.key = p.key
      · have first : (q :: ps).find? (·.key = p.key) = some q := by simp [same]
        rw [first]
        by_cases known : q.key ∈ seen
        · have notFresh : ¬ p.key ∉ seen := not_not.mpr (same ▸ known)
          rw [if_pos (by simpa using known), ih]
          simp [notFresh]
        · rw [if_neg (by simpa using known), List.mem_cons, ih]
          have fresh : p.key ∉ seen := same ▸ known
          simp [same, fresh, eq_comm]
      · have later : (q :: ps).find? (·.key = p.key) = ps.find? (·.key = p.key) := by simp [same]
        have other : p ≠ q := by
          rintro rfl
          exact same rfl
        rw [later]
        by_cases known : q.key ∈ seen
        · rw [if_pos (by simpa using known), ih]
        · rw [if_neg (by simpa using known), List.mem_cons, ih]
          simp [other, Ne.symm same]

/-- What is left is the first permission of each key. -/
theorem mem_withoutRepeats_iff :
    p ∈ withoutRepeats ps ↔ ps.find? (·.key = p.key) = some p := by
  unfold withoutRepeats
  rw [mem_go_iff]
  simp

theorem mem_of_mem_withoutRepeats (mem : p ∈ withoutRepeats ps) : p ∈ ps :=
  List.mem_of_find?_eq_some (mem_withoutRepeats_iff.mp mem)

/-- Nothing is lost of a list of permissions that may be stored. -/
theorem mem_withoutRepeats_of_checked (checked : ∀ q ∈ ps, q.check = .ok ()) :
    p ∈ withoutRepeats ps ↔ p ∈ ps := by
  refine ⟨mem_of_mem_withoutRepeats, fun mem => ?_⟩
  rw [mem_withoutRepeats_iff]
  cases found : ps.find? (·.key = p.key) with
  | none =>
      have other := List.find?_eq_none.mp found p mem
      simp at other
  | some q =>
      have same : q.key = p.key := by simpa using List.find?_some found
      have listed := List.mem_of_find?_eq_some found
      rw [eq_of_key_eq (checked q listed) (checked p mem) same]

/-- What is left of a selection is left of every selection that keeps no more of its key. -/
theorem mem_withoutRepeats_filter {f g : Permission → Bool} (kept : g p = true)
    (fewer : ∀ q ∈ ps, q.key = p.key → g q = true → f q = true)
    (mem : p ∈ withoutRepeats (ps.filter f)) : p ∈ withoutRepeats (ps.filter g) := by
  rw [mem_withoutRepeats_iff, List.find?_filter, List.find?_eq_some_iff_append] at mem ⊢
  obtain ⟨_, before, after, rfl, earlier⟩ := mem
  refine ⟨by simp [kept], before, after, rfl, ?_⟩
  intro q first
  have out := earlier q first
  simp only [Bool.not_eq_true', decide_eq_false_iff_not] at out ⊢
  rintro ⟨keeps, same⟩
  have sameKey : q.key = p.key := of_decide_eq_true same
  exact out ⟨fewer q (List.mem_append_left _ first) sameKey keeps, same⟩

/-- What is left has every key once. -/
theorem nodup_keys_go (seen : List String) (ps : List Permission) :
    ((withoutRepeats.go seen ps).map key).Nodup := by
  induction ps generalizing seen with
  | nil => exact .nil
  | cons p ps ih =>
      unfold withoutRepeats.go
      split
      · exact ih seen
      · rw [List.map_cons, List.nodup_cons]
        refine ⟨fun again => ?_, ih _⟩
        obtain ⟨q, mem, same⟩ := List.mem_map.mp again
        exact (mem_go_iff.mp mem).1 (same ▸ List.mem_cons_self ..)

theorem nodup_withoutRepeats (ps : List Permission) : (withoutRepeats ps).Nodup :=
  List.Pairwise.of_map key (fun _ _ other same => other (congrArg key same)) (nodup_keys_go [] ps)

theorem go_of_nodup {seen : List String} (once : (ps.map key).Nodup)
    (fresh : ∀ p ∈ ps, p.key ∉ seen) : withoutRepeats.go seen ps = ps := by
  induction ps generalizing seen with
  | nil => rfl
  | cons p ps ih =>
      obtain ⟨other, once⟩ := List.nodup_cons.mp once
      obtain ⟨new, fresh⟩ := List.forall_mem_cons.mp fresh
      unfold withoutRepeats.go
      rw [if_neg (by simpa using new), ih once]
      intro q mem again
      rcases List.mem_cons.mp again with same | before
      · exact other (List.mem_map.mpr ⟨q, mem, same⟩)
      · exact fresh q mem before

/-- A list without repetitions is left as it is. -/
theorem withoutRepeats_withoutRepeats (ps : List Permission) :
    withoutRepeats (withoutRepeats ps) = withoutRepeats ps :=
  go_of_nodup (nodup_keys_go [] ps) fun _ _ => List.not_mem_nil

/-- What is left of permissions that may be stored is what has no key in `seen`, each once. -/
theorem go_eq_eraseDups {seen : List String} (checked : ∀ p ∈ ps, p.check = .ok ()) :
    withoutRepeats.go seen ps = (ps.filter fun p => !seen.contains p.key).eraseDups := by
  induction ps generalizing seen with
  | nil => rfl
  | cons p ps ih =>
      obtain ⟨first, others⟩ := List.forall_mem_cons.mp checked
      unfold withoutRepeats.go
      split
      · rename_i known
        rw [List.filter_cons_of_neg (by simpa using known), ih others]
      · rename_i fresh
        rw [List.filter_cons_of_pos (by simpa using fresh), List.eraseDups_cons, List.filter_filter,
          ih others]
        refine congrArg (fun rest => p :: List.eraseDups rest) (List.filter_congr fun q mem => ?_)
        have same : q.key = p.key ↔ q = p :=
          ⟨eq_of_key_eq (others q mem) first, congrArg key⟩
        rw [Bool.eq_iff_iff]
        simp [same]

/-- Of permissions that may be stored, each one is left where it is first. -/
theorem withoutRepeats_eq_eraseDups (checked : ∀ p ∈ ps, p.check = .ok ()) :
    withoutRepeats ps = ps.eraseDups := by
  unfold withoutRepeats
  rw [go_eq_eraseDups checked]
  simp

end Gatehouse.Permission
