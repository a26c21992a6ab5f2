import Gatehouse.Proofs.Role.Seeded

/-!
What the roles of a user come to, taken together.

A user acts as the roles assigned to it and as the role of everyone (`ActsAs`). Where names are unique
and permissions may be stored, the store makes of these roles one list of names and one of permissions:
the assigned roles come first, by identifier, and the role of everyone last unless it is assigned
(`implicitRole_eq`). The main statement is `entitlements_union`: no name and no permission is lost, none
comes twice, and each permission stands where it is first.
-/

namespace Gatehouse.RoleStore

/-- A user acts as a role: it is assigned to the user, or it is that of everyone. -/
structure ActsAs (s : RoleStore) (user : UserId) (r : Role) : Prop where
  found : s.find? r.id = some r
  given : r.id ∈ s.assigned user ∨ r.name = Role.everyone

variable {s : RoleStore} {o : Outage} {user : UserId} {r : Role} {p : Permission}

/-! ### The role of everyone -/

section Unique

variable (lawful : s.Lawful) (unique : s.UniqueNames)

include lawful unique

/-- Where names are unique, the role with a name is the one that is found by it. -/
theorem findNamed?_eq_some_iff {name : String} :
    s.findNamed? name = some r ↔ s.find? r.id = some r ∧ r.name = name := by
  constructor
  · intro named
    have called : r.name = name := by simpa using List.find?_some named
    exact ⟨lawful.mem_list_iff.mp (List.mem_of_find?_eq_some named), called⟩
  · rintro ⟨found, called⟩
    cases named : s.findNamed? name with
    | none => exact absurd called (lawful.name_ne_of_findNamed? named found)
    | some r' =>
        have called' : r'.name = name := by simpa using List.find?_some named
        have found' := lawful.mem_list_iff.mp (List.mem_of_find?_eq_some named)
        rw [unique _ _ _ _ found found' (called.trans called'.symm), found'] at found
        exact found

/-- A user has the role of everyone in addition exactly when it is not assigned to the user: a role of
this name among the assigned ones is the only one of the name. -/
theorem implicitRole_eq (user : UserId) : s.implicitRole user =
    ((s.findNamed? Role.everyone).filter fun r => r.id ∉ s.assigned user).toList := by
  unfold implicitRole
  split
  · rename_i own
    obtain ⟨r, listed, called⟩ := List.any_eq_true.mp own
    obtain ⟨found, assigned⟩ := lawful.mem_ofUser_iff.mp listed
    have named := (findNamed?_eq_some_iff lawful unique).mpr ⟨found, of_decide_eq_true called⟩
    simp [named, assigned]
  · rename_i foreign
    cases named : s.findNamed? Role.everyone with
    | none => rfl
    | some r =>
        obtain ⟨found, called⟩ := (findNamed?_eq_some_iff lawful unique).mp named
        have unassigned : r.id ∉ s.assigned user := by
          intro assigned
          refine foreign (List.any_eq_true.mpr ⟨r, ?_, decide_eq_true called⟩)
          exact lawful.mem_ofUser_iff.mpr ⟨found, assigned⟩
        rw [Option.filter_some, if_pos (decide_eq_true unassigned)]

/-- The roles that entitle a user are those it acts as. -/
theorem mem_effective_iff : r ∈ s.ofUser user ++ s.implicitRole user ↔ s.ActsAs user r := by
  rw [List.mem_append, lawful.mem_ofUser_iff, implicitRole_eq lawful unique, Option.mem_toList,
    Option.filter_eq_some_iff, findNamed?_eq_some_iff lawful unique,
    decide_eq_true_iff]
  constructor
  · rintro (⟨found, assigned⟩ | ⟨⟨found, called⟩, _⟩)
    · exact ⟨found, Or.inl assigned⟩
    · exact ⟨found, Or.inr called⟩
  · rintro ⟨found, given⟩
    by_cases assigned : r.id ∈ s.assigned user
    · exact Or.inl ⟨found, assigned⟩
    · exact Or.inr ⟨⟨found, given.resolve_left assigned⟩, assigned⟩

/-! ### Names and permissions -/

variable (storable : s.Every Role.Storable)

include storable

/-- What the roles of a user permit may be stored. -/
theorem check_of_mem_effective
    (mem : p ∈ (s.ofUser user ++ s.implicitRole user).flatMap (·.permissions)) :
    p.check = .ok () := by
  obtain ⟨r, effective, mem⟩ := List.mem_flatMap.mp mem
  exact storable r.id r ((mem_effective_iff lawful unique).mp effective).found p mem

/-- A user is entitled to the permissions of the roles it acts as. -/
theorem mem_entitled_iff :
    p ∈ (s.entitled user).permissions ↔ ∃ r, s.ActsAs user r ∧ p ∈ r.permissions := by
  unfold entitled Entitlements.ofRoles
  rw [Permission.mem_withoutRepeats_of_checked fun q => check_of_mem_effective lawful unique storable,
    List.mem_flatMap]
  exact exists_congr fun r => and_congr_left fun _ => mem_effective_iff lawful unique

/-- **Nothing is lost of the roles of a user, and nothing comes twice.** The names are those of the
assigned roles by identifier, and that of the role of everyone if it exists and is not assigned. The
permissions are those of the same roles in the same order, each one where it is first: they are exactly
the permissions of the roles the user acts as. -/
theorem entitlements_union (up : o.stores = fun _ => false) (user : UserId) :
    ∃ (assigned : List Role) (implicit : Option Role) (e : Entitlements),
      s.entitlements o user = .ok e ∧
      (assigned.map (·.id)).Pairwise (· < ·) ∧
      (∀ r, r ∈ assigned ↔ s.find? r.id = some r ∧ r.id ∈ s.assigned user) ∧
      (∀ r, implicit = some r ↔
        s.find? r.id = some r ∧ r.name = Role.everyone ∧ r.id ∉ s.assigned user) ∧
      e.roles = assigned.map (·.name) ++ (if implicit.isSome then [Role.everyone] else []) ∧
      e.permissions = ((assigned ++ implicit.toList).flatMap (·.permissions)).eraseDups ∧
      e.permissions.Nodup ∧
      ∀ p, p ∈ e.permissions ↔ ∃ r, s.ActsAs user r ∧ p ∈ r.permissions := by
  have everyone := implicitRole_eq lawful unique user
  obtain ⟨implicit, same⟩ : ∃ implicit, implicit =
      (s.findNamed? Role.everyone).filter fun r => r.id ∉ s.assigned user := ⟨_, rfl⟩
  rw [← same] at everyone
  have isImplicit : ∀ r, implicit = some r ↔
      s.find? r.id = some r ∧ r.name = Role.everyone ∧ r.id ∉ s.assigned user := by
    intro r
    rw [same, Option.filter_eq_some_iff, findNamed?_eq_some_iff lawful unique, decide_eq_true_iff,
      and_assoc]
  have merged : (s.entitled user).permissions =
      ((s.ofUser user ++ implicit.toList).flatMap (·.permissions)).eraseDups := by
    rw [← everyone]
    exact Permission.withoutRepeats_eq_eraseDups fun p =>
      check_of_mem_effective lawful unique storable
  have names : (s.entitled user).roles =
      (s.ofUser user).map (·.name) ++ (if implicit.isSome then [Role.everyone] else []) := by
    unfold entitled Entitlements.ofRoles
    rw [everyone, List.map_append]
    cases known : implicit with
    | none => rfl
    | some r => simp [((isImplicit r).mp known).2.1]
  refine ⟨s.ofUser user, implicit, s.entitled user, entitlements_of_up up, lawful.ascending_ofUser user,
    fun r => lawful.mem_ofUser_iff, isImplicit, names, merged, Permission.nodup_withoutRepeats _,
    fun p => mem_entitled_iff lawful unique storable⟩

end Unique

/-- A role that permits twice what everyone may do. -/
def editor : Role :=
  ⟨3, "editor", "Editor", false, [.everywhere "org:page:*", .everywhere "self:*:*",
    .everywhere "self:*:*"]⟩

/-- A new service in which one user is an editor. -/
def withEditor : RoleStore :=
  { builtIn.put editor with assignments := .insert .empty 5 [3] }

/-- What the editor and everyone may do comes once, and the editor comes first. -/
theorem editor_united :
    withEditor.Lawful ∧ withEditor.UniqueNames ∧ withEditor.Every Role.Storable ∧
      ∃ e, withEditor.entitlements .none 5 = .ok e ∧ e.roles = ["editor", "user"] ∧
        e.permissions = [.everywhere "org:page:*", .everywhere "self:*:*"] ∧ e.permissions.Nodup ∧
          ∀ p, p ∈ e.permissions ↔ ∃ r, withEditor.ActsAs 5 r ∧ p ∈ r.permissions := by
  have lawful : withEditor.Lawful := seeded_builtIn.toLawful.put.assignTo [3]
  have unique : withEditor.UniqueNames :=
    seeded_builtIn.unique.put seeded_builtIn.toLawful (by decide)
  have checked : ∀ p ∈ editor.permissions, p.check = .ok () := by decide
  have storable : withEditor.Every Role.Storable := seeded_builtIn.every_storable.put checked
  have answer : withEditor.entitlements .none 5 =
      .ok ⟨["editor", "user"], [.everywhere "org:page:*", .everywhere "self:*:*"]⟩ := by decide
  obtain ⟨_, _, e, given, _, _, _, _, _, once, exactly⟩ :=
    entitlements_union lawful unique storable (o := .none) rfl 5
  obtain rfl := Except.ok.inj (answer.symm.trans given)
  exact ⟨lawful, unique, storable, _, given, rfl, rfl, once, exactly⟩

end Gatehouse.RoleStore
