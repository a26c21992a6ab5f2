import Gatehouse.Proofs.Attempt
import Gatehouse.Proofs.Permission
import Gatehouse.Proofs.Table
import Gatehouse.Role.Store

/-!
What the role store answers, and which stores there are.

A store is `Lawful` when its tables are as changes leave them: keys ascend, and every role stands
under its own identifier. Of a lawful store the list of roles, the roles of a user and the holders
of a role are views of one relation. What a user is entitled to (`entitled`) depends on two of these
views alone: the roles of the user and the role of everyone (`entitled_congr`).
-/

namespace Gatehouse.RoleStore

/-! ### Lawful stores -/

/-- Keys ascend, and every role is stored under its own identifier. -/
structure Lawful (s : RoleStore) : Prop where
  roles : s.roles.Ascending
  assignments : s.assignments.Ascending
  ownId : ∀ id r, s.find? id = some r → r.id = id

variable {s s' : RoleStore} {user : UserId} {id : RoleId} {r : Role}

theorem lawful_empty : empty.Lawful where
  roles := Table.ascending_empty
  assignments := Table.ascending_empty
  ownId _ _ found := by simp [empty, find?] at found

namespace Lawful

variable (lawful : s.Lawful)

include lawful

theorem put : (s.put r).Lawful where
  roles := lawful.roles.insert r.id r
  assignments := lawful.assignments
  ownId id r' found := by
    simp only [RoleStore.put, find?, Table.find?_insert] at found
    split at found
    · rename_i same
      cases found
      exact same.symm
    · exact lawful.ownId id r' found

theorem delete : (s.delete id).Lawful where
  roles := lawful.roles.erase id
  assignments := lawful.assignments.mapValues _
  ownId id' r found := by
    simp only [RoleStore.delete, find?, Table.find?_erase] at found
    split at found
    · cases found
    · exact lawful.ownId id' r found

theorem adjustPermissions (permissions : List Permission) :
    Lawful { s with roles := s.roles.adjust id fun r => { r with permissions } } where
  roles := lawful.roles.adjust id _
  assignments := lawful.assignments
  ownId id' r found := by
    simp only [find?, Table.find?_adjust] at found
    split at found
    · obtain ⟨old, stored, rfl⟩ := Option.map_eq_some_iff.mp found
      exact lawful.ownId id' old stored
    · exact lawful.ownId id' r found

theorem assignTo (ids : List RoleId) :
    Lawful { s with assignments := s.assignments.insert user ids } :=
  ⟨lawful.roles, lawful.assignments.insert user ids, lawful.ownId⟩

theorem revoke : (s.revoke user id).Lawful :=
  ⟨lawful.roles, lawful.assignments.adjust user _, lawful.ownId⟩

theorem removeUser : (s.removeUser user).Lawful :=
  ⟨lawful.roles, lawful.assignments.erase user, lawful.ownId⟩

/-! ### The views of a lawful store -/

theorem find?_of_mem_entries (mem : (id, r) ∈ s.roles.entries) : s.find? id = some r :=
  (Table.mem_entries_iff lawful.roles.nodup_keys).mp mem

theorem eq_of_mem_entries {r' : Role} (found : s.find? id = some r)
    (mem : (id, r') ∈ s.roles.entries) : r' = r := by
  rw [lawful.find?_of_mem_entries mem] at found
  exact Option.some.inj found

/-- The roles that are listed are those that are found under their identifier. -/
theorem mem_list_iff : r ∈ s.list ↔ s.find? r.id = some r := by
  unfold RoleStore.list
  rw [Table.mem_values_iff lawful.roles.nodup_keys]
  constructor
  · rintro ⟨id, found⟩
    rw [lawful.ownId id r found]
    exact found
  · intro found
    exact ⟨r.id, found⟩

theorem mem_list_of_find? (found : s.find? id = some r) : r ∈ s.list := by
  rw [lawful.mem_list_iff, lawful.ownId id r found]
  exact found

/-- The roles of a user are the stored ones that are assigned to the user. -/
theorem mem_ofUser_iff : r ∈ s.ofUser user ↔ s.find? r.id = some r ∧ r.id ∈ s.assigned user := by
  unfold ofUser
  rw [List.mem_filter, lawful.mem_list_iff, List.contains_iff_mem]

/-- Roles are listed by identifier. -/
theorem ids_list : s.list.map (·.id) = s.roles.keys := by
  unfold RoleStore.list Table.values Table.keys
  rw [List.map_map]
  exact List.map_congr_left fun e mem => lawful.ownId e.1 e.2 (lawful.find?_of_mem_entries mem)

theorem ascending_list : (s.list.map (·.id)).Pairwise (· < ·) := by
  rw [lawful.ids_list]
  exact lawful.roles

theorem ascending_ofUser (user : UserId) : ((s.ofUser user).map (·.id)).Pairwise (· < ·) :=
  lawful.ascending_list.sublist (List.filter_sublist.map _)

theorem ascending_holders (id : RoleId) : (s.holders id).Pairwise (· < ·) :=
  lawful.assignments.filter _

/-- No stored role has a name under which none is found. -/
theorem name_ne_of_findNamed? {name : String} (fresh : s.findNamed? name = none)
    (found : s.find? id = some r) : r.name ≠ name := by
  have listed := lawful.mem_list_of_find? found
  simpa using List.find?_eq_none.mp fresh r listed

/-- A user holds a role when the role is assigned to the user. -/
theorem mem_holders_iff : user ∈ s.holders id ↔ id ∈ s.assigned user := by
  unfold holders assigned
  rw [Table.mem_keys_filter_iff lawful.assignments.nodup_keys]
  cases found : s.assignments.find? user with
  | none => simp
  | some ids => simp

end Lawful

/-! ### What changes do to assignments -/

theorem assigned_delete (s : RoleStore) (id : RoleId) (user : UserId) :
    (s.delete id).assigned user = (s.assigned user).filter (· ≠ id) := by
  unfold delete assigned
  rw [Table.find?_mapValues]
  cases s.assignments.find? user <;> rfl

theorem assigned_insert (s : RoleStore) (user : UserId) (ids : List RoleId) (user' : UserId) :
    assigned { s with assignments := s.assignments.insert user ids } user' =
      if user' = user then ids else s.assigned user' := by
  unfold assigned
  rw [Table.find?_insert]
  split <;> rfl

theorem assigned_revoke (s : RoleStore) (user : UserId) (id : RoleId) (user' : UserId) :
    (s.revoke user id).assigned user' =
      if user' = user then (s.assigned user').filter (· ≠ id) else s.assigned user' := by
  unfold revoke assigned
  rw [Table.find?_adjust]
  split
  · cases s.assignments.find? user' <;> rfl
  · rfl

theorem assigned_removeUser (s : RoleStore) (user user' : UserId) :
    (s.removeUser user).assigned user' = if user' = user then [] else s.assigned user' := by
  unfold removeUser assigned
  rw [Table.find?_erase]
  split <;> rfl

/-- Permissions are replaced once it is known that the role is stored. -/
theorem replacePermissions_atomic (id : RoleId) (permissions : List Permission) :
    (replacePermissions id permissions).Atomic := by
  refine Attempt.looks_get.bind_atomic fun s => ?_
  split
  · exact (Attempt.succeeds_modify _).atomic
  · exact (Attempt.looks_throw _).atomic

theorem replacePermissions_of_known (permissions : List Permission) (known : s.roles.contains id = true) :
    ∃ s', (replacePermissions id permissions).run s = (.ok (), s') := by
  unfold replacePermissions
  rw [Attempt.run_get_bind, if_pos known]
  exact ⟨_, rfl⟩

/-- So is a role assigned. -/
theorem assign_atomic (user : UserId) (id : RoleId) : (assign user id).Atomic := by
  refine Attempt.looks_get.bind_atomic fun s => ?_
  split
  · exact (Attempt.succeeds_modify _).atomic
  · exact (Attempt.looks_throw _).atomic

theorem assign_of_known (user : UserId) (known : s.roles.contains id = true) :
    ∃ s', (assign user id).run s = (.ok (), s') := by
  unfold assign
  rw [Attempt.run_get_bind, if_pos known]
  exact ⟨_, rfl⟩

/-- An assignment goes to a stored role, and adds it to those of the user. -/
theorem assign_eq_ok (done : (assign user id).run s = (.ok (), s')) :
    s.roles.contains id = true ∧ ∃ ids, (∀ id', id' ∈ ids ↔ id' = id ∨ id' ∈ s.assigned user) ∧
      s' = { s with assignments := s.assignments.insert user ids } := by
  unfold assign at done
  rw [Attempt.run_get_bind] at done
  split at done
  · rename_i known
    cases done
    refine ⟨known, _, fun id' => ?_, rfl⟩
    split
    · rename_i already
      have held : id ∈ s.assigned user := by simpa using already
      constructor
      · exact Or.inr
      · rintro (rfl | before)
        · exact held
        · exact before
    · exact List.mem_cons
  · cases done

/-! ### Entitlements -/

/-- The role of everyone, for a user to whom it is not assigned. -/
def implicitRole (s : RoleStore) (user : UserId) : List Role :=
  if (s.ofUser user).any (·.name = Role.everyone) then []
  else (s.findNamed? Role.everyone).toList

/-- What a user is entitled to while the store answers. -/
def entitled (s : RoleStore) (user : UserId) : Entitlements :=
  .ofRoles (s.ofUser user ++ s.implicitRole user)

/-- While no call to a store fails, the store gives what the user is entitled to. -/
theorem entitlements_of_up {o : Outage} (up : o.stores = fun _ => false) :
    s.entitlements o user = .ok (s.entitled user) := by
  obtain ⟨stores, cache⟩ := o
  obtain rfl : stores = fun _ => false := up
  unfold entitlements effectiveRoles entitled implicitRole
  simp only [Outage.reach, Bool.false_eq_true, if_false, bind, Except.bind]
  split
  · simp [Functor.map, Except.map, pure, Except.pure]
  · rfl

theorem entitlements_none : s.entitlements .none user = .ok (s.entitled user) :=
  entitlements_of_up rfl

/-- What the store gives is what the user is entitled to, whichever calls may fail. -/
theorem entitlements_eq_ok {o : Outage} {e : Entitlements}
    (given : s.entitlements o user = .ok e) : e = s.entitled user := by
  obtain ⟨roles, effective, rfl⟩ := Outcome.map_eq_ok.mp given
  obtain ⟨assigned, reached, effective⟩ := Outcome.bind_eq_ok.mp effective
  obtain ⟨_, rfl⟩ := Outage.reach_eq_ok.mp reached
  unfold entitled implicitRole
  split at effective
  · rename_i own
    rw [if_pos own, List.append_nil]
    exact congrArg Entitlements.ofRoles (Except.ok.inj effective).symm
  · rename_i foreign
    obtain ⟨everyone, reached, effective⟩ := Outcome.bind_eq_ok.mp effective
    obtain ⟨_, rfl⟩ := Outage.reach_eq_ok.mp reached
    rw [if_neg foreign]
    exact congrArg Entitlements.ofRoles (Except.ok.inj effective).symm

/-- A permission that a user is entitled to is that of a listed role. -/
theorem exists_mem_list_of_entitled {p : Permission} (mem : p ∈ (s.entitled user).permissions) :
    ∃ r ∈ s.list, p ∈ r.permissions := by
  have listed := Permission.mem_of_mem_withoutRepeats mem
  obtain ⟨r, effective, mem⟩ := List.mem_flatMap.mp listed
  refine ⟨r, ?_, mem⟩
  rcases List.mem_append.mp effective with assigned | implicit
  · exact (List.mem_filter.mp assigned).1
  · unfold implicitRole at implicit
    split at implicit
    · cases implicit
    · exact List.mem_of_find?_eq_some (Option.mem_toList.mp implicit)

theorem entitled_congr (same : s'.ofUser user = s.ofUser user)
    (everyone : s'.findNamed? Role.everyone = s.findNamed? Role.everyone) :
    s'.entitled user = s.entitled user := by
  unfold entitled implicitRole
  rw [same, everyone]

theorem findNamed?_eq_head? (s : RoleStore) (name : String) :
    s.findNamed? name = (s.roles.values.filter (·.name = name)).head? :=
  List.head?_filter.symm

end Gatehouse.RoleStore
