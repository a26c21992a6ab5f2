import Gatehouse.Proofs.Role.Writes

/-!
Which roles are stored and who holds them, after direct writes.

A write is told by what it does to the two tables: which roles are stored (`contains_apply_iff`) and which
are assigned (`mem_assigned_apply_iff`). From this follows that assignments name stored roles only
(`Linked.writeAll`), so that the holders of a role and the roles of a user are two views of one relation
(`Linked.mem_holders_iff_ofUser`). It also follows how both tables are read off the writes
(`contains_writeAll_iff` and `mem_assigned_writeAll_iff`), and that a role which is deleted and put again is
nobody's until it is assigned again (`assigned_of_put_again`).
-/

namespace Gatehouse.RoleStore

variable {s : RoleStore} {w : Write} {writes before between after : List Write} {r : Role}
  {id : RoleId} {user : UserId}

/-- The store after writes. -/
def writeAll (s : RoleStore) (writes : List Write) : RoleStore := writes.foldl Write.apply s

theorem writeAll_append (s : RoleStore) (before after : List Write) :
    s.writeAll (before ++ after) = (s.writeAll before).writeAll after := List.foldl_append

theorem writeAll_cons (s : RoleStore) (w : Write) (writes : List Write) :
    s.writeAll (w :: writes) = (w.apply s).writeAll writes := rfl

/-! ### What one write does -/

/-- A write takes a role from a user: it removes the role, or the user, or the one from the other. -/
def Write.Takes (user : UserId) (id : RoleId) : Write → Prop
  | .delete id' => id = id'
  | .revoke user' id' => user = user' ∧ id = id'
  | .removeUser user' => user = user'
  | .put _ | .replacePermissions .. | .assign .. => False

/-- Other permissions change neither which roles are stored nor which are assigned. -/
theorem contains_replacePermissions (id' : RoleId) (permissions : List Permission) :
    ((Write.replacePermissions id' permissions).apply s).roles.contains id = s.roles.contains id := by
  rcases Write.apply_replacePermissions s id' permissions with replaced | same
  · rw [replaced]
    simp only [Table.contains, Table.find?_adjust]
    split <;> simp
  · rw [same]

theorem assigned_replacePermissions (id' : RoleId) (permissions : List Permission) :
    ((Write.replacePermissions id' permissions).apply s).assigned user = s.assigned user := by
  rcases Write.apply_replacePermissions s id' permissions with replaced | same
  · rw [replaced]
    rfl
  · rw [same]

/-- An assignment leaves the roles alone, and counts if the role is stored. -/
theorem roles_assign (user : UserId) (id : RoleId) :
    ((Write.assign user id).apply s).roles = s.roles := by
  rcases Write.apply_assign s user id with ⟨_, ids, _, assigned⟩ | ⟨_, same⟩
  · rw [assigned]
  · rw [same]

theorem mem_assigned_assign (user' : UserId) (id' : RoleId) :
    id ∈ ((Write.assign user' id').apply s).assigned user ↔
      (user = user' ∧ id = id') ∧ s.roles.contains id' = true ∨ id ∈ s.assigned user := by
  rcases Write.apply_assign s user' id' with ⟨known, ids, only, assigned⟩ | ⟨unknown, same⟩
  · rw [assigned, assigned_insert]
    by_cases same : user = user'
    · subst same
      simp [only, known]
    · simp [same]
  · rw [same]
    simp [unknown]

/-- Afterwards a role is stored if it was put, or was stored and was not deleted. -/
theorem contains_apply_iff : (w.apply s).roles.contains id = true ↔
    (∃ r, w = .put r ∧ id = r.id) ∨ s.roles.contains id = true ∧ w ≠ .delete id := by
  cases w with
  | put r =>
      simp only [Write.apply, put, Table.contains, Table.find?_insert]
      by_cases same : id = r.id <;> simp [same]
  | delete id' =>
      simp only [Write.apply, delete, Table.contains, Table.find?_erase]
      by_cases same : id = id'
      · simp [same]
      · simp [same, Ne.symm same]
  | replacePermissions id' permissions =>
      rw [contains_replacePermissions]
      simp
  | assign user id' =>
      rw [roles_assign]
      simp
  | revoke user id' => simp [Write.apply, revoke]
  | removeUser user => simp [Write.apply, removeUser]

/-- Afterwards a role is assigned to a user if it was assigned now, being stored, or before and was not
taken. -/
theorem mem_assigned_apply_iff : id ∈ (w.apply s).assigned user ↔
    w = .assign user id ∧ s.roles.contains id = true ∨
      id ∈ s.assigned user ∧ ¬ w.Takes user id := by
  cases w with
  | put r => simp [Write.apply, put, assigned, Write.Takes]
  | delete id' => simp [Write.apply, assigned_delete, Write.Takes]
  | replacePermissions id' permissions =>
      rw [assigned_replacePermissions]
      simp [Write.Takes]
  | assign user' id' =>
      rw [mem_assigned_assign]
      by_cases same : user = user' ∧ id = id'
      · obtain ⟨rfl, rfl⟩ := same
        simp [Write.Takes]
      · have other : Write.assign user' id' ≠ .assign user id := by
          rintro ⟨⟩
          exact same ⟨rfl, rfl⟩
        simp [same, other, Write.Takes]
  | revoke user' id' =>
      simp only [Write.apply, assigned_revoke, Write.Takes]
      by_cases same : user = user' <;> simp [same]
  | removeUser user' =>
      simp only [Write.apply, assigned_removeUser, Write.Takes]
      by_cases same : user = user' <;> simp [same]

/-! ### Assignments name stored roles -/

/-- The tables are as writes leave them: whatever is assigned is stored. -/
structure Linked (s : RoleStore) : Prop extends s.Lawful where
  stored : ∀ {user id}, id ∈ s.assigned user → s.roles.contains id = true

theorem linked_empty : empty.Linked := ⟨lawful_empty, nofun⟩

theorem Lawful.write (lawful : s.Lawful) (w : Write) : (w.apply s).Lawful := by
  cases w with
  | put r => exact lawful.put
  | delete id => exact lawful.delete
  | replacePermissions id permissions =>
      rcases Write.apply_replacePermissions s id permissions with replaced | same
      · rw [replaced]
        exact lawful.adjustPermissions permissions
      · rw [same]
        exact lawful
  | assign user id =>
      rcases Write.apply_assign s user id with ⟨_, ids, _, assigned⟩ | ⟨_, same⟩
      · rw [assigned]
        exact lawful.assignTo ids
      · rw [same]
        exact lawful
  | revoke user id => exact lawful.revoke
  | removeUser user => exact lawful.removeUser

namespace Linked

variable (linked : s.Linked)

include linked

/-- Every write keeps the tables linked: what is assigned afterwards was not deleted. -/
theorem write (w : Write) : (w.apply s).Linked := by
  refine ⟨linked.toLawful.write w, fun {user id} assigned => ?_⟩
  rcases mem_assigned_apply_iff.mp assigned with ⟨rfl, known⟩ | ⟨before, untaken⟩
  · exact contains_apply_iff.mpr (Or.inr ⟨known, nofun⟩)
  · refine contains_apply_iff.mpr (Or.inr ⟨linked.stored before, ?_⟩)
    rintro rfl
    exact untaken rfl

/-- A user holds a role when it is among the roles of the user. -/
theorem mem_holders_iff_ofUser :
    user ∈ s.holders id ↔ ∃ r, s.find? id = some r ∧ r ∈ s.ofUser user := by
  rw [linked.mem_holders_iff]
  constructor
  · intro assigned
    obtain ⟨r, found⟩ := Option.isSome_iff_exists.mp (linked.stored assigned)
    obtain rfl := linked.ownId id r found
    exact ⟨r, found, linked.mem_ofUser_iff.mpr ⟨found, assigned⟩⟩
  · rintro ⟨r, found, listed⟩
    obtain rfl := linked.ownId id r found
    exact (linked.mem_ofUser_iff.mp listed).2

/-- A user has roles when it holds one of those that are listed. -/
theorem ofUser_ne_nil_iff : s.ofUser user ≠ [] ↔ ∃ r ∈ s.list, user ∈ s.holders r.id := by
  rw [ne_eq, List.eq_nil_iff_forall_not_mem, not_forall_not]
  refine exists_congr fun r => ?_
  rw [linked.mem_ofUser_iff, linked.mem_list_iff, linked.mem_holders_iff]

end Linked

/-- Writes keep the tables linked. -/
theorem Linked.writeAll (linked : s.Linked) (writes : List Write) : (s.writeAll writes).Linked := by
  induction writes generalizing s with
  | nil => exact linked
  | cons w rest ih => exact ih (linked.write w)

/-! ### Reading the tables off the run -/

/-- What some writes bring about and others undo is so after writes if it was so and none has undone it, or
one has brought it about and none has undone it since. -/
theorem writeAll_iff (P : RoleStore → Prop) {Sets : RoleStore → Write → Prop} (Undoes : Write → Prop)
    (step : ∀ s w, P (w.apply s) ↔ Sets s w ∨ P s ∧ ¬ Undoes w) :
    P (s.writeAll writes) ↔ (P s ∧ ∀ w ∈ writes, ¬ Undoes w) ∨
      ∃ before w after, writes = before ++ w :: after ∧ Sets (s.writeAll before) w ∧
        ∀ w' ∈ after, ¬ Undoes w' := by
  induction writes generalizing s with
  | nil => simp [writeAll]
  | cons w rest ih =>
      rw [writeAll_cons, ih, step]
      constructor
      · rintro (⟨sets | ⟨held, kept⟩, later⟩ | ⟨before, w', after, rfl, sets, later⟩)
        · exact Or.inr ⟨[], w, rest, rfl, sets, later⟩
        · exact Or.inl ⟨held, List.forall_mem_cons.mpr ⟨kept, later⟩⟩
        · exact Or.inr ⟨w :: before, w', after, rfl, sets, later⟩
      · rintro (⟨held, kept⟩ | ⟨before, w', after, run, sets, later⟩)
        · obtain ⟨kept, later⟩ := List.forall_mem_cons.mp kept
          exact Or.inl ⟨Or.inr ⟨held, kept⟩, later⟩
        · cases before with
          | nil =>
              cases run
              exact Or.inl ⟨Or.inl sets, later⟩
          | cons first before =>
              cases run
              exact Or.inr ⟨before, w', after, rfl, sets, later⟩

/-- A role is stored that was put and not deleted since. -/
theorem contains_writeAll_iff : (s.writeAll writes).roles.contains id = true ↔
    (s.roles.contains id = true ∧ .delete id ∉ writes) ∨
      ∃ before r after, writes = before ++ .put r :: after ∧ id = r.id ∧ .delete id ∉ after := by
  rw [writeAll_iff (fun s => s.roles.contains id = true) (fun w => w = .delete id)
    (fun s w => contains_apply_iff)]
  simp only [List.forall_mem_ne']
  refine or_congr_right ⟨?_, ?_⟩
  · rintro ⟨before, _, after, run, ⟨r, rfl, own⟩, later⟩
    exact ⟨before, r, after, run, own, later⟩
  · rintro ⟨before, r, after, run, own, later⟩
    exact ⟨before, _, after, run, ⟨r, rfl, own⟩, later⟩

/-- A user has a role that was assigned to the user, while it was stored, and not taken since. -/
theorem mem_assigned_writeAll_iff : id ∈ (s.writeAll writes).assigned user ↔
    (id ∈ s.assigned user ∧ ∀ w ∈ writes, ¬ w.Takes user id) ∨
      ∃ before after, writes = before ++ .assign user id :: after ∧
        (s.writeAll before).roles.contains id = true ∧ ∀ w ∈ after, ¬ w.Takes user id := by
  rw [writeAll_iff (fun s => id ∈ s.assigned user) (Write.Takes user id)
    (fun s w => mem_assigned_apply_iff)]
  refine or_congr_right ⟨?_, ?_⟩
  · rintro ⟨before, _, after, run, ⟨rfl, known⟩, later⟩
    exact ⟨before, after, run, known, later⟩
  · rintro ⟨before, after, run, known, later⟩
    exact ⟨before, _, after, run, ⟨rfl, known⟩, later⟩

/-- A deleted role that is put again is nobody's until it is assigned again. What is assigned in between is
refused, as the role is not stored. -/
theorem assigned_of_put_again (absent : ∀ r', .put r' ∈ between → id ≠ r'.id)
    (unassigned : .assign user id ∉ after) :
    id ∉ (s.writeAll (before ++ .delete id :: (between ++ .put r :: after))).assigned user := by
  rw [writeAll_append, writeAll_cons, writeAll_append]
  obtain ⟨deleted, same⟩ : ∃ deleted, (Write.delete id).apply (s.writeAll before) = deleted := ⟨_, rfl⟩
  have unknown : ¬ deleted.roles.contains id = true := by
    rw [← same, contains_apply_iff]
    simp
  have unheld : id ∉ deleted.assigned user := by
    rw [← same, mem_assigned_apply_iff]
    simp [Write.Takes]
  rw [same]
  have noneBetween : id ∉ (deleted.writeAll between).assigned user := by
    intro assigned
    rcases mem_assigned_writeAll_iff.mp assigned with ⟨before, _⟩ | ⟨first, rest, rfl, known, _⟩
    · exact unheld before
    rcases contains_writeAll_iff.mp known with ⟨before, _⟩ | ⟨first, r', later, rfl, own, _⟩
    · exact unknown before
    · exact absent r' (by simp) own
  intro assigned
  rcases mem_assigned_writeAll_iff.mp assigned with ⟨before, _⟩ | ⟨first, rest, run, _⟩
  · exact noneBetween before
  · have mem : Write.assign user id ∈ Write.put r :: after := by simp [run]
    rcases List.mem_cons.mp mem with put | later
    · cases put
    · exact unassigned later

end Gatehouse.RoleStore
