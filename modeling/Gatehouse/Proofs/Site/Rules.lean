import Gatehouse.Proofs.Site.Coherence

/-!
What a service keeps in its role store, whatever is done with it.

Nothing but the administration writes to the role store (`Step.roles_after`). So what every change of
roles keeps, every sequence of steps keeps (`play_keeps_roles`): the store stays orderly, and its system
roles stay as they are (`rules_after_play`). It does not matter whether calls succeed, are refused or
fail.
-/

namespace Gatehouse.Site

variable {m : Moment} {s : Site} {steps : List (Moment × Step)}
  {P : RoleStore → Prop}

/-- A step leaves the role store alone, or makes the change of a call to the administration. -/
theorem Step.roles_after (step : Step) : (step.after m s).roles = s.roles ∨
    ∃ (call : RoleCall) (c : Change), (call.change m.outage).run (.start s.roles) = (.ok (), c) ∧
      (step.after m s).roles = c.store := by
  cases step with
  | administer call =>
      rcases administer_roles m s call with same | ⟨c, done, same⟩
      · exact Or.inl same
      · exact Or.inr ⟨call, c, done, same⟩
  | load user => exact Or.inl rfl
  | invalidate user => exact Or.inl rfl
  | guard route request =>
      obtain ⟨cache, audit, after⟩ :=
        Chain.execute_standard_frame (m := m) (s := s) route request
      left
      simp only [Step.after, after]

/-- What every change keeps, every sequence of steps keeps. -/
theorem play_keeps_roles
    (keeps : ∀ (call : RoleCall) (o : Outage) (roles : RoleStore) (c : Change),
      (call.change o).run (.start roles) = (.ok (), c) → P roles → P c.store)
    (holds : P s.roles) : P (play steps s).roles := by
  induction steps generalizing s with
  | nil => exact holds
  | cons first rest ih =>
      obtain ⟨m, step⟩ := first
      have after : P (step.after m s).roles := by
        rcases step.roles_after (m := m) (s := s) with same | ⟨call, c, done, same⟩
        · rw [same]
          exact holds
        · rw [same]
          exact keeps call m.outage s.roles c done holds
      exact ih after

/-- **The rules of the role store hold at all times.** After every sequence of steps, names are unique
and not empty, every permission may be stored, and so has a resource pattern and an operation pattern
of three segments, and the system roles are those that the service started with, as they were then. -/
theorem rules_after_play (orderly : s.roles.Orderly) (steps : List (Moment × Step)) :
    (play steps s).roles.Orderly ∧
      (∀ r ∈ (play steps s).roles.list, ∀ p ∈ r.permissions, p.check = .ok () ∧ p.resource ≠ "" ∧
        ∃ scope resource action, Text.split ':' p.operation = [scope, resource, action]) ∧
      (play steps s).roles.systemRoles = s.roles.systemRoles := by
  -- The two go together: system roles stay as they are only in stores that are as changes leave them.
  obtain ⟨after, same⟩ : (play steps s).roles.Orderly ∧
      (play steps s).roles.systemRoles = s.roles.systemRoles := by
    refine play_keeps_roles (P := fun roles => roles.Orderly ∧
      roles.systemRoles = s.roles.systemRoles) ?_ ⟨orderly, rfl⟩
    rintro call o roles c done ⟨before, same⟩
    exact ⟨before.change done, (RoleStore.systemRoles_change before.toLawful done).trans same⟩
  refine ⟨after, ?_, same⟩
  intro r listed p mem
  have checked := after.storable _ r (after.mem_list_iff.mp listed) p mem
  obtain ⟨scope, resource, action, segments, _⟩ :=
    Pattern.checkOperation_eq_ok_iff.mp (Permission.check_eq_ok_iff.mp checked).1
  exact ⟨checked, Permission.resource_ne_empty_of_check checked, scope, resource, action, segments⟩

/-! ### The roles of a new service -/

theorem orderly_builtIn : RoleStore.builtIn.Orderly where
  toLawful := RoleStore.seeded_builtIn.toLawful
  uniqueNames := RoleStore.seeded_builtIn.unique
  named := by
    intro id r found
    have named : ∀ r ∈ RoleStore.builtIn.list, r.name ≠ "" := by decide
    exact named r (RoleStore.seeded_builtIn.mem_list_of_find? found)
  storable := RoleStore.seeded_builtIn.every_storable

/-- A role is made and given a permission, and everything else that is tried is refused: to empty or delete
the role of everyone, and to make another of its name or one that is built in. -/
theorem system_roles_after_tampering :
    let s := { Site.start .default .log 0 with roles := .builtIn }
    let auditor : Role := ⟨7, "auditor", "Auditor", false, [.everywhere "sys:audit:*"]⟩
    let steps : List (Moment × Step) :=
      [(default, .administer (.createRole auditor)),
        (default, .administer (.setPermissions 7 [⟨"org:team:*", ""⟩])),
        (default, .administer (.setPermissions 2 [])), (default, .administer (.deleteRole 2)),
        (default, .administer (.createRole { auditor with id := 8, name := Role.everyone })),
        (default, .administer (.createRole { auditor with id := 9, name := "root", isSystem := true }))]
    s.roles.Orderly ∧ (play steps s).roles.Orderly ∧
      (play steps s).roles.systemRoles = RoleStore.builtIn.systemRoles := by
  intro s auditor steps
  obtain ⟨orderly, _, same⟩ := rules_after_play (s := s) orderly_builtIn steps
  exact ⟨orderly_builtIn, orderly, same⟩

end Gatehouse.Site
