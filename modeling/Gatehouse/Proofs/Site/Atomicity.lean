import Gatehouse.Proofs.Role.Atomicity
import Gatehouse.Proofs.Site.Publish

/-!
Changes of roles are made as a whole or not at all.

What a change has written and published when it fails would remain. But every call to the administration
writes once, after all that it checks, and nothing after that can fail (`RoleCall.change_atomic`). So a call
that ends with an error leaves the whole service as it was, the cache, its statistics and what listeners have
heard included, wherever on its way it failed and whichever calls to the stores fail. The main statement is
`administer_atomic`.
-/

namespace Gatehouse.Site

/-- **Changes of roles are atomic.** Whatever is stored and cached and whichever calls fail, a call that
ends with an error changes nothing: no role, no assignment, no entry and no count of the cache. It has not
written to the store on its way, nor published any event. While the stores answer, a call fails only if it is
not admissible. And a call that sets the permissions of a role leaves them as they were given, in their order,
with every resource for those without a resource pattern, and every other role and all assignments as they
were. -/
theorem administer_atomic (m : Moment) (s : Site) (call : RoleCall) :
    (∀ err, (s.administer m call.change).1 = .error err →
        (s.administer m call.change).2 = s ∧
          ((call.change m.outage).run (.start s.roles)).2 = .start s.roles) ∧
      (m.outage.stores = (fun _ => false) →
        ((s.administer m call.change).1 = .ok () ↔ call.Admissible s.roles)) ∧
      ∀ id permissions, call = .setPermissions id permissions →
        (s.administer m call.change).1 = .ok () →
          s.roles.Repermits id (permissions.map fun p => Permission.on p.operation p.resource)
            (s.administer m call.change).2.roles := by
  refine ⟨fun err => administer_of_error, fun up => ?_, ?_⟩
  · rw [administer_ok_iff]
    exact RoleCall.change_ok_iff up
  · rintro id permissions rfl done
    obtain ⟨c, changed⟩ := administer_ok_iff.mp done
    rw [administer_of_run changed, publishAll_roles]
    exact RoleStore.repermits_of_setPermissions changed

/-- A permission that cannot be stored keeps the one before it from being stored. That one alone is
stored, for every resource. -/
theorem auditor_repermitted :
    let auditor : Role := ⟨7, "auditor", "Auditor", false, [.everywhere "sys:audit:*"]⟩
    let s := { Site.start .default .log 0 with roles := RoleStore.builtIn.put auditor }
    let whole : RoleCall := .setPermissions 7 [⟨"org:team:*", ""⟩]
    let broken : RoleCall := .setPermissions 7 [⟨"org:team:*", ""⟩, ⟨"org:t*am:get", ""⟩]
    (s.administer default broken.change).1 = .error (.pattern (.partialWildcard "t*am")) ∧
      (s.administer default broken.change).2 = s ∧
      s.roles.Repermits 7 [⟨"org:team:*", "*"⟩] (s.administer default whole.change).2.roles := by
  intro auditor s whole broken
  have refused : (s.administer default broken.change).1 =
      .error (.pattern (.partialWildcard "t*am")) := by decide
  have done : (s.administer default whole.change).1 = .ok () := by decide
  obtain ⟨unchanged, _⟩ := administer_atomic default s broken
  obtain ⟨_, _, replaced⟩ := administer_atomic default s whole
  exact ⟨refused, (unchanged _ refused).1, replaced 7 _ rfl done⟩

end Gatehouse.Site
