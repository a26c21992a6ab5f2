import Gatehouse.Attempt
import Gatehouse.Proofs.Outcome

/-!
How attempts end.

An attempt that `Looks` leaves the state as it is, one that `Succeeds` does not fail, and one that is `Atomic` leaves
the state as it is if it fails. What looks first and writes when nothing can fail any more is atomic
(`Looks.bind_atomic` and `Atomic.bind_succeeds`); what writes and may fail afterwards need not be.
-/

namespace Gatehouse.Attempt

open Outcome

variable {σ α β : Type} {x : Attempt σ α} {f : α → Attempt σ β} {result : Except Error α} {s t : σ}
  {E : Error → Prop}

/-! ### One part after the other -/

theorem run_bind_of_ok {a : α} (done : run x s = (.ok a, t)) : run (x >>= f) s = run (f a) t := by
  rw [run_bind, done]

theorem run_bind_of_error {err : Error} (failed : run x s = (.error err, t)) :
    run (x >>= f) s = (.error err, t) := by
  rw [run_bind, failed]

/-- An attempt succeeds when each part does, beginning with what the one before left. -/
theorem run_bind_eq_ok {b : β} : run (x >>= f) s = (.ok b, t) ↔
    ∃ a between, run x s = (.ok a, between) ∧ run (f a) between = (.ok b, t) := by
  constructor
  · intro done
    rcases first : run x s with ⟨err | a, between⟩
    · rw [run_bind_of_error first] at done
      cases done
    · rw [run_bind_of_ok first] at done
      exact ⟨a, between, rfl, done⟩
  · rintro ⟨a, between, first, done⟩
    rw [run_bind_of_ok first, done]

theorem run_lift_bind_eq_ok {b : β} : run (liftM result >>= f) s = (.ok b, t) ↔
    ∃ a, result = .ok a ∧ run (f a) s = (.ok b, t) := by
  rw [run_bind, run_lift]
  cases result <;> simp

theorem run_ok_bind {a : α} : run (liftM (Except.ok a : Except Error α) >>= f) s = run (f a) s :=
  run_bind_of_ok rfl

theorem run_get_bind {f : σ → Attempt σ β} : run (get >>= f) s = run (f s) s := run_bind_of_ok rfl

theorem failsOnly_bind (first : FailsOnly E (run x s).1)
    (rest : ∀ a t, run x s = (.ok a, t) → FailsOnly E (run (f a) t).1) :
    FailsOnly E (run (x >>= f) s).1 := by
  intro err failed
  rcases ended : run x s with ⟨err' | a, t⟩
  · rw [run_bind_of_error ended] at failed
    cases failed
    exact first err (congrArg Prod.fst ended)
  · rw [run_bind_of_ok ended] at failed
    exact rest a t ended err failed

theorem failsOnly_lift_bind (first : FailsOnly E result)
    (rest : ∀ a, result = .ok a → FailsOnly E (run (f a) s).1) :
    FailsOnly E (run (liftM result >>= f) s).1 := by
  refine failsOnly_bind first fun a t ended => ?_
  obtain ⟨done, rfl⟩ := Prod.mk.inj ended
  exact rest a done

/-! ### Attempts that leave no trace -/

/-- The state stays as it is. -/
def Looks (x : Attempt σ α) : Prop := ∀ s, (run x s).2 = s

/-- Nothing fails. -/
def Succeeds (x : Attempt σ α) : Prop := ∀ s, ∃ a t, run x s = (.ok a, t)

/-- A failure leaves the state as it was. -/
def Atomic (x : Attempt σ α) : Prop := ∀ s err t, run x s = (.error err, t) → t = s

theorem looks_pure (a : α) : Looks (pure a : Attempt σ α) := fun _ => rfl

theorem looks_throw (err : Error) : Looks (throw err : Attempt σ α) := fun _ => rfl

theorem looks_get : Looks (get : Attempt σ σ) := fun _ => rfl

theorem looks_lift (result : Except Error α) : Looks (liftM result : Attempt σ α) := fun _ => rfl

theorem succeeds_modify (g : σ → σ) : Succeeds (modify g) := fun s => ⟨(), g s, rfl⟩

theorem Looks.atomic (looks : Looks x) : Atomic x := by
  intro s err t failed
  have same := looks s
  rwa [failed] at same

theorem Succeeds.atomic (succeeds : Succeeds x) : Atomic x := by
  intro s err t failed
  obtain ⟨a, t', done⟩ := succeeds s
  cases done.symm.trans failed

theorem Looks.bind (first : Looks x) (rest : ∀ a, Looks (f a)) : Looks (x >>= f) := by
  intro s
  have same := first s
  rcases ended : run x s with ⟨err | a, t⟩ <;> rw [ended] at same <;> cases same
  · rw [run_bind_of_error ended]
  · rw [run_bind_of_ok ended]
    exact rest a t

/-- To look before makes nothing less atomic. -/
theorem Looks.bind_atomic (first : Looks x) (rest : ∀ a, Atomic (f a)) : Atomic (x >>= f) := by
  intro s err u failed
  have same := first s
  rcases ended : run x s with ⟨err' | a, t⟩ <;> rw [ended] at same <;> cases same
  · rw [run_bind_of_error ended] at failed
    exact (Prod.mk.inj failed).2.symm
  · rw [run_bind_of_ok ended] at failed
    exact rest a t err u failed

/-- Nor does it to do what cannot fail afterwards. -/
theorem Atomic.bind_succeeds (first : Atomic x) (rest : ∀ a, Succeeds (f a)) : Atomic (x >>= f) := by
  intro s err u failed
  rcases ended : run x s with ⟨err' | a, t⟩
  · rw [run_bind_of_error ended] at failed
    cases failed
    exact first s err u ended
  · obtain ⟨b, v, done⟩ := rest a t
    rw [run_bind_of_ok ended, done] at failed
    cases failed

/-- What writes and then fails leaves what it has written. -/
example (err : Error) : run (do modify (· + 1); throw err : Attempt Nat Unit) 0 = (.error err, 1) := rfl

end Gatehouse.Attempt
