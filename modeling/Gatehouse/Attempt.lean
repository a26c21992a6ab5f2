import Gatehouse.Error

/-!
Work on a state that may fail half-way.

An attempt ends with a result or with an error, and in both cases with the state as it is then: what was
written before an error stays written.
-/

namespace Gatehouse

/-- Work on a state of type `σ`. -/
abbrev Attempt (σ α : Type) : Type := ExceptT Error (StateM σ) α

namespace Attempt

variable {σ α β : Type} {x : Attempt σ α} {f : α → Attempt σ β} {s : σ}

/-- How an attempt ends, and the state it leaves. -/
def run (x : Attempt σ α) (s : σ) : Except Error α × σ := StateT.run (ExceptT.run x) s

@[simp] theorem run_pure (a : α) : run (pure a) s = (.ok a, s) := rfl

@[simp] theorem run_throw (err : Error) : run (throw err : Attempt σ α) s = (.error err, s) := rfl

@[simp] theorem run_get : run (get : Attempt σ σ) s = (.ok s, s) := rfl

@[simp] theorem run_modify (g : σ → σ) : run (modify g) s = (.ok (), g s) := rfl

/-- A computation that knows nothing of the state leaves it alone. -/
@[simp] theorem run_lift (result : Except Error α) : run (liftM result) s = (result, s) := rfl

/-- What comes next begins with the state that the first part leaves, unless that fails. -/
theorem run_bind : run (x >>= f) s =
    match run x s with
    | (.ok a, t) => run (f a) t
    | (.error err, t) => (.error err, t) := by
  unfold run
  rw [ExceptT.run_bind, StateT.run_bind]
  rcases StateT.run (ExceptT.run x) s with ⟨_ | _, _⟩ <;> rfl

end Attempt

end Gatehouse
