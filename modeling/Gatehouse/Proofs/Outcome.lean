import Gatehouse.Error

/-!
When a computation that may fail succeeds, and whose fault it is when it fails.

An error is explained (`Outage.Explains`) if the request is at fault, or a store that is down. What is
composed of steps whose errors are all accounted for in this way fails in no other way
(`Outage.Accounts.bind`).
-/

namespace Gatehouse

variable {ε α β : Type}

theorem Outcome.bind_eq_ok {x : Except ε α} {f : α → Except ε β} {b : β} :
    x >>= f = .ok b ↔ ∃ a, x = .ok a ∧ f a = .ok b := by
  cases x with
  | error e => simp [bind, Except.bind]
  | ok a => simp [bind, Except.bind]

theorem Outcome.map_eq_ok {x : Except ε α} {f : α → β} {b : β} :
    f <$> x = .ok b ↔ ∃ a, x = .ok a ∧ f a = b := by
  cases x with
  | error e => simp [Functor.map, Except.map]
  | ok a => simp [Functor.map, Except.map]

/-- A store answers when the call does not fail. -/
theorem Outage.reach_eq_ok {o : Outage} {call : StoreCall} {answer a : α} :
    o.reach call answer = .ok a ↔ o.stores call = false ∧ answer = a := by
  unfold reach
  split
  · rename_i down
    simp [down]
  · rename_i up
    simp [up]

/-- While no call to a store fails, stores answer. -/
theorem Outage.reach_of_up {o : Outage} (up : o.stores = fun _ => false) {call : StoreCall}
    {answer : α} : o.reach call answer = .ok answer :=
  reach_eq_ok.mpr ⟨congrFun up call, rfl⟩

/-! ### Which errors a computation ends with -/

variable {o : Outage} {x : Except Error α} {f : α → Except Error β} {err : Error}

namespace Outcome

variable {E : Error → Prop}

/-- Whatever error a computation ends with has a property. -/
def FailsOnly (E : Error → Prop) (x : Except Error α) : Prop := ∀ err, x = .error err → E err

theorem failsOnly_ok (a : α) : FailsOnly E (.ok a) := nofun

theorem failsOnly_error (holds : E err) : FailsOnly E (.error err : Except Error α) := by
  rintro _ ⟨⟩
  exact holds

theorem failsOnly_reach {call : StoreCall} (answer : α)
    (down : o.stores call = true → E (.storeDown call)) : FailsOnly E (o.reach call answer) := by
  intro err failed
  unfold Outage.reach at failed
  split at failed
  · rename_i fails
    cases failed
    exact down fails
  · cases failed

theorem FailsOnly.bind (first : FailsOnly E x) (rest : ∀ a, x = .ok a → FailsOnly E (f a)) :
    FailsOnly E (x >>= f) := by
  intro err failed
  cases x with
  | error e =>
      cases failed
      exact first _ rfl
  | ok a => exact rest a rfl err failed

theorem FailsOnly.map {g : α → β} (only : FailsOnly E x) : FailsOnly E (g <$> x) := by
  intro err failed
  cases x with
  | error e =>
      cases failed
      exact only _ rfl
  | ok a => cases failed

end Outcome

/-! ### Whose fault a failure is -/

namespace Outage

/-- The request is at fault, or a store that is down. -/
def Explains (o : Outage) (err : Error) : Prop :=
  err.kind.isRejection = true ∨ ∃ call, o.stores call = true ∧ err = .storeDown call

/-- Whatever error a computation ends with is explained. -/
def Accounts (o : Outage) (x : Except Error α) : Prop := ∀ err, x = .error err → o.Explains err

/-- While no call to a store fails, it is the request. -/
theorem Explains.isRejection (explains : o.Explains err) (up : o.stores = fun _ => false) :
    err.kind.isRejection = true := by
  rcases explains with rejection | ⟨call, down, _⟩
  · exact rejection
  · rw [up] at down
    cases down

theorem explains_storeDown {call : StoreCall} (down : o.stores call = true) :
    o.Explains (.storeDown call) :=
  Or.inr ⟨call, down, rfl⟩

theorem accounts_ok (a : α) : o.Accounts (.ok a) := Outcome.failsOnly_ok a

theorem accounts_rejection (rejection : err.kind.isRejection = true) :
    o.Accounts (.error err : Except Error α) :=
  Outcome.failsOnly_error (Or.inl rejection)

theorem accounts_reach (call : StoreCall) (answer : α) : o.Accounts (o.reach call answer) :=
  Outcome.failsOnly_reach answer explains_storeDown

theorem Accounts.bind (first : o.Accounts x) (rest : ∀ a, x = .ok a → o.Accounts (f a)) :
    o.Accounts (x >>= f) :=
  Outcome.FailsOnly.bind first rest

end Outage

end Gatehouse
