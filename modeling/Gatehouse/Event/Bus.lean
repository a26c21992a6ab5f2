import Gatehouse.Error
import Gatehouse.Event.Basic

/-!
Delivery of events.

A published event goes to every subscription whose pattern covers its topic, in the order of the
subscriptions. A handler that fails keeps no other from running, and the publisher does not learn of
it. Handlers work on a state of any type `σ`.
-/

namespace Gatehouse

variable {σ : Type}

/-- A handler of the events whose topics a pattern covers. -/
structure Subscription (σ : Type) where
  pattern : String
  handle : Event → σ → Except Error Unit × σ

namespace Subscription

/-- The subscriptions that an event goes to. -/
def due (subscriptions : List (Subscription σ)) (e : Event) : List (Subscription σ) :=
  subscriptions.filter fun s => Topic.covers s.pattern e.topic

/-- The state after every handler has run, whether it fails or not. -/
def runAll (e : Event) : List (Subscription σ) → σ → σ
  | [], s => s
  | sub :: rest, s => runAll e rest (sub.handle e s).2

/-- Delivers an event: the number of handlers that ran, and the state after them. -/
def publish (subscriptions : List (Subscription σ)) (e : Event) (s : σ) : Nat × σ :=
  let due := due subscriptions e
  (due.length, runAll e due s)

end Subscription

end Gatehouse
