import Gatehouse.Http.Service

/-!
What the web interface does before and around its endpoints.

A message is for the first endpoint at its path that answers its method (`Message.endpoint?`). If there
is one, it decides about the status of the answer and about what changes
(`respond_of_endpoint?_eq_some`), once the chain of its route has let the message pass
(`guarded_of_ok`). If there is none, nothing changes (`respond_of_endpoint?_eq_none`).
-/

namespace Gatehouse.Http

variable {m : Moment} {msg : Message} {s : Site} {ctx : Context} {e : Endpoint}

namespace Endpoint

/-! ### The endpoints that write -/

theorem handle_createToken : createToken.handle m msg ctx s = issueToken m msg ctx s := rfl

theorem handle_setPermissions : setPermissions.handle m msg ctx s = changeRole m msg s := rfl

/-! ### Bodies -/

theorem readBody_eq_ok {α : Type} {read : Json.Reader α} {a : α}
    (done : readBody read msg = .ok a) : ∃ j, read j = .ok a := by
  unfold readBody at done
  split at done
  · cases done
  split at done
  · rename_i decoded
    cases done
    exact ⟨_, decoded⟩
  · cases done
  · cases done

/-- A body that cannot be read is answered with an explanation, and it is the sender's fault. -/
theorem explain_of_readBody {α : Type} {read : Json.Reader α} {r : Response}
    (failed : readBody read msg = .error r) : ∃ status words, r = .explain status words ∧
      400 ≤ status ∧ status < 500 := by
  unfold readBody at failed
  split at failed
  · cases failed
    exact ⟨_, _, rfl, by decide, by decide⟩
  split at failed
  · cases failed
  · cases failed
    exact ⟨_, _, rfl, by decide, by decide⟩
  · cases failed
    exact ⟨_, _, rfl, by decide, by decide⟩

end Endpoint

/-! ### Chains -/

theorem Endpoint.paired (e : Endpoint) : e.route.needsTeam = true → e.route.needsOrg = true := by
  cases e <;> decide

section Guarded

variable {result : Chain.Result Site}

theorem guarded_of_ok (ran : e.chain.run m (msg.request e.route) s = result)
    (passes : result.outcome = .ok ()) :
    guarded m msg e s =
      ((e.handle m msg result.context result.state).1.withHeader requestIdHeader
        result.context.requestId.text, (e.handle m msg result.context result.state).2) := by
  unfold guarded
  simp only [ran, passes]

theorem guarded_of_error {err : Error} (ran : e.chain.run m (msg.request e.route) s = result)
    (refused : result.outcome = .error err) :
    guarded m msg e s =
      ((Response.ofError err).withHeader requestIdHeader result.context.requestId.text,
        result.state) := by
  unfold guarded
  simp only [ran, refused]

/-- The endpoint decides about the status of the answer and what changes. -/
theorem guarded_frame_of_ok (ran : e.chain.run m (msg.request e.route) s = result)
    (passes : result.outcome = .ok ()) :
    (guarded m msg e s).1.status = (e.handle m msg result.context result.state).1.status ∧
      (guarded m msg e s).2 = (e.handle m msg result.context result.state).2 := by
  rw [guarded_of_ok ran passes]
  exact ⟨rfl, rfl⟩

end Guarded

/-! ### Finding the endpoint -/

/-- The endpoint that a message is for. -/
def Message.endpoint? (msg : Message) : Option Endpoint :=
  if msg.method = "OPTIONS" then none
  else (Endpoint.all.filter (·.isAt msg.path)).find? (·.methods.contains msg.method)

theorem Message.methods_of_endpoint? (found : msg.endpoint? = some e) :
    e.methods.contains msg.method = true := by
  unfold endpoint? at found
  split at found
  · cases found
  · have answers := List.find?_some found
    exact answers

theorem dispatch_of_endpoint?_eq_some (found : msg.endpoint? = some e) :
    dispatch m msg s = (if msg.method = "HEAD" then (guarded m msg e s).1.withoutBody
      else (guarded m msg e s).1, (guarded m msg e s).2) := by
  unfold Message.endpoint? at found
  split at found
  · cases found
  · rename_i asksNoLeave
    unfold dispatch
    simp only [asksNoLeave, if_false, found]

/-- Without an endpoint a message is told so, or what endpoints there are. -/
theorem dispatch_of_endpoint?_eq_none (unrouted : msg.endpoint? = none) : ∃ status headers,
    (status = 200 ∨ status = 404 ∨ status = 405) ∧
      dispatch m msg s = (⟨status, headers, .empty⟩, s) := by
  unfold Message.endpoint? at unrouted
  unfold dispatch
  simp only
  -- What matters is whether there are endpoints at the path, and not which.
  generalize String.intercalate "," _ = allowed
  split at unrouted
  · rename_i asksLeave
    rw [if_pos asksLeave]
    generalize (Endpoint.all.filter (·.isAt msg.path)).isEmpty = unknown
    cases unknown <;> exact ⟨200, _, Or.inl rfl, rfl⟩
  · rename_i asksNoLeave
    rw [if_neg asksNoLeave, unrouted]
    generalize (Endpoint.all.filter (·.isAt msg.path)).isEmpty = unknown
    cases unknown
    · exact ⟨405, _, Or.inr (Or.inr rfl), rfl⟩
    · exact ⟨404, _, Or.inr (Or.inl rfl), rfl⟩

theorem respond_eq (m : Moment) (msg : Message) (s : Site) : ∃ headers,
    respond m msg s = ({ (dispatch m msg s).1 with headers }, (dispatch m msg s).2) := by
  unfold respond
  exact ⟨_, rfl⟩

/-- The endpoint decides about the status of the answer and what changes. -/
theorem respond_of_endpoint?_eq_some (found : msg.endpoint? = some e) :
    (respond m msg s).1.status = (guarded m msg e s).1.status ∧
      (respond m msg s).2 = (guarded m msg e s).2 := by
  obtain ⟨headers, same⟩ := respond_eq m msg s
  rw [same, dispatch_of_endpoint?_eq_some found]
  generalize guarded m msg e s = answer
  refine ⟨?_, rfl⟩
  simp only
  split <;> rfl

/-- Unless only the head of the answer is asked for, the endpoint decides about all of it but its headers,
once the chain has let the message pass. -/
theorem respond_of_ok {result : Chain.Result Site} (found : msg.endpoint? = some e)
    (whole : msg.method ≠ "HEAD") (ran : e.chain.run m (msg.request e.route) s = result)
    (passes : result.outcome = .ok ()) : ∃ headers, respond m msg s =
      ({ (e.handle m msg result.context result.state).1 with headers },
        (e.handle m msg result.context result.state).2) := by
  obtain ⟨headers, same⟩ := respond_eq m msg s
  refine ⟨headers, ?_⟩
  rw [same, dispatch_of_endpoint?_eq_some found, if_neg whole, guarded_of_ok ran passes]
  rfl

/-- Without an endpoint nothing changes. -/
theorem respond_of_endpoint?_eq_none (unrouted : msg.endpoint? = none) :
    ((respond m msg s).1.status = 200 ∨ (respond m msg s).1.status = 404 ∨
      (respond m msg s).1.status = 405) ∧ (respond m msg s).2 = s := by
  obtain ⟨headers, same⟩ := respond_eq m msg s
  obtain ⟨status, _, possible, refused⟩ :=
    dispatch_of_endpoint?_eq_none (m := m) (s := s) unrouted
  rw [same, refused]
  exact ⟨possible, rfl⟩

end Gatehouse.Http
