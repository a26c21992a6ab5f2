import Gatehouse.Proofs.Credential.Issued
import Gatehouse.Proofs.Http.Service
import Gatehouse.Proofs.Json.Record
import Gatehouse.Proofs.Site.Admission
import Gatehouse.Proofs.Site.Publish

/-!
Which answers of the web interface issue a token.

An answer either issues nothing, or it issues the token that the body of the message orders, for the
caller that the request proves (`respond_cases`). A request that is admitted, with an order that can
be met, is answered in the second way (`respond_issues`).
-/

namespace Gatehouse

/-- A token is issued to the owner of the order, with the scopes ordered. -/
theorem Token.of_issue {order : Order} {token : Token} {id secret : String} {now : Timestamp}
    (issued : issue order id secret now = .ok token) :
    Scopes.normalize order.scopes = .ok token.scopes ∧ token.owner = order.owner ∧
      token.hash = hashOf secret := by
  have made : MadeTo order secret token := madeTo_of_issue issued
  exact ⟨made.scopes, made.owner, made.hash⟩

namespace Http

/-- The secret that an answer gives away. -/
def Response.secret? (r : Response) : Option String :=
  match r.body with
  | .json (.object members) =>
      match members.lookup "token" with
      | some (.string secret) => some secret
      | _ => none
  | _ => none

/-- An answer that gives no secret away and leaves the stored tokens as they were. -/
structure IssuesNothing (s : Site) (answer : Response × Site) : Prop where
  status : answer.1.status ≠ 201
  secret : answer.1.secret? = none
  tokens : answer.2.tokens = s.tokens

/-- An answer that issues the token that the body of a message orders, and gives its secret away. -/
structure Issues (m : Moment) (msg : Message) (s : Site) (order : Token.Order) (token : Token)
    (answer : Response × Site) : Prop where
  ordered : Endpoint.readBody (Endpoint.readOrder order.owner) msg = .ok order
  issued : Token.issue order m.tokenId.text (Token.secretOf s.config.tokenPrefix m.nonce) m.now =
    .ok token
  status : answer.1.status = 201
  secret : answer.1.secret? = some (Token.secretOf s.config.tokenPrefix m.nonce)
  tokens : answer.2.tokens = s.tokens.insert token

variable {m : Moment} {msg : Message} {s s' : Site} {ctx : Context} {user : UserId}
  {order : Token.Order} {token : Token} {e : Endpoint}

/-! ### Orders -/

namespace Endpoint

/-- Whatever a body says, its order is for the owner that it is read for. -/
theorem readOrder_owner {j : Json} (read : readOrder user j = .ok order) : order.owner = user := by
  refine Json.readRecord_keeps (P := fun order => order.owner = user) ?_ read rfl
  intro field mem
  simp only [orderFields, List.mem_cons, List.not_mem_nil, or_false] at mem
  rcases mem with rfl | rfl | rfl | rfl <;> exact Json.RecordField.of_keeps fun _ _ owned => owned

end Endpoint

/-! ### Answers that issue nothing -/

theorem issuesNothing_explain {status : Nat} {words : String} (other : status ≠ 201) :
    IssuesNothing s (.explain status words, s) :=
  ⟨other, rfl, rfl⟩

theorem issuesNothing_ofError (err : Error) (kept : s'.tokens = s.tokens) :
    IssuesNothing s (.ofError err, s') where
  status := by
    have other : ∀ kind : Kind, kind.status ≠ 201 := by
      intro kind
      cases kind <;> decide
    exact other err.kind
  secret := rfl
  tokens := kept

/-- A computation that answers with no secret issues nothing, whether it fails or not. -/
theorem issuesNothing_answerWith {α : Type} {status : Nat} {encode : α → Json}
    {result : Except Error α} (other : status ≠ 201)
    (silent : ∀ a, result = .ok a → (Response.ofJson status (encode a)).secret? = none) :
    IssuesNothing s (Endpoint.answerWith status encode result, s) := by
  cases result with
  | error err => exact issuesNothing_ofError err rfl
  | ok a => exact ⟨other, silent a rfl, rfl⟩

namespace Endpoint

theorem issuesNothing_of_readBody {α : Type} {read : Json.Reader α} {r : Response}
    (failed : readBody read msg = .error r) : IssuesNothing s (r, s) := by
  obtain ⟨status, words, rfl, _, _⟩ := explain_of_readBody failed
  exact issuesNothing_explain (by omega)

theorem issuesNothing_changeRole : IssuesNothing s (changeRole m msg s) := by
  unfold changeRole
  split
  · exact issuesNothing_explain (by decide)
  split
  · rename_i failed
    exact issuesNothing_of_readBody failed
  rename_i role _ _ permissions _
  have kept : (s.administer m fun o =>
      Administration.setPermissions o role permissions).2.tokens = s.tokens :=
    Site.administer_tokens
  split <;> rename_i done <;> rw [done] at kept
  · exact ⟨by simp [Response.bare], rfl, kept⟩
  · exact issuesNothing_ofError _ kept

/-- Only one endpoint issues tokens. -/
theorem handle_issuesNothing (other : e ≠ .createToken) :
    IssuesNothing s (e.handle m msg ctx s) := by
  cases e with
  | health => exact ⟨by simp [handle, Response.ofJson], rfl, rfl⟩
  | tokenScopes => exact ⟨by simp [handle, Response.ofJson], rfl, rfl⟩
  | profile =>
      refine issuesNothing_answerWith (by decide) fun j shown => ?_
      obtain ⟨_, _, shown⟩ := Outcome.bind_eq_ok.mp shown
      cases shown
      rfl
  | listTokens =>
      refine issuesNothing_answerWith (by decide) fun j shown => ?_
      obtain ⟨_, _, shown⟩ := Outcome.bind_eq_ok.mp shown
      obtain ⟨_, _, shown⟩ := Outcome.bind_eq_ok.mp shown
      cases shown
      rfl
  | createToken => exact absurd rfl other
  | listUsers =>
      refine issuesNothing_answerWith (by decide) fun j shown => ?_
      obtain ⟨_, _, shown⟩ := Outcome.bind_eq_ok.mp shown
      obtain ⟨_, _, shown⟩ := Outcome.bind_eq_ok.mp shown
      cases shown
      rfl
  | cacheStats => exact ⟨by simp [handle, Response.ofJson], rfl, rfl⟩
  | setPermissions =>
      rw [handle_setPermissions]
      exact issuesNothing_changeRole
  | teamSettings =>
      refine issuesNothing_answerWith (by decide) fun j shown => ?_
      unfold showTeam at shown
      split at shown
      · cases shown
        rfl
      · cases shown

/-! ### The endpoint that issues tokens -/

/-- Either nothing is issued, or what the caller orders. -/
theorem issueToken_cases : IssuesNothing s (issueToken m msg ctx s) ∨
    ∃ user order token, ctx.user = some user ∧ order.owner = user ∧
      Issues m msg s order token (issueToken m msg ctx s) := by
  unfold issueToken
  split
  · rename_i failed
    exact Or.inl (issuesNothing_of_readBody failed)
  rename_i order ordered
  simp only
  split
  · exact Or.inl (issuesNothing_ofError _ rfl)
  · rename_i token done
    obtain ⟨user, called, done⟩ := Outcome.bind_eq_ok.mp done
    have known : ctx.user = some user := by
      unfold caller at called
      split at called
      · rename_i known
        rw [known, Except.ok.inj called]
      · cases called
    split at done
    · cases done
    obtain ⟨token', issued, done⟩ := Outcome.bind_eq_ok.mp done
    obtain ⟨_, rfl⟩ := Outage.reach_eq_ok.mp done
    rw [known, Option.getD_some] at ordered
    obtain ⟨j, read⟩ := readBody_eq_ok ordered
    have owned := readOrder_owner read
    refine Or.inr ⟨user, order, token', known, owned, ?_⟩
    exact ⟨owned ▸ ordered, issued, rfl, rfl, rfl⟩

/-- What a caller orders is issued if it has a name and can be met. -/
theorem issueToken_issues (calm : m.outage = .none) (known : ctx.user = some order.owner)
    (ordered : readBody (readOrder order.owner) msg = .ok order) (named : Text.trim order.name ≠ "")
    (issued : Token.issue order m.tokenId.text (Token.secretOf s.config.tokenPrefix m.nonce) m.now =
      .ok token) : Issues m msg s order token (issueToken m msg ctx s) := by
  have called : caller ctx = .ok order.owner := by
    unfold caller
    rw [known]
  have answer : issueToken m msg ctx s =
      (.ofJson 201 (.object (("token", .string (Token.secretOf s.config.tokenPrefix m.nonce)) ::
        tokenView m.now token)), { s with tokens := s.tokens.insert token }) := by
    unfold issueToken
    rw [known, Option.getD_some, ordered]
    simp only [called, issued, calm, Outage.reach_none, named, if_false, bind, Except.bind]
  rw [answer]
  exact ⟨ordered, issued, rfl, rfl, rfl⟩

end Endpoint

/-! ### The whole interface -/

/-- A service has the tokens and the settings of another. -/
structure SameTokens (s s' : Site) : Prop where
  tokens : s'.tokens = s.tokens
  config : s'.config = s.config

/-- Nothing changes on the way to an endpoint but what the cache holds and what has been recorded. -/
theorem Endpoint.chain_frame (m : Moment) (e : Endpoint) (request : Request) (s : Site) :
    ∃ cache audit, (e.chain.run m request s).state = { s with cache, audit } :=
  Chain.run_standard_frame e.route request

theorem Endpoint.chain_keeps {request : Request} :
    SameTokens s (e.chain.run m request s).state := by
  obtain ⟨cache, audit, after⟩ := e.chain_frame m request s
  rw [after]
  exact ⟨rfl, rfl⟩

/-- Whether an answer issues something is not a matter of its headers. -/
theorem IssuesNothing.withHeaders {answer : Response × Site} (nothing : IssuesNothing s' answer)
    (same : SameTokens s s') (headers : List (String × String)) :
    IssuesNothing s ({ answer.1 with headers }, answer.2) where
  status := nothing.status
  secret := nothing.secret
  tokens := nothing.tokens.trans same.tokens

theorem Issues.withHeaders {answer : Response × Site}
    (issues : Issues m msg s' order token answer) (same : SameTokens s s')
    (headers : List (String × String)) :
    Issues m msg s order token ({ answer.1 with headers }, answer.2) where
  ordered := issues.ordered
  issued := same.config ▸ issues.issued
  status := issues.status
  secret := same.config ▸ issues.secret
  tokens := issues.tokens.trans (congrArg (·.insert token) same.tokens)

theorem Endpoint.createToken_guarded : createToken.route.isPublic = false := by decide

/-- The endpoint that issues tokens knows the caller that the request proves. -/
theorem createToken_caller {result : Chain.Result Site}
    (ran : Endpoint.createToken.chain.run m (msg.request Endpoint.createToken.route) s = result)
    (passes : result.outcome = .ok ()) :
    ∃ identity, Proves m s (msg.request Endpoint.createToken.route) identity ∧
      result.context.user = some identity.user := by
  subst ran
  obtain ⟨id, identity, e, standing, p, audit, proves, _, _, known⟩ :=
    granted_of_passes Endpoint.createToken_guarded Endpoint.createToken.paired passes
  have chain : Endpoint.createToken.chain = .build Endpoint.createToken.route .standard := rfl
  refine ⟨identity, proves, ?_⟩
  rw [chain, known]
  exact Context.placed_user

/-- A guarded endpoint issues nothing, unless it is the one that issues tokens. That one issues
nothing, or what the caller orders. -/
theorem guarded_cases (m : Moment) (msg : Message) (e : Endpoint) (s : Site) :
    IssuesNothing s (guarded m msg e s) ∨
      e = .createToken ∧ ∃ identity order token,
        Proves m s (msg.request Endpoint.createToken.route) identity ∧
          order.owner = identity.user ∧ Issues m msg s order token (guarded m msg e s) := by
  obtain ⟨result, ran⟩ : ∃ result, e.chain.run m (msg.request e.route) s = result := ⟨_, rfl⟩
  have same : SameTokens s result.state := by
    rw [← ran]
    exact Endpoint.chain_keeps
  cases outcome : result.outcome with
  | error err =>
      rw [guarded_of_error ran outcome]
      exact Or.inl ((issuesNothing_ofError err same.tokens).withHeaders ⟨rfl, rfl⟩ _)
  | ok done =>
      rw [guarded_of_ok ran outcome]
      by_cases creates : e = .createToken
      · subst creates
        obtain ⟨identity, proves, known⟩ := createToken_caller ran outcome
        rw [Endpoint.handle_createToken]
        rcases Endpoint.issueToken_cases with nothing | ⟨user, order, token, called, owned, issues⟩
        · exact Or.inl (nothing.withHeaders same _)
        · obtain rfl := Option.some.inj (known.symm.trans called)
          exact Or.inr ⟨rfl, identity, order, token, proves, owned, issues.withHeaders same _⟩
      · have nothing : IssuesNothing result.state (e.handle m msg result.context result.state) :=
          Endpoint.handle_issuesNothing creates
        exact Or.inl (nothing.withHeaders same _)

/-- A request for a token that is admitted is answered with it. -/
theorem guarded_issues {identity : Identity} (calm : m.outage = .none)
    (proves : Proves m s (msg.request Endpoint.createToken.route) identity)
    (admits : Admits m s Endpoint.createToken.route (msg.request Endpoint.createToken.route)
      identity)
    (owned : order.owner = identity.user)
    (ordered : Endpoint.readBody (Endpoint.readOrder order.owner) msg = .ok order)
    (named : Text.trim order.name ≠ "")
    (issued : Token.issue order m.tokenId.text (Token.secretOf s.config.tokenPrefix m.nonce) m.now =
      .ok token) : Issues m msg s order token (guarded m msg .createToken s) := by
  obtain ⟨result, ran⟩ : ∃ result, Endpoint.createToken.chain.run m
      (msg.request Endpoint.createToken.route) s = result := ⟨_, rfl⟩
  have same : SameTokens s result.state := by
    rw [← ran]
    exact Endpoint.chain_keeps
  have passes : result.outcome = .ok () := by
    rw [← ran]
    exact passes_of_admitted Endpoint.createToken_guarded Endpoint.createToken.paired calm proves
      admits
  obtain ⟨identity', proves', known⟩ := createToken_caller ran passes
  obtain rfl := proves.unique proves'
  rw [← owned] at known
  rw [guarded_of_ok ran passes, Endpoint.handle_createToken]
  have issues : Issues m msg result.state order token
      (Endpoint.issueToken m msg result.context result.state) :=
    Endpoint.issueToken_issues calm known ordered named (same.config ▸ issued)
  exact issues.withHeaders same _

/-! ### Finding the endpoint -/

theorem Endpoint.not_answers_head : ¬ createToken.methods.contains "HEAD" = true := by decide

/-- Either a message is answered without an issue, or with the token that its sender orders. -/
theorem dispatch_cases : IssuesNothing s (dispatch m msg s) ∨
    ∃ identity order token,
      Proves m s (msg.request Endpoint.createToken.route) identity ∧ order.owner = identity.user ∧
        Issues m msg s order token (dispatch m msg s) := by
  cases found : msg.endpoint? with
  | none =>
      obtain ⟨status, headers, possible, refused⟩ := dispatch_of_endpoint?_eq_none found
      rw [refused]
      have other : status ≠ 201 := by omega
      exact Or.inl ⟨other, rfl, rfl⟩
  | some e =>
      have answers := Message.methods_of_endpoint? found
      have guardedCases := guarded_cases m msg e s
      rw [dispatch_of_endpoint?_eq_some found]
      generalize guarded m msg e s = answer at guardedCases ⊢
      rcases guardedCases with nothing | ⟨creates, identity, order, token, proves, owned, issues⟩
      · left
        split
        · exact ⟨nothing.status, rfl, nothing.tokens⟩
        · exact nothing
      · right
        split
        · rename_i head
          rw [creates, head] at answers
          exact absurd answers Endpoint.not_answers_head
        · exact ⟨identity, order, token, proves, owned, issues⟩

theorem dispatch_createToken (method : msg.method = "POST") (path : msg.path = "/tokens") :
    dispatch m msg s = guarded m msg .createToken s := by
  have found : msg.endpoint? = some .createToken := by
    unfold Message.endpoint?
    rw [method, path]
    decide
  have asksForBody : ¬ msg.method = "HEAD" := by
    rw [method]
    decide
  rw [dispatch_of_endpoint?_eq_some found, if_neg asksForBody]

/-- Either a message is answered without an issue, or with the token that its sender orders. -/
theorem respond_cases : IssuesNothing s (respond m msg s) ∨
    ∃ identity order token,
      Proves m s (msg.request Endpoint.createToken.route) identity ∧ order.owner = identity.user ∧
        Issues m msg s order token (respond m msg s) := by
  obtain ⟨headers, same⟩ := respond_eq m msg s
  rw [same]
  rcases dispatch_cases with nothing | ⟨identity, order, token, proves, owned, issues⟩
  · exact Or.inl (nothing.withHeaders ⟨rfl, rfl⟩ headers)
  · exact Or.inr ⟨identity, order, token, proves, owned, issues.withHeaders ⟨rfl, rfl⟩ headers⟩

/-- An order that can be met, by a caller that is admitted, is answered with the token. -/
theorem respond_issues {identity : Identity} (calm : m.outage = .none) (method : msg.method = "POST")
    (path : msg.path = "/tokens")
    (proves : Proves m s (msg.request Endpoint.createToken.route) identity)
    (admits : Admits m s Endpoint.createToken.route (msg.request Endpoint.createToken.route)
      identity)
    (owned : order.owner = identity.user)
    (ordered : Endpoint.readBody (Endpoint.readOrder order.owner) msg = .ok order)
    (named : Text.trim order.name ≠ "")
    (issued : Token.issue order m.tokenId.text (Token.secretOf s.config.tokenPrefix m.nonce) m.now =
      .ok token) : Issues m msg s order token (respond m msg s) := by
  have issues := guarded_issues calm proves admits owned ordered named issued
  obtain ⟨headers, same⟩ := respond_eq m msg s
  rw [same, dispatch_createToken method path]
  exact issues.withHeaders ⟨rfl, rfl⟩ headers

end Http

end Gatehouse
