import Gatehouse.Proofs.Http.Minting
import Gatehouse.Proofs.Site.Atomicity

/-!
What a message may do to the stored roles and tokens.

Two endpoints write. One stores a token for the caller (`Site.AddsToken`), the other gives the role of
the path other permissions (`Site.RepermitsRole`); each does so only when it answers with success. Every
other answer leaves what is stored as it was (`Site.SameStores`), wherever the message was refused:
by a stage of the chain, while its body was read, or by the endpoint.
-/

namespace Gatehouse

open Http

variable {m : Moment} {msg : Message} {s s' : Site} {ctx : Context} {user : UserId} {e : Endpoint}

/-! ### One token more -/

/-- A store with a token more. That it takes the place of no other is a matter of its secret, which is
random. -/
structure TokenStore.Adds (s : TokenStore) (token : Token) (s' : TokenStore) : Prop where
  stored : s'.find? token.hash = some token
  others : ∀ hash, hash ≠ token.hash → s'.find? hash = s.find? hash
  one : s.find? token.hash = none → s'.byHash.entries.Perm ((token.hash, token) :: s.byHash.entries)

theorem TokenStore.adds_insert (s : TokenStore) (token : Token) : s.Adds token (s.insert token) where
  stored := s.find?_insert_self token
  others _ other := find?_insert_of_ne other
  one := Table.entries_insert_perm

namespace Site

/-- Afterwards the stored roles and tokens are as they were. -/
structure SameStores (s s' : Site) : Prop where
  roles : s'.roles = s.roles
  tokens : s'.tokens = s.tokens

/-- Afterwards a user has one token more, and that is the only difference in what is stored. -/
structure AddsToken (s : Site) (user : UserId) (s' : Site) : Prop where
  roles : s'.roles = s.roles
  added : ∃ token : Token, token.owner = user ∧ s.tokens.Adds token s'.tokens

/-- Afterwards the role of the path has the permissions of the body, which may be stored, and that is the
only difference in what is stored. -/
structure RepermitsRole (s : Site) (msg : Message) (s' : Site) : Prop where
  tokens : s'.tokens = s.tokens
  replaced : ∃ id permissions, Endpoint.roleOfPath? msg.path = some id ∧
    Endpoint.readBody Endpoint.readPermissions msg = .ok permissions ∧
      Permission.checkAll (Administration.stored permissions) = .ok () ∧
        s.roles.Repermits id (Administration.stored permissions) s'.roles

end Site

namespace Http

/-! ### The endpoints -/

namespace Endpoint

theorem handle_sameStores (reads : e ≠ .createToken ∧ e ≠ .setPermissions) :
    s.SameStores (e.handle m msg ctx s).2 := by
  cases e with
  | createToken => exact absurd rfl reads.1
  | setPermissions => exact absurd rfl reads.2
  | health | tokenScopes | profile | listTokens | listUsers | cacheStats | teamSettings =>
      exact ⟨rfl, rfl⟩

theorem issueToken_roles : (issueToken m msg ctx s).2.roles = s.roles := by
  unfold issueToken
  split
  · rfl
  simp only
  split <;> rfl

theorem issueToken_writes (m : Moment) (msg : Message) (ctx : Context) (s : Site) :
    s.SameStores (issueToken m msg ctx s).2 ∨ (issueToken m msg ctx s).1.status = 201 ∧
      ∃ user, ctx.user = some user ∧ s.AddsToken user (issueToken m msg ctx s).2 := by
  rcases (issueToken_cases : IssuesNothing s (issueToken m msg ctx s) ∨ _) with
    nothing | ⟨user, order, token, called, owned, issues⟩
  · exact Or.inl ⟨issueToken_roles, nothing.tokens⟩
  · obtain ⟨_, owner, _⟩ := Token.of_issue issues.issued
    refine Or.inr ⟨issues.status, user, called, issueToken_roles, token, owner.trans owned, ?_⟩
    rw [issues.tokens]
    exact s.tokens.adds_insert token

theorem changeRole_writes (m : Moment) (msg : Message) (s : Site) :
    s.SameStores (changeRole m msg s).2 ∨
      (changeRole m msg s).1.status = 204 ∧ s.RepermitsRole msg (changeRole m msg s).2 := by
  unfold changeRole
  split
  · exact Or.inl ⟨rfl, rfl⟩
  rename_i role named
  split
  · exact Or.inl ⟨rfl, rfl⟩
  rename_i permissions read
  rcases Site.administer_cases m s (.setPermissions role permissions) with
    ⟨err, administered⟩ | ⟨c, changed, administered⟩ <;>
    change s.administer m (fun o => Administration.setPermissions o role permissions) = _ at administered <;>
    rw [administered]
  · exact Or.inl ⟨rfl, rfl⟩
  · obtain ⟨storable, _⟩ := Administration.setPermissions_eq_ok changed
    obtain ⟨cache, deliveries, published⟩ :=
      Site.publishAll_frame (m := m) (s := { s with roles := c.store }) c.events
    rw [published]
    exact Or.inr ⟨rfl, rfl, role, permissions, named, read, storable,
      RoleStore.repermits_of_setPermissions changed⟩

end Endpoint

/-! ### The chains before them -/

theorem Endpoint.chain_sameStores {request : Request} :
    s.SameStores (e.chain.run m request s).state := by
  obtain ⟨cache, audit, after⟩ := e.chain_frame m request s
  rw [after]
  exact ⟨rfl, rfl⟩

end Http

namespace Site

variable {t : Site} (same : s.SameStores t)

include same

theorem SameStores.trans (after : t.SameStores s') : s.SameStores s' :=
  ⟨after.roles.trans same.roles, after.tokens.trans same.tokens⟩

theorem AddsToken.of_same (adds : t.AddsToken user s') : s.AddsToken user s' := by
  obtain ⟨roles, added⟩ := adds
  rw [same.tokens] at added
  exact ⟨roles.trans same.roles, added⟩

theorem RepermitsRole.of_same (repermits : t.RepermitsRole msg s') : s.RepermitsRole msg s' := by
  obtain ⟨tokens, replaced⟩ := repermits
  rw [same.roles] at replaced
  exact ⟨tokens.trans same.tokens, replaced⟩

end Site

namespace Http

/-! ### The whole interface -/

/-- What is stored changes only when the chain has let a message pass, and then in one of two ways. -/
theorem guarded_writes (m : Moment) (msg : Message) (e : Endpoint) (s : Site) :
    s.SameStores (guarded m msg e s).2 ∨
      (e.chain.run m (msg.request e.route) s).outcome = .ok () ∧
        ((guarded m msg e s).1.status = 201 ∧ (∃ identity,
            Proves m s (msg.request e.route) identity ∧
              s.AddsToken identity.user (guarded m msg e s).2) ∨
          (guarded m msg e s).1.status = 204 ∧ s.RepermitsRole msg (guarded m msg e s).2) := by
  obtain ⟨result, ran⟩ : ∃ result, e.chain.run m (msg.request e.route) s = result := ⟨_, rfl⟩
  have same : s.SameStores result.state := by
    rw [← ran]
    exact Endpoint.chain_sameStores
  rw [ran]
  cases outcome : result.outcome with
  | error err =>
      rw [guarded_of_error ran outcome]
      exact Or.inl same
  | ok done =>
      obtain ⟨status, state⟩ := guarded_frame_of_ok ran outcome
      rw [status, state]
      by_cases creates : e = .createToken
      · subst creates
        obtain ⟨identity, proves, known⟩ := createToken_caller ran outcome
        rw [Endpoint.handle_createToken]
        rcases Endpoint.issueToken_writes m msg result.context result.state with
          unchanged | ⟨created, user, called, adds⟩
        · exact Or.inl (same.trans unchanged)
        · obtain rfl := Option.some.inj (known.symm.trans called)
          exact Or.inr ⟨rfl, Or.inl ⟨created, identity, proves, adds.of_same same⟩⟩
      by_cases replaces : e = .setPermissions
      · subst replaces
        rw [Endpoint.handle_setPermissions]
        rcases Endpoint.changeRole_writes m msg result.state with unchanged | ⟨done, repermits⟩
        · exact Or.inl (same.trans unchanged)
        · exact Or.inr ⟨rfl, Or.inr ⟨done, repermits.of_same same⟩⟩
      · exact Or.inl (same.trans (Endpoint.handle_sameStores ⟨creates, replaces⟩))

/-- The answer tells of success. -/
def Response.IsSuccess (r : Response) : Prop := 200 ≤ r.status ∧ r.status < 300

/-- **Messages that fail change nothing.** Whatever is stored and whichever calls fail, an answer that does
not tell of success leaves all roles, assignments and tokens as they were. If any of them are different
afterwards, there is an endpoint whose chain has let the message pass, and the only difference is a token
more, of the caller that the message proves, or the permissions of the role of the path, which are those
of the body once they are checked. -/
theorem sameStores_or_writes (m : Moment) (msg : Message) (s : Site) :
    (¬ (respond m msg s).1.IsSuccess → s.SameStores (respond m msg s).2) ∧
      (¬ s.SameStores (respond m msg s).2 → ∃ e, msg.endpoint? = some e ∧
        (e.chain.run m (msg.request e.route) s).outcome = .ok () ∧
          ((respond m msg s).1.status = 201 ∧ (∃ identity,
              Proves m s (msg.request e.route) identity ∧
                s.AddsToken identity.user (respond m msg s).2) ∨
            (respond m msg s).1.status = 204 ∧ s.RepermitsRole msg (respond m msg s).2)) := by
  unfold Response.IsSuccess
  cases found : msg.endpoint? with
  | none =>
      obtain ⟨_, unchanged⟩ := respond_of_endpoint?_eq_none (m := m) (s := s) found
      rw [unchanged]
      exact ⟨fun _ => ⟨rfl, rfl⟩, fun changed => absurd ⟨rfl, rfl⟩ changed⟩
  | some e =>
      obtain ⟨status, state⟩ := respond_of_endpoint?_eq_some (m := m) (s := s) found
      rw [status, state]
      rcases guarded_writes m msg e s with unchanged | ⟨passes, writes⟩
      · exact ⟨fun _ => unchanged, fun changed => absurd unchanged changed⟩
      · refine ⟨fun failed => absurd ?_ failed, fun _ => ⟨e, rfl, passes, writes⟩⟩
        rcases writes with ⟨status, _⟩ | ⟨status, _⟩ <;> omega

/-- An order without a credential. -/
def Message.ofNobody (body : String) : Message :=
  ⟨"POST", "/tokens", [("content-type", "application/json")], body, none⟩

/-- The lead's order makes a difference. -/
theorem not_sameStores_of_lead : ¬ (Site.ofOneLead "pat_lead").SameStores
    (respond default (.ofLead spareOrder) (.ofOneLead "pat_lead")).2 := by
  intro same
  have stored := (Site.ofOneLead "pat_lead").tokens.find?_insert_self
    (tokenOfLead [TokenScope.own.name])
  rw [← spare_issued.tokens, same.tokens] at stored
  rcases Table.mem_entries_insert (Table.mem_of_lookup stored) with before | impossible
  · have names : "spare" = "laptop" := congrArg (fun entry => entry.2.name) before
    exact absurd names (by decide)
  · cases impossible

/-- An order without a credential changes nothing, and that of the lead adds a token of the lead. -/
theorem spare_added :
    (¬ (respond default (.ofNobody spareOrder) (.ofOneLead "pat_lead")).1.IsSuccess ∧
      (Site.ofOneLead "pat_lead").SameStores
        (respond default (.ofNobody spareOrder) (.ofOneLead "pat_lead")).2) ∧
      ∃ identity : Identity, (Site.ofOneLead "pat_lead").AddsToken identity.user
        (respond default (.ofLead spareOrder) (.ofOneLead "pat_lead")).2 := by
  have refused : (respond default (.ofNobody spareOrder) (.ofOneLead "pat_lead")).1.status = 401 := by
    decide +kernel
  have failed :
      ¬ (respond default (.ofNobody spareOrder) (.ofOneLead "pat_lead")).1.IsSuccess := by
    unfold Response.IsSuccess
    omega
  obtain ⟨unchanged, _⟩ :=
    sameStores_or_writes default (.ofNobody spareOrder) (.ofOneLead "pat_lead")
  obtain ⟨_, changes⟩ := sameStores_or_writes default (.ofLead spareOrder) (.ofOneLead "pat_lead")
  refine ⟨⟨failed, unchanged failed⟩, ?_⟩
  obtain ⟨e, _, _, writes⟩ := changes not_sameStores_of_lead
  rcases writes with ⟨_, identity, _, adds⟩ | ⟨other, _⟩
  · exact ⟨identity, adds⟩
  · rw [spare_issued.status] at other
    cases other

end Http

end Gatehouse
