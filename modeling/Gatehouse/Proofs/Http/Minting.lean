import Gatehouse.Proofs.Http.Issue
import Gatehouse.Proofs.Token.Confinement

/-!
How far someone gets with one access token by having others issued.

Whoever bears a token may order another, and nothing compares the scopes ordered with those of the
token borne. So a token that is issued is no wider than the one borne exactly when the order stays
`Within` the latter's scopes. From one token, through any number of orders within a limit, nobody
gets beyond the limit (`Reaches.confined`).
-/

namespace Gatehouse.Http

/-- The header of a message is the secret of a token. -/
def Message.Bears (msg : Message) (s : Site) (secret : String) : Prop :=
  Credential.ofHeader s.config.tokenPrefix (msg.header? "authorization") = .ok (.personal secret)

/-- What comes about from a service when someone who knows one secret sends messages that bear it, or
bear a secret that an answer gave away, and orders tokens within a limit. Everyone else may do
anything in between, but leaves the owners and the scopes behind the known secrets as they are. -/
inductive Reaches (start : Site) (secret : String) (limit : List String) :
    Site → List String → Prop
  | start : Reaches start secret limit start [secret]
  | others {s s' : Site} {known : List String} (before : Reaches start secret limit s known)
      (kept : ∀ k ∈ known, ∀ token', s'.tokens.find? (Token.hashOf k) = some token' →
        ∃ token, s.tokens.find? (Token.hashOf k) = some token ∧ token'.owner = token.owner ∧
          token'.scopes = token.scopes) :
      Reaches start secret limit s' known
  | message {s : Site} {known : List String} {m : Moment} {msg : Message} {k : String}
      (before : Reaches start secret limit s known) (calm : m.outage = .none) (mem : k ∈ known)
      (bears : msg.Bears s k)
      (within : ∀ order token, Issues m msg s order token (respond m msg s) →
        Scopes.Within order.scopes limit) :
      Reaches start secret limit (respond m msg s).2 ((respond m msg s).1.secret?.toList ++ known)

variable {m : Moment} {msg : Message} {start s s' : Site} {known limit : List String}
  {secret : String} {owner : UserId} {first : Token} {route : Route} {request : Request}

/-! ### One message -/

/-- A message that bears a token has a token issued to the same owner, or none. -/
theorem issues_of_bears (bears : msg.Bears s secret) :
    IssuesNothing s (respond m msg s) ∨ ∃ borne order token,
      s.tokens.find? (Token.hashOf secret) = some borne ∧
        Issues m msg s order token (respond m msg s) ∧ token.owner = borne.owner := by
  rcases respond_cases with nothing | ⟨identity, order, token, proves, owned, issues⟩
  · exact Or.inl nothing
  · have bears' : (msg.request Endpoint.createToken.route).Bears s secret := bears
    obtain ⟨borne, stored, rfl, _⟩ := proves.of_bears bears'
    obtain ⟨_, owner, _⟩ := Token.of_issue issues.issued
    exact Or.inr ⟨borne, order, token, stored, issues, owner.trans owned⟩

/-! ### Any number of messages -/

/-- The tokens behind the known secrets belong to one owner and are no wider than a limit. -/
def Confined (owner : UserId) (limit : List String) (s : Site) (known : List String) : Prop :=
  ∀ k ∈ known, ∀ token, s.tokens.find? (Token.hashOf k) = some token →
    token.owner = owner ∧ Scopes.NoWider token.scopes limit

namespace Confined

variable (confined : Confined owner limit s known)

include confined

theorem others (kept : ∀ k ∈ known, ∀ token', s'.tokens.find? (Token.hashOf k) = some token' →
    ∃ token, s.tokens.find? (Token.hashOf k) = some token ∧ token'.owner = token.owner ∧
      token'.scopes = token.scopes) : Confined owner limit s' known := by
  intro k mem token' stored'
  obtain ⟨token, stored, owner, scopes⟩ := kept k mem token' stored'
  rw [owner, scopes]
  exact confined k mem token stored

/-- An order within the limit keeps the known secrets confined, the one that is given away for it
included. -/
theorem message (mem : secret ∈ known) (bears : msg.Bears s secret)
    (within : ∀ order token, Issues m msg s order token (respond m msg s) →
      Scopes.Within order.scopes limit) :
    Confined owner limit (respond m msg s).2 ((respond m msg s).1.secret?.toList ++ known) := by
  intro k memAfter token' stored'
  rcases issues_of_bears bears with nothing | ⟨borne, order, token, stored, issues, owned⟩
  · rw [nothing.secret] at memAfter
    rw [nothing.tokens] at stored'
    exact confined k memAfter token' stored'
  · obtain ⟨owner, _⟩ := confined secret mem borne stored
    obtain ⟨normalized, _, hash⟩ := Token.of_issue issues.issued
    have noWider : Scopes.NoWider token.scopes limit :=
      (Scopes.noWider_normalize_iff normalized).mpr (within order token issues)
    rw [issues.tokens] at stored'
    -- The new token may stand in the place of one whose secret was known: then it is confined too.
    by_cases fresh : Token.hashOf k = token.hash
    · rw [fresh, TokenStore.find?_insert_self] at stored'
      cases stored'
      exact ⟨owned.trans owner, noWider⟩
    · have memBefore : k ∈ known := by
        rw [issues.secret] at memAfter
        rcases List.mem_cons.mp memAfter with rfl | before
        · exact absurd hash.symm fresh
        · exact before
      rw [TokenStore.find?_insert_of_ne fresh] at stored'
      exact confined k memBefore token' stored'

end Confined

/-- Through orders within a limit, every known secret stays confined. -/
theorem Reaches.confined (reaches : Reaches start secret limit s known)
    (stored : start.tokens.find? (Token.hashOf secret) = some first)
    (inside : Scopes.NoWider first.scopes limit) : Confined first.owner limit s known := by
  induction reaches with
  | start =>
      intro k mem token stored'
      obtain rfl := List.mem_singleton.mp mem
      cases stored.symm.trans stored'
      exact ⟨rfl, inside⟩
  | others before kept ih => exact ih.others kept
  | message before calm mem bears within ih => exact ih.message mem bears within

/-! ### What passes in the end -/

/-- What is admitted with some scopes is admitted with any that are no narrower. -/
theorem admits_of_noWider {scopes scopes' : List String} (noWider : Scopes.NoWider scopes' scopes)
    (admits : Admits m s route request ⟨owner, .token, some scopes'⟩) :
    Admits m s route request ⟨owner, .token, some scopes⟩ := by
  obtain ⟨standing, e, holds, load, p, mem, matching⟩ := admits
  refine ⟨standing, e, holds, load, p, ?_, matching⟩
  rcases List.mem_append.mp mem with kept | lent
  · exact List.mem_append_left _ (noWider _ p kept)
  · exact List.mem_append_right _ lent

/-- A message that bears a token and is answered with 201 has a token issued to the same owner, which
is no wider than the one borne exactly when the order stays within the latter's scopes. And whatever
passes in the end, after any number of orders within a limit, is admitted to the owner of the first
token within the limit. The limit may be the scopes of the first token, or `full` if orders are not
limited at all. -/
theorem issued_noWider_iff_and_reaches_admitted :
    (∀ (m : Moment) (msg : Message) (s : Site) (secret : String), m.outage = .none →
      msg.Bears s secret → (respond m msg s).1.status = 201 →
        ∃ borne order token, s.tokens.find? (Token.hashOf secret) = some borne ∧
          Issues m msg s order token (respond m msg s) ∧ token.owner = borne.owner ∧
            (Scopes.NoWider token.scopes borne.scopes ↔
              Scopes.Within order.scopes borne.scopes)) ∧
      ∀ (start : Site) (secret : String) (first : Token) (limit : List String),
        start.tokens.find? (Token.hashOf secret) = some first →
          Scopes.NoWider first.scopes limit →
            ∀ (s : Site) (known : List String), Reaches start secret limit s known →
              ∀ (m : Moment) (request : Request) (route : Route), m.outage = .none →
                route.isPublic = false → (route.needsTeam = true → route.needsOrg = true) →
                  ∀ k ∈ known, request.Bears s k →
                    ((Chain.build route .standard).run m request s).outcome = .ok () →
                      Admits m s route request ⟨first.owner, .token, some limit⟩ := by
  constructor
  · intro m msg s secret calm bears created
    rcases issues_of_bears bears with nothing | ⟨borne, order, token, stored, issues, owner⟩
    · exact absurd created nothing.status
    · obtain ⟨normalized, _⟩ := Token.of_issue issues.issued
      exact ⟨borne, order, token, stored, issues, owner, Scopes.noWider_normalize_iff normalized⟩
  · intro start secret first limit stored inside s known reaches m request route calm guarded paired
      k mem bears passes
    obtain ⟨identity, proves, admits, _⟩ := admitted_of_passes guarded paired calm passes
    obtain ⟨token, stored', rfl, _⟩ := proves.of_bears bears
    obtain ⟨owner, noWider⟩ := reaches.confined stored inside k mem token stored'
    rw [owner] at admits
    exact admits_of_noWider noWider admits

/-! ### A token for a user's own account orders others -/

/-- The lead of a team orders a token. -/
def Message.ofLead (body : String) : Message :=
  ⟨"POST", "/tokens", [("authorization", "Bearer pat_lead"), ("content-type", "application/json")],
    body, none⟩

/-- An order for a token that is for the lead's own account, and one for a token without limits. -/
def spareOrder : String := "\x7b\"name\": \"spare\", \"scopes\": [\"self\"]\x7d"

def fullOrder : String := "\x7b\"name\": \"spare\", \"scopes\": [\"full\"]\x7d"

theorem bears_of_lead (body : String) :
    (Message.ofLead body).Bears (.ofOneLead "pat_lead") "pat_lead" := by
  have header : Credential.ofHeader "pat_" ((Message.ofLead body).header? "authorization") =
      .ok (.personal "pat_lead") := by
    simp only [Message.header?, Message.ofLead]
    decide
  exact header

/-- The order that is read from such a message. -/
def orderOfLead (scopes : List String) : Token.Order := ⟨11, "spare", scopes, none, []⟩

/-- The token that is issued for it. -/
def tokenOfLead (scopes : List String) : Token :=
  ⟨(default : Moment).tokenId.text, 11, "spare", Token.hashOf (Token.secretOf "pat_" default), scopes,
    .active, none, [], default⟩

/-- The lead may order tokens, whatever tokens there are. -/
theorem admits_lead_to_order (tokens : TokenStore) (request : Request) :
    Admits default { Site.ofOneLead "pat_lead" with tokens } Endpoint.createToken.route request
      ⟨11, .token, some [TokenScope.own.name]⟩ := by
  refine ⟨.outside, ⟨["user"], [.everywhere "self:*:*"]⟩, ⟨by decide, by decide⟩, rfl, ?_⟩
  refine ⟨.everywhere "self:*:*", by decide, by decide, Grant.universal, ?_, by decide⟩
  exact List.mem_cons_self ..

/-- The lead's token is for its own account only, but the lead is issued whatever it orders. -/
theorem issues_of_lead {body : String} {scopes : List String}
    (ordered : Endpoint.readBody (Endpoint.readOrder 11) (.ofLead body) = .ok (orderOfLead scopes))
    (normalized : Scopes.normalize scopes = .ok scopes) :
    Issues default (.ofLead body) (.ofOneLead "pat_lead") (orderOfLead scopes) (tokenOfLead scopes)
      (respond default (.ofLead body) (.ofOneLead "pat_lead")) := by
  have bears : ((Message.ofLead body).request Endpoint.createToken.route).Bears
      (.ofOneLead "pat_lead") "pat_lead" := bears_of_lead body
  have stored := TokenStore.find?_insert_self .empty (.ofOwnAccount 11 "pat_lead")
  have valid : ∀ address, (Token.ofOwnAccount 11 "pat_lead").check (default : Moment).now address =
      .ok () := fun _ => rfl
  have proves : Proves default (.ofOneLead "pat_lead")
      ((Message.ofLead body).request Endpoint.createToken.route)
      ⟨11, .token, some [TokenScope.own.name]⟩ := .personal bears stored (valid _)
  have path : (Message.ofLead body).path = "/tokens" := by
    simp only [Message.path, Message.ofLead]
    decide
  have named : Text.trim (orderOfLead scopes).name ≠ "" := by
    have spare : Text.trim "spare" ≠ "" := by decide
    exact spare
  have issued : Token.issue (orderOfLead scopes) (default : Moment).tokenId.text
      (Token.secretOf "pat_" default) default = .ok (tokenOfLead scopes) := by
    unfold Token.issue orderOfLead
    rw [normalized]
    rfl
  exact respond_issues rfl rfl path proves (admits_lead_to_order _ _) rfl ordered named issued

/-- A request that bears the secret of the token that was issued. -/
def requestWithSpare : Request :=
  ⟨"POST", "/tokens", some ("Bearer " ++ Token.secretOf "pat_" default), none, .empty, none⟩

theorem header_of_spare :
    Credential.ofHeader "pat_" requestWithSpare.authorization =
      .ok (.personal (Token.secretOf "pat_" default)) := by
  decide +kernel

/-- The service with the spare token, and with nothing in its cache. -/
def siteWithSpare : Site :=
  { Site.ofOneLead "pat_lead" with
    tokens := (Site.ofOneLead "pat_lead").tokens.insert (tokenOfLead [TokenScope.own.name]) }

theorem spareOrder_read (owner : UserId) :
    Endpoint.readBody (Endpoint.readOrder owner) (.ofLead spareOrder) =
      .ok ⟨owner, "spare", [TokenScope.own.name], none, []⟩ := rfl

theorem spare_issued :
    Issues default (.ofLead spareOrder) (.ofOneLead "pat_lead") (orderOfLead [TokenScope.own.name])
      (tokenOfLead [TokenScope.own.name])
      (respond default (.ofLead spareOrder) (.ofOneLead "pat_lead")) :=
  issues_of_lead (spareOrder_read 11) rfl

/-- The lead orders the spare token. Then others empty the cache. -/
theorem reaches_spare :
    Reaches (.ofOneLead "pat_lead") "pat_lead" [TokenScope.own.name] siteWithSpare
      [Token.secretOf "pat_" default, "pat_lead"] := by
  have within : ∀ order token, Issues default (.ofLead spareOrder) (.ofOneLead "pat_lead") order token
      (respond default (.ofLead spareOrder) (.ofOneLead "pat_lead")) →
        Scopes.Within order.scopes [TokenScope.own.name] := by
    intro order token issues
    have same := Except.ok.inj ((spareOrder_read order.owner).symm.trans issues.ordered)
    rw [← same]
    exact Or.inr ⟨List.cons_ne_nil _ _, fun _ mem => mem⟩
  have ordered := Reaches.message .start rfl (List.mem_singleton_self _) (bears_of_lead _) within
  rw [spare_issued.secret] at ordered
  refine ordered.others fun k mem token stored => ⟨token, ?_, rfl, rfl⟩
  rw [spare_issued.tokens]
  exact stored

/-- The spare token is issued, and passes as the first token would. -/
theorem spare_token_issued_and_admitted :
    (∃ borne order token,
      (Site.ofOneLead "pat_lead").tokens.find? (Token.hashOf "pat_lead") = some borne ∧
        Issues default (.ofLead spareOrder) (.ofOneLead "pat_lead") order token
          (respond default (.ofLead spareOrder) (.ofOneLead "pat_lead")) ∧
          token.owner = borne.owner ∧
            (Scopes.NoWider token.scopes borne.scopes ↔
              Scopes.Within order.scopes borne.scopes)) ∧
      ((Chain.build Endpoint.createToken.route .standard).run default requestWithSpare
        siteWithSpare).outcome = .ok () ∧
        Admits default siteWithSpare Endpoint.createToken.route requestWithSpare
          ⟨11, .token, some [TokenScope.own.name]⟩ := by
  have bears : requestWithSpare.Bears siteWithSpare (Token.secretOf "pat_" default) :=
    header_of_spare
  have storedSpare : siteWithSpare.tokens.find? (Token.hashOf (Token.secretOf "pat_" default)) =
      some (tokenOfLead [TokenScope.own.name]) :=
    TokenStore.find?_insert_self _ (tokenOfLead [TokenScope.own.name])
  have valid : (tokenOfLead [TokenScope.own.name]).check (default : Moment).now none = .ok () := rfl
  have passes : ((Chain.build Endpoint.createToken.route .standard).run default requestWithSpare
      siteWithSpare).outcome = .ok () :=
    passes_of_admitted Endpoint.createToken_guarded Endpoint.createToken.paired rfl
      (.personal bears storedSpare valid) (admits_lead_to_order _ _)
  have stored := TokenStore.find?_insert_self .empty (.ofOwnAccount 11 "pat_lead")
  obtain ⟨single, run⟩ := issued_noWider_iff_and_reaches_admitted
  refine ⟨?_, passes, ?_⟩
  · exact single default (.ofLead spareOrder) (.ofOneLead "pat_lead") "pat_lead" rfl (bears_of_lead _)
      spare_issued.status
  · exact run (.ofOneLead "pat_lead") "pat_lead" _ _ stored (.refl _) _ _ reaches_spare _ _ _ rfl
      Endpoint.createToken_guarded Endpoint.createToken.paired _ (List.mem_cons_self ..) bears passes

/-- A token for a user's own account has a token without limits issued. -/
theorem own_account_token_issues_full :
    ¬ ∀ (m : Moment) (msg : Message) (s : Site) (secret : String) (borne : Token),
      m.outage = .none → msg.Bears s secret →
        s.tokens.find? (Token.hashOf secret) = some borne → (respond m msg s).1.status = 201 →
          ∀ (given : String) (token : Token), (respond m msg s).1.secret? = some given →
            (respond m msg s).2.tokens.find? (Token.hashOf given) = some token →
              Scopes.NoWider token.scopes borne.scopes := by
  intro confined
  have ordered : Endpoint.readBody (Endpoint.readOrder 11) (.ofLead fullOrder) =
      .ok (orderOfLead [TokenScope.full.name]) := rfl
  have issues := issues_of_lead ordered rfl
  have stored := TokenStore.find?_insert_self .empty (.ofOwnAccount 11 "pat_lead")
  have storedFull : (respond default (.ofLead fullOrder) (.ofOneLead "pat_lead")).2.tokens.find?
      (Token.hashOf (Token.secretOf "pat_" default)) = some (tokenOfLead [TokenScope.full.name]) := by
    rw [issues.tokens]
    exact TokenStore.find?_insert_self _ (tokenOfLead _)
  have noWider := confined default (.ofLead fullOrder) _ "pat_lead" _ rfl (bears_of_lead _) stored
    issues.status _ _ issues.secret storedFull
  have kept : Permission.everywhere "sys:*:*" ∈
      Scopes.restrict [TokenScope.own.name] [.everywhere "sys:*:*"] :=
    noWider _ _ (by decide)
  exact absurd kept (by decide)

end Gatehouse.Http
