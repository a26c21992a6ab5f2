import Gatehouse.Config
import Gatehouse.Proofs.Credential.Header
import Gatehouse.Proofs.Site.Stages
import Gatehouse.Proofs.Token.Confinement
import Gatehouse.Proofs.Token.Lifecycle

/-!
Which issued tokens are recognized.

The secret of a token is the set prefix and 40 letters and digits after it. Its owner sends it in a header, and
the header is trimmed: so the secret is read back as it was issued, unless the prefix begins with a blank
(`ofHeader_secretOf`). Nothing trims the prefix itself when it is taken from the environment
(`beginsBlank_tokenPrefix_iff`). The main statement is `Token.recognized_iff`: a token that is issued and stored
stands for its owner, with the scopes ordered, exactly when the prefix does not begin with a blank. With such a
prefix every secret is taken for a session.
-/

namespace Gatehouse

open Text

/-! ### Prefixes -/

namespace Config

variable {env : String → Option String} {value : Option String} {default : String}

/-- The environment sets a prefix of tokens that begins with a blank. -/
def SetsBlank (env : String → Option String) : Prop :=
  ∃ text, env "PAT_PREFIX" = some text ∧ BeginsBlank text

theorem textOr_some {text : String} (given : text ≠ "") : textOr (some text) default = text := by
  rw [textOr, Option.filter_some_pos (by simpa using given), Option.getD_some]

/-- A text of the environment is the default, or a given one. -/
theorem textOr_cases (value : Option String) (default : String) :
    textOr value default = default ∧ (∀ text, value = some text → text = "") ∨
      ∃ text, text ≠ "" ∧ value = some text ∧ textOr value default = text := by
  cases value with
  | none => exact Or.inl ⟨rfl, by simp⟩
  | some text =>
      by_cases given : text = ""
      · subst given
        exact Or.inl ⟨rfl, by simp⟩
      · exact Or.inr ⟨text, given, rfl, textOr_some given⟩

theorem tokenPrefix_ofEnvironment :
    (ofEnvironment env).tokenPrefix = textOr (env "PAT_PREFIX") Config.default.tokenPrefix := rfl

/-- There is always a prefix of tokens. -/
theorem tokenPrefix_ne_empty : (ofEnvironment env).tokenPrefix ≠ "" := by
  rw [tokenPrefix_ofEnvironment]
  obtain ⟨same, -⟩ | ⟨text, given, -, same⟩ := textOr_cases (env "PAT_PREFIX") Config.default.tokenPrefix
  · rw [same]
    decide
  · rw [same]
    exact given

/-- The prefix begins with a blank only if the environment sets one that does. -/
theorem beginsBlank_tokenPrefix_iff : BeginsBlank (ofEnvironment env).tokenPrefix ↔ SetsBlank env := by
  rw [tokenPrefix_ofEnvironment]
  obtain ⟨same, unset⟩ | ⟨text, -, set, same⟩ := textOr_cases (env "PAT_PREFIX") Config.default.tokenPrefix
  · rw [same]
    refine iff_of_false (by decide) ?_
    rintro ⟨text, set, begins⟩
    obtain rfl := unset text set
    cases begins
  · rw [same]
    refine ⟨fun begins => ⟨text, set, begins⟩, ?_⟩
    rintro ⟨text', set', begins⟩
    obtain rfl := Option.some.inj (set.symm.trans set')
    exact begins

end Config

/-! ### Secrets in headers -/

namespace Token

variable {env : String → Option String} {p secret : String} {nonce : Nonce} {order : Order} {id : String}
  {now : Timestamp} {token : Token}

/-- The header in which the owner of a token sends its secret. -/
def headerOf (secret : String) : String := "Bearer " ++ secret

/-- A secret is given, and ends with a letter or a digit. -/
theorem ends_secretOf (p : String) (nonce : Nonce) :
    secretOf p nonce ≠ "" ∧ ¬ EndsBlank (secretOf p nonce) := by
  have given : String.ofList nonce.chars ≠ "" := by
    intro empty
    have none : nonce.chars = [] := by simpa using empty
    have size := nonce.size
    rw [none] at size
    cases size
  refine ⟨mt String.append_eq_empty_iff.mp fun empty => given empty.2, fun ends => ?_⟩
  rw [secretOf, endsBlank_append given, EndsBlank, String.toList_ofList] at ends
  obtain ⟨c, last, blank⟩ := (Option.any_eq_true ..).mp ends
  have alphanumeric := List.all_eq_true.mp nonce.alphanumeric c (List.mem_of_mem_getLast? last)
  rw [isBlank_of_isAlphanum alphanumeric] at blank
  cases blank

theorem beginsBlank_secretOf (given : p ≠ "") : BeginsBlank (secretOf p nonce) ↔ BeginsBlank p :=
  beginsBlank_append given

/-- A secret is sent as a token without the blanks at its front. -/
theorem carries_headerOf (p : String) (nonce : Nonce) :
    Credential.Carries (headerOf (secretOf p nonce)) (trim (secretOf p nonce)) := by
  obtain ⟨given, ends⟩ := ends_secretOf p nonce
  have left : trim (secretOf p nonce) ≠ "" := fun empty =>
    ends ((trim_eq_empty_iff.mp empty).endsBlank given)
  have named : sameLetters "Bearer" "bearer" = true := by decide
  have carries := Credential.Carries.of_trim blanks_empty named left blanks_empty
  rw [String.append_empty, String.empty_append] at carries
  exact carries

/-- A secret is read back from its header, unless its prefix begins with a blank. -/
theorem ofHeader_secretOf (given : p ≠ "") (plain : ¬ BeginsBlank p) :
    Credential.ofHeader p (some (headerOf (secretOf p nonce))) = .ok (.personal (secretOf p nonce)) := by
  have tight : Tight (secretOf p nonce) :=
    ⟨(ends_secretOf p nonce).1, mt (beginsBlank_secretOf given).mp plain, (ends_secretOf p nonce).2⟩
  have begins : p.toList <+: (secretOf p nonce).toList := by
    rw [secretOf, String.toList_append]
    exact List.prefix_append _ _
  rw [Credential.ofHeader_of_carries (carries_headerOf p nonce), trim_of_tight tight, Credential.ofToken_eq,
    if_pos ⟨given, begins⟩]

/-- Under a prefix that begins with a blank, a secret is taken for a session. -/
theorem ofHeader_secretOf_of_blank (begins : BeginsBlank p) :
    Credential.ofHeader p (some (headerOf (secretOf p nonce))) = .ok (.session (trim (secretOf p nonce))) := by
  have carries := carries_headerOf p nonce
  have other : ¬ (p ≠ "" ∧ p.toList <+: (trim (secretOf p nonce)).toList) := fun ⟨given, inside⟩ =>
    carries.tight.front ((beginsBlank_iff_of_begins given inside).mpr begins)
  rw [Credential.ofHeader_of_carries carries, Credential.ofToken_eq, if_neg other]

/-! ### Issued tokens -/

/-- An issued token is active, and has what was ordered. -/
structure MadeTo (order : Order) (secret : String) (token : Token) : Prop where
  scopes : Scopes.normalize order.scopes = .ok token.scopes
  owner : token.owner = order.owner
  hash : token.hash = hashOf secret
  status : token.status = .active
  expiresAt : token.expiresAt = order.expiresAt
  allowlist : token.allowlist = order.allowlist

theorem madeTo_of_issue (issued : issue order id secret now = .ok token) : MadeTo order secret token := by
  obtain ⟨scopes, normalized, issued⟩ := Outcome.bind_eq_ok.mp issued
  obtain ⟨_, _, issued⟩ := Outcome.bind_eq_ok.mp issued
  cases issued
  exact ⟨normalized, rfl, rfl, rfl, rfl, rfl⟩

section Authenticate

variable {m : Moment} {s s' : Site} {request : Request} {caller : Site.Caller}

/-- Once a token is stored, a header that is read as its secret stands for its owner, with its scopes, before it
expires and from where it may be used. -/
theorem authenticate_of_personal (made : MadeTo order secret token) (calm : m.outage = .none)
    (read : Credential.ofHeader s.config.tokenPrefix request.authorization = .ok (.personal secret))
    (alive : ∀ expiry, order.expiresAt = some expiry → ¬ expiry ≤ m.now)
    (admitted : token.Admits request.address) :
    ∃ caller s', Site.authenticate m { s with tokens := s.tokens.insert token } request.authorization
        request.address = (.ok caller, s') ∧ caller.identity = ⟨order.owner, .token, some token.scopes⟩ := by
  have stored : (s.tokens.insert token).find? (hashOf secret) = some token := by
    rw [← made.hash]
    exact TokenStore.find?_insert_self _ _
  have valid : token.check m.now request.address = .ok () :=
    check_eq_ok_iff.mpr ⟨made.status, by rwa [made.expiresAt], admitted⟩
  obtain ⟨e, loaded⟩ : ∃ e, (s.cache.load m s.roles token.owner).1 = .ok e :=
    PermissionCache.exists_load_eq_ok calm
  refine ⟨_, _, (Site.authenticate_eq_ok calm).mpr
    ⟨_, e, .personal read stored valid, Prod.ext loaded rfl, rfl⟩, ?_⟩
  rw [made.owner]

/-- A header that is read as a session stands for no token. -/
theorem kind_of_session {text : String}
    (done : s.authenticate m request.authorization request.address = (.ok caller, s'))
    (read : Credential.ofHeader s.config.tokenPrefix request.authorization = .ok (.session text)) :
    caller.identity.kind = .session := by
  obtain ⟨identity, e, proves, -, rfl⟩ := Site.proves_of_authenticate done
  cases proves with
  | session => rfl
  | personal read' => cases read.symm.trans read'

end Authenticate

/-- A secret is read back from its header exactly when the environment sets no prefix of tokens that begins with
a blank; under such a prefix it is taken for a session. So an issued token that is stored stands for its owner,
with the scopes ordered, before it expires and from where it may be used, exactly when there is no such
prefix. -/
theorem recognized_iff
    (issued : issue order id (secretOf (Config.ofEnvironment env).tokenPrefix nonce) now = .ok token) :
    let config := Config.ofEnvironment env
    let secret := secretOf config.tokenPrefix nonce
    (Credential.ofHeader config.tokenPrefix (some (headerOf secret)) = .ok (.personal secret) ↔
      ¬ Config.SetsBlank env) ∧
    (Config.SetsBlank env →
      Credential.ofHeader config.tokenPrefix (some (headerOf secret)) = .ok (.session (trim secret))) ∧
    Scopes.normalize order.scopes = .ok token.scopes ∧ token.allowlist = order.allowlist ∧
    ∀ (m : Moment) (s : Site) (request : Request), s.config = config → m.outage = .none →
      request.authorization = some (headerOf secret) →
      (∀ expiry, order.expiresAt = some expiry → ¬ expiry ≤ m.now) → token.Admits request.address →
        ((∃ caller s', Site.authenticate m { s with tokens := s.tokens.insert token } request.authorization
            request.address = (.ok caller, s') ∧
          caller.identity = ⟨order.owner, .token, some token.scopes⟩) ↔ ¬ Config.SetsBlank env) := by
  intro config secret
  have made : MadeTo order secret token := madeTo_of_issue issued
  have spaced (blank : Config.SetsBlank env) :
      Credential.ofHeader config.tokenPrefix (some (headerOf secret)) = .ok (.session (trim secret)) :=
    ofHeader_secretOf_of_blank (Config.beginsBlank_tokenPrefix_iff.mpr blank)
  have plain (other : ¬ Config.SetsBlank env) :
      Credential.ofHeader config.tokenPrefix (some (headerOf secret)) = .ok (.personal secret) :=
    ofHeader_secretOf Config.tokenPrefix_ne_empty (mt Config.beginsBlank_tokenPrefix_iff.mp other)
  refine ⟨⟨fun read blank => ?_, plain⟩, spaced, made.scopes, made.allowlist, ?_⟩
  · cases (spaced blank).symm.trans read
  intro m s request configured calm header alive admitted
  have same : Credential.ofHeader s.config.tokenPrefix request.authorization =
      Credential.ofHeader config.tokenPrefix (some (headerOf secret)) := by
    rw [configured, header]
  constructor
  · rintro ⟨caller, s', done, known⟩ blank
    have session : caller.identity.kind = .session := kind_of_session done (same.trans (spaced blank))
    rw [known] at session
    cases session
  · intro other
    exact authenticate_of_personal made calm (same.trans (plain other)) alive admitted

/-- An order for a token that is good for its owner's account only. -/
def Order.ofOwnAccount (owner : UserId) : Order := ⟨owner, "laptop", [TokenScope.own.name], none, []⟩

theorem issue_ofOwnAccount (owner : UserId) (secret : String) :
    issue (.ofOwnAccount owner) "laptop" secret default = .ok (ofOwnAccount owner secret) := rfl

/-- An environment that sets a prefix of tokens with a blank in front, and nothing else. -/
def spacedEnvironment (name : String) : Option String := if name = "PAT_PREFIX" then some " pat_" else none

theorem setsBlank_spacedEnvironment : Config.SetsBlank spacedEnvironment := ⟨" pat_", rfl, by decide⟩

/-- With nothing set, a token stands for its owner and its scope. With a prefix that has a blank in front, its
secret is taken for a session. -/
theorem laptop_recognized :
    (∃ caller s', Site.authenticate default
        { Site.start .default .log 0 with
          tokens := TokenStore.empty.insert (ofOwnAccount 11 (secretOf "pat_" default)) }
        (some (headerOf (secretOf "pat_" default))) none = (.ok caller, s') ∧
      caller.identity = ⟨11, .token, some ["self"]⟩) ∧
    Credential.ofHeader " pat_" (some (headerOf (secretOf " pat_" default))) =
      .ok (.session (trim (secretOf " pat_" default))) := by
  have issued : issue (.ofOwnAccount 11) "laptop"
      (secretOf (Config.ofEnvironment fun _ => none).tokenPrefix default) default =
        .ok (ofOwnAccount 11 (secretOf "pat_" default)) := issue_ofOwnAccount 11 _
  have issued' : issue (.ofOwnAccount 11) "laptop"
      (secretOf (Config.ofEnvironment spacedEnvironment).tokenPrefix default) default =
        .ok (ofOwnAccount 11 (secretOf " pat_" default)) := issue_ofOwnAccount 11 _
  have plain : ¬ Config.SetsBlank fun _ => none := by
    rintro ⟨text, ⟨⟩, -⟩
  refine ⟨?_, (recognized_iff issued').2.1 setsBlank_spacedEnvironment⟩
  obtain ⟨-, -, -, -, stands⟩ := recognized_iff issued
  refine (stands default (Site.start .default .log 0)
    ⟨"GET", "/", some (headerOf (secretOf "pat_" default)), none, .empty, none⟩ rfl rfl rfl ?_
    (Or.inl rfl)).mpr plain
  rintro expiry ⟨⟩

/-- Not every token that is issued is recognized. -/
theorem spaced_prefix_unrecognized :
    ¬ ∀ (env : String → Option String) (order : Order) (id : String) (nonce : Nonce) (now : Timestamp)
      (token : Token),
      issue order id (secretOf (Config.ofEnvironment env).tokenPrefix nonce) now = .ok token →
        Credential.ofHeader (Config.ofEnvironment env).tokenPrefix
            (some (headerOf (secretOf (Config.ofEnvironment env).tokenPrefix nonce))) =
          .ok (.personal (secretOf (Config.ofEnvironment env).tokenPrefix nonce)) := by
  intro recognized
  have read := recognized spacedEnvironment (.ofOwnAccount 11) "laptop" default default _
    (issue_ofOwnAccount 11 _)
  have begins := Config.beginsBlank_tokenPrefix_iff.mpr setsBlank_spacedEnvironment
  cases (ofHeader_secretOf_of_blank begins).symm.trans read

end Token

end Gatehouse
