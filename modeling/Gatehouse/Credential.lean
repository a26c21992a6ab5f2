import Gatehouse.Audit
import Gatehouse.Moment
import Gatehouse.Text.Blank
import Gatehouse.Text.Case
import Gatehouse.Text.Pieces
import Gatehouse.Token.Store

/-!
Bearer credentials and whom they stand for.

An `Authorization` header names the scheme `bearer`, in any case, and after a space the token. A
token that begins with a set prefix is a personal access token and is looked up by its hash; any
other is a session.
-/

namespace Gatehouse

/-- The sessions that are open, by their token. -/
structure Sessions where
  byToken : Table String UserId
  deriving Repr, DecidableEq

namespace Sessions

/-- No session. -/
def empty : Sessions := ⟨.empty⟩

instance : Inhabited Sessions := ⟨empty⟩

/-- Opens a session, in the place of one with the same token. -/
def add (s : Sessions) (token : String) (user : UserId) : Sessions := ⟨s.byToken.insert token user⟩

/-- The user of a session. -/
def verify (s : Sessions) (token : String) : Except Error UserId :=
  match s.byToken.find? token with
  | some user => .ok user
  | none => .error (.credential .unknownSession)

/-- The token and the user of an entry `token=user`, if it is well-formed. -/
def entry? (text : String) : Option (String × UserId) := do
  let (token, user) ← Text.splitFirst '=' text
  let user ← Text.uint64? (Text.trim user)
  if Text.trim token = "" then none else some (Text.trim token, user)

/-- The sessions of entries with commas between them; malformed entries are skipped. -/
def ofText (text : String) : Sessions :=
  ((Text.split ',' text).filterMap entry?).foldl (fun s (token, user) => s.add token user) empty

end Sessions

/-- A bearer credential. -/
inductive Credential where
  | session (token : String)
  | personal (secret : String)
  deriving Repr, DecidableEq

/-- Whom a credential stands for. -/
structure Identity where
  user : UserId
  kind : AuthKind
  /-- The scopes of the access token, if it is one. -/
  scopes : Option (List String)
  deriving Repr, DecidableEq

namespace Credential

/-- A token as a credential; the empty prefix marks no token. -/
def ofToken (tokenPrefix token : String) : Credential :=
  if tokenPrefix ≠ "" ∧ tokenPrefix.toList.isPrefixOf token.toList then .personal token
  else .session token

/-- The credential of a header. -/
def ofHeader (tokenPrefix : String) (header : Option String) : Except CredentialFault Credential :=
  match (header.map Text.trim).filter (· ≠ "") with
  | none => .error .missingHeader
  | some text =>
    match Text.splitFirst ' ' text with
    | none => .error .malformedHeader
    | some (scheme, token) =>
      if !Text.sameLetters scheme "bearer" then .error (.unsupportedScheme scheme)
      else if Text.trim token = "" then .error .emptyToken
      else .ok (ofToken tokenPrefix (Text.trim token))

/-- How its user is authenticated. -/
def kind : Credential → AuthKind
  | .session _ => .session
  | .personal _ => .token

/-- The identity that a credential proves at a moment, from an address. -/
def resolve (m : Moment) (sessions : Sessions) (tokens : TokenStore) (address : Option Address) :
    Credential → Except Error Identity
  | .session token => do
    let user ← (← m.outage.reach .verifySession (sessions.verify token))
    return ⟨user, .session, none⟩
  | .personal secret => do
    match ← m.outage.reach .findToken (tokens.find? (Token.hashOf secret)) with
    | none => .error (.credential .unknownToken)
    | some token =>
      token.check m.now address
      return ⟨token.owner, .token, some token.scopes⟩

end Credential

end Gatehouse
