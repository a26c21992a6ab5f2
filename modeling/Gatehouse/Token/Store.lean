import Gatehouse.Attempt
import Gatehouse.Table
import Gatehouse.Token.Basic

/-!
The stored tokens, by the hash of their secret.

Tokens are looked up by hash; only their owner changes their status.
-/

namespace Gatehouse

/-- The stored tokens. -/
structure TokenStore where
  byHash : Table String Token
  deriving Repr, DecidableEq

namespace TokenStore

/-- No token. -/
def empty : TokenStore := ⟨.empty⟩

instance : Inhabited TokenStore := ⟨empty⟩

/-- The token with a hash. -/
def find? (s : TokenStore) (hash : String) : Option Token := s.byHash.find? hash

/-- Stores a token, in the place of one with the same hash. -/
def insert (s : TokenStore) (t : Token) : TokenStore := ⟨s.byHash.insert t.hash t⟩

theorem find?_insert_self (s : TokenStore) (t : Token) : (s.insert t).find? t.hash = some t :=
  Table.find?_insert_self ..

theorem find?_insert_of_ne {s : TokenStore} {t : Token} {hash : String} (other : hash ≠ t.hash) :
    (s.insert t).find? hash = s.find? hash :=
  Table.find?_insert_of_ne _ _ other

/-- The tokens of a user. -/
def ofUser (s : TokenStore) (user : UserId) : List Token :=
  s.byHash.values.filter (·.owner = user)

/-- Changes the stored status of a user's token to `active` or `disabled`. -/
def setStatus (user : UserId) (id : String) (status : TokenStatus) : Attempt TokenStore Unit := do
  if status = .expired then throw .expiredNotStored
  else match (← get).byHash.values.find? fun t => t.id = id && t.owner = user with
    | none => throw (.noSuchToken id)
    | some t => modify fun s => ⟨s.byHash.adjust t.hash fun t => { t with status }⟩

end TokenStore

end Gatehouse
