import Gatehouse.Digest.Blake3
import Gatehouse.Identifier
import Gatehouse.Net.Range
import Gatehouse.Time.Written
import Gatehouse.Token.Scope

/-!
Personal access tokens.

A token is a long-lived credential of a user. Of its secret only the hash is kept. Whether a token
has expired is decided when it is used: the stored status is never set to `expired`.
-/

namespace Gatehouse

/-- The state of a token. -/
inductive TokenStatus where
  | active | disabled | expired
  deriving Repr, DecidableEq

/-- The name of a state. -/
def TokenStatus.name : TokenStatus → String
  | .active => "active"
  | .disabled => "disabled"
  | .expired => "expired"

/-- A personal access token. -/
structure Token where
  id : String
  owner : UserId
  name : String
  /-- The hash of the secret. -/
  hash : String
  scopes : List String
  /-- The state it was put in, whatever the time. -/
  status : TokenStatus
  expiresAt : Option Timestamp
  /-- Addresses and ranges it may be used from; none stands for everywhere. -/
  allowlist : List String
  createdAt : Timestamp
  deriving Repr, DecidableEq

/-- The random part of a secret: 40 ASCII letters and digits. -/
structure Nonce where
  chars : List Char
  size : chars.length = 40
  alphanumeric : chars.all Char.isAlphanum = true
  deriving DecidableEq

namespace Nonce

/-- The ASCII digits and letters. -/
def alphabet : List Char :=
  "0123456789ABCDEFGHIJKLMNOPQRSTUVWXYZabcdefghijklmnopqrstuvwxyz".toList

/-- A digit in base 62. -/
def digit (d : Fin 62) : Char := alphabet.get (d.cast (by decide))

theorem isAlphanum_digit (d : Fin 62) : (digit d).isAlphanum = true :=
  have all : alphabet.all Char.isAlphanum = true := by decide +kernel
  List.all_eq_true.mp all _ (List.get_mem ..)

/-- The digits of a number in base 62, filled up to 40. -/
def ofNat (n : Nat) : Nonce where
  chars := (List.range 40).map fun i => digit (Fin.ofNat 62 (n / Nat.pow 62 (39 - i)))
  size := by rw [List.length_map, List.length_range]
  alphanumeric := by
    rw [List.all_eq_true]
    intro c hc
    obtain ⟨i, _, rfl⟩ := List.mem_map.mp hc
    exact isAlphanum_digit _

instance : Inhabited Nonce := ⟨ofNat 0⟩

end Nonce

namespace Token

/-- The hash under which a token with a secret is stored. -/
def hashOf (secret : String) : String := Blake3.hexDigest secret

/-- The token, put out of use. -/
def disable (t : Token) : Token := { t with status := .disabled }

/-- The token, put back in use. -/
def enable (t : Token) : Token := { t with status := .active }

/-- The expiry, if any, is not later than `now`. -/
def isExpired (t : Token) (now : Timestamp) : Bool :=
  match t.expiresAt with
  | some expiry => decide (expiry ≤ now)
  | none => false

/-- The state at a time: a disabled token stays so, any other expires. -/
def statusAt (t : Token) (now : Timestamp) : TokenStatus :=
  if t.status = .disabled then .disabled
  else if t.isExpired now then .expired
  else t.status

/-- The token may be used from an address; one with an allowlist only from a known address that is
in one of its ranges. Entries that are no range let nobody in. -/
def allows (t : Token) (address : Option Address) : Bool :=
  t.allowlist.isEmpty ||
    match address with
    | none => false
    | some a => t.allowlist.any fun entry =>
        match AddressRange.ofText? entry with
        | some range => range.contains a
        | none => false

/-- Accepts a token that may be used at a time from an address. -/
def check (t : Token) (now : Timestamp) (address : Option Address) : Except Error Unit :=
  match t.statusAt now with
  | .disabled => .error (.credential .disabledToken)
  | .expired => .error (.credential .expiredToken)
  | .active => if t.allows address then .ok () else .error (.credential .foreignAddress)

/-- Accepts a list of entries that are all addresses or ranges. -/
def checkAllowlist : List String → Except Error Unit
  | [] => .ok ()
  | entry :: rest =>
    match AddressRange.ofText? entry with
    | some _ => checkAllowlist rest
    | none => .error (.malformedRange entry)

/-- The secret of a token with a random part. -/
def secretOf (keyPrefix : String) (nonce : Nonce) : String :=
  keyPrefix ++ String.ofList nonce.chars

/-- What a token is issued for. -/
structure Order where
  owner : UserId
  name : String
  scopes : List String
  expiresAt : Option Timestamp
  allowlist : List String

/-- A new active token for a secret, which is not kept. -/
def issue (order : Order) (id secret : String) (now : Timestamp) : Except Error Token := do
  let scopes ← Scopes.normalize order.scopes
  checkAllowlist order.allowlist
  return {
    id, owner := order.owner, name := order.name, hash := hashOf secret, scopes,
    status := .active, expiresAt := order.expiresAt, allowlist := order.allowlist,
    createdAt := now }

end Token

end Gatehouse
