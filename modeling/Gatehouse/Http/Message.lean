import Gatehouse.Error
import Gatehouse.Json.Basic
import Gatehouse.Net.Address
import Gatehouse.Text.Blank
import Gatehouse.Text.Case
import Gatehouse.Text.Pieces

/-!
Requests and responses of the web interface.

Header names are compared without regard to case. A header counts by its first value, and only if
that value is printable ASCII, blanks and tabs included.
-/

namespace Gatehouse.Http

/-- A request as it comes in. -/
structure Message where
  method : String
  /-- The path, and possibly a query; a scheme and a host may stand in front. -/
  target : String
  /-- In order, names in any case. -/
  headers : List (String × String)
  body : String
  /-- The address of the other end of the connection, if it is known. -/
  peer : Option Address
  deriving Repr, DecidableEq

/-- The body of a response. -/
inductive Body where
  | empty
  | json (value : Json)
  /-- An explanation in plain text. -/
  | text (words : String)

/-- A response. -/
structure Response where
  status : Nat
  headers : List (String × String)
  body : Body

namespace Message

/-- What is left of a target after its scheme and its host, if it has them. -/
def withoutHost (target : List Char) : List Char :=
  match target, Text.cutFirst ':' target with
  | '/' :: _, _ => target
  | _, some (_, '/' :: '/' :: rest) => rest.dropWhile (· ≠ '/')
  | _, _ => target

/-- The path, without the query. -/
def path (msg : Message) : String :=
  String.ofList (withoutHost (msg.target.toList.takeWhile fun c => c ≠ '?' && c ≠ '#'))

/-- A header value that can be used as text. -/
def isPlain (value : String) : Bool :=
  value.toList.all fun c => c = '\t' || 0x20 ≤ c.toNat && c.toNat < 0x7F

/-- The text of a header. -/
def header? (msg : Message) (name : String) : Option String :=
  ((msg.headers.find? fun (n, _) => Text.sameLetters n name).map Prod.snd).filter isPlain

/-- The address that a proxy says the request came from: the first that it names. -/
def forwardedFor? (msg : Message) : Option Address := do
  let value ← msg.header? "x-forwarded-for"
  let first ← (Text.split ',' value).head?
  Address.ofText? (Text.trim first)

/-- The address of the client: the other end of the connection, or else what a proxy says. -/
def client? (msg : Message) : Option Address := msg.peer.or msg.forwardedFor?

end Message

namespace Response

/-- A response without a body. -/
def bare (status : Nat) : Response := ⟨status, [], .empty⟩

/-- A response with a JSON value. -/
def ofJson (status : Nat) (value : Json) : Response :=
  ⟨status, [("content-type", "application/json")], .json value⟩

/-- A response with an explanation. -/
def explain (status : Nat) (words : String) : Response :=
  ⟨status, [("content-type", "text/plain; charset=utf-8")], .text words⟩

/-- The response to a request that failed. -/
def ofError (e : Error) : Response :=
  ofJson e.kind.status
    (.object [("error", .string e.kind.code), ("message", .string e.publicMessage)])

/-- The response with a further header. -/
def withHeader (r : Response) (name value : String) : Response :=
  { r with headers := r.headers ++ [(name, value)] }

/-- The response without its body, as `HEAD` asks for. -/
def withoutBody (r : Response) : Response := { r with body := .empty }

end Response

end Gatehouse.Http
