import Gatehouse.Identifier
import Gatehouse.Time.Timestamp
import Gatehouse.Uuid

/-!
Audit entries and where they go.

A sink either keeps no entries, because they are only logged, or is a queue of bounded length: it
drops what comes while it is full or after it was closed, and gives out the rest in order.
-/

namespace Gatehouse

/-- How a caller was authenticated. -/
inductive AuthKind where
  /-- By a session. -/
  | session
  /-- By a personal access token. -/
  | token
  deriving Repr, DecidableEq

namespace AuthKind

/-- The name of a kind. -/
def name : AuthKind → String
  | .session => "jwt"
  | .token => "pat"

/-- The kinds by name. -/
def names : List (String × AuthKind) := [("jwt", .session), ("pat", .token)]

end AuthKind

/-- What is recorded of a request that may change something. -/
structure AuditEntry where
  requestId : Uuid
  operation : String
  method : String
  path : String
  user : Option UserId
  authKind : Option AuthKind
  org : Option OrgId
  team : Option TeamId
  time : Timestamp
  deriving Repr, DecidableEq

/-- A queue of audit entries. -/
structure AuditQueue where
  /-- The greatest number of waiting entries; zero counts as one. -/
  buffer : Nat
  /-- The waiting entries, the oldest first. -/
  waiting : List AuditEntry
  closed : Bool
  deriving Repr, DecidableEq

namespace AuditQueue

/-- An open queue without entries. -/
def ofBuffer (buffer : Nat) : AuditQueue := ⟨buffer, [], false⟩

/-- Takes an entry in, unless the queue is full or closed. -/
def record (q : AuditQueue) (e : AuditEntry) : AuditQueue :=
  if q.closed || max 1 q.buffer ≤ q.waiting.length then q
  else { q with waiting := q.waiting ++ [e] }

/-- Gives out the oldest entry. -/
def receive (q : AuditQueue) : Option AuditEntry × AuditQueue :=
  match q.waiting with
  | [] => (none, q)
  | e :: rest => (some e, { q with waiting := rest })

/-- Gives out all entries. -/
def drain (q : AuditQueue) : List AuditEntry × AuditQueue :=
  (q.waiting, { q with waiting := [] })

/-- Takes no further entries in. -/
def close (q : AuditQueue) : AuditQueue := { q with closed := true }

end AuditQueue

/-- Where audit entries go. -/
inductive AuditSink where
  /-- They are logged and not kept. -/
  | log
  | queue (q : AuditQueue)
  deriving Repr, DecidableEq

namespace AuditSink

/-- Records an entry. -/
def record : AuditSink → AuditEntry → AuditSink
  | .log, _ => .log
  | .queue q, e => .queue (q.record e)

/-- Gives out the entries that are kept. -/
def drain : AuditSink → List AuditEntry × AuditSink
  | .log => ([], .log)
  | .queue q => (q.drain.1, .queue q.drain.2)

end AuditSink

end Gatehouse
