import Gatehouse.Error
import Gatehouse.Text.Pieces

/-!
Operations: what a route lets a caller do, written `scope:resource:action`.

The first segment of an operation is its scope. Four scopes have a meaning of their own (`Domain`);
any other makes an operation that only permissions on everything reach.
-/

namespace Gatehouse

/-- The scopes with a meaning. -/
inductive Domain where
  /-- Open to everyone, without a credential. -/
  | anyone
  /-- The caller's own account. -/
  | own
  /-- An organization or one of its teams. -/
  | org
  /-- The system as a whole. -/
  | sys
  deriving Repr, DecidableEq

namespace Domain

/-- The scopes with a meaning, by name. -/
def names : List (String × Domain) :=
  [("public", .anyone), ("self", .own), ("org", .org), ("sys", .sys)]

/-- The first segment of the operations of a domain. -/
def name : Domain → String
  | .anyone => "public"
  | .own => "self"
  | .org => "org"
  | .sys => "sys"

/-- The domain with a name. -/
def ofName? (name : String) : Option Domain := names.lookup name

theorem ofName?_name (d : Domain) : ofName? d.name = some d := by
  cases d <;> decide

end Domain

/-- The text has three segments, none of them empty. -/
def isOperation (text : String) : Bool :=
  match Text.split ':' text with
  | [scope, resource, action] => scope ≠ "" && resource ≠ "" && action ≠ ""
  | _ => false

/-- An operation, as its text. -/
structure Operation where
  text : String
  valid : isOperation text = true
  deriving DecidableEq

namespace Operation

instance : Repr Operation := ⟨fun op n => reprPrec op.text n⟩

/-- The operation with a text, if it is one. -/
def ofText? (text : String) : Option Operation :=
  if valid : isOperation text then some ⟨text, valid⟩ else none

/-- The operation with a text, or the error that it is none. -/
def parse (text : String) : Except Error Operation :=
  match ofText? text with
  | some op => .ok op
  | none => .error (.malformedOperation text)

/-- The first segment. -/
def scope (op : Operation) : String := (Text.split ':' op.text).headD ""

/-- The domain of the operation, if its scope has a meaning. -/
def domain? (op : Operation) : Option Domain := Domain.ofName? op.scope

/-- The operation is open to everyone. -/
def isPublic (op : Operation) : Bool := op.domain? = some .anyone

end Operation

end Gatehouse
