import Gatehouse.Identifier

/-!
Events: what has changed about roles and users.

An event has a topic. Who wants to hear of events subscribes to a pattern of topics: one topic, all
topics that begin with a word and a point (`user.*`), or all (`*`).
-/

namespace Gatehouse

/-- A change that affects what users are entitled to. -/
inductive Event where
  /-- The permissions of a role were replaced. -/
  | rolePermissionsChanged (role : RoleId)
  /-- The roles of a user changed. -/
  | userRoleAssigned (user : UserId)
  /-- A user was removed. -/
  | userDeleted (user : UserId)
  deriving Repr, DecidableEq

namespace Event

/-- The topic of an event. -/
def topic : Event → String
  | .rolePermissionsChanged _ => "role.permissions_changed"
  | .userRoleAssigned _ => "user.role_assigned"
  | .userDeleted _ => "user.deleted"

end Event

namespace Topic

/-- What stands before the `.*` that a pattern ends in. -/
def family? (pattern : String) : Option (List Char) :=
  match pattern.toList.reverse with
  | '*' :: '.' :: rest => some rest.reverse
  | _ => none

/-- The topic is the family, a point and at least one character. -/
def isWithin (family topic : List Char) : Bool :=
  family.isPrefixOf topic &&
    match topic.drop family.length with
    | '.' :: rest => !rest.isEmpty
    | _ => false

/-- A pattern covers a topic. -/
def covers (pattern topic : String) : Bool :=
  pattern = "*" ||
    match family? pattern with
    | some family => isWithin family topic.toList
    | none => pattern = topic

end Topic

end Gatehouse
