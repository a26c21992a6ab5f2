import Gatehouse.Permission

/-!
Scopes of access tokens.

A token carries names of scopes. `full`, or no scope at all, leaves its owner's permissions as they
are; other scopes keep only the permissions whose operation pattern begins with one of them, and
never the one to do everything.
-/

namespace Gatehouse

/-- The scopes that a token may be issued with. -/
inductive TokenScope where
  | full | own | sys
  deriving Repr, DecidableEq

namespace TokenScope

/-- All scopes, in the order they are offered. -/
def all : List TokenScope := [.full, .own, .sys]

/-- The name of a scope, as tokens carry it. -/
def name : TokenScope → String
  | .full => "full"
  | .own => "self"
  | .sys => "sys"

/-- The name of a scope for people. -/
def displayName : TokenScope → String
  | .full => "Full access"
  | .own => "Own account"
  | .sys => "System administration"

/-- What a scope is for. -/
def description : TokenScope → String
  | .full => "Everything the token owner is allowed to do, including administration"
  | .own => "Read and manage the token owner's own profile and settings"
  | .sys => "System-level operations the token owner is allowed to perform"

/-- The scope with a name, or the error that there is none. -/
def parse (name : String) : Except Error TokenScope :=
  match all.find? (·.name == name) with
  | some scope => .ok scope
  | none => .error (.unknownScope name)

end TokenScope

namespace Scopes

/-- The scopes narrow nothing. -/
def areFull (scopes : List String) : Bool :=
  scopes.isEmpty || scopes.contains TokenScope.full.name

/-- The operation pattern begins with one of the scopes. -/
def cover (scopes : List String) (p : Permission) : Bool :=
  scopes.any fun scope => (scope.toList ++ [':']).isPrefixOf p.operation.toList

/-- The permissions that a token with these scopes may use of its owner's. -/
def restrict (scopes : List String) (ps : List Permission) : List Permission :=
  if areFull scopes then ps
  else Permission.withoutRepeats (ps.filter fun p => !p.isSuperAdmin && cover scopes p)

/-- The names without those in `kept` and without repeats. All must be names of scopes. -/
def collect (kept : List String) : List String → Except Error (List String)
  | [] => .ok kept
  | name :: names =>
    match TokenScope.parse name with
    | .error e => .error e
    | .ok scope =>
      collect (if kept.contains scope.name then kept else kept ++ [scope.name]) names

/-- The scopes a token is issued with: those requested, each once, and `full` for none. -/
def normalize (requested : List String) : Except Error (List String) :=
  if requested.isEmpty then .ok [TokenScope.full.name] else collect [] requested

end Scopes

end Gatehouse
