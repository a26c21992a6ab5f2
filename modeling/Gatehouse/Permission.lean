import Gatehouse.Pattern.Check

/-!
Permissions: an operation pattern granted on a resource pattern.
-/

namespace Gatehouse

/-- The operations of one pattern on the resources of another. -/
structure Permission where
  operation : String
  resource : String
  deriving Repr, DecidableEq, Inhabited

namespace Permission

/-- A permission; an empty resource pattern stands for every resource. -/
def on (operation resource : String) : Permission :=
  ⟨operation, if resource = "" then Pattern.wildcard else resource⟩

/-- A permission on every resource. -/
def everywhere (operation : String) : Permission := .on operation Pattern.wildcard

/-- The pattern of every operation. -/
def everyOperation : String := "*:*:*"

/-- The permission to do everything. -/
def isSuperAdmin (p : Permission) : Bool := p.operation = everyOperation

/-- The text that two permissions share only as far as lists treat them as one. -/
def key (p : Permission) : String := s!"{p.operation}|{p.resource}"

/-- The permission in words. -/
def describe (p : Permission) : String := s!"{p.operation} on {p.resource}"

/-- Accepts the permissions that may be stored: both patterns are checked, the operation first. -/
def check (p : Permission) : Except Error Unit :=
  match Pattern.checkOperation p.operation with
  | .error fault => .error (.pattern fault)
  | .ok () =>
    match Pattern.checkResource p.resource with
    | .error fault => .error (.pattern fault)
    | .ok () => .ok ()

/-- Accepts the lists of which every permission may be stored. -/
def checkAll : List Permission → Except Error Unit
  | [] => .ok ()
  | p :: ps =>
    match p.check with
    | .error e => .error e
    | .ok () => checkAll ps

/-- The permissions without later ones of the same key. -/
def withoutRepeats (ps : List Permission) : List Permission :=
  go [] ps
where
  /-- Leaves out what has a key in `seen`. -/
  go (seen : List String) : List Permission → List Permission
    | [] => []
    | p :: ps => if seen.contains p.key then go seen ps else p :: go (p.key :: seen) ps

end Permission

end Gatehouse
