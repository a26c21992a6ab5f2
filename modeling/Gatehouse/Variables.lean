import Gatehouse.Table
import Gatehouse.Text.Replace

/-!
Variables in resource templates.

Variables are names with values. Resolving a template replaces their names, the longest first, so
that a name never spoils a longer one that begins with it; names without a value stay.
-/

namespace Gatehouse

/-- The bound names and their values. -/
structure Variables where
  bindings : Table String String
  deriving Repr, DecidableEq

namespace Variables

/-- The caller. -/
def me : String := "@me"

/-- The organization of the request. -/
def org : String := "@org"

/-- The team of the request. -/
def team : String := "@team"

/-- Nothing is bound. -/
def empty : Variables := ⟨.empty⟩

instance : Inhabited Variables := ⟨empty⟩

/-- Binds a name, in the place of an earlier value. -/
def bind (vars : Variables) (name value : String) : Variables := ⟨vars.bindings.insert name value⟩

/-- The value of a name. -/
def find? (vars : Variables) (name : String) : Option String := vars.bindings.find? name

/-- The name has a value. -/
def isBound (vars : Variables) (name : String) : Bool := vars.bindings.contains name

/-- Puts a binding behind those with names at least as long in bytes. -/
def place (b : String × String) : List (String × String) → List (String × String)
  | [] => [b]
  | b' :: rest =>
    if b'.1.utf8ByteSize < b.1.utf8ByteSize then b :: b' :: rest else b' :: place b rest

/-- The bindings in the order they are resolved in: longer names first, equally long ones in
their own order. -/
def byLength (vars : Variables) : List (String × String) :=
  vars.bindings.entries.foldl (fun sorted b => place b sorted) []

/-- The template with every bound name replaced by its value. -/
def resolve (vars : Variables) (template : String) : String :=
  vars.byLength.foldl (fun text (name, value) => Text.replace name value text) template

/-- The resolved template, if every required name is bound. -/
def resolveBound (vars : Variables) (template : String) (required : List String) :
    Option String :=
  if required.all vars.isBound then some (vars.resolve template) else none

end Variables

end Gatehouse
