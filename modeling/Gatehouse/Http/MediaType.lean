import Gatehouse.Text.Case

/-!
Media types, as the `Content-Type` header names them: `type/subtype; name=value`.

The subtype may end in a suffix after its last plus sign. Parameters follow after semicolons, their
values bare or quoted; they must be well-formed, but are not kept.
-/

namespace Gatehouse.Http

/-- A media type without its parameters. -/
structure MediaType where
  type : String
  /-- Without the suffix. -/
  subtype : String
  suffix : Option String
  deriving Repr, DecidableEq

namespace MediaType

/-- A character of a bare word. -/
def isTokenChar (c : Char) : Bool := c.isAlphanum || "!#$%&'*+-.^_|~".toList.contains c ||
  c = Char.ofNat 0x60

/-- A character inside quotes. The quote is one of them: it is the first character when it follows
the opening quote at once, and closes the value after that. -/
def isQuotedChar (c : Char) : Bool := 0x1F < c.toNat && c.toNat ≠ 0x7F

/-- What a reader of parameters expects next. -/
inductive Expected where
  /-- The name of a parameter. `fresh`: it has no character yet. -/
  | name (fresh : Bool)
  /-- Its value. -/
  | value (fresh : Bool)
  | quoted (fresh : Bool)
  /-- A semicolon after a quoted value. -/
  | semicolon

/-- The text goes on with well-formed parameters. -/
def parametersFrom : Expected → List Char → Bool
  | .name fresh, [] => fresh
  | .value _, [] => true
  | .quoted _, [] => false
  | .semicolon, [] => true
  | .name fresh, c :: cs =>
    if c = ' ' ∧ fresh then parametersFrom (.name true) cs
    else if isTokenChar c then parametersFrom (.name false) cs
    else if c = '=' ∧ !fresh then parametersFrom (.value true) cs
    else false
  | .value fresh, c :: cs =>
    if c = '"' ∧ fresh then parametersFrom (.quoted true) cs
    else if isTokenChar c then parametersFrom (.value false) cs
    else if c = ';' ∧ !fresh then parametersFrom (.name true) cs
    else false
  | .quoted fresh, c :: cs =>
    if c = '"' ∧ !fresh then parametersFrom .semicolon cs
    else if isQuotedChar c then parametersFrom (.quoted false) cs
    else false
  | .semicolon, c :: cs =>
    if c = ';' then parametersFrom (.name true) cs
    else if c = ' ' then parametersFrom .semicolon cs
    else false

/-- The media type that a text names. -/
def ofText? (s : String) : Option MediaType :=
  let cs := s.toList
  let type := cs.takeWhile isTokenChar
  match cs.drop type.length with
  | '/' :: rest =>
    let name := rest.takeWhile isTokenChar
    let parameters := match rest.drop name.length with
      | [] => true
      | ';' :: more => parametersFrom (.name true) more
      | _ => false
    if type.isEmpty || name.isEmpty || !parameters then none
    else
      let suffix := (name.reverse.takeWhile (· ≠ '+')).reverse
      let plain := name.take (name.length - suffix.length - 1)
      if suffix.length = name.length ∨ plain.isEmpty then
        some ⟨String.ofList type, String.ofList name, none⟩
      else some ⟨String.ofList type, String.ofList plain, some (String.ofList suffix)⟩
  | _ => none

/-- JSON, or a format that says it is based on JSON. -/
def isJson (t : MediaType) : Bool :=
  Text.sameLetters t.type "application" &&
    (Text.sameLetters t.subtype "json" ||
      match t.suffix with
      | some suffix => Text.sameLetters suffix "json"
      | none => false)

end MediaType

end Gatehouse.Http
