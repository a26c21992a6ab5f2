import Gatehouse.Text.Hex

/-!
JSON values and their compact text.

The members of an object are kept in the order of the text, so that a name written twice stays
visible. Three constructors stand for text that is not a value:

* `unreadable` is a string with an unpaired surrogate escape or a number beyond the range of a
  double: it may be skipped but has no value;
* `misnamed` stands for the value of a member whose name is such a string;
* `broken` marks the place where the text stops being JSON. It is always the last thing in the
  text, so a reader that goes through a value in order meets every earlier problem first.

`compact` writes a value without blanks.
-/

namespace Gatehouse

/-- A JSON value, as far as its text could be read. -/
inductive Json where
  | null
  | bool (b : Bool)
  /-- A number written in digits alone. -/
  | natural (n : Nat)
  /-- Any other number, kept as it is written. -/
  | numeral (text : String)
  | string (s : String)
  | array (items : List Json)
  | object (members : List (String × Json))
  | unreadable
  | misnamed
  | broken
  deriving Inhabited, Repr

namespace Json

/-! ### Compact text -/

/-- A character inside a string: quotes, backslashes and control characters are escaped. -/
def escaped (c : Char) : List Char :=
  if c = '"' then ['\\', '"']
  else if c = '\\' then ['\\', '\\']
  else if c = '\x08' then ['\\', 'b']
  else if c = '\x0c' then ['\\', 'f']
  else if c = '\n' then ['\\', 'n']
  else if c = '\r' then ['\\', 'r']
  else if c = '\t' then ['\\', 't']
  else if c.toNat < 0x20 then '\\' :: 'u' :: '0' :: '0' :: Text.hexByte (UInt8.ofNat c.toNat)
  else [c]

/-- A quoted string in front of `rest`. -/
def quoted (s : String) (rest : List Char) : List Char :=
  '"' :: s.toList.foldr (fun c text => escaped c ++ text) ('"' :: rest)

mutual

/-- The compact text of a value in front of `rest`. -/
def onto : Json → List Char → List Char
  | .bool true, rest => 't' :: 'r' :: 'u' :: 'e' :: rest
  | .bool false, rest => 'f' :: 'a' :: 'l' :: 's' :: 'e' :: rest
  | .natural n, rest => Nat.toDigits 10 n ++ rest
  | .numeral text, rest => text.toList ++ rest
  | .string s, rest => quoted s rest
  | .array [], rest => '[' :: ']' :: rest
  | .array (item :: items), rest => '[' :: onto item (itemsOnto items (']' :: rest))
  | .object [], rest => '{' :: '}' :: rest
  | .object ((name, value) :: members), rest =>
    '{' :: quoted name (':' :: onto value (membersOnto members ('}' :: rest)))
  | .null, rest | .unreadable, rest | .misnamed, rest | .broken, rest =>
    'n' :: 'u' :: 'l' :: 'l' :: rest

/-- Further items of an array, each after a comma. -/
def itemsOnto : List Json → List Char → List Char
  | [], rest => rest
  | item :: items, rest => ',' :: onto item (itemsOnto items rest)

/-- Further members of an object, each after a comma. -/
def membersOnto : List (String × Json) → List Char → List Char
  | [], rest => rest
  | (name, value) :: members, rest =>
    ',' :: quoted name (':' :: onto value (membersOnto members rest))

end

/-- The text of a value without blanks. -/
def compact (j : Json) : String := String.ofList (j.onto [])

/-! ### What can be skipped and what can be read -/

mutual

/-- The text of the value was JSON up to its end. -/
def intact : Json → Bool
  | .array items => intactItems items
  | .object members => intactMembers members
  | .broken => false
  | _ => true

/-- All items are intact. -/
def intactItems : List Json → Bool
  | [] => true
  | item :: items => intact item && intactItems items

/-- The values of all members are intact. -/
def intactMembers : List (String × Json) → Bool
  | [] => true
  | (_, value) :: members => intact value && intactMembers members

end

mutual

/-- The value and every value inside it can be read, and no more than `depth` arrays and objects
stand inside each other. -/
def readableWithin : Nat → Json → Bool
  | 0, .array _ | 0, .object _ => false
  | depth + 1, .array items => readableItems depth items
  | depth + 1, .object members => readableMembers depth members
  | _, .broken | _, .unreadable | _, .misnamed => false
  | _, _ => true

/-- All items are readable within `depth`. -/
def readableItems : Nat → List Json → Bool
  | _, [] => true
  | depth, item :: items => readableWithin depth item && readableItems depth items

/-- The values of all members are readable within `depth`. -/
def readableMembers : Nat → List (String × Json) → Bool
  | _, [] => true
  | depth, (_, value) :: members => readableWithin depth value && readableMembers depth members

end

/-- The first member of an object with a name. -/
def member? (name : String) : Json → Option Json
  | .object members => members.lookup name
  | _ => none

end Json

end Gatehouse
