import Gatehouse.Json.Lexer

/-!
From lexemes to values.

The arrays and objects that are still open are kept on a stack, and every lexeme either completes a
value, opens or closes one, or cannot stand where it does. In the last case what has been read so
far is kept, with `broken` in the place where the text stopped being JSON. Reading ends with the
first complete value; `document` tells whether anything but blanks follows it.
-/

namespace Gatehouse.Json

/-- An array or an object that is still open, what it holds so far last first. -/
inductive Frame where
  | array (items : List Json)
  | object (members : List (String × Json))
  /-- An object that waits for the value of a member. A name that cannot be read is `none`. -/
  | member (members : List (String × Json)) (name : Option String)

/-- What may come next. -/
inductive Expected where
  | value | itemOrClose | commaOrClose | nameOrClose | name | colon

/-- How far reading has come. -/
inductive Progress where
  | open (stack : List Frame) (expected : Expected)
  /-- The value is complete; `trailing`: more than blanks follows. -/
  | complete (value : Json) (trailing : Bool)

/-- The value read so far, given the value that its innermost open part ends with. -/
def abandon : List Frame → Json → Json
  | [], j => j
  | .array items :: stack, j => abandon stack (.array (items.reverse ++ [j]))
  | .object members :: stack, j => abandon stack (.object (members.reverse ++ [("", j)]))
  | .member members (some name) :: stack, j =>
    abandon stack (.object (members.reverse ++ [(name, j)]))
  | .member members none :: stack, j =>
    abandon stack (.object (members.reverse ++ [("", .misnamed), ("", j)]))

/-- The text stops being JSON here. -/
def breakOff (stack : List Frame) : Progress := .complete (abandon stack .broken) false

/-- A value is complete. -/
def supply (stack : List Frame) (j : Json) : Progress :=
  match stack with
  | [] => .complete j false
  | .array items :: stack => .open (.array (j :: items) :: stack) .commaOrClose
  | .member members (some name) :: stack =>
    .open (.object ((name, j) :: members) :: stack) .commaOrClose
  | .member members none :: stack =>
    .open (.object (("", .misnamed) :: members) :: stack) .commaOrClose
  | .object _ :: _ => breakOff stack

/-- The value that a lexeme is by itself. -/
def Lexeme.value? : Lexeme → Option Json
  | .null => some .null
  | .bool b => some (.bool b)
  | .natural n => some (.natural n)
  | .numeral text => some (.numeral text)
  | .string s => some (.string s)
  | .unreadable _ => some .unreadable
  | _ => none

/-- A lexeme where a value may stand. -/
def onValue (stack : List Frame) (t : Lexeme) : Progress :=
  match t with
  | .openArray => .open (.array [] :: stack) .itemOrClose
  | .openObject => .open (.object [] :: stack) .nameOrClose
  | _ =>
    match t.value? with
    | some j => supply stack j
    | none => breakOff stack

/-- The innermost open part is closed. -/
def onClose (stack : List Frame) (t : Lexeme) : Progress :=
  match stack, t with
  | .array items :: rest, .closeArray => supply rest (.array items.reverse)
  | .object members :: rest, .closeObject => supply rest (.object members.reverse)
  | _, _ => breakOff stack

/-- A lexeme where the name of a member may stand. -/
def onName (stack : List Frame) (t : Lexeme) : Progress :=
  match stack, t with
  | .object members :: rest, .string name => .open (.member members (some name) :: rest) .colon
  | .object members :: rest, .unreadable true => .open (.member members none :: rest) .colon
  | _, _ => breakOff stack

/-- One more lexeme. -/
def Progress.next : Progress → Lexeme → Progress
  | .complete j _, _ => .complete j true
  | .open stack .value, t => onValue stack t
  | .open stack .itemOrClose, t =>
    if t = .closeArray then onClose stack t else onValue stack t
  | .open stack .nameOrClose, t =>
    if t = .closeObject then onClose stack t else onName stack t
  | .open stack .name, t => onName stack t
  | .open stack .colon, t => if t = .colon then .open stack .value else breakOff stack
  | .open stack .commaOrClose, t =>
    if t = .comma then
      match stack with
      | .object _ :: _ => .open stack .name
      | _ => .open stack .value
    else onClose stack t

/-- What stands at the end of the text. -/
def Progress.finish : Progress → Json × Bool
  | .complete j trailing => (j, trailing)
  | .open stack _ => (abandon stack .broken, false)

/-- The value of a list of lexemes, and whether more follows it. -/
def ofLexemes (lexemes : List Lexeme) : Json × Bool :=
  (lexemes.foldl Progress.next (.open [] .value)).finish

/-- The first value of a text, and whether more than blanks follows it. -/
def document (text : String) : Json × Bool :=
  ofLexemes (lexemesFrom .between text.toList)

/-- The value of a text that holds nothing else. -/
def ofText? (text : String) : Option Json :=
  match document text with
  | (j, false) => if j.intact then some j else none
  | (_, true) => none

end Gatehouse.Json
