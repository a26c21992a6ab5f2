import Gatehouse.Json.Reader

/-!
Reading JSON values as data of a known shape.

A reader fails for one of two reasons: the text is `malformed`, that is, it is not JSON where the
reader looks at it, or the value there has the wrong shape, a `mismatch`. Readers go through a value
in the order of its text, so the first problem of the text is the one reported.

A record is described by its `RecordField`s. It may be written as an object, whose members come in
any order, each name at most once, unknown names skipped; or as an array of its fields in order.
-/

namespace Gatehouse.Json

/-- Why a value could not be read. -/
inductive Issue where
  /-- The text is not JSON here. -/
  | malformed
  /-- The value has the wrong shape. -/
  | mismatch
  deriving Repr, DecidableEq

/-- Reads a value as an `α`. -/
abbrev Reader (α : Type) := Json → Except Issue α

variable {α ρ : Type}

/-- The failure at a value that does not have the shape looked for. -/
def refuse : Reader α
  | .broken | .unreadable | .misnamed => .error .malformed
  | _ => .error .mismatch

/-- A string. -/
def readString : Reader String
  | .string s => .ok s
  | j => refuse j

/-- A truth value. -/
def readBool : Reader Bool
  | .bool b => .ok b
  | j => refuse j

/-- A number written in digits alone, below a bound. -/
def readBelow (bound : Nat) : Reader Nat
  | .natural n => if n < bound then .ok n else .error .mismatch
  | j => refuse j

/-- A 64-bit unsigned number. -/
def readUInt64 : Reader UInt64 := fun j => UInt64.ofNat <$> readBelow UInt64.size j

/-- A 16-bit unsigned number. -/
def readUInt16 : Reader UInt16 := fun j => UInt16.ofNat <$> readBelow UInt16.size j

/-- A string that `ofText?` accepts. -/
def readText (ofText? : String → Option α) : Reader α
  | .string s =>
    match ofText? s with
    | some a => .ok a
    | none => .error .mismatch
  | j => refuse j

/-- Every item of an array, in order. -/
def readItems (read : Reader α) : List Json → Except Issue (List α)
  | [] => .ok []
  | j :: rest => do
    let a ← read j
    let as ← readItems read rest
    return a :: as

/-- An array of items of one kind. -/
def readList (read : Reader α) : Reader (List α)
  | .array items => readItems read items
  | j => refuse j

/-- `null`, or a value. -/
def readOptional (read : Reader α) : Reader (Option α)
  | .null => .ok none
  | j => some <$> read j

/-- One of a list of named values: its name, or an object whose only member has this name and the
value `null`. -/
def readTag (tags : List (String × α)) : Reader α
  | .string name =>
    match tags.lookup name with
    | some a => .ok a
    | none => .error .mismatch
  | .object [(name, value)] =>
    match tags.lookup name, value with
    | some a, .null => .ok a
    | some _, value => refuse value
    | none, _ => .error .mismatch
  | j => refuse j

/-! ### Records -/

/-- When a field may be left out. -/
inductive Presence where
  | required
  /-- It may be left out of an object. -/
  | optional
  /-- It may be left out of an object, and be missing at the end of an array. -/
  | defaulted
  deriving Repr, DecidableEq

/-- A field of a record of type `ρ`. -/
structure RecordField (ρ : Type) where
  name : String
  presence : Presence
  /-- Reads the field and stores it in the record. -/
  put : Json → ρ → Except Issue ρ

/-- A field with a reader and a way to store what it reads. -/
def RecordField.of (name : String) (presence : Presence) (read : Reader α) (set : α → ρ → ρ) :
    RecordField ρ :=
  ⟨name, presence, fun j r => (set · r) <$> read j⟩

/-- Stores the members of an object, given the names stored before. -/
def putMembers (fields : List (RecordField ρ)) :
    List (String × Json) → List String → ρ → Except Issue (List String × ρ)
  | [], seen, r => .ok (seen, r)
  | (_, .misnamed) :: _, _, _ => .error .malformed
  | (name, value) :: rest, seen, r =>
    match fields.find? (·.name == name) with
    | none => if value.intact then putMembers fields rest seen r else .error .malformed
    | some field =>
      if seen.contains name then .error .mismatch
      else
        match field.put value r with
        | .ok r => putMembers fields rest (name :: seen) r
        | .error issue => .error issue

/-- Stores the items of an array in the fields in order. -/
def putItems : List (RecordField ρ) → List Json → ρ → Except Issue ρ
  | [], [], r => .ok r
  | [], _ :: _, _ => .error .malformed
  | field :: fields, [], r =>
    if field.presence = .defaulted then putItems fields [] r else .error .mismatch
  | field :: fields, item :: items, r =>
    match field.put item r with
    | .ok r => putItems fields items r
    | .error issue => .error issue

/-- A record with these fields; `blank` holds the values of fields that are left out. -/
def readRecord (fields : List (RecordField ρ)) (blank : ρ) : Reader ρ
  | .object members =>
    match putMembers fields members [] blank with
    | .ok (seen, r) =>
      if fields.all fun f => f.presence ≠ .required || seen.contains f.name then .ok r
      else .error .mismatch
    | .error issue => .error issue
  | .array items => putItems fields items blank
  | j => refuse j

/-! ### Texts -/

/-- The value that a text leads with, read; what follows it does not matter. -/
def decodeLeading (read : Reader α) (text : String) : Except Issue α :=
  read (document text).1

/-- The value of a text that holds nothing else, read. -/
def decode? (read : Reader α) (text : String) : Option α :=
  match document text with
  | (j, false) => (read j).toOption
  | (_, true) => none

end Gatehouse.Json
