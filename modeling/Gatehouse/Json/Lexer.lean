import Gatehouse.Json.Basic
import Gatehouse.Json.Numeral
import Gatehouse.Text.Decimal

/-!
The lexemes of a JSON text.

A machine reads the text one character at a time; `step` says what each character does to it and
which lexemes it completes. A number ends where the next character cannot belong to it, so its last
character and the lexeme after it may come out together. Text that no lexeme can start or go on with
gives one `broken` lexeme, the last one.
-/

namespace Gatehouse.Json

/-- The smallest pieces of a JSON text. -/
inductive Lexeme where
  | openArray | closeArray | openObject | closeObject | comma | colon
  | null
  | bool (b : Bool)
  | natural (n : Nat)
  | numeral (text : String)
  | string (s : String)
  /-- A string or a number without a value. -/
  | unreadable (isString : Bool)
  /-- The text is not JSON from here on. -/
  | broken
  deriving Repr, DecidableEq

/-- A string while it is read. -/
structure OpenString where
  /-- The characters so far, the last one first. -/
  chars : List Char
  /-- A high surrogate that waits for its low one. -/
  high : Option Nat
  /-- No surrogate has stood alone so far. -/
  sound : Bool
  deriving Repr, DecidableEq

/-- How far a number has come in its grammar. -/
inductive NumberPhase where
  | minus | zero | integer | point | fraction | mark | sign | exponent
  deriving Repr, DecidableEq

/-- Where the machine stands between two characters. -/
inductive LexState where
  | between
  /-- Inside a literal name: the characters still to come, and the lexeme they complete. -/
  | word (rest : List Char) (lexeme : Lexeme)
  | text (s : OpenString)
  /-- After a backslash. -/
  | escape (s : OpenString)
  /-- Inside a `\u` escape: the digits still to come and the value of those read. -/
  | unicode (s : OpenString) (left code : Nat)
  /-- Inside a number, its last character first. -/
  | number (phase : NumberPhase) (chars : List Char)
  /-- After a `broken` lexeme. -/
  | stopped
  deriving Repr, DecidableEq

/-! ### Numbers -/

/-- The lexeme of a complete number, given its last character first. -/
def numberLexeme (chars : List Char) : Lexeme :=
  let text := chars.reverse
  if !(Scaled.ofText text).hasDouble then .unreadable false
  else match Text.natural? text with
    | some n => .natural n
    | none => .numeral (String.ofList text)

/-- A number may end after this phase. -/
def NumberPhase.complete : NumberPhase → Bool
  | .zero | .integer | .fraction | .exponent => true
  | .minus | .point | .mark | .sign => false

/-- The phase after one more character, if the character can go on with the number. -/
def NumberPhase.next? (phase : NumberPhase) (c : Char) : Option NumberPhase :=
  match phase with
  | .minus => if c = '0' then some .zero else if c.isDigit then some .integer else none
  | .zero =>
    if c = '.' then some .point else if c = 'e' ∨ c = 'E' then some .mark else none
  | .integer =>
    if c.isDigit then some .integer else if c = '.' then some .point
    else if c = 'e' ∨ c = 'E' then some .mark else none
  | .point => if c.isDigit then some .fraction else none
  | .fraction =>
    if c.isDigit then some .fraction else if c = 'e' ∨ c = 'E' then some .mark else none
  | .mark =>
    if c = '+' ∨ c = '-' then some .sign else if c.isDigit then some .exponent else none
  | .sign | .exponent => if c.isDigit then some .exponent else none

/-- A zero is never followed by a digit. -/
def NumberPhase.refuses (phase : NumberPhase) (c : Char) : Bool :=
  !phase.complete || phase == .zero && c.isDigit

/-! ### Strings -/

/-- A code unit is the first half of a surrogate pair. -/
def isHigh (code : Nat) : Bool := 0xD800 ≤ code && code < 0xDC00

/-- A code unit is the second half of a surrogate pair. -/
def isLow (code : Nat) : Bool := 0xDC00 ≤ code && code < 0xE000

namespace OpenString

/-- The string before its first character. -/
def start : OpenString := ⟨[], none, true⟩

/-- A waiting high surrogate is left alone. -/
def settle (s : OpenString) : OpenString :=
  { s with high := none, sound := s.sound && s.high.isNone }

/-- One more character. -/
def push (s : OpenString) (c : Char) : OpenString :=
  { s.settle with chars := c :: s.chars }

/-- One more code unit, from an escape. -/
def pushUnit (s : OpenString) (code : Nat) : OpenString :=
  match s.high with
  | some high =>
    if isLow code then
      ⟨Char.ofNat (0x10000 + (high - 0xD800) * 0x400 + (code - 0xDC00)) :: s.chars, none, s.sound⟩
    else s.settle
  | none =>
    if isHigh code then { s with high := some code }
    else if isLow code then { s with sound := false }
    else s.push (Char.ofNat code)

/-- The lexeme of the string that ends here. -/
def lexeme (s : OpenString) : Lexeme :=
  if s.settle.sound then .string (String.ofList s.chars.reverse) else .unreadable true

end OpenString

/-- The character that a one-letter escape stands for. -/
def unescaped? : Char → Option Char
  | '"' => some '"'
  | '\\' => some '\\'
  | '/' => some '/'
  | 'b' => some '\x08'
  | 'f' => some '\x0c'
  | 'n' => some '\n'
  | 'r' => some '\r'
  | 't' => some '\t'
  | _ => none

/-! ### The machine -/

/-- What the machine gives up with. -/
def giveUp : List Lexeme × LexState := ([.broken], .stopped)

/-- A character between lexemes. -/
def begin (c : Char) : List Lexeme × LexState :=
  match c with
  | ' ' | '\n' | '\t' | '\r' => ([], .between)
  | '[' => ([.openArray], .between)
  | ']' => ([.closeArray], .between)
  | '{' => ([.openObject], .between)
  | '}' => ([.closeObject], .between)
  | ',' => ([.comma], .between)
  | ':' => ([.colon], .between)
  | '"' => ([], .text .start)
  | 'n' => ([], .word ['u', 'l', 'l'] .null)
  | 't' => ([], .word ['r', 'u', 'e'] (.bool true))
  | 'f' => ([], .word ['a', 'l', 's', 'e'] (.bool false))
  | '-' => ([], .number .minus ['-'])
  | '0' => ([], .number .zero ['0'])
  | _ => if c.isDigit then ([], .number .integer [c]) else giveUp

/-- One character: the lexemes it completes and where the machine stands after it. -/
def step : LexState → Char → List Lexeme × LexState
  | .between, c => begin c
  | .word [] _, _ => giveUp
  | .word (w :: rest) lexeme, c =>
    if c ≠ w then giveUp
    else if rest.isEmpty then ([lexeme], .between) else ([], .word rest lexeme)
  | .text s, c =>
    if c = '"' then ([s.lexeme], .between)
    else if c = '\\' then ([], .escape s)
    else if c.toNat < 0x20 then giveUp
    else ([], .text (s.push c))
  | .escape s, c =>
    if c = 'u' then ([], .unicode s 4 0)
    else match unescaped? c with
      | some plain => ([], .text (s.push plain))
      | none => giveUp
  | .unicode s left code, c =>
    match Text.hexDigit? c with
    | some d =>
      let code := 16 * code + d.val
      if left ≤ 1 then ([], .text (s.pushUnit code)) else ([], .unicode s (left - 1) code)
    | none => giveUp
  | .number phase chars, c =>
    match phase.next? c with
    | some phase => ([], .number phase (c :: chars))
    | none =>
      if phase.refuses c then giveUp
      else
        let (lexemes, state) := begin c
        (numberLexeme chars :: lexemes, state)
  | .stopped, _ => ([], .stopped)

/-- What the end of the text completes. -/
def LexState.finish : LexState → List Lexeme
  | .between | .stopped => []
  | .number phase chars => if phase.complete then [numberLexeme chars] else [.broken]
  | .word .. | .text _ | .escape _ | .unicode .. => [.broken]

/-- The lexemes of a text that is read on from a state. -/
def lexemesFrom (state : LexState) : List Char → List Lexeme
  | [] => state.finish
  | c :: cs => (step state c).1 ++ lexemesFrom (step state c).2 cs

end Gatehouse.Json
