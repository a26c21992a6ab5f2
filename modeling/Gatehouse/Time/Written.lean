import Gatehouse.Text.Blank
import Gatehouse.Text.Case
import Gatehouse.Text.Decimal
import Gatehouse.Time.Timestamp

/-!
Moments in the notation of the Internet: `2024-02-29T12:30:00.500Z`.

They are written in universal time, with no fraction of a second or with three, six or nine digits
of it, whichever is the least that is exact. Reading is more liberal: numbers need no leading zeros,
blanks may stand between the parts, date and time may be parted by a blank or a small letter, the
offset may be any below a day, and digits beyond the ninth of a fraction are dropped.
-/

namespace Gatehouse.Timestamp

open Gatehouse.Text

/-! ### Writing -/

/-- The digits of a fraction of a second given in billionths. -/
def fraction (nano : Nat) : List Char :=
  if nano = 0 then []
  else if nano % 1000000 = 0 then '.' :: padded 3 (nano / 1000000)
  else if nano % 1000 = 0 then '.' :: padded 6 (nano / 1000)
  else '.' :: padded 9 nano

/-- A year; one that does not have four digits carries a sign. -/
def yearText (year : Int) : List Char :=
  if 0 ≤ year ∧ year ≤ 9999 then padded 4 year.toNat
  else (if year < 0 then '-' else '+') :: padded 4 year.natAbs

/-- The text of a moment. -/
def chars (t : Timestamp) : List Char :=
  let ⟨⟨year, month, day⟩, hour, minute, second, nano⟩ := t.time
  yearText year ++ '-' :: padded 2 month ++ '-' :: padded 2 day ++
    'T' :: padded 2 hour ++ ':' :: padded 2 minute ++ ':' :: padded 2 second ++
    fraction nano ++ ['Z']

/-- The text of a moment. -/
def text (t : Timestamp) : String := String.ofList t.chars

instance : ToString Timestamp := ⟨text⟩

/-! ### Reading -/

/-- A number of at most `width` digits, and what follows it. -/
def takeNumber (width : Nat) (cs : List Char) : Option (Nat × List Char) := do
  let digits := (cs.take width).takeWhile Char.isDigit
  let n ← natural? digits
  return (n, cs.drop digits.length)

/-- A number after blanks. -/
def takeField (width : Nat) (cs : List Char) : Option (Nat × List Char) :=
  takeNumber width (trimStart cs)

/-- A year after blanks: up to four digits, or any number of them after a sign. -/
def takeYear (cs : List Char) : Option (Int × List Char) :=
  match trimStart cs with
  | '-' :: rest => (takeNumber rest.length rest).map fun (n, rest) => (-(n : Int), rest)
  | '+' :: rest => (takeNumber rest.length rest).map fun (n, rest) => ((n : Int), rest)
  | rest => (takeNumber 4 rest).map fun (n, rest) => ((n : Int), rest)

/-- What follows a mark that may have blanks in front of it. -/
def afterMark (mark : Char) (cs : List Char) : Option (List Char) :=
  match trimStart cs with
  | c :: rest => if c = mark then some rest else none
  | [] => none

/-- A fraction of a second in billionths: nine digits count, more are dropped. -/
def takeFraction (cs : List Char) : Option (Nat × List Char) :=
  match cs with
  | '.' :: rest => do
    let digits := rest.takeWhile Char.isDigit
    let counted := digits.take 9
    if counted.isEmpty then none
    let nano ← natural? (counted ++ List.replicate (9 - counted.length) '0')
    return (nano, rest.drop digits.length)
  | _ => some (0, cs)

/-- A sign in front of an offset: `true` for minus, which has two forms. -/
def takeSign : List Char → Option (Bool × List Char)
  | '+' :: rest => some (false, rest)
  | '-' :: rest => some (true, rest)
  | '\u2212' :: rest => some (true, rest)
  | _ => none

/-- Two digits. -/
def twoDigits : List Char → Option (Nat × List Char)
  | a :: b :: rest => do
    let high ← digit? a
    let low ← digit? b
    return (10 * high + low, rest)
  | _ => none

/-- An offset in minutes: a letter for none, or hours and minutes after a sign. -/
def takeOffset (cs : List Char) : Option (Int × List Char) :=
  match cs with
  | 'Z' :: rest | 'z' :: rest => some (0, rest)
  | _ =>
    if (cs.take 3).map Char.toUpper = ['U', 'T', 'C'] then some (0, cs.drop 3)
    else do
      let (negative, rest) ← takeSign cs
      let (hours, rest) ← twoDigits rest
      let (minutes, rest) ← twoDigits (rest.dropWhile fun c => c = ':' || isBlank c)
      if minutes < 60 ∧ hours < 24 then
        let offset : Int := 60 * hours + minutes
        return (if negative then -offset else offset, rest)
      else none

/-- The letter or blank between date and time. -/
def afterDate : List Char → Option (List Char)
  | 'T' :: rest | 't' :: rest | ' ' :: rest => some rest
  | _ => none

/-- The moment that a list of characters denotes. -/
def ofChars? (cs : List Char) : Option Timestamp := do
  let (year, cs) ← takeYear cs
  let (month, cs) ← takeField 2 (← afterMark '-' cs)
  let (day, cs) ← takeField 2 (← afterMark '-' cs)
  let (hour, cs) ← takeField 2 (← afterDate cs)
  let (minute, cs) ← takeField 2 (← afterMark ':' cs)
  let (second, cs) ← takeField 2 (← afterMark ':' cs)
  let (nano, cs) ← takeFraction cs
  let (offset, cs) ← takeOffset (trimStart cs)
  if (trimStart cs).isEmpty then
    let there ← ofDateTime? ⟨⟨year, month, day⟩, hour, minute, second, nano⟩
    ofDateTime? (there.time.minus offset)
  else none

/-- The moment that a text denotes. -/
def ofText? (s : String) : Option Timestamp := ofChars? s.toList

end Gatehouse.Timestamp
