/-!
Natural numbers in decimal digits.

`natural?` reads a non-empty row of ASCII digits, leading zeros allowed. `unsigned?` reads what
identifiers and sizes are written as: one optional plus sign, then such a row, with a value below
a bound.
-/

namespace Gatehouse.Text

/-- The value of an ASCII decimal digit. -/
def digit? (c : Char) : Option Nat :=
  if '0' ≤ c ∧ c ≤ '9' then some (c.toNat - '0'.toNat) else none

/-- The value of a row of digits read after a prefix of value `acc`. -/
def digitsFrom (acc : Nat) : List Char → Option Nat
  | [] => some acc
  | c :: cs =>
    match digit? c with
    | some d => digitsFrom (10 * acc + d) cs
    | none => none

/-- The value of a non-empty row of digits. -/
def natural? : List Char → Option Nat
  | [] => none
  | cs => digitsFrom 0 cs

/-- The value of an unsigned number below `bound`. -/
def unsigned? (bound : Nat) (cs : List Char) : Option Nat :=
  let digits := match cs with
    | '+' :: rest => rest
    | _ => cs
  (natural? digits).filter (· < bound)

/-- A 64-bit unsigned number. -/
def uint64? (s : String) : Option UInt64 :=
  (unsigned? UInt64.size s.toList).map UInt64.ofNat

/-- A 16-bit unsigned number. -/
def uint16? (s : String) : Option UInt16 :=
  (unsigned? UInt16.size s.toList).map UInt16.ofNat

/-- A number in at least `width` digits, filled up with zeros. -/
def padded (width n : Nat) : List Char :=
  let digits := Nat.toDigits 10 n
  List.replicate (width - digits.length) '0' ++ digits

end Gatehouse.Text
