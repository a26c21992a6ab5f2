/-!
Hexadecimal digits: read in either case, written in lower case.
-/

namespace Gatehouse.Text

/-- The sixteen digits in order, as they are written. -/
def hexChars : List Char :=
  "0123456789abcdef".toList

/-- A digit as it is written. -/
def hexChar (d : Fin 16) : Char :=
  hexChars.get (d.cast (by decide))

/-- The value of a digit in either case. -/
def hexDigit? (c : Char) : Option (Fin 16) :=
  if '0' ≤ c ∧ c ≤ '9' then some (Fin.ofNat 16 (c.toNat - '0'.toNat))
  else if 'a' ≤ c ∧ c ≤ 'f' then some (Fin.ofNat 16 (c.toNat - 'a'.toNat + 10))
  else if 'A' ≤ c ∧ c ≤ 'F' then some (Fin.ofNat 16 (c.toNat - 'A'.toNat + 10))
  else none

/-- Reading undoes writing. -/
theorem hexDigit?_hexChar (d : Fin 16) : hexDigit? (hexChar d) = some d := by
  revert d; decide

/-- The last digit of a number. -/
def lastHexDigit (n : Nat) : Fin 16 := Fin.ofNat 16 n

/-- A byte as two digits, the high one first. -/
def hexByte (b : UInt8) : List Char :=
  [hexChar (lastHexDigit (b.toNat / 16)), hexChar (lastHexDigit b.toNat)]

end Gatehouse.Text
