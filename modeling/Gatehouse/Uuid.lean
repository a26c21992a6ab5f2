import Gatehouse.Text.Hex

/-!
Universally unique identifiers: 32 hexadecimal digits.

They are written in groups of 8, 4, 4, 4 and 12 digits with hyphens between them. They are read in
this form, also between braces or after `urn:uuid:`, or without hyphens; letters may have either
case.
-/

namespace Gatehouse

/-- An identifier of 128 bits, as its digits. -/
structure Uuid where
  digits : List (Fin 16)
  size : digits.length = 32
  deriving DecidableEq

namespace Uuid

open Gatehouse.Text

instance : Repr Uuid := ⟨fun u n => reprPrec u.digits n⟩

/-- The identifier whose digits are those of a number, filled up with zeros. -/
def ofNat (n : Nat) : Uuid where
  digits := (List.range 32).map fun i => lastHexDigit (n >>> (4 * (31 - i)))
  size := by rw [List.length_map, List.length_range]

/-- The identifier with all digits zero. -/
def zero : Uuid := ofNat 0

instance : Inhabited Uuid := ⟨zero⟩

/-- The text of an identifier. -/
def chars (u : Uuid) : List Char :=
  let cs := u.digits.map hexChar
  cs.take 8 ++ '-' :: (cs.drop 8).take 4 ++ '-' :: (cs.drop 12).take 4 ++
    '-' :: (cs.drop 16).take 4 ++ '-' :: cs.drop 20

/-- The text of an identifier. -/
def text (u : Uuid) : String := String.ofList u.chars

/-- The identifier that 32 digits in a row spell. -/
def ofDigits? (cs : List Char) : Option Uuid := do
  let digits ← cs.mapM hexDigit?
  if size : digits.length = 32 then some ⟨digits, size⟩ else none

/-- The identifier that five groups of digits with hyphens between them spell. -/
def ofGroups? (cs : List Char) : Option Uuid :=
  let at? (i : Nat) := cs[i]? = some '-'
  if cs.length = 36 ∧ at? 8 ∧ at? 13 ∧ at? 18 ∧ at? 23 then
    ofDigits? (cs.take 8 ++ (cs.drop 9).take 4 ++ (cs.drop 14).take 4 ++ (cs.drop 19).take 4 ++
      cs.drop 24)
  else none

/-- What a resource name starts with, in lower case. -/
def resourceName : List Char := "urn:uuid:".toList

/-- The identifier that a text spells in one of its forms. -/
def ofText? (s : String) : Option Uuid :=
  let cs := s.toList
  if cs.length = 32 then ofDigits? cs
  else if cs.length = 36 then ofGroups? cs
  else if cs.length = 38 ∧ cs.head? = some '{' ∧ cs.getLast? = some '}' then
    ofGroups? (cs.drop 1).dropLast
  else if resourceName.isPrefixOf (cs.map Char.toLower) then ofGroups? (cs.drop resourceName.length)
  else none

end Uuid

end Gatehouse
