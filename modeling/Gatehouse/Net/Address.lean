import Gatehouse.Text.Decimal
import Gatehouse.Text.Hex

/-!
Internet addresses of both families and their text.

There are two ways to read an address, which differ in two points only (`Form`). The strict one
is for addresses that stand alone: a decimal octet has no leading zeros, and `::` stands for at
least one group. The liberal one is for addresses in front of a prefix length: it allows both.
-/

namespace Gatehouse

/-- An address of one of the two families. -/
inductive Address where
  | v4 (bits : BitVec 32)
  | v6 (bits : BitVec 128)
  deriving Repr, DecidableEq

namespace Address

/-- What the text of an address may look like. -/
structure Form where
  /-- An octet may start with zeros. -/
  paddedOctets : Bool
  /-- `::` may stand between eight groups, for none. -/
  emptyGap : Bool
  deriving Repr, DecidableEq

/-- The form of an address that stands alone. -/
def strict : Form := ⟨false, false⟩

/-- The form of an address in front of a prefix length. -/
def liberal : Form := ⟨true, true⟩

/-- A number of at most `width` digits below `bound`, and what follows it. No further digit may
follow. -/
def takeDecimal (width bound : Nat) (cs : List Char) : Option (Nat × List Char) := do
  let digits := cs.takeWhile Char.isDigit
  let n ← Text.natural? digits
  if digits.length ≤ width ∧ n < bound then some (n, cs.drop digits.length) else none

/-- An octet in decimal digits. -/
def takeOctet (form : Form) (cs : List Char) : Option (Nat × List Char) := do
  let (n, rest) ← takeDecimal 3 256 cs
  if form.paddedOctets || n = 0 && cs.drop 1 = rest || cs.head? ≠ some '0' then some (n, rest)
  else none

/-- Octets after dots. -/
def takeDottedOctets (form : Form) : Nat → List Char → Option (List Nat × List Char)
  | 0, cs => some ([], cs)
  | n + 1, '.' :: cs => do
    let (octet, cs) ← takeOctet form cs
    let (octets, cs) ← takeDottedOctets form n cs
    return (octet :: octets, cs)
  | _ + 1, _ => none

/-- Four octets with dots between them. -/
def takeOctets (form : Form) (cs : List Char) : Option (List Nat × List Char) := do
  let (octet, cs) ← takeOctet form cs
  let (octets, cs) ← takeDottedOctets form 3 cs
  return (octet :: octets, cs)

/-- The value of a list of digits in a base. -/
def ofDigits (base : Nat) (digits : List Nat) : Nat :=
  digits.foldl (fun n d => base * n + d) 0

/-- A group of up to four hexadecimal digits. -/
def takeGroup (cs : List Char) : Option (Nat × List Char) :=
  let digits := cs.takeWhile fun c => (Text.hexDigit? c).isSome
  if 1 ≤ digits.length ∧ digits.length ≤ 4 then
    some (ofDigits 16 (digits.filterMap fun c => (Text.hexDigit? c).map Fin.val),
      cs.drop digits.length)
  else none

/-- What follows the colon in front of every group but the first. -/
def afterColon (first : Bool) (cs : List Char) : Option (List Char) :=
  if first then some cs
  else match cs with
    | ':' :: rest => some rest
    | _ => none

/-- Up to `limit` groups with colons between them, of which the last two may be written as four
octets, and what follows them. `dotted`: they were. -/
def takeGroups (form : Form) (first : Bool) :
    Nat → List Char → List Nat × Bool × List Char
  | 0, cs => ([], false, cs)
  | limit + 1, cs =>
    match afterColon first cs with
    | none => ([], false, cs)
    | some start =>
      match if 1 ≤ limit then takeOctets form start else none with
      | some ([a, b, c, d], rest) => ([256 * a + b, 256 * c + d], true, rest)
      | _ =>
        match takeGroup start with
        | none => ([], false, cs)
        | some (group, rest) =>
          let (groups, dotted, rest) := takeGroups form false limit rest
          (group :: groups, dotted, rest)

/-- An address of the first family, and what follows it. -/
def takeV4 (form : Form) (cs : List Char) : Option (Address × List Char) := do
  let (octets, rest) ← takeOctets form cs
  return (.v4 (BitVec.ofNat 32 (ofDigits 256 octets)), rest)

/-- An address of the second family, and what follows it: eight groups, or fewer around a `::`
that stands for the zero groups left out. -/
def takeV6 (form : Form) (cs : List Char) : Option (Address × List Char) :=
  let (head, dotted, rest) := takeGroups form true 8 cs
  let address (groups : List Nat) := Address.v6 (BitVec.ofNat 128 (ofDigits 65536 groups))
  if head.length = 8 then some (address head, rest)
  else if dotted then none
  else match rest with
    | ':' :: ':' :: rest =>
      let limit := if form.emptyGap then 8 - head.length else 7 - head.length
      let (tail, _, rest) := takeGroups form true limit rest
      some (address (head ++ List.replicate (8 - head.length - tail.length) 0 ++ tail), rest)
    | _ => none

/-- The result of a reader that has used up its text. -/
def whole? {α : Type} : Option (α × List Char) → Option α
  | some (a, []) => some a
  | _ => none

/-- The address that a text spells. -/
def ofText? (s : String) : Option Address :=
  (whole? (takeV4 strict s.toList)).or (whole? (takeV6 strict s.toList))

end Address

end Gatehouse
