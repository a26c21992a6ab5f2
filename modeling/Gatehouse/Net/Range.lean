import Gatehouse.Net.Address

/-!
Ranges of addresses that agree in their leading bits.

`10.0.0.0/8` is the range of the addresses whose first eight bits are those of `10.0.0.0`. Bits
after the prefix do not matter, and an address alone is the range that holds just it. Addresses of
one family are never in a range of the other.
-/

namespace Gatehouse

/-- The addresses that share the first `length` bits of `base`. -/
structure AddressRange where
  base : Address
  length : Nat
  deriving Repr, DecidableEq

namespace AddressRange

/-- The range holds the address. -/
def contains (r : AddressRange) (a : Address) : Bool :=
  match r.base, a with
  | .v4 base, .v4 bits => base >>> (32 - r.length) == bits >>> (32 - r.length)
  | .v6 base, .v6 bits => base >>> (128 - r.length) == bits >>> (128 - r.length)
  | _, _ => false

/-- The range of one address. -/
def single : Address → AddressRange
  | .v4 bits => ⟨.v4 bits, 32⟩
  | .v6 bits => ⟨.v6 bits, 128⟩

/-- A prefix length after a slash, of at most `width` digits and at most `bits`. -/
def ofPrefix? (width bits : Nat) : Option (Address × List Char) → Option AddressRange
  | some (base, '/' :: cs) =>
    match Address.takeDecimal width (bits + 1) cs with
    | some (length, []) => some ⟨base, length⟩
    | _ => none
  | _ => none

/-- The range that an address and a prefix length spell. -/
def ofCidr? (s : String) : Option AddressRange :=
  (ofPrefix? 2 32 (Address.takeV4 Address.liberal s.toList)).or
    (ofPrefix? 3 128 (Address.takeV6 Address.liberal s.toList))

/-- The range that a text spells: an address with a prefix length, or an address alone. -/
def ofText? (s : String) : Option AddressRange :=
  (ofCidr? s).or ((Address.ofText? s).map single)

end AddressRange

end Gatehouse
