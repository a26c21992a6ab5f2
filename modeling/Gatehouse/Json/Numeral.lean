import Gatehouse.Text.Decimal

/-!
Which JSON numbers a double can hold.

A number is first cut down to a significand of 64 bits and a power of ten: digits that no longer fit
are dropped, and only dropped digits before the point count towards the power. The significand and
the power are then rounded to doubles, each on its own, and the number has a value when their
product does not round beyond the largest double. The two roundings may carry a number just below
that limit over it, and a number just above the limit below it.
-/

namespace Gatehouse.Json

/-! ### Doubles -/

/-- The least number that rounds to a double beyond the largest. -/
def beyondDoubles : Nat := (1 <<< 1024) - (1 <<< 970)

/-- The multiple of `unit` nearest to a number, in units; of two that are equally near, the even
one. -/
def nearestMultiple (unit n : Nat) : Nat :=
  let below := n / unit
  let rest := n % unit
  if unit < 2 * rest ∨ 2 * rest = unit ∧ below % 2 = 1 then below + 1 else below

/-- The double nearest to a number, as if doubles had no largest one: 53 binary digits, and an even
last one of two that are equally near. -/
def nearestDouble (n : Nat) : Nat :=
  let unit := 1 <<< (n.log2 + 1 - 53)
  nearestMultiple unit n * unit

/-! ### Significand and power -/

/-- A number as `significand` times ten to the `power`. -/
structure Scaled where
  significand : Nat
  power : Int
  deriving Repr, DecidableEq

namespace Scaled

/-- A significand has 64 bits. -/
def significandBound : Nat := 1 <<< 64

/-- The digits before the point, after some of value `acc`. From the first digit that the
significand has no room for, each digit is a factor of ten. -/
def ofWholeFrom (acc : Nat) : List Nat → Scaled
  | [] => ⟨acc, 0⟩
  | d :: ds =>
    if 10 * acc + d < significandBound then ofWholeFrom (10 * acc + d) ds
    else ⟨acc, (d :: ds).length⟩

/-- The digits after the point. From the first digit that the significand has no room for, they are
dropped. -/
def withPlaces (n : Scaled) : List Nat → Scaled
  | [] => n
  | d :: ds =>
    if 10 * n.significand + d < significandBound then
      withPlaces ⟨10 * n.significand + d, n.power - 1⟩ ds
    else n

/-- The number times ten to the `k`. -/
def shift (n : Scaled) (k : Int) : Scaled := { n with power := n.power + k }

/-- A double holds the number. -/
def hasDouble (n : Scaled) : Bool :=
  n.significand = 0 || n.power < 0 || n.power ≤ 308 &&
    nearestDouble n.significand * nearestDouble (Nat.pow 10 n.power.toNat) < beyondDoubles

/-- The value of an exponent, with or without a sign. -/
def exponent : List Char → Int
  | '-' :: ds => -((Text.digitsFrom 0 ds).getD 0 : Nat)
  | '+' :: ds => ((Text.digitsFrom 0 ds).getD 0 : Nat)
  | ds => ((Text.digitsFrom 0 ds).getD 0 : Nat)

/-- The number that a JSON number spells, without its sign. -/
def ofText (text : List Char) : Scaled :=
  let digits := text.takeWhile fun c => c ≠ 'e' && c ≠ 'E'
  let whole := digits.takeWhile (· ≠ '.')
  let places := digits.drop whole.length
  let power := exponent (text.drop (digits.length + 1))
  ((ofWholeFrom 0 (whole.filterMap Text.digit?)).withPlaces (places.filterMap Text.digit?)).shift
    power

end Scaled

end Gatehouse.Json
