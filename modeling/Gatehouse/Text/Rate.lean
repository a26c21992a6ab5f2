/-!
Rates written with six decimals.

A rate is a quotient of two counts, at most one. It is first rounded to the nearest number with a
significand of 53 bits, as the arithmetic of doubles does, and that number is written with six
decimals. Both roundings send a tie to the even neighbour.
-/

namespace Gatehouse.Text

/-- `num / den` rounded to a natural number, ties to the even neighbour. -/
def roundHalfEven (num den : Nat) : Nat :=
  let low := num / den
  let twice := 2 * (num % den)
  if twice < den then low
  else if den < twice then low + 1
  else low + low % 2

/-- The quotient's nearest double as a fraction `m / 2 ^ k`, for `0 < num ≤ den`. -/
def nearestDouble (num den : Nat) : Nat × Nat :=
  let k := 53 + den.log2 - num.log2
  let k := if num <<< k / den < 1 <<< 53 then k else k - 1
  (roundHalfEven (num <<< k) den, 1 <<< k)

/-- The six decimals of `num / den`; nothing counted is a rate of zero. -/
def rate (num den : Nat) : String :=
  let (m, d) := if num = 0 ∨ den = 0 then (0, 1) else nearestDouble num den
  let millionths := roundHalfEven (m * 1000000) d
  let decimals := Nat.toDigits 10 (millionths % 1000000)
  String.ofList (Nat.toDigits 10 (millionths / 1000000) ++
    '.' :: (List.replicate (6 - decimals.length) '0' ++ decimals))

end Gatehouse.Text
