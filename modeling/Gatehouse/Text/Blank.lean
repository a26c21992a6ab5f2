/-!
Blank characters and trimming.

A character is blank when it has the `White_Space` property of Unicode: 25 code points. `trim`
takes the blanks off both ends of a text and leaves those inside it.
-/

namespace Gatehouse.Text

/-- The code points with the `White_Space` property, as inclusive ranges. -/
def blankRanges : List (Nat × Nat) :=
  [(0x09, 0x0D), (0x20, 0x20), (0x85, 0x85), (0xA0, 0xA0), (0x1680, 0x1680), (0x2000, 0x200A),
    (0x2028, 0x2029), (0x202F, 0x202F), (0x205F, 0x205F), (0x3000, 0x3000)]

/-- The character has the `White_Space` property. -/
def isBlank (c : Char) : Bool :=
  blankRanges.any fun (low, high) => low ≤ c.toNat && c.toNat ≤ high

/-- Blanks taken off the front. -/
def trimStart (cs : List Char) : List Char :=
  cs.dropWhile isBlank

/-- Characters satisfying `p` taken off both ends. -/
def trimOf (p : Char → Bool) (cs : List Char) : List Char :=
  ((cs.dropWhile p).reverse.dropWhile p).reverse

/-- Blanks taken off both ends. -/
def trim (s : String) : String :=
  String.ofList (trimOf isBlank s.toList)

end Gatehouse.Text
