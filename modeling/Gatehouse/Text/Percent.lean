import Gatehouse.Text.Hex

/-!
Percent-encoded text, as paths carry it.

A percent sign followed by two hexadecimal digits stands for the byte they spell; everything else
stands for itself. The bytes must be UTF-8.
-/

namespace Gatehouse.Text

/-- The byte that two hexadecimal digits spell. -/
def hexPair? (high low : UInt8) : Option UInt8 := do
  let h ← hexDigit? (Char.ofNat high.toNat)
  let l ← hexDigit? (Char.ofNat low.toNat)
  return UInt8.ofNat (16 * h.val + l.val)

/-- Bytes with every escape replaced, after leaving out `skip` bytes of the last escape. -/
def percentBytes : Nat → List UInt8 → List UInt8
  | _, [] => []
  | skip + 1, _ :: bs => percentBytes skip bs
  | 0, b :: bs =>
    let escaped := if b = 0x25 then
        match bs with
        | high :: low :: _ => hexPair? high low
        | _ => none
      else none
    match escaped with
    | some byte => byte :: percentBytes 2 bs
    | none => b :: percentBytes 0 bs

/-- The text that a percent-encoded text stands for, when its bytes are UTF-8. -/
def percentDecode? (s : String) : Option String :=
  String.fromUTF8? ⟨(percentBytes 0 s.toUTF8.data.toList).toArray⟩

end Gatehouse.Text
