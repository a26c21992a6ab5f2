import Gatehouse.Uuid
import Mathlib.Data.List.Basic

/-!
Identifiers are read back from the text that they are written as.
-/

namespace Gatehouse.Uuid

open Gatehouse.Text

/-- Digits in a row are read back. -/
theorem mapM_hexDigit? (ds : List (Fin 16)) : (ds.map hexChar).mapM hexDigit? = some ds := by
  induction ds with
  | nil => rfl
  | cons d ds ih => simp [hexDigit?_hexChar, ih]

theorem ofDigits?_digits (u : Uuid) : ofDigits? (u.digits.map hexChar) = some u := by
  rw [ofDigits?, mapM_hexDigit?]
  exact dif_pos u.size

/-- Groups with hyphens between them are read as the digits in a row. -/
theorem ofGroups?_groups {a b c d e : List Char} (first : a.length = 8) (second : b.length = 4)
    (third : c.length = 4) (fourth : d.length = 4) (last : e.length = 12) :
    ofGroups? (a ++ '-' :: b ++ '-' :: c ++ '-' :: d ++ '-' :: e) =
      ofDigits? (a ++ b ++ c ++ d ++ e) := by
  unfold ofGroups?
  rw [if_pos (by simp [first, second, third, fourth, last])]
  congr 1
  simp (disch := omega) [first, second, third, fourth, List.drop_append,
    List.drop_eq_nil_of_le]

/-- An identifier is read back from its text. -/
theorem ofText?_text (u : Uuid) : ofText? u.text = some u := by
  have size : (u.digits.map hexChar).length = 32 := by rw [List.length_map, u.size]
  have groups : ofGroups? u.chars = ofDigits? (u.digits.map hexChar) := by
    unfold chars
    generalize u.digits.map hexChar = cs at size
    rw [ofGroups?_groups (by simp [size]) (by simp [size]) (by simp [size]) (by simp [size])
      (by simp [size])]
    have row (k n : Nat) : (cs.drop k).take n ++ cs.drop (k + n) = cs.drop k := by
      rw [← List.drop_drop, List.take_append_drop]
    rw [List.append_assoc, row 16 4, List.append_assoc, row 12 4, List.append_assoc, row 8 4,
      List.take_append_drop]
  have length : u.chars.length = 36 := by simp [chars, size]
  simp only [ofText?, text, String.toList_ofList, length]
  exact groups.trans (ofDigits?_digits u)

end Gatehouse.Uuid
