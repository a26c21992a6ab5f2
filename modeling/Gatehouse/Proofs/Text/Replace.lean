import Gatehouse.Text.Replace
import Mathlib.Data.List.Infix

/-!
What replacing a text does, occurrence by occurrence.

Text in which the first character of the replaced text does not occur stays
(`replaceFrom_append_of_notMem`), so does a character at which no occurrence begins
(`replaceFrom_cons`), and an occurrence is replaced as a whole (`replaceFrom_append`).
-/

namespace Gatehouse.Text

variable {c : Char} {old new cs rest : List Char}

/-- Text without the first character of an occurrence stays. -/
theorem replaceFrom_append_of_notMem (absent : c ∉ cs) :
    replaceFrom (c :: old) new 0 (cs ++ rest) = cs ++ replaceFrom (c :: old) new 0 rest := by
  induction cs with
  | nil => rfl
  | cons d cs ih =>
      obtain ⟨other, absent⟩ := not_or.mp (mt List.mem_cons.mpr absent)
      have start : (c :: old).isPrefixOf (d :: (cs ++ rest)) = false := by
        simp [List.isPrefixOf, other]
      rw [List.cons_append, replaceFrom, start, ih absent]
      rfl

/-- A character at which no occurrence begins stays. -/
theorem replaceFrom_cons (other : ¬ old <+: c :: cs) :
    replaceFrom old new 0 (c :: cs) = c :: replaceFrom old new 0 cs := by
  rw [replaceFrom, if_neg (mt List.isPrefixOf_iff_prefix.mp other)]

/-- The characters of an occurrence are left out. -/
theorem replaceFrom_length (cs rest : List Char) :
    replaceFrom old new cs.length (cs ++ rest) = replaceFrom old new 0 rest := by
  induction cs with
  | nil => rfl
  | cons c cs ih => exact ih

/-- An occurrence is replaced as a whole. -/
theorem replaceFrom_append (c : Char) (old rest : List Char) :
    replaceFrom (c :: old) new 0 (c :: old ++ rest) = new ++ replaceFrom (c :: old) new 0 rest := by
  have begins : (c :: old).isPrefixOf (c :: (old ++ rest)) = true :=
    List.isPrefixOf_iff_prefix.mpr (List.prefix_append (c :: old) rest)
  rw [List.cons_append, replaceFrom, if_pos begins]
  exact congrArg (new ++ ·) (replaceFrom_length old rest)

/-- Replacing a text that is not empty. -/
theorem toList_replace {old : String} {c : Char} {cs : List Char} (letters : old.toList = c :: cs)
    (new text : String) :
    (replace old new text).toList = replaceFrom old.toList new.toList 0 text.toList := by
  rw [replace, String.toList_ofList, letters]
  rfl

end Gatehouse.Text
