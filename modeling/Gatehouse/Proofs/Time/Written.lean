import Gatehouse.Proofs.Text.Blank
import Gatehouse.Proofs.Text.Decimal
import Gatehouse.Time.Written

/-!
Moments are read back from the text that they are written as.

This is so in the years that are written in four digits. Numbers are written in as many digits as they
may have and the marks between them without blanks, so each part is read up to where it was written
(`takeField_padded`, `takeFraction_fraction`), and the offset of universal time is none.
-/

namespace Gatehouse.Timestamp

open Gatehouse.Text

variable {width n nano : Nat} {rest : List Char}

/-- The moment is of one of the years that are written in four digits. -/
def InFourDigits (t : Timestamp) : Prop := 0 ≤ t.time.date.year ∧ t.time.date.year ≤ 9999

instance (t : Timestamp) : Decidable t.InFourDigits := by unfold InFourDigits; infer_instance

/-! ### Numbers -/

theorem isBlank_of_isDigit {c : Char} (digit : c.isDigit = true) : isBlank c = false :=
  isBlank_of_isAlphanum (isAlphanum_iff.mpr (Or.inr (Or.inr (isDigit_iff.mp digit))))

/-- A number filled up with zeros begins with a digit. -/
theorem exists_padded_eq_cons (width n : Nat) :
    ∃ c cs, padded width n = c :: cs ∧ c.isDigit = true := by
  have nonempty : padded width n ≠ [] := padded_ne_nil
  obtain ⟨c, cs, front⟩ := List.exists_cons_of_ne_nil nonempty
  exact ⟨c, cs, front, isDigit_of_mem_padded (front ▸ List.mem_cons_self ..)⟩

theorem trimStart_padded : trimStart (padded width n ++ rest) = padded width n ++ rest := by
  obtain ⟨c, cs, front, digit⟩ := exists_padded_eq_cons width n
  rw [front]
  exact List.dropWhile_cons_of_neg (by rw [isBlank_of_isDigit digit]; decide)

/-- A number is read back that was filled up with zeros to its greatest width. -/
theorem takeNumber_padded (wide : 0 < width) (small : n < 10 ^ width) :
    takeNumber width (padded width n ++ rest) = some (n, rest) := by
  have length := length_padded wide small
  have digits : (padded width n).takeWhile Char.isDigit = padded width n :=
    List.takeWhile_eq_self_iff.mpr fun _ => isDigit_of_mem_padded
  rw [takeNumber, List.take_left' length, digits, natural?_padded]
  simp

theorem takeField_padded (wide : 0 < width) (small : n < 10 ^ width) :
    takeField width (padded width n ++ rest) = some (n, rest) := by
  rw [takeField, trimStart_padded, takeNumber_padded wide small]

theorem takeYear_yearText {year : Int} (nonneg : 0 ≤ year) (small : year ≤ 9999) :
    takeYear (yearText year ++ rest) = some (year, rest) := by
  have number : takeNumber 4 (padded 4 year.toNat ++ rest) = some (year.toNat, rest) :=
    takeNumber_padded (by decide) (by omega)
  obtain ⟨c, cs, front, digit⟩ := exists_padded_eq_cons 4 year.toNat
  have unsigned : ∀ sign after, sign.isDigit = false →
      padded 4 year.toNat ++ rest ≠ sign :: after := by
    rintro sign after noDigit same
    rw [front] at same
    cases same
    rw [digit] at noDigit
    cases noDigit
  rw [yearText, if_pos ⟨nonneg, small⟩, takeYear, trimStart_padded]
  split
  · rename_i same
    exact absurd same (unsigned '-' _ rfl)
  · rename_i same
    exact absurd same (unsigned '+' _ rfl)
  · simp [number, Int.toNat_of_nonneg nonneg]

theorem afterMark_cons {c : Char} (visible : isBlank c = false) :
    afterMark c (c :: rest) = some rest := by
  simp [afterMark, trimStart, visible]

/-! ### Fractions of a second -/

/-- Up to nine digits are read as a fraction of as many places. -/
theorem takeFraction_padded (wide : 0 < width) (narrow : width ≤ 9) (small : n < 10 ^ width) :
    takeFraction ('.' :: padded width n ++ 'Z' :: rest) =
      some (10 ^ (9 - width) * n, 'Z' :: rest) := by
  have length := length_padded wide small
  have digits : (padded width n ++ 'Z' :: rest).takeWhile Char.isDigit = padded width n := by
    rw [List.takeWhile_append_of_pos fun _ => isDigit_of_mem_padded]
    simp
  have counted : (padded width n).take 9 = padded width n :=
    List.take_of_length_le (by rw [length]; exact narrow)
  have value : natural? (padded width n ++ List.replicate (9 - width) '0') =
      some (10 ^ (9 - width) * n) := by
    rw [natural?_of_isDigit _ (List.append_ne_nil_of_left_ne_nil padded_ne_nil _),
      Nat.ofDigitChars_append, ofDigitChars_padded, Nat.ofDigitChars_replicate_zero]
    intro c mem
    rcases List.mem_append.mp mem with digit | zero
    · exact isDigit_of_mem_padded digit
    · rw [List.eq_of_mem_replicate zero]
      rfl
  have nonempty : (padded width n).isEmpty = false := by simp [padded_ne_nil]
  simp [takeFraction, digits, counted, length, value, nonempty]

theorem takeFraction_fraction (small : nano < 1000000000) :
    takeFraction (fraction nano ++ 'Z' :: rest) = some (nano, 'Z' :: rest) := by
  unfold fraction
  split
  · rename_i zero
    rw [zero]
    rfl
  split
  · rename_i thousandths
    rw [takeFraction_padded (by decide) (by decide) (by omega)]
    congr 2
    omega
  split
  · rename_i millionths
    rw [takeFraction_padded (by decide) (by decide) (by omega)]
    congr 2
    omega
  · rw [takeFraction_padded (by decide) (by decide) small]
    simp

/-! ### The whole text -/

theorem ofDateTime?_time (t : Timestamp) : ofDateTime? t.time = some t := dif_pos t.valid

/-- Where clocks show universal time, the time is the one they show. -/
theorem minus_zero (t : Timestamp) : t.time.minus 0 = t.time := by
  obtain ⟨⟨date, hour, minute, second, nano⟩, valid⟩ := t
  obtain ⟨_, hours, minutes, _⟩ := valid
  simp only at hours minutes
  simp only [DateTime.minus, DateTime.mk.injEq, and_true]
  refine ⟨?_, ?_, ?_⟩
  · rw [if_neg (by omega), if_neg (by omega)]
  · omega
  · omega

theorem daysInMonth_le (year : Int) (month : Nat) : daysInMonth year month ≤ 31 := by
  unfold daysInMonth
  split
  · split <;> decide
  · split <;> decide

/-- **A moment is read back from its text**, in the years of four digits. -/
theorem ofText?_text {t : Timestamp} (year : t.InFourDigits) : ofText? t.text = some t := by
  have there := t.ofDateTime?_time
  have universal : ofDateTime? (t.time.minus 0) = some t := by rw [t.minus_zero, there]
  obtain ⟨⟨⟨y, mo, d⟩, h, mi, s, nano⟩, valid⟩ := t
  obtain ⟨⟨_, _, _, months, _, days⟩, hours, minutes, seconds, nanos⟩ := id valid
  obtain ⟨nonneg, small⟩ := year
  simp only at months days hours minutes seconds nanos nonneg small
  have days : d ≤ 31 := days.trans (daysInMonth_le y mo)
  have twoDigits {n : Nat} (small : n < 100) (rest : List Char) :
      takeField 2 (padded 2 n ++ rest) = some (n, rest) := takeField_padded (by decide) small
  have offset : takeOffset (trimStart ['Z']) = some (0, []) := by decide
  have step {α β : Type} {x : Option α} {f : α → Option β} {a : α} {b : β} (first : x = some a)
      (rest : f a = some b) : x >>= f = some b := Option.bind_eq_some_iff.mpr ⟨a, first, rest⟩
  rw [ofText?, text, String.toList_ofList, chars, ofChars?]
  simp only [List.append_assoc, List.cons_append]
  -- One line for each part of the text, in the order of reading.
  refine step (takeYear_yearText nonneg small) ?_
  refine step (afterMark_cons rfl) (step (twoDigits (by omega) _) ?_)
  refine step (afterMark_cons rfl) (step (twoDigits (by omega) _) ?_)
  refine step rfl (step (twoDigits (by omega) _) ?_)
  refine step (afterMark_cons rfl) (step (twoDigits (by omega) _) ?_)
  refine step (afterMark_cons rfl) (step (twoDigits (by omega) _) ?_)
  refine step (takeFraction_fraction nanos) (step offset ?_)
  exact (if_pos rfl).trans (step there universal)

end Gatehouse.Timestamp
