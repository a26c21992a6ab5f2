import Gatehouse.Json.Lexer
import Gatehouse.Proofs.Text.Decimal

/-!
Numbers of 64 bits are read back from their digits.

The text of a number ends only where something else begins, so what is read depends on what follows
(`EndsNumber`). A double holds every number of 64 bits, if not exactly: the number is kept, and the
check that a double could hold it passes (`hasDouble_ofText_toDigits`).
-/

namespace Gatehouse.Json

variable {n : Nat} {cs rest : List Char}

/-! ### A double could hold the number -/

namespace Scaled

/-- Digits that the significand has room for are all taken. -/
theorem ofWholeFrom_digits (digits : ∀ c ∈ cs, c.isDigit = true) {acc : Nat}
    (room : Nat.ofDigitChars 10 cs acc < significandBound) :
    ofWholeFrom acc (cs.filterMap Text.digit?) = ⟨Nat.ofDigitChars 10 cs acc, 0⟩ := by
  induction cs generalizing acc with
  | nil => simp [ofWholeFrom]
  | cons c cs ih =>
      have first := Text.digit?_of_isDigit (digits c (List.mem_cons_self ..))
      rw [Nat.ofDigitChars_cons] at room
      have grows : 10 * acc + (c.toNat - '0'.toNat) ≤
          Nat.ofDigitChars 10 cs (10 * acc + (c.toNat - '0'.toNat)) := by
        rw [Nat.ofDigitChars_eq_ofDigitChars_zero]
        exact Nat.le_add_right_of_le (Nat.le_mul_of_pos_left _ (Nat.pow_pos (by decide)))
      rw [List.filterMap_cons_some first, ofWholeFrom, if_pos (Nat.lt_of_le_of_lt grows room),
        Nat.ofDigitChars_cons]
      exact ih (fun d mem => digits d (List.mem_cons_of_mem _ mem)) room

theorem ofText_toDigits (small : n < significandBound) :
    ofText (Nat.toDigits 10 n) = ⟨n, 0⟩ := by
  have digits : ∀ c ∈ Nat.toDigits 10 n, c.isDigit = true := fun _ => Text.isDigit_of_mem_toDigits
  have noMark : (Nat.toDigits 10 n).takeWhile (fun c => c ≠ 'e' && c ≠ 'E') = Nat.toDigits 10 n := by
    refine List.takeWhile_eq_self_iff.mpr fun c mem => ?_
    have digit := digits c mem
    simp only [ne_eq, decide_not, Bool.and_eq_true, Bool.not_eq_true', decide_eq_false_iff_not]
    constructor <;> rintro rfl <;> cases digit
  have noPoint : (Nat.toDigits 10 n).takeWhile (· ≠ '.') = Nat.toDigits 10 n := by
    refine List.takeWhile_eq_self_iff.mpr fun c mem => ?_
    have digit := digits c mem
    simp only [ne_eq, decide_not, Bool.not_eq_true', decide_eq_false_iff_not]
    rintro rfl
    cases digit
  have value : Nat.ofDigitChars 10 (Nat.toDigits 10 n) 0 = n := Nat.ofDigitChars_ten_toDigits
  have whole := ofWholeFrom_digits digits (by rw [value]; exact small)
  rw [value] at whole
  simp only [ofText, noMark, noPoint, whole, List.drop_length, List.filterMap_nil, withPlaces, shift]
  rw [List.drop_eq_nil_of_le (Nat.le_succ _)]
  rfl

theorem nearestMultiple_le (unit n : Nat) : nearestMultiple unit n * unit ≤ n + unit := by
  have whole : n / unit * unit ≤ n := Nat.div_mul_le_self n unit
  unfold nearestMultiple
  simp only
  split
  · rw [Nat.add_mul, Nat.one_mul]
    omega
  · omega

/-- Rounding to a double adds no more than the distance of doubles of 64 bits. -/
theorem nearestDouble_le (small : n < significandBound) : nearestDouble n ≤ n + 1 <<< 12 := by
  have unit : 1 <<< (n.log2 + 1 - 53) ≤ 1 <<< 12 := by
    have bits : n.log2 < 64 := by
      by_cases zero : n = 0
      · subst zero
        decide
      · exact (Nat.log2_lt zero).mpr (by simpa [significandBound] using small)
    rw [Nat.one_shiftLeft, Nat.one_shiftLeft]
    exact Nat.pow_le_pow_right (by decide) (by omega)
  exact (nearestMultiple_le _ n).trans (Nat.add_le_add_left unit n)

/-- A double could hold any number of 64 bits. -/
theorem hasDouble_ofText_toDigits (small : n < significandBound) :
    (ofText (Nat.toDigits 10 n)).hasDouble = true := by
  have one : nearestDouble 1 = 1 := by decide
  have below : nearestDouble n < beyondDoubles :=
    calc nearestDouble n ≤ n + 1 <<< 12 := nearestDouble_le small
      _ < significandBound + 1 <<< 12 := Nat.add_lt_add_right small _
      _ < beyondDoubles := by decide +kernel
  rw [ofText_toDigits small, hasDouble]
  simp [one, below]

end Scaled

/-! ### The digits of a number are its lexeme -/

theorem numberLexeme_toDigits (small : n < UInt64.size) :
    numberLexeme (Nat.toDigits 10 n).reverse = .natural n := by
  rw [numberLexeme, List.reverse_reverse, Scaled.hasDouble_ofText_toDigits small,
    Text.natural?_toDigits]
  rfl

/-- Where the digits of a number end: at the end of the text, or where a character follows that
cannot go on with the number. -/
def EndsNumber : List Char → Prop
  | [] => True
  | c :: _ => c.isDigit = false ∧ c ≠ '.' ∧ c ≠ 'e' ∧ c ≠ 'E'

theorem endsNumber_cons {c : Char} (mark : c = ',' ∨ c = ']' ∨ c = '}') :
    EndsNumber (c :: rest) := by
  rcases mark with rfl | rfl | rfl <;> exact ⟨rfl, by decide, by decide, by decide⟩

theorem lexemesFrom_of_ends {phase : NumberPhase} (row : phase = .zero ∨ phase = .integer)
    (ends : EndsNumber rest) (chars : List Char) :
    lexemesFrom (.number phase chars) rest = numberLexeme chars :: lexemesFrom .between rest := by
  cases rest with
  | nil => rcases row with rfl | rfl <;> rfl
  | cons c rest =>
      obtain ⟨noDigit, noPoint, noMark, noMark'⟩ := ends
      have stops : phase.next? c = none ∧ phase.refuses c = false := by
        rcases row with rfl | rfl <;>
          simp [NumberPhase.next?, NumberPhase.refuses, NumberPhase.complete, noDigit, noPoint,
            noMark, noMark']
      have last : step (.number phase chars) c =
          (numberLexeme chars :: (begin c).1, (begin c).2) := by
        simp [step, stops]
      rw [lexemesFrom, last]
      rfl

/-- A number goes on while digits follow. -/
theorem lexemesFrom_digits (digits : ∀ c ∈ cs, c.isDigit = true) (ends : EndsNumber rest)
    (chars : List Char) :
    lexemesFrom (.number .integer chars) (cs ++ rest) =
      numberLexeme (cs.reverse ++ chars) :: lexemesFrom .between rest := by
  induction cs generalizing chars with
  | nil => exact lexemesFrom_of_ends (Or.inr rfl) ends chars
  | cons c cs ih =>
      have first := digits c (List.mem_cons_self ..)
      have goesOn : step (.number .integer chars) c = ([], .number .integer (c :: chars)) := by
        simp [step, NumberPhase.next?, first]
      rw [List.cons_append, lexemesFrom, goesOn,
        ih fun d mem => digits d (List.mem_cons_of_mem _ mem)]
      simp

/-- The digits of a positive number begin with another digit than zero. -/
theorem exists_toDigits_eq_cons (positive : n ≠ 0) :
    ∃ c cs, Nat.toDigits 10 n = c :: cs ∧ c ≠ '0' := by
  induction n using Nat.strongRecOn with
  | ind n ih =>
      by_cases single : n < 10
      · rw [Nat.toDigits_of_lt_base single]
        exact ⟨_, _, rfl, mt Nat.digitChar_eq_zero.mp positive⟩
      · obtain ⟨c, cs, front, nonzero⟩ := ih (n / 10) (by omega) (by omega)
        rw [Nat.toDigits_of_base_le (by decide) (by omega), front]
        exact ⟨c, _, rfl, nonzero⟩

theorem begin_of_isDigit {c : Char} (digit : c.isDigit = true) (nonzero : c ≠ '0') :
    begin c = ([], .number .integer [c]) := by
  unfold begin
  split <;> simp_all

/-- A number of 64 bits is read back where its digits end. -/
theorem lexemesFrom_toDigits (small : n < UInt64.size) (ends : EndsNumber rest) :
    lexemesFrom .between (Nat.toDigits 10 n ++ rest) = .natural n :: lexemesFrom .between rest := by
  have whole := numberLexeme_toDigits small
  -- A zero is a phase of its own, which no digit may follow.
  by_cases zero : n = 0
  · subst zero
    rw [Nat.toDigits_zero] at whole ⊢
    exact (lexemesFrom_of_ends (Or.inl rfl) ends ['0']).trans (by rw [← whole]; rfl)
  · obtain ⟨c, cs, front, nonzero⟩ := exists_toDigits_eq_cons zero
    have digits : ∀ d ∈ c :: cs, d.isDigit = true := fun d mem =>
      Text.isDigit_of_mem_toDigits (front ▸ mem)
    rw [front] at whole ⊢
    have begins : step .between c = ([], .number .integer [c]) :=
      begin_of_isDigit (digits c (List.mem_cons_self ..)) nonzero
    rw [List.cons_append, lexemesFrom, begins,
      lexemesFrom_digits (fun d mem => digits d (List.mem_cons_of_mem _ mem)) ends, ← whole]
    simp

end Gatehouse.Json
