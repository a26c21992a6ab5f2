import Gatehouse.Text.Decimal
import Mathlib.Algebra.Group.Nat.Defs
import Mathlib.Data.List.TakeWhile

/-!
Numbers written in decimal digits are read back.

What is read are rows of digits (`natural?_eq_some_iff`), with the value that `Nat.ofDigitChars` gives
them. So a number is read back from its digits (`natural?_toDigits`), also filled up with zeros
(`natural?_padded`).
-/

namespace Gatehouse.Text

variable {n width : Nat} {c : Char} {cs : List Char}

/-! ### Rows of digits -/

theorem digit?_of_isDigit (digit : c.isDigit = true) : digit? c = some (c.toNat - '0'.toNat) := by
  simp only [Char.isDigit, Bool.and_eq_true, decide_eq_true_eq] at digit
  have range : '0' ≤ c ∧ c ≤ '9' := digit
  exact if_pos range

/-- The value of a row of digits after a prefix. -/
theorem digitsFrom_of_isDigit (digits : ∀ c ∈ cs, c.isDigit = true) (acc : Nat) :
    digitsFrom acc cs = some (Nat.ofDigitChars 10 cs acc) := by
  induction cs generalizing acc with
  | nil => rw [digitsFrom, Nat.ofDigitChars_nil]
  | cons c cs ih =>
      rw [digitsFrom, digit?_of_isDigit (digits c (List.mem_cons_self ..)), Nat.ofDigitChars_cons]
      exact ih (fun d mem => digits d (List.mem_cons_of_mem _ mem)) _

theorem natural?_of_isDigit (digits : ∀ c ∈ cs, c.isDigit = true) (nonempty : cs ≠ []) :
    natural? cs = some (Nat.ofDigitChars 10 cs 0) := by
  cases cs with
  | nil => exact absurd rfl nonempty
  | cons c cs => exact digitsFrom_of_isDigit digits 0

/-- A row of digits, one at least, and its value. -/
structure Decimal (cs : List Char) (n : Nat) : Prop where
  given : cs ≠ []
  digits : ∀ c ∈ cs, c.isDigit = true
  value : Nat.ofDigitChars 10 cs 0 = n

/-- The rows that are read are rows of digits. -/
theorem isDigit_of_digitsFrom {acc : Nat} (read : digitsFrom acc cs = some n) : ∀ c ∈ cs, c.isDigit = true := by
  induction cs generalizing acc with
  | nil => exact nofun
  | cons c cs ih =>
      unfold digitsFrom digit? at read
      split at read
      · rename_i found
        split at found
        · rename_i range
          have digit : c.isDigit = true := by
            simp only [Char.isDigit, Bool.and_eq_true, decide_eq_true_eq]
            exact range
          exact List.forall_mem_cons.mpr ⟨digit, ih read⟩
        · cases found
      · cases read

theorem natural?_eq_some_iff : natural? cs = some n ↔ Decimal cs n := by
  constructor
  · intro read
    have given : cs ≠ [] := by
      rintro rfl
      cases read
    have digits : ∀ c ∈ cs, c.isDigit = true := by
      cases cs with
      | nil => exact nofun
      | cons c cs => exact isDigit_of_digitsFrom read
    rw [natural?_of_isDigit digits given] at read
    exact ⟨given, digits, Option.some.inj read⟩
  · rintro ⟨given, digits, rfl⟩
    exact natural?_of_isDigit digits given

theorem isDigit_of_mem_toDigits (mem : c ∈ Nat.toDigits 10 n) : c.isDigit = true :=
  Nat.isDigit_of_mem_toDigits (by decide) (by decide) mem

/-- A text of digits only. -/
def IsDigits (text : String) : Prop := ∀ c ∈ text.toList, c.isDigit = true

instance (text : String) : Decidable (IsDigits text) :=
  decidable_of_iff (text.toList.all Char.isDigit = true) List.all_eq_true

theorem IsDigits.notMem {text : String} (digits : IsDigits text) (other : c.isDigit = false) :
    c ∉ text.toList := by
  intro mem
  rw [digits c mem] at other
  cases other

/-- Identifiers are written in digits. -/
theorem isDigits_toString (n : UInt64) : IsDigits (toString n) := by
  intro c mem
  have letters : (toString n).toList = Nat.toDigits 10 n.toNat := String.toList_ofList
  rw [letters] at mem
  exact isDigit_of_mem_toDigits mem

theorem toString_ne_empty (n : UInt64) : toString n ≠ "" := by
  intro empty
  have letters : (toString n).toList = Nat.toDigits 10 n.toNat := String.toList_ofList
  rw [empty] at letters
  exact Nat.toDigits_ne_nil letters.symm

/-- A number is read back from its digits. -/
theorem natural?_toDigits (n : Nat) : natural? (Nat.toDigits 10 n) = some n := by
  rw [natural?_of_isDigit (fun _ => isDigit_of_mem_toDigits) Nat.toDigits_ne_nil,
    Nat.ofDigitChars_ten_toDigits]

/-! ### Unsigned numbers -/

/-- A text is a number of 64 bits: a row of digits, with a plus sign in front of it or without. -/
def IsUInt64 (s : String) (n : UInt64) : Prop :=
  Decimal s.toList n.toNat ∨ ∃ digits, s.toList = '+' :: digits ∧ Decimal digits n.toNat

/-- The texts that are read are those of numbers. -/
theorem uint64?_eq_some_iff {s : String} {n : UInt64} : uint64? s = some n ↔ IsUInt64 s n := by
  have fits : ∀ digits, ((natural? digits).filter (· < UInt64.size)).map UInt64.ofNat = some n ↔
      Decimal digits n.toNat := by
    intro digits
    simp only [Option.map_eq_some_iff, Option.filter_eq_some_iff, decide_eq_true_eq, natural?_eq_some_iff]
    constructor
    · rintro ⟨k, ⟨decimal, small⟩, rfl⟩
      rwa [UInt64.toNat_ofNat_of_lt' small]
    · intro decimal
      exact ⟨n.toNat, ⟨decimal, n.toNat_lt⟩, UInt64.ofNat_toNat⟩
  unfold uint64? unsigned? IsUInt64
  split
  · rename_i digits letters
    rw [fits, letters]
    have sign : ¬ Decimal ('+' :: digits) n.toNat := fun decimal =>
      absurd (decimal.digits '+' (List.mem_cons_self ..)) (by decide)
    simp [sign]
  · rename_i unsigned
    rw [fits]
    refine (or_iff_left ?_).symm
    rintro ⟨digits, letters, _⟩
    exact unsigned digits letters

/-- A number is read back from what it is written as. -/
theorem isUInt64_toString (n : UInt64) : IsUInt64 (toString n) n := by
  have letters : (toString n).toList = Nat.toDigits 10 n.toNat := String.toList_ofList
  refine Or.inl ?_
  rw [letters]
  exact natural?_eq_some_iff.mp (natural?_toDigits n.toNat)

/-! ### Filling up with zeros -/

theorem isDigit_of_mem_padded (mem : c ∈ padded width n) : c.isDigit = true := by
  rcases List.mem_append.mp mem with zero | digit
  · rw [List.eq_of_mem_replicate zero]
    rfl
  · exact isDigit_of_mem_toDigits digit

theorem padded_ne_nil : padded width n ≠ [] :=
  List.append_ne_nil_of_right_ne_nil _ Nat.toDigits_ne_nil

theorem ofDigitChars_padded : Nat.ofDigitChars 10 (padded width n) 0 = n := by
  rw [padded, Nat.ofDigitChars_append, Nat.ofDigitChars_replicate_zero, Nat.mul_zero,
    Nat.ofDigitChars_ten_toDigits]

/-- A number is read back from its digits, filled up with zeros. -/
theorem natural?_padded (width n : Nat) : natural? (padded width n) = some n := by
  rw [natural?_of_isDigit (fun _ => isDigit_of_mem_padded) padded_ne_nil, ofDigitChars_padded]

/-- A number with no more digits than asked for is filled up to just as many. -/
theorem length_padded (wide : 0 < width) (small : n < 10 ^ width) :
    (padded width n).length = width := by
  have fits : (Nat.toDigits 10 n).length ≤ width :=
    (Nat.length_toDigits_le_iff (by decide) wide).mpr small
  simp only [padded, List.length_append, List.length_replicate]
  omega

end Gatehouse.Text
