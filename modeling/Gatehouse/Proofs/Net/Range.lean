import Gatehouse.Net.Range
import Gatehouse.Proofs.Net.Address

/-!
Which texts spell ranges of addresses, and which addresses a range holds.

A text with a slash spells a range by an address in the liberal form and a length; a text without one
spells the range of an address in the strict form (`Spells`). No text spells a range in two of these ways,
so that it does not matter in which order they are tried (`ofText?_eq_some_iff`). A range holds the
addresses of its own family that begin with the same bits (`contains_iff_holds`).
-/

namespace Gatehouse.AddressRange

open Address Text

variable {r : AddressRange} {a : Address} {cs : List Char} {width bits : Nat}

/-! ### Spelling -/

/-- A text of an address, with a slash and a length behind it, of at most `width` digits and at most `bits`. -/
inductive Prefixed (spells : List Char → Address → Prop) (width bits : Nat) :
    List Char → AddressRange → Prop where
  | of {cs digits : List Char} {base : Address} {length : Nat} (address : spells cs base)
      (decimal : Decimal digits length) (short : digits.length ≤ width) (within : length ≤ bits) :
      Prefixed spells width bits (cs ++ '/' :: digits) ⟨base, length⟩

/-- A text of a range: an address of one of the families with a length, or an address alone. -/
inductive Spells : List Char → AddressRange → Prop where
  | v4 {cs : List Char} {r : AddressRange} (network : Prefixed (SpellsV4 liberal) 2 32 cs r) : Spells cs r
  | v6 {cs : List Char} {r : AddressRange} (network : Prefixed (SpellsV6 liberal) 3 128 cs r) : Spells cs r
  | single {cs : List Char} {a : Address} (address : Address.Spells strict cs a) : Spells cs (single a)

theorem Prefixed.slash_mem {spells : List Char → Address → Prop} (network : Prefixed spells width bits cs r) :
    '/' ∈ cs := by
  obtain ⟨-, -, -, -⟩ := network
  simp

theorem Prefixed.colon_mem (network : Prefixed (SpellsV6 liberal) width bits cs r) : ':' ∈ cs := by
  obtain ⟨address, -, -, -⟩ := network
  exact List.mem_append_left _ address.colon_mem

theorem Prefixed.colon_notMem (network : Prefixed (SpellsV4 liberal) width bits cs r) : ':' ∉ cs := by
  obtain ⟨address, decimal, -, -⟩ := network
  have noDigit : ':' ∉ _ := fun mem => absurd (decimal.digits _ mem) (by decide)
  simp [address.colon_notMem, noDigit]

/-- A length is read behind the slash, if the address is what is read in front of it. -/
theorem ofPrefix?_eq_some_iff {read : Option (Address × List Char)} {spells : List Char → Address → Prop}
    (reads : ∀ base rest, read = some (base, '/' :: rest) ↔
      ∃ used, cs = used ++ '/' :: rest ∧ spells used base) :
    ofPrefix? width bits read = some r ↔ Prefixed spells width bits cs r := by
  have whole {digits : List Char} {length : Nat} : takeDecimal width (bits + 1) digits = some (length, []) ↔
      Decimal digits length ∧ digits.length ≤ width ∧ length ≤ bits := by
    rw [takeDecimal_eq_some_iff]
    constructor
    · rintro ⟨used, cut, decimal, short, small⟩
      obtain rfl : digits = used := by simpa using cut.parts
      exact ⟨decimal, short, Nat.le_of_lt_succ small⟩
    · rintro ⟨decimal, short, small⟩
      exact ⟨digits, ⟨(List.append_nil _).symm, decimal.digits, rfl⟩, decimal, short, Nat.lt_succ_of_le small⟩
  constructor
  · intro found
    unfold ofPrefix? at found
    split at found
    · rename_i base digits
      obtain ⟨used, rfl, address⟩ := (reads base digits).mp rfl
      split at found
      · rename_i length taken
        cases found
        obtain ⟨decimal, short, within⟩ := whole.mp taken
        exact .of address decimal short within
      · cases found
    · cases found
  · rintro ⟨address, decimal, short, within⟩
    rw [(reads _ _).mpr ⟨_, rfl, address⟩]
    simp only [ofPrefix?, whole.mpr ⟨decimal, short, within⟩]

theorem ofCidr?_eq_some_iff {s : String} : ofCidr? s = some r ↔
    Prefixed (SpellsV4 liberal) 2 32 s.toList r ∨ Prefixed (SpellsV6 liberal) 3 128 s.toList r := by
  refine or_eq_some_iff (fun r => ofPrefix?_eq_some_iff fun base rest => ?_)
    (fun r => ofPrefix?_eq_some_iff fun base rest => takeV6_eq_some_iff .slash)
    fun _ _ v4 v6 => v4.colon_notMem v6.colon_mem
  have ends : Ends Char.isDigit ('/' :: rest) := ends_cons_iff.mpr (by decide)
  simp only [takeV4_eq_some_iff, ends, and_true]

/-- The texts that are read as ranges are those that spell one. -/
theorem ofText?_eq_some_iff {s : String} : ofText? s = some r ↔ Spells s.toList r := by
  have alone (r : AddressRange) : (Address.ofText? s).map single = some r ↔
      ∃ a, Address.Spells strict s.toList a ∧ single a = r := by
    simp only [Option.map_eq_some_iff, Address.ofText?_eq_some_iff]
  rw [ofText?, or_eq_some_iff (fun _ => ofCidr?_eq_some_iff) alone]
  · constructor
    · rintro ((network | network) | ⟨a, address, rfl⟩)
      · exact .v4 network
      · exact .v6 network
      · exact .single address
    · intro spells
      cases spells with
      | v4 network => exact Or.inl (Or.inl network)
      | v6 network => exact Or.inl (Or.inr network)
      | single address => exact Or.inr ⟨_, address, rfl⟩
  · rintro _ _ (network | network) ⟨a, address, rfl⟩
    · exact address.slash_notMem network.slash_mem
    · exact address.slash_notMem network.slash_mem

-- Octets may begin with zeros only in front of a length.
example : (ofText? "010.0.0.1/8").isSome = true ∧ ofText? "010.0.0.1" = none := by decide

/-! ### Holding -/

/-- Addresses of one family begin with the same bits, as many as the range is long. -/
inductive Holds : AddressRange → Address → Prop where
  | v4 {base bits : BitVec 32} {length : Nat} (agree : ∀ i < length, bits.getMsbD i = base.getMsbD i) :
      Holds ⟨.v4 base, length⟩ (.v4 bits)
  | v6 {base bits : BitVec 128} {length : Nat} (agree : ∀ i < length, bits.getMsbD i = base.getMsbD i) :
      Holds ⟨.v6 base, length⟩ (.v6 bits)

/-- Without their last bits two rows are the same when they begin with the same bits. -/
theorem shiftRight_eq_iff {w length : Nat} {x y : BitVec w} :
    x >>> (w - length) = y >>> (w - length) ↔ ∀ i < length, y.getMsbD i = x.getMsbD i := by
  constructor
  · intro same i first
    by_cases within : i < w
    · -- The bit has moved behind those that have come in at the front.
      have bit := congrArg (·.getMsbD (i + (w - length))) same
      have inside : i + (w - length) < w := by omega
      have behind : ¬ i + (w - length) < w - length := by omega
      simpa [BitVec.getMsbD_ushiftRight, inside, behind] using bit.symm
    · rw [BitVec.getMsbD_of_ge _ _ (by omega), BitVec.getMsbD_of_ge _ _ (by omega)]
  · intro agree
    refine BitVec.eq_of_getMsbD_eq fun i within => ?_
    rw [BitVec.getMsbD_ushiftRight, BitVec.getMsbD_ushiftRight]
    by_cases front : i < w - length
    · simp [front]
    · rw [agree (i - (w - length)) (by omega)]

/-- A range holds the addresses that agree with it in its bits. -/
theorem contains_iff_holds : r.contains a = true ↔ r.Holds a := by
  constructor
  · intro inside
    match r, a, inside with
    | ⟨.v4 _, _⟩, .v4 _, inside => exact .v4 (shiftRight_eq_iff.mp (eq_of_beq inside))
    | ⟨.v6 _, _⟩, .v6 _, inside => exact .v6 (shiftRight_eq_iff.mp (eq_of_beq inside))
  · rintro (agree | agree)
    · exact beq_iff_eq.mpr (shiftRight_eq_iff.mpr agree)
    · exact beq_iff_eq.mpr (shiftRight_eq_iff.mpr agree)

theorem holds_base (r : AddressRange) : r.Holds r.base := by
  obtain ⟨base | base, length⟩ := r
  · exact .v4 fun _ _ => rfl
  · exact .v6 fun _ _ => rfl

end Gatehouse.AddressRange
