import Gatehouse.Proofs.Net.Spelling
import Gatehouse.Proofs.Text.Blank

/-!
Internet addresses are read from the texts that spell them.

The readers take as much of a text as they can, and never try again with less. What they take is of the
grammar; and they take an address of the grammar as a whole when the text ends behind it, or a slash
follows (`takeV4_eq_some_iff`, `spellsV6_of_takeV6`, `takeV6_of_spellsV6`). So a text is read as an address
that stands alone just if it spells one in the strict form (`ofText?_eq_some_iff`).
-/

namespace Gatehouse.Address

open Text

variable {form : Form} {first dotted : Bool} {cs used rest : List Char} {n width bound limit : Nat}
  {ns : List Nat} {a : Address}

/-! ### Digits -/

/-- A text does not begin with a character of a class. -/
def Ends (p : Char → Bool) (cs : List Char) : Prop := cs.head?.any p = false

theorem ends_cons_iff {p : Char → Bool} {c : Char} : Ends p (c :: cs) ↔ p c = false := by
  simp [Ends]

/-- A text is cut where a class of characters ends. -/
structure Cut (p : Char → Bool) (cs used rest : List Char) : Prop where
  parts : cs = used ++ rest
  inside : ∀ c ∈ used, p c = true
  ends : Ends p rest

theorem Ends.takeWhile_eq_nil {p : Char → Bool} (ends : Ends p cs) : cs.takeWhile p = [] :=
  match cs with
  | [] => rfl
  | _ :: _ => List.takeWhile_cons_of_neg (Bool.eq_false_iff.mp (ends_cons_iff.mp ends))

theorem Ends.cut {p : Char → Bool} (ends : Ends p cs) : Cut p cs [] cs := ⟨rfl, nofun, ends⟩

theorem cut_iff {p : Char → Bool} :
    Cut p cs used rest ↔ used = cs.takeWhile p ∧ rest = cs.drop (cs.takeWhile p).length := by
  constructor
  · rintro ⟨rfl, inside, ends⟩
    have taken : (used ++ rest).takeWhile p = used := by
      rw [List.takeWhile_append_of_pos inside, ends.takeWhile_eq_nil, List.append_nil]
    rw [taken, List.drop_left]
    exact ⟨rfl, rfl⟩
  · rintro ⟨rfl, rfl⟩
    have parts : cs.takeWhile p ++ cs.dropWhile p = cs := List.takeWhile_append_dropWhile
    have dropped : cs.drop (cs.takeWhile p).length = cs.dropWhile p :=
      calc cs.drop (cs.takeWhile p).length
        _ = (cs.takeWhile p ++ cs.dropWhile p).drop (cs.takeWhile p).length := by rw [parts]
        _ = cs.dropWhile p := List.drop_left
    rw [dropped]
    exact ⟨parts.symm, fun c => List.mem_takeWhile_imp, head?_dropWhile p cs⟩

theorem Cut.unique {p : Char → Bool} {used' rest' : List Char} (cut : Cut p cs used rest)
    (cut' : Cut p cs used' rest') : used = used' ∧ rest = rest' := by
  obtain ⟨rfl, rfl⟩ := cut_iff.mp cut
  obtain ⟨rfl, rfl⟩ := cut_iff.mp cut'
  exact ⟨rfl, rfl⟩

theorem Ends.noDigit (ends : Ends isHexDigit cs) : Ends Char.isDigit cs := by
  cases cs with
  | nil => rfl
  | cons c cs =>
      rw [ends_cons_iff, Bool.eq_false_iff] at ends ⊢
      exact mt isHexDigit_of_isDigit ends

/-- Numbers are read up to the first character that is no digit. -/
theorem takeDecimal_eq_some_iff : takeDecimal width bound cs = some (n, rest) ↔
    ∃ used, Cut Char.isDigit cs used rest ∧ Decimal used n ∧ used.length ≤ width ∧ n < bound := by
  have cut : ∀ used, Cut Char.isDigit cs used rest ↔ _ := fun used => cut_iff
  simp only [cut, takeDecimal, Option.bind_eq_bind, Option.bind_eq_some_iff, natural?_eq_some_iff]
  constructor
  · rintro ⟨n', decimal, read⟩
    split at read
    · rename_i fits
      cases read
      exact ⟨_, ⟨rfl, rfl⟩, decimal, fits.1, fits.2⟩
    · cases read
  · rintro ⟨_, ⟨rfl, rfl⟩, decimal, short, small⟩
    exact ⟨n, decimal, if_pos ⟨short, small⟩⟩

/-- Which rows of digits are octets in a form is told from what they begin and end with. -/
theorem Cut.plain_iff (cut : Cut Char.isDigit cs used rest) (decimal : Decimal used n) :
    (form.paddedOctets || decide (n = 0) && decide (cs.drop 1 = rest) || decide (cs.head? ≠ some '0')) = true ↔
      (form.paddedOctets = false → used.head? = some '0' → used = ['0']) := by
  obtain ⟨c, later, rfl⟩ := List.exists_cons_of_ne_nil decimal.given
  obtain rfl := cut.parts
  cases form.paddedOctets with
  | true => simp
  | false =>
      by_cases zero : c = '0'
      · subst zero
        have value : later = [] → n = 0 := by
          rintro rfl
          exact decimal.value.symm
        simpa using value
      · simp [zero]

theorem takeOctet_eq_some_iff : takeOctet form cs = some (n, rest) ↔
    ∃ used, Cut Char.isDigit cs used rest ∧ Octet form used n := by
  simp only [takeOctet, Option.bind_eq_bind, Option.bind_eq_some_iff, Prod.exists, takeDecimal_eq_some_iff]
  constructor
  · rintro ⟨n', rest', ⟨used, cut, decimal, short, small⟩, read⟩
    split at read
    · rename_i plain
      cases read
      exact ⟨used, cut, decimal, short, small, (cut.plain_iff decimal).mp plain⟩
    · cases read
  · rintro ⟨used, cut, decimal, short, small, plain⟩
    exact ⟨n, rest, ⟨used, cut, decimal, short, small⟩, if_pos ((cut.plain_iff decimal).mpr plain)⟩

/-! ### Octets -/

/-- Behind an octet there is no digit. -/
theorem DottedOctets.ends {count : Nat} (dotted : DottedOctets form count used ns)
    (ends : Ends Char.isDigit rest) : Ends Char.isDigit (used ++ rest) := by
  cases dotted with
  | nil => exact ends
  | cons => exact ends_cons_iff.mpr (by decide)

theorem takeDottedOctets_eq_some_iff {count : Nat} (ends : Ends Char.isDigit cs) :
    takeDottedOctets form count cs = some (ns, rest) ↔
      ∃ used, cs = used ++ rest ∧ DottedOctets form count used ns ∧ Ends Char.isDigit rest := by
  induction count generalizing cs ns with
  | zero =>
      constructor
      · intro read
        cases read
        exact ⟨[], rfl, .nil, ends⟩
      · rintro ⟨_, rfl, ⟨⟩, -⟩
        rfl
  | succ count ih =>
      constructor
      · intro read
        obtain ⟨cs, rfl⟩ : ∃ cs', cs = '.' :: cs' := by
          unfold takeDottedOctets at read
          split at read <;> simp_all
        simp only [takeDottedOctets, Option.bind_eq_bind, Option.bind_eq_some_iff, Prod.exists,
          takeOctet_eq_some_iff] at read
        obtain ⟨n, between, ⟨used, cut, octet⟩, ns, rest, later, done⟩ := read
        cases done
        obtain ⟨used', rfl, dotted, last⟩ := (ih cut.ends).mp later
        refine ⟨'.' :: (used ++ used'), ?_, .cons octet dotted, last⟩
        simp [cut.parts]
      · rintro ⟨_, rfl, dotted, last⟩
        cases dotted with
        | @cons _ n used used' ns octet dotted =>
            have first : takeOctet form (used ++ (used' ++ rest)) = some (n, used' ++ rest) :=
              takeOctet_eq_some_iff.mpr ⟨used, ⟨rfl, octet.decimal.digits, dotted.ends last⟩, octet⟩
            have later : takeDottedOctets form count (used' ++ rest) = some (ns, rest) :=
              (ih (dotted.ends last)).mpr ⟨used', rfl, dotted, last⟩
            simp [takeDottedOctets, first, later]

/-- Octets are read up to the first character that is no digit. -/
theorem takeOctets_eq_some_iff : takeOctets form cs = some (ns, rest) ↔
    ∃ used, cs = used ++ rest ∧ Octets form used ns ∧ Ends Char.isDigit rest := by
  simp only [takeOctets, Option.bind_eq_bind, Option.bind_eq_some_iff, Prod.exists, takeOctet_eq_some_iff]
  constructor
  · rintro ⟨n, between, ⟨used, cut, octet⟩, ns, rest, later, same⟩
    cases same
    obtain ⟨used', rfl, dotted, last⟩ := (takeDottedOctets_eq_some_iff cut.ends).mp later
    refine ⟨used ++ used', ?_, .of octet dotted, last⟩
    rw [cut.parts, List.append_assoc]
  · rintro ⟨_, rfl, ⟨octet, dotted⟩, last⟩
    refine ⟨_, _, ⟨_, ⟨List.append_assoc .., octet.decimal.digits, dotted.ends last⟩, octet⟩, _, rest, ?_, rfl⟩
    exact (takeDottedOctets_eq_some_iff (dotted.ends last)).mpr ⟨_, rfl, dotted, last⟩

/-! ### Groups -/

/-- Groups are read up to the first character that is no hexadecimal digit. -/
theorem takeGroup_eq_some_iff : takeGroup cs = some (n, rest) ↔
    ∃ used, Cut isHexDigit cs used rest ∧ Group used n := by
  have cut : ∀ used, Cut isHexDigit cs used rest ↔ _ := fun used => cut_iff
  simp only [cut]
  unfold takeGroup
  constructor
  · intro read
    simp only at read
    split at read
    · rename_i fits
      cases read
      exact ⟨_, ⟨rfl, rfl⟩, fun c => List.mem_takeWhile_imp, fits.1, fits.2, rfl⟩
    · cases read
  · rintro ⟨_, ⟨rfl, rfl⟩, _, given, short, rfl⟩
    exact if_pos ⟨given, short⟩

theorem afterColon_eq_some_iff {start : List Char} :
    afterColon first cs = some start ↔ cs = lead first ++ start := by
  unfold afterColon lead
  cases first with
  | true => simp
  | false =>
      simp only [Bool.false_eq_true, if_false]
      split
      · simp [eq_comm]
      · rename_i noColon
        simp only [reduceCtorEq, false_iff]
        rintro rfl
        exact noColon _ rfl

/-- The groups that are read are groups of the text. -/
theorem groups_of_takeGroups (read : takeGroups form first limit cs = (ns, dotted, rest)) :
    ∃ used, cs = used ++ rest ∧ Groups form first used ns dotted ∧ ns.length ≤ limit := by
  induction limit generalizing first cs ns dotted rest with
  | zero =>
      cases read
      exact ⟨[], rfl, .nil, Nat.le_refl _⟩
  | succ limit ih =>
      unfold takeGroups at read
      split at read
      · cases read
        exact ⟨[], rfl, .nil, Nat.zero_le _⟩
      rename_i start found
      obtain rfl := afterColon_eq_some_iff.mp found
      split at read
      · rename_i a b c d rest' octets
        cases read
        split at octets
        · rename_i two
          obtain ⟨used, rfl, octets, -⟩ := takeOctets_eq_some_iff.mp octets
          exact ⟨lead first ++ used, by simp, .octets octets, by simpa using two⟩
        · cases octets
      split at read
      · cases read
        exact ⟨[], rfl, .nil, Nat.zero_le _⟩
      · rename_i n between found
        obtain ⟨used, cut, group⟩ := takeGroup_eq_some_iff.mp found
        obtain rfl := cut.parts
        simp only at read
        rcases later : takeGroups form false limit between with ⟨ns', dotted', rest'⟩
        rw [later] at read
        cases read
        obtain ⟨used', rfl, groups, few⟩ := ih later
        exact ⟨lead first ++ used ++ used', by simp, .cons group groups, by simpa using few⟩

/-- Here no group follows: the text ends, or there is a slash, or a gap. -/
inductive Stop : List Char → Prop where
  | finished : Stop []
  | slash {cs : List Char} : Stop ('/' :: cs)
  | gap {cs : List Char} : Stop (':' :: ':' :: cs)

theorem Stop.ends (stop : Stop rest) : Ends isHexDigit rest := by
  cases stop with
  | finished => rfl
  | slash => exact ends_cons_iff.mpr (by decide)
  | gap => exact ends_cons_iff.mpr (by decide)

/-- Where there is no hexadecimal digit there is no group. -/
theorem takeGroup_eq_none (ends : Ends isHexDigit cs) : takeGroup cs = none := by
  rw [Option.eq_none_iff_forall_ne_some]
  rintro ⟨n, rest⟩ read
  obtain ⟨used, cut, group⟩ := takeGroup_eq_some_iff.mp read
  obtain ⟨rfl, -⟩ := cut.unique ends.cut
  exact absurd group.given (by decide)

/-- Where there are no hexadecimal digits with a dot behind them there are no octets. -/
theorem takeOctets_eq_none (cut : Cut isHexDigit cs used rest) (other : used = [] ∨ rest.head? ≠ some '.') :
    takeOctets form cs = none := by
  rw [Option.eq_none_iff_forall_ne_some]
  rintro ⟨ns, rest'⟩ read
  obtain ⟨_, rfl, ⟨octet, dotted⟩, -⟩ := takeOctets_eq_some_iff.mp read
  cases dotted with
  | @cons _ _ cs' later =>
      have hex := fun c mem => isHexDigit_of_isDigit (octet.decimal.digits c mem)
      obtain ⟨rfl, rfl⟩ := cut.unique ⟨List.append_assoc .., hex, ends_cons_iff.mpr (by decide)⟩
      rcases other with none | noDot
      · exact octet.decimal.given none
      · exact noDot rfl

theorem takeGroups_of_stop (stop : Stop rest) : takeGroups form first limit rest = ([], false, rest) := by
  -- Neither here nor behind a colon is there a hexadecimal digit.
  have nothing {start : List Char} (found : afterColon first rest = some start) : Ends isHexDigit start := by
    obtain rfl := afterColon_eq_some_iff.mp found
    cases first with
    | true => exact stop.ends
    | false =>
        have stop : Stop (':' :: start) := stop
        cases stop with
        | gap => exact ends_cons_iff.mpr (by decide)
  cases limit with
  | zero => rfl
  | succ limit =>
      unfold takeGroups
      split
      · rfl
      · rename_i start found
        have ends := nothing found
        simp [takeOctets_eq_none ends.cut (Or.inl rfl), takeGroup_eq_none ends]

/-- What follows groups, and what follows a group, is no digit and no dot. -/
theorem Groups.ends (groups : Groups form false used ns dotted) (stop : Stop rest) :
    Ends isHexDigit (used ++ rest) ∧ (used ++ rest).head? ≠ some '.' := by
  cases groups with
  | nil =>
      refine ⟨stop.ends, ?_⟩
      cases stop <;> simp
  | octets => exact ⟨ends_cons_iff.mpr (by decide), by simp [lead]⟩
  | cons => exact ⟨ends_cons_iff.mpr (by decide), by simp [lead]⟩

theorem takeGroups_octets {a b c d : Nat} (taken : takeOctets form cs = some ([a, b, c, d], rest))
    (two : 1 ≤ limit) :
    takeGroups form first (limit + 1) (lead first ++ cs) = ([256 * a + b, 256 * c + d], true, rest) := by
  have started : afterColon first (lead first ++ cs) = some cs := afterColon_eq_some_iff.mpr rfl
  rw [takeGroups, started]
  simp only [if_pos two, taken]

theorem takeGroups_group {between : List Char} (other : takeOctets form cs = none)
    (taken : takeGroup cs = some (n, between))
    (later : takeGroups form false limit between = (ns, dotted, rest)) :
    takeGroups form first (limit + 1) (lead first ++ cs) = (n :: ns, dotted, rest) := by
  have started : afterColon first (lead first ++ cs) = some cs := afterColon_eq_some_iff.mpr rfl
  rw [takeGroups, started]
  simp only [other, ite_self, taken, later]

/-- The groups of a text are read, where no group follows. -/
theorem takeGroups_of_groups (groups : Groups form first used ns dotted) (few : ns.length ≤ limit)
    (stop : Stop rest) : takeGroups form first limit (used ++ rest) = (ns, dotted, rest) := by
  induction groups generalizing limit with
  | nil => exact takeGroups_of_stop stop
  | @octets first cs a b c d octets =>
      obtain ⟨limit, rfl⟩ := Nat.exists_eq_add_of_le' few
      have taken : takeOctets form (cs ++ rest) = some ([a, b, c, d], rest) :=
        takeOctets_eq_some_iff.mpr ⟨cs, rfl, octets, stop.ends.noDigit⟩
      rw [List.append_assoc]
      exact takeGroups_octets taken (Nat.le_add_left ..)
  | @cons first dotted cs later n ns group groups ih =>
      obtain ⟨limit, rfl⟩ : ∃ limit', limit = limit' + 1 := Nat.exists_eq_succ_of_ne_zero (by
        rintro rfl
        cases few)
      obtain ⟨ends, noDot⟩ := groups.ends stop
      have cut : Cut isHexDigit (cs ++ (later ++ rest)) cs (later ++ rest) := ⟨rfl, group.digits, ends⟩
      rw [List.append_assoc, List.append_assoc]
      exact takeGroups_group (takeOctets_eq_none cut (Or.inr noDot))
        (takeGroup_eq_some_iff.mpr ⟨cs, cut, group⟩) (ih (by simpa using few))

/-! ### Addresses -/

theorem takeV4_eq_some_iff : takeV4 form cs = some (a, rest) ↔
    ∃ used, cs = used ++ rest ∧ SpellsV4 form used a ∧ Ends Char.isDigit rest := by
  simp only [takeV4, Option.bind_eq_bind, Option.bind_eq_some_iff, Prod.exists, takeOctets_eq_some_iff]
  constructor
  · rintro ⟨ns, rest', ⟨used, parts, octets, ends⟩, same⟩
    cases same
    exact ⟨used, parts, .octets octets, ends⟩
  · rintro ⟨used, parts, ⟨octets⟩, ends⟩
    exact ⟨_, rest, ⟨used, parts, octets, ends⟩, rfl⟩

theorem Form.room_sub (count : Nat) : (if form.emptyGap then 8 - count else 7 - count) = form.room - count := by
  unfold room
  split <;> rfl

/-- What is read as an address of the second family spells it. -/
theorem spellsV6_of_takeV6 (read : takeV6 form cs = some (a, rest)) :
    ∃ used, cs = used ++ rest ∧ SpellsV6 form used a := by
  unfold takeV6 at read
  rcases front : takeGroups form true 8 cs with ⟨ns, dotted, between⟩
  obtain ⟨used, rfl, head, few⟩ := groups_of_takeGroups front
  simp only [front, Form.room_sub] at read
  split at read
  · rename_i eight
    cases read
    exact ⟨used, rfl, .full head eight⟩
  rename_i notEight
  split at read
  · cases read
  rename_i plain
  obtain rfl : dotted = false := by simpa using plain
  split at read
  · rename_i between
    rcases back : takeGroups form true (form.room - ns.length) between with ⟨ns', dotted', rest'⟩
    obtain ⟨used', rfl, tail, few'⟩ := groups_of_takeGroups back
    simp only [back] at read
    cases read
    have least : 7 ≤ form.room := by
      unfold Form.room
      split <;> decide
    exact ⟨used ++ ':' :: ':' :: used', by simp, .gap head tail (by omega) (by omega)⟩
  · cases read

/-- A text of the second family is read, where no group follows. -/
theorem takeV6_of_spellsV6 (spells : SpellsV6 form used a) (stop : Stop rest) :
    takeV6 form (used ++ rest) = some (a, rest) := by
  unfold takeV6
  cases spells with
  | full groups eight =>
      rw [takeGroups_of_groups groups (by omega) stop]
      simp only [if_pos eight]
      rfl
  | @gap cs cs' ns ns' dotted head tail few room =>
      have front : takeGroups form true 8 (cs ++ ':' :: ':' :: (cs' ++ rest)) =
          (ns, false, ':' :: ':' :: (cs' ++ rest)) := takeGroups_of_groups head (by omega) .gap
      have back : takeGroups form true (form.room - ns.length) (cs' ++ rest) = (ns', dotted, rest) :=
        takeGroups_of_groups tail (by omega) stop
      have parts : cs ++ ':' :: ':' :: cs' ++ rest = cs ++ ':' :: ':' :: (cs' ++ rest) := by simp
      rw [parts, front]
      simp only [if_neg few.ne, Bool.false_eq_true, if_false, Form.room_sub, back]
      rfl

theorem takeV6_eq_some_iff (stop : Stop rest) :
    takeV6 form cs = some (a, rest) ↔ ∃ used, cs = used ++ rest ∧ SpellsV6 form used a := by
  refine ⟨spellsV6_of_takeV6, ?_⟩
  rintro ⟨used, rfl, spells⟩
  exact takeV6_of_spellsV6 spells stop

/-! ### Whole texts -/

/-- Of two readers that never both succeed it does not matter which one is tried first. -/
theorem or_eq_some_iff {α : Type} {x : α} {read read' : Option α} {spells spells' : α → Prop}
    (reads : ∀ x, read = some x ↔ spells x) (reads' : ∀ x, read' = some x ↔ spells' x)
    (apart : ∀ x y, spells x → ¬ spells' y) : read.or read' = some x ↔ spells x ∨ spells' x := by
  rw [Option.or_eq_some_iff, reads, reads']
  refine or_congr_right (and_iff_right_of_imp fun found => ?_)
  rw [Option.eq_none_iff_forall_ne_some]
  exact fun other first => apart other x ((reads other).mp first) found

theorem whole?_eq_some_iff {α : Type} {x : α} {read : Option (α × List Char)} :
    whole? read = some x ↔ read = some (x, []) := by
  unfold whole?
  split
  · simp
  · rename_i other
    refine iff_of_false nofun ?_
    rintro rfl
    exact other x rfl

/-- The texts that are read as addresses that stand alone are those that spell one. -/
theorem ofText?_eq_some_iff {s : String} : ofText? s = some a ↔ Spells strict s.toList a := by
  refine or_eq_some_iff (fun a => ?_) (fun a => ?_) fun _ _ v4 v6 => v4.colon_notMem v6.colon_mem
  · have ends : Ends Char.isDigit [] := rfl
    simp [whole?_eq_some_iff, takeV4_eq_some_iff, ends]
  · simp [whole?_eq_some_iff, takeV6_eq_some_iff .finished]

end Gatehouse.Address
