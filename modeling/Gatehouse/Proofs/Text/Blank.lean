import Gatehouse.Proofs.Text.Letter
import Gatehouse.Text.Blank
import Mathlib.Data.List.DropRight

/-!
Blanks at the ends of a text.

Trimming takes all blanks off both ends and nothing else: a text is what trimming leaves of it with blanks
around it (`exists_blanks_around`), and what has no blank at its ends is left of a text that has only blanks
around it (`trim_around`).
-/

namespace Gatehouse.Text

variable {p : Char → Bool} {c : Char} {cs : List Char} {s t before after : String}

/-- A text of blanks, if of anything. -/
def Blanks (s : String) : Prop := ∀ c ∈ s.toList, isBlank c = true

/-- The first character of a text is a blank. -/
def BeginsBlank (s : String) : Prop := s.toList.head?.any isBlank = true

/-- The last character of a text is a blank. -/
def EndsBlank (s : String) : Prop := s.toList.getLast?.any isBlank = true

/-- A text that is not empty and neither begins nor ends with a blank. -/
structure Tight (s : String) : Prop where
  given : s ≠ ""
  front : ¬ BeginsBlank s
  back : ¬ EndsBlank s

instance : Decidable (Blanks s) := decidable_of_iff (s.toList.all isBlank = true) List.all_eq_true

instance : Decidable (BeginsBlank s) := inferInstanceAs (Decidable (s.toList.head?.any isBlank = true))

instance : Decidable (EndsBlank s) := inferInstanceAs (Decidable (s.toList.getLast?.any isBlank = true))

instance : Decidable (Tight s) :=
  decidable_of_iff (s ≠ "" ∧ ¬ BeginsBlank s ∧ ¬ EndsBlank s)
    ⟨fun ⟨given, front, back⟩ => ⟨given, front, back⟩,
      fun ⟨given, front, back⟩ => ⟨given, front, back⟩⟩

/-! ### Characters -/

/-- ASCII letters and digits are no blanks. -/
theorem isBlank_of_isAlphanum (alphanumeric : c.isAlphanum = true) : isBlank c = false := by
  have range : 65 ≤ c.toNat ∧ c.toNat ≤ 90 ∨ 97 ≤ c.toNat ∧ c.toNat ≤ 122 ∨ 48 ≤ c.toNat ∧ c.toNat ≤ 57 :=
    isAlphanum_iff.mp alphanumeric
  simp only [isBlank, blankRanges, List.any_cons, List.any_nil, Bool.or_false, Bool.or_eq_false_iff,
    Bool.and_eq_false_iff, decide_eq_false_iff_not]
  omega

/-- Blanks have no other case. -/
theorem toLower_of_isBlank (blank : isBlank c = true) : c.toLower = c := by
  have range : ¬ ('A' ≤ c ∧ c ≤ 'Z') := by
    intro upper
    rw [isBlank_of_isAlphanum (isAlphanum_iff.mpr (Or.inl upper))] at blank
    exact Bool.false_ne_true blank
  exact dif_neg range

/-! ### Ends of texts -/

theorem beginsBlank_append (given : s ≠ "") : BeginsBlank (s ++ t) ↔ BeginsBlank s := by
  have given : s.toList ≠ [] := by simpa using given
  rw [BeginsBlank, BeginsBlank, String.toList_append, List.head?_append_of_ne_nil _ given]

theorem endsBlank_append (given : t ≠ "") : EndsBlank (s ++ t) ↔ EndsBlank t := by
  have given : t.toList ≠ [] := by simpa using given
  rw [EndsBlank, EndsBlank, String.toList_append, List.getLast?_append_of_ne_nil _ given]

theorem Blanks.endsBlank (blanks : Blanks s) (given : s ≠ "") : EndsBlank s := by
  have given : s.toList ≠ [] := by simpa using given
  rw [EndsBlank, List.getLast?_eq_some_getLast given]
  exact blanks _ (List.getLast_mem given)

theorem Blanks.append (blanks : Blanks s) (blanks' : Blanks t) : Blanks (s ++ t) := by
  intro c mem
  rw [String.toList_append] at mem
  exact (List.mem_append.mp mem).elim (blanks c) (blanks' c)

theorem blanks_empty : Blanks "" := by decide

/-- A text begins as its prefixes do. -/
theorem beginsBlank_iff_of_begins (given : s ≠ "") (begins : s.toList <+: t.toList) :
    BeginsBlank t ↔ BeginsBlank s := by
  obtain ⟨rest, whole⟩ := begins
  have same : t = s ++ String.ofList rest := String.toList_inj.mp (by simp [whole])
  rw [same, beginsBlank_append given]

/-- A text that begins and ends with texts without blanks at these ends has none at its own. -/
theorem tight_append (given : s ≠ "") (front : ¬ BeginsBlank s) (given' : t ≠ "") (back : ¬ EndsBlank t) :
    Tight (s ++ t) where
  given := mt String.append_eq_empty_iff.mp fun empty => given empty.1
  front := mt (beginsBlank_append given).mp front
  back := mt (endsBlank_append given').mp back

/-- A text of letters and digits has no blank at its ends. -/
theorem tight_of_isAlphanum (given : s ≠ "") (alphanumeric : ∀ c ∈ s.toList, c.isAlphanum = true) : Tight s := by
  have plain : ∀ c ∈ s.toList, ¬ isBlank c = true := fun c mem =>
    Bool.eq_false_iff.mp (isBlank_of_isAlphanum (alphanumeric c mem))
  refine ⟨given, fun begins => ?_, fun ends => ?_⟩
  · obtain ⟨c, first, blank⟩ := (Option.any_eq_true ..).mp begins
    exact plain c (List.mem_of_mem_head? first) blank
  · obtain ⟨c, last, blank⟩ := (Option.any_eq_true ..).mp ends
    exact plain c (List.mem_of_mem_getLast? last) blank

/-! ### Trimming -/

/-- What does not satisfy `p` at its ends is left of a row that satisfies `p` around it. -/
theorem trimOf_around {before after : List Char} (blanks : ∀ c ∈ before, p c = true)
    (blanks' : ∀ c ∈ after, p c = true) (front : cs.head?.any p = false) (back : cs.getLast?.any p = false)
    (given : cs ≠ []) : trimOf p (before ++ cs ++ after) = cs := by
  have dropped : (cs ++ after).dropWhile p = cs ++ after := by
    cases cs with
    | nil => exact absurd rfl given
    | cons c rest => exact List.dropWhile_cons_of_neg (by simpa using front)
  have kept : cs.reverse.dropWhile p = cs.reverse := by
    rw [List.getLast?_eq_head?_reverse] at back
    cases reversed : cs.reverse with
    | nil => rfl
    | cons c rest => exact List.dropWhile_cons_of_neg (by simpa [reversed] using back)
  have blanks' : ∀ c ∈ after.reverse, p c = true := fun c mem => blanks' c (List.mem_reverse.mp mem)
  rw [trimOf, List.append_assoc, List.dropWhile_append_of_pos blanks, dropped, List.reverse_append,
    List.dropWhile_append_of_pos blanks', kept, List.reverse_reverse]

/-- What has no blank at its ends is left of a text that has only blanks around it. -/
theorem trim_around (blanks : Blanks before) (tight : Tight s) (blanks' : Blanks after) :
    trim (before ++ s ++ after) = s := by
  have given : s.toList ≠ [] := by simpa using tight.given
  have around := trimOf_around blanks blanks' (Bool.eq_false_iff.mpr tight.front)
    (Bool.eq_false_iff.mpr tight.back) given
  rw [trim, String.toList_append, String.toList_append, around, String.ofList_toList]

theorem trim_of_tight (tight : Tight s) : trim s = s := by
  simpa using trim_around blanks_empty tight blanks_empty

theorem head?_dropWhile (p : Char → Bool) (cs : List Char) : (cs.dropWhile p).head?.any p = false := by
  have first := List.head?_dropWhile_not p cs
  cases left : (cs.dropWhile p).head? with
  | none => rfl
  | some c => simpa [left] using first

/-- What is left does not satisfy `p` at its ends. -/
theorem ends_trimOf (p : Char → Bool) (cs : List Char) :
    (trimOf p cs).head?.any p = false ∧ (trimOf p cs).getLast?.any p = false := by
  constructor
  · cases left : trimOf p cs with
    | nil => rfl
    | cons c rest =>
        obtain ⟨tail, whole⟩ : trimOf p cs <+: cs.dropWhile p := List.rdropWhile_prefix p _
        have first := head?_dropWhile p cs
        rw [← whole, left] at first
        exact first
  · rw [List.getLast?_eq_head?_reverse, trimOf, List.reverse_reverse]
    exact head?_dropWhile p _

/-- A text is what trimming leaves of it, with blanks around it. -/
theorem exists_blanks_around (s : String) : ∃ before after, Blanks before ∧ Blanks after ∧
    s = before ++ trim s ++ after ∧ (trim s = "" ∨ Tight (trim s)) := by
  let inner := s.toList.dropWhile isBlank
  have letters : (trim s).toList = inner.rdropWhile isBlank := String.toList_ofList
  refine ⟨String.ofList (s.toList.takeWhile isBlank), String.ofList (inner.rtakeWhile isBlank), ?_, ?_, ?_, ?_⟩
  · intro c mem
    exact List.mem_takeWhile_imp (String.toList_ofList ▸ mem)
  · intro c mem
    exact List.mem_rtakeWhile_imp (String.toList_ofList ▸ mem)
  · apply String.toList_inj.mp
    simp only [String.toList_append, String.toList_ofList, letters, List.append_assoc]
    rw [List.rdropWhile_append_rtakeWhile, List.takeWhile_append_dropWhile]
  · obtain ⟨front, back⟩ := ends_trimOf isBlank s.toList
    refine or_iff_not_imp_left.mpr fun given => ⟨given, ?_, ?_⟩
    · rw [BeginsBlank, trim, String.toList_ofList, front]
      exact Bool.false_ne_true
    · rw [EndsBlank, trim, String.toList_ofList, back]
      exact Bool.false_ne_true

/-- Nothing is left of blanks alone. -/
theorem trim_eq_empty_iff : trim s = "" ↔ Blanks s := by
  obtain ⟨before, after, blanks, blanks', around, ends⟩ := exists_blanks_around s
  constructor
  · intro empty
    rw [around, empty]
    exact (blanks.append blanks_empty).append blanks'
  · intro all
    refine ends.resolve_right fun tight => tight.back ?_
    have inner : Blanks (trim s) := fun c mem => all c (by
      rw [around]
      simp [mem])
    exact inner.endsBlank tight.given

end Gatehouse.Text
