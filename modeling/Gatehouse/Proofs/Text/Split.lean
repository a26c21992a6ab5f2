import Gatehouse.Text.Pieces
import Mathlib.Data.List.Basic

/-!
Strings cut at a separator and put together again.

A string without the separator is one part (`split_of_notMem`), one that goes on after a separator has
the parts of what stands before and after it (`split_append_split`), and parts that do not hold the separator
are found again (`split_join`).
-/

namespace Gatehouse.Text

variable {sep c : Char} {s part : String} {parts : List String}

/-! ### Pieces -/

/-- The pieces of two texts with a separator between them are those of the one and of the other. -/
theorem pieces_append (cs rest : List Char) :
    pieces sep (cs ++ sep :: rest) = pieces sep cs ++ pieces sep rest := by
  induction cs with
  | nil => simp [pieces]
  | cons c cs ih =>
      rw [List.cons_append, pieces, pieces, ih]
      split
      · rfl
      · cases first : pieces sep cs with
        | nil => exact absurd first (pieces_ne_nil sep cs)
        | cons piece others => rfl

theorem joined_concat {piece : List Char} {ps : List (List Char)} (given : ps ≠ []) :
    joined sep (ps ++ [piece]) = joined sep ps ++ sep :: piece := by
  induction ps with
  | nil => exact absurd rfl given
  | cons first rest ih =>
      by_cases last : rest = []
      · subst last
        rfl
      · have further : rest ++ [piece] ≠ [] := by simp
        rw [List.cons_append, joined_cons further, ih last, joined_cons last]
        simp

/-- Joined pieces have a character other than the separator when one of the pieces has it. -/
theorem mem_joined_iff {ps : List (List Char)} (other : c ≠ sep) :
    c ∈ joined sep ps ↔ ∃ piece ∈ ps, c ∈ piece := by
  induction ps with
  | nil => simp [joined]
  | cons piece rest ih =>
      by_cases last : rest = []
      · simp [last, joined]
      · simp [joined_cons last, other, ih]

/-! ### Parts of a string -/

theorem split_of_notMem (whole : sep ∉ s.toList) : split sep s = [s] := by
  rw [split, pieces_of_notMem whole, List.map_singleton, String.ofList_toList]

/-- The parts of a text that goes on after a separator. -/
theorem split_append (whole : sep ∉ part.toList) (rest : String) :
    split sep (part ++ String.singleton sep ++ rest) = part :: split sep rest := by
  have letters : (part ++ String.singleton sep ++ rest).toList =
      part.toList ++ sep :: rest.toList := by simp
  rw [split, letters, pieces_append_cons whole, List.map_cons, String.ofList_toList]
  rfl

/-- A text has no separator, or goes on after the first one. -/
theorem notMem_or_eq_append (sep : Char) (s : String) : sep ∉ s.toList ∨
    ∃ part rest, sep ∉ part.toList ∧ s = part ++ String.singleton sep ++ rest := by
  by_cases mem : sep ∈ s.toList
  · obtain ⟨before, after, letters, whole⟩ := List.eq_append_cons_of_mem mem
    refine Or.inr ⟨String.ofList before, String.ofList after, by simpa using whole, ?_⟩
    apply String.toList_inj.mp
    simp [letters]
  · exact Or.inl mem

/-- What stands before and after the first separator is determined by the text. -/
theorem append_inj {part' rest rest' : String} (whole : sep ∉ part.toList)
    (whole' : sep ∉ part'.toList)
    (same : part ++ String.singleton sep ++ rest = part' ++ String.singleton sep ++ rest') :
    part = part' ∧ rest = rest' := by
  have parts : part :: split sep rest = part' :: split sep rest' := by
    rw [← split_append whole, ← split_append whole', same]
  obtain ⟨first, others⟩ := List.cons.inj parts
  refine ⟨first, ?_⟩
  rw [← join_split sep rest, others, join_split]

theorem notMem_of_mem_split (mem : part ∈ split sep s) : sep ∉ part.toList := by
  obtain ⟨piece, found, rfl⟩ := List.mem_map.mp mem
  rw [String.toList_ofList]
  exact notMem_of_mem_pieces found

/-- Parts that do not hold the separator are found again. -/
theorem split_join (nonempty : parts ≠ []) (whole : ∀ part ∈ parts, sep ∉ part.toList) :
    split sep (join sep parts) = parts := by
  have pieces_whole : ∀ piece ∈ parts.map String.toList, sep ∉ piece := by
    intro piece mem
    obtain ⟨part, found, rfl⟩ := List.mem_map.mp mem
    exact whole part found
  rw [split, join, String.toList_ofList, pieces_joined (by simpa using nonempty) pieces_whole]
  simp [Function.comp_def]

/-- A text that begins with a word and a separator has this word for its first segment. -/
theorem split_of_isPrefixOf {word text : String} (whole : sep ∉ word.toList)
    (begins : (word.toList ++ [sep]).isPrefixOf text.toList = true) :
    ∃ rest, split sep text = word :: rest := by
  obtain ⟨rest, same⟩ := List.isPrefixOf_iff_prefix.mp begins
  have letters : text = word ++ String.singleton sep ++ String.ofList rest := by
    apply String.toList_inj.mp
    simp [← same]
  rw [letters]
  exact ⟨_, split_append whole _⟩

/-- A character other than the separator is in none of the parts when it is not in the text. -/
theorem notMem_iff_split {s : String} (other : c ≠ sep) :
    c ∉ s.toList ↔ ∀ part ∈ split sep s, c ∉ part.toList := by
  rw [← joined_pieces sep s.toList, mem_joined_iff other]
  simp [split]

/-! ### Parts in a row -/

theorem join_cons (given : parts ≠ []) :
    join sep (part :: parts) = part ++ String.singleton sep ++ join sep parts := by
  apply String.toList_inj.mp
  have given : parts.map String.toList ≠ [] := by simpa using given
  rw [join, List.map_cons, joined_cons given]
  simp [join]

theorem join_singleton (part : String) : join sep [part] = part := String.ofList_toList

theorem join_concat (given : parts ≠ []) :
    join sep (parts ++ [part]) = join sep parts ++ String.singleton sep ++ part := by
  apply String.toList_inj.mp
  have given : parts.map String.toList ≠ [] := by simpa using given
  rw [join, List.map_append, List.map_singleton, String.toList_ofList, joined_concat given]
  simp [join]

theorem join_three (first second third : String) :
    join sep [first, second, third] =
      first ++ String.singleton sep ++ second ++ String.singleton sep ++ third := by
  rw [join_cons (by simp), join_cons (by simp), join_singleton]
  simp only [String.append_assoc]

/-- The parts of two texts with a separator between them are those of the one and of the other. -/
theorem split_append_split (s rest : String) :
    split sep (s ++ String.singleton sep ++ rest) = split sep s ++ split sep rest := by
  have letters : (s ++ String.singleton sep ++ rest).toList = s.toList ++ sep :: rest.toList := by
    simp
  rw [split, letters, pieces_append, List.map_append]
  rfl

theorem split_three {first second third : String} (whole : sep ∉ first.toList)
    (whole' : sep ∉ second.toList) (whole'' : sep ∉ third.toList) :
    split sep (first ++ String.singleton sep ++ second ++ String.singleton sep ++ third) =
      [first, second, third] := by
  rw [split_append_split, split_append_split, split_of_notMem whole, split_of_notMem whole',
    split_of_notMem whole'']
  rfl

/-! ### Strings cut once -/

theorem splitFirst_eq_some_iff {before after : String} : splitFirst sep s = some (before, after) ↔
    s = before ++ String.singleton sep ++ after ∧ sep ∉ before.toList := by
  simp only [splitFirst, Option.map_eq_some_iff, Prod.exists, Prod.mk.injEq, cutFirst_eq_some_iff]
  constructor
  · rintro ⟨front, back, ⟨letters, whole⟩, rfl, rfl⟩
    refine ⟨String.toList_inj.mp ?_, by simpa using whole⟩
    simp [letters]
  · rintro ⟨rfl, whole⟩
    exact ⟨before.toList, after.toList, ⟨by simp, whole⟩, String.ofList_toList, String.ofList_toList⟩

theorem splitFirst_eq_none_iff : splitFirst sep s = none ↔ sep ∉ s.toList := by
  constructor
  · intro whole mem
    obtain ⟨before, after, letters, first⟩ := List.eq_append_cons_of_mem mem
    have cut : splitFirst sep s = some (String.ofList before, String.ofList after) := by
      refine splitFirst_eq_some_iff.mpr ⟨String.toList_inj.mp ?_, by simpa using first⟩
      simp [letters]
    rw [whole] at cut
    cases cut
  · intro whole
    refine Option.eq_none_iff_forall_ne_some.mpr fun (before, after) cut => whole ?_
    rw [(splitFirst_eq_some_iff.mp cut).1]
    simp

end Gatehouse.Text
