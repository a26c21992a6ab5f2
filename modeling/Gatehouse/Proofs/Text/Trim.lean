import Gatehouse.Proofs.Text.Split
import Gatehouse.Text.Blank

/-!
Trimming separators off a text that is a row of parts.

Taking separators off the ends of a text takes empty parts off the ends of its row, but for the last part
that is left (`split_trimOf`). So the parts of a trimmed text are found without looking at its characters,
and what changes parts without emptying them or filling empty ones may as well be done before trimming
(`trimRow_map`).
-/

namespace Gatehouse.Text

variable {α β : Type} {p : α → Bool} {xs : List α} {sep : Char} {ps : List (List Char)}

/-- A row without its first members that satisfy `p`, but for the last member of all. -/
def dropFront (p : α → Bool) : List α → List α
  | x :: next :: rest => if p x then dropFront p (next :: rest) else x :: next :: rest
  | xs => xs

/-- A row without the members at its ends that satisfy `p`, but for one. -/
def trimRow (p : α → Bool) (xs : List α) : List α := (dropFront p (dropFront p xs).reverse).reverse

/-! ### Rows -/

theorem dropFront_suffix (p : α → Bool) (xs : List α) : dropFront p xs <:+ xs := by
  fun_induction dropFront p xs with
  | case1 x next rest _ ih => exact ih.trans (List.suffix_cons ..)
  | case2 x next rest => exact List.suffix_rfl
  | case3 xs => exact List.suffix_rfl

theorem dropFront_ne_nil (given : xs ≠ []) : dropFront p xs ≠ [] := by
  fun_induction dropFront p xs with
  | case1 x next rest _ ih => exact ih (List.cons_ne_nil _ _)
  | case2 x next rest => exact given
  | case3 xs => exact given

/-- One member is left at least. -/
theorem trimRow_ne_nil (given : xs ≠ []) : trimRow p xs ≠ [] := by
  have left : (dropFront p xs).reverse ≠ [] := mt List.reverse_eq_nil_iff.mp (dropFront_ne_nil given)
  exact mt List.reverse_eq_nil_iff.mp (dropFront_ne_nil left)

theorem mem_of_mem_trimRow {x : α} (mem : x ∈ trimRow p xs) : x ∈ xs := by
  rw [trimRow, List.mem_reverse] at mem
  have kept := (dropFront_suffix p (dropFront p xs).reverse).mem mem
  exact (dropFront_suffix p xs).mem (List.mem_reverse.mp kept)

theorem dropFront_map {f : α → β} {q : β → Bool} (same : ∀ x ∈ xs, q (f x) = p x) :
    dropFront q (xs.map f) = (dropFront p xs).map f := by
  fun_induction dropFront p xs with
  | case1 x next rest drop ih =>
      rw [List.map_cons, List.map_cons, dropFront, same x (List.mem_cons_self ..), if_pos drop]
      exact ih fun y mem => same y (List.mem_cons_of_mem _ mem)
  | case2 x next rest keep =>
      rw [List.map_cons, List.map_cons, dropFront, same x (List.mem_cons_self ..), if_neg keep]
  | case3 xs short =>
      rcases xs with _ | ⟨x, _ | ⟨next, rest⟩⟩
      · rfl
      · rfl
      · exact absurd rfl (short x next rest)

/-- What decides alike of every member before and after a change may trim the row before or after. -/
theorem trimRow_map {f : α → β} {q : β → Bool} (same : ∀ x ∈ xs, q (f x) = p x) :
    trimRow q (xs.map f) = (trimRow p xs).map f := by
  have left : ∀ x ∈ (dropFront p xs).reverse, q (f x) = p x := fun x mem =>
    same x ((dropFront_suffix p xs).mem (List.mem_reverse.mp mem))
  rw [trimRow, dropFront_map same, ← List.map_reverse, dropFront_map left, ← List.map_reverse]
  rfl

theorem filterMap_dropFront {f : α → Option β} (nothing : ∀ x ∈ xs, p x = true → f x = none) :
    (dropFront p xs).filterMap f = xs.filterMap f := by
  fun_induction dropFront p xs with
  | case1 x next rest drop ih =>
      rw [ih fun y mem => nothing y (List.mem_cons_of_mem _ mem),
        List.filterMap_cons_none (nothing x (List.mem_cons_self ..) drop)]
  | case2 x next rest => rfl
  | case3 xs => rfl

/-- What is made of the other members only, is made of the trimmed row too. -/
theorem filterMap_trimRow {f : α → Option β} (nothing : ∀ x ∈ xs, p x = true → f x = none) :
    (trimRow p xs).filterMap f = xs.filterMap f := by
  have left : ∀ x ∈ (dropFront p xs).reverse, p x = true → f x = none := fun x mem =>
    nothing x ((dropFront_suffix p xs).mem (List.mem_reverse.mp mem))
  rw [trimRow, List.filterMap_reverse, filterMap_dropFront left, List.filterMap_reverse,
    List.reverse_reverse, filterMap_dropFront nothing]

/-! ### Texts -/

theorem dropWhile_of_notMem {cs : List Char} (whole : sep ∉ cs) (rest : List Char) (given : cs ≠ []) :
    (cs ++ rest).dropWhile (· = sep) = cs ++ rest := by
  cases cs with
  | nil => exact absurd rfl given
  | cons c cs =>
      have other : c ≠ sep := fun same => whole (same ▸ List.mem_cons_self ..)
      simp [other]

/-- Separators in front of a text are empty parts in front of its row. -/
theorem dropWhile_joined (whole : ∀ piece ∈ ps, sep ∉ piece) :
    (joined sep ps).dropWhile (· = sep) = joined sep (dropFront List.isEmpty ps) := by
  fun_induction dropFront List.isEmpty ps with
  | case1 piece next rest empty ih =>
      obtain rfl := List.isEmpty_iff.mp empty
      rw [joined, List.nil_append, List.dropWhile_cons_of_pos (by simp)]
      exact ih fun piece mem => whole piece (List.mem_cons_of_mem _ mem)
  | case2 piece next rest given =>
      exact dropWhile_of_notMem (whole piece (List.mem_cons_self ..)) _ (mt List.isEmpty_iff.mpr given)
  | case3 ps short =>
      rcases ps with _ | ⟨piece, _ | ⟨next, rest⟩⟩
      · rfl
      · by_cases given : piece = []
        · rw [given]
          rfl
        · have only := dropWhile_of_notMem (whole piece (List.mem_singleton_self _)) [] given
          rwa [List.append_nil] at only
      · exact absurd rfl (short piece next rest)

theorem joined_reverse (sep : Char) (ps : List (List Char)) :
    (joined sep ps).reverse = joined sep (ps.map List.reverse).reverse := by
  induction ps with
  | nil => rfl
  | cons piece rest ih =>
      by_cases last : rest = []
      · subst last
        rfl
      · have others : (rest.map List.reverse).reverse ≠ [] := by simpa using last
        rw [joined_cons last, List.map_cons, List.reverse_cons, joined_concat others, ← ih]
        simp

/-- Separators at the ends of a text are empty parts at the ends of its row. -/
theorem trimOf_joined (whole : ∀ piece ∈ ps, sep ∉ piece) :
    trimOf (· = sep) (joined sep ps) = joined sep (trimRow List.isEmpty ps) := by
  have left : ∀ piece ∈ ((dropFront List.isEmpty ps).map List.reverse).reverse, sep ∉ piece := by
    intro piece mem
    obtain ⟨piece', kept, rfl⟩ := List.mem_map.mp (List.mem_reverse.mp mem)
    exact mt List.mem_reverse.mp (whole piece' ((dropFront_suffix _ ps).mem kept))
  have alike : ∀ piece ∈ (dropFront List.isEmpty ps).reverse,
      piece.reverse.isEmpty = piece.isEmpty := fun piece _ => List.isEmpty_reverse
  rw [trimOf, dropWhile_joined whole, joined_reverse, dropWhile_joined left, ← List.map_reverse,
    dropFront_map alike, joined_reverse, trimRow, List.map_map]
  simp

/-- The parts of a text that separators are trimmed off. -/
theorem split_trimOf (sep : Char) (s : String) :
    split sep (String.ofList (trimOf (· = sep) s.toList)) = trimRow (· = "") (split sep s) := by
  have whole : ∀ piece ∈ pieces sep s.toList, sep ∉ piece := fun piece => notMem_of_mem_pieces
  have left : ∀ piece ∈ trimRow List.isEmpty (pieces sep s.toList), sep ∉ piece := fun piece mem =>
    whole piece (mem_of_mem_trimRow mem)
  have some_piece : trimRow List.isEmpty (pieces sep s.toList) ≠ [] :=
    trimRow_ne_nil (pieces_ne_nil sep s.toList)
  have alike : ∀ piece ∈ pieces sep s.toList, decide (String.ofList piece = "") = piece.isEmpty := by
    intro piece _
    cases piece <;> simp
  have trimmed := trimOf_joined whole
  rw [joined_pieces] at trimmed
  rw [split, String.toList_ofList, trimmed, pieces_joined some_piece left, split, trimRow_map alike]

end Gatehouse.Text
