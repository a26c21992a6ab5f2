/-!
Texts cut at a separator.

`pieces` cuts a list of characters at every occurrence of a separator, so that a text without the
separator is one piece and the empty text is one empty piece; `joined` puts pieces back together.
Main statements:

* cutting loses nothing: `joined_pieces`;
* no piece holds the separator: `notMem_of_mem_pieces`;
* pieces that do not hold the separator are found again: `pieces_joined`.
-/

namespace Gatehouse.Text

/-- Puts a character in front of the first piece. -/
def ontoFirst (c : Char) : List (List Char) → List (List Char)
  | [] => [[c]]
  | piece :: rest => (c :: piece) :: rest

/-- The pieces of a text between the occurrences of `sep`. -/
def pieces (sep : Char) : List Char → List (List Char)
  | [] => [[]]
  | c :: cs => if c = sep then [] :: pieces sep cs else ontoFirst c (pieces sep cs)

/-- Pieces in a row with `sep` between neighbours. -/
def joined (sep : Char) : List (List Char) → List Char
  | [] => []
  | [piece] => piece
  | piece :: next :: rest => piece ++ sep :: joined sep (next :: rest)

theorem pieces_ne_nil (sep : Char) (cs : List Char) : pieces sep cs ≠ [] := by
  cases cs with
  | nil => simp [pieces]
  | cons c cs =>
      unfold pieces
      split
      · simp
      · cases pieces sep cs <;> simp [ontoFirst]

theorem joined_cons {sep : Char} {piece : List Char} {rest : List (List Char)} (h : rest ≠ []) :
    joined sep (piece :: rest) = piece ++ sep :: joined sep rest := by
  cases rest with
  | nil => exact absurd rfl h
  | cons next rest => rfl

theorem joined_ontoFirst (sep c : Char) (ps : List (List Char)) (h : ps ≠ []) :
    joined sep (ontoFirst c ps) = c :: joined sep ps := by
  match ps, h with
  | [piece], _ => rfl
  | piece :: next :: rest, _ => rfl

/-- Cutting loses nothing. -/
theorem joined_pieces (sep : Char) (cs : List Char) : joined sep (pieces sep cs) = cs := by
  induction cs with
  | nil => rfl
  | cons c cs ih =>
      unfold pieces
      split
      · rename_i h
        rw [joined_cons (pieces_ne_nil sep cs), ih, h, List.nil_append]
      · rw [joined_ontoFirst _ _ _ (pieces_ne_nil sep cs), ih]

theorem notMem_of_mem_ontoFirst {sep c : Char} (hc : c ≠ sep) {ps : List (List Char)}
    (h : ∀ p ∈ ps, sep ∉ p) : ∀ p ∈ ontoFirst c ps, sep ∉ p := by
  cases ps with
  | nil => simp [ontoFirst, Ne.symm hc]
  | cons piece rest =>
      intro p hp
      rcases List.mem_cons.mp hp with rfl | hp
      · simp [Ne.symm hc, h piece (List.mem_cons_self ..)]
      · exact h p (List.mem_cons_of_mem _ hp)

/-- No piece holds the separator. -/
theorem notMem_of_mem_pieces {sep : Char} {cs p : List Char} (hp : p ∈ pieces sep cs) :
    sep ∉ p := by
  induction cs generalizing p with
  | nil => simp_all [pieces]
  | cons c cs ih =>
      unfold pieces at hp
      split at hp
      · rcases List.mem_cons.mp hp with rfl | hp
        · simp
        · exact ih hp
      · rename_i hc
        exact notMem_of_mem_ontoFirst hc (fun q hq => ih hq) p hp

theorem pieces_of_notMem {sep : Char} {cs : List Char} (h : sep ∉ cs) : pieces sep cs = [cs] := by
  induction cs with
  | nil => rfl
  | cons c cs ih =>
      simp only [List.mem_cons, not_or] at h
      simp [pieces, Ne.symm h.1, ih h.2, ontoFirst]

theorem pieces_append_cons {sep : Char} {cs : List Char} (h : sep ∉ cs) (rest : List Char) :
    pieces sep (cs ++ sep :: rest) = cs :: pieces sep rest := by
  induction cs with
  | nil => simp [pieces]
  | cons c cs ih =>
      simp only [List.mem_cons, not_or] at h
      simp [pieces, Ne.symm h.1, ih h.2, ontoFirst]

/-- Pieces that do not hold the separator are found again. -/
theorem pieces_joined {sep : Char} {ps : List (List Char)} (hne : ps ≠ [])
    (h : ∀ p ∈ ps, sep ∉ p) : pieces sep (joined sep ps) = ps := by
  induction ps with
  | nil => exact absurd rfl hne
  | cons piece rest ih =>
      have hp := h piece (List.mem_cons_self ..)
      by_cases hr : rest = []
      · subst hr; exact pieces_of_notMem hp
      · rw [joined_cons hr, pieces_append_cons hp]
        rw [ih hr fun p hp => h p (List.mem_cons_of_mem _ hp)]

/-! ### The same on strings -/

/-- The pieces of a string between the occurrences of `sep`. -/
def split (sep : Char) (s : String) : List String :=
  (pieces sep s.toList).map String.ofList

/-- Strings in a row with `sep` between neighbours. -/
def join (sep : Char) (parts : List String) : String :=
  String.ofList (joined sep (parts.map String.toList))

theorem split_ne_nil (sep : Char) (s : String) : split sep s ≠ [] := by
  simp [split, pieces_ne_nil]

theorem join_split (sep : Char) (s : String) : join sep (split sep s) = s := by
  have : (pieces sep s.toList).map (String.toList ∘ String.ofList) = pieces sep s.toList := by
    rw [show String.toList ∘ String.ofList = id from funext fun _ => String.toList_ofList]
    simp
  rw [join, split, List.map_map, this, joined_pieces, String.ofList_toList]

/-! ### Cutting once -/

/-- What stands before and after the first `sep`, if there is one. -/
def cutFirst (sep : Char) : List Char → Option (List Char × List Char)
  | [] => none
  | c :: cs =>
    if c = sep then some ([], cs)
    else (cutFirst sep cs).map fun (before, after) => (c :: before, after)

/-- `cutFirst` on strings. -/
def splitFirst (sep : Char) (s : String) : Option (String × String) :=
  (cutFirst sep s.toList).map fun (before, after) => (String.ofList before, String.ofList after)

/-- A cut gives back the text, and its first half does not hold the separator. -/
theorem cutFirst_eq_some_iff {sep : Char} {cs before after : List Char} :
    cutFirst sep cs = some (before, after) ↔ cs = before ++ sep :: after ∧ sep ∉ before := by
  induction cs generalizing before with
  | nil => simp [cutFirst]
  | cons c cs ih =>
      unfold cutFirst
      split
      · rename_i hc
        subst hc
        cases before with
        | nil => simp
        | cons b before =>
            simp only [Option.some.injEq, Prod.mk.injEq, reduceCtorEq, false_and, false_iff,
              not_and, List.cons_append, List.cons.injEq, List.mem_cons, not_or]
            rintro ⟨rfl, _⟩
            simp
      · rename_i hc
        cases before with
        | nil => simp [hc]
        | cons b before =>
            simp only [Option.map_eq_some_iff, Prod.exists, Prod.mk.injEq, List.cons.injEq,
              List.cons_append, List.mem_cons, not_or]
            constructor
            · rintro ⟨x, y, h, ⟨rfl, rfl⟩, rfl⟩
              obtain ⟨rfl, hx⟩ := ih.mp h
              exact ⟨⟨rfl, rfl⟩, Ne.symm hc, hx⟩
            · rintro ⟨⟨rfl, rfl⟩, _, hx⟩
              exact ⟨before, after, ih.mpr ⟨rfl, hx⟩, ⟨rfl, rfl⟩, rfl⟩

end Gatehouse.Text
