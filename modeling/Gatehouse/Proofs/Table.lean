import Gatehouse.Table
import Mathlib.Data.List.Induction
import Mathlib.Data.List.Nodup

/-!
What a table lists and what it finds are the same, and what a change of one key leaves alone.

In a table with ascending keys an entry is listed exactly when it is found (`mem_entries_iff`). A
selection of the values does not notice a change at a key whose value it leaves out, before and
after (`filter_values_insert` and its neighbours). Tables with the same look-ups are equal
(`Ascending.ext`).
-/

namespace Gatehouse.Table

variable {κ α : Type}

section Lookup

variable [DecidableEq κ]

theorem mem_of_lookup {k : κ} {v : α} {es : List (κ × α)} (found : lookup k es = some v) :
    (k, v) ∈ es := by
  induction es with
  | nil => simp [lookup] at found
  | cons e rest ih =>
      obtain ⟨k', v'⟩ := e
      unfold lookup at found
      split at found
      · rename_i same
        cases found
        exact same ▸ List.mem_cons_self ..
      · exact List.mem_cons_of_mem _ (ih found)

theorem lookup_of_mem {k : κ} {v : α} {es : List (κ × α)} (once : (es.map Prod.fst).Nodup)
    (mem : (k, v) ∈ es) : lookup k es = some v := by
  induction es with
  | nil => cases mem
  | cons e rest ih =>
      obtain ⟨k', v'⟩ := e
      obtain ⟨fresh, once⟩ := List.nodup_cons.mp once
      unfold lookup
      rcases List.mem_cons.mp mem with same | later
      · cases same
        rw [if_pos rfl]
      · have other : k' ≠ k := by
          rintro rfl
          exact fresh (List.mem_map.mpr ⟨_, later, rfl⟩)
        rw [if_neg other]
        exact ih once later

theorem lookup_eq_head? (k : κ) (es : List (κ × α)) :
    lookup k es = ((es.filter (·.1 = k)).head?).map Prod.snd := by
  induction es with
  | nil => rfl
  | cons e rest ih =>
      obtain ⟨k', v'⟩ := e
      by_cases same : k' = k <;> simp [lookup, same, ih]

theorem lookup_isSome_iff {k : κ} {es : List (κ × α)} :
    (lookup k es).isSome = true ↔ k ∈ es.map Prod.fst := by
  induction es with
  | nil => simp [lookup]
  | cons e rest ih =>
      obtain ⟨k', v'⟩ := e
      by_cases same : k' = k
      · simp [lookup, same]
      · simp [lookup, same, Ne.symm same, ← ih]

/-- Changing every value changes what is found. -/
theorem find?_mapValues {β : Type} (t : Table κ α) (f : κ → α → β) (k : κ) :
    (t.mapValues f).find? k = (t.find? k).map (f k) := by
  obtain ⟨es⟩ := t
  simp only [mapValues, find?]
  induction es with
  | nil => rfl
  | cons e rest ih =>
      obtain ⟨k', v'⟩ := e
      by_cases same : k' = k
      · subst same; simp [lookup]
      · simpa [lookup, same] using ih

section Once

variable {t : Table κ α} (once : t.keys.Nodup)

include once

theorem mem_entries_iff {k : κ} {v : α} : (k, v) ∈ t.entries ↔ t.find? k = some v :=
  ⟨lookup_of_mem once, mem_of_lookup⟩

theorem mem_values_iff {v : α} : v ∈ t.values ↔ ∃ k, t.find? k = some v := by
  simp only [values, List.mem_map, Prod.exists, exists_eq_right, mem_entries_iff once]

theorem mem_keys_filter_iff (p : κ → α → Bool) (k : κ) :
    k ∈ (t.filter p).keys ↔ ∃ v, t.find? k = some v ∧ p k v = true := by
  simp only [keys, filter, List.mem_map, List.mem_filter, Prod.exists, exists_and_right,
    exists_eq_right, mem_entries_iff once]

end Once

theorem mem_entries_insert [LT κ] [DecidableLT κ] {t : Table κ α} {k : κ} {v : α} {e : κ × α}
    (mem : e ∈ (t.insert k v).entries) : e = (k, v) ∨ e ∈ t.entries := by
  obtain ⟨es⟩ := t
  simp only [insert] at mem ⊢
  induction es with
  | nil => exact Or.inl (List.mem_singleton.mp mem)
  | cons e' rest ih =>
      obtain ⟨k', v'⟩ := e'
      unfold place at mem
      split at mem
      · rcases List.mem_cons.mp mem with placed | later
        · exact Or.inl placed
        · exact Or.inr (List.mem_cons_of_mem _ later)
      · split at mem
        · exact List.mem_cons.mp mem
        · rcases List.mem_cons.mp mem with first | later
          · exact Or.inr (first ▸ List.mem_cons_self ..)
          · rcases ih later with placed | before
            · exact Or.inl placed
            · exact Or.inr (List.mem_cons_of_mem _ before)

/-- A pair with a new key is one entry more. -/
theorem entries_insert_perm [LT κ] [DecidableLT κ] {t : Table κ α} {k : κ} {v : α}
    (fresh : t.find? k = none) : (t.insert k v).entries.Perm ((k, v) :: t.entries) := by
  obtain ⟨es⟩ := t
  simp only [insert, find?] at fresh ⊢
  induction es with
  | nil => exact List.Perm.refl _
  | cons e rest ih =>
      obtain ⟨k', v'⟩ := e
      unfold lookup at fresh
      unfold place
      split at fresh
      · cases fresh
      · rename_i other
        rw [if_neg other]
        split
        · exact List.Perm.refl _
        · exact ((ih fresh).cons _).trans (List.Perm.swap ..)

theorem mem_values_insert [LT κ] [DecidableLT κ] {t : Table κ α} {k : κ} {v w : α}
    (mem : w ∈ (t.insert k v).values) : w = v ∨ w ∈ t.values := by
  obtain ⟨e, entry, rfl⟩ := List.mem_map.mp mem
  rcases mem_entries_insert entry with rfl | before
  · exact Or.inl rfl
  · exact Or.inr (List.mem_map_of_mem before)

theorem mem_values_erase {t : Table κ α} {k : κ} {w : α} (mem : w ∈ (t.erase k).values) :
    w ∈ t.values := by
  obtain ⟨e, entry, rfl⟩ := List.mem_map.mp mem
  exact List.mem_map_of_mem (List.mem_filter.mp entry).1

theorem mem_values_adjust {t : Table κ α} {k : κ} {f : α → α} {w : α}
    (mem : w ∈ (t.adjust k f).values) : w ∈ t.values ∨ ∃ v ∈ t.values, w = f v := by
  obtain ⟨_, entry, rfl⟩ := List.mem_map.mp mem
  obtain ⟨e, before, rfl⟩ := List.mem_map.mp entry
  simp only
  split
  · exact Or.inr ⟨e.2, List.mem_map_of_mem before, rfl⟩
  · exact Or.inl (List.mem_map_of_mem before)

/-! ### What a selection of the values does not notice -/

theorem filter_values_erase {t : Table κ α} {k : κ} {p : α → Bool}
    (before : ∀ v, (k, v) ∈ t.entries → p v = false) :
    (t.erase k).values.filter p = t.values.filter p := by
  obtain ⟨es⟩ := t
  simp only [erase, values] at before ⊢
  induction es with
  | nil => rfl
  | cons e rest ih =>
      obtain ⟨k', v'⟩ := e
      have later := ih fun v mem => before v (List.mem_cons_of_mem _ mem)
      by_cases same : k' = k
      · subst same
        have out := before v' (List.mem_cons_self ..)
        simpa [List.filter_cons, out] using later
      · simp only [List.filter_cons, same, ne_eq, not_false_eq_true, decide_true, if_true,
          List.map_cons, later]

theorem filter_values_adjust {t : Table κ α} {k : κ} {f : α → α} {p : α → Bool}
    (before : ∀ v, (k, v) ∈ t.entries → p v = false ∧ p (f v) = false) :
    (t.adjust k f).values.filter p = t.values.filter p := by
  obtain ⟨es⟩ := t
  simp only [adjust, values] at before ⊢
  induction es with
  | nil => rfl
  | cons e rest ih =>
      obtain ⟨k', v'⟩ := e
      have later := ih fun v mem => before v (List.mem_cons_of_mem _ mem)
      by_cases same : k' = k
      · subst same
        obtain ⟨out, outAfter⟩ := before v' (List.mem_cons_self ..)
        simpa [List.filter_cons, out, outAfter] using later
      · simp only [List.map_cons, List.filter_cons, same, if_false, later]

theorem filter_values_insert [LT κ] [DecidableLT κ] {t : Table κ α} {k : κ} {v : α}
    {p : α → Bool} (before : ∀ v', (k, v') ∈ t.entries → p v' = false) (after : p v = false) :
    (t.insert k v).values.filter p = t.values.filter p := by
  obtain ⟨es⟩ := t
  simp only [insert, values] at before ⊢
  induction es with
  | nil => simp [place, after]
  | cons e rest ih =>
      obtain ⟨k', v'⟩ := e
      have later := ih fun v mem => before v (List.mem_cons_of_mem _ mem)
      unfold place
      split
      · rename_i same
        subst same
        have out := before v' (List.mem_cons_self ..)
        simp [out, after]
      · split
        · simp [List.filter_cons, after]
        · simp only [List.map_cons, List.filter_cons, later]

end Lookup

/-! ### Sizes -/

/-- Of pairs with different keys those that do not have the keys of the first ones are the others. -/
theorem filter_keys_take [DecidableEq κ] {es : List (κ × α)} (once : (es.map Prod.fst).Nodup)
    (n : Nat) :
    es.filter (fun e => !((es.take n).map Prod.fst).contains e.1) = es.drop n := by
  have parts := es.take_append_drop n
  rw [← parts, List.map_append] at once
  obtain ⟨_, _, apart⟩ := List.nodup_append.mp once
  have first : (es.take n).filter (fun e => !((es.take n).map Prod.fst).contains e.1) = [] := by
    refine List.filter_eq_nil_iff.mpr fun e mem => ?_
    have key : e.1 ∈ (es.take n).map Prod.fst := List.mem_map_of_mem mem
    simpa using key
  have others : (es.drop n).filter (fun e => !((es.take n).map Prod.fst).contains e.1) =
      es.drop n := by
    refine List.filter_eq_self.mpr fun e mem => ?_
    have key : e.1 ∉ (es.take n).map Prod.fst := fun taken =>
      apart e.1 taken e.1 (List.mem_map_of_mem mem) rfl
    simpa using key
  calc es.filter (fun e => !((es.take n).map Prod.fst).contains e.1)
      = (es.take n ++ es.drop n).filter (fun e => !((es.take n).map Prod.fst).contains e.1) := by
        rw [parts]
    _ = es.drop n := by rw [List.filter_append, first, others, List.nil_append]

/-- Ascending keys occur once. -/
theorem Ascending.nodup_keys [LT κ] [Std.Irrefl (fun a b : κ => a < b)] {t : Table κ α}
    (ascending : t.Ascending) : t.keys.Nodup := by
  refine List.Pairwise.imp (fun {j k} less => ?_) ascending
  rintro rfl
  exact Std.Irrefl.irrefl j less

/-- So do their entries. -/
theorem Ascending.nodup_entries [LT κ] [Std.Irrefl (fun a b : κ => a < b)] {t : Table κ α}
    (ascending : t.Ascending) : t.entries.Nodup :=
  List.Pairwise.of_map Prod.fst (fun _ _ other same => other (congrArg Prod.fst same))
    ascending.nodup_keys

section Ordered

variable [DecidableEq κ] [LT κ] [DecidableLT κ] {t : Table κ α} {k : κ} {v : α}

theorem size_insert_of_fresh (fresh : t.find? k = none) : (t.insert k v).size = t.size + 1 :=
  (entries_insert_perm fresh).length_eq

variable [Trans (fun a b : κ => a < b) (fun a b : κ => a < b) (fun a b : κ => a < b)]
  [Std.Trichotomous fun a b : κ => a < b] [Std.Irrefl (fun a b : κ => a < b)]
  (ascending : t.Ascending)

include ascending

/-- A pair with a known key takes the place of the entry of this key. -/
theorem size_insert_of_found (found : (t.find? k).isSome) : (t.insert k v).size = t.size := by
  obtain ⟨v', known⟩ := Option.isSome_iff_exists.mp found
  have mem : k ∈ t.keys := List.mem_map.mpr ⟨_, mem_of_lookup known, rfl⟩
  have same : (t.insert k v).keys.Perm t.keys := by
    refine (List.perm_ext_iff_of_nodup (ascending.insert k v).nodup_keys ascending.nodup_keys).mpr ?_
    intro j
    refine mem_keys_place.trans ⟨?_, Or.inr⟩
    rintro (rfl | listed)
    · exact mem
    · exact listed
  simpa [keys, size] using same.length_eq

/-- Entries under other keys stay as they are. -/
theorem mem_entries_insert_of_ne {e : κ × α} (other : e.1 ≠ k) :
    e ∈ (t.insert k v).entries ↔ e ∈ t.entries := by
  obtain ⟨j, w⟩ := e
  rw [mem_entries_iff (ascending.insert k v).nodup_keys, mem_entries_iff ascending.nodup_keys,
    find?_insert_of_ne t v other]

end Ordered

/-! ### Tables of pairs -/

section Pairs

variable [DecidableEq κ] [LT κ] [DecidableLT κ] {pairs : List (κ × α)}

theorem ofList_concat (pairs : List (κ × α)) (k : κ) (v : α) :
    ofList (pairs ++ [(k, v)]) = (ofList pairs).insert k v := List.foldl_append

/-- Of pairs with one key the last counts. -/
theorem find?_ofList (pairs : List (κ × α)) (k : κ) :
    (ofList pairs).find? k = lookup k pairs.reverse := by
  induction pairs using List.reverseRecOn with
  | nil => rfl
  | append_singleton earlier e ih =>
      rw [ofList_concat, find?_insert, ih, List.reverse_append, List.reverse_singleton,
        List.singleton_append, lookup]
      simp only [eq_comm]

/-- Pairs with different keys are kept as they are. -/
theorem entries_ofList_perm (once : (pairs.map Prod.fst).Nodup) :
    (ofList pairs).entries.Perm pairs := by
  induction pairs using List.reverseRecOn with
  | nil => exact .refl _
  | append_singleton earlier e ih =>
      rw [List.map_append, List.nodup_append_comm, List.map_singleton, List.singleton_append,
        List.nodup_cons] at once
      have earlierOnes := ih once.2
      have fresh : (ofList earlier).find? e.1 = none := by
        rw [Option.eq_none_iff_forall_ne_some]
        intro v found
        have listed := earlierOnes.mem_iff.mp (mem_of_lookup found)
        exact once.1 (List.mem_map.mpr ⟨_, listed, rfl⟩)
      rw [ofList_concat]
      exact (entries_insert_perm fresh).trans
        ((earlierOnes.cons e).trans (List.perm_append_singleton e earlier).symm)

/-- They are found wherever they are listed. -/
theorem find?_ofList_of_nodup (once : (pairs.map Prod.fst).Nodup) {k : κ} {v : α} :
    (ofList pairs).find? k = some v ↔ (k, v) ∈ pairs := by
  have kept := entries_ofList_perm once
  rw [← mem_entries_iff (((kept.map Prod.fst).nodup_iff).mpr once), kept.mem_iff]

variable [Trans (fun a b : κ => a < b) (fun a b : κ => a < b) (fun a b : κ => a < b)]
  [Std.Trichotomous fun a b : κ => a < b]

theorem ascending_ofList (pairs : List (κ × α)) : (ofList pairs).Ascending := by
  induction pairs using List.reverseRecOn with
  | nil => exact ascending_empty
  | append_singleton earlier e ih =>
      rw [ofList_concat]
      exact ih.insert e.1 e.2

end Pairs

/-- Tables with the same look-ups are listed alike. -/
theorem Ascending.ext [DecidableEq κ] [LT κ] [Std.Asymm (fun a b : κ => a < b)]
    {t t' : Table κ α} (ascending : t.Ascending) (ascending' : t'.Ascending)
    (same : ∀ k, t.find? k = t'.find? k) : t = t' := by
  have entries : t.entries.Perm t'.entries := by
    refine (List.perm_ext_iff_of_nodup ascending.nodup_entries ascending'.nodup_entries).mpr ?_
    rintro ⟨k, v⟩
    rw [mem_entries_iff ascending.nodup_keys, same, mem_entries_iff ascending'.nodup_keys]
  have order : t.entries = t'.entries := by
    refine List.Perm.eq_of_pairwise (fun a b _ _ less more => ?_) (List.pairwise_map.mp ascending)
      (List.pairwise_map.mp ascending') entries
    exact absurd more (Std.Asymm.asymm _ _ less)
  obtain ⟨es⟩ := t
  exact congrArg mk order

end Gatehouse.Table
