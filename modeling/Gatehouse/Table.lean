/-!
Finite tables, as lists of key and value pairs with ascending keys.

The order makes every listing of a table canonical: two tables with the same look-ups are listed
alike. Main statements:

* what `insert`, `erase` and `adjust` do to look-ups (`find?_insert`, `find?_erase` and
  `find?_adjust`); this holds of every list of pairs;
* they keep the keys strictly ascending (`Ascending.insert` and its neighbours).
-/

namespace Gatehouse

/-- A finite table from `κ` to `α`. -/
structure Table (κ α : Type) where
  entries : List (κ × α)
  deriving Repr, DecidableEq

namespace Table

variable {κ α : Type}

/-- The table with no entry. -/
def empty : Table κ α := ⟨[]⟩

instance : Inhabited (Table κ α) := ⟨empty⟩

/-- The number of entries. -/
def size (t : Table κ α) : Nat := t.entries.length

/-- The keys in ascending order. -/
def keys (t : Table κ α) : List κ := t.entries.map Prod.fst

/-- The values in the order of their keys. -/
def values (t : Table κ α) : List α := t.entries.map Prod.snd

/-- Keeps the entries that satisfy `p`. -/
def filter (p : κ → α → Bool) (t : Table κ α) : Table κ α :=
  ⟨t.entries.filter fun (k, v) => p k v⟩

/-- Changes every value, knowing its key. -/
def mapValues {β : Type} (f : κ → α → β) (t : Table κ α) : Table κ β :=
  ⟨t.entries.map fun (k, v) => (k, f k v)⟩

section Lookup

variable [DecidableEq κ]

/-- The first value paired with a key. -/
def lookup (k : κ) : List (κ × α) → Option α
  | [] => none
  | (k', v) :: rest => if k' = k then some v else lookup k rest

/-- The value of a key, if it has one. -/
def find? (t : Table κ α) (k : κ) : Option α := lookup k t.entries

/-- The key has a value. -/
def contains (t : Table κ α) (k : κ) : Bool := (t.find? k).isSome

/-- The table without a key. -/
def erase (t : Table κ α) (k : κ) : Table κ α :=
  ⟨t.entries.filter fun (k', _) => k' ≠ k⟩

/-- Changes the value of a key, if it has one. -/
def adjust (t : Table κ α) (k : κ) (f : α → α) : Table κ α :=
  ⟨t.entries.map fun (k', v) => (k', if k' = k then f v else v)⟩

end Lookup

section Order

variable [DecidableEq κ] [LT κ] [DecidableLT κ]

/-- Puts a pair before the first larger key, in the place of an equal one. -/
def place (k : κ) (v : α) : List (κ × α) → List (κ × α)
  | [] => [(k, v)]
  | (k', v') :: rest =>
    if k' = k then (k, v) :: rest
    else if k < k' then (k, v) :: (k', v') :: rest
    else (k', v') :: place k v rest

/-- Gives a key a value, in the place of an earlier one. -/
def insert (t : Table κ α) (k : κ) (v : α) : Table κ α := ⟨place k v t.entries⟩

/-- The table of a list of pairs; of pairs with one key the last counts. -/
def ofList (pairs : List (κ × α)) : Table κ α :=
  pairs.foldl (fun t (k, v) => t.insert k v) empty

/-- The keys ascend strictly, so no key occurs twice. -/
def Ascending (t : Table κ α) : Prop := t.keys.Pairwise (· < ·)

instance (t : Table κ α) : Decidable t.Ascending := by unfold Ascending; infer_instance

end Order

/-! ### What each operation does to look-ups -/

section Laws

variable [DecidableEq κ]

@[simp] theorem find?_empty (k : κ) : (empty : Table κ α).find? k = none := rfl

theorem find?_erase (t : Table κ α) (k j : κ) :
    (t.erase k).find? j = if j = k then none else t.find? j := by
  obtain ⟨es⟩ := t
  simp only [erase, find?]
  induction es with
  | nil => simp [lookup]
  | cons e rest ih =>
      obtain ⟨k', v⟩ := e
      by_cases hk : k' = k
      · subst hk
        by_cases hj : j = k'
        · simp_all [List.filter]
        · simp_all [List.filter, lookup, Ne.symm hj]
      · by_cases hj : k' = j
        · subst hj; simp [List.filter, lookup, hk]
        · simp_all [List.filter, lookup]

theorem find?_adjust (t : Table κ α) (k j : κ) (f : α → α) :
    (t.adjust k f).find? j = if j = k then (t.find? j).map f else t.find? j := by
  obtain ⟨es⟩ := t
  simp only [adjust, find?]
  induction es with
  | nil => simp [lookup]
  | cons e rest ih =>
      obtain ⟨k', v⟩ := e
      by_cases hj : k' = j
      · subst hj; by_cases hk : k' = k <;> simp [lookup, hk]
      · simp_all [lookup]

variable [LT κ] [DecidableLT κ]

theorem find?_insert (t : Table κ α) (k j : κ) (v : α) :
    (t.insert k v).find? j = if j = k then some v else t.find? j := by
  obtain ⟨es⟩ := t
  simp only [insert, find?]
  induction es with
  | nil => simp [place, lookup, eq_comm]
  | cons e rest ih =>
      obtain ⟨k', v'⟩ := e
      by_cases hk : k' = k
      · subst hk
        by_cases hj : k' = j
        · simp [place, lookup, hj]
        · simp [place, lookup, hj, Ne.symm hj]
      · by_cases hlt : k < k'
        · simp [place, lookup, hk, hlt, eq_comm]
        · by_cases hj : k' = j
          · subst hj; simp [place, lookup, hk, hlt]
          · simp_all [place, lookup]

@[simp] theorem find?_insert_self (t : Table κ α) (k : κ) (v : α) :
    (t.insert k v).find? k = some v := by
  simp [find?_insert]

theorem find?_insert_of_ne (t : Table κ α) {k j : κ} (v : α) (h : j ≠ k) :
    (t.insert k v).find? j = t.find? j := by
  simp [find?_insert, h]

end Laws

/-! ### What keeps the keys ascending -/

section Ascending

theorem keys_mapValues {β : Type} (t : Table κ α) (f : κ → α → β) :
    (t.mapValues f).keys = t.keys := by
  simp [keys, mapValues, Function.comp_def]

theorem keys_adjust [DecidableEq κ] (t : Table κ α) (k : κ) (f : α → α) :
    (t.adjust k f).keys = t.keys := by
  simp [keys, adjust, Function.comp_def]

variable [LT κ]

theorem ascending_empty : (empty : Table κ α).Ascending := List.Pairwise.nil

/-- Keeping some of the entries keeps the order of the keys. -/
theorem Ascending.filter {t : Table κ α} (h : t.Ascending) (p : κ → α → Bool) :
    (t.filter p).Ascending :=
  List.Pairwise.sublist (List.filter_sublist.map Prod.fst) h

theorem Ascending.mapValues {β : Type} {t : Table κ α} (h : t.Ascending) (f : κ → α → β) :
    (t.mapValues f).Ascending := by
  unfold Ascending
  rw [keys_mapValues]
  exact h

variable [DecidableEq κ]

theorem Ascending.erase {t : Table κ α} (h : t.Ascending) (k : κ) : (t.erase k).Ascending :=
  List.Pairwise.sublist (List.filter_sublist.map Prod.fst) h

theorem Ascending.adjust {t : Table κ α} (h : t.Ascending) (k : κ) (f : α → α) :
    (t.adjust k f).Ascending := by
  unfold Ascending
  rw [keys_adjust]
  exact h

variable [DecidableLT κ]

/-- A placed pair adds its key and no other. -/
theorem mem_keys_place {k j : κ} {v : α} {es : List (κ × α)} :
    j ∈ (place k v es).map Prod.fst ↔ j = k ∨ j ∈ es.map Prod.fst := by
  induction es with
  | nil => simp [place]
  | cons e rest ih =>
      obtain ⟨k', v'⟩ := e
      unfold place
      split
      · rename_i hk
        simp [hk]
      · split
        · simp
        · simp only [List.map_cons, List.mem_cons, ih]
          exact or_left_comm

variable [Trans (fun a b : κ => a < b) (fun a b : κ => a < b) (fun a b : κ => a < b)]
  [Std.Trichotomous fun a b : κ => a < b]

theorem pairwise_place {k : κ} {v : α} {es : List (κ × α)}
    (h : (es.map Prod.fst).Pairwise (· < ·)) : ((place k v es).map Prod.fst).Pairwise (· < ·) := by
  induction es with
  | nil => simp [place]
  | cons e rest ih =>
      obtain ⟨k', v'⟩ := e
      obtain ⟨below, later⟩ := List.pairwise_cons.mp h
      unfold place
      split
      · rename_i hk
        subst hk
        exact h
      · rename_i hk
        split
        · rename_i hlt
          refine List.pairwise_cons.mpr ⟨fun j hj => ?_, h⟩
          rcases List.mem_cons.mp hj with rfl | hj
          · exact hlt
          · exact Std.lt_trans hlt (below j hj)
        · rename_i hlt
          refine List.pairwise_cons.mpr ⟨fun j hj => ?_, ih later⟩
          rcases mem_keys_place.mp hj with rfl | hj
          · rcases Std.lt_trichotomy k' j with h | h | h
            · exact h
            · exact absurd h hk
            · exact absurd h hlt
          · exact below j hj

/-- Inserting a pair keeps the keys ascending. -/
theorem Ascending.insert {t : Table κ α} (h : t.Ascending) (k : κ) (v : α) :
    (t.insert k v).Ascending :=
  pairwise_place h

end Ascending

end Table

end Gatehouse
