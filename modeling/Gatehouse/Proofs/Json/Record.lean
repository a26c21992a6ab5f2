import Gatehouse.Json.Record
import Gatehouse.Proofs.Outcome
import Mathlib.Data.List.Nodup

/-!
What reading a record keeps of the values of the fields that are left out, and that a record is read
which the members of an object store field by field (`Stores`).
-/

namespace Gatehouse.Json

variable {α ρ : Type} {P : ρ → Prop} {fields : List (RecordField ρ)} {r r' : ρ}

/-- A field keeps a property of records. -/
def RecordField.Keeps (field : RecordField ρ) (P : ρ → Prop) : Prop :=
  ∀ j r r', field.put j r = .ok r' → P r → P r'

theorem RecordField.of_keeps {name : String} {presence : Presence} {read : Reader α}
    {set : α → ρ → ρ} (keeps : ∀ a r, P r → P (set a r)) :
    (RecordField.of name presence read set).Keeps P := by
  intro j r r' done holds
  obtain ⟨a, _, rfl⟩ := Outcome.map_eq_ok.mp done
  exact keeps a r holds

theorem putMembers_keeps (keeps : ∀ field ∈ fields, field.Keeps P)
    {members : List (String × Json)} {seen seen' : List String}
    (done : putMembers fields members seen r = .ok (seen', r')) (holds : P r) : P r' := by
  fun_induction putMembers fields members seen r with
  | case1 seen r =>
      cases done
      exact holds
  | case2 => cases done
  | case3 _ _ _ seen r _ _ _ ih => exact ih done holds
  | case4 => cases done
  | case5 => cases done
  | case6 name value rest seen r _ field found _ r'' put ih =>
      exact ih done (keeps field (List.mem_of_find?_eq_some found) _ _ _ put holds)
  | case7 => cases done

theorem putItems_keeps (keeps : ∀ field ∈ fields, field.Keeps P) {items : List Json}
    (done : putItems fields items r = .ok r') (holds : P r) : P r' := by
  fun_induction putItems fields items r with
  | case1 r =>
      cases done
      exact holds
  | case2 => cases done
  | case3 field fields r _ ih =>
      exact ih (fun f mem => keeps f (List.mem_cons_of_mem _ mem)) done holds
  | case4 => cases done
  | case5 field fields item items r r'' put ih =>
      exact ih (fun f mem => keeps f (List.mem_cons_of_mem _ mem)) done
        (keeps field (List.mem_cons_self ..) _ _ _ put holds)
  | case6 => cases done

/-- A record that is read keeps what every field keeps. -/
theorem readRecord_keeps (keeps : ∀ field ∈ fields, field.Keeps P) {j : Json}
    (done : readRecord fields r j = .ok r') (holds : P r) : P r' := by
  unfold readRecord at done
  split at done
  · split at done
    · rename_i put
      split at done
      · cases done
        exact putMembers_keeps keeps put holds
      · cases done
    · cases done
  · exact putItems_keeps keeps done holds
  · unfold refuse at done
    split at done <;> cases done

/-! ### Numbers and texts that were written -/

theorem readUInt64_natural (n : UInt64) : readUInt64 (.natural n.toNat) = .ok n := by
  have small : n.toNat < UInt64.size := n.toNat_lt
  simp [readUInt64, readBelow, small]

theorem readUInt16_natural (n : UInt16) : readUInt16 (.natural n.toNat) = .ok n := by
  have small : n.toNat < UInt16.size := n.toNat_lt
  simp [readUInt16, readBelow, small]

theorem readText_string {ofText? : String → Option α} {text : String} {a : α}
    (back : ofText? text = some a) : readText ofText? (.string text) = .ok a := by
  rw [readText, back]

/-! ### Records that were written as objects -/

theorem RecordField.put_of {name : String} {presence : Presence} {read : Reader α}
    {set : α → ρ → ρ} {j : Json} {a : α} (back : read j = .ok a) :
    (RecordField.of name presence read set).put j r = .ok (set a r) := by
  unfold RecordField.of
  simp only [back]
  rfl

/-- The members of an object turn one record into another, each by the field of its name. -/
inductive Stores (fields : List (RecordField ρ)) : List (String × Json) → ρ → ρ → Prop where
  | nil (r : ρ) : Stores fields [] r r
  | cons {name : String} {value : Json} {rest : List (String × Json)} {field : RecordField ρ}
      {r r' r'' : ρ} (named : fields.find? (·.name == name) = some field)
      (sound : value ≠ .misnamed) (put : field.put value r = .ok r')
      (later : Stores fields rest r' r'') : Stores fields ((name, value) :: rest) r r''

namespace Stores

variable {members later : List (String × Json)} {r'' : ρ}

/-- A value is stored that the reader of its field reads. -/
theorem read {name : String} {presence : Presence} {read : Reader α} {set : α → ρ → ρ} {j : Json}
    {a : α} (named : fields.find? (·.name == name) = some (.of name presence read set))
    (sound : j ≠ .misnamed) (back : read j = .ok a) (rest : Stores fields later (set a r) r'') :
    Stores fields ((name, j) :: later) r r'' :=
  .cons named sound (RecordField.put_of back) rest

theorem append (first : Stores fields members r r') (last : Stores fields later r' r'') :
    Stores fields (members ++ later) r r'' := by
  induction first with
  | nil r => exact last
  | cons named sound put _ ih => exact .cons named sound put (ih last)

/-- Members with names of their own are stored one after the other. -/
theorem putMembers_eq (stores : Stores fields members r r') {seen : List String}
    (once : (members.map Prod.fst ++ seen).Nodup) :
    putMembers fields members seen r = .ok ((members.map Prod.fst).reverse ++ seen, r') := by
  induction stores generalizing seen with
  | nil r => rfl
  | @cons name value rest field r r₁ r₂ named sound put later ih =>
      have fresh : seen.contains name = false := by
        rw [List.map_cons, List.cons_append, List.nodup_cons] at once
        simpa using fun mem => once.1 (List.mem_append_right _ mem)
      have once' : (rest.map Prod.fst ++ name :: seen).Nodup :=
        List.nodup_middle.mpr (by simpa using once)
      have next : putMembers fields ((name, value) :: rest) seen r =
          putMembers fields rest (name :: seen) r₁ := by
        rw [putMembers.eq_3 _ _ _ _ _ _ sound, named]
        simp only [fresh, Bool.false_eq_true, if_false, put]
      rw [next, ih once']
      simp

/-- A record is read from an object that stores it, with its members in the order of the fields and
no required field left out. -/
theorem readRecord_eq (stores : Stores fields members r r')
    (inOrder : (members.map Prod.fst).Sublist (fields.map (·.name)))
    (distinct : (fields.map (·.name)).Nodup)
    (complete : ∀ field ∈ fields, field.presence = .required → field.name ∈ members.map Prod.fst) :
    readRecord fields r (.object members) = .ok r' := by
  have put : putMembers fields members [] r = .ok ((members.map Prod.fst).reverse ++ [], r') :=
    stores.putMembers_eq (by rw [List.append_nil]; exact distinct.sublist inOrder)
  rw [readRecord, put]
  refine if_pos (List.all_eq_true.mpr fun field mem => ?_)
  simpa [imp_iff_not_or] using complete field mem

end Stores

end Gatehouse.Json
