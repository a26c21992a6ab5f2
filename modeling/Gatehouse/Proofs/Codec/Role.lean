import Gatehouse.Codec.Role
import Gatehouse.Proofs.Json.Record
import Gatehouse.Proofs.Json.RoundTrip

/-!
Permissions, roles and entitlements are read back from their JSON as they were written.

The one exception is a permission with an empty resource pattern, which is read as a permission on
every resource. A permission that may be stored never has one.
-/

namespace Gatehouse

open Json

/-! ### Lists -/

/-- A list is read back if every item of it is. -/
theorem Json.readItems_map {α : Type} {read : Reader α} {encode : α → Json} {as : List α}
    (back : ∀ a ∈ as, read (encode a) = .ok a) : readItems read (as.map encode) = .ok as := by
  induction as with
  | nil => rfl
  | cons a as ih =>
      have first := back a (List.mem_cons_self ..)
      have later := ih fun b hb => back b (List.mem_cons_of_mem _ hb)
      rw [List.map_cons, readItems, first, later]
      rfl

theorem Json.isPlain_ofStrings (ss : List String) : IsPlain (.ofStrings ss) := by
  have plain : ∀ s, IsPlain (.string s) := fun _ => trivial
  exact itemsPlain_map plain ss

theorem Json.readList_ofStrings (ss : List String) :
    readList readString (.ofStrings ss) = .ok ss :=
  readItems_map fun _ _ => rfl

/-! ### Permissions -/

namespace Permission

theorem isPlain_toJson (p : Permission) : IsPlain p.toJson := ⟨trivial, trivial, trivial⟩

theorem readResource_string {text : String} (given : text ≠ "") :
    readResource (.string text) = .ok text := by
  have read : readResource (.string text) =
      .ok (if text = "" then Pattern.wildcard else text) := rfl
  rw [read, if_neg given]

theorem read_toJson {p : Permission} (given : p.resource ≠ "") : read p.toJson = .ok p := by
  have resource := readResource_string given
  simp [read, toJson, readRecord, putMembers, fields, RecordField.of, readString, resource]

/-- A permission that may be stored has a resource pattern. -/
theorem resource_ne_empty_of_check {p : Permission} (checked : p.check = .ok ()) :
    p.resource ≠ "" := by
  intro empty
  unfold check at checked
  rw [empty] at checked
  cases operation : Pattern.checkOperation p.operation <;>
    simp [operation, Pattern.checkResource] at checked

end Permission

theorem Permission.readList_toJson {ps : List Permission} (given : ∀ p ∈ ps, p.resource ≠ "") :
    readList read (.array (ps.map toJson)) = .ok ps :=
  readItems_map fun p mem => read_toJson (given p mem)

/-! ### Roles -/

namespace Role

theorem isPlain_toJson (r : Role) : IsPlain r.toJson :=
  ⟨isPlain_natural r.id, trivial, trivial, trivial,
    itemsPlain_map Permission.isPlain_toJson r.permissions, trivial⟩

theorem read_toJson {r : Role} (given : ∀ p ∈ r.permissions, p.resource ≠ "") :
    read r.toJson = .ok r := by
  have stores : Stores fields [("id", .natural r.id.toNat), ("name", .string r.name),
      ("display_name", .string r.displayName), ("is_system", .bool r.isSystem),
      ("permissions", .array (r.permissions.map Permission.toJson))] ⟨0, "", "", false, []⟩ r :=
    .read rfl nofun (readUInt64_natural _) <| .read rfl nofun rfl <| .read rfl nofun rfl <|
      .read rfl nofun rfl <| .read rfl nofun (Permission.readList_toJson given) <| .nil _
  exact stores.readRecord_eq (.refl _) (by decide) (by simp [fields, RecordField.of])

end Role

/-! ### Entitlements -/

namespace Entitlements

theorem isPlain_toJson (e : Entitlements) : IsPlain e.toJson :=
  ⟨isPlain_ofStrings e.roles, itemsPlain_map Permission.isPlain_toJson e.permissions, trivial⟩

theorem read_toJson {e : Entitlements} (given : ∀ p ∈ e.permissions, p.resource ≠ "") :
    read e.toJson = .ok e := by
  have roles : readList readString (.array (e.roles.map .string)) = .ok e.roles :=
    readList_ofStrings e.roles
  have permissions : readList Permission.read (.array (e.permissions.map Permission.toJson)) =
      .ok e.permissions := Permission.readList_toJson given
  simp [read, toJson, ofStrings, readRecord, putMembers, fields, RecordField.of, roles,
    permissions]

/-- The text that entitlements are kept as is read back as these entitlements. -/
theorem decode?_compact {e : Entitlements} (given : ∀ p ∈ e.permissions, p.resource ≠ "") :
    decode? read e.toJson.compact = some e :=
  decode?_eq_some e.isPlain_toJson (read_toJson given)

end Entitlements

end Gatehouse
