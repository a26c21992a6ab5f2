import Gatehouse.Proofs.Net.Range
import Gatehouse.Proofs.Token.Lifecycle
import Gatehouse.Proofs.Token.Normalization

/-!
From where a token may be used.

The entries of an allowlist are texts. One that spells a range lets the addresses of the range in; one
that spells none lets nobody in, and does not count as missing, though a token without entries may be used
from everywhere (`allows_iff_of_misspelt`). No token is issued with such an entry (`issue_eq_error_iff`).
The main statement is `allowlist_exact`, on all tokens, addresses and entries.
-/

namespace Gatehouse.Token

variable {t token : Token} {address : Option Address} {entries before after : List String} {entry : String}
  {e : Error} {order : Order} {id secret : String} {now : Timestamp}

/-- A text spells a range of addresses. -/
def SpellsRange (entry : String) : Prop := ∃ r, AddressRange.Spells entry.toList r

theorem isSome_ofText?_iff : (AddressRange.ofText? entry).isSome = true ↔ SpellsRange entry := by
  simp only [Option.isSome_iff_exists, AddressRange.ofText?_eq_some_iff, SpellsRange]

instance : Decidable (SpellsRange entry) := decidable_of_iff _ isSome_ofText?_iff

/-! ### Use -/

/-- A token without entries may be used from everywhere, another one from the known addresses that a range
of its entries holds. -/
theorem allows_iff_holds : t.allows address = true ↔ t.allowlist = [] ∨ ∃ a, address = some a ∧
    ∃ entry ∈ t.allowlist, ∃ r, AddressRange.Spells entry.toList r ∧ r.Holds a := by
  rw [allows_iff, Admits]
  refine or_congr_right ?_
  simp only [AddressRange.ofText?_eq_some_iff, AddressRange.contains_iff_holds]
  constructor
  · rintro ⟨a, entry, r, known, listed, spells, holds⟩
    exact ⟨a, known, entry, listed, r, spells, holds⟩
  · rintro ⟨a, known, entry, listed, r, spells, holds⟩
    exact ⟨a, entry, r, known, listed, spells, holds⟩

/-- An entry that spells no range may be left out, as long as this leaves others. -/
theorem allows_iff_of_misspelt (listed : t.allowlist = before ++ entry :: after)
    (misspelt : ¬ SpellsRange entry) :
    t.allows address = true ↔
      before ++ after ≠ [] ∧ { t with allowlist := before ++ after }.allows address = true := by
  have given : t.allowlist ≠ [] := by simp [listed]
  have others (a : Address) : (∃ entry ∈ t.allowlist, ∃ r, AddressRange.Spells entry.toList r ∧ r.Holds a) ↔
      ∃ entry ∈ before ++ after, ∃ r, AddressRange.Spells entry.toList r ∧ r.Holds a := by
    have none : ¬ ∃ r, AddressRange.Spells entry.toList r ∧ r.Holds a :=
      fun ⟨r, spells, _⟩ => misspelt ⟨r, spells⟩
    simp only [listed, List.mem_append, List.mem_cons, or_and_right, exists_or, exists_eq_left, none, false_or]
  simp only [allows_iff_holds, given, false_or, others]
  by_cases left : before ++ after = []
  · simp [left]
  · simp [left]

/-! ### Issue -/

theorem checkAllowlist_eq_ok_iff : checkAllowlist entries = .ok () ↔ ∀ entry ∈ entries, SpellsRange entry := by
  induction entries with
  | nil => exact iff_of_true rfl nofun
  | cons entry rest ih =>
      unfold checkAllowlist
      rw [List.forall_mem_cons, ← isSome_ofText?_iff]
      cases AddressRange.ofText? entry <;> simp [ih]

/-- The error of an allowlist is about its first entry that spells no range. -/
theorem misspelt_of_checkAllowlist (failed : checkAllowlist entries = .error e) :
    ∃ before entry after, entries = before ++ entry :: after ∧ (∀ entry ∈ before, SpellsRange entry) ∧
      ¬ SpellsRange entry ∧ e = .malformedRange entry := by
  induction entries with
  | nil => cases failed
  | cons entry rest ih =>
      unfold checkAllowlist at failed
      split at failed
      · rename_i r read
        have spells : SpellsRange entry := isSome_ofText?_iff.mp (by rw [read]; rfl)
        obtain ⟨before, entry', after, rfl, spelt, misspelt⟩ := ih failed
        exact ⟨entry :: before, entry', after, rfl, List.forall_mem_cons.mpr ⟨spells, spelt⟩, misspelt⟩
      · rename_i unread
        cases failed
        refine ⟨[], entry, rest, rfl, nofun, fun spells => ?_, rfl⟩
        have read := isSome_ofText?_iff.mpr spells
        rw [unread] at read
        cases read

/-- With names of scopes the entries decide whether a token is issued. -/
theorem issue_eq_error_iff (known : ∀ scope ∈ order.scopes, scope ∈ TokenScope.knownNames) :
    issue order id secret now = .error e ↔ checkAllowlist order.allowlist = .error e := by
  obtain ⟨scopes, normalized⟩ : ∃ scopes, Scopes.normalize order.scopes = .ok scopes :=
    ⟨_, Scopes.normalize_eq_ok_iff.mpr ⟨known, rfl⟩⟩
  unfold issue
  rw [normalized]
  cases checkAllowlist order.allowlist with
  | ok => exact iff_of_false nofun nofun
  | error e' => simp [Bind.bind, Except.bind]

/-- An issued token has the entries that were ordered, and they spell ranges. -/
theorem spellsRange_of_issue (issued : issue order id secret now = .ok token) :
    token.allowlist = order.allowlist ∧ ∀ entry ∈ token.allowlist, SpellsRange entry := by
  obtain ⟨_, _, issued⟩ := Outcome.bind_eq_ok.mp issued
  obtain ⟨_, checked, issued⟩ := Outcome.bind_eq_ok.mp issued
  cases issued
  exact ⟨rfl, checkAllowlist_eq_ok_iff.mp checked⟩

/-- **A token may be used from where its allowlist says.** It may be used from everywhere if the list is
empty, and otherwise from the known addresses that a range of the list holds: those of the family of the
range that begin with its bits. An entry that spells no range lets nobody in, and does not make the list
count as empty: without it the token may be used from the same addresses, if other entries are left, and
with it alone from none. A token that is ordered with names of scopes is issued unless an entry spells no
range; the error is about the first such entry. So every entry of an issued token spells a range, of one
address at least, and lets in what the range holds. -/
theorem allowlist_exact :
    (∀ (t : Token) (address : Option Address), t.allows address = true ↔
      t.allowlist = [] ∨ ∃ a, address = some a ∧
        ∃ entry ∈ t.allowlist, ∃ r, AddressRange.Spells entry.toList r ∧ r.Holds a) ∧
    (∀ (t : Token) (before after : List String) (entry : String), t.allowlist = before ++ entry :: after →
      ¬ SpellsRange entry → ∀ address, t.allows address = true ↔
        before ++ after ≠ [] ∧ { t with allowlist := before ++ after }.allows address = true) ∧
    (∀ (order : Order) id secret now, (∀ scope ∈ order.scopes, scope ∈ ["full", "self", "sys"]) →
      ((∃ e, issue order id secret now = .error e) ↔ ∃ entry ∈ order.allowlist, ¬ SpellsRange entry) ∧
        ∀ e, issue order id secret now = .error e → e.kind = .badRequest ∧
          ∃ before entry after, order.allowlist = before ++ entry :: after ∧
            (∀ entry ∈ before, SpellsRange entry) ∧ ¬ SpellsRange entry ∧ e = .malformedRange entry) ∧
    ∀ (order : Order) id secret now token, issue order id secret now = .ok token →
      token.allowlist = order.allowlist ∧ ∀ entry ∈ token.allowlist, ∃ r, AddressRange.Spells entry.toList r ∧
        r.Holds r.base ∧ ∀ a, r.Holds a → token.allows (some a) = true := by
  refine ⟨fun t address => allows_iff_holds, fun t before after entry listed misspelt address => ?_,
    fun order id secret now known => ?_, fun order id secret now token issued => ?_⟩
  · exact allows_iff_of_misspelt listed misspelt
  · simp only [issue_eq_error_iff known]
    refine ⟨⟨?_, ?_⟩, ?_⟩
    · rintro ⟨e, refused⟩
      obtain ⟨before, entry, after, parts, -, misspelt, -⟩ := misspelt_of_checkAllowlist refused
      exact ⟨entry, parts ▸ List.mem_append_right _ (List.mem_cons_self ..), misspelt⟩
    · rintro ⟨entry, listed, misspelt⟩
      cases checked : checkAllowlist order.allowlist with
      | ok => exact absurd (checkAllowlist_eq_ok_iff.mp checked entry listed) misspelt
      | error e => exact ⟨e, rfl⟩
    · intro e refused
      obtain ⟨before, entry, after, parts, spelt, misspelt, rfl⟩ := misspelt_of_checkAllowlist refused
      exact ⟨rfl, before, entry, after, parts, spelt, misspelt, rfl⟩
  · obtain ⟨same, each⟩ := spellsRange_of_issue issued
    refine ⟨same, fun entry listed => ?_⟩
    obtain ⟨r, spells⟩ := each entry listed
    refine ⟨r, spells, r.holds_base, fun a holds => ?_⟩
    exact allows_iff_holds.mpr (Or.inr ⟨a, rfl, entry, listed, r, spells, holds⟩)

/-- A token is ordered for a network, of which the bits behind the length do not matter, and is issued and
used from there. With a length that is too large none is issued, and one that had it would be used from
nowhere. -/
theorem network_lets_in :
    let order : Order :=
      { owner := 7, name := "deploy", scopes := ["sys"], expiresAt := none, allowlist := ["10.9.9.9/8"] }
    let wrong : Order := { order with allowlist := ["10.9.9.9/33"] }
    (∃ token, issue order "t" "secret" default = .ok token ∧ token.allows (some (.v4 0x0a010203#32)) = true ∧
      token.allows none = false ∧
      { token with allowlist := ["10.9.9.9/33"] }.allows (some (.v4 0x0a010203#32)) = false) ∧
    ∃ e, issue wrong "t" "secret" default = .error e ∧ e.kind = .badRequest := by
  intro order wrong
  obtain ⟨allows, without, issues, effect⟩ := allowlist_exact
  have misspelt : ¬ SpellsRange "10.9.9.9/33" := by decide
  obtain ⟨token, issued⟩ : ∃ token, issue order "t" "secret" default = .ok token := ⟨_, rfl⟩
  obtain ⟨same, each⟩ := effect order _ _ _ _ issued
  refine ⟨⟨token, issued, ?_, ?_, ?_⟩, ?_⟩
  · have spells : AddressRange.Spells "10.9.9.9/8".toList ⟨.v4 0x0a090909#32, 8⟩ :=
      AddressRange.ofText?_eq_some_iff.mp (by decide)
    refine (allows token _).mpr (Or.inr ⟨_, rfl, "10.9.9.9/8", ?_, _, spells, .v4 (by decide)⟩)
    rw [same]
    exact List.mem_singleton_self _
  · rw [Bool.eq_false_iff, ne_eq, allows, same]
    rintro (⟨⟨⟩⟩ | ⟨_, ⟨⟩, _⟩)
  · rw [Bool.eq_false_iff, ne_eq, without _ [] [] "10.9.9.9/33" rfl misspelt]
    exact fun left => left.1 rfl
  · obtain ⟨fails, failed⟩ := issues wrong "t" "secret" default (by decide)
    obtain ⟨e, refused⟩ := fails.mpr ⟨_, List.mem_singleton_self _, misspelt⟩
    exact ⟨e, refused, (failed e refused).1⟩

end Gatehouse.Token
