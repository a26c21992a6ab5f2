import Gatehouse.Credential
import Gatehouse.Proofs.Table
import Gatehouse.Proofs.Text.Blank
import Gatehouse.Proofs.Text.Decimal
import Gatehouse.Proofs.Text.Split

/-!
Which sessions a list of entries opens.

An entry that is not `Malformed` binds a token to a user, and a malformed one binds nothing (`entry?_eq_none_iff`).
The sessions of a text are its bindings one after the other, so that of a token the last one counts
(`verify_ofText`), and a text behind another goes before it. The main statement is `ofText_exact`.
-/

namespace Gatehouse

open Text

namespace Sessions

variable {text left right token : String} {user : UserId} {pairs later : List (String × UserId)}

/-! ### Entries -/

/-- An entry binds no token: it has no equals sign, nothing in front of the first one, or something behind it
that is no number of a user. -/
inductive Malformed : String → Prop where
  | noSign {text : String} (whole : '=' ∉ text.toList) : Malformed text
  | noToken {left right : String} (blank : Blanks left) : Malformed (left ++ "=" ++ right)
  | noUser {left right : String} (first : '=' ∉ left.toList) (none : ∀ user, ¬ IsUInt64 (trim right) user) :
      Malformed (left ++ "=" ++ right)

/-- An entry is cut at its first equals sign. -/
theorem entry?_of_sign (first : '=' ∉ left.toList) : entry? (left ++ "=" ++ right) =
    if trim left = "" then none else (uint64? (trim right)).map fun user => (trim left, user) := by
  have cut : splitFirst '=' (left ++ "=" ++ right) = some (left, right) :=
    splitFirst_eq_some_iff.mpr ⟨rfl, first⟩
  unfold entry?
  rw [cut]
  cases read : uint64? (trim right) <;> simp [read]

theorem entry?_of_no_sign (whole : '=' ∉ text.toList) : entry? text = none := by
  unfold entry?
  rw [splitFirst_eq_none_iff.mpr whole]
  rfl

/-- The entries that bind nothing are the malformed ones. -/
theorem entry?_eq_none_iff : entry? text = none ↔ Malformed text := by
  constructor
  · intro unbound
    obtain whole | ⟨left, right, first, rfl⟩ := notMem_or_eq_append '=' text
    · exact .noSign whole
    have unbound : entry? (left ++ "=" ++ right) = none := unbound
    rw [entry?_of_sign first] at unbound
    split at unbound
    · rename_i empty
      exact .noToken (trim_eq_empty_iff.mp empty)
    · refine .noUser first fun user number => ?_
      rw [uint64?_eq_some_iff.mpr number] at unbound
      cases unbound
  · intro malformed
    cases malformed with
    | noSign whole => exact entry?_of_no_sign whole
    | noToken blank =>
        have first : ∀ left, Blanks left → '=' ∉ left.toList := fun left blank mem =>
          absurd (blank '=' mem) (by decide)
        rw [entry?_of_sign (first _ blank), if_pos (trim_eq_empty_iff.mpr blank)]
    | @noUser left right first none =>
        have unread : uint64? (trim right) = Option.none :=
          Option.eq_none_iff_forall_ne_some.mpr fun user read => none user (uint64?_eq_some_iff.mp read)
        rw [entry?_of_sign first, unread, Option.map_none, ite_self]

instance : Decidable (Malformed text) := decidable_of_iff _ entry?_eq_none_iff

/-- The number of a user stands without blanks. -/
theorem tight_toString (user : UserId) : Tight (toString user) :=
  tight_of_isAlphanum (toString_ne_empty user) fun c mem =>
    isAlphanum_iff.mpr (Or.inr (Or.inr (isDigit_iff.mp (isDigits_toString user c mem))))

/-- An entry that is written binds its token. -/
theorem entry?_written (tight : Tight token) (whole : '=' ∉ token.toList) (user : UserId) :
    entry? (token ++ "=" ++ toString user) = some (token, user) := by
  rw [entry?_of_sign whole, trim_of_tight tight, if_neg tight.given, trim_of_tight (tight_toString user),
    uint64?_eq_some_iff.mpr (isUInt64_toString user), Option.map_some]

/-! ### Bindings -/

/-- The tokens that a text binds, each with its user, in order. -/
def bindings (text : String) : List (String × UserId) := (split ',' text).filterMap entry?

/-- The user of the last binding of a token. -/
def last? (token : String) (pairs : List (String × UserId)) : Option UserId :=
  (pairs.filter (·.1 = token)).getLast?.map Prod.snd

theorem last?_append : last? token (pairs ++ later) = (last? token later).or (last? token pairs) := by
  simp only [last?, List.filter_append, List.getLast?_append, Option.map_or]

/-- The sessions of a text are the table of its bindings. -/
theorem byToken_ofText (text : String) : (ofText text).byToken = Table.ofList (bindings text) := by
  have added : ∀ (pairs : List (String × UserId)) (s : Sessions),
      (pairs.foldl (fun s pair => s.add pair.1 pair.2) s).byToken =
        pairs.foldl (fun t pair => t.insert pair.1 pair.2) s.byToken := by
    intro pairs
    induction pairs with
    | nil => exact fun s => rfl
    | cons first rest ih => exact fun s => ih _
  exact added _ empty

theorem find?_ofList (pairs : List (String × UserId)) (token : String) :
    (Table.ofList pairs).find? token = last? token pairs := by
  rw [Table.find?_ofList, Table.lookup_eq_head?, List.filter_reverse, List.head?_reverse, last?]

/-- The last binding of a token counts. -/
theorem verify_ofText (text token : String) : (ofText text).verify token =
    match last? token (bindings text) with
    | some user => .ok user
    | none => .error (.credential .unknownSession) := by
  have found : (ofText text).byToken.find? token = last? token (bindings text) := by
    rw [byToken_ofText, find?_ofList]
  cases last : last? token (bindings text) <;> simp [verify, found, last]

/-- A text behind another adds its bindings to those of the other. -/
theorem bindings_append (a b : String) : bindings (a ++ "," ++ b) = bindings a ++ bindings b := by
  have parts : split ',' (a ++ "," ++ b) = split ',' a ++ split ',' b := split_append_split a b
  simp only [bindings, parts, List.filterMap_append]

/-! ### Lists of entries -/

/-- An entry of a list: a token with its user, or something that binds nothing. -/
inductive Entry where
  | pair (token : String) (user : UserId)
  | malformed (text : String)
  deriving Repr, DecidableEq

namespace Entry

/-- The text of an entry. -/
def written : Entry → String
  | .pair token user => token ++ "=" ++ toString user
  | .malformed text => text

/-- The token of an entry and its user. -/
def pair? : Entry → Option (String × UserId)
  | .pair token user => some (token, user)
  | .malformed _ => none

/-- An entry can stand in a list. It has no comma; a token is not empty, has no equals sign and no blanks at its
ends; and an entry that is to bind nothing is malformed. -/
def Fits : Entry → Prop
  | .pair token _ => Tight token ∧ ',' ∉ token.toList ∧ '=' ∉ token.toList
  | .malformed text => ',' ∉ text.toList ∧ Malformed text

instance : (entry : Entry) → Decidable entry.Fits
  | .pair token _ => inferInstanceAs (Decidable (Tight token ∧ ',' ∉ token.toList ∧ '=' ∉ token.toList))
  | .malformed text => inferInstanceAs (Decidable (',' ∉ text.toList ∧ Malformed text))

variable {entry : Entry}

theorem Fits.binds (fits : entry.Fits) : entry? entry.written = entry.pair? := by
  cases entry with
  | pair token user => exact entry?_written fits.1 fits.2.2 user
  | malformed text => exact entry?_eq_none_iff.mpr fits.2

theorem Fits.notMem (fits : entry.Fits) : ',' ∉ entry.written.toList := by
  cases entry with
  | pair token user =>
      have digits : ',' ∉ (toString user).toList := (isDigits_toString user).notMem (by decide)
      simp [written, fits.2.1, digits]
  | malformed text => exact fits.1

end Entry

/-- The bindings of a list of entries are its pairs. -/
theorem bindings_join {entries : List Entry} (fit : ∀ entry ∈ entries, entry.Fits) :
    bindings (join ',' (entries.map Entry.written)) = entries.filterMap Entry.pair? := by
  by_cases none : entries = []
  · subst none
    decide
  have whole : ∀ part ∈ entries.map Entry.written, ',' ∉ part.toList := by
    intro part mem
    obtain ⟨entry, listed, rfl⟩ := List.mem_map.mp mem
    exact (fit entry listed).notMem
  rw [bindings, split_join (by simpa using none) whole, List.filterMap_map]
  exact List.filterMap_congr fun entry mem => (fit entry mem).binds

/-- **The sessions that a list of entries opens.** A text behind another has the say about the tokens that it
binds, and leaves the others to the text in front. In a list of entries, some of them malformed, each token is
that of its last entry, and there are no others. -/
theorem ofText_exact :
    (∀ a b token, (ofText (a ++ "," ++ b)).verify token =
      match (ofText b).verify token with
      | .ok user => .ok user
      | .error _ => (ofText a).verify token) ∧
    ∀ entries : List Entry, (∀ entry ∈ entries, entry.Fits) → ∀ token,
      (ofText (join ',' (entries.map Entry.written))).verify token =
        match ((entries.filterMap Entry.pair?).filter (·.1 = token)).getLast? with
        | some (_, user) => .ok user
        | none => .error (.credential .unknownSession) := by
  refine ⟨fun a b token => ?append, fun entries fit token => ?entries⟩
  case append =>
    rw [verify_ofText, verify_ofText, verify_ofText, bindings_append, last?_append]
    cases last? token (bindings b) <;> rfl
  case entries =>
    rw [verify_ofText, bindings_join fit, last?]
    cases ((entries.filterMap Entry.pair?).filter (·.1 = token)).getLast? <;> rfl

/-- Two tokens, one of them bound twice, among entries that look alike and bind nothing. -/
def mixedEntries : List Entry :=
  [.pair "dev" 11, .malformed " ", .malformed "dev", .malformed " =7", .pair "ops" 12,
    .malformed "ops=1=2", .pair "dev" 13, .malformed "dev=18446744073709551616"]

theorem mixedEntries_exact :
    (∀ entry ∈ mixedEntries, entry.Fits) ∧
    (ofText (join ',' (mixedEntries.map Entry.written))).verify "dev" = .ok 13 ∧
    (ofText (join ',' (mixedEntries.map Entry.written))).verify "ops" = .ok 12 ∧
    (ofText (join ',' (mixedEntries.map Entry.written))).verify "" = .error (.credential .unknownSession) := by
  have fit : ∀ entry ∈ mixedEntries, entry.Fits := by decide
  have verified := ofText_exact.2 mixedEntries fit
  exact ⟨fit, (verified "dev").trans rfl, (verified "ops").trans rfl, (verified "").trans rfl⟩

end Sessions

end Gatehouse
