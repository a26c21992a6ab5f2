import Gatehouse.Json.Record
import Gatehouse.Proofs.Json.Number
import Mathlib.Data.List.Basic

/-!
Compact text is read back as the value it was written from.

The two halves of reading are taken one after the other. `lexemesFrom_onto` says that the machine
cuts the text of a value into the lexemes that one expects (`lexemesOnto`), whatever follows the
text, unless it would go on with a number, and `foldl_lexemesOnto` that these lexemes supply the
value, whatever has been opened before it. Together they give `document_compact`.
-/

namespace Gatehouse.Json

/-! ### The lexemes of a value -/

mutual

/-- The value is made of names, numbers of 64 bits, strings, arrays and objects alone. -/
def IsPlain : Json → Prop
  | .null | .bool _ | .string _ => True
  | .natural n => n < UInt64.size
  | .array items => ItemsPlain items
  | .object members => MembersPlain members
  | .numeral _ | .unreadable | .misnamed | .broken => False

/-- All items are plain. -/
def ItemsPlain : List Json → Prop
  | [] => True
  | item :: items => IsPlain item ∧ ItemsPlain items

/-- The values of all members are plain. -/
def MembersPlain : List (String × Json) → Prop
  | [] => True
  | (_, value) :: members => IsPlain value ∧ MembersPlain members

end

mutual

/-- The lexemes of a plain value in front of `rest`. -/
def lexemesOnto : Json → List Lexeme → List Lexeme
  | .bool b, rest => .bool b :: rest
  | .natural n, rest => .natural n :: rest
  | .string s, rest => .string s :: rest
  | .array [], rest => .openArray :: .closeArray :: rest
  | .array (item :: items), rest =>
    .openArray :: lexemesOnto item (itemLexemesOnto items (.closeArray :: rest))
  | .object [], rest => .openObject :: .closeObject :: rest
  | .object ((name, value) :: members), rest =>
    .openObject :: .string name :: .colon ::
      lexemesOnto value (memberLexemesOnto members (.closeObject :: rest))
  | _, rest => .null :: rest

/-- Further items of an array, each after a comma. -/
def itemLexemesOnto : List Json → List Lexeme → List Lexeme
  | [], rest => rest
  | item :: items, rest => .comma :: lexemesOnto item (itemLexemesOnto items rest)

/-- Further members of an object, each after a comma. -/
def memberLexemesOnto : List (String × Json) → List Lexeme → List Lexeme
  | [], rest => rest
  | (name, value) :: members, rest =>
    .comma :: .string name :: .colon :: lexemesOnto value (memberLexemesOnto members rest)

end

/-! ### Strings -/

/-- A string with these characters so far, the last one first, and no surrogate among them. -/
def OpenString.ofChars (chars : List Char) : OpenString := ⟨chars, none, true⟩

@[simp] theorem OpenString.push_ofChars (chars : List Char) (c : Char) :
    (OpenString.ofChars chars).push c = .ofChars (c :: chars) := rfl

theorem OpenString.pushUnit_ofChars {chars : List Char} {code : Nat} (small : code < 0x20) :
    (OpenString.ofChars chars).pushUnit code = .ofChars (Char.ofNat code :: chars) := by
  have notHigh : isHigh code = false := by
    simp only [isHigh, Bool.and_eq_false_iff, decide_eq_false_iff_not]
    omega
  have notLow : isLow code = false := by
    simp only [isLow, Bool.and_eq_false_iff, decide_eq_false_iff_not]
    omega
  simp [OpenString.pushUnit, OpenString.ofChars, notHigh, notLow]
  rfl

@[simp] theorem OpenString.lexeme_ofChars (chars : List Char) :
    (OpenString.ofChars chars).lexeme = .string (String.ofList chars.reverse) := rfl

theorem lexemesFrom_cons {state next : LexState} {c : Char} {text : List Char}
    (quiet : step state c = ([], next)) :
    lexemesFrom state (c :: text) = lexemesFrom next text := by
  rw [lexemesFrom, quiet]
  rfl

/-- The two hexadecimal digits of a control character are read as its code. -/
theorem lexemesFrom_hexByte {s : OpenString} {n : Nat} (small : n < 256) (text : List Char) :
    lexemesFrom (.unicode s 2 0) (Text.hexByte (UInt8.ofNat n) ++ text) =
      lexemesFrom (.text (s.pushUnit n)) text := by
  have byte : (UInt8.ofNat n).toNat = n := by simp; omega
  rw [Text.hexByte, byte]
  have high : step (.unicode s 2 0) (Text.hexChar (Text.lastHexDigit (n / 16))) =
      ([], .unicode s 1 (n / 16)) := by
    simp [step, Text.hexDigit?_hexChar, Text.lastHexDigit]
    omega
  have low : step (.unicode s 1 (n / 16)) (Text.hexChar (Text.lastHexDigit n)) =
      ([], .text (s.pushUnit n)) := by
    have : 16 * (n / 16) + n % 16 = n := Nat.div_add_mod n 16
    simp [step, Text.hexDigit?_hexChar, Text.lastHexDigit, this]
  exact (lexemesFrom_cons high).trans (lexemesFrom_cons low)

/-- A character of a string is read back, escaped or not. -/
theorem lexemesFrom_escaped (c : Char) (chars text : List Char) :
    lexemesFrom (.text (.ofChars chars)) (escaped c ++ text) =
      lexemesFrom (.text (.ofChars (c :: chars))) text := by
  unfold escaped
  split
  · subst c; rfl
  split
  · subst c; rfl
  split
  · subst c; rfl
  split
  · subst c; rfl
  split
  · subst c; rfl
  split
  · subst c; rfl
  split
  · subst c; rfl
  split
  · rename_i control
    have code : (OpenString.ofChars chars).pushUnit c.toNat = .ofChars (c :: chars) := by
      rw [OpenString.pushUnit_ofChars control, Char.ofNat_toNat]
    rw [← code]
    exact lexemesFrom_hexByte (by omega) text
  · rename_i notQuote notBackslash _ _ _ _ _ plain
    exact lexemesFrom_cons (by simp [step, notQuote, notBackslash, plain])

theorem lexemesFrom_text (s chars rest : List Char) :
    lexemesFrom (.text (.ofChars chars))
        (s.foldr (fun c text => escaped c ++ text) ('"' :: rest)) =
      .string (String.ofList (chars.reverse ++ s)) :: lexemesFrom .between rest := by
  induction s generalizing chars with
  | nil => simp [lexemesFrom, step]
  | cons c s ih =>
      rw [List.foldr_cons, lexemesFrom_escaped, ih]
      simp

theorem lexemesFrom_quoted (s : String) (rest : List Char) :
    lexemesFrom .between (quoted s rest) = .string s :: lexemesFrom .between rest := by
  have opened := lexemesFrom_text s.toList [] rest
  rw [List.reverse_nil, List.nil_append, String.ofList_toList] at opened
  exact opened

/-! ### The text of a value, cut into lexemes -/

theorem endsNumber_itemsOnto {rest : List Char} (ends : EndsNumber rest) :
    ∀ items, EndsNumber (itemsOnto items rest)
  | [] => ends
  | _ :: _ => endsNumber_cons (Or.inl rfl)

theorem endsNumber_membersOnto {rest : List Char} (ends : EndsNumber rest) :
    ∀ members, EndsNumber (membersOnto members rest)
  | [] => ends
  | _ :: _ => endsNumber_cons (Or.inl rfl)

mutual

/-- The machine finds the lexemes of a plain value, whatever follows its text. -/
theorem lexemesFrom_onto (j : Json) (plain : IsPlain j) {rest : List Char} (ends : EndsNumber rest) :
    lexemesFrom .between (j.onto rest) = lexemesOnto j (lexemesFrom .between rest) := by
  match j, plain with
  | .null, _ => rfl
  | .bool true, _ => rfl
  | .bool false, _ => rfl
  | .natural n, small => exact lexemesFrom_toDigits small ends
  | .string s, _ => exact lexemesFrom_quoted s rest
  | .array [], _ => rfl
  | .array (item :: items), ⟨first, later⟩ =>
      have closes : EndsNumber (']' :: rest) := endsNumber_cons (Or.inr (Or.inl rfl))
      have inner := lexemesFrom_onto item first (endsNumber_itemsOnto closes items)
      rw [lexemesFrom_itemsOnto items later closes] at inner
      exact congrArg (Lexeme.openArray :: ·) inner
  | .object [], _ => rfl
  | .object ((name, value) :: members), ⟨first, later⟩ =>
      have closes : EndsNumber ('}' :: rest) := endsNumber_cons (Or.inr (Or.inr rfl))
      have inner := lexemesFrom_onto value first (endsNumber_membersOnto closes members)
      rw [lexemesFrom_membersOnto members later closes] at inner
      have named := lexemesFrom_quoted name
        (':' :: value.onto (membersOnto members ('}' :: rest)))
      exact congrArg (Lexeme.openObject :: ·)
        (named.trans (congrArg (fun ts => Lexeme.string name :: Lexeme.colon :: ts) inner))

theorem lexemesFrom_itemsOnto (items : List Json) (plain : ItemsPlain items) {rest : List Char}
    (ends : EndsNumber rest) :
    lexemesFrom .between (itemsOnto items rest) =
      itemLexemesOnto items (lexemesFrom .between rest) := by
  match items, plain with
  | [], _ => rfl
  | item :: items, ⟨first, later⟩ =>
      have inner := lexemesFrom_onto item first (endsNumber_itemsOnto ends items)
      rw [lexemesFrom_itemsOnto items later ends] at inner
      exact congrArg (Lexeme.comma :: ·) inner

theorem lexemesFrom_membersOnto (members : List (String × Json)) (plain : MembersPlain members)
    {rest : List Char} (ends : EndsNumber rest) :
    lexemesFrom .between (membersOnto members rest) =
      memberLexemesOnto members (lexemesFrom .between rest) := by
  match members, plain with
  | [], _ => rfl
  | (name, value) :: members, ⟨first, later⟩ =>
      have inner := lexemesFrom_onto value first (endsNumber_membersOnto ends members)
      rw [lexemesFrom_membersOnto members later ends] at inner
      have named := lexemesFrom_quoted name (':' :: value.onto (membersOnto members rest))
      exact congrArg (Lexeme.comma :: ·)
        (named.trans (congrArg (fun ts => Lexeme.string name :: Lexeme.colon :: ts) inner))

end

/-! ### The lexemes of a value, read -/

/-- Where an array may also be closed, a value is read as anywhere else. -/
theorem foldl_itemOrClose (j : Json) (stack : List Frame) (rest : List Lexeme) :
    (lexemesOnto j rest).foldl Progress.next (.open stack .itemOrClose) =
      (lexemesOnto j rest).foldl Progress.next (.open stack .value) := by
  unfold lexemesOnto
  split <;> rfl

mutual

/-- The lexemes of a plain value supply it, whatever has been opened before. -/
theorem foldl_lexemesOnto (j : Json) (plain : IsPlain j) (stack : List Frame)
    (rest : List Lexeme) :
    (lexemesOnto j rest).foldl Progress.next (.open stack .value) =
      rest.foldl Progress.next (supply stack j) := by
  match j, plain with
  | .null, _ => rfl
  | .bool _, _ => rfl
  | .natural _, _ => rfl
  | .string _, _ => rfl
  | .array [], _ => rfl
  | .array (item :: items), ⟨first, later⟩ =>
      calc (lexemesOnto item (itemLexemesOnto items (.closeArray :: rest))).foldl Progress.next
            (.open (.array [] :: stack) .itemOrClose)
          = (itemLexemesOnto items (.closeArray :: rest)).foldl Progress.next
            (.open (.array [item] :: stack) .commaOrClose) := by
            rw [foldl_itemOrClose, foldl_lexemesOnto item first]
            rfl
        _ = rest.foldl Progress.next (supply stack (.array (item :: items))) :=
            foldl_itemLexemesOnto items later [item] stack rest
  | .object [], _ => rfl
  | .object ((name, value) :: members), ⟨first, later⟩ =>
      calc (lexemesOnto value (memberLexemesOnto members (.closeObject :: rest))).foldl
            Progress.next (.open (.member [] (some name) :: stack) .value)
          = (memberLexemesOnto members (.closeObject :: rest)).foldl Progress.next
            (.open (.object [(name, value)] :: stack) .commaOrClose) := by
            rw [foldl_lexemesOnto value first]
            rfl
        _ = rest.foldl Progress.next (supply stack (.object ((name, value) :: members))) :=
            foldl_memberLexemesOnto members later [(name, value)] stack rest

theorem foldl_itemLexemesOnto (items : List Json) (plain : ItemsPlain items) (before : List Json)
    (stack : List Frame) (rest : List Lexeme) :
    (itemLexemesOnto items (.closeArray :: rest)).foldl Progress.next
        (.open (.array before :: stack) .commaOrClose) =
      rest.foldl Progress.next (supply stack (.array (before.reverse ++ items))) := by
  match items, plain with
  | [], _ => rw [List.append_nil]; rfl
  | item :: items, ⟨first, later⟩ =>
      calc (lexemesOnto item (itemLexemesOnto items (.closeArray :: rest))).foldl Progress.next
            (.open (.array before :: stack) .value)
          = (itemLexemesOnto items (.closeArray :: rest)).foldl Progress.next
            (.open (.array (item :: before) :: stack) .commaOrClose) := by
            rw [foldl_lexemesOnto item first]
            rfl
        _ = rest.foldl Progress.next
            (supply stack (.array ((item :: before).reverse ++ items))) :=
            foldl_itemLexemesOnto items later (item :: before) stack rest
        _ = _ := by rw [List.reverse_cons, List.append_assoc]; rfl

theorem foldl_memberLexemesOnto (members : List (String × Json)) (plain : MembersPlain members)
    (before : List (String × Json)) (stack : List Frame) (rest : List Lexeme) :
    (memberLexemesOnto members (.closeObject :: rest)).foldl Progress.next
        (.open (.object before :: stack) .commaOrClose) =
      rest.foldl Progress.next (supply stack (.object (before.reverse ++ members))) := by
  match members, plain with
  | [], _ => rw [List.append_nil]; rfl
  | (name, value) :: members, ⟨first, later⟩ =>
      calc (lexemesOnto value (memberLexemesOnto members (.closeObject :: rest))).foldl
            Progress.next (.open (.member before (some name) :: stack) .value)
          = (memberLexemesOnto members (.closeObject :: rest)).foldl Progress.next
            (.open (.object ((name, value) :: before) :: stack) .commaOrClose) := by
            rw [foldl_lexemesOnto value first]
            rfl
        _ = rest.foldl Progress.next
            (supply stack (.object (((name, value) :: before).reverse ++ members))) :=
            foldl_memberLexemesOnto members later ((name, value) :: before) stack rest
        _ = _ := by rw [List.reverse_cons, List.append_assoc]; rfl

end

/-! ### The round trip -/

/-- The compact text of a plain value is read as this value, and nothing follows it. -/
theorem document_compact {j : Json} (plain : IsPlain j) : document j.compact = (j, false) := by
  have cut : lexemesFrom .between (j.onto []) = lexemesOnto j [] := lexemesFrom_onto j plain trivial
  rw [document, compact, String.toList_ofList, ofLexemes, cut, foldl_lexemesOnto j plain]
  rfl

/-- A reader reads from the compact text of a plain value what it reads from the value. -/
theorem decode?_compact {α : Type} (read : Reader α) {j : Json} (plain : IsPlain j) :
    decode? read j.compact = (read j).toOption := by
  rw [decode?, document_compact plain]

/-- What a reader reads from a plain value it reads from the text of this value. -/
theorem decode?_eq_some {α : Type} {read : Reader α} {j : Json} {a : α} (plain : IsPlain j)
    (back : read j = .ok a) : decode? read j.compact = some a := by
  rw [decode?_compact read plain, back]
  rfl

theorem isPlain_natural (n : UInt64) : IsPlain (.natural n.toNat) := n.toNat_lt

theorem membersPlain_append {xs ys : List (String × Json)} (first : MembersPlain xs)
    (last : MembersPlain ys) : MembersPlain (xs ++ ys) := by
  induction xs with
  | nil => exact last
  | cons x xs ih => exact ⟨first.1, ih first.2⟩

/-- An array is plain if what its items are made from gives plain values. -/
theorem itemsPlain_map {α : Type} {encode : α → Json} (plain : ∀ a, IsPlain (encode a)) :
    ∀ as : List α, ItemsPlain (as.map encode)
  | [] => trivial
  | a :: as => ⟨plain a, itemsPlain_map plain as⟩

end Gatehouse.Json
