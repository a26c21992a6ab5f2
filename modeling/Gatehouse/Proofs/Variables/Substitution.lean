import Gatehouse.Proofs.Table
import Gatehouse.Proofs.Text.Decimal
import Gatehouse.Proofs.Text.Letter
import Gatehouse.Proofs.Text.Replace
import Gatehouse.Variables

/-!
Resolving a template is one pass over it.

Names are replaced one after another, the longest first, each in the whole of what the ones before
it left. Where names are letters after an `@` and values are digits (`Plain`), this is one pass from
left to right that puts the value of the longest name in the place of each name (`Substituted`). Two
facts carry the proof: a pass copies letters, so that a name is still whole when its turn comes
(`Substituted.of_append`), and digits end a row of letters, so that no name comes about where there
was none (`Substituted.begins_of_begins`). The main statement is `resolve_simultaneous`.
-/

namespace Gatehouse.Variables

open Text

/-- A name that may be bound: ASCII letters after an `@`, one at least. -/
def IsName (name : String) : Prop :=
  ∃ letters ≠ [], (∀ c ∈ letters, c.isAlpha = true) ∧ name.toList = '@' :: letters

/-- A value to which a name may be bound: decimal digits, one at least. -/
def IsValue (value : String) : Prop := value ≠ "" ∧ IsDigits value

/-- Every name is bound once, and to digits. -/
structure Plain (bindings : List (String × String)) : Prop where
  once : (bindings.map Prod.fst).Nodup
  names : ∀ b ∈ bindings, IsName b.1
  values : ∀ b ∈ bindings, IsValue b.2

/-- One pass over a text: where names begin, the longest of them gives way to its value, and the pass
goes on behind it; every other character is copied. -/
inductive Substituted (bindings : List (String × String)) : List Char → List Char → Prop where
  | nil : Substituted bindings [] []
  | value {name value : String} {rest result : List Char} (bound : (name, value) ∈ bindings)
      (longest : ∀ b ∈ bindings, b.1.toList <+: name.toList ++ rest →
        b.1.toList.length ≤ name.toList.length)
      (later : Substituted bindings rest result) :
      Substituted bindings (name.toList ++ rest) (value.toList ++ result)
  | copy {c : Char} {rest result : List Char}
      (unbound : ∀ b ∈ bindings, ¬ b.1.toList <+: c :: rest)
      (later : Substituted bindings rest result) :
      Substituted bindings (c :: rest) (c :: result)

/-- Binds names one after another. -/
def ofList (bindings : List (String × String)) : Variables :=
  bindings.foldl (fun vars b => vars.bind b.1 b.2) empty

variable {bindings bindings' done : List (String × String)} {b : String × String}
  {name name' value value' : String} {text result result' rest letters cs : List Char} {c : Char}
  {vars : Variables}

/-! ### Names and values -/

theorem at_notMem_of_isAlpha (alpha : ∀ c ∈ letters, c.isAlpha = true) : '@' ∉ letters :=
  fun mem => absurd (alpha _ mem) (by decide)

theorem IsValue.at_notMem (digits : IsValue value) : '@' ∉ value.toList :=
  digits.2.notMem (by decide)

/-- Of two names that begin at one place, the one of fewer bytes has fewer characters. -/
theorem length_le_of_utf8ByteSize_le (begins : name.toList <+: text) (begins' : name'.toList <+: text)
    (smaller : name.utf8ByteSize ≤ name'.utf8ByteSize) :
    name.toList.length ≤ name'.toList.length := by
  rcases List.prefix_or_prefix_of_prefix begins begins' with first | ⟨tail, same⟩
  · exact first.length_le
  · obtain rfl : name' ++ String.ofList tail = name := by
      apply String.toList_inj.mp
      rw [String.toList_append, String.toList_ofList, same]
    have none_left : (String.ofList tail).utf8ByteSize = 0 := by
      rw [String.utf8ByteSize_append] at smaller
      omega
    rw [String.utf8ByteSize_eq_zero_iff.mp none_left, String.append_empty]

namespace Plain

/-- Names begin with an `@`. -/
theorem eq_at (plain : Plain bindings) (mem : b ∈ bindings) (begins : b.1.toList <+: c :: cs) :
    c = '@' := by
  obtain ⟨letters, _, _, same⟩ := plain.names b mem
  rw [same, List.cons_prefix_cons] at begins
  exact begins.1.symm

theorem ne_nil (plain : Plain bindings) (mem : b ∈ bindings) : b.1.toList ++ rest ≠ [] := by
  obtain ⟨letters, _, _, same⟩ := plain.names b mem
  simp [same]

theorem value_unique (plain : Plain bindings) (bound : (name, value) ∈ bindings)
    (bound' : (name, value') ∈ bindings) : value = value' := by
  have found := Table.lookup_of_mem plain.once bound
  rw [Table.lookup_of_mem plain.once bound'] at found
  exact (Option.some.inj found).symm

theorem sublist (plain : Plain bindings) (less : bindings'.Sublist bindings) : Plain bindings' where
  once := plain.once.sublist (less.map Prod.fst)
  names b mem := plain.names b (less.subset mem)
  values b mem := plain.values b (less.subset mem)

theorem perm (plain : Plain bindings) (order : bindings.Perm bindings') : Plain bindings' where
  once := (order.map Prod.fst).nodup_iff.mp plain.once
  names b mem := plain.names b (order.mem_iff.mpr mem)
  values b mem := plain.values b (order.mem_iff.mpr mem)

end Plain

/-! ### What a pass does to the beginning of a text -/

namespace Substituted

theorem congr (same : ∀ b, b ∈ bindings ↔ b ∈ bindings') (pass : Substituted bindings text result) :
    Substituted bindings' text result := by
  induction pass with
  | nil => exact .nil
  | value bound longest _ ih =>
      exact .value ((same _).mp bound) (fun b mem => longest b ((same b).mpr mem)) ih
  | copy unbound _ ih => exact .copy (fun b mem => unbound b ((same b).mpr mem)) ih

/-- Text without an `@` is copied. -/
theorem append (plain : Plain bindings) (absent : '@' ∉ cs) (pass : Substituted bindings rest result) :
    Substituted bindings (cs ++ rest) (cs ++ result) := by
  induction cs with
  | nil => exact pass
  | cons c cs ih =>
      obtain ⟨other, absent⟩ := not_or.mp (mt List.mem_cons.mpr absent)
      exact .copy (fun b mem begins => other (plain.eq_at mem begins).symm) (ih absent)

/-- Nothing else happens to text without an `@`. -/
theorem of_append (plain : Plain bindings) (absent : '@' ∉ cs)
    (pass : Substituted bindings (cs ++ rest) result) :
    ∃ result', result = cs ++ result' ∧ Substituted bindings rest result' := by
  induction cs generalizing result with
  | nil => exact ⟨result, rfl, pass⟩
  | cons c cs ih =>
      obtain ⟨other, absent⟩ := not_or.mp (mt List.mem_cons.mpr absent)
      generalize same : c :: cs ++ rest = text at pass
      cases pass with
      | nil => cases same
      | value bound => exact absurd (plain.eq_at bound ⟨_, same.symm⟩).symm other
      | copy _ later =>
          obtain ⟨rfl, rfl⟩ := List.cons.inj same
          obtain ⟨result', rfl, pass⟩ := ih absent later
          exact ⟨result', rfl, pass⟩

/-- Letters with which the result of a pass begins are those of the text. -/
theorem begins_of_begins (plain : Plain bindings) (pass : Substituted bindings text result)
    (alpha : ∀ c ∈ letters, c.isAlpha = true) (begins : letters <+: result) : letters <+: text := by
  induction pass generalizing letters with
  | nil => exact begins
  | @value name value rest result bound _ _ _ =>
      cases letters with
      | nil => exact List.nil_prefix
      | cons c letters =>
          -- A value begins with a digit, which is no letter.
          obtain ⟨given, digits⟩ := plain.values _ bound
          obtain ⟨d, ds, same⟩ := List.exists_cons_of_ne_nil (mt String.toList_eq_nil_iff.mp given)
          rw [same, List.cons_append, List.cons_prefix_cons] at begins
          have digit : d.isDigit = true := digits d (same ▸ List.mem_cons_self ..)
          have letter := alpha c (List.mem_cons_self ..)
          rw [begins.1, isAlpha_of_isDigit digit] at letter
          cases letter
  | copy _ _ ih =>
      cases letters with
      | nil => exact List.nil_prefix
      | cons c letters =>
          rw [List.cons_prefix_cons] at begins ⊢
          exact ⟨begins.1, ih (fun c mem => alpha c (List.mem_cons_of_mem _ mem)) begins.2⟩

/-- Where a name does not begin in the text, it does not begin in the result either. -/
theorem not_begins (plain : Plain bindings) (pass : Substituted bindings text result)
    (isName : IsName name) (other : ¬ name.toList <+: c :: text) :
    ¬ name.toList <+: c :: result := by
  obtain ⟨letters, _, alpha, same⟩ := isName
  rw [same, List.cons_prefix_cons] at other ⊢
  exact fun ⟨begins, further⟩ => other ⟨begins, pass.begins_of_begins plain alpha further⟩

/-! ### A pass has one result -/

theorem unique (plain : Plain bindings) (pass : Substituted bindings text result)
    (pass' : Substituted bindings text result') : result = result' := by
  induction pass generalizing result' with
  | nil =>
      generalize same : [] = text at pass'
      cases pass' with
      | nil => rfl
      | value bound => exact absurd same.symm (plain.ne_nil bound)
      | copy => cases same
  | @value name value rest result bound longest _ ih =>
      generalize same : name.toList ++ rest = text at pass'
      cases pass' with
      | nil => exact absurd same (plain.ne_nil bound)
      | @value name' value' rest' result' bound' longest' later' =>
          have begins : name.toList <+: name'.toList ++ rest' := ⟨rest, same⟩
          have begins' : name'.toList <+: name'.toList ++ rest' := List.prefix_append ..
          have short := longest' _ bound begins
          have short' := longest _ bound' (same ▸ begins')
          have letters := (List.prefix_of_prefix_length_le begins begins' short).eq_of_length_le short'
          obtain rfl := String.toList_inj.mp letters
          obtain rfl := List.append_cancel_left same
          rw [plain.value_unique bound bound', ih later']
      | copy unbound => exact absurd ⟨rest, same⟩ (unbound _ bound)
  | @copy c rest result unbound _ ih =>
      generalize same : c :: rest = text at pass'
      cases pass' with
      | nil => cases same
      | value bound' => exact absurd ⟨_, same.symm⟩ (unbound _ bound')
      | copy _ later' =>
          obtain ⟨rfl, rfl⟩ := List.cons.inj same
          rw [ih later']

/-! ### One name more -/

/-- A pass, and then one more name, no longer than the others, replaced in its result: that is a pass
for all of them. -/
theorem replaceFrom (plain : Plain (b :: bindings))
    (shorter : ∀ b' ∈ bindings, b.1.utf8ByteSize ≤ b'.1.utf8ByteSize)
    (pass : Substituted bindings text result) :
    Substituted (b :: bindings) text (replaceFrom b.1.toList b.2.toList 0 result) := by
  have before : Plain bindings := plain.sublist (List.sublist_cons_self ..)
  have isName := plain.names b (List.mem_cons_self ..)
  obtain ⟨letters, _, alpha, name⟩ := isName
  have whole := at_notMem_of_isAlpha alpha
  induction pass with
  | nil => exact .nil
  | @value name' value' rest result bound longest _ ih =>
      have kept : Text.replaceFrom b.1.toList b.2.toList 0 (value'.toList ++ result) =
          value'.toList ++ Text.replaceFrom b.1.toList b.2.toList 0 result := by
        rw [name]
        exact replaceFrom_append_of_notMem (before.values _ bound).at_notMem
      rw [kept]
      refine .value (List.mem_cons_of_mem _ bound)
        (List.forall_mem_cons.mpr ⟨fun begins => ?_, longest⟩) ih
      exact length_le_of_utf8ByteSize_le begins (List.prefix_append ..) (shorter _ bound)
  | @copy c rest result unbound pass ih =>
      by_cases begins : b.1.toList <+: c :: rest
      · -- The letters of the name were copied, so that it is found as a whole.
        obtain ⟨rest', same⟩ := begins
        obtain ⟨rfl, rfl⟩ : '@' = c ∧ letters ++ rest' = rest := by simpa [name] using same
        obtain ⟨result', rfl, _⟩ := pass.of_append before whole
        obtain ⟨_, resumed, later⟩ := ih.of_append plain whole
        rw [name, replaceFrom_append_of_notMem whole] at resumed
        obtain rfl := List.append_cancel_left resumed
        have replaced : Text.replaceFrom b.1.toList b.2.toList 0 ('@' :: (letters ++ result')) =
            b.2.toList ++ Text.replaceFrom b.1.toList b.2.toList 0 result' := by
          rw [name]
          exact replaceFrom_append '@' letters result'
        rw [replaced, ← same]
        refine .value (List.mem_cons_self ..) (List.forall_mem_cons.mpr ⟨fun _ => le_rfl, ?_⟩)
          (by rwa [name])
        intro b' mem begins
        exact absurd (same ▸ begins) (unbound b' mem)
      · have isName : IsName b.1 := plain.names b (List.mem_cons_self ..)
        rw [replaceFrom_cons (pass.not_begins before isName begins)]
        exact .copy (List.forall_mem_cons.mpr ⟨begins, unbound⟩) ih

/-! ### After a pass -/

/-- No name occurs in the result. -/
theorem nameless (plain : Plain bindings) (pass : Substituted bindings text result)
    (mem : b ∈ bindings) : ¬ b.1.toList <:+: result := by
  have isName := plain.names b mem
  induction pass with
  | nil =>
      intro occurs
      have empty : b.1.toList ++ [] = [] := by simpa using occurs
      exact plain.ne_nil mem empty
  | @value name value rest result bound _ _ ih =>
      have digits := (plain.values _ bound).at_notMem
      generalize value.toList = cs at digits
      induction cs with
      | nil => exact ih
      | cons c cs ih' =>
          obtain ⟨other, digits⟩ := not_or.mp (mt List.mem_cons.mpr digits)
          intro occurs
          rcases List.infix_cons_iff.mp occurs with begins | later
          · exact other (plain.eq_at mem begins).symm
          · exact ih' digits later
  | copy unbound pass ih =>
      intro occurs
      rcases List.infix_cons_iff.mp occurs with begins | later
      · exact pass.not_begins plain isName (unbound b mem) begins
      · exact ih later

/-- Text in which no name occurs is its own result. -/
theorem self (absent : ∀ b ∈ bindings, ¬ b.1.toList <:+: text) : Substituted bindings text text := by
  induction text with
  | nil => exact .nil
  | cons c text ih =>
      have later : ∀ b ∈ bindings, ¬ b.1.toList <:+: text := fun b mem occurs =>
        absent b mem (occurs.trans (List.suffix_cons ..).isInfix)
      exact .copy (fun b mem begins => absent b mem begins.isInfix) (ih later)

end Substituted

/-! ### The order of the names -/

/-- Names, longer ones before shorter ones. -/
def Descending (bindings : List (String × String)) : Prop :=
  bindings.Pairwise fun b b' => b'.1.utf8ByteSize ≤ b.1.utf8ByteSize

theorem place_perm (b : String × String) (bindings : List (String × String)) :
    (place b bindings).Perm (b :: bindings) := by
  induction bindings with
  | nil => exact .refl _
  | cons b' rest ih =>
      unfold place
      split
      · exact .refl _
      · exact (ih.cons b').trans (.swap ..)

theorem Descending.place (descending : Descending bindings) : Descending (place b bindings) := by
  induction bindings with
  | nil => exact List.pairwise_singleton _ _
  | cons b' rest ih =>
      obtain ⟨below, later⟩ := List.pairwise_cons.mp descending
      unfold Variables.place
      split
      · rename_i longer
        refine List.pairwise_cons.mpr ⟨?_, descending⟩
        exact List.forall_mem_cons.mpr ⟨longer.le, fun b'' mem => (below b'' mem).trans longer.le⟩
      · rename_i longer
        refine List.pairwise_cons.mpr ⟨fun b'' mem => ?_, ih later⟩
        rcases List.mem_cons.mp ((place_perm b rest).mem_iff.mp mem) with rfl | mem
        · exact Nat.le_of_not_lt longer
        · exact below b'' mem

theorem byLength_perm (vars : Variables) : vars.byLength.Perm vars.bindings.entries := by
  have placed : ∀ bindings sorted : List (String × String),
      (bindings.foldl (fun sorted b => place b sorted) sorted).Perm (bindings ++ sorted) := by
    intro bindings
    induction bindings with
    | nil => exact fun sorted => .refl _
    | cons b rest ih =>
        intro sorted
        exact (ih _).trans (((place_perm b sorted).append_left rest).trans List.perm_middle)
  have order := placed vars.bindings.entries []
  rwa [List.append_nil] at order

theorem descending_byLength (vars : Variables) : Descending vars.byLength := by
  have placed : ∀ bindings sorted : List (String × String), Descending sorted →
      Descending (bindings.foldl (fun sorted b => place b sorted) sorted) := by
    intro bindings
    induction bindings with
    | nil => exact fun _ => id
    | cons b rest ih => exact fun _ descending => ih _ descending.place
  exact placed _ _ List.Pairwise.nil

/-! ### All names -/

/-- A pass, and then the remaining names replaced one after another: the induction is on these names. -/
theorem substituted_foldl {text : List Char} {result : String} (plain : Plain (bindings ++ done))
    (descending : Descending bindings)
    (shorter : ∀ b ∈ bindings, ∀ b' ∈ done, b.1.utf8ByteSize ≤ b'.1.utf8ByteSize)
    (pass : Substituted done text result.toList) :
    Substituted (bindings ++ done) text
      (bindings.foldl (fun text b => replace b.1 b.2 text) result).toList := by
  induction bindings generalizing done result with
  | nil => exact pass
  | cons b rest ih =>
      obtain ⟨below, later⟩ := List.pairwise_cons.mp descending
      have order : (b :: rest ++ done).Perm (rest ++ b :: done) := List.perm_middle.symm
      have plain' := plain.perm order
      obtain ⟨letters, _, _, name⟩ := plain.names b (List.mem_cons_self ..)
      have pass' : Substituted (b :: done) text (replace b.1 b.2 result).toList := by
        rw [toList_replace name]
        exact pass.replaceFrom (plain'.sublist (List.sublist_append_right ..))
          (shorter b (List.mem_cons_self ..))
      refine (ih plain' later ?_ pass').congr fun b' => order.mem_iff.symm
      exact fun b' mem => List.forall_mem_cons.mpr
        ⟨below b' mem, shorter b' (List.mem_cons_of_mem _ mem)⟩

/-- Resolving a template is one pass over it. -/
theorem substituted_resolve (plain : Plain vars.bindings.entries) (template : String) :
    Substituted vars.bindings.entries template.toList (vars.resolve template).toList := by
  have order := byLength_perm vars
  have start : Substituted [] template.toList template.toList := .self nofun
  have pass := substituted_foldl (by simpa using plain.perm order.symm) (descending_byLength vars)
    (by simp) start
  rw [List.append_nil] at pass
  exact pass.congr fun b => order.mem_iff

theorem resolve_eq (plain : Plain vars.bindings.entries) {template result : String}
    (pass : Substituted vars.bindings.entries template.toList result.toList) :
    vars.resolve template = result :=
  String.toList_inj.mp ((substituted_resolve plain template).unique plain pass)

theorem bindings_ofList (bindings : List (String × String)) :
    (ofList bindings).bindings = .ofList bindings := by
  induction bindings using List.reverseRecOn with
  | nil => rfl
  | append_singleton earlier b ih =>
      rw [Table.ofList_concat, ← ih, ofList, List.foldl_append]
      rfl

/-- Bindings of different names are kept as they are made. -/
theorem entries_ofList_perm (once : (bindings.map Prod.fst).Nodup) :
    (ofList bindings).bindings.entries.Perm bindings := by
  rw [bindings_ofList]
  exact Table.entries_ofList_perm once

/-- **Resolving a template substitutes all names at once.** The result is that of the one pass from
left to right which puts the value of the longest name wherever names begin; no name is left in it; a
template in which none occurs stays; in which order the names were bound does not matter; and the
result is resolved already. -/
theorem resolve_simultaneous (plain : Plain bindings) (template : String) :
    let vars := ofList bindings
    (∀ result, Substituted bindings template.toList result ↔
        result = (vars.resolve template).toList) ∧
      (∀ b ∈ bindings, ¬ b.1.toList <:+: (vars.resolve template).toList) ∧
      ((∀ b ∈ bindings, ¬ b.1.toList <:+: template.toList) → vars.resolve template = template) ∧
      (∀ order, order.Perm bindings → (ofList order).resolve template = vars.resolve template) ∧
      vars.resolve (vars.resolve template) = vars.resolve template := by
  intro vars
  have entries : ∀ order, order.Perm bindings →
      (ofList order).bindings.entries.Perm bindings := fun order same =>
    (entries_ofList_perm (plain.perm same.symm).once).trans same
  have pass : ∀ order, order.Perm bindings → ∀ text : String,
      Substituted bindings text.toList ((ofList order).resolve text).toList := fun order same text =>
    (substituted_resolve (plain.perm (entries order same).symm) text).congr
      fun b => (entries order same).mem_iff
  have resolved := pass bindings (.refl _)
  have stays : ∀ text : String, (∀ b ∈ bindings, ¬ b.1.toList <:+: text.toList) →
      vars.resolve text = text := fun text absent =>
    String.toList_inj.mp ((resolved text).unique plain (.self absent))
  have absent : ∀ b ∈ bindings, ¬ b.1.toList <:+: (vars.resolve template).toList :=
    fun b mem => (resolved template).nameless plain mem
  refine ⟨fun result => ⟨fun other => other.unique plain (resolved template), ?_⟩, absent,
    stays template, ?_, stays _ absent⟩
  · rintro rfl
    exact resolved template
  · intro order same
    exact String.toList_inj.mp ((pass order same template).unique plain (resolved template))

/-- The shorter of two names that begin alike is bound first, and spoils the longer one neither way. -/
theorem resolve_member_before_me :
    Plain [("@me", "1"), ("@member", "2")] ∧
      Substituted [("@me", "1"), ("@member", "2")] "@member.@me:@m".toList "2.1:@m".toList ∧
      (ofList [("@member", "2"), ("@me", "1")]).resolve "@member.@me:@m" = "2.1:@m" := by
  have plain : Plain [("@me", "1"), ("@member", "2")] := by
    refine ⟨by decide, ?_, ?_⟩ <;> simp only [List.forall_mem_cons]
    · exact ⟨⟨"me".toList, by decide, List.all_eq_true.mp rfl, rfl⟩,
        ⟨"member".toList, by decide, List.all_eq_true.mp rfl, rfl⟩, nofun⟩
    · exact ⟨⟨by decide, by decide⟩, ⟨by decide, by decide⟩, nofun⟩
  have resolved : (ofList [("@me", "1"), ("@member", "2")]).resolve "@member.@me:@m" = "2.1:@m" := by
    decide
  obtain ⟨pass, _, _, order, _⟩ := resolve_simultaneous plain "@member.@me:@m"
  refine ⟨plain, (pass _).mpr ?_, ?_⟩
  · rw [resolved]
  · rw [order _ (.swap ..), resolved]

end Gatehouse.Variables
