import Gatehouse.Permission
import Gatehouse.Proofs.Pattern.Check
import Gatehouse.Proofs.Pattern.Instance
import Gatehouse.Proofs.Text.Letter

/-!
Which texts may be stored as permission patterns.

The texts are described as they are put together (`OperationForm`, `ResourceForm`): characters make
names, names and variables make components, components with points between them make segments, and
segments with colons between them make patterns. The checks cut texts instead, and report the first
fault from the left. The main statement is `accepts_iff_form`: they accept the texts of the grammar and
nothing else, and the components of a segment, of which there always is a last one, may as well be
checked place by place.
-/

namespace Gatehouse

namespace Pattern

open Text

variable {s segment pattern : String} {parts components : List String} {c : Char}

/-! ### The grammar -/

/-- A character of a name. -/
def NameChar (c : Char) : Prop :=
  'A' ≤ c ∧ c ≤ 'Z' ∨ 'a' ≤ c ∧ c ≤ 'z' ∨ '0' ≤ c ∧ c ≤ '9' ∨ c = '_' ∨ c = '-'

/-- A name: such characters, one at least. -/
structure Name (s : String) : Prop where
  given : s ≠ ""
  chars : ∀ c ∈ s.toList, NameChar c

/-- A segment of an operation pattern: `*` or a name. -/
inductive OperationSegmentForm : String → Prop where
  | any : OperationSegmentForm "*"
  | name {s : String} (name : Name s) : OperationSegmentForm s

/-- An operation pattern: three segments. -/
inductive OperationForm : String → Prop where
  | of {scope resource action : String} (first : OperationSegmentForm scope)
      (second : OperationSegmentForm resource) (third : OperationSegmentForm action) :
      OperationForm (scope ++ ":" ++ resource ++ ":" ++ action)

/-- A component of a segment: a name, or a variable, which is a name after an `@`. -/
inductive Component : String → Prop where
  | name {s : String} (name : Name s) : Component s
  | variable {s : String} (name : Name s) : Component ("@" ++ s)

/-- Components with points between them, one at least. -/
inductive Dotted : String → Prop where
  | one {s : String} (component : Component s) : Dotted s
  | more {s rest : String} (component : Component s) (further : Dotted rest) :
      Dotted (s ++ "." ++ rest)

/-- A segment of a resource pattern: `*`, or components, of which a last `*` may follow several or
one. -/
inductive ResourceSegmentForm : String → Prop where
  | any : ResourceSegmentForm "*"
  | exact {s : String} (dotted : Dotted s) : ResourceSegmentForm s
  | below {s : String} (dotted : Dotted s) : ResourceSegmentForm (s ++ ".*")

/-- A resource pattern: three segments, or fewer of which the last is `*`. -/
inductive ResourceForm : String → Prop where
  | one : ResourceForm "*"
  | two {first : String} (form : ResourceSegmentForm first) : ResourceForm (first ++ ":" ++ "*")
  | three {first second third : String} (form : ResourceSegmentForm first)
      (form' : ResourceSegmentForm second) (form'' : ResourceSegmentForm third) :
      ResourceForm (first ++ ":" ++ second ++ ":" ++ third)

/-! ### Names and components -/

theorem isNameChar_iff : isNameChar c = true ↔ NameChar c := by
  unfold isNameChar NameChar
  simp only [Bool.or_eq_true, decide_eq_true_eq, isAlphanum_iff, or_assoc]

theorem isName_iff : isName s.toList = true ↔ Name s := by
  unfold isName
  simp only [Bool.and_eq_true, Bool.not_eq_true', List.isEmpty_eq_false_iff, List.all_eq_true,
    isNameChar_iff, ne_eq, String.toList_eq_nil_iff]
  exact ⟨fun ⟨given, chars⟩ => ⟨given, chars⟩, fun ⟨given, chars⟩ => ⟨given, chars⟩⟩

/-- A character that is none of a name does not occur in one. -/
theorem Name.notMem (name : Name s) (other : isNameChar c = false) : c ∉ s.toList := by
  intro mem
  rw [isNameChar_iff.mpr (name.chars c mem)] at other
  cases other

theorem isComponent_iff : isComponent s = true ↔ Component s := by
  constructor
  · intro accepted
    unfold isComponent at accepted
    split at accepted
    · rename_i cs letters
      obtain rfl : "@" ++ String.ofList cs = s := by
        apply String.toList_inj.mp
        simp [letters]
      exact .variable (isName_iff.mp (by rwa [String.toList_ofList]))
    · exact .name (isName_iff.mp accepted)
  · intro component
    unfold isComponent
    cases component with
    | name name =>
        split
        · rename_i cs letters
          have mem : '@' ∈ s.toList := letters ▸ List.mem_cons_self ..
          exact absurd mem (name.notMem (by decide))
        · exact isName_iff.mpr name
    | @«variable» s name =>
        have letters : ("@" ++ s).toList = '@' :: s.toList := String.toList_append
        rw [letters]
        exact isName_iff.mpr name

/-- Besides those of names, components have the character `@` only. -/
theorem Component.notMem (component : Component s) (other : isNameChar c = false)
    (noAt : c ≠ '@') : c ∉ s.toList := by
  cases component with
  | name name => exact name.notMem other
  | «variable» name => simpa [noAt] using name.notMem other

theorem Component.ne_empty (component : Component s) : s ≠ "" := by
  cases component with
  | name name => exact name.given
  | @«variable» s _ =>
      intro empty
      have letters : ("@" ++ s).toList = '@' :: s.toList := String.toList_append
      rw [empty] at letters
      cases letters

/-! ### Segments -/

theorem Dotted.split_eq (dotted : Dotted s) : ∀ component ∈ split '.' s, Component component := by
  induction dotted with
  | one component =>
      rw [split_of_notMem (component.notMem (by decide) (by decide))]
      exact List.forall_mem_singleton.mpr component
  | @more s rest component _ ih =>
      have parts : split '.' (s ++ "." ++ rest) = s :: split '.' rest :=
        split_append (component.notMem (by decide) (by decide)) rest
      rw [parts]
      exact List.forall_mem_cons.mpr ⟨component, ih⟩

theorem dotted_join (given : components ≠ [])
    (each : ∀ component ∈ components, Component component) : Dotted (join '.' components) := by
  induction components with
  | nil => exact absurd rfl given
  | cons component rest ih =>
      obtain ⟨first, others⟩ := List.forall_mem_cons.mp each
      by_cases last : rest = []
      · subst last
        rw [join_singleton]
        exact .one first
      · rw [join_cons last]
        exact .more first (ih last others)

/-- Besides those of components, components with points between them have the point only. -/
theorem Dotted.notMem (dotted : Dotted s) (other : isNameChar c = false) (noAt : c ≠ '@')
    (noPoint : c ≠ '.') : c ∉ s.toList := by
  induction dotted with
  | one component => exact component.notMem other noAt
  | more component _ ih => simp [component.notMem other noAt, ih, noPoint]

theorem Dotted.ne_empty (dotted : Dotted s) : s ≠ "" := by
  rintro rfl
  have parts : split '.' "" = [""] := by decide
  exact (dotted.split_eq "" (parts ▸ List.mem_singleton_self "")).ne_empty rfl

theorem ResourceSegmentForm.ne_empty (form : ResourceSegmentForm s) : s ≠ "" := by
  cases form with
  | any => decide
  | exact dotted => exact dotted.ne_empty
  | below dotted => exact fun empty => dotted.ne_empty (String.append_eq_empty_iff.mp empty).1

/-- The first component has no fault when it is one, or a last `*` behind others. -/
theorem componentsFault?_cons_eq_none_iff {part : String} {first : Bool} :
    componentsFault? pattern segment first (part :: parts) = none ↔
      part = wildcard ∧ parts = [] ∧ first = false ∨
        Component part ∧ componentsFault? pattern segment false parts = none := by
  have noStar : Component part → '*' ∉ part.toList :=
    fun component => component.notMem (by decide) (by decide)
  rw [componentsFault?]
  by_cases ends : part = wildcard ∧ parts = [] ∧ first = false
  · exact iff_of_true (if_pos ends) (Or.inl ends)
  rw [if_neg ends, or_iff_right ends]
  by_cases component : Component part
  · have plain : ¬ part.toList.contains '*' = true := by simpa using noStar component
    rw [if_neg plain, if_pos (isComponent_iff.mpr component), and_iff_right component]
  · rw [if_neg (mt isComponent_iff.mp component)]
    split <;> simp [component]

/-- The components of a segment have no fault when they are all components, or all but a last `*` that
does not stand alone. -/
theorem componentsFault?_eq_none_iff {first : Bool} :
    componentsFault? pattern segment first parts = none ↔
      (∀ part ∈ parts, Component part) ∨ ∃ before, parts = before ++ ["*"] ∧
        (first = true → before ≠ []) ∧ ∀ part ∈ before, Component part := by
  induction parts generalizing first with
  | nil => simp [componentsFault?]
  | cons part rest ih =>
      rw [componentsFault?_cons_eq_none_iff, ih]
      constructor
      · rintro (⟨rfl, rfl, rfl⟩ | ⟨component, each | ⟨before, rfl, _, each⟩⟩)
        · exact Or.inr ⟨[], rfl, nofun, nofun⟩
        · exact Or.inl (List.forall_mem_cons.mpr ⟨component, each⟩)
        · exact Or.inr ⟨part :: before, rfl, fun _ => List.cons_ne_nil _ _,
            List.forall_mem_cons.mpr ⟨component, each⟩⟩
      · rintro (each | ⟨before, parts, inside, each⟩)
        · obtain ⟨component, each⟩ := List.forall_mem_cons.mp each
          exact Or.inr ⟨component, Or.inl each⟩
        · cases before with
          | nil =>
              obtain ⟨rfl, rfl⟩ := List.cons.inj parts
              exact Or.inl ⟨rfl, rfl, by simpa using inside⟩
          | cons part' before =>
              obtain ⟨rfl, rfl⟩ := List.cons.inj parts
              obtain ⟨component, each⟩ := List.forall_mem_cons.mp each
              exact Or.inr ⟨component, Or.inr ⟨before, rfl, nofun, each⟩⟩

/-- A segment of a resource pattern has no fault exactly when it is of the form of one. -/
theorem resourceFault?_eq_none_iff :
    resourceFault? pattern segment = none ↔ ResourceSegmentForm segment := by
  unfold resourceFault?
  constructor
  · intro faultless
    split at faultless
    · rename_i same
      exact same ▸ .any
    split at faultless
    · cases faultless
    rcases componentsFault?_eq_none_iff.mp faultless with each | ⟨before, parts, inside, each⟩
    · rw [← join_split '.' segment]
      exact .exact (dotted_join (split_ne_nil _ _) each)
    · rw [← join_split '.' segment, parts, join_concat (inside rfl), String.append_assoc]
      exact .below (dotted_join (inside rfl) each)
  · intro form
    by_cases everything : segment = wildcard
    · rw [if_pos everything]
    · rw [if_neg everything, if_neg form.ne_empty, componentsFault?_eq_none_iff]
      cases form with
      | any => exact absurd rfl everything
      | exact dotted => exact Or.inl dotted.split_eq
      | @below s dotted =>
          have parts : split '.' (s ++ "." ++ "*") = split '.' s ++ split '.' "*" :=
            split_append_split s "*"
          rw [String.append_assoc] at parts
          exact Or.inr ⟨split '.' s, parts, fun _ => split_ne_nil _ _, dotted.split_eq⟩

theorem ResourceSegmentForm.noColon (form : ResourceSegmentForm s) : ':' ∉ s.toList := by
  cases form with
  | any => decide
  | exact dotted => exact dotted.notMem (by decide) (by decide) (by decide)
  | below dotted => simpa using dotted.notMem (by decide) (by decide) (by decide)

/-! ### Patterns -/

theorem operationSegmentForm_iff :
    OperationSegmentForm s ↔ s = wildcard ∨ isName s.toList = true := by
  rw [isName_iff]
  constructor
  · intro form
    cases form with
    | any => exact Or.inl rfl
    | name name => exact Or.inr name
  · rintro (rfl | name)
    · exact .any
    · exact .name name

theorem OperationSegmentForm.noColon (form : OperationSegmentForm s) : ':' ∉ s.toList := by
  cases form with
  | any => decide
  | name name => exact name.notMem (by decide)

/-- A text of three segments is of the form of an operation pattern when all three are. -/
theorem checkOperation_iff_form : checkOperation pattern = .ok () ↔ OperationForm pattern := by
  rw [checkOperation_eq_ok_iff]
  constructor
  · rintro ⟨scope, resource, action, segments, forms⟩
    have form : ∀ s ∈ [scope, resource, action], OperationSegmentForm s := fun s mem =>
      operationSegmentForm_iff.mpr (forms s mem)
    rw [← join_split ':' pattern, segments, join_three]
    exact .of (form scope (by simp)) (form resource (by simp)) (form action (by simp))
  · rintro ⟨first, second, third⟩
    refine ⟨_, _, _, split_three first.noColon second.noColon third.noColon, ?_⟩
    simp only [List.forall_mem_cons, ← operationSegmentForm_iff]
    exact ⟨first, second, third, nofun⟩

/-- A resource pattern is accepted when it has three segments of the form of one, or fewer of which
the last is `*`. -/
theorem checkResource_eq_ok_iff : checkResource pattern = .ok () ↔
    (split ':' pattern).length ≤ 3 ∧
      ((split ':' pattern).length < 3 → (split ':' pattern).getLast? = some wildcard) ∧
      ∀ s ∈ split ':' pattern, ResourceSegmentForm s := by
  have faultless : (split ':' pattern).findSome? (resourceFault? pattern) = none ↔
      ∀ s ∈ split ':' pattern, ResourceSegmentForm s := by
    simp only [List.findSome?_eq_none_iff, resourceFault?_eq_none_iff]
  unfold checkResource
  by_cases empty : pattern = ""
  · have nothing : split ':' "" = [""] := by decide
    rw [if_pos empty, empty, nothing]
    refine iff_of_false nofun fun ⟨_, _, forms⟩ => ?_
    exact (forms "" (List.mem_singleton_self _)).ne_empty rfl
  rw [if_neg empty]
  simp only
  split
  · exact iff_of_false nofun fun ⟨few, _⟩ => by omega
  split
  · rename_i short
    exact iff_of_false nofun fun ⟨_, last, _⟩ => short.2 (last short.1)
  rename_i few last
  rw [← faultless, and_iff_right (by omega), and_iff_right (by simpa using last)]
  cases (split ':' pattern).findSome? (resourceFault? pattern) <;> simp

theorem componentsFault?_ne_tooFewSegments {first : Bool} (text : String) :
    componentsFault? pattern segment first parts ≠ some (.tooFewSegments text) := by
  induction parts generalizing first with
  | nil => exact nofun
  | cons part rest ih =>
      unfold componentsFault?
      split
      · exact nofun
      split
      · exact nofun
      split
      · exact ih
      · exact nofun

/-- The fault of a segment is not one of the number of segments. -/
theorem resourceFault?_ne_tooFewSegments (text : String) :
    resourceFault? pattern segment ≠ some (.tooFewSegments text) := by
  unfold resourceFault?
  split
  · exact nofun
  split
  · exact nofun
  · exact componentsFault?_ne_tooFewSegments text

/-- A resource pattern is refused for having too few segments when it is not empty and has fewer than three, of
which the last is not `*`. -/
theorem checkResource_eq_tooFewSegments_iff :
    checkResource pattern = .error (.tooFewSegments pattern) ↔
      pattern ≠ "" ∧ (split ':' pattern).length < 3 ∧ (split ':' pattern).getLast? ≠ some wildcard := by
  unfold checkResource
  by_cases empty : pattern = ""
  · rw [if_pos empty]
    exact iff_of_false nofun fun given => given.1 empty
  rw [if_neg empty, and_iff_right empty]
  simp only
  split
  · exact iff_of_false nofun fun few => by omega
  split
  · rename_i short
    exact iff_of_true rfl short
  · rename_i few
    refine iff_of_false (fun refused => ?_) few
    split at refused
    · rename_i fault found
      obtain ⟨s, -, faulty⟩ := List.exists_of_findSome?_eq_some found
      obtain rfl : fault = .tooFewSegments pattern := Except.error.inj refused
      exact resourceFault?_ne_tooFewSegments pattern faulty
    · cases refused

/-- A text is of the form of a resource pattern when its segments are. -/
theorem checkResource_iff_form : checkResource pattern = .ok () ↔ ResourceForm pattern := by
  rw [checkResource_eq_ok_iff]
  constructor
  · rintro ⟨few, last, forms⟩
    have joined := (join_split ':' pattern).symm
    match segments : split ':' pattern with
    | [] => exact absurd segments (split_ne_nil _ _)
    | [only] =>
        rw [segments] at joined last
        obtain rfl : only = "*" := by simpa [wildcard] using last (by simp)
        rw [joined, join_singleton]
        exact .one
    | [first, second] =>
        rw [segments] at joined last forms
        obtain rfl : second = "*" := by simpa [wildcard] using last (by simp)
        rw [joined, join_cons (by simp), join_singleton]
        exact .two (forms first (by simp))
    | [first, second, third] =>
        rw [segments] at joined forms
        rw [joined, join_three]
        exact .three (forms first (by simp)) (forms second (by simp)) (forms third (by simp))
    | _ :: _ :: _ :: _ :: _ =>
        rw [segments] at few
        simp only [List.length_cons] at few
        omega
  · intro form
    cases form with
    | one =>
        have segments : split ':' "*" = ["*"] := by decide
        simp [segments, wildcard, ResourceSegmentForm.any]
    | @two first form =>
        have segments : split ':' (first ++ ":" ++ "*") = [first, "*"] :=
          split_append form.noColon "*"
        simp [segments, wildcard, form, ResourceSegmentForm.any]
    | @three first second third form form' form'' =>
        have segments : split ':' (first ++ ":" ++ second ++ ":" ++ third) = [first, second, third] :=
          split_three form.noColon form'.noColon form''.noColon
        simp [segments, form, form', form'']

/-! ### Components place by place -/

/-- The fault of the component at a place, of components of which the last has the place `last`. -/
def faultAt? (pattern segment : String) (last : Nat) (component : String) (place : Nat) :
    Option PatternFault :=
  if component = wildcard ∧ place = last ∧ 0 < place then none
  else if component.toList.contains '*' then some (.wildcardInside segment)
  else if isComponent component then none
  else some (.resourceComponent component pattern)

/-- What is left of the components from a place on has the first fault of these places. -/
theorem componentsFault?_eq_findSome? {last : Nat} (place : Nat)
    (ends : place + parts.length = last + 1) :
    componentsFault? pattern segment (decide (place = 0)) parts =
      (parts.zipIdx place).findSome? fun ⟨component, place⟩ =>
        faultAt? pattern segment last component place := by
  induction parts generalizing place with
  | nil => rfl
  | cons component rest ih =>
      rw [List.length_cons] at ends
      have final : rest = [] ↔ place = last := by
        rw [← List.length_eq_zero_iff]
        omega
      have later := ih (place + 1) (by omega)
      -- The recursion knows of a place only whether it is the first one.
      have behind : decide (place + 1 = 0) = false := decide_eq_false (by omega)
      rw [behind] at later
      simp only [List.zipIdx_cons, List.findSome?_cons, ← later]
      simp only [componentsFault?, faultAt?, final, decide_eq_false_iff_not, ← Nat.pos_iff_ne_zero]
      split
      · rename_i star
        rw [final.mpr star.2.1]
        rfl
      split
      · rfl
      split <;> rfl

/-! ### Acceptance -/

/-- Why a permission is refused: one of its patterns has a fault, the operation pattern first. -/
theorem check_eq_error_iff {p : Permission} {e : Error} : p.check = .error e ↔
    ∃ fault, e = .pattern fault ∧ (checkOperation p.operation = .error fault ∨
      checkOperation p.operation = .ok () ∧ checkResource p.resource = .error fault) := by
  unfold Permission.check
  cases checkOperation p.operation with
  | error fault => simp [eq_comm]
  | ok _ => cases checkResource p.resource <;> simp [eq_comm]

/-- The checks accept the patterns of the grammar and nothing else, and refuse a permission with the
fault of a pattern only. A segment always has a last component, and its components have the fault that
is found by going through their places up to the last one. -/
theorem accepts_iff_form (operation resource : String) :
    (checkOperation operation = .ok () ↔ OperationForm operation) ∧
      (checkResource resource = .ok () ↔ ResourceForm resource) ∧
      (∀ e, (Permission.mk operation resource).check = .error e → e.kind = .invalidPattern ∧
        ∃ fault, e = .pattern fault ∧
          (checkOperation operation = .error fault ∨ checkResource resource = .error fault)) ∧
      ∀ segment ∈ split ':' resource, ∃ last, (split '.' segment).length = last + 1 ∧
        componentsFault? resource segment true (split '.' segment) =
          (split '.' segment).zipIdx.findSome? fun ⟨component, place⟩ =>
            faultAt? resource segment last component place := by
  refine ⟨checkOperation_iff_form, checkResource_iff_form, fun e refused => ?_, fun s _ => ?_⟩
  · obtain ⟨fault, rfl, fails | ⟨_, fails⟩⟩ := check_eq_error_iff.mp refused
    · exact ⟨rfl, fault, rfl, Or.inl fails⟩
    · exact ⟨rfl, fault, rfl, Or.inr fails⟩
  · obtain ⟨last, length⟩ := Nat.exists_eq_succ_of_ne_zero
      (mt List.length_eq_zero_iff.mp (split_ne_nil '.' s))
    exact ⟨last, length, componentsFault?_eq_findSome? 0 (by omega)⟩

-- A line break at the end is a character like others.
example : checkOperation "self:profile:get\n" = .error (.operationCharacters "get\n") := by decide

end Pattern

end Gatehouse
