import Gatehouse.Proofs.Route.Registry
import Gatehouse.Proofs.Route.Template
import Mathlib.Algebra.Order.BigOperators.Group.List
import Mathlib.Algebra.Order.Group.Nat
import Mathlib.Data.List.Forall2

/-!
Which registered routes can be reached.

The first route that takes a request is found for it, so a route is lost when the routes before it take all of
its paths. Whether one route takes all paths of another can be read off their templates (`Covers`): its
segments are those of the other or placeholders. No two routes take all paths of a third together, unless one
of them does so alone: there is a path that only the routes take which cover the third
(`exists_path_of_covering`). Its placeholders are filled in with a text that is no segment of any template.

The main statement is `reached_iff_uncovered`: what a registry lets a route be found for is decided by the
templates before it. Registering compares templates as they are written, so a route that is covered can be
registered (`covered_route_lost`).
-/

namespace Gatehouse

namespace Route

variable {r other : Route} {path segment value : String} {template template' row : List String}
  {values : Table String String}

/-- What may stand in a path for a segment of a template: any text for a placeholder, but not none, and for any
other segment only itself. -/
inductive Stands : String → String → Prop where
  | fixed {segment : String} : placeholder? segment = none → Stands segment segment
  | held {segment name value : String} : placeholder? segment = some name → value ≠ "" →
      Stands segment value

/-- The template of a route matches a path. -/
def Matches (r : Route) (path : String) : Prop :=
  List.Forall₂ Stands (innerSegments r.path) (innerSegments path)

/-- What stands for a segment may stand for another too. -/
def SegmentCovers (segment other : String) : Prop :=
  segment = other ∨ (placeholder? segment).isSome = true ∧ other ≠ ""

instance : Decidable (SegmentCovers segment value) :=
  inferInstanceAs (Decidable (segment = value ∨ (placeholder? segment).isSome = true ∧ value ≠ ""))

/-- The template of a route covers that of another: it has as many segments, outer slashes aside, and each
covers the one in its place. -/
def Covers (r other : Route) : Prop :=
  List.Forall₂ SegmentCovers (innerSegments r.path) (innerSegments other.path)

instance : Decidable (r.Covers other) :=
  inferInstanceAs (Decidable (List.Forall₂ SegmentCovers (innerSegments r.path) (innerSegments other.path)))

/-- The template of a route without the names of its placeholders and its outer slashes. -/
def shape (r : Route) : List (Option String) :=
  (innerSegments r.path).map fun segment =>
    if (placeholder? segment).isSome then none else some segment

/-! ### Paths that a template matches -/

theorem reads_iff_stands : (∃ pairs, Reads template row pairs) ↔ List.Forall₂ Stands template row := by
  constructor
  · rintro ⟨pairs, reads⟩
    induction reads with
    | done => exact .nil
    | fixed fixed _ ih => exact .cons (.fixed fixed) ih
    | held held given _ ih => exact .cons (.held held given) ih
  · intro stands
    induction stands with
    | nil => exact ⟨[], .done⟩
    | cons first _ ih =>
        obtain ⟨pairs, reads⟩ := ih
        cases first with
        | fixed fixed => exact ⟨pairs, .fixed fixed reads⟩
        | held held given => exact ⟨_, .held held given reads⟩

/-- A path has parameters by a template that matches it, and by no other. -/
theorem isSome_extract?_iff : (r.extract? path).isSome = true ↔ r.Matches path := by
  rw [Matches, ← reads_iff_stands, Option.isSome_iff_exists]
  simp only [extract?_eq_some_iff]
  constructor
  · rintro ⟨_, pairs, reads, _⟩
    exact ⟨pairs, reads⟩
  · rintro ⟨pairs, reads⟩
    exact ⟨_, pairs, reads, rfl⟩

/-! ### Templates that cover others -/

theorem SegmentCovers.stands (covers : SegmentCovers segment value) {text : String}
    (stands : Stands value text) : Stands segment text := by
  rcases covers with rfl | ⟨hold, given⟩
  · exact stands
  · obtain ⟨name, held⟩ := Option.isSome_iff_exists.mp hold
    cases stands with
    | fixed => exact .held held given
    | held _ content => exact .held held content

theorem stands_of_covers (covers : List.Forall₂ SegmentCovers template template')
    (stands : List.Forall₂ Stands template' row) : List.Forall₂ Stands template row := by
  induction covers generalizing row with
  | nil => exact stands
  | cons first _ ih =>
      cases stands with
      | cons stands others => exact .cons (first.stands stands) (ih others)

/-- A route takes the paths of the routes that it covers. -/
theorem Covers.matches (covers : r.Covers other) (matching : other.Matches path) : r.Matches path :=
  stands_of_covers covers matching

/-- Some text can be given to placeholders and is none of a few words: one that is longer than all of them. -/
theorem exists_fresh (words : List String) :
    ∃ value : String, value ≠ "" ∧ '/' ∉ value.toList ∧ value ∉ words := by
  let size := (words.map String.length).sum + 1
  refine ⟨String.ofList (List.replicate size 'x'), ?_, ?_, fun mem => ?_⟩
  · intro empty
    simpa [size] using congrArg String.toList empty
  · simp [size]
  · have short := List.single_le_sum (fun _ _ => Nat.zero_le _) _ (List.mem_map_of_mem (f := String.length) mem)
    simp [size] at short

/-- The values that are one text for every placeholder of a route. -/
def uniform (r : Route) (value : String) : Table String String :=
  .ofList (r.parameters.map fun name => (name, value))

theorem eq_of_find?_uniform {name found : String} (known : (r.uniform value).find? name = some found) :
    found = value := by
  obtain ⟨_, _, same⟩ := List.mem_map.mp (mem_of_find?_ofList known)
  exact (Prod.mk.inj same).2.symm

theorem assigns_uniform (given : value ≠ "") (whole : '/' ∉ value.toList) :
    r.Assigns (r.uniform value) where
  ascending := Table.ascending_ofList _
  named name := by
    rw [uniform, contains_ofList_iff, List.map_map]
    simp
  given name found known := eq_of_find?_uniform known ▸ given
  whole name found known := eq_of_find?_uniform known ▸ whole

/-- What stands for a segment that is filled in stands for the segment, if it is not what was filled in. -/
theorem segmentCovers_of_stands (assigns : r.Assigns (r.uniform value)) (fresh : segment ≠ value)
    {filled : String} (stands : Stands segment (fillSegment (r.uniform value) filled)) :
    SegmentCovers segment filled := by
  generalize become : fillSegment (r.uniform value) filled = text at stands
  cases stands with
  | held held content =>
      have given : filled ≠ "" := mt (fillSegment_eq_empty_iff assigns).mpr (become ▸ content)
      exact .inr ⟨Option.isSome_of_mem held, given⟩
  | fixed =>
      refine .inl ?_
      unfold fillSegment at become
      split at become
      · rename_i name _
        cases known : (r.uniform value).find? name with
        | none => simpa [known] using become.symm
        | some found =>
            have same : found = segment := by simpa [known] using become
            exact absurd (same.symm.trans (eq_of_find?_uniform known)) fresh
      · exact become.symm

/-- Of some routes only those that cover a route take all of its paths, also together: one of its paths is taken
by no others. -/
theorem exists_path_of_covering (r : Route) (others : List Route) :
    ∃ path, r.Matches path ∧ ∀ other ∈ others, other.Matches path → other.Covers r := by
  obtain ⟨value, given, whole, fresh⟩ := exists_fresh (others.flatMap fun other => innerSegments other.path)
  have assigns : r.Assigns (r.uniform value) := assigns_uniform given whole
  refine ⟨r.fill (r.uniform value), isSome_extract?_iff.mp (Option.isSome_of_mem (extract?_fill assigns)), ?_⟩
  intro other mem matching
  rw [Matches, innerSegments_fill assigns, List.forall₂_map_right_iff] at matching
  have different : ∀ segment ∈ innerSegments other.path, segment ≠ value := by
    rintro segment part rfl
    exact fresh (List.mem_flatMap.mpr ⟨other, mem, part⟩)
  refine List.Forall₂.imp ?_ ((List.forall₂_and_left ..).mpr ⟨different, matching⟩)
  rintro segment filled ⟨fresh, stands⟩
  exact segmentCovers_of_stands assigns fresh stands

/-- A template covers another when it matches all of its paths. -/
theorem covers_iff : r.Covers other ↔ ∀ path, other.Matches path → r.Matches path := by
  constructor
  · exact fun covers path => covers.matches
  · intro all
    obtain ⟨path, matching, only⟩ := exists_path_of_covering other [r]
    exact only r (List.mem_singleton_self r) (all path matching)

theorem segmentCovers_both_iff : SegmentCovers segment value ∧ SegmentCovers value segment ↔
    (if (placeholder? segment).isSome then none else some segment) =
      if (placeholder? value).isSome then none else some value := by
  have written : ∀ {segment : String}, (placeholder? segment).isSome = true → segment ≠ "" := by
    rintro _ hold rfl
    cases hold
  unfold SegmentCovers
  cases hold : (placeholder? segment).isSome <;> cases hold' : (placeholder? value).isSome
  · simp [eq_comm]
  · suffices segment ≠ value by simp [this]
    rintro rfl
    simp [hold] at hold'
  · suffices value ≠ segment by simp [this]
    rintro rfl
    simp [hold] at hold'
  · simp [written hold, written hold']

/-- Two templates match the same paths when they are alike but for the names of placeholders and outer
slashes. -/
theorem matches_same_iff : (∀ path, r.Matches path ↔ other.Matches path) ↔ r.shape = other.shape := by
  have both : (∀ path, r.Matches path ↔ other.Matches path) ↔ r.Covers other ∧ other.Covers r := by
    rw [covers_iff, covers_iff, ← forall_and]
    exact forall_congr' fun path => ⟨fun same => ⟨same.mpr, same.mp⟩, fun ⟨back, there⟩ => ⟨there, back⟩⟩
  rw [both, shape, shape, ← List.forall₂_eq_eq_eq, List.forall₂_map_left_iff, List.forall₂_map_right_iff]
  constructor
  · rintro ⟨covers, covered⟩
    exact List.Forall₂.mp (fun _ _ there back => segmentCovers_both_iff.mp ⟨there, back⟩) covers covered.flip
  · intro alike
    refine ⟨alike.imp fun _ _ same => (segmentCovers_both_iff.mpr same).1, ?_⟩
    exact (alike.imp fun _ _ same => (segmentCovers_both_iff.mpr same).2).flip

end Route

/-! ### Routes that are found -/

namespace Registry

variable {g : Registry} {r : Route} {routes before after : List Route} {path : String}

/-- In a row of routes that can be registered together each has one place. -/
theorem Registrable.place_unique {before' after' : List Route} (fit : Registrable (before ++ r :: after))
    (same : before ++ r :: after = before' ++ r :: after') : before = before' := by
  have once : (before ++ r :: after).Nodup := List.Nodup.of_map _ fit.operations
  obtain ⟨later, _⟩ := List.nodup_cons.mp (List.nodup_middle.mp once)
  rw [List.mem_append, not_or] at later
  exact ((List.append_cons_inj_of_notMem later.1 later.2).mp same).1

/-- A route that is covered by none before it, of its method, is found for one of its paths. -/
theorem exists_find?_eq_some (parts : g.routes = before ++ r :: after)
    (uncovered : ∀ other ∈ before, Text.sameLetters other.method r.method = true → ¬ other.Covers r) :
    ∃ path values, g.find? r.method path = some (r, values) := by
  obtain ⟨path, matching, only⟩ := Route.exists_path_of_covering r before
  obtain ⟨values, read⟩ := Option.isSome_iff_exists.mp (Route.isSome_extract?_iff.mpr matching)
  have own : Text.sameLetters r.method r.method = true := by simp [Text.sameLetters]
  refine ⟨path, values, find?_eq_some_iff.mpr ⟨before, after, parts, ⟨own, read⟩, ?_⟩⟩
  rintro other mem values ⟨same, taken⟩
  have covers := only other mem (Route.isSome_extract?_iff.mp (Option.isSome_of_mem taken))
  exact uncovered other mem same covers

/-- A route that is covered by one before it, of its method, is never found. -/
theorem find?_ne_some_of_covers (fit : Registrable g.routes) (parts : g.routes = before ++ r :: after)
    {other : Route} (mem : other ∈ before) (same : Text.sameLetters other.method r.method = true)
    (covers : other.Covers r) (values : Table String String) : g.find? r.method path ≠ some (r, values) := by
  intro found
  obtain ⟨before', after', parts', ⟨_, read⟩, earlier⟩ := find?_eq_some_iff.mp found
  obtain rfl := (parts ▸ fit).place_unique (parts.symm.trans parts')
  have taken := covers.matches (Route.isSome_extract?_iff.mp (Option.isSome_of_mem read))
  obtain ⟨values', read'⟩ := Option.isSome_iff_exists.mp (Route.isSome_extract?_iff.mpr taken)
  exact earlier other mem values' ⟨same, read'⟩

/-- **A registered route can be reached unless a route before it covers it.** There is a path for which a route
is found under its method exactly if no route declared before it, of the same method in any case, covers it;
and to cover it is to take all of its paths. Two routes take the same paths exactly if their templates are
alike but for the names of placeholders and outer slashes, and then only the first of one method is ever found. -/
theorem reached_iff_uncovered (built : build routes = .ok g) :
    (∀ before r after, routes = before ++ r :: after →
      ((∃ path values, g.find? r.method path = some (r, values)) ↔
        ∀ other ∈ before, Text.sameLetters other.method r.method = true → ¬ other.Covers r)) ∧
    ∀ r ∈ routes, ∀ other ∈ routes,
      (other.Covers r ↔
        ∀ path, (r.extract? path).isSome = true → (other.extract? path).isSome = true) ∧
      ((∀ path, (r.extract? path).isSome = (other.extract? path).isSome) ↔ r.shape = other.shape) := by
  obtain ⟨fit, rfl⟩ := build_eq_ok_iff.mp built
  refine ⟨fun before r after parts => ⟨?_, exists_find?_eq_some parts⟩, fun r _ other _ => ⟨?_, ?_⟩⟩
  · rintro ⟨path, values, found⟩ other mem same covers
    exact find?_ne_some_of_covers fit parts mem same covers values found
  · simp only [Route.isSome_extract?_iff]
    exact Route.covers_iff
  · rw [← Route.matches_same_iff]
    refine forall_congr' fun path => Bool.eq_iff_iff.trans ?_
    rw [Route.isSome_extract?_iff, Route.isSome_extract?_iff]

theorem isOperation_usersFind : isOperation "sys:users:find" = true := by decide

theorem isOperation_usersMe : isOperation "sys:users:me" = true := by decide

theorem isOperation_usersRoles : isOperation "sys:users:roles" = true := by decide

/-- The route of a user. -/
def userById : Route := ⟨"GET", "/users/\x7bid\x7d", ⟨"sys:users:find", isOperation_usersFind⟩, []⟩

/-- Of routes below the one of a user, the one with as many segments is never found and the longer one is. -/
theorem roles_found_me_lost :
    let me : Route := ⟨"GET", "/users/me", ⟨"sys:users:me", isOperation_usersMe⟩, []⟩
    let roles : Route := ⟨"GET", "/users/\x7bid\x7d/roles", ⟨"sys:users:roles", isOperation_usersRoles⟩, []⟩
    let g : Registry := ⟨[userById, me, roles]⟩
    build [userById, me, roles] = .ok g ∧ (¬ ∃ path values, g.find? "GET" path = some (me, values)) ∧
      ∃ path values, g.find? "GET" path = some (roles, values) := by
  intro me roles g
  have built : build [userById, me, roles] = .ok g := by decide
  obtain ⟨reached, _⟩ := reached_iff_uncovered built
  refine ⟨built, ?_, (reached [userById, me] roles [] rfl).mpr (by decide)⟩
  intro found
  have uncovered := (reached [userById] me [roles] rfl).mp found
  exact uncovered userById (List.mem_singleton_self _) (by decide) (by decide)

/-- Two routes that differ in the name of a placeholder can be registered together. They take the same paths,
and the second is never found. -/
theorem covered_route_lost :
    let byName : Route := ⟨"GET", "/users/\x7bname\x7d", ⟨"sys:users:me", isOperation_usersMe⟩, []⟩
    let g : Registry := ⟨[userById, byName]⟩
    build [userById, byName] = .ok g ∧
      (∀ path, (userById.extract? path).isSome = (byName.extract? path).isSome) ∧
        ¬ ∃ path values, g.find? "GET" path = some (byName, values) := by
  intro byName g
  have built : build [userById, byName] = .ok g := by decide
  refine ⟨built, fun path => ?_, ?_⟩
  · rw [Bool.eq_iff_iff, Route.isSome_extract?_iff, Route.isSome_extract?_iff]
    exact Route.matches_same_iff.mpr (by decide) path
  · rintro ⟨path, values, found⟩
    have parts : g.routes = [userById] ++ byName :: [] := rfl
    exact find?_ne_some_of_covers (build_eq_ok_iff.mp built).1 parts (List.mem_singleton_self _)
      (by decide) (by decide) values found

end Registry

end Gatehouse
