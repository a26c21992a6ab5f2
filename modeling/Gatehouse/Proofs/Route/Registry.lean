import Gatehouse.Chain.Basic
import Gatehouse.Proofs.Table

/-!
What a registry makes of a list of routes.

Routes can be registered together if each of them with a team has an organization too, no two guard one
operation, and no two have one method and one template (`Registrable`). A route that breaks a rule after others
clashes with them (`Clash`). A registry is built if its routes can be registered together, and otherwise the
first route that clashes with those before it is told (`build_eq_ok_iff` and `build_eq_error_iff`). Both follow
from what is true of one more route (`add_eq_ok_iff` and `add_eq_error_iff`) by induction on the list.

Operations need not be searched. A registry that also keeps the place of every operation, and which methods and
templates have been seen (`Kept`), is built alike and finds the same routes (`kept_build` and `get?_kept`). The
main statement is `build_faithful`.
-/

namespace Gatehouse.Registry

variable {g g' : Registry} {r : Route} {routes before : List Route} {err : Error} {op : String}

/-- Every route with a team has an organization. -/
def Paired (g : Registry) : Prop := ∀ r ∈ g.routes, r.needsTeam = true → r.needsOrg = true

/-- Routes that can be registered together. -/
structure Registrable (routes : List Route) : Prop where
  paired : ∀ r ∈ routes, r.needsTeam = true → r.needsOrg = true
  operations : (routes.map (·.operation.text)).Nodup
  paths : (routes.map fun r => (r.method, r.path)).Nodup

/-- A route cannot be registered after others. The error tells the first of the rules that it breaks. -/
inductive Clash (earlier : List Route) (r : Route) : Error → Prop where
  | teamWithoutOrg : ¬ (r.needsTeam = true → r.needsOrg = true) →
      Clash earlier r (.teamWithoutOrg r.method r.path)
  | operationTaken {first : Route} : (r.needsTeam = true → r.needsOrg = true) → first ∈ earlier →
      first.operation.text = r.operation.text → Clash earlier r (.operationTaken r.operation.text)
  | routeTaken {first : Route} : (r.needsTeam = true → r.needsOrg = true) →
      (∀ other ∈ earlier, other.operation.text ≠ r.operation.text) → first ∈ earlier →
        (first.method, first.path) = (r.method, r.path) →
          Clash earlier r (.routeTaken r.method r.path first.operation.text r.operation.text)

theorem Clash.kind (clash : Clash before r err) : err.kind = .badRequest := by
  cases clash <;> rfl

/-! ### Routes that can be registered together -/

theorem registrable_nil : Registrable [] := ⟨nofun, .nil, .nil⟩

theorem Registrable.sublist (fit : Registrable routes) (sub : before.Sublist routes) :
    Registrable before where
  paired r mem := fit.paired r (sub.subset mem)
  operations := fit.operations.sublist (sub.map _)
  paths := fit.paths.sublist (sub.map _)

/-- One more route can be registered if it does not clash with the others. -/
theorem registrable_concat : Registrable (routes ++ [r]) ↔ Registrable routes ∧
    (r.needsTeam = true → r.needsOrg = true) ∧
      (∀ other ∈ routes, other.operation.text ≠ r.operation.text) ∧
        ∀ other ∈ routes, (other.method, other.path) ≠ (r.method, r.path) := by
  have operations : ((routes ++ [r]).map (·.operation.text)).Nodup ↔
      (routes.map (·.operation.text)).Nodup ∧
        ∀ other ∈ routes, other.operation.text ≠ r.operation.text := by
    simp [List.nodup_append]
  have paths : ((routes ++ [r]).map fun r => (r.method, r.path)).Nodup ↔
      (routes.map fun r => (r.method, r.path)).Nodup ∧
        ∀ other ∈ routes, (other.method, other.path) ≠ (r.method, r.path) := by
    simp [List.nodup_append]
  constructor
  · intro fit
    have known := fit.sublist (List.sublist_append_left routes [r])
    exact ⟨known, fit.paired r (by simp), (operations.mp fit.operations).2, (paths.mp fit.paths).2⟩
  · rintro ⟨fit, whole, operation, path⟩
    refine ⟨fun other mem => ?_, operations.mpr ⟨fit.operations, operation⟩,
      paths.mpr ⟨fit.paths, path⟩⟩
    rcases List.mem_append.mp mem with known | last
    · exact fit.paired other known
    · obtain rfl := List.mem_singleton.mp last
      exact whole

theorem registrable_concat_iff_not_clash (fit : Registrable routes) :
    Registrable (routes ++ [r]) ↔ ∀ err, ¬ Clash routes r err := by
  rw [registrable_concat, and_iff_right fit]
  constructor
  · rintro ⟨whole, operation, path⟩ err clash
    cases clash with
    | teamWithoutOrg lone => exact lone whole
    | operationTaken _ mem same => exact operation _ mem same
    | routeTaken _ _ mem same => exact path _ mem same
  · intro fits
    have whole : r.needsTeam = true → r.needsOrg = true := by
      by_contra lone
      exact fits _ (.teamWithoutOrg lone)
    have operation : ∀ other ∈ routes, other.operation.text ≠ r.operation.text :=
      fun other mem same => fits _ (.operationTaken whole mem same)
    exact ⟨whole, operation, fun other mem same => fits _ (.routeTaken whole operation mem same)⟩

/-- What has a key of its own is found by it. -/
theorem find?_eq_some_iff_of_nodup {α κ : Type} [DecidableEq κ] (key : α → κ) {k : κ} {x : α}
    {xs : List α} (once : (xs.map key).Nodup) :
    xs.find? (fun x => key x = k) = some x ↔ x ∈ xs ∧ key x = k := by
  constructor
  · intro found
    exact ⟨List.mem_of_find?_eq_some found, by simpa using List.find?_some found⟩
  · rintro ⟨mem, rfl⟩
    cases found : xs.find? (fun y => key y = key x) with
    | none => simpa using List.find?_eq_none.mp found x mem
    | some y =>
        have same : key y = key x := by simpa using List.find?_some found
        exact congrArg some (List.inj_on_of_nodup_map once (List.mem_of_find?_eq_some found) mem same)

theorem withPath?_eq (g : Registry) (method path : String) :
    g.withPath? method path = g.routes.find? fun r => (r.method, r.path) = (method, path) := by
  simp only [withPath?, Prod.mk.injEq, Bool.decide_and]

/-- The route of an operation is the one that guards it. -/
theorem get?_eq_some_iff (fit : Registrable g.routes) :
    g.get? op = some r ↔ r ∈ g.routes ∧ r.operation.text = op :=
  find?_eq_some_iff_of_nodup (fun r : Route => r.operation.text) fit.operations

theorem get?_eq_none_iff : g.get? op = none ↔ ∀ r ∈ g.routes, r.operation.text ≠ op := by
  simp [get?, List.find?_eq_none]

/-! ### Registering routes -/

/-- One more route is refused if it clashes with those that are registered. -/
theorem add_eq_error_iff (fit : Registrable g.routes) :
    g.add r = .error err ↔ Clash g.routes r err := by
  have search : ∀ {first}, g.withPath? r.method r.path = some first ↔
      first ∈ g.routes ∧ (first.method, first.path) = (r.method, r.path) := by
    intro first
    rw [withPath?_eq]
    exact find?_eq_some_iff_of_nodup (fun r : Route => (r.method, r.path)) fit.paths
  unfold add
  constructor
  · intro refused
    split at refused
    · rename_i lone
      cases refused
      exact .teamWithoutOrg (by simpa using lone)
    rename_i whole
    have whole : r.needsTeam = true → r.needsOrg = true := by simpa using whole
    split at refused
    · rename_i taken
      cases refused
      obtain ⟨first, guards⟩ := Option.isSome_iff_exists.mp taken
      obtain ⟨mem, same⟩ := (get?_eq_some_iff fit).mp guards
      exact .operationTaken whole mem same
    rename_i free
    have free : ∀ other ∈ g.routes, other.operation.text ≠ r.operation.text :=
      get?_eq_none_iff.mp (by simpa using free)
    split at refused
    · rename_i first found
      cases refused
      obtain ⟨mem, same⟩ := search.mp found
      exact .routeTaken whole free mem same
    · cases refused
  · intro clash
    cases clash with
    | teamWithoutOrg lone => exact if_pos (by simpa using lone)
    | operationTaken whole mem same =>
        have taken := Option.isSome_of_mem ((get?_eq_some_iff fit).mpr ⟨mem, same⟩)
        rw [if_neg (by simpa using whole), if_pos taken]
    | routeTaken whole free mem same =>
        have free := get?_eq_none_iff.mpr free
        rw [if_neg (by simpa using whole), free, search.mpr ⟨mem, same⟩]
        rfl

/-- One more route is registered if it fits, and comes last. -/
theorem add_eq_ok_iff (fit : Registrable g.routes) :
    g.add r = .ok g' ↔ Registrable (g.routes ++ [r]) ∧ ⟨g.routes ++ [r]⟩ = g' := by
  have last : ∀ {g'}, g.add r = .ok g' → ⟨g.routes ++ [r]⟩ = g' := by
    intro g' added
    unfold add at added
    split at added
    · cases added
    split at added
    · cases added
    split at added
    · cases added
    · exact Except.ok.inj added
  rw [registrable_concat_iff_not_clash fit]
  cases added : g.add r with
  | error err =>
      have clash := (add_eq_error_iff fit).mp added
      exact iff_of_false nofun fun ⟨fits, _⟩ => fits err clash
  | ok g'' =>
      have fits : ∀ err, ¬ Clash g.routes r err := by
        intro err clash
        rw [(add_eq_error_iff fit).mpr clash] at added
        cases added
      rw [and_iff_right fits, last added]
      exact ⟨Except.ok.inj, congrArg Except.ok⟩

/-- Routes are registered if they all fit, in their order. -/
theorem addAll_eq_ok_iff (fit : Registrable g.routes) :
    g.addAll routes = .ok g' ↔ Registrable (g.routes ++ routes) ∧ ⟨g.routes ++ routes⟩ = g' := by
  induction routes generalizing g with
  | nil =>
      rw [List.append_nil, and_iff_right fit]
      exact ⟨Except.ok.inj, congrArg Except.ok⟩
  | cons r rest ih =>
      rw [addAll, List.append_cons]
      cases added : g.add r with
      | error err =>
          refine iff_of_false nofun fun ⟨all, _⟩ => ?_
          have fits := all.sublist (List.sublist_append_left (g.routes ++ [r]) rest)
          rw [(add_eq_ok_iff fit).mpr ⟨fits, rfl⟩] at added
          cases added
      | ok g'' =>
          obtain ⟨fits, rfl⟩ := (add_eq_ok_iff fit).mp added
          exact ih fits

/-- A place in a list is the first one or a place in the rest. -/
theorem exists_place_cons {P : List Route → Route → Prop} :
    (∃ before last after, r :: routes = before ++ last :: after ∧ P before last) ↔
      P [] r ∨ ∃ before last after, routes = before ++ last :: after ∧ P (r :: before) last := by
  constructor
  · rintro ⟨before, last, after, parts, holds⟩
    cases before with
    | nil =>
        obtain ⟨rfl, rfl⟩ := List.cons.inj parts
        exact .inl holds
    | cons first before =>
        obtain ⟨rfl, rfl⟩ := List.cons.inj parts
        exact .inr ⟨before, last, after, rfl, holds⟩
  · rintro (holds | ⟨before, last, after, rfl, holds⟩)
    · exact ⟨[], r, routes, rfl, holds⟩
    · exact ⟨r :: before, last, after, rfl, holds⟩

/-- Otherwise the first that does not fit is told. -/
theorem addAll_eq_error_iff (fit : Registrable g.routes) :
    g.addAll routes = .error err ↔ ∃ before r after, routes = before ++ r :: after ∧
      Registrable (g.routes ++ before) ∧ Clash (g.routes ++ before) r err := by
  induction routes generalizing g with
  | nil => exact iff_of_false nofun (by simp)
  | cons r rest ih =>
      rw [addAll, exists_place_cons (P := fun before r =>
        Registrable (g.routes ++ before) ∧ Clash (g.routes ++ before) r err), List.append_nil,
        and_iff_right fit]
      cases added : g.add r with
      | error err' =>
          have clash := (add_eq_error_iff fit).mp added
          have none_later : ¬ ∃ before last after, rest = before ++ last :: after ∧
              Registrable (g.routes ++ r :: before) ∧ Clash (g.routes ++ r :: before) last err := by
            rintro ⟨before, _, _, _, fits, _⟩
            rw [List.append_cons] at fits
            have fits := fits.sublist (List.sublist_append_left (g.routes ++ [r]) before)
            exact (registrable_concat_iff_not_clash fit).mp fits err' clash
          rw [or_iff_left none_later, ← add_eq_error_iff fit, added]
      | ok g'' =>
          obtain ⟨fits, rfl⟩ := (add_eq_ok_iff fit).mp added
          rw [or_iff_right ((registrable_concat_iff_not_clash fit).mp fits err)]
          simpa only [List.append_assoc, List.singleton_append] using ih fits

theorem build_eq_ok_iff : build routes = .ok g ↔ Registrable routes ∧ ⟨routes⟩ = g :=
  addAll_eq_ok_iff (g := empty) registrable_nil

theorem build_eq_error_iff : build routes = .error err ↔ ∃ before r after,
    routes = before ++ r :: after ∧ Registrable before ∧ Clash before r err :=
  addAll_eq_error_iff (g := empty) registrable_nil

/-- The routes that are built keep the rule that teams need organizations. -/
theorem paired_of_build (built : build routes = .ok g) : g.Paired := by
  obtain ⟨fit, rfl⟩ := build_eq_ok_iff.mp built
  exact fit.paired

/-! ### Registries with an index -/

/-- A registry as it is kept: its routes in a row, where the route of every operation stands, and the operations
that the methods and templates seen so far belong to, the latest first. -/
structure Kept where
  routes : List Route
  places : Table String Nat
  seen : List ((String × String) × String)

/-- Registers one more route, and looks nothing up but the place of its operation and what has been seen. -/
def Kept.add (k : Kept) (r : Route) : Except Error Kept :=
  if r.needsTeam && !r.needsOrg then .error (.teamWithoutOrg r.method r.path)
  else if k.places.contains r.operation.text then .error (.operationTaken r.operation.text)
  else match Table.lookup (r.method, r.path) k.seen with
    | some first => .error (.routeTaken r.method r.path first r.operation.text)
    | none => .ok ⟨k.routes ++ [r], k.places.insert r.operation.text k.routes.length,
        ((r.method, r.path), r.operation.text) :: k.seen⟩

/-- Registers further routes. -/
def Kept.addAll (k : Kept) : List Route → Except Error Kept
  | [] => .ok k
  | r :: rest =>
    match k.add r with
    | .ok k => addAll k rest
    | .error e => .error e

/-- Registers a list of routes. -/
def Kept.build (routes : List Route) : Except Error Kept := addAll ⟨[], .empty, []⟩ routes

/-- The route at the place of an operation. -/
def Kept.get? (k : Kept) (op : String) : Option Route := (k.places.find? op).bind (k.routes[·]?)

/-- A registry with its index. -/
def kept (g : Registry) : Kept where
  routes := g.routes
  places := .ofList (g.routes.zipIdx.map fun (r, place) => (r.operation.text, place))
  seen := (g.routes.map fun r => ((r.method, r.path), r.operation.text)).reverse

theorem find?_places (fit : Registrable g.routes) {place : Nat} :
    g.kept.places.find? op = some place ↔ ∃ r, g.routes[place]? = some r ∧ r.operation.text = op := by
  have keys : (g.routes.zipIdx.map fun (r, place) => (r.operation.text, place)).map Prod.fst =
      g.routes.map (·.operation.text) := by
    conv_rhs => rw [← List.zipIdx_map_fst 0 g.routes]
    rw [List.map_map, List.map_map]
    rfl
  rw [kept, Table.find?_ofList_of_nodup (keys ▸ fit.operations)]
  simp only [List.mem_map, Prod.exists, Prod.mk.injEq, List.mem_zipIdx_iff_getElem?]
  constructor
  · rintro ⟨r, _, found, same, rfl⟩
    exact ⟨r, found, same⟩
  · rintro ⟨r, found, same⟩
    exact ⟨r, place, found, same, rfl⟩

/-- The index leads to the route of an operation. -/
theorem get?_kept (fit : Registrable g.routes) (op : String) : g.kept.get? op = g.get? op := by
  ext r
  rw [get?_eq_some_iff fit, Kept.get?, Option.bind_eq_some_iff]
  constructor
  · rintro ⟨place, known, found⟩
    obtain ⟨first, there, same⟩ := (find?_places fit).mp known
    cases there.symm.trans found
    exact ⟨List.mem_of_getElem? found, same⟩
  · rintro ⟨mem, same⟩
    obtain ⟨place, found⟩ := List.mem_iff_getElem?.mp mem
    exact ⟨place, (find?_places fit).mpr ⟨r, found, same⟩, found⟩

theorem contains_places (fit : Registrable g.routes) (op : String) :
    g.kept.places.contains op = (g.get? op).isSome := by
  rw [Table.contains, Bool.eq_iff_iff, Option.isSome_iff_exists, Option.isSome_iff_exists]
  simp only [find?_places fit, get?_eq_some_iff fit, List.mem_iff_getElem?]
  constructor
  · rintro ⟨place, r, found, same⟩
    exact ⟨r, ⟨place, found⟩, same⟩
  · rintro ⟨r, ⟨place, found⟩, same⟩
    exact ⟨place, r, found, same⟩

theorem lookup_seen (fit : Registrable g.routes) (method path : String) :
    Table.lookup (method, path) g.kept.seen =
      (g.withPath? method path).map (·.operation.text) := by
  have once : (g.kept.seen.map Prod.fst).Nodup := by
    rw [kept, List.map_reverse, (List.reverse_perm _).nodup_iff, List.map_map]
    exact fit.paths
  ext first
  rw [withPath?_eq, Option.map_eq_some_iff]
  simp only [find?_eq_some_iff_of_nodup (fun r : Route => (r.method, r.path)) fit.paths]
  constructor
  · intro found
    have mem := List.mem_reverse.mp (Table.mem_of_lookup found)
    obtain ⟨r, known, same⟩ := List.mem_map.mp mem
    cases same
    exact ⟨r, ⟨known, rfl⟩, rfl⟩
  · rintro ⟨r, ⟨known, same⟩, rfl⟩
    rw [← same]
    exact Table.lookup_of_mem once (List.mem_reverse.mpr (List.mem_map_of_mem known))

/-- With an index, one more route is registered as without one. -/
theorem kept_add (fit : Registrable g.routes) : g.kept.add r = (g.add r).map kept := by
  unfold Kept.add add
  rw [contains_places fit, lookup_seen fit]
  split
  · rfl
  split
  · rfl
  cases g.withPath? r.method r.path with
  | some first => rfl
  | none =>
      have places : (g.routes ++ [r]).zipIdx.map (fun (r, place) => (r.operation.text, place)) =
          g.routes.zipIdx.map (fun (r, place) => (r.operation.text, place)) ++
            [(r.operation.text, g.routes.length)] := by
        simp [List.zipIdx_append]
      refine congrArg Except.ok ?_
      simp only [kept, places, Table.ofList_concat, List.map_append, List.reverse_append]
      rfl

theorem kept_addAll (fit : Registrable g.routes) :
    g.kept.addAll routes = (g.addAll routes).map kept := by
  induction routes generalizing g with
  | nil => rfl
  | cons r rest ih =>
      rw [Kept.addAll, addAll, kept_add fit]
      cases added : g.add r with
      | error err => rfl
      | ok g' =>
          obtain ⟨fits, rfl⟩ := (add_eq_ok_iff fit).mp added
          exact ih fits

/-- With an index, the same registries are built. -/
theorem kept_build (routes : List Route) : Kept.build routes = (build routes).map kept :=
  kept_addAll (g := empty) registrable_nil

/-! ### Chains of registered routes -/

theorem get?_assemble {σ : Type} (g : Registry) (concerns : Concerns σ) (op : String) :
    (ChainTable.assemble g concerns).get? op = (g.get? op).map (Chain.build · concerns) := by
  rw [ChainTable.get?, ChainTable.assemble, List.find?_map]
  rfl

/-- Chains can be kept by the operations of their routes, and none takes the place of another. -/
theorem ofList_assemble {σ : Type} (fit : Registrable g.routes) (concerns : Concerns σ) :
    let t : Table String (Chain σ) :=
      .ofList ((ChainTable.assemble g concerns).chains.map fun c => (c.route.operation.text, c))
    t.size = g.routes.length ∧ ∀ op, t.find? op = (g.get? op).map (Chain.build · concerns) := by
  intro t
  have once : (((ChainTable.assemble g concerns).chains.map fun c =>
      (c.route.operation.text, c)).map Prod.fst).Nodup := by
    rw [ChainTable.assemble, List.map_map, List.map_map]
    exact fit.operations
  constructor
  · refine (Table.entries_ofList_perm once).length_eq.trans ?_
    simp [ChainTable.assemble]
  · intro op
    ext c
    rw [Table.find?_ofList_of_nodup once, Option.map_eq_some_iff]
    simp only [ChainTable.assemble, List.map_map, List.mem_map, get?_eq_some_iff fit]
    constructor
    · rintro ⟨r, mem, same⟩
      cases same
      exact ⟨r, ⟨mem, rfl⟩, rfl⟩
    · rintro ⟨r, ⟨mem, rfl⟩, rfl⟩
      exact ⟨r, mem, rfl⟩

/-! ### Requests -/

/-- A route takes a request with a method and a path, which has these parameters by its template. -/
def Takes (method path : String) (r : Route) (values : Table String String) : Prop :=
  Text.sameLetters r.method method = true ∧ r.extract? path = some values

theorem taken_iff {method path : String} {found : Route × Table String String} :
    (if Text.sameLetters r.method method then (r.extract? path).map fun values => (r, values) else none) =
      some found ↔ found.1 = r ∧ Takes method path r found.2 := by
  obtain ⟨r', values⟩ := found
  by_cases same : Text.sameLetters r.method method = true
  · rw [if_pos same, Option.map_eq_some_iff]
    constructor
    · rintro ⟨_, read, ⟨⟩⟩
      exact ⟨rfl, same, read⟩
    · rintro ⟨rfl, _, read⟩
      exact ⟨values, read, rfl⟩
  · simp [Takes, same]

theorem not_taken_iff {method path : String} :
    (if Text.sameLetters r.method method then (r.extract? path).map fun values => (r, values) else none) =
      none ↔ ∀ values, ¬ Takes method path r values := by
  rw [Option.eq_none_iff_forall_ne_some]
  constructor
  · intro nothing values takes
    exact nothing (r, values) (taken_iff.mpr ⟨rfl, takes⟩)
  · intro nothing found taken
    exact nothing found.2 (taken_iff.mp taken).2

/-- The first route that takes a request is found for it. -/
theorem find?_eq_some_iff {method path : String} {values : Table String String} :
    g.find? method path = some (r, values) ↔ ∃ before after, g.routes = before ++ r :: after ∧
      Takes method path r values ∧ ∀ other ∈ before, ∀ values, ¬ Takes method path other values := by
  rw [find?, List.findSome?_eq_some_iff]
  simp only [taken_iff, not_taken_iff]
  constructor
  · rintro ⟨before, _, after, parts, ⟨rfl, takes⟩, earlier⟩
    exact ⟨before, after, parts, takes, earlier⟩
  · rintro ⟨before, after, parts, takes, earlier⟩
    exact ⟨before, r, after, parts, ⟨rfl, takes⟩, earlier⟩

theorem find?_eq_none_iff {method path : String} :
    g.find? method path = none ↔ ∀ r ∈ g.routes, ∀ values, ¬ Takes method path r values := by
  rw [find?, List.findSome?_eq_none_iff]
  simp only [not_taken_iff]

/-! ### What is built -/

/-- **Registries are faithful to the routes that are listed.** A registry is built exactly when the routes can
be registered together; otherwise the first route of the list that clashes with those before it is refused, as
a bad request. A registry that is built lists the routes in their order. An operation has the one route that
guards it, be it searched or looked up by an index, and a request has the first route that takes it, with the
parameters of its path. The chains are as many as the routes, and the chain of an operation is the one that its
route needs, also if chains are kept by the operations of their routes. -/
theorem build_faithful (routes : List Route) :
    ((∃ g, build routes = .ok g) ↔ Registrable routes) ∧
    (∀ err, build routes = .error err ↔ ∃ before r after, routes = before ++ r :: after ∧
      Registrable before ∧ Clash before r err) ∧
    (∀ err, build routes = .error err → err.kind = .badRequest) ∧
    Kept.build routes = (build routes).map kept ∧
    ∀ g, build routes = .ok g →
      g.routes = routes ∧
      (∀ op, (∀ r, g.get? op = some r ↔ r ∈ routes ∧ r.operation.text = op) ∧
        (g.get? op = none ↔ ∀ r ∈ routes, r.operation.text ≠ op) ∧ g.kept.get? op = g.get? op) ∧
      (∀ method path,
        (∀ r values, g.find? method path = some (r, values) ↔
          ∃ before after, routes = before ++ r :: after ∧ Takes method path r values ∧
            ∀ other ∈ before, ∀ values, ¬ Takes method path other values) ∧
        (g.find? method path = none ↔ ∀ r ∈ routes, ∀ values, ¬ Takes method path r values)) ∧
      ∀ (σ : Type) (concerns : Concerns σ),
        let table := ChainTable.assemble g concerns
        let byOperation : Table String (Chain σ) :=
          .ofList (table.chains.map fun c => (c.route.operation.text, c))
        table.size = routes.length ∧ byOperation.size = routes.length ∧
          ∀ op, table.get? op = (g.get? op).map (Chain.build · concerns) ∧
            byOperation.find? op = table.get? op := by
  refine ⟨?_, fun err => build_eq_error_iff, ?_, kept_build routes, ?_⟩
  · simp only [build_eq_ok_iff, exists_and_left, exists_eq', and_true]
  · intro err refused
    obtain ⟨_, _, _, _, _, clash⟩ := build_eq_error_iff.mp refused
    exact clash.kind
  · intro g built
    obtain ⟨fit, rfl⟩ := build_eq_ok_iff.mp built
    refine ⟨rfl, fun op => ⟨fun r => get?_eq_some_iff fit, get?_eq_none_iff, get?_kept fit op⟩,
      fun method path => ⟨fun r values => find?_eq_some_iff, find?_eq_none_iff⟩, ?_⟩
    intro σ concerns table byOperation
    obtain ⟨size, found⟩ := ofList_assemble fit concerns
    refine ⟨List.length_map _, size, fun op => ⟨get?_assemble _ concerns op, ?_⟩⟩
    rw [get?_assemble]
    exact found op

/-- A public page is registered and found, whatever the case of the method; a second time it is refused. -/
theorem about_registered :
    let about : Route := ⟨"GET", "/about", ⟨"public:about:view", by decide⟩, []⟩
    let g : Registry := ⟨[about]⟩
    build [about] = .ok g ∧ Registrable [about] ∧ g.get? "public:about:view" = some about ∧
      g.find? "get" "/about/" = some (about, .empty) ∧
      build [about, about] = .error (.operationTaken "public:about:view") ∧
      (Error.operationTaken "public:about:view").kind = .badRequest := by
  intro about g
  obtain ⟨fits, _, _, _, built⟩ := build_faithful [about]
  obtain ⟨_, _, bad, _, _⟩ := build_faithful [about, about]
  have once : build [about] = .ok g := by decide
  have twice : build [about, about] = .error (.operationTaken "public:about:view") := by decide
  obtain ⟨_, operations, requests, _⟩ := built g once
  refine ⟨once, fits.mp ⟨g, once⟩, ?_, ?_, twice, bad _ twice⟩
  · exact ((operations "public:about:view").1 about).mpr ⟨List.mem_singleton_self _, rfl⟩
  · exact ((requests "get" "/about/").1 about .empty).mpr ⟨[], [], rfl, ⟨by decide, by decide⟩, nofun⟩

end Gatehouse.Registry
