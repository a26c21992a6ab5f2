import Gatehouse.Proofs.Table
import Gatehouse.Proofs.Text.Trim
import Gatehouse.Route.Basic

/-!
Filling a template in and reading a path by it.

A template is filled in by putting values in the place of its placeholders (`Route.fill`), and values can be
put there if they are given to its placeholders and to nothing else, are not empty and do not hold a slash
(`Route.Assigns`). Reading is the inverse. What is filled in is read again (`extract?_fill`), whatever the
names of the placeholders are; what is read can be filled in (`assigns_of_extract?`), and if no name
occurs twice, gives the path again but for its outer slashes (`trimOf_fill`).

The values that a path has for a template are read segment by segment (`Reads`), with their names and in order.
-/

namespace Gatehouse.Route

open Text

variable {r : Route} {path name value segment : String} {template rest : List String}
  {pairs : List (String × String)} {values found : Table String String}

/-- What a segment of a template becomes: a placeholder its value, and every other segment stays. -/
def fillSegment (values : Table String String) (segment : String) : String :=
  match placeholder? segment with
  | some name => (values.find? name).getD segment
  | none => segment

/-- The path of a template with values in the place of its placeholders. -/
def fill (r : Route) (values : Table String String) : String :=
  join '/' ((split '/' r.path).map (fillSegment values))

/-- Exactly the placeholders of a route have values, and these are texts that can stand in their place. -/
structure Assigns (r : Route) (values : Table String String) : Prop where
  ascending : values.Ascending
  named : ∀ name, values.contains name = true ↔ name ∈ r.parameters
  given : ∀ name value, values.find? name = some value → value ≠ ""
  whole : ∀ name value, values.find? name = some value → '/' ∉ value.toList

/-! ### Reading segments -/

/-- The placeholders of a row of template segments with what stands in their place. -/
inductive Reads : List String → List String → List (String × String) → Prop where
  | done : Reads [] [] []
  | fixed {segment : String} {template rest : List String} {pairs : List (String × String)} :
      placeholder? segment = none → Reads template rest pairs →
        Reads (segment :: template) (segment :: rest) pairs
  | held {segment name value : String} {template rest : List String}
      {pairs : List (String × String)} : placeholder? segment = some name → value ≠ "" →
        Reads template rest pairs → Reads (segment :: template) (value :: rest) ((name, value) :: pairs)

/-- Segments match when they can be read, and then what is read is added to what was found. -/
theorem matchSegments_eq_some_iff : matchSegments found template rest = some values ↔
    ∃ pairs, Reads template rest pairs ∧
      pairs.foldl (fun t (name, value) => t.insert name value) found = values := by
  constructor
  · intro matching
    fun_induction matchSegments found template rest with
    | case1 found =>
        cases matching
        exact ⟨[], .done, rfl⟩
    | case2 found segment template rest name held => cases matching
    | case3 found segment template value rest name held given ih =>
        obtain ⟨pairs, reads, added⟩ := ih matching
        exact ⟨(name, value) :: pairs, .held held given reads, added⟩
    | case4 found segment template rest fixed ih =>
        obtain ⟨pairs, reads, added⟩ := ih matching
        exact ⟨pairs, .fixed fixed reads, added⟩
    | case5 => cases matching
    | case6 => cases matching
  · rintro ⟨pairs, reads, added⟩
    induction reads generalizing found with
    | done => exact congrArg some added
    | fixed fixed _ ih =>
        rw [matchSegments, fixed]
        exact (if_pos rfl).trans (ih added)
    | held held given _ ih =>
        rw [matchSegments, held]
        exact (if_neg given).trans (ih added)

theorem Reads.names (reads : Reads template rest pairs) :
    pairs.map Prod.fst = template.filterMap placeholder? := by
  induction reads with
  | done => rfl
  | fixed fixed _ ih => rw [ih, List.filterMap_cons_none fixed]
  | held held _ _ ih => rw [List.map_cons, ih, List.filterMap_cons_some held]

theorem Reads.mem (reads : Reads template rest pairs) (mem : (name, value) ∈ pairs) :
    value ≠ "" ∧ value ∈ rest := by
  induction reads with
  | done => cases mem
  | fixed _ _ ih =>
      obtain ⟨given, read⟩ := ih mem
      exact ⟨given, List.mem_cons_of_mem _ read⟩
  | held _ given _ ih =>
      rcases List.mem_cons.mp mem with first | later
      · cases first
        exact ⟨given, List.mem_cons_self ..⟩
      · obtain ⟨given, read⟩ := ih later
        exact ⟨given, List.mem_cons_of_mem _ read⟩

/-- Values that agree with all that was read give the segments again. -/
theorem Reads.fill_eq (reads : Reads template rest pairs)
    (agree : ∀ name value, (name, value) ∈ pairs → values.find? name = some value) :
    template.map (fillSegment values) = rest := by
  induction reads with
  | done => rfl
  | fixed fixed _ ih => rw [List.map_cons, ih agree, fillSegment, fixed]
  | @held _ name value _ _ _ held _ _ ih =>
      have later := ih fun name value mem => agree name value (List.mem_cons_of_mem _ mem)
      rw [List.map_cons, later, fillSegment, held]
      simp only [agree name value (List.mem_cons_self ..), Option.getD_some]

/-- Segments that are filled in are read as they were. -/
theorem reads_fill (given : ∀ name ∈ template.filterMap placeholder?,
      ∃ value, values.find? name = some value ∧ value ≠ "") :
    ∃ pairs, Reads template (template.map (fillSegment values)) pairs ∧
      ∀ name value, (name, value) ∈ pairs → values.find? name = some value := by
  induction template with
  | nil => exact ⟨[], .done, nofun⟩
  | cons segment template ih =>
      cases held : placeholder? segment with
      | none =>
          rw [List.filterMap_cons_none held] at given
          obtain ⟨pairs, reads, agree⟩ := ih given
          have filled : fillSegment values segment = segment := by
            rw [fillSegment, held]
          exact ⟨pairs, by rw [List.map_cons, filled]; exact .fixed held reads, agree⟩
      | some name =>
          rw [List.filterMap_cons_some held, List.forall_mem_cons] at given
          obtain ⟨⟨value, known, content⟩, later⟩ := given
          obtain ⟨pairs, reads, agree⟩ := ih later
          have filled : fillSegment values segment = value := by
            rw [fillSegment, held]
            simp only [known, Option.getD_some]
          refine ⟨(name, value) :: pairs, by rw [List.map_cons, filled]; exact .held held content reads, ?_⟩
          intro name' value' mem
          rcases List.mem_cons.mp mem with first | others
          · cases first
            exact known
          · exact agree name' value' others

/-! ### Segments of paths -/

theorem innerSegments_eq_trimRow (path : String) :
    innerSegments path = trimRow (· = "") (split '/' path) := split_trimOf '/' path

theorem join_innerSegments (path : String) :
    join '/' (innerSegments path) = String.ofList (trimOf (· = '/') path.toList) := join_split _ _

/-- No placeholder is lost with the outer slashes. -/
theorem filterMap_innerSegments (r : Route) :
    (innerSegments r.path).filterMap placeholder? = r.parameters := by
  rw [innerSegments_eq_trimRow, parameters]
  refine filterMap_trimRow fun segment _ empty => ?_
  rw [of_decide_eq_true empty]
  rfl

theorem notMem_of_mem_innerSegments (mem : segment ∈ innerSegments path) : '/' ∉ segment.toList :=
  notMem_of_mem_split mem

theorem fillSegment_eq_empty_iff (assigns : r.Assigns values) :
    fillSegment values segment = "" ↔ segment = "" := by
  unfold fillSegment
  split
  · rename_i name held
    have written : segment ≠ "" := by
      rintro rfl
      cases held
    cases known : values.find? name with
    | none => rfl
    | some value => exact iff_of_false (assigns.given name value known) written
  · rfl

theorem notMem_fillSegment (assigns : r.Assigns values) (whole : '/' ∉ segment.toList) :
    '/' ∉ (fillSegment values segment).toList := by
  unfold fillSegment
  split
  · rename_i name _
    cases known : values.find? name with
    | none => exact whole
    | some value => exact assigns.whole name value known
  · exact whole

/-- Slashes stand in a path that is filled in where they stand in its template. -/
theorem innerSegments_fill (assigns : r.Assigns values) :
    innerSegments (r.fill values) = (innerSegments r.path).map (fillSegment values) := by
  have segments : (split '/' r.path).map (fillSegment values) ≠ [] := by
    simpa using split_ne_nil '/' r.path
  have whole : ∀ segment ∈ (split '/' r.path).map (fillSegment values), '/' ∉ segment.toList := by
    intro segment mem
    obtain ⟨before, cut, rfl⟩ := List.mem_map.mp mem
    exact notMem_fillSegment assigns (notMem_of_mem_split cut)
  rw [innerSegments_eq_trimRow, innerSegments_eq_trimRow, fill, split_join segments whole]
  exact trimRow_map fun segment _ => decide_eq_decide.mpr (fillSegment_eq_empty_iff assigns)

/-! ### Paths -/

/-- A path has the parameters that are read from its segments; of a name that occurs twice the last counts. -/
theorem extract?_eq_some_iff : r.extract? path = some values ↔
    ∃ pairs, Reads (innerSegments r.path) (innerSegments path) pairs ∧
      Table.ofList pairs = values := matchSegments_eq_some_iff

theorem mem_of_find?_ofList (known : (Table.ofList pairs).find? name = some value) :
    (name, value) ∈ pairs := by
  rw [Table.find?_ofList] at known
  exact List.mem_reverse.mp (Table.mem_of_lookup known)

theorem contains_ofList_iff :
    (Table.ofList pairs).contains name = true ↔ name ∈ pairs.map Prod.fst := by
  rw [Table.contains, Table.find?_ofList, Table.lookup_isSome_iff, List.map_reverse, List.mem_reverse]

/-- What is filled in is read again. -/
theorem extract?_fill (assigns : r.Assigns values) : r.extract? (r.fill values) = some values := by
  have given : ∀ name ∈ (innerSegments r.path).filterMap placeholder?,
      ∃ value, values.find? name = some value ∧ value ≠ "" := by
    intro name mem
    rw [filterMap_innerSegments] at mem
    obtain ⟨value, known⟩ := Option.isSome_iff_exists.mp ((assigns.named name).mpr mem)
    exact ⟨value, known, assigns.given name value known⟩
  obtain ⟨pairs, reads, agree⟩ := reads_fill given
  rw [← innerSegments_fill assigns] at reads
  refine extract?_eq_some_iff.mpr ⟨pairs, reads, ?_⟩
  refine (Table.ascending_ofList pairs).ext assigns.ascending fun name => ?_
  have named : (Table.ofList pairs).contains name = values.contains name := by
    rw [Bool.eq_iff_iff, contains_ofList_iff, reads.names, filterMap_innerSegments, assigns.named]
  cases known : (Table.ofList pairs).find? name with
  | none =>
      cases there : values.find? name with
      | none => rfl
      | some value => simp [Table.contains, known, there] at named
  | some value => exact (agree name value (mem_of_find?_ofList known)).symm

/-- What is read can be filled in. -/
theorem assigns_of_extract? (read : r.extract? path = some values) : r.Assigns values := by
  obtain ⟨pairs, reads, rfl⟩ := extract?_eq_some_iff.mp read
  have stands : ∀ name value, (Table.ofList pairs).find? name = some value →
      value ≠ "" ∧ value ∈ innerSegments path := fun name value known =>
    reads.mem (mem_of_find?_ofList known)
  exact {
    ascending := Table.ascending_ofList pairs
    named := fun name => by rw [contains_ofList_iff, reads.names, filterMap_innerSegments]
    given := fun name value known => (stands name value known).1
    whole := fun name value known => notMem_of_mem_innerSegments (stands name value known).2 }

/-- What is read gives the path again, but for its outer slashes. -/
theorem trimOf_fill (once : r.parameters.Nodup) (read : r.extract? path = some values) :
    trimOf (· = '/') (r.fill values).toList = trimOf (· = '/') path.toList := by
  have assigns := assigns_of_extract? read
  obtain ⟨pairs, reads, rfl⟩ := extract?_eq_some_iff.mp read
  have different : (pairs.map Prod.fst).Nodup := by
    rw [reads.names, filterMap_innerSegments]
    exact once
  have agree : ∀ name value, (name, value) ∈ pairs →
      (Table.ofList pairs).find? name = some value := fun name value mem =>
    (Table.find?_ofList_of_nodup different).mpr mem
  have segments : innerSegments (r.fill (Table.ofList pairs)) = innerSegments path := by
    rw [innerSegments_fill assigns, reads.fill_eq agree]
  have inner := congrArg (join '/') segments
  rw [join_innerSegments, join_innerSegments] at inner
  exact String.ofList_injective inner

-- Of two placeholders with one name only the last one's value is read, and the first one's is lost.
example : let r : Route := ⟨"GET", "/\x7ba\x7d/\x7ba\x7d", ⟨"org:team:view", by decide⟩, []⟩
    r.extract? "/x/y" = some (.ofList [("a", "y")]) ∧ r.fill (.ofList [("a", "y")]) = "/y/y" := by
  decide

end Gatehouse.Route
