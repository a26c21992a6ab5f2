import Gatehouse.Grant
import Gatehouse.Identifier
import Gatehouse.Proofs.Variables.Substitution

/-!
What the templates of resources stand for in a request.

A request gives names to its caller, its organization and its team only, and they stand for numbers
(`OfRequest`). None of the three names begins another, so that one pass puts the number of each in its
place (`OfRequest.substituted`), and a resolved template is the template with the numbers in it
(`resolve_ownTemplate` and its neighbours).
-/

namespace Gatehouse.Variables

variable {vars : Variables} {name value n k : String} {rest result : List Char}

/-- The names that may be bound in a request. -/
def namesOfRequest : List String := [me, org, team]

/-- Only names of a request are bound, and to numbers. -/
structure OfRequest (vars : Variables) : Prop where
  ascending : vars.bindings.Ascending
  bound : ∀ b ∈ vars.bindings.entries, b.1 ∈ namesOfRequest ∧ ∃ n : UInt64, b.2 = toString n

theorem isName_of_mem (mem : name ∈ namesOfRequest) : IsName name := by
  simp only [namesOfRequest, List.mem_cons, List.not_mem_nil, or_false] at mem
  rcases mem with rfl | rfl | rfl
  · exact ⟨['m', 'e'], by decide, List.all_eq_true.mp rfl, rfl⟩
  · exact ⟨['o', 'r', 'g'], by decide, List.all_eq_true.mp rfl, rfl⟩
  · exact ⟨['t', 'e', 'a', 'm'], by decide, List.all_eq_true.mp rfl, rfl⟩

/-- No name of a request begins another one. -/
theorem eq_of_prefix_of_mem {name' : String} {text : List Char} (mem : name ∈ namesOfRequest)
    (mem' : name' ∈ namesOfRequest) (begins : name.toList <+: text) (begins' : name'.toList <+: text) :
    name = name' := by
  have apart : ∀ one ∈ namesOfRequest, ∀ other ∈ namesOfRequest,
      one.toList <+: other.toList → one = other := by
    decide
  rcases List.prefix_or_prefix_of_prefix begins begins' with first | second
  · exact apart _ mem _ mem' first
  · exact (apart _ mem' _ mem second).symm

namespace OfRequest

theorem empty : empty.OfRequest := ⟨Table.ascending_empty, nofun⟩

theorem bind (request : vars.OfRequest) (mem : name ∈ namesOfRequest) (n : UInt64) :
    (vars.bind name (toString n)).OfRequest where
  ascending := request.ascending.insert _ _
  bound b listed := by
    rcases Table.mem_entries_insert listed with rfl | before
    · exact ⟨mem, n, rfl⟩
    · exact request.bound b before

variable (request : vars.OfRequest)

include request

theorem plain : Plain vars.bindings.entries where
  once := request.ascending.nodup_keys
  names b mem := isName_of_mem (request.bound b mem).1
  values b mem := by
    obtain ⟨_, n, same⟩ := request.bound b mem
    rw [same]
    exact ⟨Text.toString_ne_empty n, Text.isDigits_toString n⟩

theorem mem_entries (bound : vars.find? name = some value) : (name, value) ∈ vars.bindings.entries :=
  (Table.mem_entries_iff request.ascending.nodup_keys).mpr bound

theorem isValue (bound : vars.find? name = some value) : IsValue value :=
  request.plain.values _ (request.mem_entries bound)

/-- A name gives way to its number. -/
theorem substituted (bound : vars.find? name = some value)
    (pass : Substituted vars.bindings.entries rest result) :
    Substituted vars.bindings.entries (name.toList ++ rest) (value.toList ++ result) := by
  have listed := request.mem_entries bound
  refine .value listed (fun b mem begins => ?_) pass
  rw [eq_of_prefix_of_mem (request.bound b mem).1 (request.bound _ listed).1 begins
    (List.prefix_append ..)]

/-- Text without an `@` has no name in it. -/
theorem resolve_of_notMem {template : String} (absent : '@' ∉ template.toList) :
    vars.resolve template = template := by
  have pass := Substituted.append request.plain absent .nil
  rw [List.append_nil] at pass
  exact resolve_eq request.plain pass

/-! ### The templates of resources -/

theorem resolve_ownTemplate (bound : vars.find? me = some n) :
    vars.resolve Grant.ownTemplate = "self:user:" ++ n := by
  have pass := (request.substituted bound .nil).append request.plain
    (show '@' ∉ "self:user:".toList by decide)
  refine resolve_eq request.plain ?_
  rw [List.append_nil, List.append_nil] at pass
  rwa [String.toList_append]

theorem resolve_orgTemplate (bound : vars.find? org = some n) :
    vars.resolve Grant.orgTemplate = "org." ++ n ++ ":*:*" := by
  have behind := Substituted.append request.plain (show '@' ∉ ":*:*".toList by decide) .nil
  have pass := (request.substituted bound behind).append request.plain
    (show '@' ∉ "org.".toList by decide)
  refine resolve_eq request.plain ?_
  rw [String.toList_append, String.toList_append, List.append_assoc]
  exact pass

theorem resolve_teamTemplate (boundOrg : vars.find? org = some n) (boundTeam : vars.find? team = some k) :
    vars.resolve Grant.teamTemplate = "org." ++ n ++ ".team." ++ k ++ ":*:*" := by
  have behind := Substituted.append request.plain (show '@' ∉ ":*:*".toList by decide) .nil
  have between := (request.substituted boundTeam behind).append request.plain
    (show '@' ∉ ".team.".toList by decide)
  have pass := (request.substituted boundOrg between).append request.plain
    (show '@' ∉ "org.".toList by decide)
  refine resolve_eq request.plain ?_
  simp only [String.toList_append, List.append_assoc]
  exact pass

end OfRequest

end Gatehouse.Variables
