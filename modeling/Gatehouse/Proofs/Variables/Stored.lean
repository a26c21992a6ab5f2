import Gatehouse.Proofs.Pattern.Grammar
import Gatehouse.Proofs.Permission
import Gatehouse.Proofs.Standing

/-!
What names in stored resource patterns mean.

Stored patterns are compared with the candidates of an operation as they are stored. All candidates but
one are resolved, and that one names the caller in its last segment. So a pattern that names the caller
there and nothing else (`NamesCallerOnly`) grants just what its resolved form grants
(`isSome_find?_resolve_iff`), and a pattern with names elsewhere grants nothing (`find?_eq_none`).
-/

namespace Gatehouse

open Text

/-! ### Characters of patterns -/

namespace Pattern

variable {p q r c x y z pattern candidate : String} {ps cs : List String} {char : Char}

theorem stem?_of_notMem (plain : '*' ∉ p.toList) : stem? p = none := by
  cases found : stem? p with
  | none => rfl
  | some stem =>
      rw [stem?_eq_some found] at plain
      exact absurd (List.mem_append_right _ (List.mem_singleton_self _)) plain

/-- A segment without a `*` matches itself only. -/
theorem segmentMatches_of_notMem (plain : '*' ∉ p.toList) : segmentMatches p c = decide (p = c) := by
  have fixed : p ≠ wildcard := by
    rintro rfl
    exact plain (List.mem_singleton_self _)
  rw [segmentMatches, stem?_of_notMem plain, decide_eq_false fixed, Bool.false_or]

/-- A segment without a point is matched by `*` and by itself only. -/
theorem eq_of_segmentMatches (matching : segmentMatches p c = true) (fixed : p ≠ wildcard)
    (noPoint : '.' ∉ c.toList) : p = c := by
  rw [segmentMatches, decide_eq_false fixed, Bool.false_or] at matching
  split at matching
  · rename_i stem found
    obtain ⟨s, _, rfl⟩ := stem?_eq_some_iff.mp found
    have begins := List.isPrefixOf_iff_prefix.mp (Bool.and_eq_true_iff.mp matching).1
    exact absurd (begins.subset (by simp)) noPoint
  · exact of_decide_eq_true matching

/-- Patterns and candidates of three segments are compared segment by segment. -/
theorem matchesResource_three (whole : ':' ∉ p.toList) (whole' : ':' ∉ q.toList)
    (whole'' : ':' ∉ r.toList) (apart : ':' ∉ x.toList) (apart' : ':' ∉ y.toList)
    (apart'' : ':' ∉ z.toList) :
    matchesResource (p ++ ":" ++ q ++ ":" ++ r) (x ++ ":" ++ y ++ ":" ++ z) =
      (segmentMatches p x && (segmentMatches q y && segmentMatches r z)) := by
  have segments : split ':' (p ++ ":" ++ q ++ ":" ++ r) = [p, q, r] :=
    split_three whole whole' whole''
  have segments' : split ':' (x ++ ":" ++ y ++ ":" ++ z) = [x, y, z] :=
    split_three apart apart' apart''
  rw [matchesResource, segments, segments']
  by_cases everything : r = wildcard <;> simp [resourceSegmentsMatch, segmentMatches, everything]

/-- A segment has a character that is not in what it matches only when it is `*`. -/
theorem notMem_of_segmentMatches (matching : segmentMatches p c = true) (absent : char ∉ c.toList)
    (noStar : char ≠ '*') : char ∉ p.toList := by
  have star : char ∉ ['*'] := mt List.mem_singleton.mp noStar
  unfold segmentMatches at matching
  rcases Bool.or_eq_true_iff.mp matching with everything | matching
  · rw [of_decide_eq_true everything]
    exact star
  split at matching
  · rename_i stem found
    have begins := List.isPrefixOf_iff_prefix.mp (Bool.and_eq_true_iff.mp matching).1
    rw [stem?_eq_some found]
    exact fun mem => (List.mem_append.mp mem).elim (fun inside => absent (begins.subset inside)) star
  · rwa [of_decide_eq_true matching]

/-- The segments of a pattern have a character only when those that they match have it. -/
theorem notMem_of_resourceSegmentsMatch (matching : resourceSegmentsMatch ps cs = true)
    (absent : ∀ c ∈ cs, char ∉ c.toList) (noStar : char ≠ '*') : ∀ p ∈ ps, char ∉ p.toList := by
  induction ps generalizing cs with
  | nil => exact nofun
  | cons p ps ih =>
      have star : char ∉ wildcard.toList := mt List.mem_singleton.mp noStar
      match ps, cs with
      | [], cs =>
          rw [List.forall_mem_singleton]
          rcases Bool.or_eq_true_iff.mp matching with everything | matching
          · rwa [of_decide_eq_true everything]
          · match cs with
            | [c] => exact notMem_of_segmentMatches matching (absent c (by simp)) noStar
            | [] | _ :: _ :: _ => cases matching
      | next :: ps, [] => cases matching
      | next :: ps, c :: cs =>
          obtain ⟨first, others⟩ := Bool.and_eq_true_iff.mp matching
          obtain ⟨absentFirst, absent⟩ := List.forall_mem_cons.mp absent
          exact List.forall_mem_cons.mpr
            ⟨notMem_of_segmentMatches first absentFirst noStar, ih others absent⟩

/-- A pattern has a character only when the candidates that it matches have it. -/
theorem notMem_of_matchesResource (matching : matchesResource pattern candidate = true)
    (absent : char ∉ candidate.toList) (noStar : char ≠ '*') (noColon : char ≠ ':') :
    char ∉ pattern.toList := by
  rw [notMem_iff_split noColon] at absent ⊢
  exact notMem_of_resourceSegmentsMatch matching absent noStar

end Pattern

/-! ### The candidates of an operation -/

namespace Grant

open Pattern Variables

variable {op : Operation} {vars : Variables} {p : Permission} {first second last c n : String}

/-- A candidate for all resources of a place, which names nothing. -/
def IsPlace (c : String) : Prop :=
  ∃ place, ':' ∉ place.toList ∧ '@' ∉ place.toList ∧ c = place ++ ":" ++ "*" ++ ":" ++ "*"

theorem isPlace_universal : IsPlace universal := ⟨"*", by decide, by decide, by decide⟩

theorem isPlace_org (digits : IsDigits n) : IsPlace ("org." ++ n ++ ":*:*") := by
  refine ⟨"org." ++ n, ?_, ?_, by simp [String.append_assoc]⟩
  · simp [digits.notMem]
  · simp [digits.notMem]

theorem isPlace_team {k : String} (digits : IsDigits n) (digits' : IsDigits k) :
    IsPlace ("org." ++ n ++ ".team." ++ k ++ ":*:*") := by
  refine ⟨"org." ++ n ++ ".team." ++ k, ?_, ?_, by simp [String.append_assoc]⟩
  · simp [digits.notMem, digits'.notMem]
  · simp [digits.notMem, digits'.notMem]

theorem resolveBound_eq_some {template : String} {names : List String}
    (resolved : vars.resolveBound template names = some c) :
    c = vars.resolve template ∧ ∀ name ∈ names, ∃ value, vars.find? name = some value := by
  unfold resolveBound at resolved
  split at resolved
  · rename_i bound
    refine ⟨(Option.some.inj resolved).symm, fun name mem => ?_⟩
    exact Option.isSome_iff_exists.mp (List.all_eq_true.mp bound name mem)
  · cases resolved

/-- A candidate is for a place, or it is the caller of an operation on the own account, as a name or
as a number. -/
theorem mem_candidates (request : vars.OfRequest) (mem : c ∈ candidates op vars) :
    IsPlace c ∨ op.domain? = some .own ∧
      (c = ownTemplate ∨ ∃ n, vars.find? me = some n ∧ c = "self:user:" ++ n) := by
  unfold candidates at mem
  rcases List.mem_cons.mp mem with rfl | mem
  · exact Or.inl isPlace_universal
  split at mem
  · rename_i own
    refine Or.inr ⟨own, ?_⟩
    rcases List.mem_cons.mp mem with rfl | mem
    · exact Or.inl rfl
    · obtain ⟨rfl, bound⟩ := resolveBound_eq_some (Option.mem_toList.mp mem)
      obtain ⟨n, bound⟩ := bound me (by simp)
      exact Or.inr ⟨n, bound, request.resolve_ownTemplate bound⟩
  · refine Or.inl ?_
    rcases List.mem_append.mp mem with mem | mem
    · obtain ⟨rfl, bound⟩ := resolveBound_eq_some (Option.mem_toList.mp mem)
      obtain ⟨n, bound⟩ := bound org (by simp)
      rw [request.resolve_orgTemplate bound]
      exact isPlace_org (request.isValue bound).2
    · obtain ⟨rfl, bound⟩ := resolveBound_eq_some (Option.mem_toList.mp mem)
      obtain ⟨n, boundOrg⟩ := bound org (by simp)
      obtain ⟨k, boundTeam⟩ := bound team (by simp)
      rw [request.resolve_teamTemplate boundOrg boundTeam]
      exact isPlace_team (request.isValue boundOrg).2 (request.isValue boundTeam).2
  · cases mem

theorem candidates_ne_nil : candidates op vars ≠ [] := List.cons_ne_nil _ _

theorem ownTemplate_mem_candidates (own : op.domain? = some .own) :
    ownTemplate ∈ candidates op vars := by
  simp [candidates, own]

theorem own_mem_candidates (request : vars.OfRequest) (own : op.domain? = some .own)
    (bound : vars.find? me = some n) : "self:user:" ++ n ∈ candidates op vars := by
  have resolved : vars.resolveBound ownTemplate [me] = some ("self:user:" ++ n) := by
    have known : vars.isBound me = true := Option.isSome_iff_exists.mpr ⟨n, bound⟩
    rw [resolveBound, if_pos (by simp [known]), request.resolve_ownTemplate bound]
  simp [candidates, own, resolved]

/-! ### Patterns with names -/

/-- A resource pattern without a name, or of three segments of which the last is the caller's name and
the others have none. -/
inductive NamesCallerOnly : String → Prop where
  | plain {pattern : String} (absent : '@' ∉ pattern.toList) : NamesCallerOnly pattern
  | caller {first second : String} (absent : '@' ∉ first.toList) (absent' : '@' ∉ second.toList)
      (whole : ':' ∉ first.toList) (whole' : ':' ∉ second.toList) :
      NamesCallerOnly (first ++ ":" ++ second ++ ":" ++ me)

/-- Such a pattern ends in the name of the caller if there is a name in it. -/
theorem NamesCallerOnly.getLast?_eq {pattern : String} (form : NamesCallerOnly pattern)
    (named : '@' ∈ pattern.toList) : (split ':' pattern).getLast? = some me := by
  cases form with
  | plain absent => exact absurd named absent
  | @caller first second _ _ whole whole' =>
      have segments : split ':' (first ++ ":" ++ second ++ ":" ++ me) = [first, second, me] :=
        split_three whole whole' (by decide)
      rw [segments]
      rfl

/-- What a pattern of three segments matches that ends in a text for itself only: the caller, by the
name or by the number, when the first segments leave room for it. -/
theorem exists_match_iff (request : vars.OfRequest) (whole : ':' ∉ first.toList)
    (whole' : ':' ∉ second.toList) (whole'' : ':' ∉ last.toList) (plain : '*' ∉ last.toList) :
    (∃ c ∈ candidates op vars,
        matchesResource (first ++ ":" ++ second ++ ":" ++ last) c = true) ↔
      op.domain? = some .own ∧ segmentMatches first "self" = true ∧
        segmentMatches second "user" = true ∧ (last = me ∨ vars.find? me = some last) := by
  have fixed : last ≠ "*" := by
    rintro rfl
    exact plain (List.mem_singleton_self _)
  have compared : ∀ z : String, ':' ∉ z.toList →
      (matchesResource (first ++ ":" ++ second ++ ":" ++ last) ("self" ++ ":" ++ "user" ++ ":" ++ z) =
        true ↔ segmentMatches first "self" = true ∧ segmentMatches second "user" = true ∧
          last = z) := by
    intro z apart
    rw [matchesResource_three whole whole' whole'' (by decide) (by decide) apart,
      segmentMatches_of_notMem plain]
    simp
  have byName := compared me (by decide)
  have apart : ∀ {n}, vars.find? me = some n → ':' ∉ n.toList := fun bound =>
    (request.isValue bound).2.notMem (by decide)
  constructor
  · rintro ⟨c, mem, matching⟩
    rcases mem_candidates request mem with ⟨place, apart, _, rfl⟩ | ⟨own, rfl | ⟨n, bound, rfl⟩⟩
    -- The candidate for a place ends in a star, which the last text does not match.
    · rw [matchesResource_three whole whole' whole'' apart (by decide) (by decide),
        segmentMatches_of_notMem plain] at matching
      simp [fixed] at matching
    · obtain ⟨isSelf, isUser, same⟩ := byName.mp matching
      exact ⟨own, isSelf, isUser, Or.inl same⟩
    · obtain ⟨isSelf, isUser, rfl⟩ := (compared n (apart bound)).mp matching
      exact ⟨own, isSelf, isUser, Or.inr bound⟩
  · rintro ⟨own, isSelf, isUser, rfl | bound⟩
    · exact ⟨ownTemplate, ownTemplate_mem_candidates own, byName.mpr ⟨isSelf, isUser, rfl⟩⟩
    · exact ⟨_, own_mem_candidates request own bound,
        (compared last (apart bound)).mpr ⟨isSelf, isUser, rfl⟩⟩

/-- Resolving puts the number of the caller in the place of the name, once it is bound. -/
theorem resolve_caller (request : vars.OfRequest) (absent : '@' ∉ first.toList)
    (absent' : '@' ∉ second.toList) : vars.resolve (first ++ ":" ++ second ++ ":" ++ me) =
      first ++ ":" ++ second ++ ":" ++ (vars.find? me).getD me := by
  have before : '@' ∉ (first ++ ":" ++ second ++ ":").toList := by simp [absent, absent']
  refine resolve_eq request.plain ?_
  rw [String.toList_append (t := me), String.toList_append (t := (vars.find? me).getD me)]
  refine .append request.plain before ?_
  cases bound : vars.find? me with
  | some n =>
      have pass := request.substituted bound .nil
      rwa [List.append_nil, List.append_nil] at pass
  | none =>
      -- No other name begins where this one stands.
      refine .self fun b mem occurs => ?_
      have none_else : ∀ name ∈ namesOfRequest, name.toList <:+: me.toList → name = me := by decide
      have same : b.1 = me := none_else _ (request.bound b mem).1 occurs
      have found : vars.find? b.1 = some b.2 :=
        (Table.mem_entries_iff request.ascending.nodup_keys).mp mem
      rw [same, bound] at found
      cases found

/-- A pattern that names the caller in its last segment, if anything, matches a candidate just when its
resolved form does. -/
theorem exists_match_resolve_iff {pattern : String} (request : vars.OfRequest)
    (form : NamesCallerOnly pattern) :
    (∃ c ∈ candidates op vars, matchesResource pattern c = true) ↔
      ∃ c ∈ candidates op vars, matchesResource (vars.resolve pattern) c = true := by
  cases form with
  | plain absent => rw [request.resolve_of_notMem absent]
  | @caller first second absent absent' whole whole' =>
      rw [resolve_caller request absent absent']
      cases bound : vars.find? me with
      | none => rfl
      | some n =>
          obtain ⟨_, digits⟩ := request.isValue bound
          rw [exists_match_iff request whole whole' (by decide) (by decide), Option.getD_some,
            exists_match_iff request whole whole' (digits.notMem (by decide))
              (digits.notMem (by decide))]
          simp [bound]

/-- What matches the caller by name, names the caller in the last of three segments, if anything. -/
theorem namesCallerOnly_of_matches {pattern : String} (short : (split ':' pattern).length ≤ 3)
    (matching : matchesResource pattern ownTemplate = true) : NamesCallerOnly pattern := by
  have segments : split ':' ownTemplate = ["self", "user", me] := by decide
  have free : ∀ {p c : String}, segmentMatches p c = true → '@' ∉ c.toList → '@' ∉ p.toList :=
    fun matching absent => notMem_of_segmentMatches matching absent (by decide)
  have star : '@' ∉ wildcard.toList := by decide
  by_cases absent : '@' ∉ pattern.toList
  · exact .plain absent
  have joined := join_split ':' pattern
  rw [notMem_iff_split (show '@' ≠ ':' by decide)] at absent
  rw [matchesResource, segments] at matching
  have whole : ∀ p ∈ split ':' pattern, ':' ∉ p.toList := fun _ => notMem_of_mem_split
  generalize split ':' pattern = ps at *
  -- A shorter pattern ends in a star, and the segments before it have no room for a name.
  match ps with
  | [] => cases matching
  | [p] =>
      obtain rfl : p = wildcard := by simpa [resourceSegmentsMatch] using matching
      have absent' : ∀ part ∈ [wildcard], '@' ∉ part.toList := List.forall_mem_singleton.mpr star
      exact absurd absent' absent
  | [p, q] =>
      obtain ⟨first, rfl⟩ : segmentMatches p "self" = true ∧ q = wildcard := by
        simpa [resourceSegmentsMatch] using matching
      have absent' : ∀ part ∈ [p, wildcard], '@' ∉ part.toList := by
        simp [free first (by decide), star]
      exact absurd absent' absent
  | [p, q, r] =>
      obtain ⟨first, second, third⟩ : segmentMatches p "self" = true ∧
          segmentMatches q "user" = true ∧ (r = wildcard ∨ segmentMatches r me = true) := by
        simpa [resourceSegmentsMatch] using matching
      have absentFirst := free first (by decide)
      have absentSecond := free second (by decide)
      have named : '@' ∈ r.toList := by
        simpa [absentFirst, absentSecond] using absent
      have fixed : r ≠ wildcard := by
        rintro rfl
        exact star named
      have same := eq_of_segmentMatches (third.resolve_left fixed) fixed (by decide)
      rw [← joined, join_three, same]
      exact .caller absentFirst absentSecond (whole p (by simp)) (whole q (by simp))
  | _ :: _ :: _ :: _ :: _ =>
      simp only [List.length_cons] at short
      omega

/-- A pattern that may be stored, with names elsewhere, matches no candidate. -/
theorem not_exists_match {pattern : String} (request : vars.OfRequest)
    (checked : checkResource pattern = .ok ()) (other : ¬ NamesCallerOnly pattern) :
    ¬ ∃ c ∈ candidates op vars, matchesResource pattern c = true := by
  rintro ⟨c, mem, matching⟩
  have absent : '@' ∉ c.toList → False := fun absent =>
    other (.plain (notMem_of_matchesResource matching absent (by decide) (by decide)))
  rcases mem_candidates request mem with ⟨place, _, nameless, rfl⟩ | ⟨_, rfl | ⟨n, bound, rfl⟩⟩
  · exact absent (by simp [nameless])
  · exact other (namesCallerOnly_of_matches (checkResource_eq_ok_iff.mp checked).1 matching)
  · exact absent (by simp [(request.isValue bound).at_notMem])

/-- A permission that names the caller in the last segment of its resource pattern, if anything, grants
an operation just when the permission with the resolved pattern does. -/
theorem isSome_find?_resolve_iff (request : vars.OfRequest) (form : NamesCallerOnly p.resource) :
    (find? [p] op (candidates op vars)).isSome = true ↔
      (find? [{ p with resource := vars.resolve p.resource }] op
        (candidates op vars)).isSome = true := by
  rw [isSome_find?_iff candidates_ne_nil, isSome_find?_iff candidates_ne_nil]
  simp only [Given, List.mem_singleton, exists_eq_left, exists_match_resolve_iff request form]

/-- A permission that may be stored, with names elsewhere, grants no operation. -/
theorem find?_eq_none (request : vars.OfRequest) (checked : p.check = .ok ())
    (other : ¬ NamesCallerOnly p.resource) : find? [p] op (candidates op vars) = none := by
  have resource := (Permission.check_eq_ok_iff.mp checked).2
  rw [← Option.not_isSome_iff_eq_none, isSome_find?_iff candidates_ne_nil]
  rintro ⟨q, mem, _, matching⟩
  obtain rfl := List.mem_singleton.mp mem
  exact not_exists_match request resource other matching

end Grant

end Gatehouse
