import Gatehouse.Proofs.Outcome
import Gatehouse.Proofs.Token.Selection
import Gatehouse.Token.Basic
import Mathlib.Data.List.Induction
import Mathlib.Data.List.Nodup

/-!
The scopes that a token is issued with.

The scopes that are requested for a token are names. A name of no scope fails the request
(`normalize_eq_error_iff`). Otherwise the scopes are put in a normal form, in which each stands once,
where it first comes, and `full` stands for none (`normalize_eq_ok_iff`). The main statement is
`normalize_exact`: of any permissions the normal form leaves what the request leaves, and so does the
token that is issued for it.
-/

namespace Gatehouse

/-! ### Names of scopes -/

namespace TokenScope

variable {name : String}

/-- The names of scopes. -/
def knownNames : List String := all.map (·.name)

theorem parse_eq_error_iff {e : Error} : parse name = .error e ↔ name ∉ knownNames ∧ e = .unknownScope name := by
  have unknown : all.find? (·.name == name) = none ↔ name ∉ knownNames := by
    simp [knownNames, List.find?_eq_none]
  unfold parse
  cases found : all.find? (·.name == name) with
  | some scope =>
      rw [found] at unknown
      exact iff_of_false nofun fun ⟨other, _⟩ => nomatch unknown.mpr other
  | none => simp [unknown.mp found, eq_comm]

theorem exists_parse_of_known (known : name ∈ knownNames) :
    ∃ scope, parse name = .ok scope ∧ scope.name = name := by
  cases parsed : parse name with
  | error e => exact absurd known (parse_eq_error_iff.mp parsed).1
  | ok scope => exact ⟨scope, rfl, name_of_parse parsed⟩

end TokenScope

/-! ### First occurrences -/

section FirstOccurrences

variable {α : Type} [DecidableEq α] {l : List α}

theorem eraseDups_of_nodup (once : l.Nodup) : l.eraseDups = l := by
  induction l with
  | nil => exact List.eraseDups_nil
  | cons a l ih =>
      obtain ⟨fresh, once⟩ := List.nodup_cons.mp once
      have kept : l.filter (fun b => !b == a) = l :=
        List.filter_eq_self.mpr fun b mem => by simpa using fun same : b = a => fresh (same ▸ mem)
      rw [List.eraseDups_cons, kept, ih once]

/-- What remains without repeats is in the order of first occurrence. -/
theorem pairwise_idxOf_eraseDups (l : List α) : l.eraseDups.Pairwise fun a b => l.idxOf a < l.idxOf b := by
  induction l using List.reverseRecOn with
  | nil => exact .nil
  | append_singleton l last ih =>
      -- In front of the last element nothing changes its place.
      have before : l.eraseDups.Pairwise fun a b => (l ++ [last]).idxOf a < (l ++ [last]).idxOf b := by
        refine ih.imp_of_mem fun {a b} mem mem' inOrder => ?_
        rwa [List.idxOf_append_of_mem (List.mem_eraseDups.mp mem),
          List.idxOf_append_of_mem (List.mem_eraseDups.mp mem')]
      by_cases again : last ∈ l
      · have none : [last].removeAll l = [] := by simp [List.removeAll, again]
        rw [List.eraseDups_append, none, List.eraseDups_nil, List.append_nil]
        exact before
      · have one : [last].removeAll l = [last] := by simp [List.removeAll, again]
        rw [List.eraseDups_append, one, eraseDups_of_nodup (List.nodup_singleton _), List.pairwise_append]
        refine ⟨before, List.pairwise_singleton _ _, fun a mem b only => ?_⟩
        have listed : a ∈ l := List.mem_eraseDups.mp mem
        obtain rfl := List.mem_singleton.mp only
        rw [List.idxOf_append_of_mem listed, List.idxOf_append_of_notMem again]
        exact Nat.lt_add_right _ (List.idxOf_lt_length_of_mem listed)

theorem nodup_eraseDups (l : List α) : l.eraseDups.Nodup :=
  (pairwise_idxOf_eraseDups l).imp fun inOrder same => by
    rw [same] at inOrder
    exact Nat.lt_irrefl _ inOrder

end FirstOccurrences

namespace Scopes

open TokenScope (knownNames)

variable {scopes requested kept : List String} {name : String} {e : Error}

/-! ### Normal forms -/

/-- Collecting names of scopes adds those that are new, once each. -/
theorem collect_of_known (known : ∀ name ∈ requested, name ∈ knownNames) :
    collect kept requested = .ok (kept ++ (requested.filter (· ∉ kept)).eraseDups) := by
  induction requested generalizing kept with
  | nil => simp [collect]
  | cons name rest ih =>
      obtain ⟨knownName, knownRest⟩ := List.forall_mem_cons.mp known
      obtain ⟨scope, parsed, rfl⟩ := TokenScope.exists_parse_of_known knownName
      unfold collect
      rw [parsed]
      simp only [ih knownRest]
      by_cases old : scope.name ∈ kept
      · simp [old]
      · have later : rest.filter (· ∉ kept ++ [scope.name]) =
            (rest.filter (· ∉ kept)).filter (fun name => !name == scope.name) := by
          rw [List.filter_filter]
          refine List.filter_congr fun name _ => ?_
          simp [Bool.beq_eq_decide_eq, Bool.and_comm]
        rw [if_neg (by simpa using old), later, List.filter_cons_of_pos (by simpa using old),
          List.eraseDups_cons, List.append_assoc, List.singleton_append]

/-- Collecting fails on the first name of no scope. -/
theorem collect_eq_error_iff : collect kept requested = .error e ↔
    ∃ name, requested.find? (· ∉ knownNames) = some name ∧ e = .unknownScope name := by
  induction requested generalizing kept with
  | nil => simp [collect]
  | cons name rest ih =>
      unfold collect
      by_cases known : name ∈ knownNames
      · obtain ⟨scope, parsed, _⟩ := TokenScope.exists_parse_of_known known
        rw [parsed, List.find?_cons_of_neg (by simpa using known)]
        exact ih
      · have failed : TokenScope.parse name = .error (.unknownScope name) :=
          TokenScope.parse_eq_error_iff.mpr ⟨known, rfl⟩
        rw [failed, List.find?_cons_of_pos (by simpa using known)]
        simp [eq_comm]

/-- A request fails with its first name of no scope. -/
theorem normalize_eq_error_iff : normalize requested = .error e ↔
    ∃ name, requested.find? (· ∉ knownNames) = some name ∧ e = .unknownScope name := by
  unfold normalize
  cases requested with
  | nil => exact iff_of_false nofun nofun
  | cons first rest => exact collect_eq_error_iff

/-- A request has a normal form if its names are names of scopes. -/
theorem normalize_eq_ok_iff : normalize requested = .ok scopes ↔
    (∀ name ∈ requested, name ∈ knownNames) ∧
      scopes = if requested = [] then [TokenScope.full.name] else requested.eraseDups := by
  by_cases known : ∀ name ∈ requested, name ∈ knownNames
  · rw [and_iff_right known]
    unfold normalize
    cases requested with
    | nil => simp [eq_comm]
    | cons first rest =>
        have all : (first :: rest).filter (· ∉ ([] : List String)) = first :: rest := by simp
        simp [collect_of_known known, eq_comm]
  · refine iff_of_false (fun normalized => ?_) fun given => known given.1
    obtain ⟨name, found⟩ : ∃ name, requested.find? (· ∉ knownNames) = some name := by
      refine Option.isSome_iff_exists.mp (List.find?_isSome.mpr ?_)
      simpa using known
    rw [normalize_eq_error_iff.mpr ⟨name, found, rfl⟩] at normalized
    cases normalized

/-- A normal form has some scopes, once each, in the order in which they first come in the request. -/
theorem inOrder_of_normalize (normalized : normalize requested = .ok scopes) :
    scopes ≠ [] ∧ scopes.Nodup ∧ scopes.Pairwise fun a b => requested.idxOf a < requested.idxOf b := by
  obtain ⟨-, rfl⟩ := normalize_eq_ok_iff.mp normalized
  cases requested with
  | nil => exact ⟨List.cons_ne_nil _ _, List.nodup_singleton _, List.pairwise_singleton _ _⟩
  | cons first rest =>
      rw [if_neg (List.cons_ne_nil _ _)]
      have listed : first ∈ (first :: rest).eraseDups := List.mem_eraseDups.mpr (List.mem_cons_self ..)
      exact ⟨List.ne_nil_of_mem listed, nodup_eraseDups _, pairwise_idxOf_eraseDups _⟩

/-- A normal form is its own normal form. -/
theorem normalize_of_normalize (normalized : normalize requested = .ok scopes) :
    normalize scopes = .ok scopes := by
  obtain ⟨known, rfl⟩ := normalize_eq_ok_iff.mp normalized
  cases requested with
  | nil => rfl
  | cons first rest =>
      have nonempty := (inOrder_of_normalize normalized).1
      rw [if_neg (List.cons_ne_nil _ _)] at nonempty ⊢
      rw [normalize_eq_ok_iff, if_neg nonempty, eraseDups_of_nodup (nodup_eraseDups _)]
      exact ⟨fun name mem => known name (List.mem_eraseDups.mp mem), rfl⟩

/-- A normal form leaves of any permissions what the request leaves. -/
theorem restrict_of_normalize (normalized : normalize requested = .ok scopes) (ps : List Permission) :
    restrict scopes ps = restrict requested ps := by
  cases requested with
  | nil =>
      cases normalized
      rw [restrict_of_full rfl, restrict_of_full rfl]
  | cons first rest =>
      refine restrict_congr fun name => ?_
      simpa using mem_normalize_iff normalized name

/-- **The normal form of a request for scopes means what the request means.** A request has no normal form
exactly when it has a name that is no scope's; the error is about the first of these. The normal form of
any other request has the scopes of the request, in the order in which they first come, each once, or
`full` alone in the place of none. It is its own normal form, and of any permissions it leaves what the
request leaves, in the same order; so do the scopes of a token that is issued for the request. -/
theorem normalize_exact (requested : List String) :
    ((∃ e, normalize requested = .error e) ↔ ∃ name ∈ requested, name ∉ ["full", "self", "sys"]) ∧
      (∀ e, normalize requested = .error e → e.kind = .badRequest ∧
        ∃ name, requested.find? (· ∉ ["full", "self", "sys"]) = some name ∧ e = .unknownScope name) ∧
      (∀ scopes, normalize requested = .ok scopes →
        scopes ≠ [] ∧ scopes.Nodup ∧ scopes.Pairwise (fun a b => requested.idxOf a < requested.idxOf b) ∧
          (∀ name, name ∈ scopes ↔ name ∈ requested ∨ requested = [] ∧ name = "full") ∧
          normalize scopes = .ok scopes ∧ ∀ ps, restrict scopes ps = restrict requested ps) ∧
      ∀ (order : Token.Order) id secret now, order.scopes = requested →
        (∀ e, normalize requested = .error e → Token.issue order id secret now = .error e) ∧
          ∀ token, Token.issue order id secret now = .ok token →
            normalize requested = .ok token.scopes ∧
              ∀ ps, restrict token.scopes ps = restrict requested ps := by
  have three : knownNames = ["full", "self", "sys"] := rfl
  rw [← three]
  refine ⟨?_, fun e failed => ?_, fun scopes normalized => ?_, ?_⟩
  · simp only [normalize_eq_error_iff, exists_comm (α := Error)]
    simp [← Option.isSome_iff_exists]
  · obtain ⟨name, found, rfl⟩ := normalize_eq_error_iff.mp failed
    exact ⟨rfl, name, found, rfl⟩
  · obtain ⟨nonempty, once, inOrder⟩ := inOrder_of_normalize normalized
    exact ⟨nonempty, once, inOrder, mem_normalize_iff normalized, normalize_of_normalize normalized,
      restrict_of_normalize normalized⟩
  · rintro order id secret now rfl
    refine ⟨fun e failed => ?_, fun token issued => ?_⟩
    · unfold Token.issue
      rw [failed]
      rfl
    · obtain ⟨scopes, normalized, issued⟩ := Outcome.bind_eq_ok.mp issued
      obtain ⟨_, _, issued⟩ := Outcome.bind_eq_ok.mp issued
      cases issued
      exact ⟨normalized, restrict_of_normalize normalized⟩

/-- A token is ordered with the scope of the system twice, and is issued with it once, where it first comes; no
token is issued with a scope for organizations. -/
theorem normalize_twice :
    let order : Token.Order :=
      { owner := 7, name := "deploy", scopes := ["sys", "self", "sys"], expiresAt := none, allowlist := [] }
    normalize order.scopes = .ok ["sys", "self"] ∧ normalize ["sys", "self"] = .ok ["sys", "self"] ∧
      (∃ token, Token.issue order "t" "secret" default = .ok token ∧ token.scopes = ["sys", "self"] ∧
        ∀ ps, restrict token.scopes ps = restrict order.scopes ps) ∧
      ∃ e, normalize ["self", "org"] = .error e ∧ e.kind = .badRequest := by
  intro order
  have normalized : normalize order.scopes = .ok ["sys", "self"] := by decide
  obtain ⟨-, -, normal, issued⟩ := normalize_exact order.scopes
  obtain ⟨-, -, -, -, again, -⟩ := normal _ normalized
  obtain ⟨unknown, failed, -⟩ := normalize_exact ["self", "org"]
  obtain ⟨e, refused⟩ := unknown.mpr ⟨"org", by decide, by decide⟩
  obtain ⟨token, made⟩ : ∃ token, Token.issue order "t" "secret" default = .ok token := ⟨_, rfl⟩
  obtain ⟨written, left⟩ := (issued order "t" "secret" default rfl).2 token made
  have scopes : token.scopes = ["sys", "self"] := Except.ok.inj (written.symm.trans normalized)
  exact ⟨normalized, again, ⟨token, made, scopes, left⟩, e, refused, (failed e refused).1⟩

end Scopes

end Gatehouse
