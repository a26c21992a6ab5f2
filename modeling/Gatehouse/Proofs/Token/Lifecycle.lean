import Gatehouse.Credential
import Gatehouse.Proofs.Attempt
import Gatehouse.Proofs.Table
import Mathlib.Data.List.Induction
import Mathlib.Data.List.Nodup

/-!
The life of an access token, over whole runs of the token store.

A run stores new tokens and changes the states of stored ones, in any order and for any users. While
the tokens are new, with identifiers and hashes of their own, the store keeps just those that were
stored, each in the state that the last successful change put it in (`follows_play`). From this follow
what a change of state answers and what it leaves alone, and which secrets prove an identity
(`lifecycle`). Expiry is decided when a secret is used, so no change of state revives an expired token.
-/

namespace Gatehouse

/-- A call that writes to the store of tokens. -/
inductive TokenCall where
  | insert (token : Token)
  | setStatus (user : UserId) (id : String) (status : TokenStatus)
  deriving Repr, DecidableEq

/-- The token that a call stores. -/
def TokenCall.token? : TokenCall → Option Token
  | .insert token => some token
  | .setStatus .. => none

/-- The token may be used from an address: it has no allowlist, or the address is known and in one of
the ranges of the list. -/
def Token.Admits (t : Token) (address : Option Address) : Prop :=
  t.allowlist = [] ∨ ∃ a entry range, address = some a ∧ entry ∈ t.allowlist ∧
    AddressRange.ofText? entry = some range ∧ range.contains a = true

namespace TokenStore

/-! ### Runs of calls -/

/-- What a call does. -/
def call : TokenCall → Attempt TokenStore Unit
  | .insert token => modify (·.insert token)
  | .setStatus user id status => setStatus user id status

/-- What a call leaves behind, whether it fails or not. -/
def after (s : TokenStore) (c : TokenCall) : TokenStore := ((call c).run s).2

/-- The store after a run that begins with no token. -/
def play (calls : List TokenCall) : TokenStore := calls.foldl after empty

/-- The tokens that a run stores, in order. -/
def inserted (calls : List TokenCall) : List Token := calls.filterMap TokenCall.token?

/-- The state that a call puts a token in, if it names the token and succeeds. -/
def change? (t : Token) (s : TokenStore) : TokenCall → Option TokenStatus
  | .insert _ => none
  | .setStatus user id status =>
    match ((setStatus user id status).run s).1 with
    | .ok _ => if id = t.id then some status else none
    | .error _ => none

/-- The states that a run puts a token in, one after the other. -/
def changes (t : Token) : TokenStore → List TokenCall → List TokenStatus
  | _, [] => []
  | s, c :: rest => (change? t s c).toList ++ changes t (s.after c) rest

/-- The state that the last successful change put a token in; a new token is active. -/
def lastStatus (t : Token) (calls : List TokenCall) : TokenStatus :=
  (changes t empty calls).getLast?.getD .active

/-- A token in the state that a run leaves it in. -/
def standing (calls : List TokenCall) (t : Token) : Token := { t with status := lastStatus t calls }

/-- The store with the token of an identifier in a state. -/
def put (s : TokenStore) (id : String) (status : TokenStatus) : TokenStore :=
  ⟨s.byHash.mapValues fun _ t => if t.id = id then { t with status } else t⟩

/-- The tokens that a run stores are active, and have identifiers and hashes of their own. -/
structure Orderly (calls : List TokenCall) : Prop where
  active : ∀ t ∈ inserted calls, t.status = .active
  ids : ((inserted calls).map Token.id).Nodup
  hashes : ((inserted calls).map Token.hash).Nodup

variable {calls later : List TokenCall} {c : TokenCall} {s s' : TokenStore} {t t' : Token}
  {user : UserId} {id : String} {status : TokenStatus}

theorem find?_put (hash : String) :
    (s.put id status).find? hash =
      (s.find? hash).map fun t => if t.id = id then { t with status } else t :=
  Table.find?_mapValues ..

theorem play_concat : play (calls ++ [c]) = (play calls).after c := by
  simp [play]

theorem inserted_append : inserted (calls ++ later) = inserted calls ++ inserted later :=
  List.filterMap_append

theorem inserted_append_of_eq_nil (stores : inserted later = []) :
    inserted (calls ++ later) = inserted calls := by
  rw [inserted_append, stores, List.append_nil]

theorem changes_append (s : TokenStore) :
    changes t s (calls ++ later) = changes t s calls ++ changes t (calls.foldl after s) later := by
  induction calls generalizing s with
  | nil => rfl
  | cons first rest ih => simp only [List.cons_append, changes, ih, List.append_assoc, List.foldl_cons]

/-- The last call counts if it changes the token; otherwise the run before it does. -/
theorem lastStatus_concat :
    lastStatus t (calls ++ [c]) = (change? t (play calls) c).getD (lastStatus t calls) := by
  have last : changes t empty (calls ++ [c]) =
      changes t empty calls ++ (change? t (play calls) c).toList := by
    rw [changes_append, changes, changes, List.append_nil]
    rfl
  unfold lastStatus
  rw [last]
  cases change? t (play calls) c with
  | none => simp
  | some status => simp

namespace Orderly

/-- A run is orderly as far as it has come. -/
theorem of_append (orderly : Orderly (calls ++ later)) : Orderly calls := by
  obtain ⟨active, ids, hashes⟩ := orderly
  rw [inserted_append] at active ids hashes
  rw [List.map_append] at ids hashes
  exact ⟨fun t mem => active t (List.mem_append_left _ mem), ids.of_append_left,
    hashes.of_append_left⟩

/-- An orderly run stays so while no further token is stored. -/
theorem append (orderly : Orderly calls) (stores : inserted later = []) :
    Orderly (calls ++ later) := by
  have same : inserted (calls ++ later) = inserted calls := inserted_append_of_eq_nil stores
  exact ⟨same ▸ orderly.active, same ▸ orderly.ids, same ▸ orderly.hashes⟩

section Uniqueness

variable (orderly : Orderly calls) (mem : t ∈ inserted calls) (mem' : t' ∈ inserted calls)

include orderly mem mem'

theorem id_eq_iff : t.id = t'.id ↔ t = t' :=
  ⟨List.inj_on_of_nodup_map orderly.ids mem mem', congrArg Token.id⟩

theorem hash_eq_iff : t.hash = t'.hash ↔ t = t' :=
  ⟨List.inj_on_of_nodup_map orderly.hashes mem mem', congrArg Token.hash⟩

end Uniqueness

end Orderly

/-! ### What the store holds after a run -/

/-- The store holds the tokens that a run stored, each in its state. A token yet to be stored has not
been changed. -/
structure Follows (calls : List TokenCall) (s : TokenStore) : Prop where
  ascending : s.byHash.Ascending
  find?_iff : ∀ hash t, s.find? hash = some t ↔
    ∃ t₀ ∈ inserted calls, t₀.hash = hash ∧ standing calls t₀ = t
  unborn : ∀ t, (∀ t' ∈ inserted calls, t'.id ≠ t.id) → lastStatus t calls = .active

namespace Follows

theorem mem_values_iff (follows : Follows calls s) :
    t ∈ s.byHash.values ↔ ∃ t₀ ∈ inserted calls, standing calls t₀ = t := by
  rw [Table.mem_values_iff follows.ascending.nodup_keys]
  constructor
  · rintro ⟨hash, found⟩
    obtain ⟨t₀, mem, _, same⟩ := (follows.find?_iff hash t).mp found
    exact ⟨t₀, mem, same⟩
  · rintro ⟨t₀, mem, same⟩
    exact ⟨t₀.hash, (follows.find?_iff _ _).mpr ⟨t₀, mem, rfl, same⟩⟩

/-- Changing the state of the token stored under a hash changes that of the token with its
identifier. -/
theorem adjust_eq (follows : Follows calls s) (orderly : Orderly calls) (mem : t ∈ inserted calls) :
    (⟨s.byHash.adjust t.hash fun t' => { t' with status }⟩ : TokenStore) = s.put t.id status := by
  unfold put Table.adjust Table.mapValues
  rw [TokenStore.mk.injEq, Table.mk.injEq]
  refine List.map_congr_left ?_
  rintro ⟨hash, t'⟩ entry
  have found := (Table.mem_entries_iff follows.ascending.nodup_keys).mp entry
  obtain ⟨t₀, mem₀, rfl, rfl⟩ := (follows.find?_iff hash t').mp found
  have same : t₀.hash = t.hash ↔ (standing calls t₀).id = t.id :=
    (orderly.hash_eq_iff mem₀ mem).trans (orderly.id_eq_iff mem₀ mem).symm
  simp only [same]

/-- The owner of a stored token puts it in another state, and changes nothing else. -/
theorem setStatus_eq_ok (follows : Follows calls s) (orderly : Orderly calls)
    (mem : t ∈ inserted calls) (storable : status ≠ .expired) :
    (TokenStore.setStatus t.owner t.id status).run s = (.ok (), s.put t.id status) := by
  have listed : standing calls t ∈ s.byHash.values := follows.mem_values_iff.mpr ⟨t, mem, rfl⟩
  obtain ⟨found, search⟩ : ∃ found,
      s.byHash.values.find? (fun t' => t'.id = t.id && t'.owner = t.owner) = some found := by
    refine Option.isSome_iff_exists.mp (List.find?_isSome.mpr ⟨_, listed, ?_⟩)
    simp [standing]
  obtain ⟨t₀, mem₀, rfl⟩ := follows.mem_values_iff.mp (List.mem_of_find?_eq_some search)
  have named : t₀.id = t.id := by
    have holds := List.find?_some search
    simp only [Bool.and_eq_true, decide_eq_true_eq] at holds
    exact holds.1
  obtain rfl := (orderly.id_eq_iff mem₀ mem).mp named
  unfold TokenStore.setStatus
  rw [if_neg storable, Attempt.run_get_bind, search]
  exact congrArg (Prod.mk _) (follows.adjust_eq (t := t₀) orderly mem)

/-- No other change of state succeeds, and none that fails leaves a trace. -/
theorem setStatus_eq_error (follows : Follows calls s)
    (refused : status = .expired ∨ ∀ t ∈ inserted calls, t.id = id → t.owner ≠ user) :
    ∃ err, (TokenStore.setStatus user id status).run s = (.error err, s) := by
  unfold TokenStore.setStatus
  split
  · exact ⟨_, rfl⟩
  rename_i storable
  rw [Attempt.run_get_bind]
  have search : s.byHash.values.find? (fun t => t.id = id && t.owner = user) = none := by
    refine List.find?_eq_none.mpr fun t listed => ?_
    obtain ⟨t₀, mem, rfl⟩ := follows.mem_values_iff.mp listed
    simp only [Bool.and_eq_true, decide_eq_true_eq, not_and]
    exact refused.resolve_left storable t₀ mem
  rw [search]
  exact ⟨_, rfl⟩

/-- A change of state is refused or changes the state of one token. -/
theorem setStatus_cases (follows : Follows calls s) (orderly : Orderly calls) (user : UserId)
    (id : String) (status : TokenStatus) :
    (∃ err, (TokenStore.setStatus user id status).run s = (.error err, s)) ∨
      ∃ t ∈ inserted calls, t.id = id ∧ t.owner = user ∧ status ≠ .expired ∧
        (TokenStore.setStatus user id status).run s = (.ok (), s.put id status) := by
  by_cases storable : status = .expired
  · exact Or.inl (follows.setStatus_eq_error (Or.inl storable))
  by_cases owned : ∃ t ∈ inserted calls, t.id = id ∧ t.owner = user
  · obtain ⟨t, mem, rfl, rfl⟩ := owned
    exact Or.inr ⟨t, mem, rfl, rfl, storable, follows.setStatus_eq_ok orderly mem storable⟩
  · refine Or.inl (follows.setStatus_eq_error (Or.inr fun t mem named owner => ?_))
    exact owned ⟨t, mem, named, owner⟩

theorem nil : Follows [] empty where
  ascending := Table.ascending_empty
  find?_iff hash t := by simp [empty, find?, inserted]
  unborn _ _ := rfl

/-- A new token is kept as it is, and every other stays as it was. -/
theorem insert (follows : Follows calls s) (orderly : Orderly (calls ++ [.insert t])) :
    Follows (calls ++ [.insert t]) (s.insert t) := by
  have unchanged : ∀ t', lastStatus t' (calls ++ [.insert t]) = lastStatus t' calls := fun _ =>
    lastStatus_concat
  have kept : standing (calls ++ [.insert t]) = standing calls := by
    funext t'
    rw [standing, unchanged, standing]
  obtain ⟨active, ids, hashes⟩ := orderly
  have more : inserted (calls ++ [.insert t]) = inserted calls ++ [t] := inserted_append
  rw [more] at active ids hashes
  rw [List.map_append, List.nodup_append] at ids hashes
  have ownId : ∀ t' ∈ inserted calls, t'.id ≠ t.id := fun t' mem =>
    ids.2.2 _ (List.mem_map_of_mem mem) _ (List.mem_singleton_self _)
  have ownHash : ∀ t' ∈ inserted calls, t'.hash ≠ t.hash := fun t' mem =>
    hashes.2.2 _ (List.mem_map_of_mem mem) _ (List.mem_singleton_self _)
  -- A new token is active, and no call before this one can have changed it.
  have fresh : standing calls t = t := by
    rw [standing, follows.unborn t ownId, ← active t (by simp)]
  refine ⟨follows.ascending.insert _ _, fun hash t' => ?_, fun t' other => ?_⟩
  · rw [kept, more]
    by_cases same : hash = t.hash
    · subst same
      rw [find?_insert_self]
      constructor
      · rintro ⟨⟩
        exact ⟨t, List.mem_append_right _ (List.mem_singleton_self _), rfl, fresh⟩
      · rintro ⟨t₀, mem, named, rfl⟩
        rcases List.mem_append.mp mem with old | new
        · exact absurd named (ownHash t₀ old)
        · obtain rfl := List.mem_singleton.mp new
          rw [fresh]
    · rw [find?_insert_of_ne same, follows.find?_iff]
      simp only [List.mem_append, List.mem_singleton]
      constructor
      · rintro ⟨t₀, mem, found⟩
        exact ⟨t₀, Or.inl mem, found⟩
      · rintro ⟨t₀, old | rfl, named, found⟩
        · exact ⟨t₀, old, named, found⟩
        · exact absurd named.symm same
  · rw [more] at other
    rw [unchanged]
    exact follows.unborn t' fun t₀ mem => other t₀ (List.mem_append_left _ mem)

/-- A change of state puts the token that it names, and no other, in the new state. -/
theorem setStatus (follows : Follows calls s) (played : play calls = s) (orderly : Orderly calls) :
    Follows (calls ++ [.setStatus user id status]) (s.after (.setStatus user id status)) := by
  have same : inserted (calls ++ [.setStatus user id status]) = inserted calls :=
    inserted_append_of_eq_nil rfl
  rcases follows.setStatus_cases orderly user id status with
    ⟨err, failed⟩ | ⟨t, mem, named, _, _, done⟩
  · have unchanged : ∀ t', lastStatus t' (calls ++ [.setStatus user id status]) =
        lastStatus t' calls := by
      intro t'
      simp [lastStatus_concat, change?, played, failed]
    have left : s.after (.setStatus user id status) = s := by
      simp [after, call, failed]
    have kept : standing (calls ++ [.setStatus user id status]) = standing calls := by
      funext t'
      rw [standing, unchanged, standing]
    rw [left]
    refine ⟨follows.ascending, ?_, ?_⟩
    · simpa only [same, kept] using follows.find?_iff
    · simpa only [same, unchanged] using follows.unborn
  · have changed : ∀ t', lastStatus t' (calls ++ [.setStatus user id status]) =
        if id = t'.id then status else lastStatus t' calls := by
      intro t'
      rw [lastStatus_concat, played]
      simp only [change?, done]
      split <;> rfl
    have left : s.after (.setStatus user id status) = s.put id status := by
      simp [after, call, done]
    have put : ∀ t', standing (calls ++ [.setStatus user id status]) t' =
        if (standing calls t').id = id then { standing calls t' with status }
        else standing calls t' := by
      intro t'
      rw [standing, changed, standing]
      by_cases names : t'.id = id
      · simp [names]
      · simp [names, Ne.symm names]
    rw [left]
    refine ⟨follows.ascending.mapValues _, fun hash t' => ?_, fun t' other => ?_⟩
    · rw [same, find?_put, Option.map_eq_some_iff]
      simp only [put]
      constructor
      · rintro ⟨t₁, found, rfl⟩
        obtain ⟨t₀, mem, stored, rfl⟩ := (follows.find?_iff hash t₁).mp found
        exact ⟨t₀, mem, stored, rfl⟩
      · rintro ⟨t₀, mem, stored, rfl⟩
        exact ⟨_, (follows.find?_iff hash _).mpr ⟨t₀, mem, stored, rfl⟩, rfl⟩
    · rw [same] at other
      rw [changed, if_neg (fun names => other t mem (named.trans names))]
      exact follows.unborn t' other

end Follows

/-- After an orderly run the store holds what was stored, in the states it was put in. -/
theorem follows_play (orderly : Orderly calls) : Follows calls (play calls) := by
  -- From the last call backwards: what is orderly was orderly before it.
  induction calls using List.reverseRecOn with
  | nil => exact .nil
  | append_singleton calls c ih =>
      have before := ih orderly.of_append
      rw [play_concat]
      cases c with
      | insert t => exact before.insert orderly
      | setStatus user id status => exact before.setStatus rfl orderly.of_append

/-- The owner of a token decides on its state. -/
theorem lastStatus_of_owner (orderly : Orderly calls) (mem : t ∈ inserted calls)
    (storable : status ≠ .expired) :
    lastStatus t (calls ++ [.setStatus t.owner t.id status]) = status := by
  have done := (follows_play orderly).setStatus_eq_ok orderly mem storable
  simp [lastStatus_concat, change?, done]

end TokenStore

/-! ### Which secrets prove an identity -/

namespace Token

variable {t : Token} {now : Timestamp} {address : Option Address}

theorem allows_iff : t.allows address = true ↔ t.Admits address := by
  unfold allows Admits
  rw [Bool.or_eq_true, List.isEmpty_iff]
  refine or_congr Iff.rfl ?_
  cases address with
  | none => simp
  | some a =>
      rw [List.any_eq_true]
      constructor
      · rintro ⟨entry, listed, inside⟩
        split at inside
        · rename_i range spelt
          exact ⟨a, entry, range, rfl, listed, spelt, inside⟩
        · cases inside
      · rintro ⟨_, entry, range, ⟨⟩, listed, spelt, inside⟩
        refine ⟨entry, listed, ?_⟩
        rw [spelt]
        exact inside

theorem isExpired_eq_false_iff :
    t.isExpired now = false ↔ ∀ expiry, t.expiresAt = some expiry → ¬ expiry ≤ now := by
  unfold isExpired
  cases t.expiresAt with
  | none => simp
  | some expiry => simp

/-- An active token may be used before its expiry, from an address that it admits. -/
theorem check_eq_ok_iff :
    t.check now address = .ok () ↔ t.status = .active ∧
      (∀ expiry, t.expiresAt = some expiry → ¬ expiry ≤ now) ∧ t.Admits address := by
  rw [← isExpired_eq_false_iff, ← allows_iff]
  unfold check statusAt
  cases t.status <;> cases t.isExpired now <;> simp

end Token

namespace TokenStore

variable {calls later : List TokenCall} {s : TokenStore} {t : Token} {user : UserId} {id : String}
  {status : TokenStatus} {m : Moment} {sessions : Sessions} {secret : String}
  {address : Option Address} {identity : Identity}

/-- A secret proves an identity exactly when a token was stored under its hash, last put in the
active state, and may be used now from this address. -/
theorem resolve_play_iff (orderly : Orderly calls) (up : m.outage.stores .findToken = false) :
    (Credential.personal secret).resolve m sessions (play calls) address = .ok identity ↔
      ∃ t ∈ inserted calls, t.hash = Token.hashOf secret ∧ lastStatus t calls = .active ∧
        (∀ expiry, t.expiresAt = some expiry → ¬ expiry ≤ m.now) ∧ t.Admits address ∧
          identity = ⟨t.owner, .token, some t.scopes⟩ := by
  have stored := (follows_play orderly).find?_iff (Token.hashOf secret)
  simp only [Credential.resolve, Outcome.bind_eq_ok, Outage.reach_eq_ok, up, true_and]
  constructor
  · rintro ⟨found, looked, proved⟩
    cases found with
    | none => cases proved
    | some t =>
        obtain ⟨t₀, mem, named, rfl⟩ := (stored t).mp looked
        obtain ⟨⟨⟩, valid, ⟨⟩⟩ := Outcome.bind_eq_ok.mp proved
        obtain ⟨active, alive, admits⟩ := Token.check_eq_ok_iff.mp valid
        exact ⟨t₀, mem, named, active, alive, admits, rfl⟩
  · rintro ⟨t₀, mem, named, active, alive, admits, rfl⟩
    refine ⟨some (standing calls t₀), (stored _).mpr ⟨t₀, mem, named, rfl⟩, ?_⟩
    have valid : (standing calls t₀).check m.now address = .ok () :=
      Token.check_eq_ok_iff.mpr ⟨active, alive, admits⟩
    exact Outcome.bind_eq_ok.mpr ⟨(), valid, rfl⟩

/-- A change of state fails exactly when it asks for the expired state or names no token of the
user. -/
theorem setStatus_fails_iff (orderly : Orderly calls) :
    (∃ err, ((setStatus user id status).run (play calls)).1 = .error err) ↔
      status = .expired ∨ ∀ t ∈ inserted calls, t.id = id → t.owner ≠ user := by
  constructor
  · rintro ⟨err, failed⟩
    refine or_iff_not_imp_left.mpr fun storable t mem named owner => ?_
    subst named owner
    rw [(follows_play orderly).setStatus_eq_ok orderly mem storable] at failed
    cases failed
  · intro refused
    obtain ⟨err, failed⟩ := (follows_play orderly).setStatus_eq_error refused
    exact ⟨err, congrArg Prod.fst failed⟩

/-- The token is looked for before anything is written. -/
theorem setStatus_atomic (user : UserId) (id : String) (status : TokenStatus) :
    (setStatus user id status).Atomic := by
  unfold setStatus
  split
  · exact (Attempt.looks_throw _).atomic
  refine Attempt.looks_get.bind_atomic fun s => ?_
  split
  · exact (Attempt.looks_throw _).atomic
  · exact (Attempt.succeeds_modify _).atomic

theorem play_setStatus_of_error {err : Error}
    (failed : ((setStatus user id status).run (play calls)).1 = .error err) :
    play (calls ++ [.setStatus user id status]) = play calls := by
  rw [play_concat]
  exact setStatus_atomic user id status _ err _ (Prod.ext failed rfl)

theorem play_setStatus_of_ok (done : (setStatus user id status).run (play calls) = (.ok (), s)) :
    play (calls ++ [.setStatus user id status]) = s := by
  simp [play_concat, after, call, done]

/-- A successful change of state changes the state of one token of the user, the one it names. -/
theorem changes_one_of_setStatus (orderly : Orderly calls)
    (done : (setStatus user id status).run (play calls) = (.ok (), s)) :
    ∃ t ∈ inserted calls, t.id = id ∧ t.owner = user ∧
      s.find? t.hash = some { standing calls t with status } ∧
        ∀ hash, hash ≠ t.hash → s.find? hash = (play calls).find? hash := by
  have follows := follows_play orderly
  rcases follows.setStatus_cases orderly user id status with
    ⟨err, failed⟩ | ⟨t, mem, named, owner, _, put⟩
  · rw [failed] at done
    cases done
  cases put.symm.trans done
  refine ⟨t, mem, named, owner, ?_, fun hash other => ?_⟩
  · rw [find?_put, (follows.find?_iff _ _).mpr ⟨t, mem, rfl, rfl⟩]
    simp [standing, named]
  · rw [find?_put]
    cases found : (play calls).find? hash with
    | none => rfl
    | some t' =>
        obtain ⟨t₀, mem₀, rfl, rfl⟩ := (follows.find?_iff hash t').mp found
        have unnamed : (standing calls t₀).id ≠ id := fun same =>
          other ((orderly.hash_eq_iff mem₀ mem).mpr
            ((orderly.id_eq_iff mem₀ mem).mp (same.trans named.symm)))
        simp [unnamed]

/-- Once a token has expired, no changes of state make its secret prove an identity. -/
theorem expired_not_revived (orderly : Orderly calls) (stores : inserted later = [])
    (mem : t ∈ inserted calls) (hashed : t.hash = Token.hashOf secret) {expiry : Timestamp}
    (expires : t.expiresAt = some expiry) (past : expiry ≤ m.now) :
    ∃ err, (Credential.personal secret).resolve m sessions (play (calls ++ later)) address =
      .error err := by
  cases outcome : (Credential.personal secret).resolve m sessions (play (calls ++ later)) address with
  | error err => exact ⟨err, rfl⟩
  | ok identity =>
      exfalso
      have up : m.outage.stores .findToken = false := by
        simp only [Credential.resolve, Outcome.bind_eq_ok, Outage.reach_eq_ok] at outcome
        obtain ⟨_, ⟨up, _⟩, _⟩ := outcome
        exact up
      obtain ⟨t', mem', hashed', _, alive, _⟩ :=
        (resolve_play_iff (orderly.append stores) up).mp outcome
      rw [inserted_append_of_eq_nil stores] at mem'
      obtain rfl := (orderly.hash_eq_iff mem mem').mp (hashed.trans hashed'.symm)
      exact alive expiry expires past

/-- **The life of the tokens that an orderly run stores.** A secret proves its owner's identity exactly
while its token is active and alive and admits the address. A change of state fails, and leaves the
store as it was, when it asks for the expired state or names no token of the user; any other changes
the state of the token it names and nothing else. Whatever changes of state come later, an expired
token proves no identity. -/
theorem lifecycle (orderly : Orderly calls) :
    (∀ m sessions secret address identity, m.outage.stores .findToken = false →
      ((Credential.personal secret).resolve m sessions (play calls) address = .ok identity ↔
        ∃ t ∈ inserted calls, t.hash = Token.hashOf secret ∧ lastStatus t calls = .active ∧
          (∀ expiry, t.expiresAt = some expiry → ¬ expiry ≤ m.now) ∧ t.Admits address ∧
            identity = ⟨t.owner, .token, some t.scopes⟩)) ∧
    (∀ user id status,
      ((∃ err, ((setStatus user id status).run (play calls)).1 = .error err) ↔
        status = .expired ∨ ∀ t ∈ inserted calls, t.id = id → t.owner ≠ user) ∧
      (∀ err, ((setStatus user id status).run (play calls)).1 = .error err →
        play (calls ++ [.setStatus user id status]) = play calls) ∧
      ∀ s, (setStatus user id status).run (play calls) = (.ok (), s) →
        play (calls ++ [.setStatus user id status]) = s ∧
          ∃ t ∈ inserted calls, t.id = id ∧ t.owner = user ∧
            s.find? t.hash = some { standing calls t with status } ∧
              ∀ hash, hash ≠ t.hash → s.find? hash = (play calls).find? hash) ∧
    ∀ later, inserted later = [] → ∀ t ∈ inserted calls, ∀ m sessions secret address expiry,
      t.hash = Token.hashOf secret → t.expiresAt = some expiry → expiry ≤ m.now →
        ∃ err, (Credential.personal secret).resolve m sessions (play (calls ++ later)) address =
          .error err := by
  refine ⟨?resolve, ?change, ?revive⟩
  case resolve =>
    intro m sessions secret address identity up
    exact resolve_play_iff orderly up
  case change =>
    intro user id status
    refine ⟨setStatus_fails_iff orderly, fun _ => play_setStatus_of_error, fun s done => ?_⟩
    exact ⟨play_setStatus_of_ok done, changes_one_of_setStatus orderly done⟩
  case revive =>
    intro later stores t mem m sessions secret address expiry hashed expires past
    exact expired_not_revived orderly stores mem hashed expires past

/-! ### A token that is put out of use and back -/

theorem exists_secondDay : DateTime.Exists ⟨⟨1970, 1, 2⟩, 0, 0, 0, 0⟩ := by decide

/-- The start of the second day of 1970. -/
def secondDay : Timestamp := ⟨⟨⟨1970, 1, 2⟩, 0, 0, 0, 0⟩, exists_secondDay⟩

/-- A token for addresses of one network and one day. -/
def ofOneDay (secret : String) : Token :=
  ⟨"laptop", 11, "laptop", Token.hashOf secret, [TokenScope.own.name], .active, some secondDay,
    ["10.0.0.0/8"], .epoch⟩

/-- The token is put out of use by its owner, and another user tries to put it back. -/
def runOfOneDay (secret : String) : List TokenCall :=
  [.insert (ofOneDay secret), .setStatus 11 "laptop" .disabled, .setStatus 12 "laptop" .active]

theorem orderly_runOfOneDay (secret : String) : Orderly (runOfOneDay secret) :=
  ⟨by simp [runOfOneDay, inserted, TokenCall.token?, ofOneDay], List.nodup_singleton _,
    List.nodup_singleton _⟩

/-- Another user cannot put the token back in use. Put back by its owner, it proves who that is, until
the day is over. -/
theorem token_back_in_use :
    let calls := runOfOneDay "pat_day" ++ [.setStatus 11 "laptop" .active]
    let address := some (.v4 0x0a000001)
    (∃ err, ((setStatus 12 "laptop" .disabled).run (play calls)).1 = .error err) ∧
      (Credential.personal "pat_day").resolve default .empty (play calls) address =
        .ok ⟨11, .token, some ["self"]⟩ ∧
      ∃ err, (Credential.personal "pat_day").resolve { (default : Moment) with now := secondDay }
        .empty (play (calls ++ [.setStatus 11 "laptop" .active])) address = .error err := by
  intro calls address
  have orderly : Orderly calls := (orderly_runOfOneDay _).append rfl
  have stored : ofOneDay "pat_day" ∈ inserted calls := List.mem_singleton_self _
  obtain ⟨resolve, change, revive⟩ := lifecycle orderly
  refine ⟨(change _ _ _).1.mpr (Or.inr ?_), (resolve _ _ _ _ _ rfl).mpr ?_, ?_⟩
  · intro t mem _
    obtain rfl := List.mem_singleton.mp mem
    decide
  · refine ⟨_, stored, rfl, lastStatus_of_owner (orderly_runOfOneDay _) stored nofun, ?_, ?_, rfl⟩
    · rintro expiry ⟨⟩
      decide
    · exact Or.inr ⟨_, "10.0.0.0/8", ⟨.v4 0x0a000000, 8⟩, rfl, List.mem_singleton_self _, by decide,
        by decide⟩
  · exact revive _ rfl _ stored _ _ _ _ _ rfl rfl (by decide)

end TokenStore

end Gatehouse
