import Gatehouse.Proofs.Http.Writes
import Gatehouse.Proofs.Role.Index

/-!
The users that have a role, as the web interface shows them.

They are collected from the holders of all stored roles (`Endpoint.holdersOfAny_eq_ok`). After any writes to
the store of roles these are the users whose list of roles is not empty (`respond_users`), so that the three
readers of roles and assignments agree (`readers_agree`).
-/

namespace Gatehouse.Http

variable {m : Moment} {msg : Message} {site : Site} {o : Outage}

namespace Endpoint

/-- Adding users to a set of users. -/
theorem found_foldl (users : List UserId) {found : Table UserId Unit} (ascending : found.Ascending) :
    (users.foldl (fun found user => found.insert user ()) found).Ascending ∧
      ∀ user, user ∈ (users.foldl (fun found user => found.insert user ()) found).keys ↔
        user ∈ found.keys ∨ user ∈ users := by
  induction users generalizing found with
  | nil => exact ⟨ascending, fun user => by simp⟩
  | cons first rest ih =>
      obtain ⟨ordered, mem⟩ := ih (ascending.insert first ())
      refine ⟨ordered, fun user => ?_⟩
      rw [List.foldl_cons, mem user, List.mem_cons, ← or_assoc]
      exact or_congr_left (Table.mem_keys_place.trans or_comm)

/-- While the store answers, the holders of the roles are found, and come in order. -/
theorem holdersOfAny_eq_ok (up : o.stores .userIdsWithRole = false) (s : RoleStore) (roles : List Role)
    {found : Table UserId Unit} (ascending : found.Ascending) :
    ∃ users, holdersOfAny o s roles found = .ok users ∧ users.Pairwise (· < ·) ∧
      ∀ user, user ∈ users ↔ user ∈ found.keys ∨ ∃ r ∈ roles, user ∈ s.holders r.id := by
  induction roles generalizing found with
  | nil => exact ⟨found.keys, rfl, ascending, fun user => by simp⟩
  | cons r rest ih =>
      obtain ⟨ascending', added⟩ := found_foldl (s.holders r.id) ascending
      obtain ⟨users, computed, ordered, mem⟩ := ih ascending'
      refine ⟨users, ?_, ordered, fun user => ?_⟩
      · unfold holdersOfAny
        rw [Outage.reach_eq_ok.mpr ⟨up, rfl⟩]
        exact computed
      · rw [mem user, added user, List.exists_mem_cons_iff, or_assoc]

/-- While the store answers, the users with a role are shown, in order. -/
theorem showUsers_eq_ok (listed : m.outage.stores .listRoles = false)
    (up : m.outage.stores .userIdsWithRole = false) (linked : site.roles.Linked) :
    ∃ users : List UserId,
      showUsers m site = .ok (.object [("users", .array (users.map .ofId))]) ∧
      users.Pairwise (· < ·) ∧ ∀ user, user ∈ users ↔ site.roles.ofUser user ≠ [] := by
  obtain ⟨users, computed, ordered, mem⟩ :=
    holdersOfAny_eq_ok up site.roles site.roles.list Table.ascending_empty
  refine ⟨users, ?_, ordered, fun user => ?_⟩
  · unfold showUsers
    rw [Outage.reach_eq_ok.mpr ⟨listed, rfl⟩]
    simp only [bind, Except.bind, computed]
    rfl
  · rw [mem user, linked.ofUser_ne_nil_iff]
    simp [Table.keys, Table.empty]

end Endpoint

/-- The message asks for the users that have a role. -/
theorem Message.endpoint?_of_users (get : msg.method = "GET") (path : msg.path = "/admin/users") :
    msg.endpoint? = some .listUsers := by
  unfold endpoint?
  rw [get, path]
  decide

/-- A message that asks for the users, once it has passed, is answered with those that have a role. -/
theorem respond_users (get : msg.method = "GET") (path : msg.path = "/admin/users")
    (listed : m.outage.stores .listRoles = false) (up : m.outage.stores .userIdsWithRole = false)
    (linked : site.roles.Linked)
    (passes : (Endpoint.listUsers.chain.run m (msg.request Endpoint.listUsers.route) site).outcome =
      .ok ()) : ∃ users : List UserId,
      (respond m msg site).1.status = 200 ∧
      (respond m msg site).1.body = .json (.object [("users", .array (users.map .ofId))]) ∧
      users.Pairwise (· < ·) ∧ ∀ user, user ∈ users ↔ site.roles.ofUser user ≠ [] := by
  have whole : msg.method ≠ "HEAD" := by
    rw [get]
    decide
  obtain ⟨result, ran⟩ : ∃ result, Endpoint.listUsers.chain.run m
      (msg.request Endpoint.listUsers.route) site = result := ⟨_, rfl⟩
  have same : site.SameStores result.state := by
    rw [← ran]
    exact Endpoint.chain_sameStores
  rw [ran] at passes
  obtain ⟨headers, answer⟩ := respond_of_ok (Message.endpoint?_of_users get path) whole ran passes
  obtain ⟨users, shown, ordered, mem⟩ :=
    Endpoint.showUsers_eq_ok listed up (same.roles.symm ▸ linked)
  have handled : Endpoint.handle m msg result.context result.state .listUsers =
      (.ofJson 200 (.object [("users", .array (users.map .ofId))]), result.state) := by
    unfold Endpoint.handle
    rw [shown]
    rfl
  rw [same.roles] at mem
  rw [answer, handled]
  exact ⟨users, rfl, rfl, ordered, mem⟩

/-- **The readers of roles and assignments agree**, after any writes to a new store. Every role that is
assigned is stored. A user is among the holders of a role exactly when the role is among those of the user;
both lists ascend, and so does that of all roles. A role that is deleted and put again has no holder until
it is assigned again. And who asks for the users with a role is given just those who have one, in order. -/
theorem readers_agree (writes : List RoleStore.Write) :
    let s := RoleStore.empty.writeAll writes
    (∀ user, ∀ id ∈ s.assigned user, ∃ r, s.find? id = some r) ∧
    (∀ user id, user ∈ s.holders id ↔ ∃ r, s.find? id = some r ∧ r ∈ s.ofUser user) ∧
    ((∀ user, ((s.ofUser user).map (·.id)).Pairwise (· < ·)) ∧
      (∀ id, (s.holders id).Pairwise (· < ·)) ∧ (s.list.map (·.id)).Pairwise (· < ·)) ∧
    (∀ before between after r,
      writes = before ++ .delete r.id :: (between ++ .put r :: after) →
      (∀ r', .put r' ∈ between → r'.id ≠ r.id) → (∀ user, .assign user r.id ∉ after) →
        s.holders r.id = []) ∧
    ∀ (m : Moment) (msg : Message) (site : Site), site.roles = s →
      m.outage.stores .listRoles = false → m.outage.stores .userIdsWithRole = false →
      msg.method = "GET" → msg.path = "/admin/users" →
      (Endpoint.listUsers.chain.run m (msg.request Endpoint.listUsers.route) site).outcome = .ok () →
      ∃ users : List UserId,
        (respond m msg site).1.status = 200 ∧
        (respond m msg site).1.body = .json (.object [("users", .array (users.map .ofId))]) ∧
        users.Pairwise (· < ·) ∧ ∀ user, user ∈ users ↔ s.ofUser user ≠ [] := by
  intro s
  have linked : s.Linked := RoleStore.linked_empty.writeAll writes
  refine ⟨fun user id assigned => Option.isSome_iff_exists.mp (linked.stored assigned),
    fun user id => linked.mem_holders_iff_ofUser,
    ⟨linked.ascending_ofUser, linked.ascending_holders, linked.ascending_list⟩, ?_, ?_⟩
  · intro before between after r run absent unassigned
    refine List.eq_nil_iff_forall_not_mem.mpr fun user held => ?_
    have assigned := linked.mem_holders_iff.mp held
    have unheld : r.id ∉ (RoleStore.empty.writeAll writes).assigned user := by
      rw [run]
      exact RoleStore.assigned_of_put_again (fun r' put => (absent r' put).symm) (unassigned user)
    exact unheld assigned
  · intro m msg site stored listed up get path passes
    have answered := respond_users get path listed up (stored ▸ linked) passes
    rw [stored] at answered
    exact answered

/-- The role of those who may do everything. -/
def administratorRole : Role := ⟨1, "admin", "Administrator", true, [.everywhere "*:*:*"]⟩

/-- A role that is deleted and put again. -/
def editorRole : Role := ⟨3, "editor", "Editor", false, [.everywhere "org:page:*"]⟩

/-- Two roles are put, and each of them is assigned to a user. -/
def writesBefore : List RoleStore.Write :=
  [.put administratorRole, .put editorRole, .assign 11 1, .assign 5 3]

/-- The role of the editors is deleted and put again. In between it cannot be assigned to another user. -/
def reorganization : List RoleStore.Write :=
  writesBefore ++ .delete 3 :: ([.assign 6 3] ++ .put editorRole :: [])

/-- The service after these writes, in which the administrator has a session. -/
def reorganized : Site :=
  { Site.start .default .log 0 with
    roles := RoleStore.empty.writeAll reorganization
    sessions := Sessions.empty.add "secret" 11 }

/-- The administrator asks for the users that have a role. -/
def Message.forUsers : Message :=
  ⟨"GET", "/admin/users", [("authorization", "Bearer secret")], "", none⟩

/-- The editors are nobody, and only the administrator is shown to have a role. -/
theorem reorganized_readers_agree :
    reorganized.roles.holders 3 = [] ∧ ∃ users : List UserId,
      (respond default .forUsers reorganized).1.body =
        .json (.object [("users", .array (users.map .ofId))]) ∧
      11 ∈ users ∧ 5 ∉ users ∧ 6 ∉ users := by
  have passes : (Endpoint.listUsers.chain.run default
      (Message.forUsers.request Endpoint.listUsers.route) reorganized).outcome = .ok () := by
    decide +kernel
  have path : Message.forUsers.path = "/admin/users" := by decide +kernel
  obtain ⟨_, _, _, again, asked⟩ := readers_agree reorganization
  obtain ⟨users, _, body, _, mem⟩ := asked default .forUsers reorganized rfl rfl rfl rfl path passes
  refine ⟨again writesBefore [.assign 6 3] [] editorRole rfl (by simp) (by simp), users, body, ?_⟩
  exact ⟨(mem 11).mpr (by decide), mt (mem 5).mp (by decide), mt (mem 6).mp (by decide)⟩

end Gatehouse.Http
