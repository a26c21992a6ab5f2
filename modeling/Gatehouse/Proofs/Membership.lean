import Gatehouse.Membership
import Mathlib.Data.List.Basic

/-!
What a directory knows after any calls.

Each look-up is told by the calls alone. One call does one thing to it: a team stays in its organization, if it
has one (`teamOrg?_call`), and a place that is given replaces the place before (`orgRole?_call`, `teamRole?_call`).
So after a run a team is in the organization it was first registered in, and a member has the place that the last
successful call gave. The main statement is `play_exact`.
-/

namespace Gatehouse

/-- A call that writes to a directory. -/
inductive DirectoryCall where
  | addOrg (org : OrgId)
  | addOrgMember (org : OrgId) (user : UserId) (role : OrgRole)
  | addTeam (org : OrgId) (team : TeamId)
  | addTeamMember (team : TeamId) (user : UserId) (role : TeamRole)
  deriving Repr, DecidableEq

namespace DirectoryCall

/-- The organization that a call names. -/
def org? : DirectoryCall → Option OrgId
  | .addOrg org | .addOrgMember org _ _ | .addTeam org _ => some org
  | .addTeamMember .. => none

/-- The organization that a call registers a team in. -/
def home? (team : TeamId) : DirectoryCall → Option OrgId
  | .addTeam org team' => if team = team' then some org else none
  | .addOrg _ | .addOrgMember .. | .addTeamMember .. => none

/-- The place in an organization that a call asks for. -/
def orgRole? (org : OrgId) (user : UserId) : DirectoryCall → Option OrgRole
  | .addOrgMember org' user' role => if org = org' ∧ user = user' then some role else none
  | .addOrg _ | .addTeam .. | .addTeamMember .. => none

/-- The place in a team that a call asks for. -/
def teamRole? (team : TeamId) (user : UserId) : DirectoryCall → Option TeamRole
  | .addTeamMember team' user' role => if team = team' ∧ user = user' then some role else none
  | .addOrg _ | .addOrgMember .. | .addTeam .. => none

theorem home?_eq_some_iff {team : TeamId} {c : DirectoryCall} {org : OrgId} :
    c.home? team = some org ↔ c = .addTeam org team := by
  cases c <;> simp [home?, eq_comm, and_comm]

end DirectoryCall

namespace Directory

variable {d : Directory} {c : DirectoryCall} {calls later : List DirectoryCall} {org org' : OrgId}
  {team team' : TeamId} {user user' : UserId}

/-! ### Runs of calls -/

/-- Makes a call, and tells whether it succeeded. -/
def call (d : Directory) : DirectoryCall → Bool × Directory
  | .addOrg org => (true, d.addOrg org)
  | .addOrgMember org user role => (true, d.addOrgMember org user role)
  | .addTeam org team => (true, d.addTeam org team)
  | .addTeamMember team user role => d.addTeamMember team user role

/-- The directory after calls. -/
def callAll (d : Directory) (calls : List DirectoryCall) : Directory :=
  calls.foldl (fun d c => (d.call c).2) d

/-- The calls that succeed, in order. -/
def successful : Directory → List DirectoryCall → List DirectoryCall
  | _, [] => []
  | d, c :: rest =>
    let (success, d) := d.call c
    if success then c :: successful d rest else successful d rest

/-- The directory after a run that begins with no organization and no team. -/
def play (calls : List DirectoryCall) : Directory := empty.callAll calls

/-! ### What one call does -/

/-- Giving a place in a registered team succeeds, and fails without a change in any other. -/
theorem addTeamMember_cases (d : Directory) (team : TeamId) (user : UserId) (role : TeamRole) :
    (∃ t, d.teams.find? team = some t ∧ d.addTeamMember team user role =
      (true, { d with teams := d.teams.insert team { t with members := t.members.insert user role } })) ∨
    d.teams.find? team = none ∧ d.addTeamMember team user role = (false, d) := by
  unfold addTeamMember
  cases found : d.teams.find? team with
  | some t => exact Or.inl ⟨t, rfl, rfl⟩
  | none => exact Or.inr ⟨rfl, rfl⟩

/-- Registering an organization gives nobody a place in one, and takes none. -/
theorem orgRole?_addOrg (org' : OrgId) : (d.addOrg org').orgRole? org user = d.orgRole? org user := by
  simp only [orgRole?, addOrg, Table.find?_insert]
  by_cases same : org = org'
  · subst same
    cases d.orgs.find? org <;> simp
  · simp [same]

/-- A place in an organization stays until another is given. -/
theorem orgRole?_call : (d.call c).2.orgRole? org user =
    (if (d.call c).1 then c.orgRole? org user else none).or (d.orgRole? org user) := by
  cases c with
  | addOrg org' => exact orgRole?_addOrg org'
  | addOrgMember org' user' role =>
      simp only [call, orgRole?, addOrgMember, DirectoryCall.orgRole?, Table.find?_insert, if_true]
      by_cases same : org = org'
      · subst same
        by_cases same' : user = user'
        · simp [same']
        · cases d.orgs.find? org <;> simp [same', Table.find?_insert]
      · simp [same]
  | addTeam org' team => exact orgRole?_addOrg org'
  | addTeamMember team user' role =>
      rcases d.addTeamMember_cases team user' role with ⟨t, _, added⟩ | ⟨_, failed⟩
      · rw [call, added]
        rfl
      · rw [call, failed]
        rfl

/-- Registering a team gives nobody a place in one, and takes none. -/
theorem teamRole?_addTeam (org : OrgId) (team' : TeamId) :
    (d.addTeam org team').teamRole? team user = d.teamRole? team user := by
  simp only [teamRole?, addTeam, Table.find?_insert]
  by_cases same : team = team'
  · subst same
    cases d.teams.find? team <;> simp
  · simp [same]

/-- A place in a team stays until another is given, successfully. -/
theorem teamRole?_call : (d.call c).2.teamRole? team user =
    (if (d.call c).1 then c.teamRole? team user else none).or (d.teamRole? team user) := by
  cases c with
  | addOrg org => rfl
  | addOrgMember org user' role => rfl
  | addTeam org team' => exact teamRole?_addTeam org team'
  | addTeamMember team' user' role =>
      rcases d.addTeamMember_cases team' user' role with ⟨t, found, added⟩ | ⟨_, failed⟩
      · rw [call, added]
        simp only [teamRole?, DirectoryCall.teamRole?, Table.find?_insert]
        by_cases same : team = team'
        · subst same
          by_cases same' : user = user'
          · simp [same']
          · simp [same', found, Table.find?_insert]
        · simp [same]
      · rw [call, failed]
        rfl

/-- A team stays in its organization. -/
theorem teamOrg?_call : (d.call c).2.teamOrg? team = (d.teamOrg? team).or (c.home? team) := by
  cases c with
  | addOrg org => exact Option.or_none.symm
  | addOrgMember org user role => exact Option.or_none.symm
  | addTeam org team' =>
      simp only [call, teamOrg?, addTeam, DirectoryCall.home?, Table.find?_insert]
      by_cases same : team = team'
      · subst same
        cases d.teams.find? team <;> simp
      · simp [same]
  | addTeamMember team' user role =>
      rw [DirectoryCall.home?, Option.or_none]
      rcases d.addTeamMember_cases team' user role with ⟨t, found, added⟩ | ⟨_, failed⟩
      · rw [call, added]
        simp only [teamOrg?, Table.find?_insert]
        by_cases same : team = team'
        · subst same
          simp [found]
        · simp [same]
      · rw [call, failed]

theorem orgExists_of_orgs {d' : Directory} {members : Table UserId OrgRole}
    (orgs : d'.orgs = d.orgs.insert org' members) :
    d'.orgExists org = true ↔ d.orgExists org = true ∨ some org' = some org := by
  rw [orgExists, orgs, Table.contains, Table.find?_insert, Option.some.injEq]
  by_cases same : org = org'
  · simp [same]
  · simp [same, Ne.symm same, orgExists, Table.contains]

/-- An organization stays, and what a call names as an organization becomes one. -/
theorem orgExists_call :
    (d.call c).2.orgExists org = true ↔ d.orgExists org = true ∨ c.org? = some org := by
  cases c with
  | addOrg org' => exact orgExists_of_orgs rfl
  | addOrgMember org' user role => exact orgExists_of_orgs rfl
  | addTeam org' team => exact orgExists_of_orgs rfl
  | addTeamMember team user role =>
      simp only [DirectoryCall.org?, reduceCtorEq, or_false]
      rcases d.addTeamMember_cases team user role with ⟨t, _, added⟩ | ⟨_, failed⟩
      · rw [call, added]
        rfl
      · rw [call, failed]

/-- Giving a place in a team succeeds when the team is in an organization. -/
theorem addTeamMember_fst (d : Directory) (team : TeamId) (user : UserId) (role : TeamRole) :
    (d.addTeamMember team user role).1 = (d.teamOrg? team).isSome := by
  rw [teamOrg?]
  rcases d.addTeamMember_cases team user role with ⟨t, found, added⟩ | ⟨found, failed⟩
  · rw [added, found]
    rfl
  · rw [failed, found]
    rfl

/-- Otherwise it changes nothing. -/
theorem addTeamMember_of_failed {role : TeamRole} (failed : (d.addTeamMember team user role).1 = false) :
    (d.addTeamMember team user role).2 = d := by
  rcases d.addTeamMember_cases team user role with ⟨t, _, added⟩ | ⟨_, same⟩
  · rw [added] at failed
    cases failed
  · rw [same]

/-! ### What a run does -/

theorem callAll_append (d : Directory) (calls later : List DirectoryCall) :
    d.callAll (calls ++ later) = (d.callAll calls).callAll later := List.foldl_append

/-- Every team is in an organization that exists. -/
def Housed (d : Directory) : Prop := ∀ team org, d.teamOrg? team = some org → d.orgExists org = true

theorem housed_empty : empty.Housed := fun _ _ home => nomatch home

theorem Housed.step (housed : d.Housed) (c : DirectoryCall) : (d.call c).2.Housed := by
  intro team org home
  rw [teamOrg?_call, Option.or_eq_some_iff] at home
  rcases home with before | ⟨_, now⟩
  · exact orgExists_call.mpr (Or.inl (housed team org before))
  · obtain rfl := DirectoryCall.home?_eq_some_iff.mp now
    exact orgExists_call.mpr (Or.inr rfl)

theorem Housed.run (housed : d.Housed) (calls : List DirectoryCall) : (d.callAll calls).Housed := by
  induction calls generalizing d with
  | nil => exact housed
  | cons c rest ih => exact ih (housed.step c)

/-- A team stays in its organization, and comes into the first one that it is registered in. -/
theorem teamOrg?_callAll : (d.callAll calls).teamOrg? team =
    (d.teamOrg? team).or (calls.filterMap (·.home? team)).head? := by
  induction calls generalizing d with
  | nil => exact Option.or_none.symm
  | cons c rest ih =>
      refine (ih (d := (d.call c).2)).trans ?_
      rw [teamOrg?_call, Option.or_assoc]
      cases home : c.home? team <;> simp [home]

/-- What every successful call may replace is as the last of them left it. -/
theorem eq_last_successful {α : Type} (view : Directory → Option α) (given : DirectoryCall → Option α)
    (step : ∀ (d : Directory) c, view (d.call c).2 = (if (d.call c).1 then given c else none).or (view d))
    (d : Directory) (calls : List DirectoryCall) :
    view (d.callAll calls) = ((successful d calls).filterMap given).getLast?.or (view d) := by
  -- The first call may fail or change `d`, so `d` is left general.
  induction calls generalizing d with
  | nil => rfl
  | cons c rest ih =>
      have stepped := step d c
      obtain ⟨success, d', made⟩ : ∃ success d', d.call c = (success, d') := ⟨_, _, rfl⟩
      have first : d.callAll (c :: rest) = d'.callAll rest := by
        rw [callAll, List.foldl_cons, made]
        rfl
      rw [made] at stepped
      rw [first, ih, successful, made, stepped]
      cases success with
      | false => rfl
      | true => cases place : given c <;> simp [place, List.getLast?_cons]

/-- **What a directory knows after any calls.** Every team is in an organization that exists. It is in the one
that the first registration of the team names, and stays there. Places in organizations and teams are those the
last successful calls gave, and nobody else has one. A place in a team is given if the team was registered, and
else nothing changes. Registering an organization or a team, again or not, leaves all places as they are. -/
theorem play_exact (calls : List DirectoryCall) :
    let d := play calls
    (∀ team org, d.teamOrg? team = some org → d.orgExists org = true) ∧
    (∀ team, d.teamOrg? team = (calls.filterMap (·.home? team)).head? ∧
      ∀ org later, d.teamOrg? team = some org → (play (calls ++ later)).teamOrg? team = some org) ∧
    (∀ org user, d.orgRole? org user =
      ((successful empty calls).filterMap (·.orgRole? org user)).getLast?) ∧
    (∀ team user, d.teamRole? team user =
      ((successful empty calls).filterMap (·.teamRole? team user)).getLast?) ∧
    (∀ team user role,
      ((d.addTeamMember team user role).1 = true ↔ ∃ org, .addTeam org team ∈ calls) ∧
      ((d.addTeamMember team user role).1 = false → (d.addTeamMember team user role).2 = d)) ∧
    ∀ org team, (d.addOrg org).orgRole? = d.orgRole? ∧ (d.addOrg org).teamRole? = d.teamRole? ∧
      (d.addTeam org team).orgRole? = d.orgRole? ∧ (d.addTeam org team).teamRole? = d.teamRole? := by
  intro d
  have home : ∀ team, d.teamOrg? team = (calls.filterMap (·.home? team)).head? := fun team => teamOrg?_callAll
  refine ⟨housed_empty.run calls, fun team => ⟨home team, ?stays⟩, ?orgRoles, ?teamRoles, ?given, ?again⟩
  case stays =>
    intro org later found
    rw [play, callAll_append, teamOrg?_callAll]
    exact Option.or_eq_some_iff.mpr (Or.inl found)
  case orgRoles =>
    intro org user
    have last := eq_last_successful (·.orgRole? org user) (·.orgRole? org user)
      (fun d c => orgRole?_call) empty calls
    exact last.trans Option.or_none
  case teamRoles =>
    intro team user
    have last := eq_last_successful (·.teamRole? team user) (·.teamRole? team user)
      (fun d c => teamRole?_call) empty calls
    exact last.trans Option.or_none
  case given =>
    intro team user role
    refine ⟨?_, addTeamMember_of_failed⟩
    rw [addTeamMember_fst, home, List.head?_filterMap, List.findSome?_isSome_iff]
    simp only [Option.isSome_iff_exists, DirectoryCall.home?_eq_some_iff]
    exact ⟨fun ⟨_, mem, org, named⟩ => ⟨org, named ▸ mem⟩, fun ⟨org, mem⟩ => ⟨_, mem, org, rfl⟩⟩
  case again =>
    intro org team
    exact ⟨funext₂ fun _ _ => orgRole?_addOrg org, rfl, funext₂ fun _ _ => orgRole?_addOrg org,
      funext₂ fun _ _ => teamRole?_addTeam org team⟩

/-- A team is given a member before it is registered and twice afterwards, and is registered in another
organization too. -/
def runOfOneTeam : List DirectoryCall :=
  [.addTeamMember 3 2 .lead, .addTeam 7 3, .addTeamMember 3 2 .member, .addTeamMember 3 2 .lead,
    .addOrgMember 8 2 .owner, .addTeam 8 3]

/-- The team stays in its first organization, and keeps its member with the last place. A team that was never
registered gets no member. -/
theorem runOfOneTeam_exact :
    (play runOfOneTeam).teamOrg? 3 = some 7 ∧ (play runOfOneTeam).orgExists 7 = true ∧
      (play (runOfOneTeam ++ [.addTeam 9 3])).teamOrg? 3 = some 7 ∧
      (play runOfOneTeam).teamRole? 3 2 = some .lead ∧
      ((play runOfOneTeam).addTeamMember 4 2 .lead).2 = play runOfOneTeam := by
  obtain ⟨exist, homes, -, places, given, -⟩ := play_exact runOfOneTeam
  have home : (play runOfOneTeam).teamOrg? 3 = some 7 := (homes 3).1.trans (by decide)
  exact ⟨home, exist 3 7 home, (homes 3).2 7 [.addTeam 9 3] home, (places 3 2).trans (by decide),
    (given 4 2 .lead).2 (by decide)⟩

end Directory

end Gatehouse
