import Gatehouse.Proofs.Site.Growth
import Gatehouse.Proofs.Token.Selection

/-!
Permissions of roles that are replaced by permissions which subsume them.

Users are entitled to such a permission in the place of the replaced one
(`RoleStore.Seeded.covered_of_replaced`), and it grants whatever that one did. But it need not be kept by the
scopes of a token that kept the replaced one: the scopes that a token is issued with leave it out exactly when
they restrict and its operation pattern begins with a `*` (`Scopes.keeps_iff`). The main statement is
`subsumption_sound`: matching is transitive, and a replacement takes nothing from anyone but the bearers of such
tokens.
-/

namespace Gatehouse

open Text

variable {p p' q : Permission} {before after : List Permission}

/-! ### Scopes -/

theorem TokenScope.name_ne_wildcard (scope : TokenScope) : scope.name ≠ Pattern.wildcard := by
  cases scope <;> decide

namespace Scopes

variable {scopes requested : List String}

theorem keeps_congr (same : p'.operation = p.operation) : Keeps scopes p' ↔ Keeps scopes p := by
  simp only [Keeps, Permission.isSuperAdmin, cover, same]

/-- Scopes keep what may be stored when they are full or select it. -/
theorem keeps_iff_selects (words : ∀ scope ∈ scopes, ':' ∉ scope.toList) (checked : p.check = .ok ()) :
    Keeps scopes p ↔ areFull scopes = true ∨ Selects scopes p := by
  rw [← covers_iff_selects words checked, Keeps]
  simp

/-- The scopes that a token is issued with keep what subsumes a permission that they keep, unless they restrict
and it begins with a `*`. -/
theorem keeps_iff (normalized : normalize requested = .ok scopes) (checked : p.check = .ok ())
    (checked' : q.check = .ok ()) (subsumes : p.Subsumes q) (kept : Keeps scopes q) :
    Keeps scopes p ↔ areFull scopes = true ∨ (split ':' p.operation).head? ≠ some Pattern.wildcard := by
  have words := colon_notMem_of_mem_normalize normalized
  rw [keeps_iff_selects words checked]
  rw [keeps_iff_selects words checked'] at kept
  refine or_congr_right' fun narrow => ?_
  obtain ⟨-, scope, listed, head⟩ := kept.resolve_left narrow
  constructor
  · rintro ⟨-, scope', listed', head'⟩ star
    obtain rfl := Option.some.inj (head'.symm.trans star)
    obtain ⟨named, same⟩ := exists_name_of_mem_normalize normalized _ listed'
    exact TokenScope.name_ne_wildcard named same
  · intro fixed
    have head' := (Pattern.head_of_matchesOperation subsumes.operation).resolve_left fixed
    refine ⟨fun everything => fixed ?_, scope, listed, head'.trans head⟩
    rw [everything]
    decide

end Scopes

/-! ### Roles -/

/-- A permission subsumes no less as it is stored. -/
theorem Permission.Subsumes.on (subsumes : p.Subsumes q) :
    (Permission.on p.operation p.resource).Subsumes q := by
  refine ⟨subsumes.operation, ?_⟩
  unfold Permission.on
  split
  · exact Pattern.matchesResource_wildcard _
  · exact subsumes.resource

namespace RoleStore.Seeded

variable {s : RoleStore} {o : Outage} {c : Change} {user : UserId} {id : RoleId} {r : Role} {q' : Permission}

/-- After a permission of a role is replaced by one that subsumes it, a user is entitled to what it was entitled
to before, or to the new permission in the place of the old one. -/
theorem covered_of_replaced (seeded : s.Seeded) (found : s.find? id = some r)
    (stored : r.permissions = before ++ q :: after) (subsumes : p.Subsumes q)
    (done : ((RoleCall.setPermissions id (before ++ p :: after)).change o).run (.start s) = (.ok (), c))
    (entitled : q' ∈ (s.entitled user).permissions) :
    q' ∈ (c.store.entitled user).permissions ∨
      q' = q ∧ ∃ p' ∈ (c.store.entitled user).permissions,
        p'.operation = p.operation ∧ p'.StandsFor q := by
  have seeded' : c.store.Seeded := seeded.change done
  obtain ⟨r', acts, mem⟩ := seeded.entitled_iff.mp entitled
  have acts' := acts.of_setPermissions done
  by_cases same : r'.id = id
  · rw [if_pos same] at acts'
    obtain rfl : r' = r := Option.some.inj (acts.found.symm.trans (same ▸ found))
    have held {p' : Permission} (mem : p' ∈ before ++ p :: after) :
        Permission.on p'.operation p'.resource ∈ (c.store.entitled user).permissions :=
      seeded'.entitled_iff.mpr ⟨_, acts', List.mem_map_of_mem mem⟩
    by_cases kept : q' ∈ before ++ p :: after
    · rw [← Permission.on_of_check (seeded.storable found q' mem)]
      exact Or.inl (held kept)
    · obtain rfl : q' = q := by
        rw [stored] at mem
        grind
      have new := held (List.mem_append_right before (List.mem_cons_self ..))
      exact Or.inr ⟨rfl, _, new, rfl, Or.inr ⟨seeded'.check_of_mem_entitled new, subsumes.on⟩⟩
  · rw [if_neg same] at acts'
    exact Or.inl (seeded'.entitled_iff.mpr ⟨r', acts', mem⟩)

end RoleStore.Seeded

/-! ### Requests -/

variable {m m' : Moment} {s : Site} {request : Request} {route : Route} {id : RoleId} {r : Role}

/-- What passes a route passes it after a permission of a role is replaced by one that subsumes it, if the
identity that the request proves keeps the new one where it kept the old one. -/
theorem passes_after_replacement (coherent : s.Coherent) (calm : m.outage = .none) (calm' : m'.outage = .none)
    (found : s.roles.find? id = some r) (stored : r.permissions = before ++ q :: after)
    (subsumes : p.Subsumes q)
    (kept : ∀ identity, Proves m s request identity → identity.Keeps q → identity.Keeps p)
    (passes : ((Chain.build route .standard).run m request s).outcome = .ok ()) :
    ((Chain.build route .standard).run m request
      (Site.Step.after m' (.administer (.setPermissions id (before ++ p :: after))) s)).outcome = .ok () := by
  let step : Site.Step := .administer (.setPermissions id (before ++ p :: after))
  cases guarded : route.isPublic with
  -- A public route decides without looking at the service.
  | true => exact (passes_public_iff guarded).mpr ((passes_public_iff guarded).mp passes)
  | false =>
      have paired := paired_of_passes guarded passes
      obtain ⟨identity, proves, admits, -⟩ := admitted_of_passes guarded paired calm passes
      refine passes_of_admitted guarded paired calm (step.proves_after proves)
        (admits.of_covered coherent (coherent.after calm' step) calm step.directory_after ?_)
      intro q' entitled keeps
      rcases Site.administer_roles m' s
        (.setPermissions id (before ++ p :: after)) with same | ⟨c, done, same⟩
      · exact ⟨q', same ▸ entitled, keeps, Or.inl rfl⟩
      · obtain here | ⟨rfl, p', here, operation, stands⟩ :=
          coherent.seeded.covered_of_replaced found stored subsumes done entitled
        · exact ⟨q', same ▸ here, keeps, Or.inl rfl⟩
        · have keeps' : identity.Keeps p' := fun scopes given =>
            (Scopes.keeps_congr operation).mpr (kept identity proves keeps scopes given)
          exact ⟨p', same ▸ here, keeps', stands⟩

/-- **A permission that subsumes another one may take its place.** What matches a pattern is matched by all that
match the pattern, and so a list of permissions grants no less when one of them is replaced by one that
subsumes it. After such a replacement in a role, requests pass the routes that they passed, unless they bear a
token with scopes that kept the replaced permission and leave out the new one. For the scopes that a token is
issued with, these are the scopes that restrict, and the new permissions whose operation pattern begins with a
`*`. -/
theorem subsumption_sound :
    (∀ p q c, Pattern.matchesOperation p q = true → Pattern.matchesOperation q c = true →
      Pattern.matchesOperation p c = true) ∧
    (∀ p q c, Pattern.checkResource p = .ok () → Pattern.checkResource q = .ok () →
      (split ':' c).length = 3 → Pattern.matchesResource p q = true → Pattern.matchesResource q c = true →
        Pattern.matchesResource p c = true) ∧
    ∀ (p q : Permission) (before after : List Permission), p.Subsumes q →
      (p.check = .ok () → ∀ (op : Operation) (vars : Variables), vars.OfRequest →
        (Grant.find? (before ++ q :: after) op (Grant.candidates op vars)).isSome = true →
          (Grant.find? (before ++ p :: after) op (Grant.candidates op vars)).isSome = true) ∧
      (∀ (m m' : Moment) (s : Site) (request : Request) (route : Route) (id : RoleId) (r : Role),
        s.Coherent → m.outage = .none → m'.outage = .none → s.roles.find? id = some r →
        r.permissions = before ++ q :: after →
        (∀ identity, Proves m s request identity → identity.Keeps q → identity.Keeps p) →
        ((Chain.build route .standard).run m request s).outcome = .ok () →
        ((Chain.build route .standard).run m request
          (Site.Step.after m' (.administer (.setPermissions id (before ++ p :: after))) s)).outcome =
            .ok ()) ∧
      ∀ requested scopes, Scopes.normalize requested = .ok scopes → p.check = .ok () → q.check = .ok () →
        Scopes.Keeps scopes q →
          (¬ Scopes.Keeps scopes p ↔
            Scopes.Restrictive scopes ∧ (split ':' p.operation).head? = some Pattern.wildcard) := by
  refine ⟨fun _ _ _ => Pattern.matchesOperation_trans, ?_, ?_⟩
  · intro p q c checked _ three matching matching'
    have few := (Pattern.checkResource_eq_ok_iff.mp checked).1
    exact Pattern.matchesResource_trans (by omega) matching matching'
  intro p q before after subsumes
  refine ⟨?_, ?_, ?_⟩
  · intro checked op vars request granted
    exact Grant.isSome_find?_of_covered request
      (Permission.covered_replace (Or.inr ⟨checked, subsumes⟩)) granted
  · intro m m' s request route id r coherent calm calm' found stored kept passes
    exact passes_after_replacement coherent calm calm' found stored subsumes kept passes
  · intro requested scopes normalized checked checked' kept
    rw [Scopes.keeps_iff normalized checked checked' subsumes kept, ← Scopes.areFull_eq_false_iff]
    simp

/-- The settings of one team are replaced by all that may be done in all teams of the organization; the owner
passes by a session. -/
theorem owner_passes_after_replacement :
    let settings : Permission := ⟨"org:team:settings", "org.7.*:*:*"⟩
    let teams : Permission := ⟨"org:team:*", "org.*:*"⟩
    let s := Site.play [(default, .administer (.createRole ⟨7, "owner", "Owner", false, [settings]⟩)),
      (default, .administer (.assignRole 12 7))] .ofOneOwner
    teams.Subsumes settings ∧
      Pattern.matchesOperation "org:*:*" "org:team:settings" = true ∧
      Pattern.matchesResource "org.*:*" "org.7.team.3:*:*" = true ∧
      (Grant.find? [teams] Route.teamSettings.operation (Grant.candidates Route.teamSettings.operation
        ((Standing.inTeam 7 .owner 3 none).vars 12))).isSome = true ∧
      ((Chain.build .teamSettings .standard).run default (.forTeamSettings "Bearer secret") s).outcome =
        .ok () ∧
      ((Chain.build .teamSettings .standard).run default (.forTeamSettings "Bearer secret")
        (Site.Step.after default (.administer (.setPermissions 7 [teams])) s)).outcome = .ok () ∧
      ¬ Scopes.Keeps ["sys"] ⟨"*:users:list", "*"⟩ := by
  intro settings teams s
  obtain ⟨operations, resources, replaced⟩ := subsumption_sound
  have subsumes : teams.Subsumes settings := by decide
  have coherent : s.Coherent := Site.coherent_builtIn.play
    (List.forall_mem_cons.mpr ⟨rfl, List.forall_mem_singleton.mpr rfl⟩)
  have stored : s.roles.find? 7 = some ⟨7, "owner", "Owner", false, [settings]⟩ := by decide +kernel
  have passes : ((Chain.build .teamSettings .standard).run default (.forTeamSettings "Bearer secret")
      s).outcome = .ok () := by decide +kernel
  have header : Credential.ofHeader "pat_" (some "Bearer secret") = .ok (.session "secret") := by decide
  have opened : Proves default .ofOneOwner (.forTeamSettings "Bearer secret") ⟨12, .session, none⟩ :=
    .session header (by decide)
  have session : Proves default s (.forTeamSettings "Bearer secret") ⟨12, .session, none⟩ :=
    Site.proves_play opened
  have kept : ∀ identity, Proves default s (.forTeamSettings "Bearer secret") identity →
      identity.Keeps settings → identity.Keeps teams := by
    intro identity proves _
    obtain rfl := proves.unique session
    rintro scopes ⟨⟩
  refine ⟨subsumes, operations _ "org:team:*" _ (by decide) (by decide),
    resources _ "org.7.*:*" _ (by decide) (by decide) (by decide) (by decide) (by decide), ?_, passes, ?_, ?_⟩
  · exact (replaced _ _ [] [] subsumes).1 (by decide) _ _ Standing.ofRequest_vars (by decide)
  · exact (replaced _ _ [] [] subsumes).2.1 default default s _ _ 7 _ coherent rfl rfl stored rfl kept passes
  · have wider : Permission.Subsumes ⟨"*:users:list", "*"⟩ ⟨"sys:users:list", "*"⟩ := by decide
    exact ((replaced _ _ [] [] wider).2.2 ["sys"] ["sys"] rfl rfl rfl (by decide)).mpr (by decide)

/-! ### A token that loses access -/

/-- Outside of organizations, an identity is admitted by the permissions of its user that it keeps. -/
theorem admits_outside_iff {identity : Identity} (coherent : s.Coherent) (calm : m.outage = .none)
    (noOrg : route.needsOrg = false) (noTeam : route.needsTeam = false) :
    Admits m s route request identity ↔
      ∃ p ∈ (s.roles.entitled identity.user).permissions, identity.Keeps p ∧
        Grant.permits route.operation (Standing.outside.resources route.operation identity.user) p = true := by
  have load : (s.cache.load m s.roles identity.user).1 = .ok (s.roles.entitled identity.user) :=
    coherent.cache.load_eq coherent.seeded calm
  have left {p : Permission} : p ∈ Site.permissionsOf identity (s.roles.entitled identity.user) ↔
      p ∈ (s.roles.entitled identity.user).permissions ∧ identity.Keeps p :=
    Site.mem_permissionsOf_iff fun p mem => coherent.seeded.check_of_mem_entitled mem
  have nonempty := Standing.outside.resources_ne_nil route.operation identity.user
  constructor
  · rintro ⟨standing, e, holds, load', p, mem, granted⟩
    obtain rfl := Except.ok.inj (load.symm.trans load')
    cases standing with
    | outside =>
        have nothing : Standing.outside.lent = [] := rfl
        rw [nothing, List.append_nil, left] at mem
        exact ⟨p, mem.1, mem.2, (Grant.permits_iff nonempty).mpr granted⟩
    | inOrg => cases noOrg.symm.trans holds.1
    | inTeam => cases noOrg.symm.trans holds.1
  · rintro ⟨p, mem, kept, permitted⟩
    exact ⟨.outside, _, ⟨noOrg, noTeam⟩, load, p, List.mem_append_left _ (left.mpr ⟨mem, kept⟩),
      (Grant.permits_iff nonempty).mp permitted⟩

/-- The list of all users. -/
def Route.usersList : Route :=
  ⟨"GET", "/admin/users", ⟨"sys:users:list", Grant.isOperation_usersList⟩, []⟩

/-- A request for the list of all users. -/
def Request.forUsersList : Request :=
  ⟨"GET", "/admin/users", some "Bearer pat_reader", none, .empty, none⟩

/-- A token that is good for the operations of the system. -/
def Token.ofSystem : Token :=
  ⟨"laptop", 12, "laptop", hashOf "pat_reader", [TokenScope.sys.name], .active, none, [], default⟩

/-- A service with a user who has such a token. -/
def Site.ofOneToken : Site :=
  { Site.start .default .log 0 with
    roles := .builtIn
    tokens := TokenStore.empty.insert .ofSystem }

/-- A service with a user who may do everything in the system, and has a token for that. -/
def Site.ofOneReader : Site :=
  Site.play [(default, .administer (.createRole ⟨9, "reader", "Reader", false, [.everywhere "sys:*:*"]⟩)),
    (default, .administer (.assignRole 12 9))] .ofOneToken

/-- Not every replacement by a permission that subsumes the old one leaves all access. -/
theorem narrow_token_loses_access :
    ¬ ∀ (p q : Permission) (before after : List Permission) (m m' : Moment) (s : Site) (request : Request)
      (route : Route) (id : RoleId) (r : Role), p.Subsumes q → s.Coherent → m.outage = .none →
        m'.outage = .none → s.roles.find? id = some r → r.permissions = before ++ q :: after →
          ((Chain.build route .standard).run m request s).outcome = .ok () →
            ((Chain.build route .standard).run m request
              (Site.Step.after m' (.administer (.setPermissions id (before ++ p :: after))) s)).outcome =
                .ok () := by
  intro keeps
  let step : Site.Step := .administer (.setPermissions 9 [.everywhere "*:*:*"])
  have coherent : Site.ofOneReader.Coherent := Site.coherent_builtIn.play
    (List.forall_mem_cons.mpr ⟨rfl, List.forall_mem_singleton.mpr rfl⟩)
  have header : Credential.ofHeader "pat_" (some "Bearer pat_reader") = .ok (.personal "pat_reader") := by
    decide
  have valid : Token.ofSystem.check (default : Moment).now none = .ok () := by decide
  have known : Site.ofOneToken.tokens.find? (Token.hashOf "pat_reader") = some Token.ofSystem :=
    TokenStore.find?_insert_self .empty .ofSystem
  have began : Proves default .ofOneToken .forUsersList ⟨12, .token, some ["sys"]⟩ :=
    .personal header known valid
  have proves : Proves default .ofOneReader .forUsersList ⟨12, .token, some ["sys"]⟩ := Site.proves_play began
  have guarded : Route.usersList.isPublic = false := by decide
  have noOrg : Route.usersList.needsOrg = false := by decide
  have noTeam : Route.usersList.needsTeam = false := by decide
  have paired : Route.usersList.needsTeam = true → Route.usersList.needsOrg = true := by decide
  -- The token keeps the permission for the system, and the request passes by it.
  have entitled : (Site.ofOneReader.roles.entitled 12).permissions =
      [.everywhere "sys:*:*", .everywhere "self:*:*"] := by decide +kernel
  have admits : Admits default .ofOneReader .usersList .forUsersList ⟨12, .token, some ["sys"]⟩ := by
    rw [admits_outside_iff coherent rfl noOrg noTeam, entitled]
    refine ⟨.everywhere "sys:*:*", by decide, ?_, by decide⟩
    rintro scopes ⟨⟩
    decide
  have stored : Site.ofOneReader.roles.find? 9 =
      some ⟨9, "reader", "Reader", false, [.everywhere "sys:*:*"]⟩ := by decide +kernel
  have passes := keeps (.everywhere "*:*:*") (.everywhere "sys:*:*") [] [] default default _ _ _ 9 _ (by decide)
    coherent rfl rfl stored rfl (passes_of_admitted guarded paired rfl proves admits)
  -- It keeps neither of the two that its owner has then.
  have entitled' : ((step.after default .ofOneReader).roles.entitled 12).permissions =
      [.everywhere "*:*:*", .everywhere "self:*:*"] := by decide +kernel
  obtain ⟨identity, proves', admits', -⟩ := admitted_of_passes guarded paired rfl passes
  obtain rfl := proves'.unique (step.proves_after proves)
  obtain ⟨p, mem, kept, -⟩ :=
    (admits_outside_iff (coherent.after rfl step) rfl noOrg noTeam).mp admits'
  have left : ∀ p ∈ [Permission.everywhere "*:*:*", .everywhere "self:*:*"], ¬ Scopes.Keeps ["sys"] p := by
    decide
  exact left p (entitled' ▸ mem) (kept ["sys"] rfl)

end Gatehouse
