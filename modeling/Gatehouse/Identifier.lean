/-!
Identifiers of users, roles, organizations and teams: unsigned numbers of 64 bits.
-/

namespace Gatehouse

/-- Identifies a user. -/
abbrev UserId := UInt64

/-- Identifies a role. -/
abbrev RoleId := UInt64

/-- Identifies an organization. -/
abbrev OrgId := UInt64

/-- Identifies a team. -/
abbrev TeamId := UInt64

end Gatehouse
