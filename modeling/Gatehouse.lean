import Gatehouse.Attempt
import Gatehouse.Audit
import Gatehouse.Cache.Memory
import Gatehouse.Cache.Permissions
import Gatehouse.Chain.Basic
import Gatehouse.Codec.Audit
import Gatehouse.Codec.Config
import Gatehouse.Codec.Event
import Gatehouse.Codec.Role
import Gatehouse.Codec.Route
import Gatehouse.Codec.Token
import Gatehouse.Config
import Gatehouse.Credential
import Gatehouse.Digest.Blake3
import Gatehouse.Error
import Gatehouse.Event.Basic
import Gatehouse.Event.Bus
import Gatehouse.Grant
import Gatehouse.Http.Endpoint
import Gatehouse.Http.MediaType
import Gatehouse.Http.Message
import Gatehouse.Http.Service
import Gatehouse.Identifier
import Gatehouse.Json.Basic
import Gatehouse.Json.Lexer
import Gatehouse.Json.Numeral
import Gatehouse.Json.Reader
import Gatehouse.Json.Record
import Gatehouse.Membership
import Gatehouse.Moment
import Gatehouse.Net.Address
import Gatehouse.Net.Range
import Gatehouse.Operation
import Gatehouse.Outage
import Gatehouse.Pattern.Check
import Gatehouse.Pattern.Match
import Gatehouse.Permission
import Gatehouse.Proofs.Attempt
import Gatehouse.Proofs.Audit
import Gatehouse.Proofs.Cache.Capacity
import Gatehouse.Proofs.Cache.Coherence
import Gatehouse.Proofs.Cache.Memory
import Gatehouse.Proofs.Cache.Statistics
import Gatehouse.Proofs.Chain
import Gatehouse.Proofs.Chain.Calls
import Gatehouse.Proofs.Codec.Role
import Gatehouse.Proofs.Codec.RoundTrip
import Gatehouse.Proofs.Codec.Token
import Gatehouse.Proofs.Credential.Header
import Gatehouse.Proofs.Credential.Issued
import Gatehouse.Proofs.Credential.Sessions
import Gatehouse.Proofs.Event.Delivery
import Gatehouse.Proofs.Grant
import Gatehouse.Proofs.Http.Failures
import Gatehouse.Proofs.Http.Issue
import Gatehouse.Proofs.Http.Minting
import Gatehouse.Proofs.Http.Service
import Gatehouse.Proofs.Http.Users
import Gatehouse.Proofs.Http.Writes
import Gatehouse.Proofs.Json.Number
import Gatehouse.Proofs.Json.Record
import Gatehouse.Proofs.Json.RoundTrip
import Gatehouse.Proofs.Membership
import Gatehouse.Proofs.Net.Address
import Gatehouse.Proofs.Net.Range
import Gatehouse.Proofs.Net.Spelling
import Gatehouse.Proofs.Outcome
import Gatehouse.Proofs.Pattern
import Gatehouse.Proofs.Pattern.Check
import Gatehouse.Proofs.Pattern.Grammar
import Gatehouse.Proofs.Pattern.Instance
import Gatehouse.Proofs.Pattern.Subsumption
import Gatehouse.Proofs.Permission
import Gatehouse.Proofs.Role.Atomicity
import Gatehouse.Proofs.Role.Changes
import Gatehouse.Proofs.Role.Growth
import Gatehouse.Proofs.Role.Index
import Gatehouse.Proofs.Role.Rules
import Gatehouse.Proofs.Role.Seeded
import Gatehouse.Proofs.Role.Store
import Gatehouse.Proofs.Role.Union
import Gatehouse.Proofs.Role.Writes
import Gatehouse.Proofs.Route.Reach
import Gatehouse.Proofs.Route.Registry
import Gatehouse.Proofs.Route.Template
import Gatehouse.Proofs.Site.Admission
import Gatehouse.Proofs.Site.Atomicity
import Gatehouse.Proofs.Site.Audit
import Gatehouse.Proofs.Site.Bindings
import Gatehouse.Proofs.Site.Coherence
import Gatehouse.Proofs.Site.FailClosed
import Gatehouse.Proofs.Site.Growth
import Gatehouse.Proofs.Site.Holders
import Gatehouse.Proofs.Site.Invalidation
import Gatehouse.Proofs.Site.Isolation
import Gatehouse.Proofs.Site.Locality
import Gatehouse.Proofs.Site.Parameters
import Gatehouse.Proofs.Site.Public
import Gatehouse.Proofs.Site.Publish
import Gatehouse.Proofs.Site.Refusals
import Gatehouse.Proofs.Site.Rejection
import Gatehouse.Proofs.Site.Replacement
import Gatehouse.Proofs.Site.Rules
import Gatehouse.Proofs.Site.Spelling
import Gatehouse.Proofs.Site.Stages
import Gatehouse.Proofs.Site.Staleness
import Gatehouse.Proofs.Site.Unmatched
import Gatehouse.Proofs.Standing
import Gatehouse.Proofs.Table
import Gatehouse.Proofs.Text.Blank
import Gatehouse.Proofs.Text.Decimal
import Gatehouse.Proofs.Text.Letter
import Gatehouse.Proofs.Text.Replace
import Gatehouse.Proofs.Text.Split
import Gatehouse.Proofs.Text.Trim
import Gatehouse.Proofs.Time.Written
import Gatehouse.Proofs.Token.Allowlist
import Gatehouse.Proofs.Token.Confinement
import Gatehouse.Proofs.Token.Lifecycle
import Gatehouse.Proofs.Token.Normalization
import Gatehouse.Proofs.Token.Ownership
import Gatehouse.Proofs.Token.Scope
import Gatehouse.Proofs.Token.Selection
import Gatehouse.Proofs.Uuid
import Gatehouse.Proofs.Variables
import Gatehouse.Proofs.Variables.Stored
import Gatehouse.Proofs.Variables.Substitution
import Gatehouse.Request
import Gatehouse.Role.Administration
import Gatehouse.Role.Basic
import Gatehouse.Role.Store
import Gatehouse.Route.Basic
import Gatehouse.Route.Registry
import Gatehouse.Site.Basic
import Gatehouse.Site.Stages
import Gatehouse.Table
import Gatehouse.Text.Blank
import Gatehouse.Text.Case
import Gatehouse.Text.Decimal
import Gatehouse.Text.Hex
import Gatehouse.Text.Percent
import Gatehouse.Text.Pieces
import Gatehouse.Text.Rate
import Gatehouse.Text.Replace
import Gatehouse.Time.Timestamp
import Gatehouse.Time.Written
import Gatehouse.Token.Basic
import Gatehouse.Token.Scope
import Gatehouse.Token.Store
import Gatehouse.Uuid
import Gatehouse.Variables
