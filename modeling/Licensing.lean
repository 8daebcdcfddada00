import Licensing.Client.Agreement
import Licensing.Client.Claims
import Licensing.Client.Device
import Licensing.Client.DeviceLife
import Licensing.Client.Easy
import Licensing.Client.Exchange
import Licensing.Client.Fingerprint
import Licensing.Client.Grace
import Licensing.Client.GraceWindow
import Licensing.Client.Ledger
import Licensing.Client.Refresh
import Licensing.Client.Transport
import Licensing.Client.Validate
import Licensing.Go.Activation
import Licensing.Go.LicenseDeletion
import Licensing.Go.RateLimiter
import Licensing.Go.Reparenting
import Licensing.Go.Responses
import Licensing.Go.StatusTransactions
import Licensing.Go.TemplateDates
import Licensing.Go.TemplateTokens
import Licensing.Http.Bearer
import Licensing.Http.Endpoints
import Licensing.Http.Handlers
import Licensing.Http.Parity
import Licensing.Http.Router
import Licensing.Keys.Attestation
import Licensing.Keys.Backends
import Licensing.Keys.Der
import Licensing.Keys.EncryptedPkcs8
import Licensing.Keys.Hierarchy
import Licensing.Keys.KeyFile
import Licensing.Keys.KeyIndex
import Licensing.Keys.KeyStore
import Licensing.Keys.KeyWindow
import Licensing.Keys.Rotation
import Licensing.Keys.ScopeService
import Licensing.Keys.SigningKeys
import Licensing.Library.Asn1
import Licensing.Library.Atomic
import Licensing.Library.Backlog
import Licensing.Library.Base64
import Licensing.Library.Binary64
import Licensing.Library.Binary64Order
import Licensing.Library.Bytes
import Licensing.Library.Calendar
import Licensing.Library.CalendarOrder
import Licensing.Library.Constraints
import Licensing.Library.Decimal
import Licensing.Library.Forest
import Licensing.Library.Interleave
import Licensing.Library.Json
import Licensing.Library.JsonData
import Licensing.Library.JsonPaths
import Licensing.Library.JsonReader
import Licensing.Library.JsonText
import Licensing.Library.Keyset
import Licensing.Library.Ledger
import Licensing.Library.Lexicographic
import Licensing.Library.Linked
import Licensing.Library.Machine
import Licensing.Library.Pae
import Licensing.Library.Placeholders
import Licensing.Library.Positional
import Licensing.Library.Prog
import Licensing.Library.Ranking
import Licensing.Library.ReadCommitted
import Licensing.Library.Rfc3339
import Licensing.Library.Routes
import Licensing.Library.Rows
import Licensing.Library.Segments
import Licensing.Library.Sessions
import Licensing.Library.StringOrder
import Licensing.Library.TokenBucket
import Licensing.Library.Upgrades
import Licensing.Library.Utf16
import Licensing.Library.Utf8
import Licensing.Library.Windows
import Licensing.Library.Wp
import Licensing.Memory.Acts
import Licensing.Memory.Adapter
import Licensing.Memory.AuditLaw
import Licensing.Memory.AuditTrail
import Licensing.Memory.EntityLaw
import Licensing.Memory.Heap
import Licensing.Memory.Issuance
import Licensing.Memory.Issuer
import Licensing.Memory.KeyRotation
import Licensing.Memory.References
import Licensing.Memory.Requests
import Licensing.Memory.SeatWalk
import Licensing.Memory.Services
import Licensing.Memory.StatusHistory
import Licensing.Memory.Store
import Licensing.Memory.Sweeps
import Licensing.Memory.Templates
import Licensing.Memory.Terms
import Licensing.Memory.Ticks
import Licensing.Memory.Transaction
import Licensing.Memory.Transitions
import Licensing.Memory.TrialLaw
import Licensing.Memory.TrialRace
import Licensing.Memory.Trials
import Licensing.Memory.Unique
import Licensing.Model.AtomicStore
import Licensing.Model.Clocks
import Licensing.Model.Cursor
import Licensing.Model.Decisions
import Licensing.Model.Entities
import Licensing.Model.Errors
import Licensing.Model.Handler
import Licensing.Model.Http
import Licensing.Model.Issuer
import Licensing.Model.KeyEncoding
import Licensing.Model.KeyText
import Licensing.Model.LicenseKey
import Licensing.Model.LicenseService
import Licensing.Model.LicenseTables
import Licensing.Model.Lifecycle
import Licensing.Model.Migrations
import Licensing.Model.Registration
import Licensing.Model.Resolve
import Licensing.Model.Services
import Licensing.Model.Stats
import Licensing.Model.Storage
import Licensing.Model.StorageTx
import Licensing.Model.Templates
import Licensing.Model.Time
import Licensing.Model.Timestamps
import Licensing.Model.Transactions
import Licensing.Model.UsageService
import Licensing.Model.Uuid
import Licensing.Postgres.Adapter
import Licensing.Postgres.KeyRows
import Licensing.Postgres.ListQueries
import Licensing.Postgres.Registrations
import Licensing.Postgres.SeatLimit
import Licensing.Postgres.Sessions
import Licensing.Postgres.Statements
import Licensing.Postgres.Tables
import Licensing.Sqlite.Pages
import Licensing.Sqlite.Templates
import Licensing.Tokens.Base64url
import Licensing.Tokens.Canonical
import Licensing.Tokens.ClientToken
import Licensing.Tokens.Codecs
import Licensing.Tokens.DecodeErrors
import Licensing.Tokens.DuplicateKeys
import Licensing.Tokens.ForceOnline
import Licensing.Tokens.Image
import Licensing.Tokens.IssueToken
import Licensing.Tokens.Kept
import Licensing.Tokens.Parity
import Licensing.Tokens.Payload
import Licensing.Tokens.ReportedDeadline
import Licensing.Tokens.RoundTrip
import Licensing.Tokens.SigningInputs
import Licensing.Tokens.StrictJson
import Licensing.Tokens.TokenRoundTrip
import Licensing.Tokens.TrialFlag
import Licensing.Tokens.Values
import Licensing.Tokens.Verify
import Licensing.Ts.IssueToken
import Licensing.Ts.LifecycleRequests
import Licensing.Ts.RateLimit
import Licensing.Ts.Responses
import Licensing.Ts.Stats
