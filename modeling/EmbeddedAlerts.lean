import EmbeddedAlerts.Sql.Action
import EmbeddedAlerts.Sql.Table
import EmbeddedAlerts.Sql.Pair
import EmbeddedAlerts.Binary.Round
import EmbeddedAlerts.Text.Encoding
import EmbeddedAlerts.Text.Words
import EmbeddedAlerts.Schema
import EmbeddedAlerts.Platform
import EmbeddedAlerts.Identity
import EmbeddedAlerts.Sample
import EmbeddedAlerts.MatchKey
import EmbeddedAlerts.SourceScope
import EmbeddedAlerts.Alerts
import EmbeddedAlerts.Indexing
import EmbeddedAlerts.AlertStore
import EmbeddedAlerts.Store
import EmbeddedAlerts.ReverseMatch
import EmbeddedAlerts.Routes
import EmbeddedAlerts.Steps
import EmbeddedAlerts.Invariant
import EmbeddedAlerts.Refinement
import EmbeddedAlerts.Requests
import EmbeddedAlerts.Ingest
import EmbeddedAlerts.Coherence
import EmbeddedAlerts.Scores
import EmbeddedAlerts.Candidates
import EmbeddedAlerts.Offers
import EmbeddedAlerts.Historical
import EmbeddedAlerts.Reverse
import EmbeddedAlerts.Paths
import EmbeddedAlerts.FirstWrite
import EmbeddedAlerts.Recrawl
import EmbeddedAlerts.Convergence
import EmbeddedAlerts.Sql.Keyset
import EmbeddedAlerts.Search
import EmbeddedAlerts.SearchScope
import EmbeddedAlerts.Pagination
import EmbeddedAlerts.Ranking
import EmbeddedAlerts.Thresholds
import EmbeddedAlerts.Events
import EmbeddedAlerts.Sql.Mutation
import EmbeddedAlerts.Evidence
import EmbeddedAlerts.Resend
import EmbeddedAlerts.Replay
import EmbeddedAlerts.ActiveRules
import EmbeddedAlerts.Agreement
import EmbeddedAlerts.Sql.Security
import EmbeddedAlerts.RowSecurity
import EmbeddedAlerts.WorkerSecurity
import EmbeddedAlerts.Sql.Quota
import EmbeddedAlerts.ActiveLimit
import EmbeddedAlerts.Sql.Agree
import EmbeddedAlerts.Twins
import EmbeddedAlerts.Tenancy
import EmbeddedAlerts.Atomicity
import EmbeddedAlerts.WriteOnce
import EmbeddedAlerts.Sql.Linked
import EmbeddedAlerts.PageHistory
import EmbeddedAlerts.Observation
import EmbeddedAlerts.Text.Check
import EmbeddedAlerts.Text.Split
import EmbeddedAlerts.Text.Collapse
import EmbeddedAlerts.Text.Order
import EmbeddedAlerts.Text.Collect
import EmbeddedAlerts.Auth
import EmbeddedAlerts.Jwt
import EmbeddedAlerts.Credentials
import EmbeddedAlerts.Admission
import EmbeddedAlerts.Normalize
import EmbeddedAlerts.Query
import EmbeddedAlerts.Extraction
import EmbeddedAlerts.QueryViews
import EmbeddedAlerts.QueryEmbedding
import EmbeddedAlerts.Sql.Placeholder
import EmbeddedAlerts.SearchStatement
import EmbeddedAlerts.ContentIdentity
import EmbeddedAlerts.Fingerprint
import EmbeddedAlerts.Text.Bytes
import EmbeddedAlerts.WorkerAuth
import EmbeddedAlerts.Origins
import EmbeddedAlerts.Startup
import EmbeddedAlerts.Machine.Run
import EmbeddedAlerts.Server
import EmbeddedAlerts.Isolation
import EmbeddedAlerts.Machine.Broadcast
import EmbeddedAlerts.Delivery
import EmbeddedAlerts.Disclosure
import EmbeddedAlerts.Machine.Register
import EmbeddedAlerts.Ledger
import EmbeddedAlerts.Failures
import EmbeddedAlerts.Probe
