import FreshKeys.Cli.Arguments
import FreshKeys.Cli.Program
import FreshKeys.Cli.Sources
import FreshKeys.Decimal.Binary64
import FreshKeys.Decimal.Shortest
import FreshKeys.Failure
import FreshKeys.Files
import FreshKeys.Journal
import FreshKeys.Json.Basic
import FreshKeys.Json.Fault
import FreshKeys.Json.Literal
import FreshKeys.Json.Node
import FreshKeys.Json.Print
import FreshKeys.Json.Token
import FreshKeys.Json.Value
import FreshKeys.KeyPair
import FreshKeys.Main
import FreshKeys.Profile
import FreshKeys.Proofs.Cli.Agreement
import FreshKeys.Proofs.Cli.Exporting
import FreshKeys.Proofs.Cli.Runs
import FreshKeys.Proofs.Cli.TokenSources
import FreshKeys.Proofs.Files
import FreshKeys.Proofs.Json.Lexemes
import FreshKeys.Proofs.Json.Likeness
import FreshKeys.Proofs.Json.Nesting
import FreshKeys.Proofs.Json.Spelling
import FreshKeys.Proofs.Merge
import FreshKeys.Proofs.MergeHistory
import FreshKeys.Proofs.Profile.Acceptance
import FreshKeys.Proofs.Profile.Objections
import FreshKeys.Proofs.Profile.Rebuilding
import FreshKeys.Proofs.Refresh.Absence
import FreshKeys.Proofs.Refresh.Accounts
import FreshKeys.Proofs.Refresh.Coherence
import FreshKeys.Proofs.Refresh.Commits
import FreshKeys.Proofs.Refresh.Delivery
import FreshKeys.Proofs.Refresh.Discretion
import FreshKeys.Proofs.Refresh.Extensions
import FreshKeys.Proofs.Refresh.Forgetting
import FreshKeys.Proofs.Refresh.History
import FreshKeys.Proofs.Refresh.Incidents
import FreshKeys.Proofs.Refresh.Moves
import FreshKeys.Proofs.Refresh.Observers
import FreshKeys.Proofs.Refresh.Provenance
import FreshKeys.Proofs.Refresh.Providers
import FreshKeys.Proofs.Refresh.Seating
import FreshKeys.Proofs.Refresh.Secrecy
import FreshKeys.Proofs.Refresh.Sessions
import FreshKeys.Proofs.Refresh.Settling
import FreshKeys.Proofs.Refresh.SingleFlight
import FreshKeys.Proofs.Refresh.Staleness
import FreshKeys.Proofs.Refresh.Succession
import FreshKeys.Proofs.Refresh.Timeliness
import FreshKeys.Proofs.Refresh.Veil
import FreshKeys.Proofs.Settings.Members
import FreshKeys.Proofs.Settings.RoundTrip
import FreshKeys.Proofs.Shell.Lines
import FreshKeys.Proofs.Shell.Reading
import FreshKeys.Proofs.Store.Addresses
import FreshKeys.Proofs.Store.Calls
import FreshKeys.Proofs.Store.Delays
import FreshKeys.Proofs.Store.Engines
import FreshKeys.Proofs.Store.Likeness
import FreshKeys.Proofs.Store.Paths
import FreshKeys.Proofs.Store.Percent
import FreshKeys.Proofs.Store.Repetition
import FreshKeys.Proofs.Store.Retrieval
import FreshKeys.Proofs.Store.SecretPaths
import FreshKeys.Proofs.Text.Segments
import FreshKeys.Proofs.Text.Trimming
import FreshKeys.Refresh.Cache
import FreshKeys.Refresh.Channel
import FreshKeys.Refresh.Cohort
import FreshKeys.Refresh.Provider
import FreshKeys.Refresh.Session
import FreshKeys.Refresh.Window
import FreshKeys.Registry
import FreshKeys.Rejection
import FreshKeys.Reply
import FreshKeys.Secret
import FreshKeys.Settings.Basic
import FreshKeys.Settings.Reading
import FreshKeys.Settings.Writing
import FreshKeys.Store.Certificate
import FreshKeys.Store.CertificateFile
import FreshKeys.Store.Client
import FreshKeys.Store.Der
import FreshKeys.Store.Host
import FreshKeys.Store.KvEngine
import FreshKeys.Store.Response
import FreshKeys.Store.Status
import FreshKeys.Store.Url
import FreshKeys.Text.Base64
import FreshKeys.Text.Blank
import FreshKeys.Text.Pieces
import FreshKeys.Text.Printable
import FreshKeys.Text.Quoted
import FreshKeys.Text.Span
import FreshKeys.Text.Utf8
import FreshKeys.Vault
