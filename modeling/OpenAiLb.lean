import OpenAiLb.Library.Transition
import OpenAiLb.Library.Tasks
import OpenAiLb.Library.Table
import OpenAiLb.Library.Assoc
import OpenAiLb.Library.Folds
import OpenAiLb.Library.Renewal
import OpenAiLb.Library.RenewalSafety
import OpenAiLb.Serde
import OpenAiLb.Provider
import OpenAiLb.Database
import OpenAiLb.Oauth
import OpenAiLb.Statements
import OpenAiLb.Observation
import OpenAiLb.Balancer
import OpenAiLb.Maintenance
import OpenAiLb.System
import OpenAiLb.Standing
import OpenAiLb.Cooldown
import OpenAiLb.WriteBehind
import OpenAiLb.CircuitState
import OpenAiLb.MaintenancePhases
import OpenAiLb.FlushedObservations
import OpenAiLb.CircuitIds
import OpenAiLb.CircuitHistory
import OpenAiLb.BatchedFlush
import OpenAiLb.CacheTasks
import OpenAiLb.Revocable
import OpenAiLb.Revocation
import OpenAiLb.AuditDatabase
import OpenAiLb.AuditWriter
import OpenAiLb.AuditProgress
import OpenAiLb.Credentials
import OpenAiLb.CredentialTasks
import OpenAiLb.CredentialMoves
import OpenAiLb.TokenRedemption
import OpenAiLb.CredentialCoherence
import OpenAiLb.Routing
import OpenAiLb.RefreshProgress
import OpenAiLb.RotatedTokens
import OpenAiLb.CredentialChanges
import OpenAiLb.AuthErrors
import OpenAiLb.StickyAffinity
import OpenAiLb.ConcurrentObservations
import OpenAiLb.AffinityRows
import OpenAiLb.AffinityPhases
import OpenAiLb.AffinityMarks
import OpenAiLb.Library.Stoppable
import OpenAiLb.Headers
import OpenAiLb.Usage
import OpenAiLb.AuditTracker
import OpenAiLb.Custody
import OpenAiLb.Handlers
import OpenAiLb.Dispatch
import OpenAiLb.Waiting
import OpenAiLb.HandlerEvents
import OpenAiLb.CallEvents
import OpenAiLb.CallNode
import OpenAiLb.Library.Journal
import OpenAiLb.AuditRecords
import OpenAiLb.CallOrder
import OpenAiLb.TransportBytes
import OpenAiLb.LeaseCounts
import OpenAiLb.Library.Erasure
import OpenAiLb.RoutingRuns
import OpenAiLb.MaintenanceTicks
import OpenAiLb.AffinityRestart
import OpenAiLb.StatusFlags
import OpenAiLb.CircuitDeadlines
import OpenAiLb.Library.Select
import OpenAiLb.ArchivedHeaders
import OpenAiLb.AuditQueries
import OpenAiLb.TenantScope
import OpenAiLb.HeaderSecrecy
import OpenAiLb.AffinitySeparation
import OpenAiLb.Failover
import OpenAiLb.FailoverProtocol
import OpenAiLb.FailoverRuns
import OpenAiLb.FailoverRefinement
import OpenAiLb.StreamedUsage
import OpenAiLb.ContentCodings
import OpenAiLb.TokenCosts
import OpenAiLb.UpstreamHeaders
import OpenAiLb.Users
import OpenAiLb.UserUpdates
import OpenAiLb.ConsumerEdits
import OpenAiLb.OauthFlows
import OpenAiLb.ProviderHandlers
import OpenAiLb.ProviderUpdates
import OpenAiLb.AppConfig
import OpenAiLb.SettingsHandlers
import OpenAiLb.SettingsRestart
import OpenAiLb.SettingsRaces
import OpenAiLb.Setups
import OpenAiLb.TokenPrices
import OpenAiLb.Library.RoundRobin
import OpenAiLb.LoadBalance
import OpenAiLb.Library.Split
import OpenAiLb.ImageSizes
import OpenAiLb.ImageRequests
import OpenAiLb.Library.Binary64
import OpenAiLb.ConsoleSizes
import OpenAiLb.Library.Utf8
import OpenAiLb.ImageStreams
import OpenAiLb.StreamedLines
import OpenAiLb.Library.Chunks
import OpenAiLb.AudioSpools
import OpenAiLb.Library.Shares
import OpenAiLb.ArchiveBudget
import OpenAiLb.ArchivePayloads
import OpenAiLb.ArchiveCapacity
import OpenAiLb.SpoolCleanup
import OpenAiLb.Library.OrderedMap
import OpenAiLb.Library.Grouping
import OpenAiLb.UsagePivot
import OpenAiLb.PivotCells
import OpenAiLb.PivotIdentities
import OpenAiLb.Library.Nested
import OpenAiLb.ResponseText
import OpenAiLb.TextInterleaving
import OpenAiLb.AuthRedirect
import OpenAiLb.LoginCallbacks
import OpenAiLb.Library.Resumptions
import OpenAiLb.Library.Replay
import OpenAiLb.Tenancy
import OpenAiLb.CredentialLifecycle
import OpenAiLb.Privileges
import OpenAiLb.Library.Links
import OpenAiLb.ThreadNavigation
import OpenAiLb.Library.Pages
import OpenAiLb.AuditPages
import OpenAiLb.UsageTotals
import OpenAiLb.ArchiveRetention
import OpenAiLb.Library.Relational
import OpenAiLb.Library.SchemaChanges
import OpenAiLb.Library.SchemaScripts
import OpenAiLb.Library.RowChanges
import OpenAiLb.Migrations
import OpenAiLb.MigrationSettings
import OpenAiLb.MigrationSafety
import OpenAiLb.Upgrades
import OpenAiLb.UpgradedRows
