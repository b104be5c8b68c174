import FounderOs.Foundation.Transition
import FounderOs.Execution.SingleWrite
import FounderOs.Execution.Agreement
import FounderOs.Execution.Replay
import FounderOs.Receipt.Agreement
import FounderOs.Decision.Idempotence
import FounderOs.SyncWorker.Completeness
import FounderOs.Foundation.Register
import FounderOs.Foundation.Outcome
import FounderOs.Foundation.Paging
import FounderOs.Canonical.Tombstone
import FounderOs.Canonical.Convergence
import FounderOs.Canonical.Identity
import FounderOs.Memory.Order
import FounderOs.Auth.Admission
import FounderOs.Auth.Throttle
import FounderOs.Auth.Sessions
import FounderOs.SyncWorker.Authority
import FounderOs.Foundation.Dict
import FounderOs.Foundation.Str
import FounderOs.Headquarters.Evidence
import FounderOs.Headquarters.Verification
import FounderOs.Headquarters.Changes
import FounderOs.Headquarters.Checkpoint
import FounderOs.Headquarters.CompanyMap
import FounderOs.Headquarters.Projection
import FounderOs.Headquarters.Questions
import FounderOs.Headquarters.Missions
import FounderOs.Headquarters.Rendering
import FounderOs.CompanyWorld.Resolution
import FounderOs.CompanyWorld.Sessions
import FounderOs.CompanyWorld.Writes
import FounderOs.CompanyWorld.ExactlyOnce
import FounderOs.Proposals.SecretKeys
import FounderOs.Auth.Provisioning
import FounderOs.Auth.Setup
import FounderOs.Documents.History
import FounderOs.Documents.Forgotten
import FounderOs.RepositoryAudit.Protocol
import FounderOs.RepositoryAudit.Records
import FounderOs.RepositoryAudit.Upkeep
import FounderOs.RepositoryAudit.World
import FounderOs.RepositoryAudit.Lineage
import FounderOs.RepositoryAudit.Convergence
import FounderOs.RepositoryAudit.Replay
import FounderOs.RepositoryAudit.Checks
import FounderOs.RepositoryAudit.Constraints
import FounderOs.RepositoryAudit.Storage
import FounderOs.AiSettings.Model
import FounderOs.AiSettings.Protocol
import FounderOs.AiSettings.Writes
import FounderOs.AiSettings.Checked
import FounderOs.Proposals.Briefing
import FounderOs.Proposals.OnePerItem
import FounderOs.Connectors.Normalize
import FounderOs.Foundation.LastWrite
import FounderOs.Connectors.Imports
import FounderOs.Connectors.Convergence
import FounderOs.GitHubSetup.Repositories
import FounderOs.GitHubSetup.Session
import FounderOs.Foundation.Succession
import FounderOs.GitHubSetup.Protocol
import FounderOs.GitHubSetup.Tokens
import FounderOs.GitHubSetup.SingleUse
import FounderOs.RepositoryAudit.LevelZero
import FounderOs.RepositoryAudit.Rendered
import FounderOs.RepositoryAudit.Writers
import FounderOs.Foundation.Grouping
import FounderOs.RepositoryAudit.Views
import FounderOs.RepositoryAudit.SameStory
import FounderOs.Foundation.SortedSet
import FounderOs.Foundation.JsonText
import FounderOs.Foundation.Components
import FounderOs.RepositoryAudit.Relationships
import FounderOs.Proposals.ValueText
import FounderOs.Proposals.Version
import FounderOs.Foundation.Calendar
import FounderOs.Recovery.Retention
import FounderOs.Recovery.Tiers
import FounderOs.Recovery.LongRuns
import FounderOs.Auth.Enrollment
import FounderOs.Auth.SingleUse
import FounderOs.ConnectorControl.Connection
import FounderOs.ConnectorControl.Verified
import FounderOs.Headquarters.Spelling
import FounderOs.RepositoryAudit.Upserts
import FounderOs.Foundation.Directory
import FounderOs.Recovery.Offsite
import FounderOs.Recovery.Restorable
import FounderOs.SyncWorker.Phase
import FounderOs.RepositoryAudit.Contradictions
import FounderOs.RepositoryAudit.Symmetric
import FounderOs.RepositoryAudit.Unresolved
import FounderOs.Auth.ProcessAdmission
import FounderOs.CompanyWorld.Backfill
import FounderOs.Foundation.Separated
import FounderOs.RepositoryAudit.CheckoutTree
import FounderOs.RepositoryAudit.PortableTree
import FounderOs.RepositoryAudit.Deletion
import FounderOs.RepositoryAudit.Boundary
import FounderOs.RepositoryAudit.CrossSource
import FounderOs.RepositoryAudit.CompleteComparisons
import FounderOs.Foundation.StrongComponents
import FounderOs.RepositoryAudit.Cycles
import FounderOs.Execution.AuditMetadata
import FounderOs.Foundation.Collapsed
import FounderOs.Assistant.Retrieval
import FounderOs.Assistant.Reasoning
import FounderOs.Assistant.Flights
import FounderOs.RepositoryAudit.StableIds
import FounderOs.Recovery.TarFile
import FounderOs.Recovery.RawArchive
import FounderOs.Recovery.RawRoundTrip
import FounderOs.Recovery.RawVerified
import FounderOs.Foundation.Disk
import FounderOs.Recovery.BundleArchive
import FounderOs.Recovery.BundleRecovered
import FounderOs.Headquarters.Ranking
import FounderOs.Documents.Search
import FounderOs.Proposals.NonGithubItems
import FounderOs.Proposals.Settled
import FounderOs.Foundation.FormUrl
import FounderOs.CompanyWorld.ProfileLinks
import FounderOs.Execution.Genuine
import FounderOs.Execution.Approval
