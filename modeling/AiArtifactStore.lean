import AiArtifactStore.Foundation.Checked
import AiArtifactStore.Foundation.Table
import AiArtifactStore.Identity.ContentId
import AiArtifactStore.Storage.LocalChunkStore
import AiArtifactStore.Storage.ChunkTree
import AiArtifactStore.Storage.ListedStore
import AiArtifactStore.Metadata.ArtifactModel
import AiArtifactStore.Metadata.UploadSession
import AiArtifactStore.Metadata.Placement
import AiArtifactStore.Metadata.Database
import AiArtifactStore.Metadata.Registration
import AiArtifactStore.Metadata.Upload
import AiArtifactStore.Metadata.GcRuns
import AiArtifactStore.Metadata.Restore
import AiArtifactStore.Metadata.ReplicationRuns
import AiArtifactStore.Metadata.LifecycleRuns
import AiArtifactStore.Metadata.Service
import AiArtifactStore.Metadata.UploadSpec
import AiArtifactStore.Metadata.MaintenanceSpec
import AiArtifactStore.Metadata.Effects
import AiArtifactStore.Metadata.Histories
import AiArtifactStore.Metadata.Exclusion
import AiArtifactStore.Metadata.Collectible
import AiArtifactStore.Metadata.RunIdentity
import AiArtifactStore.Metadata.Retirement
import AiArtifactStore.Metadata.Sweep
import AiArtifactStore.Metadata.RestorePlanning
import AiArtifactStore.Metadata.Completion
import AiArtifactStore.Metadata.SweepLaws
import AiArtifactStore.Metadata.FinalizeRetry
import AiArtifactStore.Metadata.ChunkingContract
import AiArtifactStore.Storage.StorageNodeService
import AiArtifactStore.Client.GcClients
import AiArtifactStore.Gc.Engine
import AiArtifactStore.Gc.System
import AiArtifactStore.Gc.Safety
import AiArtifactStore.Gc.Walk
import AiArtifactStore.Gc.Attempt
import AiArtifactStore.Gc.Resume
import AiArtifactStore.Gc.Replies
import AiArtifactStore.Chunking.FixedSize
import AiArtifactStore.Chunking.FastCdc
import AiArtifactStore.Foundation.Segmentation
import AiArtifactStore.Chunking.Streams
import AiArtifactStore.Chunking.Locality
import AiArtifactStore.Push.ChunkFeed
import AiArtifactStore.Client.PushClients
import AiArtifactStore.Push.Queue
import AiArtifactStore.Push.Engine
import AiArtifactStore.Push.Progress
import AiArtifactStore.Push.Durability
import AiArtifactStore.Push.Finalizable
import AiArtifactStore.Client.Growth
import AiArtifactStore.Push.Rescan
import AiArtifactStore.Push.Command
import AiArtifactStore.Metadata.SessionPlacement
import AiArtifactStore.Push.CommittedRetry
import AiArtifactStore.Foundation.PrefixCode
import AiArtifactStore.Metadata.Canonical
import AiArtifactStore.Metadata.LifecycleProgress
import AiArtifactStore.Foundation.SortOrder
import AiArtifactStore.Foundation.Retention
import AiArtifactStore.Metadata.LifecycleRanking
import AiArtifactStore.Metadata.LifecycleDecisions
import AiArtifactStore.Metadata.LifecycleComposition
import AiArtifactStore.Metadata.RunSnapshots
import AiArtifactStore.Foundation.Ranking
import AiArtifactStore.Metadata.Rendezvous
import AiArtifactStore.Replication.NodeOrder
import AiArtifactStore.Metadata.Manifests
import AiArtifactStore.Foundation.Stateful
import AiArtifactStore.Client.ReplicaClients
import AiArtifactStore.Foundation.Attempts
import AiArtifactStore.Replication.RepairEngine
import AiArtifactStore.Replication.SourceFailover
import AiArtifactStore.Replication.FullReplication
import AiArtifactStore.Replication.RepairCopies
import AiArtifactStore.Replication.RepairOnce
import AiArtifactStore.Foundation.Json
import AiArtifactStore.Identity.UuidText
import AiArtifactStore.Wire.Fields
import AiArtifactStore.Wire.LayoutJson
import AiArtifactStore.Foundation.Contract
import AiArtifactStore.Wire.PlanReplies
import AiArtifactStore.Wire.ReplyContract
import AiArtifactStore.Wire.LayoutRoundTrip
import AiArtifactStore.Pull.Window
import AiArtifactStore.Pull.WindowSafety
import AiArtifactStore.Foundation.FileSystem
import AiArtifactStore.Pull.WindowLoop
import AiArtifactStore.Pull.Engine
import AiArtifactStore.Pull.SourceFallback
import AiArtifactStore.Pull.Content
import AiArtifactStore.Pull.Atomicity
import AiArtifactStore.Foundation.OrderedMap
import AiArtifactStore.Foundation.Segments
import AiArtifactStore.Service.Http
import AiArtifactStore.Service.Inputs
import AiArtifactStore.Service.Handlers
import AiArtifactStore.Service.Routes
import AiArtifactStore.Service.WellFormed
import AiArtifactStore.Service.Routing
import AiArtifactStore.Service.Reading
import AiArtifactStore.Service.Policies
import AiArtifactStore.Foundation.JsonCode
import AiArtifactStore.Service.ErrorContract
import AiArtifactStore.Storage.PutAtomicity
import AiArtifactStore.Storage.Puts
import AiArtifactStore.Foundation.Paging
import AiArtifactStore.Storage.InventoryWalk
import AiArtifactStore.Foundation.Ranges
import AiArtifactStore.Metadata.LayoutArithmetic
import AiArtifactStore.Chunking.Masks
import AiArtifactStore.Push.QueueRuns
import AiArtifactStore.Pull.Resumption
import AiArtifactStore.Wire.PlanConsistency
import AiArtifactStore.Foundation.Decimal
import AiArtifactStore.Foundation.FullPages
import AiArtifactStore.Service.LifecycleCommands
import AiArtifactStore.Service.PolicyNumbers
import AiArtifactStore.Service.DecisionPages
import AiArtifactStore.Foundation.Sessions
import AiArtifactStore.Service.Requests
import AiArtifactStore.Service.Server
import AiArtifactStore.Service.StorageNode
import AiArtifactStore.Service.StorageNodeCalls
import AiArtifactStore.Service.StorageNodeHistory
import AiArtifactStore.Foundation.Constraints
import AiArtifactStore.Metadata.ForeignKeys
import AiArtifactStore.Replication.RunPlanning
import AiArtifactStore.Metadata.Schema
import AiArtifactStore.Foundation.Succession
import AiArtifactStore.Foundation.Ancestry
import AiArtifactStore.Metadata.Advance
import AiArtifactStore.Metadata.Lineage
import AiArtifactStore.Metadata.Restorability
import AiArtifactStore.Push.Fleet
import AiArtifactStore.Pull.RoundTrip
import AiArtifactStore.Foundation.Termination
import AiArtifactStore.Push.Termination
import AiArtifactStore.Push.Health
import AiArtifactStore.Push.Success
import AiArtifactStore.Pull.Termination
import AiArtifactStore.Pull.Success
import AiArtifactStore.Metadata.Columns
import AiArtifactStore.Service.RecordJson
import AiArtifactStore.Service.Failures
import AiArtifactStore.Service.Escapes
import AiArtifactStore.Service.RecordReplies
import AiArtifactStore.Service.RecordRoundTrip
import AiArtifactStore.Service.RecordReads
import AiArtifactStore.Service.RecordAnswers
