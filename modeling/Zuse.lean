import Zuse.Agents.AgentEvents
import Zuse.Agents.TurnBatches
import Zuse.Agents.TurnLog
import Zuse.Agents.TurnProtocol
import Zuse.Agents.TurnSystem
import Zuse.Agents.TurnTerminals
import Zuse.Automation.ScheduledFires
import Zuse.Automation.ScheduledTasks
import Zuse.Automation.SweepRuns
import Zuse.Automation.SweepSystem
import Zuse.Automation.TaskInvariants
import Zuse.Billing.AccountMetering
import Zuse.Billing.BillingRuns
import Zuse.Billing.BillingStore
import Zuse.Billing.BoxExecutions
import Zuse.Billing.BoxLifecycle
import Zuse.Billing.CloudBilling
import Zuse.Billing.LedgerEntries
import Zuse.Billing.LedgerIdentities
import Zuse.Billing.MeteredIntervals
import Zuse.Billing.PriceWindows
import Zuse.Billing.ProviderMetering
import Zuse.Billing.SnapshotCalls
import Zuse.Billing.SnapshotReconciliation
import Zuse.Billing.SnapshotRuns
import Zuse.Billing.SnapshotSettlement
import Zuse.Billing.SnapshotStorage
import Zuse.Billing.SnapshotTables
import Zuse.Client.CatchUp
import Zuse.Client.OptimisticMessages
import Zuse.Client.SessionTimeline
import Zuse.Client.Supervisor
import Zuse.Client.SupervisorDispatch
import Zuse.Client.SupervisorRuns
import Zuse.Client.SupervisorServing
import Zuse.Client.SupervisorSessions
import Zuse.Client.SupervisorSteps
import Zuse.Cloud.CloudCommands
import Zuse.Cloud.CommandOutcomes
import Zuse.Cloud.LaneExclusion
import Zuse.Cloud.MailboxEdits
import Zuse.Cloud.MailboxInvariants
import Zuse.Cloud.MailboxLoops
import Zuse.Cloud.MailboxSystem
import Zuse.Cloud.MailboxTransactions
import Zuse.Cloud.MailboxWatch
import Zuse.Cloud.RefusedRequests
import Zuse.Cloud.RuntimeWake
import Zuse.Cloud.WorkspaceMailbox
import Zuse.CloudAuth.AuthorityConduct
import Zuse.CloudAuth.AuthorityOperations
import Zuse.CloudAuth.AuthorityRules
import Zuse.CloudAuth.AuthorityRuns
import Zuse.CloudAuth.AuthorityStore
import Zuse.CloudAuth.AuthoritySystem
import Zuse.CloudAuth.AuthorityTasks
import Zuse.Contracts.KeybindingsParse
import Zuse.Contracts.WhenClauses
import Zuse.Contracts.WhenPrinter
import Zuse.Conversation.IngestionLease
import Zuse.Conversation.IngestionRuns
import Zuse.Conversation.IngestionSweeper
import Zuse.Conversation.ProviderJobs
import Zuse.Conversation.ProviderSends
import Zuse.Conversation.QuestionCalls
import Zuse.Conversation.QuestionDeliveries
import Zuse.Conversation.QuestionRuns
import Zuse.Conversation.QuestionSystem
import Zuse.Conversation.ReactorEffectJournal
import Zuse.Conversation.SendDelivery
import Zuse.Conversation.SendOutcomes
import Zuse.Conversation.SendRuns
import Zuse.Conversation.SessionTables
import Zuse.Data.ChangeFeed
import Zuse.Data.InsertionMap
import Zuse.Data.Naming
import Zuse.Data.OrderedDelivery
import Zuse.Data.Parties
import Zuse.Data.PercentEncoding
import Zuse.Data.Proration
import Zuse.Data.ScriptRights
import Zuse.Data.Scripts
import Zuse.Data.SerialTasks
import Zuse.Data.Table
import Zuse.Data.Text
import Zuse.Data.Tiling
import Zuse.Data.TransitionSystem
import Zuse.Data.Utf8
import Zuse.Data.VersionedLog
import Zuse.Device.BrokerActions
import Zuse.Device.BrokerAuthority
import Zuse.Device.BrokerDiscipline
import Zuse.Device.BrokerHandling
import Zuse.Device.BrokerOperations
import Zuse.Device.CommandBroker
import Zuse.Domain.AgentEngine.IdDerivation
import Zuse.Domain.AgentEngine.JobLease
import Zuse.Domain.AgentEngine.JobLedger
import Zuse.Domain.AgentEngine.Jobs
import Zuse.Domain.Contracts
import Zuse.Domain.Core.Commands
import Zuse.Domain.Core.Decider
import Zuse.Domain.Core.Decisions
import Zuse.Domain.Core.Emission
import Zuse.Domain.Core.Events
import Zuse.Domain.Core.Ids
import Zuse.Domain.Core.NotableEvents
import Zuse.Domain.Core.Ownership
import Zuse.Domain.Core.QueueOrder
import Zuse.Domain.Core.Session
import Zuse.Domain.Core.SettledFacts
import Zuse.Domain.Core.State
import Zuse.Domain.Core.Steering
import Zuse.Domain.Core.Transcript
import Zuse.Domain.Core.WellFormed
import Zuse.Domain.Engine.AttemptFencing
import Zuse.Domain.Engine.AttemptStanding
import Zuse.Domain.Engine.Dispatch
import Zuse.Domain.Engine.DispatchStorage
import Zuse.Domain.Engine.DispatchSystem
import Zuse.Domain.Engine.EventTable
import Zuse.Domain.Engine.ExactlyOnce
import Zuse.Domain.Engine.LiveDelivery
import Zuse.Domain.Engine.Reactor
import Zuse.Domain.Engine.ReactorRuns
import Zuse.Domain.Engine.ReadModel
import Zuse.Domain.Engine.Redispatch
import Zuse.Domain.Engine.SessionDomain
import Zuse.Domain.Engine.Settlement
import Zuse.Domain.Engine.SqlDispatchStorage
import Zuse.Domain.Engine.Synchronization
import Zuse.Domain.Projectors.MessageReplicas
import Zuse.Domain.Projectors.MessageRows
import Zuse.Domain.Queries.TimelineSnapshot
import Zuse.Index.BlobStore
import Zuse.Index.ChunkCoverage
import Zuse.Index.Chunker
import Zuse.Index.IndexRuns
import Zuse.Index.Indexer
import Zuse.Index.Paths
import Zuse.Index.SymbolLinks
import Zuse.Machines.BillingConvergence
import Zuse.Machines.BillingSubscriptions
import Zuse.Machines.CustodyPasses
import Zuse.Machines.CustodyRequests
import Zuse.Machines.CustodyRuns
import Zuse.Machines.Destruction
import Zuse.Machines.DestructionPasses
import Zuse.Machines.DestructionRequests
import Zuse.Machines.DestructionRuns
import Zuse.Machines.MachineReconciler
import Zuse.Machines.MachineRecords
import Zuse.Machines.MachineRequests
import Zuse.Machines.MachineStore
import Zuse.Machines.MachineStorePg
import Zuse.Machines.MachineSystem
import Zuse.Machines.RecordEdits
import Zuse.Machines.Revisions
import Zuse.Machines.ServerCustody
import Zuse.Machines.StoreAgreement
import Zuse.Machines.StoreEquivalence
import Zuse.Machines.StoreRuns
import Zuse.Machines.SubscriptionRuns
import Zuse.PublicApi.DeliveryInvariant
import Zuse.PublicApi.DeliveryRuns
import Zuse.PublicApi.LedgerInvariant
import Zuse.PublicApi.LedgerOperations
import Zuse.PublicApi.LedgerRecords
import Zuse.PublicApi.LedgerRuns
import Zuse.PublicApi.LedgerStore
import Zuse.PublicApi.LedgerSystem
import Zuse.PublicApi.WebhookDispatch
import Zuse.PublicApi.WebhookStore
import Zuse.Review.GuideView
import Zuse.Review.HunkSelections
import Zuse.Review.HunkSplits
import Zuse.Review.PatchHunks
import Zuse.Usage.CostHistory
import Zuse.Workspaces.ArchivePasses
import Zuse.Workspaces.ArchiveProgress
import Zuse.Workspaces.ArchiveRuns
import Zuse.Workspaces.ArchiveStages
import Zuse.Workspaces.MailboxAgreement
import Zuse.Workspaces.MailboxWakes
import Zuse.Workspaces.RuntimeAgreement
import Zuse.Workspaces.RuntimeStore
import Zuse.Workspaces.RuntimeStorePg
import Zuse.Workspaces.RuntimeTables
import Zuse.Workspaces.StoreAgreement
import Zuse.Workspaces.WorkspaceArchive
import Zuse.Workspaces.WorkspaceCalls
import Zuse.Workspaces.WorkspaceFailures
import Zuse.Workspaces.WorkspaceLifecycle
import Zuse.Workspaces.WorkspaceRecord
