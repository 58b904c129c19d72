import Glasslab.Foundation.Machine
import Glasslab.Foundation.NumberedLog
import Glasslab.Foundation.Table
import Glasslab.Foundation.Transaction
import Glasslab.Schemas
import Glasslab.StateMachine
import Glasslab.Storage.Store
import Glasslab.Storage.Spec
import Glasslab.Storage.EventLog
import Glasslab.Storage.ActiveRun
import Glasslab.Storage.TerminalRetry
import Glasslab.Storage.OptimisticLock
import Glasslab.Engine.Pause
import Glasslab.Engine.AgentTurn
import Glasslab.Engine.TurnLimits
import Glasslab.Engine.TurnBudget
import Glasslab.Engine.Jobs
import Glasslab.Engine.JobRules
import Glasslab.Engine.JobCapacity
import Glasslab.Engine.JobEvents
import Glasslab.Engine.JobCancel
import Glasslab.Foundation.Routine
import Glasslab.Engine.Phases
import Glasslab.Engine.Workflow
import Glasslab.Engine.WorkflowRules
import Glasslab.Engine.Gates
import Glasslab.Engine.RunClock
import Glasslab.Discord.RestCircuit
import Glasslab.Foundation.Document
import Glasslab.Methodology.Requirements
import Glasslab.Methodology.Convergence
import Glasslab.Comparison.Checks
import Glasslab.Comparison.Report
import Glasslab.Comparison.Verdict
import Glasslab.Comparison.Matrix
import Glasslab.Comparison.Admission
import Glasslab.Comparison.Fingerprint
import Glasslab.Engine.ContractProposal
import Glasslab.Engine.ProtocolDrafts
import Glasslab.Engine.ContractCandidates
import Glasslab.Evidence.Snapshot
import Glasslab.Evidence.SizeBound
import Glasslab.Evidence.Duplicates
import Glasslab.Corpus.Chunking
import Glasslab.Corpus.Coverage
import Glasslab.Foundation.Indexed
import Glasslab.Storage.FullText
import Glasslab.Foundation.History
import Glasslab.Storage.ConversationBindings
import Glasslab.Engine.Promotion
import Glasslab.Engine.RequestedActions
import Glasslab.Comparison.Expansion
import Glasslab.Contracts.Bundle
import Glasslab.Contracts.Pinning
import Glasslab.Contracts.Catalog
import Glasslab.Contracts.CatalogUpdates
import Glasslab.Contracts.Reservations
import Glasslab.Contracts.Allocation
import Glasslab.Foundation.Scanning
import Glasslab.Knowledge.ContextBlocks
import Glasslab.Knowledge.Retrieval
import Glasslab.Knowledge.Boundary
import Glasslab.Knowledge.Ingestion
import Glasslab.Knowledge.EvidenceTool
import Glasslab.Corpus.RagStore
import Glasslab.Corpus.IngestDocument
import Glasslab.Corpus.Uploads
import Glasslab.Corpus.Reingest
import Glasslab.Corpus.Soundness
import Glasslab.Corpus.Composition
import Glasslab.Evidence.Resolver
import Glasslab.Foundation.DirectoryTree
import Glasslab.Storage.Retention
import Glasslab.Storage.CleanupPreview
import Glasslab.Workspaces.RetryCheckpoint
import Glasslab.Workspaces.ExactCheckpoint
import Glasslab.Datasets.Registration
import Glasslab.Datasets.StableNames
import Glasslab.Datasets.TaskAssets
import Glasslab.Foundation.Base64Url
import Glasslab.Links.SignedLinks
import Glasslab.Links.Spellings
import Glasslab.Foundation.Patterns
import Glasslab.Agents.ShellPolicy
import Glasslab.Agents.ShellDecisions
import Glasslab.Foundation.LinkedTree
import Glasslab.Foundation.PathCalls
import Glasslab.Agents.WorkspaceFiles
import Glasslab.Agents.ContainedWrites
import Glasslab.Engine.Watcher
import Glasslab.WorkflowApi.Creation
import Glasslab.WorkflowApi.IdempotentCreate
import Glasslab.WorkflowApi.RunArtifacts
import Glasslab.WorkflowApi.RunRoutes
import Glasslab.WorkflowApi.TerminalStatus
import Glasslab.Foundation.Spacing
import Glasslab.WorkflowApi.Claims
import Glasslab.WorkflowApi.Requests
import Glasslab.WorkflowApi.VerifiedBundles
import Glasslab.WorkflowApi.InvestigationUpdates
import Glasslab.WorkflowApi.ConfirmatoryFreeze
import Glasslab.WorkflowApi.ObservedStatus
import Glasslab.Foundation.CivilTime
import Glasslab.WorkflowApi.Schedules
import Glasslab.WorkflowApi.ApprovedReruns
import Glasslab.WorkflowApi.ScheduleRaces
import Glasslab.Foundation.PurePaths
import Glasslab.ResearchRunner.DatasetBindings
import Glasslab.Comparison.TemplateVariants
import Glasslab.Discord.GuardedCalls
import Glasslab.Comparison.InputOrder
import Glasslab.Evidence.RetentionOrder
import Glasslab.Engine.TurnPrompts
import Glasslab.WorkflowApi.Autoresearch
import Glasslab.WorkflowApi.DecisionReplay
import Glasslab.WorkflowApi.CampaignBest
import Glasslab.Corpus.HeadersFooters
import Glasslab.Foundation.Tally
import Glasslab.Evidence.ArtifactDelivery
import Glasslab.Foundation.Attempts
import Glasslab.Evidence.ArtifactBundles
import Glasslab.Workspaces.RunDatasets
import Glasslab.Engine.TurnWatch
import Glasslab.Datasets.TaskCompile
import Glasslab.Corpus.SectionDetection
import Glasslab.Corpus.Provenance
import Glasslab.Methodology.KeptValues
import Glasslab.Corpus.TokenCaps
import Glasslab.Discord.ProbeSlot
import Glasslab.ResearchRunner.ArtifactIndex
import Glasslab.Engine.PriorContext
import Glasslab.Foundation.Squeezing
import Glasslab.Knowledge.CitationLocator
import Glasslab.Knowledge.ToolTruncation
import Glasslab.Knowledge.ChunkWindows
import Glasslab.Knowledge.Rebuild
import Glasslab.Corpus.HybridRetrieval
import Glasslab.Corpus.DenseMode
import Glasslab.Knowledge.PacketBudget
import Glasslab.Corpus.VectorIndex
import Glasslab.ResearchRunner.DatasetVariables
import Glasslab.Methodology.StaticKeys
import Glasslab.WorkflowApi.JobNames
import Glasslab.Knowledge.MatchExpressions
import Glasslab.WorkflowApi.PlanGraphs
import Glasslab.WorkflowApi.DueSchedules
