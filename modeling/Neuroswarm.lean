import Neuroswarm.Lib.Run
import Neuroswarm.Lib.Rounding
import Neuroswarm.Kv.Tables
import Neuroswarm.Kv.Providers
import Neuroswarm.Kv.BlockManager
import Neuroswarm.Kv.StoreInvariant
import Neuroswarm.Kv.Effects
import Neuroswarm.Kv.Invariant
import Neuroswarm.Kv.DedupIndex
import Neuroswarm.Kv.Frame
import Neuroswarm.Kv.Reclaim
import Neuroswarm.Kv.PrefixSoundness
import Neuroswarm.Kv.PrefixChains
import Neuroswarm.Kv.MigrationFaults
import Neuroswarm.Kv.Sharing
import Neuroswarm.Kv.Runtime
import Neuroswarm.Kv.SharedPayloads
import Neuroswarm.Kv.Contents
import Neuroswarm.Kv.Recovery
import Neuroswarm.Kv.RuntimeInvariant
import Neuroswarm.Kv.RoundTrip
import Neuroswarm.Kv.Interleaving
import Neuroswarm.Kv.NoLostUpdate
import Neuroswarm.Maks.Tables
import Neuroswarm.Maks.Pool
import Neuroswarm.Maks.Backends
import Neuroswarm.Maks.Effects
import Neuroswarm.Maks.Grounded
import Neuroswarm.Maks.LifecycleAgreement
import Neuroswarm.Maks.PoolMirror
import Neuroswarm.Maks.ByteAccounting
import Neuroswarm.Maks.Holders
import Neuroswarm.Lib.Delimited
import Neuroswarm.Maks.DedupContent
import Neuroswarm.Maks.Q8Codec
import Neuroswarm.Lib.SecondChance
import Neuroswarm.Maks.Policies
import Neuroswarm.Maks.Eviction
import Neuroswarm.Lib.EdgeList
import Neuroswarm.Lib.Levels
import Neuroswarm.Lib.LongestPath
import Neuroswarm.Lib.TopologicalOrder
import Neuroswarm.Swarm.Types
import Neuroswarm.Swarm.Analyzer
import Neuroswarm.Swarm.Conditions
import Neuroswarm.Swarm.Executor
import Neuroswarm.Swarm.Invariant
import Neuroswarm.Swarm.Loop
import Neuroswarm.Swarm.Completion
import Neuroswarm.Swarm.StateMachine
import Neuroswarm.Swarm.Progress
import Neuroswarm.Swarm.Reports
import Neuroswarm.Swarm.ScopedCancel
import Neuroswarm.Swarm.Edits
import Neuroswarm.Swarm.EditOutcomes
import Neuroswarm.Haoe.DependencyGraph
import Neuroswarm.Swarm.GraphRecord
import Neuroswarm.Swarm.CriticalPath
import Neuroswarm.Swarm.HaoeAdapter
import Neuroswarm.MetaOrchestrator.Readiness
import Neuroswarm.MetaOrchestrator.Coordinator
import Neuroswarm.MetaOrchestrator.Effects
import Neuroswarm.MetaOrchestrator.NodeSets
import Neuroswarm.MetaOrchestrator.RetryLimits
import Neuroswarm.MetaOrchestrator.Executions
import Neuroswarm.MetaOrchestrator.Parallelism
import Neuroswarm.MetaOrchestrator.Sections
import Neuroswarm.MetaOrchestrator.TrueOutcomes
import Neuroswarm.MetaOrchestrator.Stalls
import Neuroswarm.MetaOrchestrator.Checkpoint
import Neuroswarm.Context.Budget
import Neuroswarm.Context.Execution
import Neuroswarm.Context.BranchOrder
import Neuroswarm.Context.ConditionStatuses
import Neuroswarm.Context.Record
import Neuroswarm.Context.Diff
import Neuroswarm.Haoe.QueueConservation
import Neuroswarm.Haoe.PriorityScheduler
import Neuroswarm.Haoe.CriticalPath
import Neuroswarm.Armcascade.Types
import Neuroswarm.Armcascade.DraftTransparency
import Neuroswarm.Armcascade.Continuations
import Neuroswarm.Checkpoints.Repository
import Neuroswarm.Checkpoints.Manager
import Neuroswarm.Checkpoints.LatestCache
import Neuroswarm.Checkpoints.PlanCache
import Neuroswarm.Checkpoints.RetentionLimits
import Neuroswarm.Rollback.Planner
import Neuroswarm.Rollback.RecoveryOrder
import Neuroswarm.Rollback.Manager
import Neuroswarm.Rollback.Statuses
import Neuroswarm.Rollback.CallKnowledge
import Neuroswarm.Rollback.StatusLifecycle
import Neuroswarm.Rollback.Executor
import Neuroswarm.Rollback.FailedExecutions
import Neuroswarm.Rollback.Jsonl
import Neuroswarm.Resilience.Candidates
import Neuroswarm.Resilience.Engine
import Neuroswarm.Resilience.Completeness
import Neuroswarm.Armcascade.Escalation
import Neuroswarm.Armcascade.Engine
import Neuroswarm.Armcascade.Degradation
import Neuroswarm.Armcascade.VerifiedCommits
import Neuroswarm.Haoe.WorkflowExecutor
import Neuroswarm.Haoe.Resume
import Neuroswarm.Mcp.Casing
import Neuroswarm.Mcp.Addresses
import Neuroswarm.Mcp.Literals
import Neuroswarm.Mcp.Ssrf
import Neuroswarm.Mcp.ChildEnv
import Neuroswarm.Mcp.Manager
import Neuroswarm.Mcp.RpcMatching
import Neuroswarm.Mcp.Stability
import Neuroswarm.Mcp.Dispatch
import Neuroswarm.Mcp.TenantIsolation
import Neuroswarm.Mcp.Catalogue
import Neuroswarm.Budget.Tracker
import Neuroswarm.Budget.Reservations
import Neuroswarm.Budget.Envelope
import Neuroswarm.Budget.Agreement
import Neuroswarm.Budget.Optimizer
import Neuroswarm.Budget.Admission
import Neuroswarm.Rtg.Policy
import Neuroswarm.Rtg.Control
import Neuroswarm.Rtg.TokenBound
import Neuroswarm.Agents.Agent
import Neuroswarm.Agents.Registry
import Neuroswarm.Agents.Enforcement
import Neuroswarm.Agents.Heartbeat
import Neuroswarm.Agents.Selector
import Neuroswarm.Agents.Staleness
import Neuroswarm.Lib.Replay
import Neuroswarm.Experience.Index
import Neuroswarm.Experience.Repository
import Neuroswarm.Experience.Survival
import Neuroswarm.Experience.Query
import Neuroswarm.Lib.Json
import Neuroswarm.Lib.JsonText
import Neuroswarm.Router.CanonicalJson
import Neuroswarm.Router.ToolOutputCache
import Neuroswarm.Okf.Documents
import Neuroswarm.Okf.Sections
import Neuroswarm.Okf.Graph
import Neuroswarm.Okf.References
import Neuroswarm.Okf.Frontmatter
import Neuroswarm.Acr.Assembly
import Neuroswarm.Acr.Compression
import Neuroswarm.Acr.Kernel
import Neuroswarm.Acr.Transparency
import Neuroswarm.Evolution.Deployment
import Neuroswarm.Evolution.ParetoFront
import Neuroswarm.Evolution.Restoration
import Neuroswarm.Okf.JsonCopies
import Neuroswarm.Okf.Pipeline
import Neuroswarm.Okf.Cycles
import Neuroswarm.Okf.KeyOrder
import Neuroswarm.Okf.IncrementalBuilds
import Neuroswarm.Swarm.ConditionCodec
import Neuroswarm.Swarm.HaoeRoundTrip
import Neuroswarm.MetaOrchestrator.FailedCheckpoints
import Neuroswarm.MetaOrchestrator.Aggregation
import Neuroswarm.Dipa.StreamBuffer
import Neuroswarm.Armcascade.GreedyLogits
import Neuroswarm.Armcascade.TreeAcceptance
import Neuroswarm.Maks.ContentIndex
import Neuroswarm.Maks.MteSharing
import Neuroswarm.SubSwarms.Composition
