import Neuroswarm.Router.CanonicalJson

/-!
# Swarm context — the whole record

`SwarmContext` with every field of every domain, and the payload that `content_hash`
is made of. The other modules of this directory have the part that propagation and
merging use.

Values typed `Any` and floats are parameters, with what `==` and the dump to JSON make
of them (`Python`). Integers that a validator bounds are kept unbounded, for
`model_copy(update=...)` runs no validators. Time stamps are ISO texts.
-/

namespace Neuroswarm.Context.Record

/-- What the program does with values typed `Any` and with floats. -/
structure Python (V F : Type*) where
  /-- `None` -/
  none : V
  /-- `==` -/
  eq : V → V → Bool
  /-- `model_dump(mode="json")` -/
  dump : V → Json
  floatEq : F → F → Bool
  floatDump : F → Json

variable {V F : Type*}

-- ------ `models.py`

inductive ContextRefKind where
  | mem0
  | okf
  | knowledge
  | toolRegistry
  | agentRegistry
  | taskGraph
  | checkpoint
  | experience
  | acrSnapshot
  | generic
  deriving DecidableEq, Repr

def ContextRefKind.value : ContextRefKind → String
  | .mem0 => "mem0"
  | .okf => "okf"
  | .knowledge => "knowledge"
  | .toolRegistry => "tool_registry"
  | .agentRegistry => "agent_registry"
  | .taskGraph => "task_graph"
  | .checkpoint => "checkpoint"
  | .experience => "experience"
  | .acrSnapshot => "acr_snapshot"
  | .generic => "generic"

/-- Opaque handle to an external subsystem resource. -/
structure ExternalRef (V : Type*) where
  kind : ContextRefKind := .generic
  refId : String := ""
  uri : String := ""
  version : String := ""
  metadata : Dict String V := .empty

/-- Lightweight registry pointer. -/
structure RegistryHandle (V : Type*) where
  registryId : String := ""
  revision : String := ""
  metadata : Dict String V := .empty

structure TaskGraphRef (V : Type*) where
  graphId : String := ""
  contentHash : String := ""
  name : String := ""
  version : String := ""
  metadata : Dict String V := .empty

structure TelemetryContext (V : Type*) where
  envelopeId : String := ""
  budgetId : String := ""
  attributes : Dict String String := .empty
  metadata : Dict String V := .empty

structure HistoryEntry (V : Type*) where
  eventType : String
  timestamp : String
  summary : String := ""
  metadata : Dict String V := .empty

-- ------ `request.py`

structure AttachmentRef (V : Type*) where
  name : String := ""
  mimeType : String := ""
  uri : String := ""
  sizeBytes : Int := 0
  metadata : Dict String V := .empty

structure ConversationTurn (V : Type*) where
  role : String := "user"
  content : String := ""
  metadata : Dict String V := .empty

structure RequestContext (V : Type*) where
  prompt : String := ""
  conversation : List (ConversationTurn V) := []
  files : List String := []
  attachments : List (AttachmentRef V) := []
  parameters : Dict String V := .empty
  priority : Int := 0
  workflow : String := ""
  policies : List String := []
  metadata : Dict String V := .empty

-- ------ `budget.py`

/-- Consumed amounts across budget dimensions. -/
structure BudgetUsage (V F : Type*) where
  costUsd : F
  tokens : F
  latencyMs : F
  energyJ : F
  memoryBytes : Int := 0
  cpuCoresS : F
  reasoningTokens : F
  metadata : Dict String V := .empty

structure BudgetContext (V F : Type*) where
  costUsdLimit : Option F := none
  tokensLimit : Option F := none
  latencyMsLimit : Option F := none
  energyJLimit : Option F := none
  memoryBytesLimit : Option Int := none
  cpuCoresSLimit : Option F := none
  reasoningTokensLimit : Option F := none
  used : BudgetUsage V F
  costUsdUsed : F
  tokensUsed : F
  latencyMsUsed : F
  energyJUsed : F
  memoryBytesUsed : Int := 0
  reasoningTokensUsed : F
  envelopeId : Option String := none
  frozen : Bool := false
  energyEstimateJ : Option F := none
  metadata : Dict String V := .empty

-- ------ `memory.py`

structure CompressionMeta (V F : Type*) where
  strategy : String := ""
  originalTokens : Int := 0
  compressedTokens : Int := 0
  ratio : F
  metadata : Dict String V := .empty

structure MemoryContext (V F : Type*) where
  sessionId : Option String := none
  checkpointId : Option String := none
  memoryPressure : F
  tierHint : String := ""
  keys : List String := []
  workingMemory : Dict String V := .empty
  shortTermMemory : Dict String V := .empty
  scratchpad : Dict String V := .empty
  temporaryVariables : Dict String V := .empty
  longTermMemoryRef : ExternalRef V := {}
  mem0Reference : ExternalRef V := { kind := .mem0 }
  okfReference : ExternalRef V := { kind := .okf }
  compression : CompressionMeta V F
  metadata : Dict String V := .empty

-- ------ `knowledge.py`, `tools.py`

structure KnowledgeDocumentRef (V F : Type*) where
  docId : String := ""
  path : String := ""
  «namespace» : String := ""
  score : F
  metadata : Dict String V := .empty

structure RetrievalMeta (V F : Type*) where
  query : String := ""
  topK : Int := 0
  strategy : String := ""
  hitCount : Int := 0
  latencyMs : F
  metadata : Dict String V := .empty

structure KnowledgeContext (V F : Type*) where
  namespaces : List String := []
  documents : List (KnowledgeDocumentRef V F) := []
  policies : List String := []
  prompts : List String := []
  workflows : List String := []
  embeddingModel : String := ""
  embeddingRefs : List String := []
  retrieval : RetrievalMeta V F
  knowledgeReference : ExternalRef V := { kind := .knowledge }
  okfReference : ExternalRef V := { kind := .okf }
  metadata : Dict String V := .empty

structure ToolCapability (V : Type*) where
  name : String
  description : String := ""
  permissions : List String := []
  metadata : Dict String V := .empty

structure ToolHistoryEntry (V F : Type*) where
  toolName : String
  nodeId : String := ""
  status : String := ""
  latencyMs : F
  metadata : Dict String V := .empty

structure ToolContext (V F : Type*) where
  registry : RegistryHandle V := {}
  availableTools : List String := []
  selectedTools : List String := []
  capabilities : List (ToolCapability V) := []
  permissions : List String := []
  history : List (ToolHistoryEntry V F) := []
  metadata : Dict String V := .empty

-- ------ `execution.py`, `metrics.py`, `tracing.py`

structure TimelineEvent (V : Type*) where
  nodeId : String := ""
  status : String := ""
  timestamp : String
  detail : String := ""
  metadata : Dict String V := .empty

structure NodeFailure (V : Type*) where
  nodeId : String
  error : String := ""
  attempt : Int := 0
  timestamp : String
  metadata : Dict String V := .empty

structure ExecutionContext (V F : Type*) where
  runId : String := ""
  numaNode : Option Int := none
  poolHint : String := ""
  timeoutS : Option F := none
  baggage : Dict String V := .empty
  availableTools : List String := []
  availableModels : List String := []
  confidence : Option F := none
  currentNode : Option String := none
  currentAgent : Option String := none
  completedNodes : List String := []
  pendingNodes : List String := []
  failedNodes : List String := []
  retries : Dict String Int := .empty
  failures : List (NodeFailure V) := []
  checkpointIds : List String := []
  timeline : List (TimelineEvent V) := []
  nodeResults : Dict String V := .empty
  nodeStatuses : Dict String String := .empty
  depth : Int := 0
  metadata : Dict String V := .empty

structure ContextMetrics (V F : Type*) where
  contextSizeBytes : Int := 0
  memoryRefCount : Int := 0
  knowledgeRefCount : Int := 0
  budgetUsageRatio : F
  executionDepth : Int := 0
  snapshotCount : Int := 0
  propagationCount : Int := 0
  mergeCount : Int := 0
  diffCount : Int := 0
  checkpointCount : Int := 0
  custom : Dict String F := .empty
  metadata : Dict String V := .empty

structure TraceContext (V : Type*) where
  traceId : String
  spanId : String
  parentSpanId : Option String := none
  workflowId : String
  requestId : String
  correlationId : String
  agentId : String := ""
  executionId : String
  conversationId : String := ""
  envelopeId : String := ""
  baggage : Dict String String := .empty
  metadata : Dict String V := .empty

-- ------ `context.py`

/-- Shared runtime operating state. -/
structure SwarmContext (V F : Type*) where
  swarmId : String
  requestId : String
  workflowId : String
  executionId : String
  sessionId : Option String := none
  userId : Option String := none
  tenantId : Option String := none
  snapshotId : Option String := none
  request : RequestContext V := {}
  budget : BudgetContext V F
  memory : MemoryContext V F
  knowledge : KnowledgeContext V F
  execution : ExecutionContext V F := {}
  tools : ToolContext V F := {}
  metrics : ContextMetrics V F
  traceContext : TraceContext V
  telemetryContext : TelemetryContext V := {}
  mem0Reference : ExternalRef V := { kind := .mem0 }
  okfReference : ExternalRef V := { kind := .okf }
  knowledgeReference : ExternalRef V := { kind := .knowledge }
  toolRegistry : RegistryHandle V := {}
  agentRegistry : RegistryHandle V := {}
  taskGraph : TaskGraphRef V := {}
  executionPlan : Dict String V := .empty
  currentNode : Option String := none
  currentAgent : Option String := none
  checkpoints : List String := []
  history : List (HistoryEntry V) := []
  version : String
  schemaVersion : String
  createdAt : String
  updatedAt : String
  tags : List String := []
  labels : Dict String String := .empty
  metadata : Dict String V := .empty
  extra : Dict String V := .empty

-- ------ `model_dump(mode="json")`

namespace Python

variable (py : Python V F)

def anyDict (d : Dict String V) : Json := .dict (d.mapValues fun _ v => py.dump v).entries

def floatDict (d : Dict String F) : Json := .dict (d.mapValues fun _ x => py.floatDump x).entries

def optFloat : Option F → Json
  | .none => .null
  | .some x => py.floatDump x

end Python

def strs (l : List String) : Json := .list (l.map .str)

def strDict (d : Dict String String) : Json := .dict (d.mapValues fun _ s => .str s).entries

def intDict (d : Dict String Int) : Json := .dict (d.mapValues fun _ n => .int n).entries

def optStr : Option String → Json
  | .none => .null
  | .some s => .str s

def optInt : Option Int → Json
  | .none => .null
  | .some n => .int n

def ExternalRef.dump (py : Python V F) (r : ExternalRef V) : Json :=
  .dict [("kind", .str r.kind.value), ("ref_id", .str r.refId), ("uri", .str r.uri),
    ("version", .str r.version), ("metadata", py.anyDict r.metadata)]

def RegistryHandle.dump (py : Python V F) (r : RegistryHandle V) : Json :=
  .dict [("registry_id", .str r.registryId), ("revision", .str r.revision),
    ("metadata", py.anyDict r.metadata)]

def TaskGraphRef.dump (py : Python V F) (r : TaskGraphRef V) : Json :=
  .dict [("graph_id", .str r.graphId), ("content_hash", .str r.contentHash),
    ("name", .str r.name), ("version", .str r.version), ("metadata", py.anyDict r.metadata)]

def TelemetryContext.dump (py : Python V F) (t : TelemetryContext V) : Json :=
  .dict [("envelope_id", .str t.envelopeId), ("budget_id", .str t.budgetId),
    ("attributes", strDict t.attributes), ("metadata", py.anyDict t.metadata)]

def HistoryEntry.dump (py : Python V F) (e : HistoryEntry V) : Json :=
  .dict [("event_type", .str e.eventType), ("timestamp", .str e.timestamp),
    ("summary", .str e.summary), ("metadata", py.anyDict e.metadata)]

def AttachmentRef.dump (py : Python V F) (a : AttachmentRef V) : Json :=
  .dict [("name", .str a.name), ("mime_type", .str a.mimeType), ("uri", .str a.uri),
    ("size_bytes", .int a.sizeBytes), ("metadata", py.anyDict a.metadata)]

def ConversationTurn.dump (py : Python V F) (t : ConversationTurn V) : Json :=
  .dict [("role", .str t.role), ("content", .str t.content),
    ("metadata", py.anyDict t.metadata)]

def RequestContext.dump (py : Python V F) (r : RequestContext V) : Json :=
  .dict [("prompt", .str r.prompt), ("conversation", .list (r.conversation.map (·.dump py))),
    ("files", strs r.files), ("attachments", .list (r.attachments.map (·.dump py))),
    ("parameters", py.anyDict r.parameters), ("priority", .int r.priority),
    ("workflow", .str r.workflow), ("policies", strs r.policies),
    ("metadata", py.anyDict r.metadata)]

def BudgetUsage.dump (py : Python V F) (u : BudgetUsage V F) : Json :=
  .dict [("cost_usd", py.floatDump u.costUsd), ("tokens", py.floatDump u.tokens),
    ("latency_ms", py.floatDump u.latencyMs), ("energy_j", py.floatDump u.energyJ),
    ("memory_bytes", .int u.memoryBytes), ("cpu_cores_s", py.floatDump u.cpuCoresS),
    ("reasoning_tokens", py.floatDump u.reasoningTokens), ("metadata", py.anyDict u.metadata)]

def BudgetContext.dump (py : Python V F) (b : BudgetContext V F) : Json :=
  .dict [("cost_usd_limit", py.optFloat b.costUsdLimit),
    ("tokens_limit", py.optFloat b.tokensLimit),
    ("latency_ms_limit", py.optFloat b.latencyMsLimit),
    ("energy_j_limit", py.optFloat b.energyJLimit),
    ("memory_bytes_limit", optInt b.memoryBytesLimit),
    ("cpu_cores_s_limit", py.optFloat b.cpuCoresSLimit),
    ("reasoning_tokens_limit", py.optFloat b.reasoningTokensLimit),
    ("used", b.used.dump py), ("cost_usd_used", py.floatDump b.costUsdUsed),
    ("tokens_used", py.floatDump b.tokensUsed),
    ("latency_ms_used", py.floatDump b.latencyMsUsed),
    ("energy_j_used", py.floatDump b.energyJUsed),
    ("memory_bytes_used", .int b.memoryBytesUsed),
    ("reasoning_tokens_used", py.floatDump b.reasoningTokensUsed),
    ("envelope_id", optStr b.envelopeId), ("frozen", .bool b.frozen),
    ("energy_estimate_j", py.optFloat b.energyEstimateJ), ("metadata", py.anyDict b.metadata)]

def CompressionMeta.dump (py : Python V F) (m : CompressionMeta V F) : Json :=
  .dict [("strategy", .str m.strategy), ("original_tokens", .int m.originalTokens),
    ("compressed_tokens", .int m.compressedTokens), ("ratio", py.floatDump m.ratio),
    ("metadata", py.anyDict m.metadata)]

def MemoryContext.dump (py : Python V F) (m : MemoryContext V F) : Json :=
  .dict [("session_id", optStr m.sessionId), ("checkpoint_id", optStr m.checkpointId),
    ("memory_pressure", py.floatDump m.memoryPressure), ("tier_hint", .str m.tierHint),
    ("keys", strs m.keys), ("working_memory", py.anyDict m.workingMemory),
    ("short_term_memory", py.anyDict m.shortTermMemory),
    ("scratchpad", py.anyDict m.scratchpad),
    ("temporary_variables", py.anyDict m.temporaryVariables),
    ("long_term_memory_ref", m.longTermMemoryRef.dump py),
    ("mem0_reference", m.mem0Reference.dump py), ("okf_reference", m.okfReference.dump py),
    ("compression", m.compression.dump py), ("metadata", py.anyDict m.metadata)]

def KnowledgeDocumentRef.dump (py : Python V F) (d : KnowledgeDocumentRef V F) : Json :=
  .dict [("doc_id", .str d.docId), ("path", .str d.path), ("namespace", .str d.namespace),
    ("score", py.floatDump d.score), ("metadata", py.anyDict d.metadata)]

def RetrievalMeta.dump (py : Python V F) (m : RetrievalMeta V F) : Json :=
  .dict [("query", .str m.query), ("top_k", .int m.topK), ("strategy", .str m.strategy),
    ("hit_count", .int m.hitCount), ("latency_ms", py.floatDump m.latencyMs),
    ("metadata", py.anyDict m.metadata)]

def KnowledgeContext.dump (py : Python V F) (k : KnowledgeContext V F) : Json :=
  .dict [("namespaces", strs k.namespaces),
    ("documents", .list (k.documents.map (·.dump py))), ("policies", strs k.policies),
    ("prompts", strs k.prompts), ("workflows", strs k.workflows),
    ("embedding_model", .str k.embeddingModel), ("embedding_refs", strs k.embeddingRefs),
    ("retrieval", k.retrieval.dump py), ("knowledge_reference", k.knowledgeReference.dump py),
    ("okf_reference", k.okfReference.dump py), ("metadata", py.anyDict k.metadata)]

def ToolCapability.dump (py : Python V F) (c : ToolCapability V) : Json :=
  .dict [("name", .str c.name), ("description", .str c.description),
    ("permissions", strs c.permissions), ("metadata", py.anyDict c.metadata)]

def ToolHistoryEntry.dump (py : Python V F) (e : ToolHistoryEntry V F) : Json :=
  .dict [("tool_name", .str e.toolName), ("node_id", .str e.nodeId), ("status", .str e.status),
    ("latency_ms", py.floatDump e.latencyMs), ("metadata", py.anyDict e.metadata)]

def ToolContext.dump (py : Python V F) (t : ToolContext V F) : Json :=
  .dict [("registry", t.registry.dump py), ("available_tools", strs t.availableTools),
    ("selected_tools", strs t.selectedTools),
    ("capabilities", .list (t.capabilities.map (·.dump py))),
    ("permissions", strs t.permissions), ("history", .list (t.history.map (·.dump py))),
    ("metadata", py.anyDict t.metadata)]

def TimelineEvent.dump (py : Python V F) (e : TimelineEvent V) : Json :=
  .dict [("node_id", .str e.nodeId), ("status", .str e.status), ("timestamp", .str e.timestamp),
    ("detail", .str e.detail), ("metadata", py.anyDict e.metadata)]

def NodeFailure.dump (py : Python V F) (f : NodeFailure V) : Json :=
  .dict [("node_id", .str f.nodeId), ("error", .str f.error), ("attempt", .int f.attempt),
    ("timestamp", .str f.timestamp), ("metadata", py.anyDict f.metadata)]

def ExecutionContext.dump (py : Python V F) (e : ExecutionContext V F) : Json :=
  .dict [("run_id", .str e.runId), ("numa_node", optInt e.numaNode),
    ("pool_hint", .str e.poolHint), ("timeout_s", py.optFloat e.timeoutS),
    ("baggage", py.anyDict e.baggage), ("available_tools", strs e.availableTools),
    ("available_models", strs e.availableModels), ("confidence", py.optFloat e.confidence),
    ("current_node", optStr e.currentNode), ("current_agent", optStr e.currentAgent),
    ("completed_nodes", strs e.completedNodes), ("pending_nodes", strs e.pendingNodes),
    ("failed_nodes", strs e.failedNodes), ("retries", intDict e.retries),
    ("failures", .list (e.failures.map (·.dump py))), ("checkpoint_ids", strs e.checkpointIds),
    ("timeline", .list (e.timeline.map (·.dump py))),
    ("node_results", py.anyDict e.nodeResults), ("node_statuses", strDict e.nodeStatuses),
    ("depth", .int e.depth), ("metadata", py.anyDict e.metadata)]

def ContextMetrics.dump (py : Python V F) (m : ContextMetrics V F) : Json :=
  .dict [("context_size_bytes", .int m.contextSizeBytes),
    ("memory_ref_count", .int m.memoryRefCount),
    ("knowledge_ref_count", .int m.knowledgeRefCount),
    ("budget_usage_ratio", py.floatDump m.budgetUsageRatio),
    ("execution_depth", .int m.executionDepth), ("snapshot_count", .int m.snapshotCount),
    ("propagation_count", .int m.propagationCount), ("merge_count", .int m.mergeCount),
    ("diff_count", .int m.diffCount), ("checkpoint_count", .int m.checkpointCount),
    ("custom", py.floatDict m.custom), ("metadata", py.anyDict m.metadata)]

def TraceContext.dump (py : Python V F) (t : TraceContext V) : Json :=
  .dict [("trace_id", .str t.traceId), ("span_id", .str t.spanId),
    ("parent_span_id", optStr t.parentSpanId), ("workflow_id", .str t.workflowId),
    ("request_id", .str t.requestId), ("correlation_id", .str t.correlationId),
    ("agent_id", .str t.agentId), ("execution_id", .str t.executionId),
    ("conversation_id", .str t.conversationId), ("envelope_id", .str t.envelopeId),
    ("baggage", strDict t.baggage), ("metadata", py.anyDict t.metadata)]

/-- The members of `model_dump(mode="json", exclude={...})`: the time stamps and the
snapshot id of the context itself are left out. -/
def SwarmContext.members (py : Python V F) (c : SwarmContext V F) : List (String × Json) :=
  [("swarm_id", .str c.swarmId), ("request_id", .str c.requestId),
    ("workflow_id", .str c.workflowId), ("execution_id", .str c.executionId),
    ("session_id", optStr c.sessionId), ("user_id", optStr c.userId),
    ("tenant_id", optStr c.tenantId), ("request", c.request.dump py),
    ("budget", c.budget.dump py), ("memory", c.memory.dump py),
    ("knowledge", c.knowledge.dump py), ("execution", c.execution.dump py),
    ("tools", c.tools.dump py), ("metrics", c.metrics.dump py),
    ("trace_context", c.traceContext.dump py),
    ("telemetry_context", c.telemetryContext.dump py),
    ("mem0_reference", c.mem0Reference.dump py), ("okf_reference", c.okfReference.dump py),
    ("knowledge_reference", c.knowledgeReference.dump py),
    ("tool_registry", c.toolRegistry.dump py), ("agent_registry", c.agentRegistry.dump py),
    ("task_graph", c.taskGraph.dump py), ("execution_plan", py.anyDict c.executionPlan),
    ("current_node", optStr c.currentNode), ("current_agent", optStr c.currentAgent),
    ("checkpoints", strs c.checkpoints), ("history", .list (c.history.map (·.dump py))),
    ("version", .str c.version), ("schema_version", .str c.schemaVersion),
    ("tags", strs c.tags), ("labels", strDict c.labels),
    ("metadata", py.anyDict c.metadata), ("extra", py.anyDict c.extra)]

/-- What `content_hash` hashes. -/
def SwarmContext.payload (py : Python V F) (c : SwarmContext V F) : Json :=
  .dict (c.members py)

/-- `SwarmContext.content_hash`; `digest` is the hash of the text with sorted keys, as a
function of the value with sorted members. -/
def SwarmContext.contentHash (py : Python V F) (digest : Json → String)
    (c : SwarmContext V F) : String :=
  digest (Router.normalize (c.payload py))

end Neuroswarm.Context.Record
