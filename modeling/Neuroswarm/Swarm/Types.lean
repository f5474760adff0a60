import Mathlib.Data.Rat.Defs
import Neuroswarm.Lib.Dict

/-!
# Task graph — domain models

The enumerations of `runtime/swarm/task_graph/enums.py`, the policies of
`models.py`, and the records of `node.py`, `edge.py` and `graph.py`.

Representation choices:

* a `float` is a rational number;
* a condition dict is what `condition_from_dict` makes of it, a condition or the
  error it raises (`RawCondition`); an empty dict, which every reader tests for
  truth or takes for `Always()`, is no condition;
* the runtime mirrors of a node (status, result, error, metrics), its display
  fields, tags, tool lists and budget, and the metadata, names and time stamps of a
  graph are left out: no function modelled here reads them.
-/

namespace Neuroswarm.Swarm

abbrev NodeId := String

-- ------ Enumerations

/-- Logical role of a node in the workflow DAG. -/
inductive NodeType where
  | task
  | parallel
  | aggregate
  | condition
  | checkpoint
  | subgraph
  | agent
  | tool
  | inference
  | memory
  | routing
  | custom
  deriving DecidableEq, Repr

/-- Dependency edge semantics. -/
inductive EdgeKind where
  | hard
  | soft
  | conditional
  | data
  | control
  | priority
  deriving DecidableEq, Repr

inductive NodeStatus where
  | pending
  | queued
  | ready
  | running
  | waiting
  | succeeded
  | failed
  | cancelled
  | skipped
  | timedOut
  | retrying
  | checkpointed
  deriving DecidableEq, Repr

def terminalStatuses : List NodeStatus := [.succeeded, .failed, .cancelled, .skipped, .timedOut]

def successStatuses : List NodeStatus := [.succeeded, .checkpointed]

def NodeStatus.Terminal (s : NodeStatus) : Prop := s ∈ terminalStatuses

instance (s : NodeStatus) : Decidable s.Terminal :=
  inferInstanceAs (Decidable (s ∈ terminalStatuses))

def nodeTransitions : NodeStatus → List NodeStatus
  | .pending => [.queued, .ready, .skipped, .cancelled]
  | .queued => [.ready, .cancelled, .skipped]
  | .ready => [.running, .cancelled, .skipped, .queued]
  | .running => [.waiting, .succeeded, .failed, .cancelled, .timedOut, .retrying, .checkpointed]
  | .waiting => [.ready, .running, .cancelled, .failed, .timedOut]
  | .retrying => [.queued, .ready, .running, .failed, .cancelled, .timedOut]
  | .checkpointed => [.succeeded, .ready, .cancelled]
  | .succeeded => []
  | .failed => [.retrying]
  | .cancelled => []
  | .skipped => []
  | .timedOut => [.retrying]

/-- Node scheduling priority. Lower value = higher urgency. -/
inductive Priority where
  | critical
  | high
  | normal
  | background
  deriving DecidableEq, Repr

def Priority.value : Priority → Nat
  | .critical => 0
  | .high => 1
  | .normal => 2
  | .background => 3

inductive CancelMode where
  | node
  | subtree
  | downstream
  | graph
  deriving DecidableEq, Repr

inductive GraphPhase where
  | idle
  | validating
  | ready
  | running
  | succeeded
  | failed
  | cancelled
  | timedOut
  deriving DecidableEq, Repr

-- ------ Conditions

inductive Condition where
  | always
  | never
  | success (nodeIds : List NodeId)
  | failure (nodeIds : List NodeId)
  | confidenceThreshold (threshold : ℚ) (key : String)
  | budgetThreshold (maxCostUsd : ℚ)
  | latencyThreshold (maxLatencyMs : ℚ)
  | memoryThreshold (maxPressure : ℚ)
  | toolAvailability (tools : List String)
  | modelAvailability (models : List String)
  | custom (name : String)
  | and (children : List Condition)
  | or (children : List Condition)
  | not (child : Condition)

/-- `condition_from_dict(data)`: the condition, or the text of the error. -/
abbrev RawCondition := Except String Condition

-- ------ Policies

structure RetryPolicy where
  maxAttempts : Int := 3
  backoffBaseS : ℚ := 1 / 20
  backoffFactor : ℚ := 2
  backoffMaxS : ℚ := 5
  jitterRatio : ℚ := 1 / 10
  retryOnTimeout : Bool := false
  retryOnFailure : Bool := true

/-- The field validators; `model_copy` passes them by, `model_validate` runs them again. -/
def RetryPolicy.modelValidate (p : RetryPolicy) : Except String Unit :=
  if p.maxAttempts < 1 then .error "max_attempts must be >= 1"
  else if p.backoffBaseS < 0 ∨ p.backoffFactor < 0 ∨ p.backoffMaxS < 0 ∨ p.jitterRatio < 0 then
    .error "backoff/jitter values must be >= 0"
  else .ok ()

structure TimeoutPolicy where
  nodeTimeoutS : Option ℚ := none
  workflowTimeoutS : Option ℚ := none

-- ------ Nodes, edges, graphs

structure TaskNode where
  id : NodeId
  name : String := ""
  nodeType : NodeType := .task
  dependencies : List NodeId := []
  children : List NodeId := []
  timeout : Option ℚ := none
  retryPolicy : RetryPolicy := {}
  condition : Option RawCondition := none
  estimatedCost : ℚ := 0
  estimatedLatency : ℚ := 0
  memoryRequirement : Int := 0
  checkpointId : Option String := none
  handlerKey : Option String := none
  agentType : Option String := none
  priority : Priority := .normal

namespace TaskNode

/-- `validate_node()`: the messages, in the order of the checks. -/
def validateNode (node : TaskNode) : List String :=
  (if node.id = "" then ["id is required"] else []) ++
  (if node.timeout.any (· ≤ 0) then ["timeout must be > 0"] else []) ++
  (if node.memoryRequirement < 0 then ["memory_requirement must be >= 0"] else []) ++
  (if node.estimatedCost < 0 then ["estimated_cost must be >= 0"] else []) ++
  (if node.estimatedLatency < 0 then ["estimated_latency must be >= 0"] else []) ++
  match node.retryPolicy.modelValidate with
  | .ok _ => []
  | .error e => ["invalid retry_policy: " ++ e]

end TaskNode

structure TaskEdge where
  src : NodeId
  dst : NodeId
  kind : EdgeKind := .hard
  label : String := ""
  condition : Option RawCondition := none

/-- `is_blocking()`; the analyzer skips the soft and the priority edges. -/
def TaskEdge.isBlocking (e : TaskEdge) : Bool :=
  match e.kind with
  | .hard | .data | .control | .conditional => true
  | .soft | .priority => false

/-- The definition of a workflow; the node dict may store a node under a key that
is not its `id`. -/
structure TaskGraph where
  graphId : String
  nodes : Dict NodeId TaskNode := .empty
  edges : List TaskEdge := []
  timeoutPolicy : TimeoutPolicy := {}
  frozen : Bool := false

/-- Every node is stored under its own id, as the methods of the graph store it. -/
def TaskGraph.Keyed (g : TaskGraph) : Prop :=
  ∀ nid node, g.nodes.get? nid = some node → node.id = nid

end Neuroswarm.Swarm
