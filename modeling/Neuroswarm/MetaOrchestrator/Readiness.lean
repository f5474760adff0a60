import Mathlib.Data.Prod.Lex
import Neuroswarm.Swarm.Analyzer
import Neuroswarm.Swarm.Conditions

/-!
# Meta orchestrator — readiness and selection

`DependencyManager`, `ReadyNodeResolver` and `NodeSelector`. The coordinator
passes neither `cancelled`, `retrying` nor `checkpoint_resume` to `resolve`; they
are left out.

* `mem_resolve` — what a resolution lists.
* `mem_select` — what is selected is ready; `select_length` — and how much of it.
-/

/-!
## Domain models

The records of `meta_orchestrator/models.py`, the statuses and transitions of
`workflow_state.py`, and the exceptions that leave the coordinator.

Representation choices:

* `execution.context` is what the coordinator asks of it: whether it has an
  `as_condition_map`, and what that returns or raises (`Context`);
* a predicate registered for a custom condition is a function of what it is called
  on, the context map with the node statuses in it (`Registry`);
* results are kept without their payloads; aggregated results, metrics, events,
  agent pools beyond the ids, and time stamps are left out.
-/

namespace Neuroswarm.MetaOrchestrator

open Swarm

abbrev RequestId := String

-- ------ Workflow status

/-- Whole-workflow coordination lifecycle. -/
inductive WorkflowStatus where
  | created
  | ready
  | running
  | waiting
  | completed
  | failed
  | cancelled
  | checkpointed
  | restored
  deriving DecidableEq, Repr

def terminalWorkflowStatuses : List WorkflowStatus := [.completed, .failed, .cancelled]

def workflowTransitions : WorkflowStatus → List WorkflowStatus
  | .created => [.ready, .cancelled, .failed]
  | .ready => [.running, .cancelled, .failed, .checkpointed]
  | .running => [.waiting, .completed, .failed, .cancelled, .checkpointed]
  | .waiting => [.running, .completed, .failed, .cancelled, .checkpointed]
  | .checkpointed => [.restored, .running, .cancelled, .failed]
  | .restored => [.ready, .running, .cancelled, .failed]
  | .completed => []
  | .failed => [.restored]
  | .cancelled => []

-- ------ Conditions

/-- `_CUSTOM_REGISTRY`. -/
abbrev Registry :=
  String → Option (Environment → (NodeId → Option String) → Except GraphException Bool)

/-- A context map for conditions: its `node_statuses` and everything else. -/
structure ConditionCtx where
  environment : Environment := {}
  nodeStatuses : NodeId → Option String

/-- `condition_from_dict(condition).evaluate(ctx)`. -/
def ConditionCtx.evaluate (registry : Registry) (ctx : ConditionCtx)
    (condition : Option RawCondition) : Except GraphException Bool :=
  evaluateCondition
    { ctx.environment with
      custom := fun name => (registry name).map fun f => f ctx.environment ctx.nodeStatuses }
    ctx.nodeStatuses condition

/-- What `as_condition_map()` returns; a map without `node_statuses` has none to give. -/
structure ConditionMap where
  environment : Environment := {}
  nodeStatuses : Option (NodeId → Option String) := none

inductive Context where
  /-- `None`, or a mapping: no `as_condition_map` -/
  | plain
  | swarm (asConditionMap : Except String ConditionMap)

-- ------ Records

structure AgentAssignment where
  nodeId : NodeId
  agentId : String
  agentType : String := ""
  candidates : List String := []
  reason : String := ""

/-- Result observed from HAOE. -/
structure NodeResult where
  nodeId : NodeId
  success : Bool := true
  error : Option String := none
  deriving DecidableEq, Repr

/-- Request handed to HAOE. -/
structure ExecutionRequest where
  requestId : RequestId
  executionId : String
  workflowId : String
  nodeId : NodeId
  agentId : String
  agentType : String := ""

/-- Completion / failure / cancel signal observed from HAOE. -/
structure ExecutionSignal where
  requestId : RequestId
  executionId : String
  nodeId : NodeId
  status : String
  result : Option NodeResult := none
  error : Option String := none

structure RetryDecision where
  nodeId : NodeId
  attempt : Int
  maxAttempts : Int
  skip : Bool

/-- `execution.graph`: a `TaskGraph`, or the dict it was dumped to. -/
inductive GraphRef where
  | graph (g : TaskGraph)
  | dict (nodeIds : List NodeId)

/-- Canonical workflow coordination record. -/
structure WorkflowExecution where
  workflowId : String
  executionId : String
  graph : GraphRef
  context : Context := .plain
  assignedAgents : Dict NodeId AgentAssignment := .empty
  currentNodes : List NodeId := []
  completedNodes : List NodeId := []
  failedNodes : List NodeId := []
  pendingNodes : List NodeId := []
  readyNodes : List NodeId := []
  skippedNodes : List NodeId := []
  nodeResults : Dict NodeId NodeResult := .empty
  status : WorkflowStatus := .created
  checkpointReference : Option String := none
  agentPool : List String := []
  cancelRequested : Bool := false

/-- What leaves a call of the coordinator. -/
inductive Failure where
  | condition (e : GraphException)
  /-- `CoordinationError("coordination stalled; pending=…")` -/
  | stalled (pending : List NodeId)
  /-- `CoordinationError("execution.graph must be a TaskGraph instance")` -/
  | notATaskGraph
  | keyError (nodeId : NodeId)
  | assignment (nodeId : NodeId) (text : String)
  | invalidWorkflowState (current target : WorkflowStatus)
  /-- raised by the HAOE port -/
  | port (text : String)

namespace WorkflowExecution

def nodeSet (ex : WorkflowExecution) : List NodeId :=
  match ex.graph with
  | .graph g => g.ids
  | .dict nodeIds => nodeIds

def bindWorkflow (workflowId executionId : String) (graph : TaskGraph) (context : Context)
    (agents : List String) : WorkflowExecution where
  workflowId := workflowId
  executionId := executionId
  graph := .graph graph
  context := context
  pendingNodes := sorted graph.ids
  agentPool := agents

-- ------ Lifecycle

def transition (ex : WorkflowExecution) (target : WorkflowStatus) :
    Except Failure WorkflowExecution :=
  if ex.status = target then .ok ex
  else if target ∈ workflowTransitions ex.status then .ok { ex with status := target }
  else .error (.invalidWorkflowState ex.status target)

end WorkflowExecution

end Neuroswarm.MetaOrchestrator

/-! ## Readiness and selection -/

namespace Neuroswarm.MetaOrchestrator

open Swarm

-- ------ Dependencies

def hardPredecessorsSatisfied (g : TaskGraph) (nodeId : NodeId) (completed skipped : List NodeId) :
    Bool :=
  (g.rev nodeId).all fun p => p ∈ completed ∨ p ∈ skipped

def isBarrier (g : TaskGraph) (nodeId : NodeId) : Bool := 1 < (g.rev nodeId).length

-- ------ `ReadyNodeResolver`

/-- What `resolve` is told about the nodes. -/
structure NodeSets where
  completed : List NodeId := []
  failed : List NodeId := []
  skipped : List NodeId := []
  running : List NodeId := []

namespace NodeSets

def done (s : NodeSets) : List NodeId := s.completed ++ s.skipped

def blocked (s : NodeSets) : List NodeId := s.failed ++ s.running

/-- `node_statuses` after the three loops of `setdefault`. -/
def fillStatuses (s : NodeSets) (statuses : NodeId → Option String) (nid : NodeId) :
    Option String :=
  (((statuses nid).or (if nid ∈ s.done then some "succeeded" else none)).or
    (if nid ∈ s.failed then some "failed" else none)).or
    (if nid ∈ s.skipped then some "skipped" else none)

end NodeSets

section

variable (registry : Registry) (g : TaskGraph)

def edgeConditionsOk (ctx : ConditionCtx) (completed : List NodeId) (nodeId : NodeId) :
    List TaskEdge → Except GraphException Bool
  | [] => .ok true
  | e :: edges =>
    if e.dst ≠ nodeId ∨ e.isBlocking = false ∨ e.condition.isNone then
      edgeConditionsOk ctx completed nodeId edges
    else if e.src ∉ completed ∧ e.kind = .conditional then .ok false
    else
      match ctx.evaluate registry e.condition with
      | .ok true => edgeConditionsOk ctx completed nodeId edges
      | res => res

def nodeConditionOk (ctx : ConditionCtx) (node : TaskNode) : Except GraphException Bool :=
  ctx.evaluate registry node.condition

def conditionsOk (ctx : ConditionCtx) (completed : List NodeId) (nid : NodeId) (node : TaskNode) :
    Except GraphException Bool :=
  match edgeConditionsOk registry ctx completed nid g.edges with
  | .ok true => nodeConditionOk registry ctx node
  | res => res

/-- The body of the loop in `resolve`. -/
def isReady (s : NodeSets) (ctx : ConditionCtx) (nid : NodeId) (node : TaskNode) :
    Except GraphException Bool :=
  if nid ∈ s.done ∨ nid ∈ s.blocked then .ok false
  else if hardPredecessorsSatisfied g nid s.done s.skipped = false then .ok false
  else conditionsOk registry g ctx s.done nid node

/-- The loop in `resolve`. -/
def readyAmong (s : NodeSets) (ctx : ConditionCtx) :
    List (NodeId × TaskNode) → Except GraphException (List NodeId)
  | [] => .ok []
  | (nid, node) :: rest =>
    match isReady registry g s ctx nid node with
    | .error e => .error e
    | .ok true => (readyAmong s ctx rest).map (nid :: ·)
    | .ok false => readyAmong s ctx rest

/-- The context map `resolve` evaluates with. -/
def NodeSets.resolveCtx (s : NodeSets) (ctx : ConditionCtx) : ConditionCtx :=
  { ctx with nodeStatuses := s.fillStatuses ctx.nodeStatuses }

def resolve (s : NodeSets) (cancelRequested : Bool) (ctx : ConditionCtx) :
    Except GraphException (List NodeId) :=
  if cancelRequested then .ok []
  else (readyAmong registry g s (s.resolveCtx ctx) g.nodes.entries).map sorted

/-- The loop at the end of `should_skip`. -/
def hasConditionalEdge (completed : List NodeId) (nodeId : NodeId) : Bool :=
  g.edges.any fun e => e.dst = nodeId ∧ e.condition.isSome ∧ e.src ∈ completed

def shouldSkip (ctx : ConditionCtx) (completed : List NodeId) (nodeId : NodeId) (node : TaskNode) :
    Except GraphException Bool :=
  if hardPredecessorsSatisfied g nodeId completed [] = false then .ok false
  else
    match nodeConditionOk registry ctx node with
    | .error e => .error e
    | .ok false => .ok true
    | .ok true =>
      match edgeConditionsOk registry ctx completed nodeId g.edges with
      | .error e => .error e
      | .ok true => .ok false
      | .ok false => .ok (hasConditionalEdge g completed nodeId)

end

-- ------ `NodeSelector`

def sortKey (g : TaskGraph) (nid : NodeId) : Nat ×ₗ Nat ×ₗ Nat ×ₗ String :=
  let node := g.nodes.get? nid
  toLex ((node.elim Priority.normal TaskNode.priority).value,
    toLex ((if isBarrier g nid then 1 else 0 : Nat),
      toLex ((if node.map TaskNode.nodeType = some .aggregate then 1 else 0 : Nat), nid)))

def select (g : TaskGraph) (ready : List NodeId) (maxParallel : Option Int) : List NodeId :=
  let ordered := ready.insertionSort fun a b => sortKey g a ≤ sortKey g b
  match maxParallel with
  | some m => if 0 < m then ordered.take m.toNat else ordered
  | none => ordered

-- ------ Lemmas

theorem hardPredecessorsSatisfied_iff {g : TaskGraph} {v : NodeId} {completed skipped : List NodeId} :
    hardPredecessorsSatisfied g v completed skipped = true ↔
      ∀ p, g.Precedes p v → p ∈ completed ∨ p ∈ skipped := by
  unfold hardPredecessorsSatisfied
  rw [List.all_eq_true]
  simp only [TaskGraph.mem_rev, decide_eq_true_eq]

namespace NodeSets

variable {s : NodeSets} {v : NodeId}

@[simp] theorem mem_done : v ∈ s.done ↔ v ∈ s.completed ∨ v ∈ s.skipped := List.mem_append

@[simp] theorem mem_blocked : v ∈ s.blocked ↔ v ∈ s.failed ∨ v ∈ s.running := List.mem_append

end NodeSets

section

variable {registry : Registry} {g : TaskGraph} {s : NodeSets} {ctx : ConditionCtx}

theorem isReady_iff {v : NodeId} {node : TaskNode} :
    isReady registry g s ctx v node = .ok true ↔
      v ∉ s.done ∧ v ∉ s.blocked ∧ (∀ p, g.Precedes p v → p ∈ s.done) ∧
        conditionsOk registry g ctx s.done v node = .ok true := by
  unfold isReady
  by_cases hOut : v ∈ s.done ∨ v ∈ s.blocked
  · rw [if_pos hOut]
    refine ⟨fun h => (by cases h), fun ⟨h₁, h₂, _⟩ => ?_⟩
    rcases hOut with h | h
    · exact absurd h h₁
    · exact absurd h h₂
  · rw [if_neg hOut]
    obtain ⟨hDone, hBlocked⟩ := not_or.mp hOut
    -- a skipped predecessor counts as done already
    have hPreds : hardPredecessorsSatisfied g v s.done s.skipped = true ↔
        ∀ p, g.Precedes p v → p ∈ s.done := by
      rw [hardPredecessorsSatisfied_iff]
      refine forall₂_congr fun p _ => ⟨fun h => ?_, Or.inl⟩
      rcases h with h | h
      · exact h
      · exact NodeSets.mem_done.mpr (.inr h)
    cases hSat : hardPredecessorsSatisfied g v s.done s.skipped with
    | false =>
      rw [if_pos rfl]
      refine ⟨fun h => (by cases h), fun ⟨_, _, h, _⟩ => ?_⟩
      rw [hPreds.mpr h] at hSat
      cases hSat
    | true =>
      rw [if_neg (by simp)]
      exact ⟨fun h => ⟨hDone, hBlocked, hPreds.mp hSat, h⟩, fun h => h.2.2.2⟩

variable {ready : List NodeId}

theorem mem_readyAmong {l : List (NodeId × TaskNode)}
    (h : readyAmong registry g s ctx l = .ok ready) {v : NodeId} :
    v ∈ ready ↔ ∃ node, (v, node) ∈ l ∧ isReady registry g s ctx v node = .ok true := by
  induction l generalizing ready with
  | nil =>
    cases h
    simp
  | cons e l ih =>
    obtain ⟨nid, node⟩ := e
    unfold readyAmong at h
    split at h
    · cases h
    · next hReady =>
      obtain ⟨tail, hTail, rfl⟩ : ∃ tail, readyAmong registry g s ctx l = .ok tail ∧
          nid :: tail = ready := by
        cases hRest : readyAmong registry g s ctx l with
        | error e =>
          rw [hRest] at h
          cases h
        | ok tail =>
          rw [hRest] at h
          cases h
          exact ⟨tail, rfl, rfl⟩
      rw [List.mem_cons, ih hTail]
      constructor
      · rintro (rfl | ⟨node', hMem, hOk⟩)
        · exact ⟨node, List.mem_cons_self .., hReady⟩
        · exact ⟨node', List.mem_cons_of_mem _ hMem, hOk⟩
      · rintro ⟨node', hMem, hOk⟩
        rcases List.mem_cons.mp hMem with hEq | hMem
        · exact .inl (Prod.mk.inj hEq).1
        · exact .inr ⟨node', hMem, hOk⟩
    · next hReady =>
      rw [ih h]
      constructor
      · rintro ⟨node', hMem, hOk⟩
        exact ⟨node', List.mem_cons_of_mem _ hMem, hOk⟩
      · rintro ⟨node', hMem, hOk⟩
        rcases List.mem_cons.mp hMem with hEq | hMem
        · obtain ⟨rfl, rfl⟩ := Prod.mk.inj hEq
          rw [hReady] at hOk
          cases hOk
        · exact ⟨node', hMem, hOk⟩

theorem readyAmong_sublist {l : List (NodeId × TaskNode)}
    (h : readyAmong registry g s ctx l = .ok ready) : ready.Sublist (l.map Prod.fst) := by
  induction l generalizing ready with
  | nil =>
    cases h
    exact .slnil
  | cons e l ih =>
    obtain ⟨nid, node⟩ := e
    unfold readyAmong at h
    split at h
    · cases h
    · cases hRest : readyAmong registry g s ctx l with
      | error e =>
        rw [hRest] at h
        cases h
      | ok tail =>
        rw [hRest] at h
        cases h
        exact (ih hRest).cons_cons _
    · exact (ih h).cons _

/-- **Readiness.** -/
theorem mem_resolve (h : resolve registry g s false ctx = .ok ready) {v : NodeId} :
    v ∈ ready ↔ ∃ node, g.nodes.get? v = some node ∧
      isReady registry g s (s.resolveCtx ctx) v node = .ok true := by
  unfold resolve at h
  rw [if_neg (by simp)] at h
  cases hAmong : readyAmong registry g s (s.resolveCtx ctx) g.nodes.entries with
  | error e =>
    rw [hAmong] at h
    cases h
  | ok l =>
    rw [hAmong] at h
    cases h
    rw [mem_sorted, mem_readyAmong hAmong]
    simp only [Dict.mem_entries_iff]

/-- What a resolution lists is not done, not blocked, and comes after what is done. -/
structure Admissible (g : TaskGraph) (s : NodeSets) (v : NodeId) : Prop where
  node : v ∈ g.ids
  notDone : v ∉ s.done
  notBlocked : v ∉ s.blocked
  preds : ∀ p, g.Precedes p v → p ∈ s.done

theorem resolve_admissible {cancelRequested : Bool}
    (h : resolve registry g s cancelRequested ctx = .ok ready) :
    ready.Nodup ∧ ∀ v ∈ ready, Admissible g s v := by
  cases cancelRequested with
  | true =>
    unfold resolve at h
    rw [if_pos rfl] at h
    cases h
    exact ⟨List.nodup_nil, fun v hv => absurd hv List.not_mem_nil⟩
  | false =>
    constructor
    · unfold resolve at h
      rw [if_neg (by simp)] at h
      cases hAmong : readyAmong registry g s (s.resolveCtx ctx) g.nodes.entries with
      | error e =>
        rw [hAmong] at h
        cases h
      | ok l =>
        rw [hAmong] at h
        cases h
        exact (List.perm_insertionSort _ _).nodup_iff.mpr
          ((readyAmong_sublist hAmong).nodup g.nodes.nodup)
    · intro v hv
      obtain ⟨node, hNode, hReady⟩ := (mem_resolve h).mp hv
      obtain ⟨hDone, hBlocked, hPreds, -⟩ := isReady_iff.mp hReady
      exact ⟨Dict.mem_keys_iff.mpr (by rw [hNode]; rfl), hDone, hBlocked, hPreds⟩

end

/-! ### Selection -/

theorem select_subperm (g : TaskGraph) (ready : List NodeId) (maxParallel : Option Int) :
    (select g ready maxParallel).Subperm ready := by
  have hPerm := List.perm_insertionSort (fun a b => sortKey g a ≤ sortKey g b) ready
  unfold select
  dsimp only
  split
  · split
    · exact (List.take_sublist _ _).subperm.trans hPerm.subperm
    · exact hPerm.subperm
  · exact hPerm.subperm

theorem mem_select {g : TaskGraph} {ready : List NodeId} {maxParallel : Option Int} {v : NodeId}
    (h : v ∈ select g ready maxParallel) : v ∈ ready :=
  (select_subperm g ready maxParallel).subset h

theorem select_nodup {g : TaskGraph} {ready : List NodeId} {maxParallel : Option Int}
    (h : ready.Nodup) : (select g ready maxParallel).Nodup := by
  obtain ⟨l, hPerm, hSub⟩ := select_subperm g ready maxParallel
  exact hPerm.nodup_iff.mp (hSub.nodup h)

theorem select_length (g : TaskGraph) (ready : List NodeId) {m : Int} (hm : 0 < m) :
    (select g ready (some m)).length = min m.toNat ready.length := by
  unfold select
  dsimp only
  rw [if_pos hm, List.length_take, List.length_insertionSort]

end Neuroswarm.MetaOrchestrator
