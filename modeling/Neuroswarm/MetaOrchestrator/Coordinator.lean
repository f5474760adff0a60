import Neuroswarm.Lib.Run
import Neuroswarm.MetaOrchestrator.Readiness

/-!
# Meta orchestrator — `Coordinator`

`coordinate` and `step` with the components they call, cut at their awaits. A
coroutine of the coordinator waits for HAOE at one of three points: a request is
being submitted, an answer is being polled, a request is being cancelled. What it
does from one await to the next is one action (`act`); the answers of HAOE are
arguments of the actions.

All executions of one `MetaOrchestrator` share its dispatcher and its retry
counters (`Shared`); an execution with the coroutine that coordinates it is a
`Party`. For the proofs, `Shared` remembers which requests were submitted, had a
signal applied, or were withdrawn, each with the execution that did so.

Left out: `auto_checkpoint`, which `MetaOrchestrator` never turns on, events and
metrics, barrier releases (events only), the aggregated results and rollback
notices.
-/

namespace Neuroswarm.MetaOrchestrator

open Swarm

/-- `if v not in l: l.append(v)`. -/
def appendNew (l : List NodeId) (v : NodeId) : List NodeId := if v ∈ l then l else l ++ [v]

/-- `[n for n in l if n != v]`. -/
def without (l : List NodeId) (v : NodeId) : List NodeId := l.filter (· ≠ v)

/-- The collaborators and settings of a coordinator. -/
structure Coordinator where
  /-- the agent ids `select_for_task` returns -/
  catalog : Option (TaskNode → List String) := none
  registry : Registry := fun _ => none
  maxParallel : Option Int := none
  failFast : Bool := false
  pollRetries : Nat := 64

structure Shared where
  inflight : Dict RequestId ExecutionRequest := .empty
  attempts : Dict String Nat := .empty
  dispatched : List (String × RequestId) := []
  applied : List (String × RequestId) := []
  withdrawn : List (String × RequestId) := []

-- ------ `AgentAssigner`

def Coordinator.assign (c : Coordinator) (node : TaskNode) (agentPool : List String) :
    Except Failure AgentAssignment :=
  let agentType := node.agentType.getD ""
  match c.catalog with
  | some selectForTask =>
    match selectForTask node with
    | [] => .error (.assignment node.id s!"no candidate agents for node {node.id}")
    | top :: rest =>
      .ok { nodeId := node.id, agentId := top, agentType := agentType
            candidates := (top :: rest).filter (· ≠ ""), reason := "catalog_selection" }
  | none =>
    let typed := agentPool.filter fun a => agentType ≠ "" ∧ (a = agentType ∨ a.endsWith agentType)
    let pool := if typed = [] then agentPool else typed
    match pool with
    | [] => .error (.assignment node.id s!"no agents available for node {node.id}")
    | agentId :: _ =>
      .ok { nodeId := node.id, agentId := agentId, agentType := agentType
            candidates := pool.take 5, reason := "agent_pool" }

-- ------ `ExecutionMonitor`

/-- The four cases of a signal's status. -/
inductive SignalKind where
  | success
  | failure
  | skip
  | unknown
  deriving DecidableEq, Repr

/-- `signal.status.lower()`, sorted into the sets it is compared with. -/
def ExecutionSignal.kind (signal : ExecutionSignal) : SignalKind :=
  let status := signal.status.toLower
  if status ∈ ["succeeded", "checkpointed"] then .success
  else if status ∈ ["failed", "timed_out"] then .failure
  else if status ∈ ["cancelled", "skipped"] then .skip
  else .unknown

namespace WorkflowExecution

def applySignal (ex : WorkflowExecution) (signal : ExecutionSignal) : WorkflowExecution :=
  let nid := signal.nodeId
  let ex := { ex with currentNodes := without ex.currentNodes nid }
  match signal.kind with
  | .success =>
    { ex with
      completedNodes := appendNew ex.completedNodes nid
      nodeResults := ex.nodeResults.set nid
        (signal.result.getD { nodeId := nid, success := true }) }
  | .failure =>
    { ex with
      failedNodes := appendNew ex.failedNodes nid
      nodeResults := ex.nodeResults.set nid
        (signal.result.getD { nodeId := nid, success := false, error := signal.error }) }
  | .skip => { ex with skippedNodes := appendNew ex.skippedNodes nid }
  | .unknown => ex

def markRunning (ex : WorkflowExecution) (nid : NodeId) : WorkflowExecution :=
  { ex with
    currentNodes := appendNew ex.currentNodes nid
    readyNodes := without ex.readyNodes nid
    pendingNodes := without ex.pendingNodes nid }

end WorkflowExecution

-- ------ `RetryCoordinator`

/-- The key of `_attempts`. -/
def retryKey (executionId : String) (nodeId : NodeId) : String := s!"{executionId}:{nodeId}"

/-- `int(node.retry_policy.max_attempts or 3)`. -/
def maxAttempts (node : TaskNode) : Int :=
  if node.retryPolicy.maxAttempts = 0 then 3 else node.retryPolicy.maxAttempts

/-- `decide(node, execution=execution)`: the decision and the new counters. -/
def decideRetry (attempts : Dict String Nat) (node : TaskNode) (executionId : String) :
    RetryDecision × Dict String Nat :=
  let key := retryKey executionId node.id
  let attempt := (attempts.get? key).getD 0 + 1
  ({ nodeId := node.id, attempt := attempt, maxAttempts := maxAttempts node
     skip := maxAttempts node < (attempt : Int) },
    attempts.set key attempt)

/-- `apply(execution, decision)`. -/
def WorkflowExecution.applyDecision (ex : WorkflowExecution) (decision : RetryDecision) :
    WorkflowExecution :=
  let nid := decision.nodeId
  if decision.skip then
    { ex with
      failedNodes := without ex.failedNodes nid
      skippedNodes := appendNew ex.skippedNodes nid }
  else
    { ex with
      failedNodes := without ex.failedNodes nid
      pendingNodes := appendNew ex.pendingNodes nid
      nodeResults := ex.nodeResults.erase nid }

namespace WorkflowExecution

-- ------ `ProgressMonitor`, `CompletionEvaluator`

/-- `refresh_execution_sets(execution, ready=ready, graph=graph)`. -/
def refresh (ex : WorkflowExecution) (ready : List NodeId) : WorkflowExecution :=
  { ex with
    readyNodes := ready
    pendingNodes := sorted (ex.nodeSet.filter fun n =>
      n ∉ ex.completedNodes ∧ n ∉ ex.skippedNodes ∧ n ∉ ex.failedNodes ∧ n ∉ ex.currentNodes) }

def isComplete (ex : WorkflowExecution) : Bool :=
  if ex.nodeSet = [] then ex.pendingNodes = [] ∧ ex.readyNodes = [] ∧ ex.currentNodes = []
  else
    (ex.nodeSet.all fun n =>
      n ∈ ex.completedNodes ∨ n ∈ ex.skippedNodes ∨ n ∈ ex.failedNodes) ∧ ex.currentNodes = []

def shouldFail (failFast : Bool) (ex : WorkflowExecution) : Bool :=
  if failFast ∧ ex.failedNodes ≠ [] then true
  else if ex.isComplete ∧ ex.failedNodes ≠ [] then ex.failedNodes.any (· ∉ ex.skippedNodes)
  else false

def finalize (failFast : Bool) (ex : WorkflowExecution) : Except Failure WorkflowExecution :=
  if ex.cancelRequested then ex.transition .cancelled
  else if ex.shouldFail failFast then ex.transition .failed
  else if ex.isComplete then ex.transition .completed
  else .ok ex

-- ------ Readiness of an execution

def sets (ex : WorkflowExecution) : NodeSets where
  completed := ex.completedNodes
  failed := ex.failedNodes
  skipped := ex.skippedNodes
  running := ex.currentNodes

/-- `statuses` of `_condition_ctx`; later loops overwrite earlier ones. -/
def statuses (ex : WorkflowExecution) (nid : NodeId) : Option String :=
  if nid ∈ ex.skippedNodes then some "skipped"
  else if nid ∈ ex.failedNodes then some "failed"
  else if nid ∈ ex.completedNodes then some "succeeded"
  else none

/-- `_condition_ctx(execution)`; an `as_condition_map` that raises is passed over. -/
def conditionCtx (ex : WorkflowExecution) : ConditionCtx :=
  match ex.context with
  | .swarm (.ok map) =>
    { environment := map.environment, nodeStatuses := map.nodeStatuses.getD ex.statuses }
  | .swarm (.error _) | .plain => { nodeStatuses := ex.statuses }

/-- A node whose conditions failed is put aside. -/
def skip (ex : WorkflowExecution) (nid : NodeId) : WorkflowExecution :=
  { ex with
    skippedNodes := appendNew ex.skippedNodes nid
    pendingNodes := without ex.pendingNodes nid }

/-- `if execution.status == WAITING: mark_running(execution)`, a transition that is allowed. -/
def wake (ex : WorkflowExecution) : WorkflowExecution :=
  if ex.status = .waiting then { ex with status := .running } else ex

end WorkflowExecution

namespace Coordinator

variable (c : Coordinator)

/-- The loop that skips nodes, over `list(pending_nodes)`; whether it skipped any. -/
def skipLoop (g : TaskGraph) (ctx : ConditionCtx) (keep : List NodeId) :
    List NodeId → WorkflowExecution → WorkflowExecution × Except Failure Bool
  | [], ex => (ex, .ok false)
  | nid :: rest, ex =>
    if nid ∈ keep then skipLoop g ctx keep rest ex
    else
      match g.nodes.get? nid with
      | none => (ex, .error (.keyError nid))
      | some node =>
        match shouldSkip c.registry g ctx ex.completedNodes nid node with
        | .error e => (ex, .error (.condition e))
        | .ok false => skipLoop g ctx keep rest ex
        | .ok true =>
          let (ex', changed) := skipLoop g ctx keep rest (ex.skip nid)
          (ex', changed.map fun _ => true)

/-- `step`, down to the list `to_dispatch`. -/
def prepare (ex : WorkflowExecution) : WorkflowExecution × Except Failure (List NodeId) :=
  match ex.graph with
  | .dict _ => (ex, .error .notATaskGraph)
  | .graph g =>
    let ctx := ex.conditionCtx
    match resolve c.registry g ex.sets ex.cancelRequested ctx with
    | .error e => (ex, .error (.condition e))
    | .ok ready =>
      match c.skipLoop g ctx (ready ++ ex.currentNodes) ex.pendingNodes ex with
      | (ex, .error f) => (ex, .error f)
      | (ex, .ok _) =>
        -- the context map is the one from before the loop
        match resolve c.registry g ex.sets ex.cancelRequested ctx with
        | .error e => (ex, .error (.condition e))
        | .ok ready =>
          let ex := ex.refresh ready
          let toDispatch := select g ready c.maxParallel
          (if toDispatch ≠ [] then ex.wake else ex, .ok toDispatch)

/-- `step`, after the polls. -/
def finish (ex : WorkflowExecution) : WorkflowExecution × Option Failure :=
  match ex.graph with
  | .dict _ => (ex, some .notATaskGraph)
  | .graph g =>
    match resolve c.registry g ex.sets ex.cancelRequested ex.conditionCtx with
    | .error e => (ex, some (.condition e))
    | .ok ready =>
      let ex := ex.refresh ready
      if ex.isComplete ∨ ex.shouldFail c.failFast then
        match ex.finalize c.failFast with
        | .error f => (ex, some f)
        | .ok ex => (ex, none)
      else if ex.currentNodes = [] ∧ ex.readyNodes ≠ [] then (ex.wake, none)
      else if ex.currentNodes = [] ∧ ex.pendingNodes ≠ [] ∧ ex.readyNodes = [] then
        (if ex.status = .running then { ex with status := .waiting } else ex, none)
      else if ex.currentNodes ≠ [] ∨ ex.readyNodes ≠ [] then (ex.wake, none)
      else (ex, none)

def trySkipBlocked (ex : WorkflowExecution) : WorkflowExecution × Option Failure :=
  match ex.graph with
  | .dict _ => (ex, some .notATaskGraph)
  | .graph g =>
    let ctx := ex.conditionCtx
    match c.skipLoop g ctx [] ex.pendingNodes ex with
    | (ex, .error f) => (ex, some f)
    | (ex, .ok false) => (ex, none)
    | (ex, .ok true) =>
      match resolve c.registry g ex.sets false ctx with
      | .error e => (ex, some (.condition e))
      | .ok ready => (ex.refresh ready, none)

end Coordinator

-- ------ Coroutines

/-- Where the coroutine that coordinates an execution stands. -/
inductive Position where
  /-- no call is under way; what the last one raised -/
  | idle (raised : Option Failure)
  /-- at the head of the loop in `coordinate` -/
  | top
  /-- the first of these requests is being cancelled -/
  | cancelling (requests : List RequestId)
  /-- the request for `nid` is being submitted -/
  | dispatching (nid : NodeId) (assignment : AgentAssignment) (todo : List NodeId)
  /-- the first of these requests is being polled, `tries` more times -/
  | polling (todo : List (RequestId × ExecutionRequest)) (tries : Nat)

structure Party where
  execution : WorkflowExecution
  position : Position := .idle none
  /-- inside `coordinate`, not in a single `step` -/
  looping : Bool := false

namespace Coordinator

variable (c : Coordinator)

def leave (p : Party) (ex : WorkflowExecution) (raised : Option Failure) : Party :=
  { p with execution := ex, position := .idle raised }

/-- `finalize`, and the call returns. -/
def leaveFinal (p : Party) (ex : WorkflowExecution) : Party :=
  match ex.finalize c.failFast with
  | .error f => leave p ex (some f)
  | .ok ex => leave p ex none

/-- `coordinate`, after the step. -/
def afterStep (p : Party) (ex : WorkflowExecution) : Party :=
  if ex.status ∈ terminalWorkflowStatuses then leave p ex none
  else if ex.readyNodes = [] ∧ ex.currentNodes = [] ∧ ex.pendingNodes = [] then c.leaveFinal p ex
  else if ex.readyNodes = [] ∧ ex.currentNodes = [] then
    match c.trySkipBlocked ex with
    | (ex, some f) => leave p ex (some f)
    | (ex, none) =>
      if ex.readyNodes = [] ∧ ex.pendingNodes ≠ [] then
        if ex.failedNodes ≠ [] then c.leaveFinal p ex
        else leave p ex (some (.stalled ex.pendingNodes))
      else { p with execution := ex, position := .top }
  else { p with execution := ex, position := .top }

/-- All requests are polled: the rest of `step`, and of the body of the loop. -/
def endStep (p : Party) (ex : WorkflowExecution) : Party :=
  match c.finish ex with
  | (ex, some f) => leave p ex (some f)
  | (ex, none) => if p.looping then c.afterStep p ex else leave p ex none

def pollNext (p : Party) (ex : WorkflowExecution) (todo : List (RequestId × ExecutionRequest)) :
    Party :=
  match todo with
  | [] => c.endStep p ex
  | _ :: _ => { p with execution := ex, position := .polling todo c.pollRetries }

/-- On to the next node of `to_dispatch`; after the last, `inflight()` is copied. -/
def dispatchNext (sh : Shared) (p : Party) (ex : WorkflowExecution) (todo : List NodeId) : Party :=
  match todo with
  | [] => c.pollNext p ex (if c.pollRetries = 0 then [] else sh.inflight.entries)
  | nid :: rest =>
    match ex.graph with
    | .dict _ => leave p ex (some .notATaskGraph)
    | .graph g =>
      match g.nodes.get? nid with
      | none => leave p ex (some (.keyError nid))
      | some node =>
        match c.assign node ex.agentPool with
        | .error f => leave p ex (some f)
        | .ok assignment =>
          { p with
            execution := { ex with assignedAgents := ex.assignedAgents.set nid assignment }
            position := .dispatching nid assignment rest }

/-- `step`, up to the first await. -/
def beginStep (sh : Shared) (p : Party) (ex : WorkflowExecution) : Party :=
  match c.prepare ex with
  | (ex, .error f) => leave p ex (some f)
  | (ex, .ok toDispatch) => c.dispatchNext sh p ex toDispatch

/-- On to the next request of `_cancel_inflight`; after the last, `mark_cancelled`. -/
def cancelNext (p : Party) (requests : List RequestId) : Party :=
  match requests with
  | [] =>
    match p.execution.transition .cancelled with
    | .error f => leave p p.execution (some f)
    | .ok ex => leave p ex none
  | _ :: _ => { p with position := .cancelling requests }

/-- The head of the loop in `coordinate`. -/
def loopTop (sh : Shared) (p : Party) : Party :=
  if p.execution.status ∈ terminalWorkflowStatuses then leave p p.execution none
  else if p.execution.cancelRequested then cancelNext p sh.inflight.keys
  else c.beginStep sh p p.execution

/-- The request of a dispatch, with the id it has after `submit`. -/
def request (ex : WorkflowExecution) (assignment : AgentAssignment) (requestId : RequestId) :
    ExecutionRequest where
  requestId := requestId
  executionId := ex.executionId
  workflowId := ex.workflowId
  nodeId := assignment.nodeId
  agentId := assignment.agentId
  agentType := assignment.agentType

/-- The end of `dispatch`. -/
def recordRequest (sh : Shared) (ex : WorkflowExecution) (assignment : AgentAssignment)
    (requestId : RequestId) : Shared :=
  { sh with
    inflight := sh.inflight.set requestId (request ex assignment requestId)
    dispatched := (ex.executionId, requestId) :: sh.dispatched }

/-- `self.dispatcher.drop(request_id)`, once the signal is applied. -/
def drop (sh : Shared) (executionId : String) (requestId : RequestId) : Shared :=
  { sh with
    inflight := sh.inflight.erase requestId
    applied := (executionId, requestId) :: sh.applied }

/-- The end of `cancel(request_id)`. -/
def withdraw (sh : Shared) (executionId : String) (requestId : RequestId) : Shared :=
  { sh with
    inflight := sh.inflight.erase requestId
    withdrawn := (executionId, requestId) :: sh.withdrawn }

def retryFailed (sh : Shared) (ex : WorkflowExecution) (signal : ExecutionSignal) :
    Shared × WorkflowExecution × Option Failure :=
  match ex.graph with
  | .dict _ => (sh, ex, some .notATaskGraph)
  | .graph g =>
    match g.nodes.get? signal.nodeId with
    | none => (sh, ex, some (.keyError signal.nodeId))
    | some node =>
      let (decision, attempts) := decideRetry sh.attempts node ex.executionId
      ({ sh with attempts := attempts }, ex.applyDecision decision, none)

/-- A signal arrives for `requestId`. -/
def receive (sh : Shared) (p : Party) (requestId : RequestId)
    (todo : List (RequestId × ExecutionRequest)) (signal : ExecutionSignal) : Shared × Party :=
  let ex := p.execution.applySignal signal
  let sh := drop sh ex.executionId requestId
  if signal.kind = .failure then
    match retryFailed sh ex signal with
    | (sh, ex, some f) => (sh, leave p ex (some f))
    | (sh, ex, none) => (sh, c.pollNext p ex todo)
  else (sh, c.pollNext p ex todo)

end Coordinator

-- ------ Actions

inductive Action where
  /-- `MetaOrchestrator.start(execution)` -/
  | start
  /-- `MetaOrchestrator.step(execution)` -/
  | step
  /-- the loop in `coordinate` goes on -/
  | advance
  /-- `submit` returned, and this is the id of the request -/
  | submitted (requestId : RequestId)
  /-- `poll` returned -/
  | polled (answer : Option ExecutionSignal)
  /-- `cancel` returned -/
  | withdrawn
  /-- the awaited call of the port raised -/
  | portError (text : String)
  /-- `MetaOrchestrator.cancel(execution, forced=forced)` -/
  | cancel (forced : Bool)

/-- The head of `start` and `coordinate`. -/
def WorkflowExecution.begin (ex : WorkflowExecution) : WorkflowExecution :=
  if ex.status ∈ [.created, .ready, .restored] then { ex with status := .running } else ex

/-- The head of `MetaOrchestrator.step`. -/
def WorkflowExecution.beginSingle (ex : WorkflowExecution) : WorkflowExecution :=
  if ex.status = .created then { ex with status := .running } else ex

def WorkflowExecution.cancel (ex : WorkflowExecution) (forced : Bool) : WorkflowExecution :=
  if forced ∧ ex.status ∉ terminalWorkflowStatuses then
    { ex with cancelRequested := true, status := .cancelled }
  else { ex with cancelRequested := true }

namespace Coordinator

/-- One action; where the coroutine stands elsewhere, nothing happens. -/
def act (c : Coordinator) (sh : Shared) (p : Party) (action : Action) : Shared × Party :=
  match action, p.position with
  | .cancel forced, _ => (sh, { p with execution := p.execution.cancel forced })
  | .start, .idle _ =>
    (sh, { execution := p.execution.begin, position := .top, looping := true })
  | .step, .idle _ =>
    (sh, c.beginStep sh { p with looping := false } p.execution.beginSingle)
  | .advance, .top => (sh, c.loopTop sh p)
  | .submitted requestId, .dispatching nid assignment todo =>
    let sh := recordRequest sh p.execution assignment requestId
    (sh, c.dispatchNext sh p (p.execution.markRunning nid) todo)
  | .polled none, .polling (e :: todo) tries =>
    if tries ≤ 1 then (sh, c.pollNext p p.execution todo)
    else (sh, { p with position := .polling (e :: todo) (tries - 1) })
  | .polled (some signal), .polling (e :: todo) _ => c.receive sh p e.1 todo signal
  | .withdrawn, .cancelling (requestId :: requests) =>
    (withdraw sh p.execution.executionId requestId, cancelNext p requests)
  | .portError text, .dispatching _ _ _
  | .portError text, .polling _ _
  | .portError text, .cancelling _ => (sh, leave p p.execution (some (.port text)))
  | _, _ => (sh, p)

/-- One execution alone on its orchestrator. -/
def soloAct (c : Coordinator) (s : Shared × Party) (action : Action) : Shared × Party :=
  c.act s.1 s.2 action

inductive Acts (c : Coordinator) (sh : Shared) (p : Party) : Action → Shared × Party → Prop
  | nothing (action : Action) : Acts c sh p action (sh, p)
  | cancel (forced : Bool) :
    Acts c sh p (.cancel forced) (sh, { p with execution := p.execution.cancel forced })
  | start {raised : Option Failure} (h : p.position = .idle raised) :
    Acts c sh p .start
      (sh, { execution := p.execution.begin, position := .top, looping := true })
  | step {raised : Option Failure} (h : p.position = .idle raised) :
    Acts c sh p .step (sh, c.beginStep sh { p with looping := false } p.execution.beginSingle)
  | advance (h : p.position = .top) : Acts c sh p .advance (sh, c.loopTop sh p)
  | submitted {nid : NodeId} {assignment : AgentAssignment} {todo : List NodeId}
    (h : p.position = .dispatching nid assignment todo) (requestId : RequestId) :
    Acts c sh p (.submitted requestId)
      (recordRequest sh p.execution assignment requestId,
        c.dispatchNext (recordRequest sh p.execution assignment requestId) p
          (p.execution.markRunning nid) todo)
  | again {e : RequestId × ExecutionRequest} {todo : List (RequestId × ExecutionRequest)} {tries : Nat}
    (h : p.position = .polling (e :: todo) tries) :
    Acts c sh p (.polled none) (sh, { p with position := .polling (e :: todo) (tries - 1) })
  | silent {e : RequestId × ExecutionRequest} {todo : List (RequestId × ExecutionRequest)}
    {tries : Nat} (h : p.position = .polling (e :: todo) tries) :
    Acts c sh p (.polled none) (sh, c.pollNext p p.execution todo)
  | received {e : RequestId × ExecutionRequest} {todo : List (RequestId × ExecutionRequest)}
    {tries : Nat} (h : p.position = .polling (e :: todo) tries) (signal : ExecutionSignal) :
    Acts c sh p (.polled (some signal)) (c.receive sh p e.1 todo signal)
  | withdrawn {requestId : RequestId} {requests : List RequestId}
    (h : p.position = .cancelling (requestId :: requests)) :
    Acts c sh p .withdrawn
      (withdraw sh p.execution.executionId requestId, cancelNext p requests)
  | portError (text : String) :
    Acts c sh p (.portError text) (sh, leave p p.execution (some (.port text)))

theorem act_cases (c : Coordinator) (sh : Shared) (p : Party) (action : Action) :
    Acts c sh p action (c.act sh p action) := by
  cases action with
  | cancel forced => exact .cancel forced
  | start =>
    cases h : p.position with
    | idle raised =>
      unfold act
      rw [h]
      exact .start h
    | _ =>
      unfold act
      rw [h]
      exact .nothing _
  | step =>
    cases h : p.position with
    | idle raised =>
      unfold act
      rw [h]
      exact .step h
    | _ =>
      unfold act
      rw [h]
      exact .nothing _
  | advance =>
    cases h : p.position with
    | top =>
      unfold act
      rw [h]
      exact .advance h
    | _ =>
      unfold act
      rw [h]
      exact .nothing _
  | submitted requestId =>
    cases h : p.position with
    | dispatching nid assignment todo =>
      unfold act
      rw [h]
      exact .submitted h requestId
    | _ =>
      unfold act
      rw [h]
      exact .nothing _
  -- silence moves on to the next request when its time is up, and asks again before
  | polled answer =>
    cases h : p.position with
    | polling todo tries =>
      unfold act
      rw [h]
      cases todo with
      | nil =>
        cases answer with
        | none => exact .nothing _
        | some signal => exact .nothing _
      | cons e todo =>
        cases answer with
        | none =>
          dsimp only
          split
          · exact .silent h
          · exact .again h
        | some signal => exact .received h signal
    | _ =>
      unfold act
      rw [h]
      cases answer with
      | none => exact .nothing _
      | some signal => exact .nothing _
  | withdrawn =>
    cases h : p.position with
    | cancelling requests =>
      unfold act
      rw [h]
      cases requests with
      | nil => exact .nothing _
      | cons requestId requests => exact .withdrawn h
    | _ =>
      unfold act
      rw [h]
      exact .nothing _
  | portError text =>
    cases h : p.position with
    | idle raised =>
      unfold act
      rw [h]
      exact .nothing _
    | top =>
      unfold act
      rw [h]
      exact .nothing _
    | _ =>
      unfold act
      rw [h]
      exact .portError text

end Coordinator

end Neuroswarm.MetaOrchestrator
