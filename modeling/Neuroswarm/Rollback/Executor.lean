import Neuroswarm.Lib.Stateful
import Neuroswarm.Rollback.Planner
import Neuroswarm.Rollback.Statuses

/-!
# Rollback executor and manager with their ports

`runtime/swarm/rollback/validator.py`, `consistency.py`, `execution.py` and `manager.py`
with every call of a port and of the event handlers. A port may answer each of its calls
differently, and may raise at any of them: its answer depends on the number of the call.
The checks of the consistency checker that need a snapshot bundle pass without one, as the
manager gives none; metrics are left out.

* `execute`, `cancel`, `register` — the manager's calls, each run to its end.
* `ManagerCall.step` — one call after another.
-/

namespace Neuroswarm.Rollback

open Checkpoints (truthy)

-- ------ Ports

inductive EventType where
  | rollbackStarted
  | rollbackCompleted
  | rollbackFailed (error : String)
  | rollbackCancelled
  | rollbackValidated
  | recoveryPrepared
  | recoveryFinished
  deriving DecidableEq, Repr

/-- What a port answers at its n-th call, or the message it raises with. -/
abbrev Answer (α : Type) := Nat → Except String α

structure CheckpointPort where
  getCheckpoint : String → Answer (Dict String MetaValue)
  checkpointExists : String → Answer Bool

structure BudgetPort where
  envelopeId : Answer String
  remaining : Answer (Dict String (Option Int))
  isFrozen : Answer Bool

/-- The ports of a manager; a port that is not wired is `none`. -/
structure Ports where
  checkpoint : Option CheckpointPort := none
  recoveryPlanExists : Option (String → Answer Bool) := none
  taskGraphNodeIds : Option (Answer (List String)) := none
  latestSnapshotId : Option (String → Answer (Option String)) := none
  budget : Option BudgetPort := none
  recordRollbackSample : Option (RollbackId → Int → RollbackStrategyKind → Answer Unit) := none
  attachRollbackRefs : Option (String → List RollbackId → Answer Unit) := none
  /-- The subscribers of the event bus, one after another. -/
  handlers : EventType → RollbackId → Answer Unit := fun _ _ _ => .ok ()
  utcNow : Nat → Timestamp := fun _ => 0
  requireCheckpoint : Bool := false

/-- What the calls of a manager change, and how many calls its ports have had. -/
structure ManagerState where
  repository : InMemoryRepository := {}
  history : List HistoryEntry := []
  asked : Nat := 0

/-- Why a call of the manager raises. -/
inductive Raised where
  /-- An exception of a port or of an event handler. -/
  | port (message : String)
  /-- `RollbackExecutionError` of the executor. -/
  | executor (message : String)
  /-- A check of the manager, its repository or its validator. -/
  | manager (e : RollbackError)
  deriving DecidableEq, Repr

/-- Code that asks ports only. -/
abbrev PortProgram := EStateM String ManagerState

abbrev Program := EStateM Raised ManagerState

def ask {α : Type} (answer : Answer α) : PortProgram α := fun s =>
  match answer s.asked with
  | .ok a => .ok a { s with asked := s.asked + 1 }
  | .error message => .error message { s with asked := s.asked + 1 }

def Ports.emit (ports : Ports) (event : EventType) (rollbackId : RollbackId) : PortProgram Unit :=
  ask (ports.handlers event rollbackId)

def Ports.now (ports : Ports) : PortProgram Timestamp :=
  ask fun n => .ok (ports.utcNow n)

def port {α : Type} (m : PortProgram α) : Program α := m.adaptExcept Raised.port

def raise {α : Type} (e : RollbackError) : Program α := throw (.manager e)

def onRepository {α : Type}
    (call : InMemoryRepository → Except RollbackError (α × InMemoryRepository)) : Program α :=
  fun s =>
    match call s.repository with
    | .ok (a, repository) => .ok a { s with repository }
    | .error e => .error (.manager e) s

def repositoryAppend (op : RollbackOperation) (now : Timestamp) : Program Unit :=
  onRepository fun r => (r.append op now).map fun r' => ((), r')

def repositoryGet (rollbackId : RollbackId) : Program RollbackOperation :=
  onRepository fun r => (r.get rollbackId).map fun op => (op, r)

def repositoryGetMetadata (rollbackId : RollbackId) : Program RollbackExecutionMetadata :=
  onRepository fun r => (r.getMetadata rollbackId).map fun metadata => (metadata, r)

def repositorySetMetadata (metadata : RollbackExecutionMetadata) : Program Unit :=
  onRepository fun r => (r.setMetadata metadata).map fun r' => ((), r')

def repositoryUpdateStatus (rollbackId : RollbackId) (status : RollbackStatus) :
    Program RollbackOperation :=
  onRepository fun r => r.updateStatus rollbackId status

def record (entry : HistoryEntry) : Program Unit := fun s =>
  .ok () { s with history := s.history ++ [entry] }

-- ------ Validation

structure ValidationTarget where
  rollbackId : RollbackId
  planId : String := ""
  workflowId : String
  executionId : String
  checkpointReference : Option String
  recoveryPlanReference : Option String
  targetNode : Option String
  targetNodes : List String
  targetContext : Option String

def RollbackPlan.asDict (plan : RollbackPlan) : ValidationTarget :=
  { rollbackId := plan.rollbackId
    planId := plan.planId
    workflowId := plan.workflowId
    executionId := plan.executionId
    checkpointReference := plan.checkpointReference
    recoveryPlanReference := plan.recoveryPlanReference
    targetNode := plan.targetNode
    targetNodes := plan.targetNodes
    targetContext := plan.targetContext }

def RollbackOperation.asDict (op : RollbackOperation) : ValidationTarget :=
  { rollbackId := op.rollbackId
    workflowId := op.workflowId
    executionId := op.executionId
    checkpointReference := op.checkpointReference
    recoveryPlanReference := op.recoveryPlanReference
    targetNode := op.targetNode
    targetNodes := op.targetNodes
    targetContext := op.targetContext }

def askAbout {α : Type} (reference : Option String) (query : Option (String → Answer α))
    (skipped : α) : PortProgram α :=
  match reference, query with
  | some ref, some query => if ref ≠ "" then ask (query ref) else pure skipped
  | _, _ => pure skipped

def askIfWired {α : Type} (answer : Option (Answer α)) (skipped : α) : PortProgram α :=
  match answer with
  | some answer => ask answer
  | none => pure skipped

namespace Ports

variable (ports : Ports)

def checkpointExists : Option (String → Answer Bool) := ports.checkpoint.map (·.checkpointExists)

def validateRequiredFields (data : ValidationTarget) : Program Unit :=
  if data.workflowId = "" then
    raise (.validation "workflow_id required" "workflow_id")
  else if data.executionId = "" then
    raise (.validation "execution_id required" "execution_id")
  else
    pure ()

def validateRefs (data : ValidationTarget) : Program Unit := do
  if ports.requireCheckpoint && !truthy data.checkpointReference then
    raise (.validation "checkpoint_reference required" "checkpoint_reference")
  else
    let checkpointFound ← port (askAbout data.checkpointReference ports.checkpointExists true)
    if checkpointFound then
      let planFound ← port (askAbout data.recoveryPlanReference ports.recoveryPlanExists true)
      if planFound then
        pure ()
      else
        raise (.validation ("recovery plan does not exist: " ++ data.recoveryPlanReference.getD "")
          "recovery_plan_reference")
    else
      raise (.validation ("checkpoint does not exist: " ++ data.checkpointReference.getD "")
        "checkpoint_reference")

/-- `_check_graph(data, None, None)`, for the nodes of the task graph. -/
def checkGraph (data : ValidationTarget) (nodes : List String) : List String :=
  if nodes = [] then
    []
  else
    (data.targetNodes ++ if truthy data.targetNode then data.targetNode.toList else []).flatMap
      fun node =>
        if node ∈ nodes then
          []
        else
          ["orphan / unknown target node: " ++ node, "graph missing node: " ++ node]

/-- The messages of the violations. -/
def consistencyCheck (data : ValidationTarget) : PortProgram (List String) := do
  let checkpointFound ← askAbout data.checkpointReference ports.checkpointExists true
  let planFound ← askAbout data.recoveryPlanReference ports.recoveryPlanExists true
  let nodes ← askIfWired ports.taskGraphNodeIds []
  let snapshot ← askAbout data.targetContext ports.latestSnapshotId (some "")
  pure <|
    (if checkpointFound then []
      else ["checkpoint not found: " ++ data.checkpointReference.getD ""]) ++
    (if planFound then []
      else ["recovery plan not found: " ++ data.recoveryPlanReference.getD ""]) ++
    checkGraph data nodes ++
    (if snapshot.isSome then [] else ["context snapshot missing: " ++ data.targetContext.getD ""])

def validate (data : ValidationTarget) : Program Unit := do
  validateRequiredFields data
  ports.validateRefs data
  let messages ← port (ports.consistencyCheck data)
  if messages ≠ [] then
    raise (.validation ("; ".intercalate messages) "")
  else
    let rollbackId := if data.rollbackId ≠ "" then data.rollbackId else data.planId
    if rollbackId ≠ "" then port (ports.emit .rollbackValidated rollbackId) else pure ()

-- ------ Executor

end Ports

/-- Prepared recovery order and dependencies for a rollback plan. -/
structure RecoveryExecutionMetadata where
  rollbackId : RollbackId
  workflowId : String
  executionId : String
  rollbackPlanId : String
  recoveryOrder : List String
  recoveryDependencies : Dict String (List String)
  resumeNode : Option String
  resumeWorkflow : String
  resumeSubgraph : Option String
  rollbackDepth : Nat
  rollbackDurationMs : Option Int := none
  strategy : RollbackStrategyKind
  level : RollbackLevel
  checkpointReference : Option String
  metadata : Dict String MetaValue

structure ContextSnapshotRef where
  contextId : String
  contextSnapshotId : Option String := none

structure BudgetSnapshotRef where
  envelopeId : String
  remaining : Dict String (Option Int) := .empty
  frozen : Bool := true

/-- Bundle of rollback target refs; the metadata is the strategy and the checkpoint. -/
structure RollbackSnapshotBundle where
  context : Option ContextSnapshotRef := none
  budget : Option BudgetSnapshotRef := none
  strategy : RollbackStrategyKind
  checkpoint : Option (Dict String MetaValue) := none

structure RollbackResult where
  rollbackId : RollbackId
  planId : String
  workflowId : String
  executionId : String
  status : RollbackStatus := .completed
  durationMs : Int := 0
  restored : RollbackSnapshotBundle
  recovery : RecoveryExecutionMetadata

namespace Ports

variable (ports : Ports)

def prepare (plan : RollbackPlan) : PortProgram RecoveryExecutionMetadata := do
  ports.emit .recoveryPrepared plan.rollbackId
  pure
    { rollbackId := plan.rollbackId
      workflowId := plan.workflowId
      executionId := plan.executionId
      rollbackPlanId := plan.planId
      recoveryOrder := plan.recoveryOrder
      recoveryDependencies := plan.recoveryDependencies
      resumeNode := plan.targetNode
      resumeWorkflow := plan.workflowId
      resumeSubgraph := plan.targetSubgraph
      rollbackDepth := plan.recoveryOrder.length
      strategy := plan.strategy
      level := plan.level
      checkpointReference := plan.checkpointReference
      metadata := plan.metadata }

/-- The checkpoint of a plan; it may have gone since the plan was validated. -/
def materializeCheckpoint (plan : RollbackPlan) : PortProgram (Option (Dict String MetaValue)) :=
  match plan.checkpointReference, ports.checkpoint with
  | some ref, some checkpoint =>
    if ref ≠ "" then do
      let found ← ask (checkpoint.checkpointExists ref)
      if found then
        let ckpt ← ask (checkpoint.getCheckpoint ref)
        pure (some ckpt)
      else
        throw ("checkpoint missing: " ++ ref)
    else
      pure none
  | _, _ => pure none

def materializeContext (plan : RollbackPlan) : PortProgram (Option ContextSnapshotRef) :=
  match plan.targetContext with
  | none => pure none
  | some contextId =>
    if contextId = "" then
      pure none
    else
      match ports.latestSnapshotId with
      | none => pure (some { contextId })
      | some latestSnapshotId => do
        let contextSnapshotId ← ask (latestSnapshotId contextId)
        pure (some { contextId, contextSnapshotId })

def materializeBudget (plan : RollbackPlan) : PortProgram (Option BudgetSnapshotRef) :=
  match plan.targetBudget with
  | none => pure none
  | some target =>
    if target = "" then
      pure none
    else
      match ports.budget with
      | none => pure (some { envelopeId := target })
      | some budget => do
        let envelopeId ← ask budget.envelopeId
        let remaining ← ask budget.remaining
        let frozen ← ask budget.isFrozen
        pure (some { envelopeId := if envelopeId ≠ "" then envelopeId else target, remaining, frozen })

def materialize (plan : RollbackPlan) : PortProgram RollbackSnapshotBundle := do
  let checkpoint ← ports.materializeCheckpoint plan
  let context ← ports.materializeContext plan
  let budget ← ports.materializeBudget plan
  pure { context, budget, strategy := plan.strategy, checkpoint }

def applyPlan (plan : RollbackPlan) (recovery : RecoveryExecutionMetadata) (started : Timestamp) :
    PortProgram RollbackResult := do
  let restored ← ports.materialize plan
  let ended ← ports.now
  let durationMs := ended - started
  askIfWired
    (ports.recordRollbackSample.map fun sample => sample plan.rollbackId durationMs plan.strategy) ()
  ports.emit .rollbackCompleted plan.rollbackId
  ports.emit .recoveryFinished plan.rollbackId
  pure
    { rollbackId := plan.rollbackId
      planId := plan.planId
      workflowId := plan.workflowId
      executionId := plan.executionId
      durationMs
      restored
      recovery := { recovery with rollbackDurationMs := some durationMs } }

/-- `RollbackExecutor.execute(plan, recovery=recovery)` -/
def executorExecute (plan : RollbackPlan) (recovery : RecoveryExecutionMetadata) :
    Program RollbackResult := do
  let started ← port ports.now
  port (ports.emit .rollbackStarted plan.rollbackId)
  fun s =>
    match ports.applyPlan plan recovery started s with
    | .ok result s' => .ok result s'
    | .error message s' =>
      -- the handlers of the failure event may raise in their turn
      match (port (ports.emit (.rollbackFailed message) plan.rollbackId)) s' with
      | .ok _ s'' => .error (.executor message) s''
      | .error e s'' => .error e s''

-- ------ Manager

end Ports

/-- The id of the operation of a plan; `newId` is generated for a plan without one. -/
def RollbackPlan.operationId (plan : RollbackPlan) (newId : RollbackId) : RollbackId :=
  if plan.rollbackId ≠ "" then plan.rollbackId else newId

namespace Ports

variable (ports : Ports)

def stamp (rollbackId : RollbackId) (status : RollbackStatus) (durationMs : Option Int) :
    Program Unit := do
  let metadata ← repositoryGetMetadata rollbackId
  let now ← port ports.now
  match stampMetadata metadata status now durationMs with
  | .error e => raise e
  | .ok stamped => repositorySetMetadata stamped

def execute (newId : RollbackId) (plan : RollbackPlan) : Program RollbackResult := do
  ports.validate plan.asDict
  let now ← port ports.now
  let rollbackId := plan.operationId newId
  repositoryAppend ((planToOperation plan rollbackId).withStatus .validated) now
  ports.stamp rollbackId .validated none
  let recovery ← port (ports.prepare plan)
  ports.stamp rollbackId .prepared none
  let _ ← repositoryUpdateStatus rollbackId .prepared
  let result ← ports.executorExecute plan recovery
  let _ ← repositoryUpdateStatus rollbackId .completed
  ports.stamp rollbackId .completed (some result.durationMs)
  record (completedEntry plan)
  port (askIfWired
    (ports.attachRollbackRefs.map fun attach => attach plan.executionId [plan.rollbackId]) ())
  pure result

def cancel (rollbackId : RollbackId) : Program RollbackOperation := do
  let op ← repositoryGet rollbackId
  if canTransition op.status .cancelled then
    let updated ← repositoryUpdateStatus rollbackId .cancelled
    ports.stamp rollbackId .cancelled none
    port (ports.emit .rollbackCancelled rollbackId)
    record (cancelledEntry updated)
    pure updated
  else
    raise (.cancellation op.status)

def register (op : RollbackOperation) : Program RollbackOperation := do
  ports.validate op.asDict
  let now ← port ports.now
  repositoryAppend op now
  pure op

end Ports

inductive ManagerCall where
  | execute (ports : Ports) (newId : RollbackId) (plan : RollbackPlan)
  | cancel (ports : Ports) (rollbackId : RollbackId)
  | register (ports : Ports) (op : RollbackOperation)

/-- A call run to its end, whether it returns or raises. -/
def ManagerCall.step (s : ManagerState) : ManagerCall → ManagerState
  | .execute ports newId plan => (ports.execute newId plan).after s
  | .cancel ports rollbackId => (ports.cancel rollbackId).after s
  | .register ports op => (ports.register op).after s

end Neuroswarm.Rollback
