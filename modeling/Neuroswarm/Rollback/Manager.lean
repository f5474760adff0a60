import Mathlib.Logic.Function.Basic
import Neuroswarm.Lib.Dict

/-!
# Rollback manager

`runtime/swarm/rollback/rollback.py`, `metadata.py`, `repository.py`, `history.py`,
`stamp_metadata` of `execution.py` and `register`, `execute` and `cancel` of
`manager.py`. Every call of the repository, of the executor or of the history store is
one step; between two steps of a caller the others may take theirs. The checksum of an
operation is left out, and the three indices of the history are one list.

* `Call.advance` — the next step of a call, with what it leaves to do.
* `RollbackSystem.step` — any number of callers over one repository.
-/

/-!
## Domain models

The enumerations and records of `runtime/swarm/rollback/models.py`, `recovery.py` and
`exceptions.py`, and the status lifecycle of `lifecycle.py`.

Representation choices:

* a `datetime` and a duration are numbers;
* a value of a metadata mapping is a number or a text;
* the latency, budget and count of a failure observation, and the descriptors that
  `prepare` and `_materialize` return, are left out: no function modelled here reads them.
-/

namespace Neuroswarm.Rollback

abbrev RollbackId := String

abbrev Timestamp := Int

inductive MetaValue where
  | number (n : Nat)
  | text (s : String)
  deriving DecidableEq, Repr

/-- Granularity of a rollback operation. -/
inductive RollbackLevel where
  | workflow
  | subgraph
  | node
  | context
  | budget
  | executionMetadata
  | distributedFuture
  deriving DecidableEq, Repr

/-- Deterministic rollback strategies (planning only — pure objects). -/
inductive RollbackStrategyKind where
  | resumeCheckpoint
  | restartWorkflow
  | restartNode
  | restartSubgraph
  | rollbackContext
  | rollbackBudget
  | rollbackMetadata
  | custom
  deriving DecidableEq, Repr

/-- Lifecycle of a rollback operation envelope. -/
inductive RollbackStatus where
  | pending
  | validated
  | prepared
  | completed
  | failed
  | cancelled
  deriving DecidableEq, Repr

/-- The typed errors of the subsystem. -/
inductive RollbackError where
  /-- `ValidationError(message, field=field)`; pydantic's errors name the field only. -/
  | validation (message field : String)
  | duplicateRollback (rollbackId : RollbackId)
  | notFound (key kind : String)
  | lifecycle (rollbackId : RollbackId) (current target : RollbackStatus)
  | rollbackPlanning (message : String)
  | rollbackExecution
  | cancellation (current : RollbackStatus)
  deriving DecidableEq, Repr

-- ------ Status lifecycle

def RollbackStatus.allowed : RollbackStatus → List RollbackStatus
  | .pending => [.validated, .cancelled, .failed]
  | .validated => [.prepared, .cancelled, .failed]
  | .prepared => [.completed, .cancelled, .failed]
  | .completed => []
  | .failed => []
  | .cancelled => []

def canTransition (current target : RollbackStatus) : Bool :=
  current = target ∨ target ∈ current.allowed

def transition (rollbackId : RollbackId) (current target : RollbackStatus) :
    Except RollbackError RollbackStatus :=
  if current = target then
    .ok current
  else if canTransition current target then
    .ok target
  else
    .error (.lifecycle rollbackId current target)

theorem transition_of_can {rollbackId : RollbackId} {current target : RollbackStatus}
    (h : canTransition current target) : transition rollbackId current target = .ok target := by
  unfold transition
  by_cases hEq : current = target
  · rw [if_pos hEq, hEq]
  · rw [if_neg hEq, if_pos h]

theorem transition_of_not {rollbackId : RollbackId} {current target : RollbackStatus}
    (h : ¬ canTransition current target) :
    transition rollbackId current target = .error (.lifecycle rollbackId current target) := by
  unfold transition
  have hNe : current ≠ target := by
    rintro rfl
    exact h (by simp [canTransition])
  rw [if_neg hNe, if_neg h]

-- ------ Plans

structure FailureObservation where
  workflowId : String
  executionId : String
  failedNodes : List String := []
  completedNodes : List String := []
  reason : String := "failure"
  nodeId : Option String := none
  subgraphId : Option String := none
  contextId : Option String := none
  budgetEnvelopeId : Option String := none
  checkpointReference : Option String := none
  recoveryPlanReference : Option String := none
  metadata : Dict String MetaValue := .empty

structure RollbackPlan where
  planId : String
  rollbackId : RollbackId
  workflowId : String
  executionId : String
  strategy : RollbackStrategyKind := .resumeCheckpoint
  level : RollbackLevel := .workflow
  checkpointReference : Option String := none
  recoveryPlanReference : Option String := none
  targetNode : Option String := none
  targetSubgraph : Option String := none
  targetContext : Option String := none
  targetBudget : Option String := none
  targetNodes : List String := []
  reason : String := ""
  recoveryOrder : List String := []
  recoveryDependencies : Dict String (List String) := .empty
  createdAt : Timestamp
  metadata : Dict String MetaValue := .empty

end Neuroswarm.Rollback

/-! ## Rollback manager -/

namespace Neuroswarm.Rollback

-- ------ Records

/-- Immutable rollback operation — consistency restoration unit. -/
structure RollbackOperation where
  rollbackId : RollbackId
  workflowId : String
  executionId : String
  checkpointReference : Option String := none
  recoveryPlanReference : Option String := none
  rollbackStrategy : RollbackStrategyKind := .resumeCheckpoint
  rollbackLevel : RollbackLevel := .workflow
  rollbackReason : String := ""
  targetNode : Option String := none
  targetSubgraph : Option String := none
  targetContext : Option String := none
  targetBudget : Option String := none
  targetNodes : List String := []
  metadata : Dict String MetaValue := .empty
  status : RollbackStatus := .pending

def RollbackOperation.withStatus (op : RollbackOperation) (status : RollbackStatus) :
    RollbackOperation :=
  { op with status }

/-- Metadata envelope around a rollback body. -/
structure RollbackExecutionMetadata where
  rollbackId : RollbackId
  status : RollbackStatus := .pending
  recordedAt : Timestamp
  validatedAt : Option Timestamp := none
  preparedAt : Option Timestamp := none
  completedAt : Option Timestamp := none
  failedAt : Option Timestamp := none
  cancelledAt : Option Timestamp := none
  durationMs : Option Int := none
  error : Option String := none

def RollbackExecutionMetadata.stamped (metadata : RollbackExecutionMetadata)
    (status : RollbackStatus) (now : Timestamp) (durationMs : Option Int) :
    RollbackExecutionMetadata :=
  { metadata with
    status
    validatedAt := if status = .validated then some now else metadata.validatedAt
    preparedAt := if status = .prepared then some now else metadata.preparedAt
    completedAt := if status = .completed then some now else metadata.completedAt
    failedAt := if status = .failed then some now else metadata.failedAt
    cancelledAt := if status = .cancelled then some now else metadata.cancelledAt
    error := if status = .failed then none else metadata.error
    durationMs := durationMs.or metadata.durationMs }

def stampMetadata (metadata : RollbackExecutionMetadata) (status : RollbackStatus)
    (now : Timestamp) (durationMs : Option Int) : Except RollbackError RollbackExecutionMetadata :=
  match transition metadata.rollbackId metadata.status status with
  | .error e => .error e
  | .ok _ => .ok (metadata.stamped status now durationMs)

structure HistoryEntry where
  rollbackId : RollbackId
  planId : Option String := none
  workflowId : String
  executionId : String
  strategy : RollbackStrategyKind
  reason : String := ""
  success : Bool := true
  durationMs : Int := 0
  status : RollbackStatus := .completed

-- ------ The repository

structure InMemoryRepository where
  ops : Dict RollbackId RollbackOperation := .empty
  metas : Dict RollbackId RollbackExecutionMetadata := .empty

namespace InMemoryRepository

def append (r : InMemoryRepository) (op : RollbackOperation) (now : Timestamp) :
    Except RollbackError InMemoryRepository :=
  if r.ops.contains op.rollbackId then
    .error (.duplicateRollback op.rollbackId)
  else
    .ok
      { ops := r.ops.set op.rollbackId op
        metas := r.metas.set op.rollbackId
          { rollbackId := op.rollbackId, status := op.status, recordedAt := now } }

def get (r : InMemoryRepository) (rollbackId : RollbackId) :
    Except RollbackError RollbackOperation :=
  match r.ops.get? rollbackId with
  | some op => .ok op
  | none => .error (.notFound rollbackId "rollback")

def getMetadata (r : InMemoryRepository) (rollbackId : RollbackId) :
    Except RollbackError RollbackExecutionMetadata :=
  match r.metas.get? rollbackId with
  | some metadata => .ok metadata
  | none => .error (.notFound rollbackId "metadata")

/-- The operation takes over the status of the metadata. -/
def setMetadata (r : InMemoryRepository) (metadata : RollbackExecutionMetadata) :
    Except RollbackError InMemoryRepository :=
  match r.ops.get? metadata.rollbackId with
  | none => .error (.notFound metadata.rollbackId "rollback")
  | some op =>
    .ok
      { ops :=
          if op.status ≠ metadata.status then
            r.ops.set metadata.rollbackId (op.withStatus metadata.status)
          else
            r.ops
        metas := r.metas.set metadata.rollbackId metadata }

/-- No check of the lifecycle. -/
def updateStatus (r : InMemoryRepository) (rollbackId : RollbackId) (status : RollbackStatus) :
    Except RollbackError (RollbackOperation × InMemoryRepository) :=
  match r.get rollbackId with
  | .error e => .error e
  | .ok op =>
    .ok (op.withStatus status,
      { ops := r.ops.set rollbackId (op.withStatus status)
        metas := r.metas.modify rollbackId ({ · with status }) })

/-- A repository with the operations of a file; a duplicate, at which the load raises, is
passed over. -/
def loaded (ops : List RollbackOperation) (now : Timestamp) : InMemoryRepository :=
  ops.foldl
    (fun r op =>
      match r.append op now with
      | .ok r' => r'
      | .error _ => r)
    {}

end InMemoryRepository

-- ------ Calls

/-- Where a call of `execute` stands: what it does next, with its local values. -/
inductive ExecutePoint where
  | append
  | readValidated
  | writeValidated (metadata : RollbackExecutionMetadata)
  | prepare
  | readPrepared
  | writePrepared (metadata : RollbackExecutionMetadata)
  | updatePrepared
  | apply
  | updateCompleted (durationMs : Int)
  | readCompleted (durationMs : Int)
  | writeCompleted (durationMs : Int) (metadata : RollbackExecutionMetadata)
  | record

/-- Where a call of `cancel` stands. -/
inductive CancelPoint where
  | check
  | update
  | read (updated : RollbackOperation)
  | write (updated : RollbackOperation) (metadata : RollbackExecutionMetadata)
  | record (updated : RollbackOperation)

inductive Call where
  | idle
  | execute (plan : RollbackPlan) (rollbackId : RollbackId) (point : ExecutePoint)
  | cancel (rollbackId : RollbackId) (point : CancelPoint)
  | register (op : RollbackOperation)

def planToOperation (plan : RollbackPlan) (rollbackId : RollbackId) : RollbackOperation :=
  { rollbackId
    workflowId := plan.workflowId
    executionId := plan.executionId
    checkpointReference := plan.checkpointReference
    recoveryPlanReference := plan.recoveryPlanReference
    rollbackStrategy := plan.strategy
    rollbackLevel := plan.level
    rollbackReason := plan.reason
    targetNode := plan.targetNode
    targetSubgraph := plan.targetSubgraph
    targetContext := plan.targetContext
    targetBudget := plan.targetBudget
    targetNodes := plan.targetNodes
    metadata := plan.metadata }

/-- `history_store.record(plan=plan, result=result, success=True)` -/
def completedEntry (plan : RollbackPlan) : HistoryEntry :=
  { rollbackId := plan.rollbackId
    planId := some plan.planId
    workflowId := plan.workflowId
    executionId := plan.executionId
    strategy := plan.strategy
    reason := plan.reason }

/-- `history_store.record(operation=updated, success=False, reason="cancelled")` -/
def cancelledEntry (updated : RollbackOperation) : HistoryEntry :=
  { rollbackId := updated.rollbackId
    workflowId := updated.workflowId
    executionId := updated.executionId
    strategy := updated.rollbackStrategy
    reason := "cancelled"
    success := false
    status := updated.status }

structure Outcome where
  repository : InMemoryRepository
  entry : Option HistoryEntry := none
  next : Call := .idle

def writeStamped (r : InMemoryRepository) (metadata : RollbackExecutionMetadata)
    (status : RollbackStatus) (now : Timestamp) (durationMs : Option Int) (next : Call) : Outcome :=
  match stampMetadata metadata status now durationMs with
  | .error _ => { repository := r }
  | .ok stamped =>
    match r.setMetadata stamped with
    | .error _ => { repository := r }
    | .ok r' => { repository := r', next }

def readMetadata (r : InMemoryRepository) (rollbackId : RollbackId)
    (next : RollbackExecutionMetadata → Call) : Outcome :=
  match r.getMetadata rollbackId with
  | .error _ => { repository := r }
  | .ok metadata => { repository := r, next := next metadata }

def writeStatus (r : InMemoryRepository) (rollbackId : RollbackId) (status : RollbackStatus)
    (next : RollbackOperation → Call) : Outcome :=
  match r.updateStatus rollbackId status with
  | .error _ => { repository := r }
  | .ok (updated, r') => { repository := r', next := next updated }

/-- The next step of `execute`; `result` is what the executor returns, or that it raises. -/
def ExecutePoint.advance (r : InMemoryRepository) (plan : RollbackPlan) (rollbackId : RollbackId)
    (now : Timestamp) (result : Option Int) : ExecutePoint → Outcome
  | .append =>
    match r.append ((planToOperation plan rollbackId).withStatus .validated) now with
    | .error _ => { repository := r }
    | .ok r' => { repository := r', next := .execute plan rollbackId .readValidated }
  | .readValidated =>
    readMetadata r rollbackId fun metadata => .execute plan rollbackId (.writeValidated metadata)
  | .writeValidated metadata =>
    writeStamped r metadata .validated now none (.execute plan rollbackId .prepare)
  | .prepare => { repository := r, next := .execute plan rollbackId .readPrepared }
  | .readPrepared =>
    readMetadata r rollbackId fun metadata => .execute plan rollbackId (.writePrepared metadata)
  | .writePrepared metadata =>
    writeStamped r metadata .prepared now none (.execute plan rollbackId .updatePrepared)
  | .updatePrepared =>
    writeStatus r rollbackId .prepared fun _ => .execute plan rollbackId .apply
  | .apply =>
    match result with
    | none => { repository := r }
    | some durationMs =>
      { repository := r, next := .execute plan rollbackId (.updateCompleted durationMs) }
  | .updateCompleted durationMs =>
    writeStatus r rollbackId .completed fun _ =>
      .execute plan rollbackId (.readCompleted durationMs)
  | .readCompleted durationMs =>
    readMetadata r rollbackId fun metadata =>
      .execute plan rollbackId (.writeCompleted durationMs metadata)
  | .writeCompleted durationMs metadata =>
    writeStamped r metadata .completed now (some durationMs) (.execute plan rollbackId .record)
  | .record => { repository := r, entry := some (completedEntry plan) }

/-- The next step of `cancel`. -/
def CancelPoint.advance (r : InMemoryRepository) (rollbackId : RollbackId) (now : Timestamp) :
    CancelPoint → Outcome
  | .check =>
    match r.get rollbackId with
    | .error _ => { repository := r }
    | .ok op =>
      if canTransition op.status .cancelled then
        { repository := r, next := .cancel rollbackId .update }
      else
        { repository := r }
  | .update => writeStatus r rollbackId .cancelled fun updated => .cancel rollbackId (.read updated)
  | .read updated =>
    readMetadata r rollbackId fun metadata => .cancel rollbackId (.write updated metadata)
  | .write updated metadata =>
    writeStamped r metadata .cancelled now none (.cancel rollbackId (.record updated))
  | .record updated => { repository := r, entry := some (cancelledEntry updated) }

/-- The next step of a call. -/
def Call.advance (r : InMemoryRepository) (now : Timestamp) (result : Option Int) : Call → Outcome
  | .idle => { repository := r }
  | .execute plan rollbackId point => point.advance r plan rollbackId now result
  | .cancel rollbackId point => point.advance r rollbackId now
  | .register op =>
    match r.append op now with
    | .error _ => { repository := r }
    | .ok r' => { repository := r' }

-- ------ Any number of callers

structure RollbackSystem where
  repository : InMemoryRepository := {}
  history : List HistoryEntry := []
  calls : Nat → Call := fun _ => .idle

/-- A caller begins a call, or takes its next step. `valid` is the validator's answer beyond
the two ids; `newId` is the id that is generated for a plan without one. -/
inductive RollbackEvent where
  | execute (caller : Nat) (plan : RollbackPlan) (valid : Bool) (newId : RollbackId)
  | cancel (caller : Nat) (rollbackId : RollbackId)
  | register (caller : Nat) (op : RollbackOperation) (valid : Bool)
  | advance (caller : Nat) (now : Timestamp) (result : Option Int)

namespace RollbackSystem

def start (s : RollbackSystem) (caller : Nat) (call : Call) : RollbackSystem :=
  match s.calls caller with
  | .idle => { s with calls := Function.update s.calls caller call }
  | _ => s

def step (s : RollbackSystem) : RollbackEvent → RollbackSystem
  | .execute caller plan valid newId =>
    if plan.workflowId ≠ "" ∧ plan.executionId ≠ "" ∧ valid then
      s.start caller
        (.execute plan (if plan.rollbackId ≠ "" then plan.rollbackId else newId) .append)
    else
      s
  | .cancel caller rollbackId => s.start caller (.cancel rollbackId .check)
  | .register caller op valid =>
    if op.workflowId ≠ "" ∧ op.executionId ≠ "" ∧ valid then s.start caller (.register op) else s
  | .advance caller now result =>
    let outcome := (s.calls caller).advance s.repository now result
    { repository := outcome.repository
      history := s.history ++ outcome.entry.toList
      calls := Function.update s.calls caller outcome.next }

end RollbackSystem

end Neuroswarm.Rollback
