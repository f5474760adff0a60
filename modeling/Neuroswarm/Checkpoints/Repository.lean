import Mathlib.Data.Int.Order.Basic
import Neuroswarm.Lib.Argmax
import Neuroswarm.Lib.Dict
import Neuroswarm.Lib.Stateful

/-!
# Checkpoint repository

`runtime/swarm/checkpoint/repository.py`. The store is append-only: a
checkpoint moves from the active to the archived ones and stays.

* `latestForExecution`, `latestForWorkflow` — the active checkpoint with the greatest
  time stamp, the first of several.
* `transitionTo` — the status of an envelope changes; the checkpoint is no longer active.
-/

/-!
## Domain models

The records of `runtime/swarm/checkpoint/models.py`, `checkpoint.py`,
`execution_snapshot.py`, `graph_snapshot.py`, `lifecycle.py` and `exceptions.py`.

Representation choices:

* a `datetime` is an instant, a number; all of them carry a time zone, as those of
  `utc_now()` do;
* what no function modelled here looks into (a checkpoint's metadata, references,
  version and status) is one value of the type `V`, which the checksum still covers;
* `stable_hash` is a parameter, `Hashes`.
-/

namespace Neuroswarm.Checkpoints

abbrev CheckpointId := String

abbrev Timestamp := Int

/-- The order by which the newest checkpoint is found; others that `Int` has do not compute. -/
instance (priority := high) : Preorder Timestamp := Int.instLinearOrder.toPreorder

-- ------ Enumerations

/-- Granularity / trigger class for a recovery point. -/
inductive CheckpointLevel where
  | workflow
  | subgraph
  | node
  | manual
  | automatic
  | periodic
  | barrier
  | distributedFuture
  deriving DecidableEq, Repr

/-- `CheckpointLevel(level)`; `none` where it raises `ValueError`. -/
def CheckpointLevel.parse : String → Option CheckpointLevel
  | "workflow" => some .workflow
  | "subgraph" => some .subgraph
  | "node" => some .node
  | "manual" => some .manual
  | "automatic" => some .automatic
  | "periodic" => some .periodic
  | "barrier" => some .barrier
  | "distributed_future" => some .distributedFuture
  | _ => none

/-- Lifecycle of a durable checkpoint envelope (not execution status). -/
inductive CheckpointStatus where
  | active
  | archived
  | expired
  | compacted
  deriving DecidableEq, Repr

inductive RecoveryStrategy where
  | resumeCheckpoint
  | resumeNode
  | resumeSubgraph
  | restartWorkflow
  | rollbackNotify
  deriving DecidableEq, Repr

/-- The typed errors of the subsystem. -/
inductive CheckpointError where
  /-- `ValidationError(message, field=field)` -/
  | validation (message field : String)
  | duplicateCheckpoint (checkpointId : CheckpointId)
  | notFound (key kind : String)
  | checksumMismatch (checkpointId : CheckpointId)
  | lifecycle (checkpointId : CheckpointId) (current target : CheckpointStatus)
  | retention (message : String)
  | recoveryPlanning (message : String)
  deriving DecidableEq, Repr

-- ------ Envelope lifecycle

def CheckpointStatus.allowed : CheckpointStatus → List CheckpointStatus
  | .active => [.archived, .expired, .compacted]
  | .archived => [.expired, .compacted]
  | .compacted => [.expired]
  | .expired => []

def canTransition (current target : CheckpointStatus) : Bool :=
  current = target ∨ target ∈ current.allowed

def transition (checkpointId : CheckpointId) (current target : CheckpointStatus) :
    Except CheckpointError CheckpointStatus :=
  if current = target then
    .ok current
  else if canTransition current target then
    .ok target
  else
    .error (.lifecycle checkpointId current target)

-- ------ Checkpoints

/-- Frozen execution progress. -/
structure ExecutionSnapshot where
  executionId : String := ""
  workflowId : String := ""
  completedNodes : List String := []
  failedNodes : List String := []
  skippedNodes : List String := []
  experienceSnapshotRef : Option String := none
  executionJsonRef : Option String := none
  contentHash : Option String := none
  deriving DecidableEq, Repr

/-- Frozen view of task-graph progress. -/
structure GraphSnapshot where
  subgraphId : Option String := none
  contentHash : Option String := none
  deriving DecidableEq, Repr

/-- A context, budget or metrics snapshot: the validator asks for its hash only. -/
structure Snapshot where
  contentHash : Option String := none
  deriving DecidableEq, Repr

/-- Immutable durable recovery point for workflow fault tolerance. -/
structure Checkpoint (V : Type) where
  checkpointId : CheckpointId
  workflowId : String
  executionId : String
  parentCheckpoint : Option CheckpointId := none
  checkpointLevel : CheckpointLevel := .automatic
  timestamp : Timestamp
  executionSnapshot : Option ExecutionSnapshot := none
  contextSnapshot : Option Snapshot := none
  budgetSnapshot : Option Snapshot := none
  metricsSnapshot : Option Snapshot := none
  graphSnapshot : Option GraphSnapshot := none
  experienceReference : Option String := none
  checksum : String
  rest : V
  deriving DecidableEq

/-- `stable_hash` of a checkpoint and of a snapshot. -/
structure Hashes (V : Type) where
  checkpoint : Checkpoint V → String
  execution : ExecutionSnapshot → String

namespace Checkpoint

variable {V : Type}

/-- The payload excludes the checksum. -/
def computeChecksum (hashes : Hashes V) (c : Checkpoint V) : String :=
  hashes.checkpoint { c with checksum := "" }

def verifyChecksum (hashes : Hashes V) (c : Checkpoint V) : Bool :=
  c.checksum = c.computeChecksum hashes

end Checkpoint

/-- Lifecycle envelope around an immutable checkpoint body. -/
structure CheckpointEnvelope (V : Type) where
  checkpointId : CheckpointId
  status : CheckpointStatus := .active
  recordedAt : Timestamp
  archivedAt : Option Timestamp := none
  expiredAt : Option Timestamp := none
  compactedAt : Option Timestamp := none
  metadata : Dict String V := .empty

/-- Failure description supplied to the recovery planner. -/
structure FailureContext where
  workflowId : String
  executionId : String
  failedNodes : List String := []
  completedNodes : List String := []
  reason : String := "failure"
  nodeId : Option String := none
  subgraphId : Option String := none
  deriving DecidableEq, Repr

def truthy (s : Option String) : Bool :=
  match s with
  | some s => s ≠ ""
  | none => false

end Neuroswarm.Checkpoints

/-! ## Checkpoint repository -/

namespace Neuroswarm.Checkpoints

/-- Append-only checkpoint store; every checkpoint stands under its own id. -/
structure InMemoryRepository (V : Type) where
  active : Dict CheckpointId (Checkpoint V) := .empty
  archived : Dict CheckpointId (Checkpoint V) := .empty
  envelopes : Dict CheckpointId (CheckpointEnvelope V) := .empty
  activeKeyed : ∀ id c, active.get? id = some c → c.checkpointId = id := by
    intro _ _ h
    cases h

namespace InMemoryRepository

variable {V : Type}

instance : Inhabited (InMemoryRepository V) := ⟨{}⟩

def lookup (r : InMemoryRepository V) (checkpointId : CheckpointId) : Option (Checkpoint V) :=
  match r.active.get? checkpointId with
  | some c => some c
  | none => r.archived.get? checkpointId

/-- `self._active[cid] = checkpoint`, with a new envelope. -/
def insert (r : InMemoryRepository V) (c : Checkpoint V) (now : Timestamp) :
    InMemoryRepository V :=
  { r with
    active := r.active.set c.checkpointId c
    envelopes := r.envelopes.set c.checkpointId
      { checkpointId := c.checkpointId, status := .active, recordedAt := now }
    activeKeyed := by
      intro id d hd
      rw [Dict.get?_set] at hd
      split at hd
      · next hId =>
        cases hd
        exact hId.symm
      · exact r.activeKeyed id d hd }

def append (r : InMemoryRepository V) (c : Checkpoint V) (now : Timestamp) :
    Except CheckpointError (InMemoryRepository V) :=
  if r.active.contains c.checkpointId ∨ r.archived.contains c.checkpointId then
    .error (.duplicateCheckpoint c.checkpointId)
  else
    .ok (r.insert c now)

def get (r : InMemoryRepository V) (checkpointId : CheckpointId) :
    Except CheckpointError (Checkpoint V) :=
  match r.lookup checkpointId with
  | some c => .ok c
  | none => .error (.notFound checkpointId "checkpoint")

def listAll (r : InMemoryRepository V) (includeArchived : Bool) : List (Checkpoint V) :=
  if includeArchived then r.active.values ++ r.archived.values else r.active.values

def listByWorkflow (r : InMemoryRepository V) (workflowId : String)
    (includeArchived : Bool) : List (Checkpoint V) :=
  (r.listAll includeArchived).filter (·.workflowId = workflowId)

def listByExecution (r : InMemoryRepository V) (executionId : String)
    (includeArchived : Bool) : List (Checkpoint V) :=
  (r.listAll includeArchived).filter (·.executionId = executionId)

/-- `max(items, key=lambda c: c.timestamp)`, the first of several. -/
def latestForExecution (r : InMemoryRepository V) (executionId : String) :
    Option (Checkpoint V) :=
  (r.listByExecution executionId false).argmax Checkpoint.timestamp

def latestForWorkflow (r : InMemoryRepository V) (workflowId : String) :
    Option (Checkpoint V) :=
  (r.listByWorkflow workflowId false).argmax Checkpoint.timestamp

/-- `self._archived[cid] = self._active.pop(cid)`; no change when it is not active. -/
def shelve (r : InMemoryRepository V) (checkpointId : CheckpointId) : InMemoryRepository V :=
  match r.active.get? checkpointId with
  | some c =>
    { r with
      active := r.active.erase checkpointId
      archived := r.archived.set checkpointId c
      activeKeyed := fun id d hd => r.activeKeyed id d (Dict.get?_erase_eq_some.mp hd).2 }
  | none => r

end InMemoryRepository

/-- An operation on the store that may raise. -/
abbrev RepositoryM (V : Type) := EStateM CheckpointError (InMemoryRepository V)

namespace InMemoryRepository

variable {V : Type}

def getEnvelope (checkpointId : CheckpointId) : RepositoryM V (CheckpointEnvelope V) := do
  let r ← MonadState.get
  match r.envelopes.get? checkpointId with
  | some env => pure env
  | none => throw (.notFound checkpointId "envelope")

def setEnvelope (env : CheckpointEnvelope V) : RepositoryM V (CheckpointEnvelope V) := do
  let r ← MonadState.get
  if r.envelopes.contains env.checkpointId then
    MonadState.set { r with envelopes := r.envelopes.set env.checkpointId env }
    pure env
  else
    throw (.notFound env.checkpointId "envelope")

/-- The envelope after a change of status at the instant `now`. -/
def stamped (env : CheckpointEnvelope V) (newStatus : CheckpointStatus) (now : Timestamp) :
    CheckpointEnvelope V :=
  { env with
    status := newStatus
    archivedAt := if newStatus = .archived then some now else env.archivedAt
    expiredAt := if newStatus = .expired then some now else env.expiredAt
    compactedAt := if newStatus = .compacted then some now else env.compactedAt }

/-- `_transition`: every target but `ACTIVE` takes the checkpoint off the active ones. -/
def transitionTo (checkpointId : CheckpointId) (target : CheckpointStatus) (now : Timestamp) :
    RepositoryM V (CheckpointEnvelope V) := do
  let r ← MonadState.get
  match r.lookup checkpointId with
  | none => throw (.notFound checkpointId "checkpoint")
  | some _ =>
    let env := (r.envelopes.get? checkpointId).getD { checkpointId, recordedAt := now }
    match transition checkpointId env.status target with
    | .error e => throw e
    | .ok newStatus =>
      let moved := if target = .active then r else r.shelve checkpointId
      let updated := stamped env newStatus now
      MonadState.set { moved with envelopes := moved.envelopes.set checkpointId updated }
      pure updated

def archive (checkpointId : CheckpointId) (now : Timestamp) :
    RepositoryM V (CheckpointEnvelope V) :=
  transitionTo checkpointId .archived now

def expire (checkpointId : CheckpointId) (now : Timestamp) :
    RepositoryM V (CheckpointEnvelope V) :=
  transitionTo checkpointId .expired now

def compact (checkpointId : CheckpointId) (now : Timestamp) :
    RepositoryM V (CheckpointEnvelope V) :=
  transitionTo checkpointId .compacted now

-- ------ Lookups

variable {r : InMemoryRepository V} {c : Checkpoint V} {now : Timestamp}

theorem append_of_none (h : r.lookup c.checkpointId = none) :
    r.append c now = .ok (r.insert c now) := by
  refine if_neg ?_
  unfold lookup at h
  split at h
  · cases h
  · next hActive =>
    unfold Dict.contains
    rw [hActive, h]
    simp

variable {d : Checkpoint V}

theorem append_of_some (h : r.lookup c.checkpointId = some d) :
    r.append c now = .error (.duplicateCheckpoint c.checkpointId) := by
  refine if_pos ?_
  unfold lookup at h
  unfold Dict.contains
  split at h
  · next hActive =>
    rw [hActive]
    simp
  · rw [h]
    simp

theorem lookup_of_active {id : CheckpointId} (h : r.active.get? id = some d) :
    r.lookup id = some d := by
  rw [lookup, h]

theorem lookup_insert (h : r.lookup c.checkpointId = none) {id : CheckpointId}
    (hd : r.lookup id = some d) : (r.insert c now).lookup id = some d := by
  have hId : id ≠ c.checkpointId := by
    intro hEq
    rw [hEq, h] at hd
    cases hd
  unfold lookup insert
  dsimp only
  rw [Dict.get?_set_ne _ _ hId]
  exact hd

theorem lookup_of_mem (h : d ∈ r.active.values) :
    r.lookup d.checkpointId = some d := by
  obtain ⟨id, hId⟩ := Dict.mem_values_iff.mp h
  rw [r.activeKeyed id d hId]
  exact lookup_of_active hId

theorem values_insert (h : r.lookup c.checkpointId = none) :
    (r.insert c now).active.values = r.active.values ++ [c] := by
  refine Dict.values_set_of_none ?_ c
  cases hActive : r.active.get? c.checkpointId with
  | none => rfl
  | some d =>
    rw [lookup_of_active hActive] at h
    cases h

theorem argmax_insert (h : r.lookup c.checkpointId = none) {p : Checkpoint V → Bool}
    (hc : p c = true) (now : Timestamp) :
    ((r.insert c now).active.values.filter p).argmax Checkpoint.timestamp = some c ↔
      ∀ d ∈ r.active.values, p d = true → d.timestamp < c.timestamp := by
  have hNew : c ∉ r.active.values.filter p := by
    intro hMem
    rw [lookup_of_mem (List.mem_filter.mp hMem).1] at h
    cases h
  rw [values_insert h, List.filter_append, List.filter_cons_of_pos hc, List.filter_nil,
    List.argmax_concat_eq_last hNew]
  simp only [List.mem_filter, and_imp]

theorem filter_insert (h : r.lookup c.checkpointId = none) {p : Checkpoint V → Bool}
    (hc : p c = false) :
    (r.insert c now).active.values.filter p = r.active.values.filter p := by
  rw [values_insert h, List.filter_append, List.filter_cons_of_neg (by simp [hc]), List.filter_nil,
    List.append_nil]

end InMemoryRepository

end Neuroswarm.Checkpoints
