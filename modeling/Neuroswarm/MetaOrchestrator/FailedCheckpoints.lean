import Neuroswarm.MetaOrchestrator.Checkpoint

/-!
# Meta orchestrator — checkpoints that fail

`CheckpointCoordinator.create` in its order: the status is moved, the record is dumped,
the snapshot is stored, the metadata is registered, the handle is built, the reference
is set, and the event is emitted. Any of these can raise, and nothing is taken back.

`step` swallows what `create` raises. A workflow that is complete then stands in
CHECKPOINTED, from which it cannot become COMPLETED.

* `failedCheckpoint_iff` — when a failed checkpoint changes nothing, and when the
  coordinator still finalizes.
-/

namespace Neuroswarm.MetaOrchestrator

open Swarm

-- ------ `CheckpointCoordinator.create`

/-- What a port returns, as far as the fields of `CheckpointHandle` tell values apart. -/
inductive Returned where
  | text (t : String)
  | none
  | other
  deriving DecidableEq, Repr

structure SnapshotPayload where
  executionJson : String
  completedNodes : List NodeId
  failedNodes : List NodeId
  skippedNodes : List NodeId

/-- `metadata`. -/
structure CheckpointMetadata where
  executionId : String
  workflowId : String
  completedNodes : List NodeId
  snapshotRef : Returned

structure CheckpointHandle where
  checkpointId : CheckpointId
  executionId : String
  snapshotRef : Option String
  completedNodes : List NodeId
  metadata : CheckpointMetadata

/-- What leaves `create`. -/
inductive CreateFailure where
  | lifecycle (f : Failure)
  /-- `SerializationError` -/
  | serialization (text : String)
  /-- raised by the store or the manager -/
  | port (text : String)
  /-- the fields of the handle -/
  | validation
  /-- raised by a subscriber of the event bus -/
  | subscriber (text : String)

/-- The collaborators of a `CheckpointCoordinator`; `newId` is what `new_id("ckpt_")` gives. -/
structure CheckpointPorts where
  dumps : WorkflowExecution → Except String String
  experienceStore : Option (SnapshotPayload → Except String Returned) := none
  checkpointManager : Option (CheckpointMetadata → Except String Returned) := none
  newId : CheckpointId
  emit : WorkflowExecution → CheckpointId → Except String Unit := fun _ _ => .ok ()

namespace CheckpointPorts

/-- `CheckpointHandle(...)`; both ids are validated. -/
def handle (ex : WorkflowExecution) (checkpointId : Returned) (metadata : CheckpointMetadata) :
    Except CreateFailure CheckpointHandle :=
  match checkpointId, metadata.snapshotRef with
  | .text checkpointId, .text ref =>
    .ok ⟨checkpointId, ex.executionId, some ref, ex.completedNodes, metadata⟩
  | .text checkpointId, .none =>
    .ok ⟨checkpointId, ex.executionId, Option.none, ex.completedNodes, metadata⟩
  | _, _ => .error .validation

/-- `create`, from the dump to the handle. -/
def persist (ports : CheckpointPorts) (ex : WorkflowExecution) :
    Except CreateFailure CheckpointHandle :=
  match ports.dumps ex with
  | .error text => .error (.serialization text)
  | .ok json =>
    let payload : SnapshotPayload := ⟨json, ex.completedNodes, ex.failedNodes, ex.skippedNodes⟩
    match ports.experienceStore.elim (.ok .none) fun storeSnapshot => storeSnapshot payload with
    | .error text => .error (.port text)
    | .ok snapshotRef =>
      let metadata : CheckpointMetadata :=
        ⟨ex.executionId, ex.workflowId, ex.completedNodes, snapshotRef⟩
      match ports.checkpointManager.elim (.ok (.text ports.newId)) fun create =>
          create metadata with
      | .error text => .error (.port text)
      | .ok checkpointId => handle ex checkpointId metadata

def create (ports : CheckpointPorts) (ex : WorkflowExecution) :
    WorkflowExecution × Except CreateFailure CheckpointHandle :=
  match ex.transition .checkpointed with
  | .error f => (ex, .error (.lifecycle f))
  | .ok ex =>
    match ports.persist ex with
    | .error f => (ex, .error f)
    | .ok handle =>
      let ex := { ex with checkpointReference := some handle.checkpointId }
      match ports.emit ex handle.checkpointId with
      | .error text => (ex, .error (.subscriber text))
      | .ok () => (ex, .ok handle)

/-- The branch of `step` for `auto_checkpoint`. -/
def autoCheckpoint (ports : CheckpointPorts) (ex : WorkflowExecution) : WorkflowExecution :=
  if ex.completedNodes ≠ [] ∧ ex.status ∉ terminalWorkflowStatuses then
    if ex.status ∈ [.running, .waiting, .ready] then
      match ports.create ex with
      | (ex, .error _) => ex
      | (ex, .ok _) =>
        if ex.status = .checkpointed then
          match ex.transition .restored with
          | .error _ => ex
          | .ok restored =>
            match restored.transition .running with
            | .error _ => restored
            | .ok running => running
        else ex
    else ex
  else ex

end CheckpointPorts

namespace Coordinator

/-- The end of `step`, after the branch for `auto_checkpoint`. -/
def settleTick (c : Coordinator) (ex : WorkflowExecution) : WorkflowExecution × Option Failure :=
  if ex.isComplete ∨ ex.shouldFail c.failFast then
    match ex.finalize c.failFast with
    | .error f => (ex, some f)
    | .ok ex => (ex, none)
  else if ex.currentNodes = [] ∧ ex.readyNodes ≠ [] then (ex.wake, none)
  else if ex.currentNodes = [] ∧ ex.pendingNodes ≠ [] ∧ ex.readyNodes = [] then
    (if ex.status = .running then { ex with status := .waiting } else ex, none)
  else if ex.currentNodes ≠ [] ∨ ex.readyNodes ≠ [] then (ex.wake, none)
  else (ex, none)

end Coordinator

-- ------ What a failure leaves

/-- Status and reference are those of before, and whatever `finalize` would have made of the
execution it still makes of it. -/
structure Untouched (failFast : Bool) (ex after : WorkflowExecution) : Prop where
  status : after.status = ex.status
  reference : after.checkpointReference = ex.checkpointReference
  finalizes : ∀ final, ex.finalize failFast = .ok final →
    ∃ final', after.finalize failFast = .ok final' ∧ final'.status = final.status

/-- The status cannot be moved, or it is CHECKPOINTED already and what is persisted, if anything,
has the id of the reference. -/
def Spared (ports : CheckpointPorts) (ex : WorkflowExecution) : Prop :=
  ¬ Checkpointable ex ∨
    ex.status = .checkpointed ∧ ∀ handle, ports.persist ex = .ok handle →
      ex.checkpointReference = some handle.checkpointId

def WorkflowExecution.marked (ex : WorkflowExecution) (reference : Option String) :
    WorkflowExecution :=
  { ex with status := .checkpointed, checkpointReference := reference }

/-- `step` makes a checkpoint when `auto_checkpoint` is on. -/
def AutoCheckpoints (ex : WorkflowExecution) : Prop :=
  ex.completedNodes ≠ [] ∧ ex.status ∈ [.running, .waiting, .ready]

section

variable {ports : CheckpointPorts} {ex : WorkflowExecution} {f : CreateFailure}

theorem transition_checkpointable (h : Checkpointable ex) :
    ex.transition .checkpointed = .ok (ex.marked ex.checkpointReference) := by
  unfold WorkflowExecution.transition
  split
  · next hSame =>
    unfold WorkflowExecution.marked
    rw [← hSame]
  · next hNot =>
    rw [if_pos (h.resolve_left hNot)]
    rfl

theorem transition_not_checkpointable (h : ¬ Checkpointable ex) :
    ∃ f, ex.transition .checkpointed = .error f := by
  obtain ⟨hSame, hAllowed⟩ := not_or.mp h
  unfold WorkflowExecution.transition
  rw [if_neg hSame, if_neg hAllowed]
  exact ⟨_, rfl⟩

theorem create_cases (ports : CheckpointPorts) (ex : WorkflowExecution) :
    (¬ Checkpointable ex ∧ (ports.create ex).1 = ex) ∨
    Checkpointable ex ∧
      ((∃ g, ports.persist (ex.marked ex.checkpointReference) = .error g) ∧
          (ports.create ex).1 = ex.marked ex.checkpointReference ∨
        ∃ handle, ports.persist (ex.marked ex.checkpointReference) = .ok handle ∧
          (ports.create ex).1 = ex.marked (some handle.checkpointId)) := by
  by_cases h : Checkpointable ex
  · refine .inr ⟨h, ?_⟩
    unfold CheckpointPorts.create
    rw [transition_checkpointable h]
    dsimp only
    cases hPersist : ports.persist (ex.marked ex.checkpointReference) with
    | error g => exact .inl ⟨⟨g, rfl⟩, rfl⟩
    | ok handle =>
      refine .inr ⟨handle, rfl, ?_⟩
      dsimp only
      split
      · rfl
      · rfl
  · refine .inl ⟨h, ?_⟩
    obtain ⟨g, hEq⟩ := transition_not_checkpointable h
    unfold CheckpointPorts.create
    rw [hEq]

theorem marked_self (h : ex.status = .checkpointed) : ex.marked ex.checkpointReference = ex := by
  unfold WorkflowExecution.marked
  rw [← h]

theorem Untouched.refl (failFast : Bool) (ex : WorkflowExecution) : Untouched failFast ex ex :=
  ⟨rfl, rfl, fun final hFinal => ⟨final, hFinal, rfl⟩⟩

theorem untouched_iff (failFast : Bool) (ports : CheckpointPorts) (ex : WorkflowExecution) :
    Untouched failFast ex (ports.create ex).1 ↔ Spared ports ex := by
  rcases create_cases ports ex with
    ⟨hNot, hEq⟩ | ⟨hMoved, ⟨⟨g, hPersist⟩, hEq⟩ | ⟨handle, hPersist, hEq⟩⟩
  · rw [hEq]
    exact iff_of_true (.refl failFast ex) (.inl hNot)
  · rw [hEq]
    constructor
    · intro h
      have hStatus : ex.status = .checkpointed := h.status.symm
      refine .inr ⟨hStatus, fun handle hOk => ?_⟩
      rw [marked_self hStatus, hOk] at hPersist
      cases hPersist
    · rintro (hNot | ⟨hStatus, -⟩)
      · exact absurd hMoved hNot
      · rw [marked_self hStatus]
        exact .refl failFast ex
  · rw [hEq]
    constructor
    · intro h
      have hStatus : ex.status = .checkpointed := h.status.symm
      refine .inr ⟨hStatus, fun handle' hOk => ?_⟩
      rw [marked_self hStatus, hOk] at hPersist
      cases hPersist
      exact h.reference.symm
    · rintro (hNot | ⟨hStatus, hSame⟩)
      · exact absurd hMoved hNot
      · rw [marked_self hStatus] at hPersist
        rw [← hSame handle hPersist, marked_self hStatus]
        exact .refl failFast ex

theorem finalize_marked {failFast : Bool} (reference : Option String)
    (hDone : ex.isComplete ∨ ex.shouldFail failFast) {final : WorkflowExecution}
    (hFinal : ex.finalize failFast = .ok final) :
    (∃ final', (ex.marked reference).finalize failFast = .ok final' ∧
        final'.status = final.status) ↔ final.status ≠ .completed := by
  have hFails : (ex.marked reference).shouldFail failFast = ex.shouldFail failFast := rfl
  have hComplete : (ex.marked reference).isComplete = ex.isComplete := rfl
  have hCancels : (ex.marked reference).cancelRequested = ex.cancelRequested := rfl
  unfold WorkflowExecution.finalize at hFinal ⊢
  rw [hFails, hComplete, hCancels]
  split at hFinal
  · next hCancel =>
    rw [if_pos hCancel, WorkflowExecution.transition_ok hFinal]
    exact iff_of_true ⟨_, rfl, rfl⟩ nofun
  · next hCancel =>
    rw [if_neg hCancel]
    split at hFinal
    · next hFail =>
      rw [if_pos hFail, WorkflowExecution.transition_ok hFinal]
      exact iff_of_true ⟨_, rfl, rfl⟩ nofun
    · next hFail =>
      have hAll := hDone.resolve_right hFail
      rw [if_pos hAll] at hFinal
      rw [if_neg hFail, if_pos hAll, WorkflowExecution.transition_ok hFinal]
      refine iff_of_false ?_ fun h => h rfl
      rintro ⟨final', hOk, -⟩
      cases hOk

theorem autoCheckpoint_failed (hAuto : AutoCheckpoints ex)
    (hRaises : (ports.create ex).2 = .error f) :
    ∃ reference, ports.autoCheckpoint ex = ex.marked reference := by
  have hStatus : ex.status ∉ terminalWorkflowStatuses ∧ Checkpointable ex := by
    have hMem := hAuto.2
    unfold Checkpointable
    generalize ex.status = status at hMem ⊢
    cases status <;> revert hMem <;> decide
  have hEq : ports.autoCheckpoint ex = (ports.create ex).1 := by
    unfold CheckpointPorts.autoCheckpoint
    rw [if_pos ⟨hAuto.1, hStatus.1⟩, if_pos hAuto.2]
    generalize ports.create ex = created at hRaises
    obtain ⟨after, result⟩ := created
    cases hRaises
    rfl
  rw [hEq]
  rcases create_cases ports ex with ⟨hNot, -⟩ | ⟨-, ⟨-, hLeft⟩ | ⟨handle, -, hLeft⟩⟩
  · exact absurd hStatus.2 hNot
  · exact ⟨_, hLeft⟩
  · exact ⟨_, hLeft⟩

/-- **Failed checkpoints.** A checkpoint that raises leaves status and reference iff the status
could not be moved, or was CHECKPOINTED and the reference is not set anew; and the coordinator
that swallowed the exception finalizes the workflow as it would have iff it does not complete. -/
theorem failedCheckpoint_iff (c : Coordinator) (hRaises : (ports.create ex).2 = .error f) :
    (Untouched c.failFast ex (ports.create ex).1 ↔ Spared ports ex) ∧
    (AutoCheckpoints ex → (ex.isComplete ∨ ex.shouldFail c.failFast) →
      ∀ final, ex.finalize c.failFast = .ok final →
        ((∃ final', c.settleTick (ports.autoCheckpoint ex) = (final', none) ∧
          final'.status = final.status) ↔ final.status ≠ .completed)) := by
  refine ⟨untouched_iff c.failFast ports ex, fun hAuto hDone final hFinal => ?_⟩
  obtain ⟨reference, hEq⟩ := autoCheckpoint_failed hAuto hRaises
  have hMarked : (ex.marked reference).isComplete ∨ (ex.marked reference).shouldFail c.failFast :=
    hDone
  rw [hEq, ← finalize_marked reference hDone hFinal]
  unfold Coordinator.settleTick
  rw [if_pos hMarked]
  cases (ex.marked reference).finalize c.failFast with
  | error g => exact iff_of_false (fun ⟨_, hOk, _⟩ => by cases hOk) fun ⟨_, hOk, _⟩ => by cases hOk
  | ok left =>
    constructor
    · rintro ⟨final', hOk, hSame⟩
      cases hOk
      exact ⟨left, rfl, hSame⟩
    · rintro ⟨final', hOk, hSame⟩
      cases hOk
      exact ⟨left, rfl, hSame⟩

end

/-- `a` is completed, the workflow runs. -/
def finished : WorkflowExecution :=
  { WorkflowExecution.bindWorkflow "wf" "ex" lone .plain ["w"] with
    pendingNodes := [], completedNodes := ["a"], status := .running }

/-- The manager cannot persist anything. -/
def failing : CheckpointPorts where
  dumps _ := .ok "\x7b\x7d"
  checkpointManager := some fun _ => .error "disk full"
  newId := "ckpt_1"

theorem failedCheckpoint_iff_checkpointed :
    Untouched false { finished with status := .checkpointed }
      (failing.create { finished with status := .checkpointed }).1 :=
  (failedCheckpoint_iff {} (f := .port "disk full") rfl).1.mpr (.inr ⟨rfl, fun _ h => by cases h⟩)

/-- The manager raises; the workflow is complete and stays CHECKPOINTED. -/
theorem not_untouched_finished :
    ¬ ∀ (ports : CheckpointPorts) (ex : WorkflowExecution) (f : CreateFailure),
      (ports.create ex).2 = .error f → Untouched false ex (ports.create ex).1 := by
  intro h
  exact absurd (h failing finished (.port "disk full") rfl).status (by decide)

end Neuroswarm.MetaOrchestrator
