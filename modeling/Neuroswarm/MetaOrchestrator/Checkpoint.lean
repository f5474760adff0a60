import Neuroswarm.MetaOrchestrator.Executions

/-!
# Meta orchestrator — checkpoints

`CheckpointCoordinator` over its two ports. A checkpoint keeps the record of the
execution, `current_nodes` with it; what the dispatcher has in flight is not part
of it. What the ports answer are arguments, and so is whether `TaskGraph.model_validate`
accepts the dump of a graph.

* `resumes_iff` — a restored execution resumes what was running exactly if nothing was.
* `resumes_along_iff` — along every run, restarts included.
-/

namespace Neuroswarm.MetaOrchestrator

open Swarm

abbrev CheckpointId := String

-- ------ `CheckpointCoordinator`

/-- `snapshot_payload`; `execution_json` as the record that is dumped in it. -/
structure Snapshot where
  executionJson : WorkflowExecution
  completedNodes : List NodeId
  failedNodes : List NodeId
  skippedNodes : List NodeId

/-- What leaves `create` and `restore`. -/
inductive CheckpointFailure where
  | lifecycle (f : Failure)
  /-- `CheckpointCoordinationError("restore failed: …")` -/
  | coordination (text : String) (checkpointId : CheckpointId)
  /-- raised by the checkpoint manager, or by the store in `create` -/
  | port (text : String)

/-- What a port returns for a checkpoint. -/
inductive Payload where
  | none
  /-- a dict without `execution_json` -/
  | other
  | snapshot (s : Snapshot)

/-- `loads(dumps(execution))`: the context stays a dict. -/
def loads (validates : TaskGraph → Bool) (ex : WorkflowExecution) : WorkflowExecution :=
  { ex with
    graph :=
      match ex.graph with
      | .graph g => if validates g then .graph g else .dict g.ids
      | .dict nodeIds => .dict nodeIds
    context := .plain }

namespace WorkflowExecution

/-- `create(execution)`; `stored` is the id the ports give, or what one of them raises. -/
def createCheckpoint (ex : WorkflowExecution) (stored : Except String CheckpointId) :
    WorkflowExecution × Except CheckpointFailure Snapshot :=
  match ex.transition .checkpointed with
  | .error f => (ex, .error (.lifecycle f))
  | .ok ex =>
    match stored with
    | .error text => (ex, .error (.port text))
    | .ok checkpointId =>
      ({ ex with checkpointReference := some checkpointId },
        .ok
          { executionJson := ex
            completedNodes := ex.completedNodes
            failedNodes := ex.failedNodes
            skippedNodes := ex.skippedNodes })

def normalize (ex : WorkflowExecution) (checkpointId : CheckpointId) : WorkflowExecution :=
  { ex with
    checkpointReference := some checkpointId
    status := if ex.status = .running then .checkpointed else ex.status }

/-- `restore`, with an `execution_json`: a new record. -/
def restoreSnapshot (validates : TaskGraph → Bool) (s : Snapshot) (checkpointId : CheckpointId) :
    Except CheckpointFailure WorkflowExecution :=
  match ((loads validates s.executionJson).normalize checkpointId).transition .restored with
  | .error f => .error (.lifecycle f)
  | .ok restored =>
    match restored.transition .ready with
    | .error _ => .ok restored
    | .ok ready => .ok ready

/-- `restore`, without one: the record that was given. -/
def restoreInPlace (ex : WorkflowExecution) (checkpointId : CheckpointId) :
    WorkflowExecution × Except CheckpointFailure WorkflowExecution :=
  match (ex.normalize checkpointId).transition .restored with
  | .error f => (ex.normalize checkpointId, .error (.lifecycle f))
  | .ok restored => (restored, .ok restored)

end WorkflowExecution

/-- The payload of `restore`: what the manager returns, else what the store returns. -/
def findPayload (manager : Except String Payload) (store : Except String Payload)
    (checkpointId : CheckpointId) : Except CheckpointFailure Payload :=
  match manager with
  | .error text => .error (.port text)
  | .ok .none =>
    match store with
    | .error text => .error (.coordination s!"restore failed: {text}" checkpointId)
    | .ok payload => .ok payload
  | .ok payload => .ok payload

-- ------ An orchestrator with checkpoints

inductive Event (ι : Type*) where
  | act (i : ι) (action : Action)
  /-- `checkpoint(execution)` -/
  | checkpoint (i : ι) (stored : Except String CheckpointId)
  /-- `restore(execution, checkpoint_id)` of the execution `i`; a new record becomes that of `j` -/
  | restore (i j : ι) (checkpointId : CheckpointId) (manager store : Except String Payload)
  /-- another process, with new executions on a new orchestrator -/
  | restart

namespace World

variable {ι : Type*} [DecidableEq ι]

def setExecution (w : World ι) (i : ι) (ex : WorkflowExecution) : World ι :=
  { w with party := Function.update w.party i { w.party i with execution := ex } }

/-- One event; `opened` is what a new process starts with. -/
def handle (c : Coordinator) (validates : TaskGraph → Bool) (opened w : World ι) :
    Event ι → World ι
  | .act i action => w.act c (i, action)
  | .checkpoint i stored =>
    w.setExecution i ((w.party i).execution.createCheckpoint stored).1
  | .restore i j checkpointId manager store =>
    match findPayload manager store checkpointId with
    | .error _ => w
    | .ok (.snapshot s) =>
      match WorkflowExecution.restoreSnapshot validates s checkpointId with
      | .error _ => w
      -- no coroutine coordinates the new record yet
      | .ok restored => { w with party := Function.update w.party j { execution := restored } }
    | .ok _ => w.setExecution i ((w.party i).execution.restoreInPlace checkpointId).1
  | .restart => opened

end World

-- ------ Restored executions

/-- The statuses that may become CHECKPOINTED. -/
def Checkpointable (ex : WorkflowExecution) : Prop :=
  ex.status = .checkpointed ∨ .checkpointed ∈ workflowTransitions ex.status

/-- `ex` is checkpointed, and `restored` is what a restore of that checkpoint gives: from the
snapshot, or in place when the ports have kept none. -/
inductive Restores (validates : TaskGraph → Bool) (ex : WorkflowExecution) :
    WorkflowExecution → Prop
  | snapshot {checkpointId : CheckpointId} {ex' restored : WorkflowExecution} {s : Snapshot}
    (hCreate : ex.createCheckpoint (.ok checkpointId) = (ex', .ok s))
    (hRestore : WorkflowExecution.restoreSnapshot validates s checkpointId = .ok restored) :
    Restores validates ex restored
  | inPlace {checkpointId : CheckpointId} {ex' restored : WorkflowExecution} {s : Snapshot}
    (hCreate : ex.createCheckpoint (.ok checkpointId) = (ex', .ok s))
    (hRestore : (ex'.restoreInPlace checkpointId).2 = .ok restored) : Restores validates ex restored

/-- Nothing but its predecessors and its conditions can keep `n` from being ready. -/
structure Eligible (ex : WorkflowExecution) (n : NodeId) : Prop where
  notDone : n ∉ ex.sets.done
  notBlocked : n ∉ ex.sets.blocked

/-- What is current has a request in flight, and what was running can be dispatched again. -/
structure Resumes (sh : Shared) (running : List NodeId) (ex : WorkflowExecution) : Prop where
  inFlight : ∀ n ∈ ex.currentNodes, ∃ r req, sh.inflight.get? r = some req ∧
    req.executionId = ex.executionId ∧ req.nodeId = n
  eligible : ∀ n ∈ running, Eligible ex n

section

variable {validates : TaskGraph → Bool} {ex ex' restored : WorkflowExecution}

theorem not_eligible_of_current {n : NodeId} (h : n ∈ ex.currentNodes) : ¬ Eligible ex n :=
  fun hEligible => hEligible.notBlocked (NodeSets.mem_blocked.mpr (.inr h))

theorem createCheckpoint_ok {checkpointId : CheckpointId} {s : Snapshot}
    (h : ex.createCheckpoint (.ok checkpointId) = (ex', .ok s)) :
    Checkpointable ex ∧ s.executionJson = { ex with status := .checkpointed } ∧
      ex' = { ex with status := .checkpointed, checkpointReference := some checkpointId } := by
  unfold WorkflowExecution.createCheckpoint at h
  split at h
  · cases h
  · next marked hMarked =>
    have hEq := WorkflowExecution.transition_ok hMarked
    subst hEq
    cases h
    refine ⟨?_, rfl, rfl⟩
    unfold WorkflowExecution.transition at hMarked
    split at hMarked
    · next hSame => exact .inl hSame
    · split at hMarked
      · next hAllowed => exact .inr hAllowed
      · cases hMarked

theorem createCheckpoint_of_checkpointable (h : Checkpointable ex) (checkpointId : CheckpointId) :
    ∃ ex' s, ex.createCheckpoint (.ok checkpointId) = (ex', .ok s) := by
  have hMarked : ∃ marked, ex.transition .checkpointed = .ok marked := by
    unfold WorkflowExecution.transition
    rcases h with hSame | hAllowed
    · exact ⟨ex, if_pos hSame⟩
    · by_cases hSame : ex.status = .checkpointed
      · exact ⟨ex, if_pos hSame⟩
      · rw [if_neg hSame, if_pos hAllowed]
        exact ⟨_, rfl⟩
  obtain ⟨marked, hMarked⟩ := hMarked
  unfold WorkflowExecution.createCheckpoint
  rw [hMarked]
  exact ⟨_, _, rfl⟩

theorem restoreInPlace_of_checkpointed (h : ex.status = .checkpointed) (checkpointId : CheckpointId) :
    (ex.restoreInPlace checkpointId).2 =
      .ok { ex with status := .restored, checkpointReference := some checkpointId } := by
  have hStatus : (ex.normalize checkpointId).status = .checkpointed := by
    unfold WorkflowExecution.normalize
    rw [h]
    rfl
  unfold WorkflowExecution.restoreInPlace WorkflowExecution.transition
  rw [hStatus]
  rfl

structure TakesOver (validates : TaskGraph → Bool) (ex restored : WorkflowExecution) : Prop where
  executionId : restored.executionId = ex.executionId
  sets : restored.sets = ex.sets
  pending : restored.pendingNodes = ex.pendingNodes
  graph : ∀ g, ex.graph = .graph g → validates g = true → restored.graph = .graph g

namespace TakesOver

theorem trans {ex'' : WorkflowExecution} (h : TakesOver validates ex ex')
    (h' : TakesOver validates ex' ex'') : TakesOver validates ex ex'' where
  executionId := h'.executionId.trans h.executionId
  sets := h'.sets.trans h.sets
  pending := h'.pending.trans h.pending
  graph g hGraph hValid := h'.graph g (h.graph g hGraph hValid) hValid

theorem current (h : TakesOver validates ex ex') : ex'.currentNodes = ex.currentNodes :=
  congrArg NodeSets.running h.sets

theorem completed (h : TakesOver validates ex ex') : ex'.completedNodes = ex.completedNodes :=
  congrArg NodeSets.completed h.sets

theorem skipped (h : TakesOver validates ex ex') : ex'.skippedNodes = ex.skippedNodes :=
  congrArg NodeSets.skipped h.sets

theorem loads (ex : WorkflowExecution) : TakesOver validates ex (loads validates ex) where
  executionId := rfl
  sets := rfl
  pending := rfl
  graph g hGraph hValid := by
    unfold MetaOrchestrator.loads
    rw [hGraph]
    exact if_pos hValid

theorem normalize (ex : WorkflowExecution) (checkpointId : CheckpointId) :
    TakesOver validates ex (ex.normalize checkpointId) :=
  ⟨rfl, rfl, rfl, fun _ hGraph _ => hGraph⟩

theorem transition {target : WorkflowStatus} (h : ex.transition target = .ok ex') :
    TakesOver validates ex ex' := by
  rw [WorkflowExecution.transition_ok h]
  exact ⟨rfl, rfl, rfl, fun _ hGraph _ => hGraph⟩

theorem restoreSnapshot {s : Snapshot} {checkpointId : CheckpointId}
    (h : WorkflowExecution.restoreSnapshot validates s checkpointId = .ok restored) :
    TakesOver validates s.executionJson restored := by
  unfold WorkflowExecution.restoreSnapshot at h
  split at h
  · cases h
  · next hRestored =>
    have hTakes := ((loads s.executionJson).trans (normalize _ checkpointId)).trans
      (transition hRestored)
    split at h
    · cases h
      exact hTakes
    · next hReady =>
      cases h
      exact hTakes.trans (transition hReady)

theorem restoreInPlace {checkpointId : CheckpointId}
    (h : (ex.restoreInPlace checkpointId).2 = .ok restored) : TakesOver validates ex restored := by
  unfold WorkflowExecution.restoreInPlace at h
  split at h
  · cases h
  · next hRestored =>
    cases h
    exact (normalize ex checkpointId).trans (transition hRestored)

end TakesOver

namespace Restores

theorem checkpointable (h : Restores validates ex restored) : Checkpointable ex := by
  cases h with
  | snapshot hCreate hRestore => exact (createCheckpoint_ok hCreate).1
  | inPlace hCreate hRestore => exact (createCheckpoint_ok hCreate).1

theorem takesOver (h : Restores validates ex restored) : TakesOver validates ex restored := by
  cases h with
  | snapshot hCreate hRestore =>
    obtain ⟨-, hJson, -⟩ := createCheckpoint_ok hCreate
    have hTakes := TakesOver.restoreSnapshot hRestore
    rw [hJson] at hTakes
    exact ⟨hTakes.executionId, hTakes.sets, hTakes.pending, hTakes.graph⟩
  | @inPlace _ ex' _ _ hCreate hRestore =>
    obtain ⟨-, -, hMarked⟩ := createCheckpoint_ok hCreate
    have hTakes : TakesOver validates ex' restored := .restoreInPlace hRestore
    rw [hMarked] at hTakes
    exact ⟨hTakes.executionId, hTakes.sets, hTakes.pending, hTakes.graph⟩

theorem of_checkpointable (validates : TaskGraph → Bool) (h : Checkpointable ex) :
    ∃ restored, Restores validates ex restored := by
  obtain ⟨ex', s, hCreate⟩ := createCheckpoint_of_checkpointable h "ckpt"
  have hMarked : ex'.status = .checkpointed := by rw [(createCheckpoint_ok hCreate).2.2]
  exact ⟨_, .inPlace hCreate (restoreInPlace_of_checkpointed hMarked "ckpt")⟩

end Restores

/-- **One checkpoint.** Whatever is in flight when it is restored, the execution resumes what was
running exactly if nothing was. -/
theorem resumes_iff (h : Restores validates ex restored) (sh : Shared) :
    Resumes sh ex.currentNodes restored ↔ ex.currentNodes = [] := by
  have hCurrent := h.takesOver.current
  constructor
  · intro hResumes
    refine List.eq_nil_iff_forall_not_mem.mpr fun n hn => ?_
    exact not_eligible_of_current (hCurrent ▸ hn) (hResumes.eligible n hn)
  · intro hNone
    rw [hNone] at hCurrent
    constructor
    · intro n hn
      rw [hCurrent] at hn
      cases hn
    · intro n hn
      rw [hNone] at hn
      cases hn

end

-- ------ Runs

/-- **Restored executions.** All along a run every execution that is checkpointed and restored
resumes what was running if and only if no node is running in any execution that may be
checkpointed. -/
theorem resumes_along_iff {ι : Type*} [DecidableEq ι] (c : Coordinator) (validates : TaskGraph → Bool)
    (workflowIds executionIds : ι → String) (graphs : ι → TaskGraph) (contexts : ι → Context)
    (agents : ι → List String) (events : List (Event ι)) (sh : Shared) :
    Run.Along (World.handle c validates (.opened workflowIds executionIds graphs contexts agents))
        (fun w => ∀ i restored, Restores validates (w.party i).execution restored →
          Resumes sh (w.party i).execution.currentNodes restored)
        (.opened workflowIds executionIds graphs contexts agents) events ↔
      Run.Along (World.handle c validates (.opened workflowIds executionIds graphs contexts agents))
        (fun w => ∀ i, Checkpointable (w.party i).execution →
          (w.party i).execution.currentNodes = [])
        (.opened workflowIds executionIds graphs contexts agents) events := by
  simp only [Run.along_iff_take]
  refine forall₂_congr fun n i => ?_
  constructor
  · intro h hCheckpointable
    obtain ⟨restored, hRestores⟩ := Restores.of_checkpointable validates hCheckpointable
    exact (resumes_iff hRestores sh).mp (h restored hRestores)
  · intro h restored hRestores
    exact (resumes_iff hRestores sh).mpr (h hRestores.checkpointable)

-- ------ A checkpoint while a node runs

def loneWorld : World Unit :=
  .opened (fun _ => "wf") (fun _ => "ex") (fun _ => lone) (fun _ => .plain) fun _ => ["w"]

/-- `a` is running, and would not be dispatched again. -/
theorem not_resumes_lone :
    ¬ Run.Along (World.handle {} (fun _ => true) loneWorld)
      (fun w => ∀ i restored, Restores (fun _ => true) (w.party i).execution restored →
        Resumes {} (w.party i).execution.currentNodes restored)
      loneWorld [.act () .start, .act () .advance, .act () (.submitted "r1")] := by
  intro h
  have hCheckpointable : Checkpointable ((Run.exec (World.handle {} (fun _ => true) loneWorld)
      loneWorld [.act () .start, .act () .advance, .act () (.submitted "r1")]).party ()).execution :=
    .inr (by decide +kernel)
  obtain ⟨restored, hRestores⟩ := Restores.of_checkpointable (fun _ => true) hCheckpointable
  have hNone := (resumes_iff hRestores {}).mp (h.exec () restored hRestores)
  revert hNone
  decide +kernel

end Neuroswarm.MetaOrchestrator
