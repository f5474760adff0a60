import Neuroswarm.Checkpoints.Repository

/-!
# Recovery planning

`runtime/swarm/checkpoint/recovery.py` and `planner.py`: resume / restart /
rollback-notify from the available checkpoints.

* `RecoveryPlanner.plan` — sorts the checkpoints of the failure's workflow and execution
  and plans from the latest.
* `decision_eq` — the latest is the first with the greatest time stamp.
* `outcome_eq_iff` — two failures have the same plan iff they agree in what the planner
  reads of them.
-/

namespace Neuroswarm.Checkpoints

structure RecoveryDecision where
  workflowId : String
  executionId : String
  strategy : RecoveryStrategy
  checkpointId : Option CheckpointId := none
  resumeNodeId : Option String := none
  resumeSubgraphId : Option String := none
  targetNodes : List String := []
  reason : String := ""
  rollbackNotify : Bool := false
  metadata : Dict String Nat := .empty
  deriving DecidableEq

structure RecoveryPlan extends RecoveryDecision where
  planId : String
  createdAt : Timestamp
  deriving DecidableEq

/-- `a or b` of two texts. -/
def orElse (a b : String) : String := if a ≠ "" then a else b

namespace RecoveryPlanner

variable {V : Type}

def resumeSubgraph (failure : FailureContext) (latest : Checkpoint V) (preferSubgraph : Bool) :
    Option String :=
  if preferSubgraph ∧ (truthy failure.subgraphId ∨ latest.graphSnapshot.isSome) then
    let subgraphId :=
      match failure.subgraphId with
      | some s => some s
      | none => latest.graphSnapshot.bind (·.subgraphId)
    if truthy subgraphId then subgraphId else none
  else
    none

def resumeNode (failure : FailureContext) (preferNode : Bool) : Option String :=
  if preferNode ∧ truthy failure.nodeId then failure.nodeId else none

def restart (failure : FailureContext) : RecoveryDecision :=
  { workflowId := failure.workflowId
    executionId := failure.executionId
    strategy := .restartWorkflow
    reason := orElse failure.reason "no_checkpoint_available"
    targetNodes := failure.failedNodes
    metadata := Dict.empty.set "available_checkpoints" 0 }

/-- Neither a subgraph nor a node: roll back, or resume from the checkpoint. -/
def fromProgress (failure : FailureContext) (latest : Checkpoint V) :
    Except CheckpointError RecoveryDecision :=
  if failure.failedNodes ≠ [] ∧ latest.executionSnapshot.isNone then
    .ok
      { workflowId := failure.workflowId
        executionId := failure.executionId
        strategy := .rollbackNotify
        checkpointId := some latest.checkpointId
        targetNodes := failure.failedNodes
        reason := failure.reason
        rollbackNotify := true }
  else if latest.checkpointId ≠ "" then
    .ok
      { workflowId := failure.workflowId
        executionId := failure.executionId
        strategy := .resumeCheckpoint
        checkpointId := some latest.checkpointId
        targetNodes :=
          match latest.executionSnapshot with
          | some snapshot => snapshot.completedNodes
          | none => failure.completedNodes
        reason := orElse failure.reason "resume_from_latest_checkpoint"
        rollbackNotify := failure.failedNodes ≠ [] }
  else
    .error (.recoveryPlanning "unable to produce recovery plan")

def fromLatest (failure : FailureContext) (latest : Checkpoint V)
    (preferNode preferSubgraph : Bool) : Except CheckpointError RecoveryDecision :=
  match resumeSubgraph failure latest preferSubgraph with
  | some subgraphId =>
    .ok
      { workflowId := failure.workflowId
        executionId := failure.executionId
        strategy := .resumeSubgraph
        checkpointId := some latest.checkpointId
        resumeSubgraphId := some subgraphId
        targetNodes := failure.failedNodes
        reason := failure.reason
        rollbackNotify := failure.failedNodes ≠ [] }
  | none =>
    match resumeNode failure preferNode with
    | some nodeId =>
      .ok
        { workflowId := failure.workflowId
          executionId := failure.executionId
          strategy := .resumeNode
          checkpointId := some latest.checkpointId
          resumeNodeId := some nodeId
          targetNodes := [nodeId]
          reason := failure.reason
          rollbackNotify := true }
    | none => fromProgress failure latest

def candidates (failure : FailureContext) (checkpoints : List (Checkpoint V)) :
    List (Checkpoint V) :=
  checkpoints.filter fun c =>
    c.workflowId = failure.workflowId ∧ c.executionId = failure.executionId

def decision (failure : FailureContext) (checkpoints : List (Checkpoint V))
    (preferNode preferSubgraph : Bool) : Except CheckpointError RecoveryDecision :=
  -- `sorted(active, key=lambda c: c.timestamp, reverse=True)` is stable
  match (candidates failure checkpoints).insertionSort fun c d => d.timestamp ≤ c.timestamp with
  | [] => .ok (restart failure)
  | latest :: _ => fromLatest failure latest preferNode preferSubgraph

def plan (failure : FailureContext) (checkpoints : List (Checkpoint V))
    (preferNode preferSubgraph : Bool) (planId : String) (now : Timestamp) :
    Except CheckpointError RecoveryPlan :=
  (decision failure checkpoints preferNode preferSubgraph).map
    fun d => { d with planId, createdAt := now }

-- ------ The latest checkpoint

/-- The checkpoint a plan is made from. -/
def latestFor (failure : FailureContext) (checkpoints : List (Checkpoint V)) :
    Option (Checkpoint V) :=
  (candidates failure checkpoints).argmax Checkpoint.timestamp

def outcome (failure : FailureContext) (latest : Option (Checkpoint V))
    (preferNode preferSubgraph : Bool) : Except CheckpointError RecoveryDecision :=
  match latest with
  | none => .ok (restart failure)
  | some c => fromLatest failure c preferNode preferSubgraph

theorem decision_eq (failure : FailureContext) (checkpoints : List (Checkpoint V))
    (preferNode preferSubgraph : Bool) :
    decision failure checkpoints preferNode preferSubgraph =
      outcome failure (latestFor failure checkpoints) preferNode preferSubgraph := by
  unfold decision latestFor
  rw [← List.head?_insertionSort]
  cases (candidates failure checkpoints).insertionSort fun c d => d.timestamp ≤ c.timestamp with
  | nil => rfl
  | cons c rest => rfl

theorem plan_toRecoveryDecision (f : FailureContext) (checkpoints : List (Checkpoint V))
    (preferNode preferSubgraph : Bool) (planId : String) (now : Timestamp) :
    (plan f checkpoints preferNode preferSubgraph planId now).map RecoveryPlan.toRecoveryDecision =
      outcome f (latestFor f checkpoints) preferNode preferSubgraph := by
  rw [← decision_eq, plan]
  cases decision f checkpoints preferNode preferSubgraph with
  | ok d => rfl
  | error e => rfl

-- ------ What a plan depends on

/-- Two failures agree in what the planner reads of them beside the ids and the reason. -/
def SameReading (latest : Option (Checkpoint V)) (preferNode preferSubgraph : Bool)
    (f g : FailureContext) : Prop :=
  match latest with
  | none => f.failedNodes = g.failedNodes
  | some c =>
    resumeSubgraph f c preferSubgraph = resumeSubgraph g c preferSubgraph ∧
    if (resumeSubgraph f c preferSubgraph).isSome then
      f.failedNodes = g.failedNodes
    else
      resumeNode f preferNode = resumeNode g preferNode ∧
      ((resumeNode f preferNode).isSome ∨
        if c.executionSnapshot.isSome then
          (f.failedNodes = [] ↔ g.failedNodes = [])
        else
          f.failedNodes = g.failedNodes ∧
            (f.failedNodes = [] → f.completedNodes = g.completedNodes))

theorem fromProgress_ok {f : FailureContext} {c : Checkpoint V} {d : RecoveryDecision}
    (h : fromProgress f c = .ok d) :
    d.workflowId = f.workflowId ∧ d.executionId = f.executionId ∧
      d.checkpointId = some c.checkpointId ∧ d.resumeSubgraphId = none ∧ d.resumeNodeId = none := by
  unfold fromProgress at h
  split at h
  · cases h
    exact ⟨rfl, rfl, rfl, rfl, rfl⟩
  · split at h
    · cases h
      exact ⟨rfl, rfl, rfl, rfl, rfl⟩
    · cases h

theorem fromLatest_ok {f : FailureContext} {c : Checkpoint V} {preferNode preferSubgraph : Bool}
    {d : RecoveryDecision} (h : fromLatest f c preferNode preferSubgraph = .ok d) :
    d.workflowId = f.workflowId ∧ d.executionId = f.executionId ∧
      d.checkpointId = some c.checkpointId ∧
      d.resumeSubgraphId = resumeSubgraph f c preferSubgraph ∧
      (d.resumeSubgraphId = none → d.resumeNodeId = resumeNode f preferNode) := by
  unfold fromLatest at h
  split at h
  · next s hs =>
    cases h
    exact ⟨rfl, rfl, rfl, hs.symm, fun h => nomatch h⟩
  · next hs =>
    split at h
    · next n hn =>
      cases h
      exact ⟨rfl, rfl, rfl, hs.symm, fun _ => hn.symm⟩
    · next hn =>
      obtain ⟨hWorkflow, hExecution, hId, hSubgraph, hNode⟩ := fromProgress_ok h
      exact ⟨hWorkflow, hExecution, hId, hSubgraph.trans hs.symm, fun _ => hNode.trans hn.symm⟩

theorem outcome_ids {f : FailureContext} {latest : Option (Checkpoint V)}
    {preferNode preferSubgraph : Bool} {d : RecoveryDecision}
    (h : outcome f latest preferNode preferSubgraph = .ok d) :
    d.workflowId = f.workflowId ∧ d.executionId = f.executionId ∧
      d.checkpointId = latest.map Checkpoint.checkpointId := by
  cases latest with
  | none =>
    cases h
    exact ⟨rfl, rfl, rfl⟩
  | some c =>
    obtain ⟨hWorkflow, hExecution, hId, -⟩ := fromLatest_ok h
    exact ⟨hWorkflow, hExecution, hId⟩

theorem outcome_resumeCheckpoint {f : FailureContext} {latest : Option (Checkpoint V)}
    {preferNode preferSubgraph : Bool} {d : RecoveryDecision}
    (h : outcome f latest preferNode preferSubgraph = .ok d)
    (hStrategy : d.strategy = .resumeCheckpoint) :
    ∃ c, latest = some c ∧ (f.failedNodes = [] ∨ c.executionSnapshot.isSome) ∧
      d.resumeNodeId = none ∧
      d.targetNodes = match c.executionSnapshot with
        | some snapshot => snapshot.completedNodes
        | none => f.completedNodes := by
  cases latest with
  | none =>
    cases h
    cases hStrategy
  | some c =>
    refine ⟨c, rfl, ?_⟩
    unfold outcome fromLatest fromProgress at h
    dsimp only at h
    split at h
    · cases h
      cases hStrategy
    · split at h
      · cases h
        cases hStrategy
      · split at h
        · cases h
          cases hStrategy
        · next hProgress =>
          split at h
          · cases h
            refine ⟨?_, rfl, rfl⟩
            by_cases hFailed : f.failedNodes = []
            · exact .inl hFailed
            · refine .inr (Option.isSome_iff_ne_none.mpr fun hNone => hProgress ⟨hFailed, ?_⟩)
              rw [hNone]
              rfl
          · cases h

section Agreement

variable {f g : FailureContext} {c : Checkpoint V} {d : RecoveryDecision}
  {preferNode preferSubgraph : Bool}

theorem fromProgress_eq_iff (hWorkflow : f.workflowId = g.workflowId)
    (hExecution : f.executionId = g.executionId) (hReason : f.reason = g.reason)
    (hg : fromProgress g c = .ok d) :
    fromProgress f c = .ok d ↔
      if c.executionSnapshot.isSome then
        (f.failedNodes = [] ↔ g.failedNodes = [])
      else
        f.failedNodes = g.failedNodes ∧
          (f.failedNodes = [] → f.completedNodes = g.completedNodes) := by
  unfold fromProgress at *
  cases hSnapshot : c.executionSnapshot with
  | some snapshot =>
    simp only [hSnapshot, Option.isNone_some, Bool.false_eq_true, and_false, if_false] at hg ⊢
    split at hg
    · next hId =>
      cases hg
      simp [hId, hWorkflow, hExecution, hReason]
    · cases hg
  | none =>
    simp only [hSnapshot, Option.isNone_none, and_true] at hg ⊢
    by_cases hGFailed : g.failedNodes = []
    · -- `g` is resumed from the checkpoint
      rw [if_neg (not_not.mpr hGFailed)] at hg
      split at hg
      · next hId =>
        cases hg
        by_cases hFFailed : f.failedNodes = []
        · simp [hFFailed, hGFailed, hId, hWorkflow, hExecution, hReason]
        · simp [hFFailed, hGFailed]
      · cases hg
    · rw [if_pos hGFailed] at hg
      cases hg
      by_cases hFFailed : f.failedNodes = []
      · by_cases hId : c.checkpointId = ""
        · simp [hFFailed, hId, Ne.symm hGFailed]
        · simp [hFFailed, hId, Ne.symm hGFailed]
      · simp [hFFailed, hWorkflow, hExecution, hReason]

/-- **When two failures have one plan**: they agree in what the planner reads. -/
theorem outcome_eq_iff {latest : Option (Checkpoint V)} (hWorkflow : f.workflowId = g.workflowId)
    (hExecution : f.executionId = g.executionId) (hReason : f.reason = g.reason)
    (hg : outcome g latest preferNode preferSubgraph = .ok d) :
    outcome f latest preferNode preferSubgraph = .ok d ↔
      SameReading latest preferNode preferSubgraph f g := by
  cases latest with
  | none =>
    cases hg
    simp [outcome, restart, SameReading, hWorkflow, hExecution, hReason]
  | some c =>
    show fromLatest f c preferNode preferSubgraph = .ok d ↔ _
    obtain ⟨-, -, -, hSubgraph, hNode⟩ := fromLatest_ok hg
    by_cases hSub : resumeSubgraph f c preferSubgraph = resumeSubgraph g c preferSubgraph
    · rw [SameReading, and_iff_right hSub]
      unfold outcome fromLatest at *
      rw [hSub]
      cases hRoute : resumeSubgraph g c preferSubgraph with
      | some s =>
        simp only [hRoute] at hg
        cases hg
        by_cases hFailed : f.failedNodes = g.failedNodes
        · simp [hFailed, hWorkflow, hExecution, hReason]
        · simp [hFailed]
      | none =>
        simp only [hRoute] at hg ⊢
        rw [if_neg (by simp)]
        -- no subgraph for either: compare the nodes
        by_cases hSame : resumeNode f preferNode = resumeNode g preferNode
        · rw [and_iff_right hSame, hSame]
          cases hNodeRoute : resumeNode g preferNode with
          | some n =>
            simp only [hNodeRoute] at hg
            cases hg
            simp [hWorkflow, hExecution, hReason]
          | none =>
            simp only [hNodeRoute] at hg
            rw [fromProgress_eq_iff hWorkflow hExecution hReason hg]
            simp
        · refine iff_of_false (fun hf => hSame ?_) fun h => hSame h.1
          have hNone : d.resumeSubgraphId = none := hSubgraph.trans hRoute
          have hf' : fromLatest f c preferNode preferSubgraph = .ok d := by
            unfold fromLatest
            rw [hSub, hRoute]
            exact hf
          exact ((fromLatest_ok hf').2.2.2.2 hNone).symm.trans (hNode hNone)
    · refine iff_of_false (fun hf => hSub ?_) fun h => hSub h.1
      exact (fromLatest_ok hf).2.2.2.1.symm.trans hSubgraph

end Agreement

end RecoveryPlanner

end Neuroswarm.Checkpoints
