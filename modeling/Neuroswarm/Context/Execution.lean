import Neuroswarm.Context.Budget
import Neuroswarm.Swarm.Types

/-!
# Swarm context — execution

`ExecutionContext` with its marks, `child` and `merge_execution`. What the source
types as `Any` is of one type `α` whose equality is Python's; `metadata` is left
out. The time a mark is made at and the fresh run id of a child are arguments.

* `nodeStatuses_mark`, `nodeResults_mark` — a mark is about its own node.
-/

namespace Neuroswarm.Context

open Swarm

structure TimelineEvent where
  nodeId : String := ""
  status : String := ""
  timestamp : ℕ
  detail : String := ""
  deriving DecidableEq, Repr

structure NodeFailure where
  nodeId : String
  error : String := ""
  attempt : ℤ := 0
  timestamp : ℕ
  deriving DecidableEq, Repr

/-- Mutable execution view shared across agents. -/
structure ExecutionContext (α : Type*) where
  runId : String := ""
  numaNode : Option ℤ := none
  poolHint : String := ""
  timeoutS : Option ℚ≥0 := none
  baggage : Dict String α := .empty
  availableTools : List String := []
  availableModels : List String := []
  confidence : Option ℚ := none
  currentNode : Option String := none
  currentAgent : Option String := none
  completedNodes : List NodeId := []
  pendingNodes : List NodeId := []
  failedNodes : List NodeId := []
  retries : Dict NodeId ℤ := .empty
  failures : List NodeFailure := []
  checkpointIds : List String := []
  timeline : List TimelineEvent := []
  nodeResults : Dict NodeId α := .empty
  nodeStatuses : Dict NodeId String := .empty
  depth : ℕ := 0

namespace ExecutionContext

variable {α : Type*}

def markCompleted (ex : ExecutionContext α) (now : ℕ) (nodeId : NodeId) (result : Option α)
    (status : String) : ExecutionContext α :=
  { ex with
    completedNodes :=
      if nodeId ∈ ex.completedNodes then ex.completedNodes else ex.completedNodes ++ [nodeId]
    pendingNodes := ex.pendingNodes.filter (· ≠ nodeId)
    nodeResults :=
      match result with
      | some r => ex.nodeResults.set nodeId r
      | none => ex.nodeResults
    nodeStatuses := ex.nodeStatuses.set nodeId status
    timeline := ex.timeline ++
      [{ nodeId := nodeId, status := status, timestamp := now, detail := "completed" }]
    currentNode := some nodeId }

def markFailed (ex : ExecutionContext α) (now : ℕ) (nodeId : NodeId) (error : String)
    (attempt : ℤ) : ExecutionContext α :=
  { ex with
    failedNodes := if nodeId ∈ ex.failedNodes then ex.failedNodes else ex.failedNodes ++ [nodeId]
    failures := ex.failures ++
      [{ nodeId := nodeId, error := error, attempt := attempt, timestamp := now }]
    retries := ex.retries.set nodeId ((ex.retries.get? nodeId).getD 0 + 1)
    nodeStatuses := ex.nodeStatuses.set nodeId "FAILED"
    timeline := ex.timeline ++
      [{ nodeId := nodeId, status := "FAILED", timestamp := now, detail := error }]
    currentNode := some nodeId }

def child (ex : ExecutionContext α) (runId : String) : ExecutionContext α :=
  { ex with runId := runId, depth := ex.depth + 1, timeline := [] }

end ExecutionContext

-- ------ `merge_execution`

section

variable {α : Type*} [DecidableEq α]

/-- `retries` of a merge: the larger count of both sides. -/
def mergeRetries (parent child : Dict NodeId ℤ) : Dict NodeId ℤ :=
  child.entries.foldl (fun out e => out.set e.1 (max ((out.get? e.1).getD 0) e.2)) parent

/-- `merge_execution(parent, child, policy=policy)`; the policy is for the baggage alone. -/
def mergeExecution (parent child : ExecutionContext α) (policy : ConflictPolicy) :
    Except ContextError (ExecutionContext α) :=
  match mergeDict parent.baggage child.baggage policy "baggage" with
  | .error e => .error e
  | .ok baggage =>
    .ok
      { runId := orText child.runId parent.runId
        numaNode := child.numaNode.or parent.numaNode
        poolHint := orText child.poolHint parent.poolHint
        timeoutS := child.timeoutS.or parent.timeoutS
        baggage := baggage
        availableTools := unionList parent.availableTools child.availableTools
        availableModels := unionList parent.availableModels child.availableModels
        confidence := child.confidence.or parent.confidence
        currentNode := orOptional child.currentNode parent.currentNode
        currentAgent := orOptional child.currentAgent parent.currentAgent
        completedNodes := unionList parent.completedNodes child.completedNodes
        pendingNodes := unionList
          (parent.pendingNodes.filter fun n => n ∉ child.completedNodes)
          (child.pendingNodes.filter fun n =>
            n ∉ parent.completedNodes ∧ n ∉ child.completedNodes)
        failedNodes := unionList parent.failedNodes child.failedNodes
        retries := mergeRetries parent.retries child.retries
        failures := unionList parent.failures child.failures
        checkpointIds := unionList parent.checkpointIds child.checkpointIds
        timeline := unionList parent.timeline child.timeline
        -- `_merge_dict` with PREFER_CHILD, which does not raise
        nodeResults := parent.nodeResults.update child.nodeResults
        nodeStatuses := parent.nodeStatuses.update child.nodeStatuses
        depth := max parent.depth child.depth }

theorem mergeExecution_ok {policy : ConflictPolicy} (h : policy ≠ .raise)
    (parent child : ExecutionContext α) :
    ∃ merged, mergeExecution parent child policy = .ok merged := by
  obtain ⟨baggage, hBaggage⟩ := mergeDict_ok h parent.baggage child.baggage "baggage"
  unfold mergeExecution
  rw [hBaggage]
  exact ⟨_, rfl⟩

structure Fused (parent child merged : ExecutionContext α) : Prop where
  completed : ∀ n, n ∈ merged.completedNodes ↔ n ∈ parent.completedNodes ∨ n ∈ child.completedNodes
  statuses : ∀ n, merged.nodeStatuses.get? n =
    (child.nodeStatuses.get? n).or (parent.nodeStatuses.get? n)
  results : ∀ n, merged.nodeResults.get? n =
    (child.nodeResults.get? n).or (parent.nodeResults.get? n)

theorem mergeExecution_fused {policy : ConflictPolicy} {parent child merged : ExecutionContext α}
    (h : mergeExecution parent child policy = .ok merged) : Fused parent child merged := by
  unfold mergeExecution at h
  split at h
  · cases h
  · cases h
    exact ⟨fun n => mem_unionList, fun n => Dict.get?_update .., fun n => Dict.get?_update ..⟩

end

-- ------ Marks

/-- One call of `mark_completed` or `mark_failed`. -/
inductive Mark (α : Type*) where
  | completed (nodeId : NodeId) (now : ℕ := 0) (result : Option α := none)
    (status : String := "SUCCEEDED")
  | failed (nodeId : NodeId) (error : String) (now : ℕ := 0) (attempt : ℤ := 0)

namespace Mark

variable {α : Type*}

def nodeId : Mark α → NodeId
  | .completed nodeId _ _ _ | .failed nodeId _ _ _ => nodeId

def status : Mark α → String
  | .completed _ _ _ status => status
  | .failed _ _ _ _ => "FAILED"

def result : Mark α → Option α
  | .completed _ _ result _ => result
  | .failed _ _ _ _ => none

def isCompletion : Mark α → Bool
  | .completed _ _ _ _ => true
  | .failed _ _ _ _ => false

end Mark

namespace ExecutionContext

variable {α : Type*}

def mark (ex : ExecutionContext α) : Mark α → ExecutionContext α
  | .completed nodeId now result status => ex.markCompleted now nodeId result status
  | .failed nodeId error now attempt => ex.markFailed now nodeId error attempt

def marks (ex : ExecutionContext α) (ms : List (Mark α)) : ExecutionContext α := ms.foldl mark ex

variable (ex : ExecutionContext α)

@[simp] theorem marks_concat (ms : List (Mark α)) (m : Mark α) :
    ex.marks (ms ++ [m]) = (ex.marks ms).mark m := by
  unfold marks
  rw [List.foldl_append]
  rfl

theorem nodeStatuses_mark (m : Mark α) :
    (ex.mark m).nodeStatuses = ex.nodeStatuses.set m.nodeId m.status := by
  cases m with
  | completed nodeId now result status => rfl
  | failed nodeId error now attempt => rfl

theorem nodeResults_mark (m : Mark α) (n : NodeId) :
    (ex.mark m).nodeResults.get? n =
      if n = m.nodeId then m.result.or (ex.nodeResults.get? n) else ex.nodeResults.get? n := by
  cases m with
  | failed nodeId error now attempt => exact (ite_self _).symm
  | completed nodeId now result status =>
    cases result with
    | none => exact (ite_self _).symm
    | some r => exact Dict.get?_set ..

variable {n : NodeId}

theorem mem_completedNodes_mark (m : Mark α) :
    n ∈ (ex.mark m).completedNodes ↔
      n ∈ ex.completedNodes ∨ (m.isCompletion = true ∧ n = m.nodeId) := by
  cases m with
  | failed nodeId error now attempt => simp [mark, markFailed, Mark.isCompletion]
  | completed nodeId now result status =>
    unfold mark markCompleted Mark.isCompletion Mark.nodeId
    dsimp only
    split
    · next hIn =>
      constructor
      · exact .inl
      · rintro (h | ⟨-, rfl⟩)
        · exact h
        · exact hIn
    · simp

theorem nodeStatuses_marks_of_notMem {ms : List (Mark α)} (h : n ∉ ms.map Mark.nodeId) :
    (ex.marks ms).nodeStatuses.get? n = ex.nodeStatuses.get? n := by
  induction ms generalizing ex with
  | nil => rfl
  | cons m ms ih =>
    rw [List.map_cons, List.mem_cons, not_or] at h
    have hTail := ih (ex.mark m) h.2
    rw [nodeStatuses_mark, Dict.get?_set_ne _ _ h.1] at hTail
    exact hTail

theorem nodeResults_marks_of_notMem {ms : List (Mark α)} (h : n ∉ ms.map Mark.nodeId) :
    (ex.marks ms).nodeResults.get? n = ex.nodeResults.get? n := by
  induction ms generalizing ex with
  | nil => rfl
  | cons m ms ih =>
    rw [List.map_cons, List.mem_cons, not_or] at h
    have hTail := ih (ex.mark m) h.2
    rw [nodeResults_mark, if_neg h.1] at hTail
    exact hTail

theorem nodeStatuses_marks_ne_none (ms : List (Mark α)) (h : ex.nodeStatuses.get? n ≠ none) :
    (ex.marks ms).nodeStatuses.get? n ≠ none := by
  induction ms generalizing ex with
  | nil => exact h
  | cons m ms ih =>
    refine ih (ex.mark m) ?_
    rw [nodeStatuses_mark, Dict.get?_set]
    split
    · exact Option.some_ne_none _
    · exact h

theorem nodeResults_marks_ne_none (ms : List (Mark α)) (h : ex.nodeResults.get? n ≠ none) :
    (ex.marks ms).nodeResults.get? n ≠ none := by
  induction ms generalizing ex with
  | nil => exact h
  | cons m ms ih =>
    refine ih (ex.mark m) ?_
    rw [nodeResults_mark]
    split
    · cases m.result with
      | none => exact h
      | some r => exact Option.some_ne_none _
    · exact h

theorem mem_completedNodes_marks (ms : List (Mark α)) :
    n ∈ (ex.marks ms).completedNodes ↔
      n ∈ ex.completedNodes ∨ ∃ m ∈ ms, m.isCompletion = true ∧ n = m.nodeId := by
  induction ms generalizing ex with
  | nil => simp [marks]
  | cons m ms ih =>
    have hTail := ih (ex.mark m)
    rw [mem_completedNodes_mark, or_assoc] at hTail
    rw [List.exists_mem_cons_iff]
    exact hTail

end ExecutionContext

def lastMark {α : Type*} (ms : List (Mark α)) (n : NodeId) : Option (Mark α) :=
  (ms.filter fun m => m.nodeId = n).getLast?

theorem lastMark_concat {α : Type*} (ms : List (Mark α)) (m : Mark α) (n : NodeId) :
    lastMark (ms ++ [m]) n = if m.nodeId = n then some m else lastMark ms n := by
  unfold lastMark
  rw [List.filter_append, List.filter_singleton]
  by_cases h : m.nodeId = n
  · simp [h]
  · simp [h]

theorem ExecutionContext.nodeStatuses_marks {α : Type*} (ex : ExecutionContext α)
    (ms : List (Mark α)) (n : NodeId) :
    (ex.marks ms).nodeStatuses.get? n =
      ((lastMark ms n).map Mark.status).or (ex.nodeStatuses.get? n) := by
  induction ms using List.reverseRecOn with
  | nil => rfl
  | append_singleton ms m ih =>
    rw [marks_concat, nodeStatuses_mark, lastMark_concat, Dict.get?_set]
    by_cases h : n = m.nodeId
    · rw [if_pos h, if_pos h.symm]
      rfl
    · rw [if_neg h, if_neg (Ne.symm h), ih]

end Neuroswarm.Context
