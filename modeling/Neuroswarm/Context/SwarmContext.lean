import Neuroswarm.Context.Execution
import Neuroswarm.Swarm.Conditions

/-!
# Swarm context — propagation and merge

`SwarmContext` as far as `child_context`, `merge_contexts` and `as_condition_map`
use it: budget, execution, the memory pressure, the available tools and the free
dictionaries. Request, knowledge, tracing, references, history, metrics and time
stamps are left out; new ids are arguments.

* `mergeContexts_parts` — budget and execution are merged by their own rules.
* `mergeAll_ok` — with policies other than RAISE a fan-in has a result.
-/

namespace Neuroswarm.Context

open Swarm

structure MemoryContext where
  memoryPressure : ℚ := 0
  keys : List String := []

structure ToolContext where
  availableTools : List String := []

/-- Shared runtime operating state. -/
structure SwarmContext (α : Type*) where
  executionId : String := ""
  budget : BudgetContext := {}
  memory : MemoryContext := {}
  execution : ExecutionContext α := {}
  tools : ToolContext := {}
  currentNode : Option String := none
  currentAgent : Option String := none
  snapshotId : Option String := none
  checkpoints : List String := []
  tags : List String := []
  labels : Dict String String := .empty
  metadata : Dict String α := .empty
  extra : Dict String α := .empty

-- ------ `child_context`

/-- The arguments of `child_context`, and the ids that it makes. -/
structure Spawn where
  nodeId : Option String := none
  agentId : Option String := none
  executionId : String := ""
  runId : String := ""

def childContext {α : Type*} (parent : SwarmContext α) (s : Spawn) : SwarmContext α :=
  let execution := parent.execution.child s.runId
  let execution :=
    if orOptional s.nodeId none = none then execution else { execution with currentNode := s.nodeId }
  let execution :=
    if orOptional s.agentId none = none then execution
    else { execution with currentAgent := s.agentId }
  { parent with
    executionId := s.executionId
    execution := execution
    budget := parent.budget.propagate
    currentNode := orOptional s.nodeId parent.currentNode
    currentAgent := orOptional s.agentId parent.currentAgent
    snapshotId := none }

section

variable {α : Type*} (parent : SwarmContext α) (s : Spawn)

@[simp] theorem budget_childContext : (childContext parent s).budget = parent.budget := rfl

theorem execution_childContext :
    (childContext parent s).execution.nodeStatuses = parent.execution.nodeStatuses ∧
      (childContext parent s).execution.nodeResults = parent.execution.nodeResults ∧
      (childContext parent s).execution.completedNodes = parent.execution.completedNodes := by
  unfold childContext
  dsimp only
  split
  · split
    · exact ⟨rfl, rfl, rfl⟩
    · exact ⟨rfl, rfl, rfl⟩
  · split
    · exact ⟨rfl, rfl, rfl⟩
    · exact ⟨rfl, rfl, rfl⟩

end

-- ------ `merge_contexts`

section

variable {α : Type*} [DecidableEq α]

def mergeContexts (parent child : SwarmContext α) (policy budgetPolicy : ConflictPolicy) :
    Except ContextError (SwarmContext α) :=
  match mergeBudget parent.budget child.budget budgetPolicy with
  | .error e => .error e
  | .ok budget =>
    match mergeExecution parent.execution child.execution policy with
    | .error e => .error e
    | .ok execution =>
      match mergeDict parent.metadata child.metadata policy "metadata" with
      | .error e => .error e
      | .ok metadata =>
        match mergeDict parent.extra child.extra policy "extra" with
        | .error e => .error e
        | .ok extra =>
          .ok
            { parent with
              budget := budget
              memory :=
                { memoryPressure := max parent.memory.memoryPressure child.memory.memoryPressure
                  keys := unionList parent.memory.keys child.memory.keys }
              execution := execution
              tools :=
                { availableTools :=
                    unionList parent.tools.availableTools child.tools.availableTools }
              checkpoints := unionList parent.checkpoints child.checkpoints
              tags := unionList parent.tags child.tags
              labels := parent.labels.update child.labels
              metadata := metadata
              extra := extra
              currentNode := orOptional child.currentNode parent.currentNode
              currentAgent := orOptional child.currentAgent parent.currentAgent }

/-- A fan-in: the branches are merged into the parent one after the other. -/
def mergeAll (policy budgetPolicy : ConflictPolicy) (parent : SwarmContext α) :
    List (SwarmContext α) → Except ContextError (SwarmContext α)
  | [] => .ok parent
  | child :: children =>
    match mergeContexts parent child policy budgetPolicy with
    | .error e => .error e
    | .ok merged => mergeAll policy budgetPolicy merged children

variable {policy budgetPolicy : ConflictPolicy}

theorem mergeContexts_parts {parent child merged : SwarmContext α}
    (h : mergeContexts parent child policy budgetPolicy = .ok merged) :
    mergeBudget parent.budget child.budget budgetPolicy = .ok merged.budget ∧
      mergeExecution parent.execution child.execution policy = .ok merged.execution := by
  unfold mergeContexts at h
  split at h
  · cases h
  · next hBudget =>
    split at h
    · cases h
    · next hExecution =>
      split at h
      · cases h
      · split at h
        · cases h
        · cases h
          exact ⟨hBudget, hExecution⟩

theorem mergeContexts_ok (hPolicy : policy ≠ .raise) (hBudget : budgetPolicy ≠ .raise)
    (parent child : SwarmContext α) :
    ∃ merged, mergeContexts parent child policy budgetPolicy = .ok merged := by
  obtain ⟨budget, h₁⟩ := mergeBudget_ok hBudget parent.budget child.budget
  obtain ⟨execution, h₂⟩ := mergeExecution_ok hPolicy parent.execution child.execution
  obtain ⟨metadata, h₃⟩ := mergeDict_ok hPolicy parent.metadata child.metadata "metadata"
  obtain ⟨extra, h₄⟩ := mergeDict_ok hPolicy parent.extra child.extra "extra"
  unfold mergeContexts
  rw [h₁, h₂, h₃, h₄]
  exact ⟨_, rfl⟩

theorem mergeAll_cons {parent child merged : SwarmContext α} {children : List (SwarmContext α)}
    (h : mergeAll policy budgetPolicy parent (child :: children) = .ok merged) :
    ∃ next, mergeContexts parent child policy budgetPolicy = .ok next ∧
      mergeAll policy budgetPolicy next children = .ok merged := by
  unfold mergeAll at h
  split at h
  · cases h
  · next next hNext => exact ⟨next, hNext, h⟩

theorem mergeAll_ok (hPolicy : policy ≠ .raise) (hBudget : budgetPolicy ≠ .raise)
    (parent : SwarmContext α) (children : List (SwarmContext α)) :
    ∃ merged, mergeAll policy budgetPolicy parent children = .ok merged := by
  induction children generalizing parent with
  | nil => exact ⟨parent, rfl⟩
  | cons child children ih =>
    obtain ⟨next, hNext⟩ := mergeContexts_ok hPolicy hBudget parent child
    obtain ⟨merged, hMerged⟩ := ih next
    refine ⟨merged, ?_⟩
    unfold mergeAll
    rw [hNext]
    exact hMerged

/-- What a fan-in does to the books of the nodes: the last entry there is counts. -/
theorem mergeAll_execution {parent merged : SwarmContext α} {children : List (SwarmContext α)}
    (h : mergeAll policy budgetPolicy parent children = .ok merged) (n : NodeId) :
    (n ∈ merged.execution.completedNodes ↔ n ∈ parent.execution.completedNodes ∨
        ∃ child ∈ children, n ∈ child.execution.completedNodes) ∧
      merged.execution.nodeStatuses.get? n = overlay (parent.execution.nodeStatuses.get? n)
        (children.map fun child => child.execution.nodeStatuses.get? n) ∧
      merged.execution.nodeResults.get? n = overlay (parent.execution.nodeResults.get? n)
        (children.map fun child => child.execution.nodeResults.get? n) := by
  induction children generalizing parent with
  | nil =>
    cases h
    simp
  | cons child children ih =>
    obtain ⟨next, hNext, hRest⟩ := mergeAll_cons h
    have hFused := mergeExecution_fused (mergeContexts_parts hNext).2
    obtain ⟨hCompleted, hStatuses, hResults⟩ := ih hRest
    rw [hFused.completed, or_assoc] at hCompleted
    rw [hFused.statuses] at hStatuses
    rw [hFused.results] at hResults
    rw [List.exists_mem_cons_iff]
    exact ⟨hCompleted, hStatuses, hResults⟩

end

-- ------ `as_condition_map`

/-- How conditions look at a value of type `Any`. -/
structure Views (α : Type*) where
  /-- `float(value)` -/
  toFloat : α → Reading
  /-- `value.get`; other values than mappings have none -/
  get : α → Except String (String → Option α)
  /-- a string, or the value of a `NodeStatus` -/
  status : α → Option String
  /-- `set(value)` -/
  names : α → Except String (List String)

/-- The map that conditions are evaluated with. -/
structure ContextMap where
  environment : Environment
  nodeStatuses : Except String (NodeId → Option String)

section

variable {α : Type*} (view : Views α) (ctx : SwarmContext α)

/-- A key of the map as `float()` sees it; what `extra` has comes last. -/
def SwarmContext.reading (key : String) : Reading :=
  match ctx.extra.get? key with
  | some v => view.toFloat v
  | none =>
    match key with
    | "confidence" => ctx.execution.confidence.elim .null .number
    | "latency_ms_used" => .number ctx.budget.latencyMsUsed
    | "memory_pressure" => .number ctx.memory.memoryPressure
    | "swarm" | "budget" | "node_results" | "node_statuses" =>
      .notANumber "float() argument must be a string or a real number, not 'dict'"
    | "available_tools" | "available_models" =>
      .notANumber "float() argument must be a string or a real number, not 'set'"
    | _ => .missing

/-- `budget.get(key)`, for the keys that conditions ask for; other values than mappings are
passed over. -/
def SwarmContext.budgetReading (key : String) : Reading :=
  match ctx.extra.get? "budget" with
  | some v =>
    match view.get v with
    | .ok get => (get key).elim .missing view.toFloat
    | .error _ => .missing
  | none =>
    match key with
    | "cost_usd_used" => .number ctx.budget.costUsdUsed
    | "latency_ms_used" => .number ctx.budget.latencyMsUsed
    | _ => .missing

/-- A set of names of the map. -/
def SwarmContext.namesOf (key : String) (own : List String) : Except String (List String) :=
  match ctx.extra.get? key with
  | some v => view.names v
  | none => .ok own

/-- `node_statuses` of the map. -/
def SwarmContext.statusesOf : Except String (NodeId → Option String) :=
  match ctx.extra.get? "node_statuses" with
  | some v => (view.get v).map fun get n => (get n).bind view.status
  | none => .ok ctx.execution.nodeStatuses.get?

/-- `as_condition_map()`; `custom` is what a registered predicate does when called on it. -/
def SwarmContext.asConditionMap (custom : String → Option (Except GraphException Bool)) :
    ContextMap where
  environment :=
    { value := ctx.reading view
      budget := ctx.budgetReading view
      availableTools := ctx.namesOf view "available_tools"
        (if ctx.tools.availableTools ≠ [] then ctx.tools.availableTools
          else ctx.execution.availableTools)
      availableModels := ctx.namesOf view "available_models" ctx.execution.availableModels
      custom := custom }
  nodeStatuses := ctx.statusesOf view

end

end Neuroswarm.Context
