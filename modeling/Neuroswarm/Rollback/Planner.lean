import Neuroswarm.Checkpoints.Planner
import Neuroswarm.Rollback.Manager

/-!
# Rollback planning

`runtime/swarm/rollback/strategy.py` and `planner.py`, and the mapping that a recovery
plan of the checkpoint manager becomes when it is handed over (`model_dump`).

* `normalize` — renames, defaults and drops the keys of a mapping.
* `RollbackPlanner.plan` — observation or mapping to rollback plan.
* `normalize_modelDump` — what the rollback planner reads of a recovery plan.
-/

namespace Neuroswarm.Rollback

open Checkpoints (truthy)

-- ------ Mappings

/-- A value of a mapping that is given to the planner. -/
inductive Value where
  | null
  | text (s : String)
  | texts (l : List String)
  | flag (b : Bool)
  | instant (t : Timestamp)
  | strategy (s : Checkpoints.RecoveryStrategy)
  | mapping (m : Dict String MetaValue)

abbrev Mapping := Dict String Value

def Value.ofText : Option String → Value
  | some s => .text s
  | none => .null

/-- `list(value or [])`, for a value that is a list or falsy. -/
def Value.toList : Value → Value
  | .texts l => .texts l
  | _ => .texts []

/-- `data[new] = data.pop(old)` if only the old key is there; else the old key goes. -/
def rename (data : Mapping) (old new : String) (f : Value → Value) : Mapping :=
  match data.get? old with
  | some v => if data.contains new then data.erase old else (data.erase old).set new (f v)
  | none => data

/-- `FailureObservation.model_fields` -/
def observationFields : List String :=
  ["workflow_id", "execution_id", "failed_nodes", "completed_nodes", "reason", "node_id",
    "subgraph_id", "context_id", "budget_envelope_id", "checkpoint_reference",
    "recovery_plan_reference", "latency_ms", "budget_remaining", "failure_count", "metadata"]

namespace FailureObservation

def requiredText (data : Mapping) (field : String) : Except RollbackError String :=
  match data.get? field with
  | some (.text s) => .ok s
  | _ => .error (.validation "" field)

def textOr (data : Mapping) (field : String) (fallback : String) : Except RollbackError String :=
  match data.get? field with
  | none => .ok fallback
  | some (.text s) => .ok s
  | some _ => .error (.validation "" field)

/-- A text or `None`, by default `None`. -/
def optionalText (data : Mapping) (field : String) : Except RollbackError (Option String) :=
  match data.get? field with
  | none => .ok none
  | some .null => .ok none
  | some (.text s) => .ok (some s)
  | some _ => .error (.validation "" field)

def textsOf (data : Mapping) (field : String) : Except RollbackError (List String) :=
  match data.get? field with
  | none => .ok []
  | some (.texts l) => .ok l
  | some _ => .error (.validation "" field)

def mappingOf (data : Mapping) (field : String) :
    Except RollbackError (Dict String MetaValue) :=
  match data.get? field with
  | none => .ok .empty
  | some (.mapping m) => .ok m
  | some _ => .error (.validation "" field)

def modelValidate (data : Mapping) : Except RollbackError FailureObservation := do
  let workflowId ← requiredText data "workflow_id"
  let executionId ← requiredText data "execution_id"
  let failedNodes ← textsOf data "failed_nodes"
  let completedNodes ← textsOf data "completed_nodes"
  let reason ← textOr data "reason" "failure"
  let nodeId ← optionalText data "node_id"
  let subgraphId ← optionalText data "subgraph_id"
  let contextId ← optionalText data "context_id"
  let budgetEnvelopeId ← optionalText data "budget_envelope_id"
  let checkpointReference ← optionalText data "checkpoint_reference"
  let recoveryPlanReference ← optionalText data "recovery_plan_reference"
  let metadata ← mappingOf data "metadata"
  pure
    { workflowId, executionId, failedNodes, completedNodes, reason, nodeId, subgraphId,
      contextId, budgetEnvelopeId, checkpointReference, recoveryPlanReference, metadata }

end FailureObservation

def renamed (observation : Mapping) : Mapping :=
  let data := rename observation "plan_id" "recovery_plan_reference" id
  let data := rename data "checkpoint_id" "checkpoint_reference" id
  let data := rename data "resume_node_id" "node_id" id
  let data := rename data "resume_subgraph_id" "subgraph_id" id
  let data := rename data "target_nodes" "failed_nodes" Value.toList
  data.filterKeys (· ∈ observationFields)

/-- `_normalize` of a mapping. -/
def normalize (observation : Mapping) : Except RollbackError FailureObservation :=
  FailureObservation.modelValidate (renamed observation)

-- ------ Strategies

structure PlanFields where
  workflowId : String
  executionId : String
  checkpointReference : Option String
  recoveryPlanReference : Option String
  targetNode : Option String
  targetSubgraph : Option String
  targetContext : Option String
  targetBudget : Option String
  targetNodes : List String
  reason : String
  metadata : Dict String MetaValue
  rollbackStrategy : RollbackStrategyKind
  rollbackLevel : RollbackLevel

def RollbackStrategyKind.level : RollbackStrategyKind → RollbackLevel
  | .resumeCheckpoint => .workflow
  | .restartWorkflow => .workflow
  | .restartNode => .node
  | .restartSubgraph => .subgraph
  | .rollbackContext => .context
  | .rollbackBudget => .budget
  | .rollbackMetadata => .executionMetadata
  | .custom => .workflow

def PlanFields.restartTarget (fields : PlanFields) : Option String :=
  let node := if truthy fields.targetNode then fields.targetNode else fields.targetNodes.head?
  if truthy node then node else fields.targetNode

/-- `strategy_for(kind).apply_plan(fields)` -/
def RollbackStrategyKind.applyPlan (kind : RollbackStrategyKind) (fields : PlanFields) :
    PlanFields :=
  let out := { fields with rollbackStrategy := kind, rollbackLevel := kind.level }
  match kind with
  | .restartNode => { out with targetNode := fields.restartTarget }
  | .custom => { out with metadata := out.metadata.set "custom_strategy_id" (.text "custom") }
  | _ => out

-- ------ The planner

/-- Plan rollback from failure observation or recovery-plan mapping. -/
structure RollbackPlanner where
  defaultStrategy : RollbackStrategyKind := .resumeCheckpoint

namespace RollbackPlanner

def resolveStrategy (planner : RollbackPlanner) (strategy : Option RollbackStrategyKind)
    (obs : FailureObservation) : RollbackStrategyKind :=
  match strategy with
  | some kind => kind
  | none =>
    if truthy obs.nodeId then .restartNode
    else if truthy obs.subgraphId then .restartSubgraph
    else if truthy obs.contextId ∧ ¬ truthy obs.checkpointReference then .rollbackContext
    else if truthy obs.budgetEnvelopeId ∧ ¬ truthy obs.checkpointReference then .rollbackBudget
    else if truthy obs.checkpointReference then planner.defaultStrategy
    else .restartWorkflow

def orderEntry (tag : String) (target : Option String) : List String :=
  if truthy target then [tag ++ target.getD ""] else []

/-- The nodes to recover, the target node first unless it is among them. -/
def orderNodes (fields : PlanFields) : List String :=
  if truthy fields.targetNode ∧ fields.targetNode.getD "" ∉ fields.targetNodes then
    fields.targetNode.getD "" :: fields.targetNodes
  else
    fields.targetNodes

def orderBefore (fields : PlanFields) (strategy : RollbackStrategyKind) : List String :=
  (if strategy ∈ [.rollbackBudget, .resumeCheckpoint, .restartWorkflow] then
    orderEntry "budget:" fields.targetBudget else []) ++
  (if strategy ∈ [.rollbackContext, .resumeCheckpoint, .restartWorkflow] then
    orderEntry "context:" fields.targetContext else []) ++
  (if strategy = .rollbackMetadata then ["metadata:" ++ fields.executionId] else []) ++
  orderEntry "subgraph:" fields.targetSubgraph

def recoveryOrder (fields : PlanFields) (strategy : RollbackStrategyKind) : List String :=
  let order := orderBefore fields strategy ++ (orderNodes fields).map ("node:" ++ ·) ++
    orderEntry "checkpoint:" fields.checkpointReference
  if order = [] then ["workflow:" ++ fields.workflowId] else order

/-- Every step depends on those before it; of equal steps the last one counts. -/
def dependencies (order : List String) : Dict String (List String) :=
  order.zipIdx.foldl (fun deps (step, i) => deps.set step (order.take i)) .empty

def fieldsOf (obs : FailureObservation) (kind : RollbackStrategyKind) : PlanFields :=
  { workflowId := obs.workflowId
    executionId := obs.executionId
    checkpointReference := obs.checkpointReference
    recoveryPlanReference := obs.recoveryPlanReference
    targetNode := obs.nodeId
    targetSubgraph := obs.subgraphId
    targetContext := obs.contextId
    targetBudget := obs.budgetEnvelopeId
    targetNodes := obs.failedNodes
    reason := obs.reason
    metadata := obs.metadata
    rollbackStrategy := kind
    rollbackLevel := kind.level }

def fallBack (fields : PlanFields) : PlanFields :=
  if fields.rollbackStrategy = .resumeCheckpoint ∧ ¬ truthy fields.checkpointReference ∧
      fields.targetNodes = [] ∧ ¬ truthy fields.targetNode then
    RollbackStrategyKind.restartWorkflow.applyPlan fields
  else
    fields

def assemble (fields : PlanFields) (level : RollbackLevel) (planId : String)
    (rollbackId : RollbackId) (now : Timestamp) : Except RollbackError RollbackPlan :=
  let order := recoveryOrder fields fields.rollbackStrategy
  if fields.workflowId = "" ∨ fields.executionId = "" then
    .error (.rollbackPlanning "workflow_id and execution_id required")
  else
    .ok
      { planId, rollbackId
        workflowId := fields.workflowId
        executionId := fields.executionId
        strategy := fields.rollbackStrategy
        level
        checkpointReference := fields.checkpointReference
        recoveryPlanReference := fields.recoveryPlanReference
        targetNode := fields.targetNode
        targetSubgraph := fields.targetSubgraph
        targetContext := fields.targetContext
        targetBudget := fields.targetBudget
        targetNodes := fields.targetNodes
        reason := fields.reason
        recoveryOrder := order
        recoveryDependencies := dependencies order
        createdAt := now
        metadata := fields.metadata }

def planFrom (planner : RollbackPlanner) (obs : FailureObservation)
    (strategy : Option RollbackStrategyKind) (level : Option RollbackLevel)
    (planId : String) (rollbackId : RollbackId) (now : Timestamp) :
    Except RollbackError RollbackPlan :=
  let kind := planner.resolveStrategy strategy obs
  let fields := kind.applyPlan (fieldsOf obs kind)
  assemble (fallBack fields) (level.getD fields.rollbackLevel) planId rollbackId now

def plan (planner : RollbackPlanner) (observation : Mapping)
    (strategy : Option RollbackStrategyKind) (level : Option RollbackLevel)
    (planId : String) (rollbackId : RollbackId) (now : Timestamp) :
    Except RollbackError RollbackPlan := do
  let obs ← normalize observation
  planner.planFrom obs strategy level planId rollbackId now

end RollbackPlanner

-- ------ Recovery plans of the checkpoint manager

def dumpEntries (p : Checkpoints.RecoveryPlan) : List (String × Value) :=
  [("plan_id", .text p.planId),
    ("workflow_id", .text p.workflowId),
    ("execution_id", .text p.executionId),
    ("strategy", .strategy p.strategy),
    ("checkpoint_id", .ofText p.checkpointId),
    ("resume_node_id", .ofText p.resumeNodeId),
    ("resume_subgraph_id", .ofText p.resumeSubgraphId),
    ("target_nodes", .texts p.targetNodes),
    ("reason", .text p.reason),
    ("rollback_notify", .flag p.rollbackNotify),
    ("created_at", .instant p.createdAt),
    ("metadata", .mapping (p.metadata.mapValues fun _ n => .number n))]

/-- `plan.model_dump()` of a recovery plan. -/
def modelDump (p : Checkpoints.RecoveryPlan) : Mapping :=
  ⟨dumpEntries p, by simp [dumpEntries]⟩

def observed (p : Checkpoints.RecoveryPlan) : FailureObservation :=
  { workflowId := p.workflowId
    executionId := p.executionId
    failedNodes := p.targetNodes
    reason := p.reason
    nodeId := p.resumeNodeId
    subgraphId := p.resumeSubgraphId
    checkpointReference := p.checkpointId
    recoveryPlanReference := some p.planId
    metadata := p.metadata.mapValues fun _ n => .number n }

theorem get?_rename (data : Mapping) {old new : String} (hNe : old ≠ new) (f : Value → Value)
    (k : String) :
    (rename data old new f).get? k =
      if k = old then none
      else if k = new then (data.get? new).or ((data.get? old).map f)
      else data.get? k := by
  unfold rename
  cases hOld : data.get? old with
  | none =>
    by_cases hk : k = old
    · rw [if_pos hk, hk, hOld]
    · rw [if_neg hk]
      by_cases hNew : k = new
      · simp [hNew]
      · simp [hNew]
  | some v =>
    cases hNew : data.get? new with
    | none =>
      simp only [Dict.contains, hNew, Option.isSome_none, Bool.false_eq_true, if_false,
        Dict.get?_set, Dict.get?_erase]
      by_cases hk : k = old
      · simp [hk, hNe]
      · simp [hk]
    | some w =>
      simp only [Dict.contains, hNew, Option.isSome_some, if_true, Dict.get?_erase]
      by_cases hk : k = new
      · simp [hk, hNew]
      · simp [hk]

theorem get?_modelDump (p : Checkpoints.RecoveryPlan) (k : String) :
    (modelDump p).get? k = (dumpEntries p).lookup k := rfl

theorem optionalText_ofText {data : Mapping} {field : String} {s : Option String}
    (h : data.get? field = some (.ofText s)) :
    FailureObservation.optionalText data field = .ok s := by
  unfold FailureObservation.optionalText
  rw [h]
  cases s with
  | none => rfl
  | some s => rfl

def renamedEntries (p : Checkpoints.RecoveryPlan) : List (String × Value) :=
  [("workflow_id", .text p.workflowId),
    ("execution_id", .text p.executionId),
    ("failed_nodes", .texts p.targetNodes),
    ("reason", .text p.reason),
    ("node_id", .ofText p.resumeNodeId),
    ("subgraph_id", .ofText p.resumeSubgraphId),
    ("checkpoint_reference", .ofText p.checkpointId),
    ("recovery_plan_reference", .text p.planId),
    ("metadata", .mapping (p.metadata.mapValues fun _ n => .number n))]

theorem get?_renamed_modelDump (p : Checkpoints.RecoveryPlan) {k : String}
    (hk : k ∈ observationFields) :
    (renamed (modelDump p)).get? k = (renamedEntries p).lookup k := by
  simp only [observationFields, List.mem_cons, List.not_mem_nil, or_false] at hk
  rcases hk with rfl | rfl | rfl | rfl | rfl | rfl | rfl | rfl | rfl | rfl | rfl | rfl | rfl |
      rfl | rfl <;>
    simp [renamed, Dict.get?_filterKeys, observationFields, get?_rename, get?_modelDump,
      dumpEntries, renamedEntries, List.lookup_cons, Value.toList]

/-- **What the rollback planner reads of a recovery plan.** -/
theorem normalize_modelDump (p : Checkpoints.RecoveryPlan) :
    normalize (modelDump p) = .ok (observed p) := by
  have hNode : FailureObservation.optionalText (renamed (modelDump p)) "node_id" =
      .ok p.resumeNodeId :=
    optionalText_ofText (get?_renamed_modelDump p (by decide))
  have hSubgraph : FailureObservation.optionalText (renamed (modelDump p)) "subgraph_id" =
      .ok p.resumeSubgraphId :=
    optionalText_ofText (get?_renamed_modelDump p (by decide))
  have hCheckpoint : FailureObservation.optionalText (renamed (modelDump p))
      "checkpoint_reference" = .ok p.checkpointId :=
    optionalText_ofText (get?_renamed_modelDump p (by decide))
  have hRest : ∀ k ∈ observationFields,
      (renamed (modelDump p)).get? k = (renamedEntries p).lookup k :=
    fun _ hk => get?_renamed_modelDump p hk
  unfold normalize FailureObservation.modelValidate
  rw [hNode, hSubgraph, hCheckpoint]
  simp only [FailureObservation.requiredText, FailureObservation.textsOf, FailureObservation.textOr,
    FailureObservation.optionalText, FailureObservation.mappingOf,
    hRest "workflow_id" (by decide), hRest "execution_id" (by decide),
    hRest "failed_nodes" (by decide), hRest "completed_nodes" (by decide),
    hRest "reason" (by decide), hRest "context_id" (by decide),
    hRest "budget_envelope_id" (by decide), hRest "recovery_plan_reference" (by decide),
    hRest "metadata" (by decide)]
  rfl

-- ------ What a plan targets

theorem nodeEntry_ne (tag : String) {c : Char} {rest : List Char} (hTag : tag.toList = c :: rest)
    (hc : c ≠ 'n') (n s : String) : "node:" ++ n ≠ tag ++ s := by
  intro h
  have hList := congrArg String.toList h
  rw [String.toList_append, String.toList_append, hTag] at hList
  exact hc (List.cons.inj hList).1.symm

namespace RollbackPlanner

theorem nodeEntry_notMem (tag : String) {c : Char} {rest : List Char}
    (hTag : tag.toList = c :: rest) (hc : c ≠ 'n') (n : String) (target : Option String) :
    "node:" ++ n ∉ orderEntry tag target := by
  unfold orderEntry
  split
  · rw [List.mem_singleton]
    exact nodeEntry_ne tag hTag hc n _
  · exact List.not_mem_nil

theorem nodeEntry_notMem_orderBefore (fields : PlanFields) (strategy : RollbackStrategyKind)
    (n : String) : "node:" ++ n ∉ orderBefore fields strategy := by
  unfold orderBefore
  rw [List.mem_append, List.mem_append, List.mem_append]
  rintro (((hBudget | hContext) | hMetadata) | hSubgraph)
  · split at hBudget
    · exact nodeEntry_notMem "budget:" rfl (by decide) _ _ hBudget
    · exact List.not_mem_nil hBudget
  · split at hContext
    · exact nodeEntry_notMem "context:" rfl (by decide) _ _ hContext
    · exact List.not_mem_nil hContext
  · split at hMetadata
    · exact nodeEntry_ne "metadata:" rfl (by decide) _ _ (List.mem_singleton.mp hMetadata)
    · exact List.not_mem_nil hMetadata
  · exact nodeEntry_notMem "subgraph:" rfl (by decide) _ _ hSubgraph

theorem mem_recoveryOrder (fields : PlanFields) (strategy : RollbackStrategyKind) (n : String) :
    "node:" ++ n ∈ recoveryOrder fields strategy ↔ n ∈ orderNodes fields := by
  have hNode : "node:" ++ n ∈ (orderNodes fields).map ("node:" ++ ·) ↔ n ∈ orderNodes fields := by
    rw [List.mem_map]
    constructor
    · rintro ⟨m, hm, hEq⟩
      exact (String.append_right_inj "node:").mp hEq ▸ hm
    · exact fun hn => ⟨n, hn, rfl⟩
  unfold recoveryOrder
  dsimp only
  split
  · next hNil =>
    -- an empty order has no nodes
    have hEmpty : (orderNodes fields).map ("node:" ++ ·) = [] :=
      (List.append_eq_nil_iff.mp (List.append_eq_nil_iff.mp hNil).1).2
    rw [← hNode, hEmpty, List.mem_singleton]
    exact iff_of_false (nodeEntry_ne "workflow:" rfl (by decide) _ _) List.not_mem_nil
  · rw [List.mem_append, List.mem_append, hNode]
    constructor
    · rintro ((hBefore | hn) | hCheckpoint)
      · exact absurd hBefore (nodeEntry_notMem_orderBefore fields strategy n)
      · exact hn
      · exact absurd hCheckpoint (nodeEntry_notMem "checkpoint:" rfl (by decide) _ _)
    · exact fun hn => .inl (.inr hn)

theorem applyPlan_keeps (kind : RollbackStrategyKind) (fields : PlanFields) :
    (kind.applyPlan fields).targetNodes = fields.targetNodes ∧
      (kind.applyPlan fields).workflowId = fields.workflowId ∧
      (kind.applyPlan fields).executionId = fields.executionId := by
  cases kind <;> exact ⟨rfl, rfl, rfl⟩

theorem applyPlan_targetNode (kind : RollbackStrategyKind) (fields : PlanFields) {n : String}
    (h : (kind.applyPlan fields).targetNode = some n) :
    fields.targetNode = some n ∨ n ∈ fields.targetNodes := by
  cases kind with
  | restartNode =>
    have hTarget : fields.restartTarget = some n := h
    unfold PlanFields.restartTarget at hTarget
    dsimp only at hTarget
    split at hTarget
    · exact .inl hTarget
    · split at hTarget
      · exact .inr (List.mem_of_mem_head? hTarget)
      · exact .inl hTarget
  | _ => exact .inl h

theorem fallBack_keeps (fields : PlanFields) :
    (fallBack fields).targetNodes = fields.targetNodes ∧
      (fallBack fields).workflowId = fields.workflowId ∧
      (fallBack fields).executionId = fields.executionId ∧
      (fallBack fields).targetNode = fields.targetNode := by
  unfold fallBack
  split
  · exact ⟨rfl, rfl, rfl, rfl⟩
  · exact ⟨rfl, rfl, rfl, rfl⟩

theorem orderNodes_of_mem {fields : PlanFields}
    (h : ∀ n, fields.targetNode = some n → n ∈ fields.targetNodes) :
    orderNodes fields = fields.targetNodes := by
  unfold orderNodes
  refine if_neg ?_
  rintro ⟨hTruthy, hNot⟩
  cases hNode : fields.targetNode with
  | none => simp [hNode, truthy] at hTruthy
  | some n =>
    rw [hNode] at hNot
    exact hNot (h n hNode)

section Handover

variable {planner : RollbackPlanner} {obs : FailureObservation}
  {strategy : Option RollbackStrategyKind} {level : Option RollbackLevel} {planId : String}
  {rollbackId : RollbackId} {now : Timestamp}

theorem planFrom_ok {rp : RollbackPlan} (hNode : obs.nodeId = none)
    (h : planner.planFrom obs strategy level planId rollbackId now = .ok rp) :
    rp.targetNodes = obs.failedNodes ∧
      ∀ n, "node:" ++ n ∈ rp.recoveryOrder ↔ n ∈ obs.failedNodes := by
  unfold planFrom assemble at h
  dsimp only at h
  generalize hFields : RollbackStrategyKind.applyPlan _ _ = fields at h
  have hTargets : (fallBack fields).targetNodes = obs.failedNodes := by
    rw [(fallBack_keeps fields).1, ← hFields]
    exact (applyPlan_keeps _ _).1
  have hTarget : ∀ n, (fallBack fields).targetNode = some n →
      n ∈ (fallBack fields).targetNodes := by
    intro n hn
    rw [(fallBack_keeps fields).2.2.2, ← hFields] at hn
    rw [hTargets]
    rcases applyPlan_targetNode _ _ hn with hObs | hMem
    · exact absurd (hNode.symm.trans hObs) (by simp)
    · exact hMem
  split at h
  · cases h
  · cases h
    refine ⟨hTargets, fun n => ?_⟩
    rw [mem_recoveryOrder, orderNodes_of_mem hTarget, hTargets]

theorem assemble_isOk {fields : PlanFields} {level : RollbackLevel} :
    (∃ rp, assemble fields level planId rollbackId now = .ok rp) ↔
      fields.workflowId ≠ "" ∧ fields.executionId ≠ "" := by
  unfold assemble
  dsimp only
  by_cases hIds : fields.workflowId = "" ∨ fields.executionId = ""
  · rw [if_pos hIds]
    exact iff_of_false (fun ⟨_, h⟩ => nomatch h) fun h => hIds.elim h.1 h.2
  · rw [if_neg hIds]
    exact iff_of_true ⟨_, rfl⟩ (not_or.mp hIds)

theorem planFrom_isOk : (∃ rp, planner.planFrom obs strategy level planId rollbackId now = .ok rp) ↔
    obs.workflowId ≠ "" ∧ obs.executionId ≠ "" := by
  unfold planFrom
  dsimp only
  rw [assemble_isOk, (fallBack_keeps _).2.1, (fallBack_keeps _).2.2.1, (applyPlan_keeps _ _).2.1,
    (applyPlan_keeps _ _).2.2]
  exact Iff.rfl

end Handover

end RollbackPlanner

end Neuroswarm.Rollback

/-!
## Recovery plans handed over to the rollback planner

A recovery plan to resume from a checkpoint lists the nodes that were completed there as
its target nodes; the rollback planner takes the target nodes of a mapping for failed
nodes.

* `handedOver_targets` — the rollback plan targets what was completed.
* `respectsProgress_iff` — completed work is left alone, and the failed nodes are
  targeted, iff there is nothing completed and nothing failed to speak of.
-/

namespace Neuroswarm.Rollback

open Checkpoints (FailureContext RecoveryPlanner.latestFor)

variable {V : Type}

def RollbackPlan.Targets (rp : RollbackPlan) (n : String) : Prop :=
  n ∈ rp.targetNodes ∨ "node:" ++ n ∈ rp.recoveryOrder

/-- A rollback plan, if one is made, targets no node that was completed at the chosen
checkpoint, and every failed node. -/
def RespectsProgress (failure : FailureContext) (checkpoints : List (Checkpoints.Checkpoint V))
    (result : Except RollbackError RollbackPlan) : Prop :=
  ∀ rp, result = .ok rp →
    (∀ c snapshot, RecoveryPlanner.latestFor failure checkpoints = some c →
      c.executionSnapshot = some snapshot → ∀ n ∈ snapshot.completedNodes, ¬ rp.Targets n) ∧
    ∀ n ∈ failure.failedNodes, rp.Targets n

def NothingToTarget (failure : FailureContext) (checkpoints : List (Checkpoints.Checkpoint V)) :
    Prop :=
  failure.workflowId = "" ∨ failure.executionId = "" ∨
    ∀ c snapshot, RecoveryPlanner.latestFor failure checkpoints = some c →
      c.executionSnapshot = some snapshot →
        snapshot.completedNodes = [] ∧ failure.failedNodes = []

theorem plan_modelDump (planner : RollbackPlanner) (p : Checkpoints.RecoveryPlan)
    (strategy : Option RollbackStrategyKind) (level : Option RollbackLevel) (planId : String)
    (rollbackId : RollbackId) (now : Timestamp) :
    planner.plan (modelDump p) strategy level planId rollbackId now =
      planner.planFrom (observed p) strategy level planId rollbackId now := by
  unfold RollbackPlanner.plan
  rw [normalize_modelDump]
  rfl

section Handover

variable {failure : FailureContext} {checkpoints : List (Checkpoints.Checkpoint V)}
  {preferNode preferSubgraph : Bool} {recoveryId : String} {createdAt : Timestamp}
  {p : Checkpoints.RecoveryPlan} {planner : RollbackPlanner}
  {strategy : Option RollbackStrategyKind} {level : Option RollbackLevel} {planId : String}
  {rollbackId : RollbackId} {now : Timestamp}

theorem handedOver_isOk
    (hPlan : Checkpoints.RecoveryPlanner.plan failure checkpoints preferNode preferSubgraph
      recoveryId createdAt = .ok p) :
    (∃ rp, planner.plan (modelDump p) strategy level planId rollbackId now = .ok rp) ↔
      failure.workflowId ≠ "" ∧ failure.executionId ≠ "" := by
  have hOutcome := Checkpoints.RecoveryPlanner.plan_toRecoveryDecision failure checkpoints
    preferNode preferSubgraph recoveryId createdAt
  rw [hPlan] at hOutcome
  obtain ⟨hWorkflow, hExecution, -⟩ := Checkpoints.RecoveryPlanner.outcome_ids hOutcome.symm
  rw [plan_modelDump, RollbackPlanner.planFrom_isOk, ← hWorkflow, ← hExecution]
  exact Iff.rfl

/-- What is targeted is what was completed at the chosen checkpoint, or without a snapshot what
the failure lists as completed. -/
theorem handedOver_targets
    (hPlan : Checkpoints.RecoveryPlanner.plan failure checkpoints preferNode preferSubgraph
      recoveryId createdAt = .ok p)
    (hStrategy : p.strategy = .resumeCheckpoint) {rp : RollbackPlan}
    (hrp : planner.plan (modelDump p) strategy level planId rollbackId now = .ok rp) :
    ∃ c, RecoveryPlanner.latestFor failure checkpoints = some c ∧
      (failure.failedNodes = [] ∨ c.executionSnapshot.isSome) ∧
      ∀ n, rp.Targets n ↔
        n ∈ (c.executionSnapshot.map (·.completedNodes)).getD failure.completedNodes := by
  have hOutcome := Checkpoints.RecoveryPlanner.plan_toRecoveryDecision failure checkpoints
    preferNode preferSubgraph recoveryId createdAt
  rw [hPlan] at hOutcome
  obtain ⟨c, hLatest, hProgress, hNode, hTargets⟩ :=
    Checkpoints.RecoveryPlanner.outcome_resumeCheckpoint hOutcome.symm hStrategy
  rw [plan_modelDump] at hrp
  obtain ⟨hRpTargets, hRpOrder⟩ := RollbackPlanner.planFrom_ok hNode hrp
  have hCompleted : (observed p).failedNodes =
      (c.executionSnapshot.map (·.completedNodes)).getD failure.completedNodes := by
    show p.targetNodes = _
    rw [hTargets]
    cases c.executionSnapshot <;> rfl
  refine ⟨c, hLatest, hProgress, fun n => ?_⟩
  rw [← hCompleted]
  unfold RollbackPlan.Targets
  rw [hRpTargets, hRpOrder]
  exact or_self_iff

end Handover

/-- **A handed-over plan leaves completed work alone** only where there is none. -/
theorem respectsProgress_iff {failure : FailureContext}
    {checkpoints : List (Checkpoints.Checkpoint V)} {preferNode preferSubgraph : Bool}
    {recoveryId : String} {createdAt : Timestamp} {p : Checkpoints.RecoveryPlan}
    (hPlan : Checkpoints.RecoveryPlanner.plan failure checkpoints preferNode preferSubgraph
      recoveryId createdAt = .ok p)
    (hStrategy : p.strategy = .resumeCheckpoint) (planner : RollbackPlanner)
    (strategy : Option RollbackStrategyKind) (level : Option RollbackLevel) (planId : String)
    (rollbackId : RollbackId) (now : Timestamp) :
    RespectsProgress failure checkpoints
        (planner.plan (modelDump p) strategy level planId rollbackId now) ↔
      NothingToTarget failure checkpoints := by
  by_cases hIds : failure.workflowId ≠ "" ∧ failure.executionId ≠ ""
  · obtain ⟨rp, hrp⟩ : ∃ rp, planner.plan (modelDump p) strategy level planId rollbackId now =
        .ok rp := (handedOver_isOk hPlan).mpr hIds
    obtain ⟨c, hLatest, hProgress, hTargets⟩ := handedOver_targets hPlan hStrategy hrp
    constructor
    · intro hRespects
      obtain ⟨hCompleted, hFailed⟩ := hRespects rp hrp
      refine .inr (.inr fun c' snapshot hc' hSnapshot => ?_)
      obtain rfl : c = c' := Option.some.inj (hLatest.symm.trans hc')
      rw [hSnapshot] at hTargets
      have hNone : snapshot.completedNodes = [] :=
        List.eq_nil_iff_forall_not_mem.mpr fun n hn =>
          hCompleted c snapshot hc' hSnapshot n hn ((hTargets n).mpr hn)
      refine ⟨hNone, List.eq_nil_iff_forall_not_mem.mpr fun n hn => ?_⟩
      have hMem : n ∈ snapshot.completedNodes := (hTargets n).mp (hFailed n hn)
      rw [hNone] at hMem
      exact List.not_mem_nil hMem
    · rintro (hEmpty | hEmpty | hNothing)
      · exact absurd hEmpty hIds.1
      · exact absurd hEmpty hIds.2
      · intro rp' _
        refine ⟨fun c' snapshot hc' hSnapshot n hn => ?_, fun n hn => ?_⟩
        · rw [(hNothing c' snapshot hc' hSnapshot).1] at hn
          exact absurd hn List.not_mem_nil
        · have hNoFailed : failure.failedNodes = [] := by
            rcases hProgress with hNil | hSome
            · exact hNil
            · obtain ⟨snapshot, hSnapshot⟩ := Option.isSome_iff_exists.mp hSome
              exact (hNothing c snapshot hLatest hSnapshot).2
          rw [hNoFailed] at hn
          exact absurd hn List.not_mem_nil
  · refine iff_of_true (fun rp hrp => ?_) ?_
    · exact absurd ((handedOver_isOk hPlan).mp ⟨rp, hrp⟩) hIds
    · by_cases hW : failure.workflowId = ""
      · exact .inl hW
      · exact .inr (.inl (not_not.mp fun hE => hIds ⟨hW, hE⟩))

/-- A checkpoint after the node `a`. -/
def afterA : Checkpoints.Checkpoint Unit :=
  { checkpointId := "c1", workflowId := "w", executionId := "e", timestamp := 1, checksum := "h"
    executionSnapshot := some { completedNodes := ["a"] }, rest := () }

/-- The node `b` fails. -/
def failureOfB : FailureContext := { workflowId := "w", executionId := "e", failedNodes := ["b"] }

/-- The recovery plan from the checkpoint after `a`. -/
def resumeAfterA : Checkpoints.RecoveryPlan :=
  { workflowId := "w", executionId := "e", strategy := .resumeCheckpoint
    checkpointId := some "c1", targetNodes := ["a"], reason := "failure", rollbackNotify := true
    planId := "p1", createdAt := 2 }

theorem respectsProgress_iff_failureOfB :
    RespectsProgress failureOfB [afterA]
        (RollbackPlanner.plan {} (modelDump resumeAfterA) none none "rp1" "rb1" 3) ↔
      NothingToTarget failureOfB [afterA] := by
  have hPlan : Checkpoints.RecoveryPlanner.plan failureOfB [afterA] false false "p1" 2 =
      .ok resumeAfterA := rfl
  exact respectsProgress_iff hPlan rfl {} none none "rp1" "rb1" 3

/-- The rollback plan targets `a`, which was completed. -/
theorem not_respectsProgress_failureOfB :
    Checkpoints.RecoveryPlanner.plan failureOfB [afterA] false false "p1" 2 = .ok resumeAfterA ∧
      ¬ RespectsProgress failureOfB [afterA]
        (RollbackPlanner.plan {} (modelDump resumeAfterA) none none "rp1" "rb1" 3) := by
  refine ⟨rfl, fun h => ?_⟩
  rw [plan_modelDump] at h
  have hCompleted := (h _ rfl).1 afterA { completedNodes := ["a"] } rfl rfl "a" (by decide)
  exact hCompleted (.inl (by decide))

end Neuroswarm.Rollback
