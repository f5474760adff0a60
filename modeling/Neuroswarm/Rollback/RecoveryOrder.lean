import Neuroswarm.Lib.EdgeList
import Neuroswarm.Lib.Replay
import Neuroswarm.Rollback.Planner

/-!
# Recovery order

`RollbackPlanner.plan` with any strategy that it takes: a kind, none, or an object whose
`apply_plan` shapes the fields as it likes.

* `RecoveryStep` — an entry of the recovery order, told from all others by its text.
* `IsSchedule` — what makes the order of a plan a schedule.
* `isSchedule_iff` — it is one iff no target node is named twice.
-/

namespace Neuroswarm.Rollback

open Checkpoints (truthy)
open EdgeList (Acyclic)

-- ------ Strategies of the caller

/-- The fields that the overrides of a custom strategy name, with their values. -/
structure Overrides where
  workflowId : Option String := none
  executionId : Option String := none
  checkpointReference : Option (Option String) := none
  recoveryPlanReference : Option (Option String) := none
  targetNode : Option (Option String) := none
  targetSubgraph : Option (Option String) := none
  targetContext : Option (Option String) := none
  targetBudget : Option (Option String) := none
  targetNodes : Option (List String) := none
  reason : Option String := none
  metadata : Option (Dict String MetaValue) := none
  rollbackLevel : Option RollbackLevel := none

structure CustomStrategy where
  strategyId : String := "custom"
  level : RollbackLevel := .workflow
  metadata : Dict String MetaValue := .empty
  overrides : Overrides := {}

def CustomStrategy.applyPlan (s : CustomStrategy) (fields : PlanFields) : PlanFields :=
  let metadata := s.metadata.entries.foldl (fun d e => d.set e.1 e.2) fields.metadata
  let o := s.overrides
  { workflowId := o.workflowId.getD fields.workflowId
    executionId := o.executionId.getD fields.executionId
    checkpointReference := o.checkpointReference.getD fields.checkpointReference
    recoveryPlanReference := o.recoveryPlanReference.getD fields.recoveryPlanReference
    targetNode := o.targetNode.getD fields.targetNode
    targetSubgraph := o.targetSubgraph.getD fields.targetSubgraph
    targetContext := o.targetContext.getD fields.targetContext
    targetBudget := o.targetBudget.getD fields.targetBudget
    targetNodes := o.targetNodes.getD fields.targetNodes
    reason := o.reason.getD fields.reason
    metadata := (o.metadata.getD metadata).set "custom_strategy_id" (.text s.strategyId)
    rollbackStrategy := .custom
    rollbackLevel := o.rollbackLevel.getD s.level }

/-- The argument `strategy` of `plan`. An object may raise, or shape fields that no plan takes,
which raises as well. -/
inductive StrategyArg where
  | auto
  | kind (k : RollbackStrategyKind)
  | object (applyPlan : PlanFields → Except RollbackError PlanFields)

/-- The argument `observation` of `plan`. -/
inductive ObservationArg where
  | observation (obs : FailureObservation)
  | mapping (data : Mapping)

def ObservationArg.normalize : ObservationArg → Except RollbackError FailureObservation
  | .observation obs => .ok obs
  | .mapping data => Rollback.normalize data

namespace RollbackPlanner

/-- The fields as the strategy shapes them. An object that sets no strategy leaves the default
one, and the level of a workflow. -/
def shape (planner : RollbackPlanner) (obs : FailureObservation) :
    StrategyArg → Except RollbackError PlanFields
  | .auto =>
    let kind := planner.resolveStrategy none obs
    .ok (kind.applyPlan (fieldsOf obs kind))
  | .kind k => .ok (k.applyPlan (fieldsOf obs k))
  | .object applyPlan =>
    applyPlan { fieldsOf obs planner.defaultStrategy with rollbackLevel := .workflow }

/-- `plan` with whatever it takes. -/
def planWith (planner : RollbackPlanner) (observation : ObservationArg) (strategy : StrategyArg)
    (level : Option RollbackLevel) (planId : String) (rollbackId : RollbackId) (now : Timestamp) :
    Except RollbackError RollbackPlan := do
  let obs ← observation.normalize
  let fields ← planner.shape obs strategy
  assemble (fallBack fields) (level.getD fields.rollbackLevel) planId rollbackId now

end RollbackPlanner

-- ------ Steps

inductive StepKind where
  | budget
  | context
  | metadata
  | subgraph
  | node
  | checkpoint
  | workflow
  deriving DecidableEq

def StepKind.tag : StepKind → String
  | .budget => "budget:"
  | .context => "context:"
  | .metadata => "metadata:"
  | .subgraph => "subgraph:"
  | .node => "node:"
  | .checkpoint => "checkpoint:"
  | .workflow => "workflow:"

/-- An entry of the recovery order. -/
structure RecoveryStep where
  kind : StepKind
  name : String
  deriving DecidableEq

def RecoveryStep.text (s : RecoveryStep) : String := s.kind.tag ++ s.name

theorem RecoveryStep.takeWhile_text (s : RecoveryStep) :
    s.text.toList.takeWhile (· ≠ ':') = s.kind.tag.toList.takeWhile (· ≠ ':') := by
  rw [text, String.toList_append]
  cases s.kind <;> rfl

theorem RecoveryStep.text_injective : Function.Injective RecoveryStep.text := by
  intro s t h
  have hTag : s.kind.tag.toList.takeWhile (· ≠ ':') = t.kind.tag.toList.takeWhile (· ≠ ':') := by
    rw [← takeWhile_text, ← takeWhile_text, h]
  have hKind : s.kind = t.kind := by
    revert hTag
    cases s.kind <;> cases t.kind <;> decide
  have hName : s.name = t.name := by
    rw [text, text, hKind] at h
    exact (String.append_right_inj _).mp h
  cases s
  cases t
  simp only [RecoveryStep.mk.injEq]
  exact ⟨hKind, hName⟩

def Names (target : Option String) (name : String) : Prop := target = some name ∧ name ≠ ""

namespace RollbackPlan

def Restores (rp : RollbackPlan) (s : RecoveryStep) : Prop :=
  match s.kind with
  | .budget =>
    rp.strategy ∈ [.rollbackBudget, .resumeCheckpoint, .restartWorkflow] ∧
      Names rp.targetBudget s.name
  | .context =>
    rp.strategy ∈ [.rollbackContext, .resumeCheckpoint, .restartWorkflow] ∧
      Names rp.targetContext s.name
  | .metadata => rp.strategy = .rollbackMetadata ∧ s.name = rp.executionId
  | .subgraph => Names rp.targetSubgraph s.name
  | .node => s.name ∈ rp.targetNodes ∨ Names rp.targetNode s.name
  | .checkpoint => Names rp.checkpointReference s.name
  | .workflow => False

def IsStep (rp : RollbackPlan) (s : RecoveryStep) : Prop :=
  rp.Restores s ∨ (∀ t, ¬ rp.Restores t) ∧ s = ⟨.workflow, rp.workflowId⟩

def DependsOn (rp : RollbackPlan) (step dep : String) : Prop :=
  ∃ deps, rp.recoveryDependencies.get? step = some deps ∧ dep ∈ deps

structure IsSchedule (rp : RollbackPlan) : Prop where
  lists : ∀ text, text ∈ rp.recoveryOrder ↔ ∃ s, rp.IsStep s ∧ s.text = text
  once : rp.recoveryOrder.Nodup
  keys : ∀ text, text ∈ rp.recoveryDependencies.keys ↔ text ∈ rp.recoveryOrder
  acyclic : Acyclic rp.DependsOn
  earlier : ∀ step dep, rp.DependsOn step dep →
    rp.recoveryOrder.idxOf dep < rp.recoveryOrder.idxOf step

end RollbackPlan

-- ------ The order of the steps

namespace RollbackPlanner

def named (target : Option String) : List String :=
  if truthy target then [target.getD ""] else []

theorem mem_named {target : Option String} {name : String} :
    name ∈ named target ↔ Names target name := by
  unfold named Names
  cases target with
  | none => simp [truthy]
  | some t =>
    by_cases hEmpty : t = ""
    · simp [truthy, hEmpty, eq_comm]
    · simp only [truthy, ne_eq, hEmpty, not_false_eq_true, decide_true, if_true,
        Option.getD_some, List.mem_singleton, Option.some.injEq]
      grind

theorem nodup_named (target : Option String) : (named target).Nodup := by
  unfold named
  split <;> simp

theorem map_named (tag : String) (target : Option String) :
    (named target).map (tag ++ ·) = orderEntry tag target := by
  unfold named orderEntry
  split <;> rfl

def namesOf (fields : PlanFields) (strategy : RollbackStrategyKind) : StepKind → List String
  | .budget =>
    if strategy ∈ [.rollbackBudget, .resumeCheckpoint, .restartWorkflow] then
      named fields.targetBudget else []
  | .context =>
    if strategy ∈ [.rollbackContext, .resumeCheckpoint, .restartWorkflow] then
      named fields.targetContext else []
  | .metadata => if strategy = .rollbackMetadata then [fields.executionId] else []
  | .subgraph => named fields.targetSubgraph
  | .node => orderNodes fields
  | .checkpoint => named fields.checkpointReference
  | .workflow => []

def stepKinds : List StepKind := [.budget, .context, .metadata, .subgraph, .node, .checkpoint]

def targetSteps (fields : PlanFields) (strategy : RollbackStrategyKind) : List RecoveryStep :=
  stepKinds.flatMap fun kind => (namesOf fields strategy kind).map (⟨kind, ·⟩)

def recoverySteps (fields : PlanFields) (strategy : RollbackStrategyKind) : List RecoveryStep :=
  if targetSteps fields strategy = [] then [⟨.workflow, fields.workflowId⟩]
  else targetSteps fields strategy

theorem map_targetSteps (fields : PlanFields) (strategy : RollbackStrategyKind) :
    (targetSteps fields strategy).map RecoveryStep.text =
      orderBefore fields strategy ++ (orderNodes fields).map ("node:" ++ ·) ++
        orderEntry "checkpoint:" fields.checkpointReference := by
  have hKind : ∀ kind : StepKind, ((namesOf fields strategy kind).map (RecoveryStep.mk kind)).map
      RecoveryStep.text = (namesOf fields strategy kind).map (kind.tag ++ ·) := by
    intro kind
    rw [List.map_map]
    rfl
  unfold targetSteps stepKinds orderBefore
  simp only [List.flatMap_cons, List.flatMap_nil, List.map_append, hKind, List.append_nil,
    List.append_assoc]
  simp only [namesOf, StepKind.tag, apply_ite (List.map _), map_named, List.map_nil,
    List.map_cons]

theorem recoveryOrder_eq (fields : PlanFields) (strategy : RollbackStrategyKind) :
    recoveryOrder fields strategy = (recoverySteps fields strategy).map RecoveryStep.text := by
  unfold recoveryOrder recoverySteps
  dsimp only
  rw [← map_targetSteps]
  by_cases hNil : targetSteps fields strategy = []
  · rw [if_pos hNil, if_pos (by rw [hNil, List.map_nil])]
    rfl
  · rw [if_neg hNil, if_neg (by rwa [List.map_eq_nil_iff])]

theorem mem_targetSteps {fields : PlanFields} {strategy : RollbackStrategyKind}
    {s : RecoveryStep} :
    s ∈ targetSteps fields strategy ↔ s.name ∈ namesOf fields strategy s.kind := by
  obtain ⟨kind, name⟩ := s
  have hKinds : kind ∈ stepKinds ∨ namesOf fields strategy kind = [] := by
    cases kind <;> simp [stepKinds, namesOf]
  unfold targetSteps
  rw [List.mem_flatMap]
  constructor
  · rintro ⟨kind', -, hMem⟩
    obtain ⟨name', hName, hEq⟩ := List.mem_map.mp hMem
    cases hEq
    exact hName
  · intro hName
    rcases hKinds with hKind | hNil
    · exact ⟨kind, hKind, List.mem_map_of_mem hName⟩
    · exact absurd (hNil ▸ hName) List.not_mem_nil

theorem mem_orderNodes {fields : PlanFields} {n : String} :
    n ∈ orderNodes fields ↔ n ∈ fields.targetNodes ∨ Names fields.targetNode n := by
  unfold orderNodes Names
  cases hNode : fields.targetNode with
  | none => simp [truthy]
  | some t =>
    by_cases hEmpty : t = ""
    · simp only [truthy, hEmpty]
      grind
    · by_cases hMem : t ∈ fields.targetNodes
      · simp [truthy, hMem]
        grind
      · simp [truthy, hMem, hEmpty]
        grind

theorem nodup_orderNodes {fields : PlanFields} :
    (orderNodes fields).Nodup ↔ fields.targetNodes.Nodup := by
  unfold orderNodes
  split
  · next h => rw [List.nodup_cons, and_iff_right h.2]
  · rfl

theorem nodup_namesOf {fields : PlanFields} (strategy : RollbackStrategyKind) :
    (∀ kind ∈ stepKinds, (namesOf fields strategy kind).Nodup) ↔ fields.targetNodes.Nodup := by
  have hIf : ∀ (c : Prop) [Decidable c] {l : List String}, l.Nodup →
      (if c then l else []).Nodup := by
    intro c _ l hl
    split
    · exact hl
    · exact List.nodup_nil
  constructor
  · intro h
    exact nodup_orderNodes.mp (h .node (by decide))
  · intro h kind _
    cases kind with
    | budget => exact hIf _ (nodup_named _)
    | context => exact hIf _ (nodup_named _)
    | metadata => exact hIf _ (List.nodup_singleton _)
    | subgraph => exact nodup_named _
    | node => exact nodup_orderNodes.mpr h
    | checkpoint => exact nodup_named _
    | workflow => exact List.nodup_nil

theorem nodup_targetSteps {fields : PlanFields} (strategy : RollbackStrategyKind) :
    (targetSteps fields strategy).Nodup ↔ fields.targetNodes.Nodup := by
  have hMap : ∀ kind : StepKind,
      ((namesOf fields strategy kind).map (RecoveryStep.mk kind)).Nodup ↔
        (namesOf fields strategy kind).Nodup := fun kind =>
    List.nodup_map_iff fun _ _ h => (RecoveryStep.mk.inj h).2
  -- steps of two kinds are never the same
  have hDisjoint : stepKinds.Pairwise fun kind kind' =>
      ((namesOf fields strategy kind).map (RecoveryStep.mk kind)).Disjoint
        ((namesOf fields strategy kind').map (RecoveryStep.mk kind')) := by
    have hKinds : stepKinds.Nodup := by decide
    refine hKinds.imp fun {kind kind'} hNe s hs hs' => ?_
    obtain ⟨_, -, rfl⟩ := List.mem_map.mp hs
    obtain ⟨_, -, hEq⟩ := List.mem_map.mp hs'
    exact hNe (RecoveryStep.mk.inj hEq).1.symm
  unfold targetSteps
  rw [List.nodup_flatMap, and_iff_left hDisjoint, ← nodup_namesOf strategy]
  simp only [hMap]

theorem nodup_recoveryOrder {fields : PlanFields} (strategy : RollbackStrategyKind) :
    (recoveryOrder fields strategy).Nodup ↔ fields.targetNodes.Nodup := by
  rw [recoveryOrder_eq, List.nodup_map_iff RecoveryStep.text_injective,
    ← nodup_targetSteps strategy, recoverySteps]
  split
  · next hNil => simp [hNil]
  · rfl

-- ------ Dependencies

variable {order : List String} {step dep : String}

theorem dependencies_eq (order : List String) :
    dependencies order =
      Dict.replay (order.zipIdx.map fun e => (e.1, order.take e.2)) := by
  unfold dependencies Dict.replay
  rw [List.foldl_map]

theorem mem_keys_dependencies : step ∈ (dependencies order).keys ↔ step ∈ order := by
  rw [Dict.mem_keys_iff, dependencies_eq, Dict.isSome_get?_replay, List.map_map]
  have hSteps : order.zipIdx.map (Prod.fst ∘ fun e => (e.1, order.take e.2)) = order :=
    List.zipIdx_map_fst 0 order
  rw [hSteps]

theorem get?_dependencies {deps : List String} (h : (dependencies order).get? step = some deps) :
    ∃ i, order[i]? = some step ∧ deps = order.take i := by
  rw [dependencies_eq] at h
  obtain ⟨⟨step', i⟩, hMem, hEq⟩ := List.mem_map.mp (Dict.mem_of_get?_replay h)
  cases hEq
  exact ⟨i, List.mem_zipIdx_iff_getElem?.mp hMem, rfl⟩

theorem idxOf_lt_of_dependencies (hNodup : order.Nodup) {deps : List String}
    (h : (dependencies order).get? step = some deps) (hDep : dep ∈ deps) :
    order.idxOf dep < order.idxOf step := by
  obtain ⟨i, hStep, rfl⟩ := get?_dependencies h
  obtain ⟨hi, rfl⟩ := List.getElem?_eq_some_iff.mp hStep
  obtain ⟨j, hj, rfl⟩ := List.mem_take_iff_getElem.mp hDep
  rw [hNodup.idxOf_getElem, hNodup.idxOf_getElem]
  omega

end RollbackPlanner

-- ------ Schedules

open RollbackPlanner

section Plan

variable {fields : PlanFields} {level : RollbackLevel} {planId : String} {rollbackId : RollbackId}
  {now : Timestamp} {rp : RollbackPlan}

/-- A plan names what the fields name, and its order is theirs. -/
structure MadeFrom (rp : RollbackPlan) (fields : PlanFields) : Prop where
  restores : ∀ s, rp.Restores s ↔ s ∈ targetSteps fields fields.rollbackStrategy
  workflowId : rp.workflowId = fields.workflowId
  order : rp.recoveryOrder = recoveryOrder fields fields.rollbackStrategy
  dependencies : rp.recoveryDependencies = dependencies rp.recoveryOrder

theorem madeFrom_of_assemble (h : assemble fields level planId rollbackId now = .ok rp) :
    MadeFrom rp fields := by
  have hIf : ∀ (c : Prop) [Decidable c] (l : List String) (n : String),
      n ∈ (if c then l else []) ↔ c ∧ n ∈ l := by
    intro c _ l n
    split
    · next hc => simp [hc]
    · next hc => simp [hc]
  unfold assemble at h
  dsimp only at h
  split at h
  · contradiction
  · obtain rfl := Except.ok.inj h
    refine ⟨fun s => ?_, rfl, rfl, rfl⟩
    rw [mem_targetSteps]
    obtain ⟨kind, name⟩ := s
    cases kind with
    | budget => simp only [RollbackPlan.Restores, namesOf, hIf, mem_named]
    | context => simp only [RollbackPlan.Restores, namesOf, hIf, mem_named]
    | metadata => simp only [RollbackPlan.Restores, namesOf, hIf, List.mem_singleton]
    | subgraph => simp only [RollbackPlan.Restores, namesOf, mem_named]
    | node => simp only [RollbackPlan.Restores, namesOf, mem_orderNodes]
    | checkpoint => simp only [RollbackPlan.Restores, namesOf, mem_named]
    | workflow => simp only [RollbackPlan.Restores, namesOf, List.not_mem_nil]

namespace MadeFrom

theorem isStep_iff (h : MadeFrom rp fields) (s : RecoveryStep) :
    rp.IsStep s ↔ s ∈ recoverySteps fields fields.rollbackStrategy := by
  unfold RollbackPlan.IsStep recoverySteps
  simp only [h.restores, h.workflowId, ← List.eq_nil_iff_forall_not_mem]
  split
  · next hNil => simp [hNil]
  · next hSome => simp [hSome]

theorem lists (h : MadeFrom rp fields) (text : String) :
    text ∈ rp.recoveryOrder ↔ ∃ s, rp.IsStep s ∧ s.text = text := by
  simp only [h.order, recoveryOrder_eq, List.mem_map, h.isStep_iff]

theorem earlier (h : MadeFrom rp fields) (hNodup : rp.recoveryOrder.Nodup) {step dep : String}
    (hDepends : rp.DependsOn step dep) :
    rp.recoveryOrder.idxOf dep < rp.recoveryOrder.idxOf step := by
  obtain ⟨deps, hGet, hDep⟩ := hDepends
  rw [h.dependencies] at hGet
  exact idxOf_lt_of_dependencies hNodup hGet hDep

theorem schedule_iff_nodup (h : MadeFrom rp fields) : rp.IsSchedule ↔ fields.targetNodes.Nodup := by
  rw [← nodup_recoveryOrder fields.rollbackStrategy, ← h.order]
  constructor
  · exact fun hSchedule => hSchedule.once
  · intro hNodup
    have hEarlier : ∀ step dep, rp.DependsOn step dep →
        rp.recoveryOrder.idxOf dep < rp.recoveryOrder.idxOf step :=
      fun _ _ hDepends => h.earlier hNodup hDepends
    refine ⟨h.lists, hNodup, fun text => ?_, ?_, hEarlier⟩
    · rw [h.dependencies, mem_keys_dependencies]
    · have hPlaces : Acyclic fun i j : Nat => j < i := by
        intro i hi
        rw [Relation.transGen_eq_self] at hi
        exact lt_irrefl i hi
      exact hPlaces.of_map (rp.recoveryOrder.idxOf ·) hEarlier

end MadeFrom

end Plan

/-- **When the recovery order is a schedule.** For every observation and strategy that the planner
accepts, it is one iff the target nodes that the strategy leaves name no node twice. -/
theorem isSchedule_iff {planner : RollbackPlanner} {observation : ObservationArg}
    {strategy : StrategyArg} {level : Option RollbackLevel} {planId : String}
    {rollbackId : RollbackId} {now : Timestamp} {rp : RollbackPlan}
    (hPlan : planner.planWith observation strategy level planId rollbackId now = .ok rp) :
    ∃ obs fields, observation.normalize = .ok obs ∧ planner.shape obs strategy = .ok fields ∧
      (rp.IsSchedule ↔ fields.targetNodes.Nodup) := by
  unfold planWith at hPlan
  cases hObs : observation.normalize with
  | error e =>
    rw [hObs] at hPlan
    contradiction
  | ok obs =>
    cases hFields : planner.shape obs strategy with
    | error e =>
      rw [hObs] at hPlan
      simp only [bind, Except.bind, hFields] at hPlan
      contradiction
    | ok fields =>
      have hAssemble : assemble (fallBack fields) (level.getD fields.rollbackLevel) planId
          rollbackId now = .ok rp := by
        rw [hObs] at hPlan
        simpa only [bind, Except.bind, hFields] using hPlan
      refine ⟨obs, fields, rfl, hFields, ?_⟩
      rw [(madeFrom_of_assemble hAssemble).schedule_iff_nodup, (fallBack_keeps fields).1]

def failureOf (failedNodes : List String) (nodeId : Option String) : FailureObservation :=
  { workflowId := "wf", executionId := "ex", failedNodes, nodeId, checkpointReference := some "cp" }

def targetsTwo : CustomStrategy := { overrides := { targetNodes := some ["b", "a"] } }

theorem isSchedule_iff_custom :
    ∃ rp, (({} : RollbackPlanner).planWith (.observation (failureOf ["a", "a"] (some "a")))
      (.object fun fields => .ok (targetsTwo.applyPlan fields)) none "p" "r" 0) = .ok rp ∧
      rp.IsSchedule := by
  refine ⟨_, rfl, ?_⟩
  obtain ⟨obs, fields, hObs, hFields, hIff⟩ := @isSchedule_iff {}
    (.observation (failureOf ["a", "a"] (some "a")))
    (.object fun fields => .ok (targetsTwo.applyPlan fields)) _ _ _ _ _ rfl
  refine hIff.mpr ?_
  obtain rfl := Except.ok.inj hObs
  obtain rfl := Except.ok.inj hFields
  show ["b", "a"].Nodup
  simp

/-- A failed node that is listed twice stands twice in the order. -/
theorem order_repeats :
    ¬ ∀ (planner : RollbackPlanner) (obs : FailureObservation) (rp : RollbackPlan),
      planner.planWith (.observation obs) .auto none "p" "r" 0 = .ok rp → rp.IsSchedule := by
  intro h
  have hOnce := (h {} (failureOf ["a", "a"] none) _ rfl).once
  have hOrder : ¬ ["node:" ++ "a", "node:" ++ "a", "checkpoint:" ++ "cp"].Nodup := by simp
  exact hOrder hOnce

end Neuroswarm.Rollback
