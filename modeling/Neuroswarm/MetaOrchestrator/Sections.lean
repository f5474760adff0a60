import Neuroswarm.MetaOrchestrator.Executions

/-!
# Meta orchestrator — where conditions are checked

Conditions are checked in three places: in `step` before the dispatches, in `step`
after the polls, and in `_try_skip_blocked`. `sections` lists the ones that an
action runs through, with the execution each of them finds; `Section.checks` lists
what it compares conditions with, namely the node sets of the moment and the map
that is handed to `evaluate`.
-/

namespace Neuroswarm.MetaOrchestrator

open Swarm

/-- A piece of the coordinator between two awaits that looks at conditions. -/
inductive Section where
  | prepare
  | finish
  | trySkipBlocked
  deriving DecidableEq, Repr

namespace Coordinator

variable (c : Coordinator)

-- ------ Sections of an action

/-- `afterStep`. -/
def afterStepSections (ex : WorkflowExecution) : List (Section × WorkflowExecution) :=
  if ex.status ∈ terminalWorkflowStatuses then []
  else if ex.readyNodes = [] ∧ ex.currentNodes = [] ∧ ex.pendingNodes = [] then []
  else if ex.readyNodes = [] ∧ ex.currentNodes = [] then [(.trySkipBlocked, ex)]
  else []

/-- `endStep`. -/
def endStepSections (p : Party) (ex : WorkflowExecution) : List (Section × WorkflowExecution) :=
  (.finish, ex) ::
    match c.finish ex with
    | (_, some _) => []
    | (ex, none) => if p.looping then afterStepSections ex else []

/-- `pollNext`. -/
def pollNextSections (p : Party) (ex : WorkflowExecution) (todo : List (RequestId × ExecutionRequest)) :
    List (Section × WorkflowExecution) :=
  match todo with
  | [] => c.endStepSections p ex
  | _ :: _ => []

/-- `dispatchNext`. -/
def dispatchNextSections (sh : Shared) (p : Party) (ex : WorkflowExecution) (todo : List NodeId) :
    List (Section × WorkflowExecution) :=
  match todo with
  | [] => c.pollNextSections p ex (if c.pollRetries = 0 then [] else sh.inflight.entries)
  | _ :: _ => []

/-- `beginStep`. -/
def beginStepSections (sh : Shared) (p : Party) (ex : WorkflowExecution) :
    List (Section × WorkflowExecution) :=
  (.prepare, ex) ::
    match c.prepare ex with
    | (_, .error _) => []
    | (ex, .ok toDispatch) => c.dispatchNextSections sh p ex toDispatch

/-- `loopTop`. -/
def loopTopSections (sh : Shared) (p : Party) : List (Section × WorkflowExecution) :=
  if p.execution.status ∈ terminalWorkflowStatuses then []
  else if p.execution.cancelRequested then []
  else c.beginStepSections sh p p.execution

/-- `receive`. -/
def receiveSections (sh : Shared) (p : Party) (requestId : RequestId)
    (todo : List (RequestId × ExecutionRequest)) (signal : ExecutionSignal) :
    List (Section × WorkflowExecution) :=
  let ex := p.execution.applySignal signal
  let sh := drop sh ex.executionId requestId
  if signal.kind = .failure then
    match retryFailed sh ex signal with
    | (_, _, some _) => []
    | (_, ex, none) => c.pollNextSections p ex todo
  else c.pollNextSections p ex todo

/-- `act`. -/
def sections (sh : Shared) (p : Party) (action : Action) : List (Section × WorkflowExecution) :=
  match action, p.position with
  | .step, .idle _ => c.beginStepSections sh { p with looping := false } p.execution.beginSingle
  | .advance, .top => c.loopTopSections sh p
  | .submitted requestId, .dispatching nid assignment todo =>
    let sh := recordRequest sh p.execution assignment requestId
    c.dispatchNextSections sh p (p.execution.markRunning nid) todo
  | .polled none, .polling (_ :: todo) tries =>
    if tries ≤ 1 then c.pollNextSections p p.execution todo else []
  | .polled (some signal), .polling (e :: todo) _ => c.receiveSections sh p e.1 todo signal
  | _, _ => []

-- ------ Checks of a section

structure Check where
  sets : NodeSets
  ctx : ConditionCtx

/-- `resolve`; a request to cancel comes before the conditions. -/
def resolveChecks (s : NodeSets) (cancelRequested : Bool) (ctx : ConditionCtx) : List Check :=
  if cancelRequested then [] else [{ sets := s, ctx := s.resolveCtx ctx }]

/-- `skipLoop`: one `should_skip` for each node it does not pass over. -/
def skipLoopChecks (g : TaskGraph) (ctx : ConditionCtx) (keep : List NodeId) :
    List NodeId → WorkflowExecution → List Check
  | [], _ => []
  | nid :: rest, ex =>
    if nid ∈ keep then skipLoopChecks g ctx keep rest ex
    else
      match g.nodes.get? nid with
      | none => []
      | some node =>
        { sets := ex.sets, ctx := ctx } ::
          match shouldSkip c.registry g ctx ex.completedNodes nid node with
          | .error _ => []
          | .ok false => skipLoopChecks g ctx keep rest ex
          | .ok true => skipLoopChecks g ctx keep rest (ex.skip nid)

/-- What is left out of the loop that skips nodes. -/
def kept (g : TaskGraph) (sec : Section) (ex : WorkflowExecution) : List NodeId :=
  match sec with
  | .prepare =>
    match resolve c.registry g ex.sets ex.cancelRequested ex.conditionCtx with
    | .error _ => []
    | .ok ready => ready ++ ex.currentNodes
  | .finish | .trySkipBlocked => []

def checks (g : TaskGraph) (sec : Section) (ex : WorkflowExecution) : List Check :=
  let ctx := ex.conditionCtx
  let loop := c.skipLoop g ctx (c.kept g sec ex) ex.pendingNodes ex
  let loopChecks := c.skipLoopChecks g ctx (c.kept g sec ex) ex.pendingNodes ex
  match sec with
  | .prepare =>
    resolveChecks ex.sets ex.cancelRequested ctx ++
      match resolve c.registry g ex.sets ex.cancelRequested ctx with
      | .error _ => []
      | .ok _ =>
        loopChecks ++
          match loop with
          | (_, .error _) => []
          | (ex, .ok _) => resolveChecks ex.sets ex.cancelRequested ctx
  | .finish => resolveChecks ex.sets ex.cancelRequested ctx
  | .trySkipBlocked =>
    loopChecks ++
      match loop with
      | (_, .error _) => []
      | (_, .ok false) => []
      | (ex, .ok true) => resolveChecks ex.sets false ctx

/-- `should_skip` says so. -/
def Skippable (g : TaskGraph) (ctx : ConditionCtx) (ex : WorkflowExecution) (v : NodeId) : Prop :=
  ∃ node, g.nodes.get? v = some node ∧
    shouldSkip c.registry g ctx ex.completedNodes v node = .ok true

def Skips (g : TaskGraph) (sec : Section) (ex : WorkflowExecution) (v : NodeId) : Prop :=
  v ∈ ex.pendingNodes ∧ v ∉ c.kept g sec ex ∧ c.Skippable g ex.conditionCtx ex v

end Coordinator

-- ------ The loop that skips nodes

section

variable {c : Coordinator} {g : TaskGraph} {ctx : ConditionCtx} {keep l : List NodeId}
  {ex : WorkflowExecution}

/-- What the loop has skipped so far, in every state in which it checks and in the last one. -/
structure Skipping (c : Coordinator) (g : TaskGraph) (ctx : ConditionCtx) (keep l : List NodeId)
    (ex : WorkflowExecution) (s : NodeSets) : Prop where
  completed : s.completed = ex.completedNodes
  failed : s.failed = ex.failedNodes
  running : s.running = ex.currentNodes
  kept : ex.skippedNodes ⊆ s.skipped
  skipped : ∀ v ∈ s.skipped, v ∈ ex.skippedNodes ∨ v ∈ l ∧ v ∉ keep ∧ c.Skippable g ctx ex v

theorem Skipping.refl (l : List NodeId) (ex : WorkflowExecution) :
    Skipping c g ctx keep l ex ex.sets :=
  ⟨rfl, rfl, rfl, List.Subset.refl _, fun _ hv => .inl hv⟩

theorem Skipping.pass {nid : NodeId} {s : NodeSets} (h : Skipping c g ctx keep l ex s) :
    Skipping c g ctx keep (nid :: l) ex s where
  completed := h.completed
  failed := h.failed
  running := h.running
  kept := h.kept
  skipped v hv := (h.skipped v hv).imp_right fun hv => ⟨List.mem_cons_of_mem _ hv.1, hv.2⟩

theorem Skipping.skip {nid : NodeId} {s : NodeSets} (hKeep : nid ∉ keep)
    (hSkip : c.Skippable g ctx ex nid)
    (h : Skipping c g ctx keep l (ex.skip nid) s) : Skipping c g ctx keep (nid :: l) ex s where
  completed := h.completed
  failed := h.failed
  running := h.running
  kept _ hv := h.kept (mem_appendNew.mpr (.inl hv))
  skipped v hv := by
    rcases h.skipped v hv with hOld | hNew
    · rcases mem_appendNew.mp hOld with hOld | rfl
      · exact .inl hOld
      · exact .inr ⟨List.mem_cons_self .., hKeep, hSkip⟩
    · exact .inr ⟨List.mem_cons_of_mem _ hNew.1, hNew.2⟩

theorem skipLoopChecks_skipping {chk : Coordinator.Check}
    (h : chk ∈ c.skipLoopChecks g ctx keep l ex) :
    chk.ctx = ctx ∧ Skipping c g ctx keep l ex chk.sets := by
  induction l generalizing ex with
  | nil => cases h
  | cons nid l ih =>
    unfold Coordinator.skipLoopChecks at h
    split at h
    · exact ⟨(ih h).1, (ih h).2.pass⟩
    · next hKeep =>
      split at h
      · cases h
      · next node hNode =>
        rcases List.mem_cons.mp h with rfl | h
        · exact ⟨rfl, .refl _ _⟩
        · split at h
          · cases h
          · exact ⟨(ih h).1, (ih h).2.pass⟩
          · next hSkip => exact ⟨(ih h).1, (ih h).2.skip hKeep ⟨node, hNode, hSkip⟩⟩

theorem skipLoop_skipping (c : Coordinator) (g : TaskGraph) (ctx : ConditionCtx)
    (keep l : List NodeId) (ex : WorkflowExecution) :
    Skipping c g ctx keep l ex (c.skipLoop g ctx keep l ex).1.sets := by
  induction l generalizing ex with
  | nil => exact .refl _ _
  | cons nid l ih =>
    unfold Coordinator.skipLoop
    split
    · exact (ih ex).pass
    · next hKeep =>
      split
      · exact .refl _ _
      · next node hNode =>
        split
        · exact .refl _ _
        · exact (ih ex).pass
        · next hSkip => exact (ih (ex.skip nid)).skip hKeep ⟨node, hNode, hSkip⟩

variable {ex' : WorkflowExecution}

theorem skipLoop_cons_ok {nid : NodeId} {changed : Bool}
    (h : c.skipLoop g ctx keep (nid :: l) ex = (ex', .ok changed)) :
    ((nid ∈ keep ∨ ¬ c.Skippable g ctx ex nid) ∧ c.skipLoop g ctx keep l ex = (ex', .ok changed)) ∨
      (nid ∉ keep ∧ c.Skippable g ctx ex nid ∧ changed = true ∧
        ∃ changed', c.skipLoop g ctx keep l (ex.skip nid) = (ex', .ok changed')) := by
  unfold Coordinator.skipLoop at h
  split at h
  · next hKeep => exact .inl ⟨.inl hKeep, h⟩
  · next hKeep =>
    split at h
    · cases h
    · next node hNode =>
      split at h
      · cases h
      · next hPass =>
        refine .inl ⟨.inr ?_, h⟩
        rintro ⟨node', hNode', hSkip⟩
        rw [hNode] at hNode'
        cases hNode'
        rw [hPass] at hSkip
        cases hSkip
      · next hSkip =>
        obtain ⟨hEx, hRest⟩ := Prod.mk.inj h
        cases hLoop : (c.skipLoop g ctx keep l (ex.skip nid)).2 with
        | error f =>
          rw [hLoop] at hRest
          cases hRest
        | ok changed' =>
          rw [hLoop] at hRest
          cases hRest
          exact .inr ⟨hKeep, ⟨node, hNode, hSkip⟩, rfl, changed', Prod.ext hEx hLoop⟩

theorem skipLoop_changed {changed : Bool} (h : c.skipLoop g ctx keep l ex = (ex', .ok changed)) :
    changed = true ↔ ∃ v ∈ l, v ∉ keep ∧ c.Skippable g ctx ex v := by
  induction l generalizing ex changed with
  | nil =>
    cases h
    simp
  | cons nid l ih =>
    rcases skipLoop_cons_ok h with ⟨hPass, hRest⟩ | ⟨hKeep, hSkip, rfl, -⟩
    · rw [ih hRest]
      constructor
      · rintro ⟨v, hv, hSkips⟩
        exact ⟨v, List.mem_cons_of_mem _ hv, hSkips⟩
      · rintro ⟨v, hv, hKeep, hSkip⟩
        rcases List.mem_cons.mp hv with rfl | hv
        · exact absurd hPass (not_or.mpr ⟨hKeep, not_not.mpr hSkip⟩)
        · exact ⟨v, hv, hKeep, hSkip⟩
    · exact iff_of_true rfl ⟨nid, List.mem_cons_self .., hKeep, hSkip⟩

theorem skipLoop_unchanged (h : c.skipLoop g ctx keep l ex = (ex', .ok false)) : ex' = ex := by
  induction l with
  | nil =>
    cases h
    rfl
  | cons nid l ih =>
    rcases skipLoop_cons_ok h with ⟨-, hRest⟩ | ⟨-, -, hChanged, -⟩
    · exact ih hRest
    · cases hChanged

theorem mem_skipLoop {changed : Bool} (h : c.skipLoop g ctx keep l ex = (ex', .ok changed))
    {v : NodeId} (hv : v ∈ l) (hKeep : v ∉ keep) (hSkip : c.Skippable g ctx ex v) :
    v ∈ ex'.skippedNodes := by
  induction l generalizing ex changed with
  | nil => cases hv
  | cons nid l ih =>
    rcases skipLoop_cons_ok h with ⟨hPass, hRest⟩ | ⟨-, -, -, changed', hRest⟩
    · rcases List.mem_cons.mp hv with rfl | hv
      · exact absurd hPass (not_or.mpr ⟨hKeep, not_not.mpr hSkip⟩)
      · exact ih hRest hv hSkip
    · rcases List.mem_cons.mp hv with rfl | hv
      · have hLast : Skipping c g ctx keep l (ex.skip v) ex'.sets := by
          have hAny := skipLoop_skipping c g ctx keep l (ex.skip v)
          rw [hRest] at hAny
          exact hAny
        exact hLast.kept (mem_appendNew.mpr (.inr rfl))
      · exact ih hRest hv hSkip

end

-- ------ What a section finds

/-- A step of `coordinate` has ended with nothing ready, nothing running and something pending. -/
structure Blocked (c : Coordinator) (ex : WorkflowExecution) : Prop where
  finished : ∃ ex₀, c.finish ex₀ = (ex, none)
  active : ex.status ∉ terminalWorkflowStatuses
  ready : ex.readyNodes = []
  current : ex.currentNodes = []
  pending : ex.pendingNodes ≠ []

/-- A section finds what the moves before it have left; the last one finds a blocked execution. -/
structure Found (c : Coordinator) (g : TaskGraph) (ex : WorkflowExecution)
    (entry : Section × WorkflowExecution) : Prop where
  moves : Moves g ex entry.2
  blocked : entry.1 = .trySkipBlocked → Blocked c entry.2

theorem Found.after {c : Coordinator} {g : TaskGraph} {ex ex' : WorkflowExecution}
    {entry : Section × WorkflowExecution} (h : Found c g ex' entry) (hMoves : Moves g ex ex') :
    Found c g ex entry :=
  ⟨hMoves.trans h.moves, h.blocked⟩

section

variable {c : Coordinator} {g : TaskGraph} {sh : Shared} {p : Party} {ex : WorkflowExecution}
  {entry : Section × WorkflowExecution}

theorem found_endStep (h : entry ∈ c.endStepSections p ex) : Found c g ex entry := by
  unfold Coordinator.endStepSections at h
  rcases List.mem_cons.mp h with rfl | h
  · exact ⟨.refl, fun h => by cases h⟩
  · have hFinish : Moves g ex (c.finish ex).1 := Moves.finish
    split at h
    · cases h
    · next ex' hEq =>
      split at h
      · unfold Coordinator.afterStepSections at h
        split at h
        · cases h
        · next hActive =>
          split at h
          · cases h
          · next hSome =>
            split at h
            · next hIdle =>
              rw [List.mem_singleton.mp h]
              rw [hEq] at hFinish
              exact ⟨hFinish, fun _ => ⟨⟨ex, hEq⟩, hActive, hIdle.1, hIdle.2,
                fun hNone => hSome ⟨hIdle.1, hIdle.2, hNone⟩⟩⟩
            · cases h
      · cases h

theorem found_pollNext {todo : List (RequestId × ExecutionRequest)}
    (h : entry ∈ c.pollNextSections p ex todo) : Found c g ex entry := by
  cases todo with
  | nil => exact found_endStep h
  | cons e todo => cases h

theorem found_dispatchNext {todo : List NodeId} (h : entry ∈ c.dispatchNextSections sh p ex todo) :
    Found c g ex entry := by
  cases todo with
  | nil => exact found_pollNext h
  | cons nid todo => cases h

theorem found_beginStep (hGraph : ex.graph = .graph g) (h : entry ∈ c.beginStepSections sh p ex) :
    Found c g ex entry := by
  unfold Coordinator.beginStepSections at h
  rcases List.mem_cons.mp h with rfl | h
  · exact ⟨.refl, fun h => by cases h⟩
  · have hPrepare := Moves.prepare (c := c) hGraph
    split at h
    · cases h
    · next hEq =>
      rw [hEq] at hPrepare
      exact (found_dispatchNext h).after hPrepare

theorem found_receive (hGraph : p.execution.graph = .graph g) {r : RequestId}
    {todo : List (RequestId × ExecutionRequest)} {signal : ExecutionSignal}
    (h : entry ∈ c.receiveSections sh p r todo signal) :
    ∃ ex', Noted p.execution signal ex' ∧ Found c g ex' entry := by
  unfold Coordinator.receiveSections Coordinator.retryFailed at h
  dsimp only at h
  have hSame : (p.execution.applySignal signal).graph = .graph g := Noted.applied.graph.trans hGraph
  split at h
  · rw [hSame] at h
    dsimp only at h
    cases hNode : g.nodes.get? signal.nodeId with
    | none =>
      rw [hNode] at h
      cases h
    | some node =>
      rw [hNode] at h
      exact ⟨_, .decided _, found_pollNext h⟩
  · exact ⟨_, .applied, found_pollNext h⟩

/-- **Sections come after the call of their action, and moves.** -/
theorem found_sections (hGraph : p.execution.graph = .graph g) {action : Action}
    (h : entry ∈ c.sections sh p action) : ∃ ex', Call p action ex' ∧ Found c g ex' entry := by
  unfold Coordinator.sections at h
  split at h
  · exact ⟨_, .beginSingle _, found_beginStep ((Call.beginSingle .step).graph.trans hGraph) h⟩
  · unfold Coordinator.loopTopSections at h
    split at h
    · cases h
    · split at h
      · cases h
      · exact ⟨_, .nothing _, found_beginStep hGraph h⟩
  · next hPosition => exact ⟨_, .dispatched hPosition _, found_dispatchNext h⟩
  · split at h
    · exact ⟨_, .nothing _, found_pollNext h⟩
    · cases h
  · next hPosition =>
    obtain ⟨ex', hNoted, hFound⟩ := found_receive hGraph h
    exact ⟨ex', .noted hPosition hNoted, hFound⟩
  · cases h

end

end Neuroswarm.MetaOrchestrator

/-!
## Progress

A node is ready when its predecessors are completed or skipped; it is skipped when
they are all completed. A node that waits behind a skipped one and whose conditions
fail is neither: it is barred.

* `movable_iff_not_barred` — a waiting node is ready, skippable or barred.
* `movable_iff_unbarred` — where nothing runs, something can move exactly if not all
  that waits is barred.
-/

namespace Neuroswarm.MetaOrchestrator

open Swarm

-- ------ Nodes that can be next

/-- A node that is in none of the lists. -/
structure Open (g : TaskGraph) (s : NodeSets) (n : NodeId) : Prop where
  node : n ∈ g.ids
  notDone : n ∉ s.done
  notBlocked : n ∉ s.blocked

/-- An open node with all its predecessors completed or skipped. -/
structure Waits (g : TaskGraph) (s : NodeSets) (n : NodeId) : Prop extends Open g s n where
  preds : ∀ p, g.Precedes p n → p ∈ s.done

section

variable (c : Coordinator) (g : TaskGraph)

/-- The conditions of `n` hold for `resolve`. -/
def Ready (s : NodeSets) (ctx : ConditionCtx) (n : NodeId) : Prop :=
  ∃ node, g.nodes.get? n = some node ∧
    isReady c.registry g s (s.resolveCtx ctx) n node = .ok true

/-- The conditions of `n` fail for `resolve`, and `should_skip` does not skip it: a predecessor was
skipped, or in the map as it is the conditions hold. -/
def Barred (ex : WorkflowExecution) (n : NodeId) : Prop :=
  ∃ node, g.nodes.get? n = some node ∧
    conditionsOk c.registry g (ex.sets.resolveCtx ex.conditionCtx) ex.sets.done n node = .ok false ∧
    ((∃ p, g.Precedes p n ∧ p ∉ ex.completedNodes) ∨
      conditionsOk c.registry g ex.conditionCtx ex.completedNodes n node = .ok true)

def Evaluates (registry : Registry) (g : TaskGraph) (environment : Environment) : Prop :=
  ∀ condition, ((∃ e ∈ g.edges, e.condition = condition) ∨
      ∃ n node, g.nodes.get? n = some node ∧ node.condition = condition) →
    ∀ statuses, ∃ b, ConditionCtx.evaluate registry
      { environment := environment, nodeStatuses := statuses } condition = .ok b

end

section

variable {c : Coordinator} {g : TaskGraph} {ctx : ConditionCtx} {completed : List NodeId}
  {n : NodeId} {node : TaskNode}

theorem edgeConditionsOk_ok (h : Evaluates c.registry g ctx.environment) (completed : List NodeId)
    (n : NodeId) : ∃ b, edgeConditionsOk c.registry ctx completed n g.edges = .ok b := by
  suffices hAll : ∀ l, (∀ e ∈ l, e ∈ g.edges) →
      ∃ b, edgeConditionsOk c.registry ctx completed n l = .ok b from hAll _ fun _ he => he
  intro l
  induction l with
  | nil => exact fun _ => ⟨true, rfl⟩
  | cons e l ih =>
    intro hSub
    have hRest := ih fun e' he' => hSub e' (List.mem_cons_of_mem _ he')
    unfold edgeConditionsOk
    split
    · exact hRest
    · split
      · exact ⟨false, rfl⟩
      · obtain ⟨b, hb⟩ := h e.condition (.inl ⟨e, hSub e (List.mem_cons_self ..), rfl⟩) ctx.nodeStatuses
        have hEval : ctx.evaluate c.registry e.condition = .ok b := hb
        rw [hEval]
        cases b with
        | true => exact hRest
        | false => exact ⟨false, rfl⟩

theorem nodeConditionOk_ok (h : Evaluates c.registry g ctx.environment)
    (hNode : g.nodes.get? n = some node) : ∃ b, nodeConditionOk c.registry ctx node = .ok b :=
  h node.condition (.inr ⟨n, node, hNode, rfl⟩) ctx.nodeStatuses

theorem conditionsOk_ok (h : Evaluates c.registry g ctx.environment) (completed : List NodeId)
    (hNode : g.nodes.get? n = some node) :
    ∃ b, conditionsOk c.registry g ctx completed n node = .ok b := by
  unfold conditionsOk
  obtain ⟨b, hEdges⟩ := edgeConditionsOk_ok h completed n
  rw [hEdges]
  cases b with
  | true => exact nodeConditionOk_ok h hNode
  | false => exact ⟨false, rfl⟩

theorem edge_of_edgeConditionsOk {l : List TaskEdge}
    (h : edgeConditionsOk c.registry ctx completed n l = .ok false) :
    ∃ e ∈ l, e.dst = n ∧ e.isBlocking ∧ e.condition.isSome := by
  induction l with
  | nil => cases h
  | cons e l ih =>
    unfold edgeConditionsOk at h
    split at h
    · obtain ⟨e', he', hEdge⟩ := ih h
      exact ⟨e', List.mem_cons_of_mem _ he', hEdge⟩
    · next hPass =>
      obtain ⟨hDst, hPass⟩ := not_or.mp hPass
      obtain ⟨hBlocking, hCondition⟩ := not_or.mp hPass
      exact ⟨e, List.mem_cons_self .., not_not.mp hDst, by simpa using hBlocking,
        by simpa [Option.isSome_iff_ne_none] using hCondition⟩

theorem shouldSkip_iff (h : Evaluates c.registry g ctx.environment)
    (hNode : g.nodes.get? n = some node) :
    shouldSkip c.registry g ctx completed n node = .ok true ↔
      (∀ p, g.Precedes p n → p ∈ completed) ∧
        conditionsOk c.registry g ctx completed n node = .ok false := by
  obtain ⟨b, hCondition⟩ := nodeConditionOk_ok h hNode
  obtain ⟨b', hEdges⟩ := edgeConditionsOk_ok h completed n
  unfold shouldSkip conditionsOk
  rw [hCondition, hEdges]
  by_cases hPreds : ∀ p, g.Precedes p n → p ∈ completed
  · have hSat : hardPredecessorsSatisfied g n completed [] = true :=
      hardPredecessorsSatisfied_iff.mpr fun p hp => .inl (hPreds p hp)
    rw [hSat, if_neg (by simp)]
    cases b with
    | false =>
      cases b' with
      | true => exact ⟨fun _ => ⟨hPreds, rfl⟩, fun _ => rfl⟩
      | false => exact ⟨fun _ => ⟨hPreds, rfl⟩, fun _ => rfl⟩
    | true =>
      cases b' with
      | true => exact ⟨fun h => (by cases h), fun h => (by cases h.2)⟩
      | false =>
        -- the edge that fails comes from a completed node
        have hConditional : hasConditionalEdge g completed n = true := by
          obtain ⟨e, he, hDst, hBlocking, hSome⟩ := edge_of_edgeConditionsOk hEdges
          refine List.any_eq_true.mpr ⟨e, he, decide_eq_true ⟨hDst, hSome, ?_⟩⟩
          exact hPreds e.src (TaskGraph.precedes_iff.mpr ⟨e, he, hBlocking, rfl, hDst⟩)
        dsimp only
        rw [hConditional]
        exact ⟨fun _ => ⟨hPreds, rfl⟩, fun _ => rfl⟩
  · have hSat : hardPredecessorsSatisfied g n completed [] = false := by
      rw [Bool.eq_false_iff]
      intro hSat
      refine hPreds fun p hp => ?_
      rcases hardPredecessorsSatisfied_iff.mp hSat p hp with h' | h'
      · exact h'
      · exact absurd h' List.not_mem_nil
    rw [hSat, if_pos rfl]
    exact ⟨fun h => (by cases h), fun h => absurd h.1 hPreds⟩

end

-- ------ Progress in a state

section

variable {c : Coordinator} {g : TaskGraph} {ex : WorkflowExecution} {n : NodeId}

theorem Ready.waits {s : NodeSets} {ctx : ConditionCtx} (h : Ready c g s ctx n) : Waits g s n := by
  obtain ⟨node, hNode, hReady⟩ := h
  obtain ⟨hDone, hBlocked, hPreds, -⟩ := isReady_iff.mp hReady
  exact ⟨⟨Dict.mem_keys_iff.mpr (by rw [hNode]; rfl), hDone, hBlocked⟩, hPreds⟩

/-- **A waiting node is ready, skippable or barred**, and barred only if it is neither. -/
theorem movable_iff_not_barred (hEval : Evaluates c.registry g ex.conditionCtx.environment)
    (h : Waits g ex.sets n) :
    Ready c g ex.sets ex.conditionCtx n ∨ c.Skippable g ex.conditionCtx ex n ↔
      ¬ Barred c g ex n := by
  obtain ⟨node, hNode⟩ := Option.isSome_iff_exists.mp (Dict.mem_keys_iff.mp h.node)
  have hEval' : Evaluates c.registry g (ex.sets.resolveCtx ex.conditionCtx).environment := hEval
  -- the two readings of the conditions: over the statuses that `resolve` fills in, and without them
  obtain ⟨b, hFilled⟩ := conditionsOk_ok hEval' ex.sets.done hNode
  obtain ⟨b', hRaw⟩ := conditionsOk_ok hEval ex.completedNodes hNode
  have hReady : Ready c g ex.sets ex.conditionCtx n ↔ b = true := by
    constructor
    · rintro ⟨node', hNode', hReady⟩
      rw [hNode] at hNode'
      cases hNode'
      have hOk := (isReady_iff.mp hReady).2.2.2
      rw [hFilled] at hOk
      exact Except.ok.inj hOk
    · rintro rfl
      exact ⟨node, hNode, isReady_iff.mpr ⟨h.notDone, h.notBlocked, h.preds, hFilled⟩⟩
  have hSkippable : c.Skippable g ex.conditionCtx ex n ↔
      (∀ p, g.Precedes p n → p ∈ ex.completedNodes) ∧ b' = false := by
    constructor
    · rintro ⟨node', hNode', hSkip⟩
      rw [hNode] at hNode'
      cases hNode'
      obtain ⟨hPreds, hFails⟩ := (shouldSkip_iff hEval hNode).mp hSkip
      rw [hRaw] at hFails
      exact ⟨hPreds, Except.ok.inj hFails⟩
    · rintro ⟨hPreds, rfl⟩
      exact ⟨node, hNode, (shouldSkip_iff hEval hNode).mpr ⟨hPreds, hRaw⟩⟩
  have hBarred : Barred c g ex n ↔
      b = false ∧ ((∃ p, g.Precedes p n ∧ p ∉ ex.completedNodes) ∨ b' = true) := by
    constructor
    · rintro ⟨node', hNode', hFails, hWhy⟩
      rw [hNode] at hNode'
      cases hNode'
      rw [hFilled] at hFails
      rw [hRaw] at hWhy
      exact ⟨Except.ok.inj hFails, hWhy.imp_right Except.ok.inj⟩
    · rintro ⟨rfl, hWhy⟩
      exact ⟨node, hNode, hFilled, hWhy.imp_right fun h => by rw [hRaw, h]⟩
  rw [hReady, hSkippable, hBarred]
  cases b with
  | true => simp
  | false =>
    cases b' with
    | true => simp
    | false => simp

theorem exists_waits (hAcyclic : EdgeList.Acyclic g.Precedes) (hClosed : g.Closed) {s : NodeSets}
    (hFree : s.blocked = []) (hOpen : ∃ n, Open g s n) : ∃ n, Waits g s n := by
  obtain ⟨n, hOpen⟩ := hOpen
  obtain ⟨r, hr⟩ := TaskGraph.exists_ready hAcyclic hClosed hOpen.node hOpen.notDone
  obtain ⟨hNode, hNot, hPreds⟩ := TaskGraph.mem_readyNodes.mp hr
  refine ⟨r, ⟨hNode, hNot, ?_⟩, hPreds⟩
  rw [hFree]
  exact List.not_mem_nil

def Unbarred (c : Coordinator) (g : TaskGraph) (ex : WorkflowExecution) : Prop :=
  (∃ n, Waits g ex.sets n ∧ Barred c g ex n) → ∃ n, Waits g ex.sets n ∧ ¬ Barred c g ex n

/-- Some open node is ready or skippable. -/
def Movable (c : Coordinator) (g : TaskGraph) (ex : WorkflowExecution) : Prop :=
  ∃ n, Open g ex.sets n ∧
    (Ready c g ex.sets ex.conditionCtx n ∨ c.Skippable g ex.conditionCtx ex n)

theorem waits_of_movable (hEval : Evaluates c.registry g ex.conditionCtx.environment)
    (hOpen : Open g ex.sets n)
    (h : Ready c g ex.sets ex.conditionCtx n ∨ c.Skippable g ex.conditionCtx ex n) :
    Waits g ex.sets n := by
  rcases h with hReady | ⟨node, hNode, hSkip⟩
  · exact hReady.waits
  · obtain ⟨hPreds, -⟩ := (shouldSkip_iff hEval hNode).mp hSkip
    exact ⟨hOpen, fun p hp => NodeSets.mem_done.mpr (.inl (hPreds p hp))⟩

/-- **Progress.** Where nothing runs, something can move exactly if not all that waits is barred. -/
theorem movable_iff_unbarred (hAcyclic : EdgeList.Acyclic g.Precedes) (hClosed : g.Closed)
    (hEval : Evaluates c.registry g ex.conditionCtx.environment) (hFree : ex.sets.blocked = []) :
    ((∃ n, Open g ex.sets n) → Movable c g ex) ↔ Unbarred c g ex := by
  constructor
  · rintro h ⟨n, hWaits, -⟩
    obtain ⟨m, hOpen, hMoves⟩ := h ⟨n, hWaits.toOpen⟩
    have hWaits := waits_of_movable hEval hOpen hMoves
    exact ⟨m, hWaits, (movable_iff_not_barred hEval hWaits).mp hMoves⟩
  · intro h hOpen
    have hSome : ∃ n, Waits g ex.sets n ∧ ¬ Barred c g ex n := by
      obtain ⟨n, hWaits⟩ := exists_waits hAcyclic hClosed hFree hOpen
      by_cases hBarred : Barred c g ex n
      · exact h ⟨n, hWaits, hBarred⟩
      · exact ⟨n, hWaits, hBarred⟩
    obtain ⟨n, hWaits, hNot⟩ := hSome
    exact ⟨n, hWaits.toOpen, (movable_iff_not_barred hEval hWaits).mpr hNot⟩

end

end Neuroswarm.MetaOrchestrator
