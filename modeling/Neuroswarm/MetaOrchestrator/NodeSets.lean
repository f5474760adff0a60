import Neuroswarm.MetaOrchestrator.Effects

/-!
# Meta orchestrator — the node sets of one execution

The invariant of an execution that is alone on its orchestrator. `Placed` is about
the execution: every node is in at most one of the sets, and no node stays failed,
since a failure is retried or skipped in the action that reports it. `Inv` adds
what in-flight requests and the coroutine's position have to do with the sets.

* `inv_act` — every action keeps it, whatever HAOE answers about the request asked.
* `nodeSets_along` — the sets are consistent all along, and what is dispatched may be.
-/

namespace Neuroswarm.MetaOrchestrator

open Swarm

/-- Every node of the graph in at most one set, none failed. -/
structure Placed (g : TaskGraph) (ex : WorkflowExecution) : Prop where
  graph : ex.graph = .graph g
  failed : ex.failedNodes = []
  completed : ∀ v ∈ ex.completedNodes, v ∈ g.ids ∧ v ∉ ex.skippedNodes ∧ v ∉ ex.currentNodes
  skipped : ∀ v ∈ ex.skippedNodes, v ∈ g.ids ∧ v ∉ ex.currentNodes
  current : ∀ v ∈ ex.currentNodes, v ∈ g.ids
  pending : ∀ v ∈ ex.pendingNodes,
    v ∉ ex.completedNodes ∧ v ∉ ex.skippedNodes ∧ v ∉ ex.currentNodes
  nodup : ex.currentNodes.Nodup

namespace Placed

variable {g : TaskGraph} {ex : WorkflowExecution} {v : NodeId}

theorem refresh (h : Placed g ex) (ready : List NodeId) : Placed g (ex.refresh ready) where
  graph := h.graph
  failed := h.failed
  completed := h.completed
  skipped := h.skipped
  current := h.current
  pending := by
    intro v hv
    obtain ⟨-, hOut⟩ := List.mem_filter.mp (mem_sorted.mp hv)
    obtain ⟨hCompleted, hSkipped, -, hCurrent⟩ := of_decide_eq_true hOut
    exact ⟨hCompleted, hSkipped, hCurrent⟩
  nodup := h.nodup

theorem skip (h : Placed g ex) (hv : v ∈ g.ids) (hCompleted : v ∉ ex.completedNodes)
    (hCurrent : v ∉ ex.currentNodes) : Placed g (ex.skip v) where
  graph := h.graph
  failed := h.failed
  completed := by
    intro w hw
    obtain ⟨hMem, hSkipped, hCur⟩ := h.completed w hw
    refine ⟨hMem, fun hIn => ?_, hCur⟩
    rcases mem_appendNew.mp hIn with hIn | rfl
    · exact hSkipped hIn
    · exact hCompleted hw
  skipped := by
    intro w hw
    rcases mem_appendNew.mp hw with hw | rfl
    · exact h.skipped w hw
    · exact ⟨hv, hCurrent⟩
  current := h.current
  pending := by
    intro w hw
    obtain ⟨hw, hNe⟩ := mem_without.mp hw
    obtain ⟨hC, hS, hCur⟩ := h.pending w hw
    refine ⟨hC, fun hIn => ?_, hCur⟩
    rcases mem_appendNew.mp hIn with hIn | hEq
    · exact hS hIn
    · exact hNe hEq
  nodup := h.nodup

theorem markRunning (h : Placed g ex) (hv : v ∈ g.ids) (hCompleted : v ∉ ex.completedNodes)
    (hSkipped : v ∉ ex.skippedNodes) : Placed g (ex.markRunning v) where
  graph := h.graph
  failed := h.failed
  completed := by
    intro w hw
    obtain ⟨hMem, hS, hCur⟩ := h.completed w hw
    refine ⟨hMem, hS, fun hIn => ?_⟩
    rcases mem_appendNew.mp hIn with hIn | rfl
    · exact hCur hIn
    · exact hCompleted hw
  skipped := by
    intro w hw
    obtain ⟨hMem, hCur⟩ := h.skipped w hw
    refine ⟨hMem, fun hIn => ?_⟩
    rcases mem_appendNew.mp hIn with hIn | rfl
    · exact hCur hIn
    · exact hSkipped hw
  current := by
    intro w hw
    rcases mem_appendNew.mp hw with hw | rfl
    · exact h.current w hw
    · exact hv
  pending := by
    intro w hw
    obtain ⟨hw, hNe⟩ := mem_without.mp hw
    obtain ⟨hC, hS, hCur⟩ := h.pending w hw
    refine ⟨hC, hS, fun hIn => ?_⟩
    rcases mem_appendNew.mp hIn with hIn | hEq
    · exact hCur hIn
    · exact hNe hEq
  nodup := appendNew_nodup h.nodup v

theorem release (h : Placed g ex) (v : NodeId) :
    Placed g { ex with currentNodes := without ex.currentNodes v } where
  graph := h.graph
  failed := h.failed
  completed w hw :=
    ⟨(h.completed w hw).1, (h.completed w hw).2.1,
      fun hIn => (h.completed w hw).2.2 (mem_without.mp hIn).1⟩
  skipped w hw := ⟨(h.skipped w hw).1, fun hIn => (h.skipped w hw).2 (mem_without.mp hIn).1⟩
  current w hw := h.current w (mem_without.mp hw).1
  pending w hw :=
    ⟨(h.pending w hw).1, (h.pending w hw).2.1,
      fun hIn => (h.pending w hw).2.2 (mem_without.mp hIn).1⟩
  nodup := h.nodup.filter _

theorem complete (h : Placed g ex) (hv : v ∈ g.ids) (hSkipped : v ∉ ex.skippedNodes)
    (hCurrent : v ∉ ex.currentNodes) (hPending : v ∉ ex.pendingNodes)
    (results : Dict NodeId NodeResult) :
    Placed g { ex with
      completedNodes := appendNew ex.completedNodes v, nodeResults := results } where
  graph := h.graph
  failed := h.failed
  completed := by
    intro w hw
    rcases mem_appendNew.mp hw with hw | rfl
    · exact h.completed w hw
    · exact ⟨hv, hSkipped, hCurrent⟩
  skipped := h.skipped
  current := h.current
  pending := by
    intro w hw
    obtain ⟨hC, hS, hCur⟩ := h.pending w hw
    refine ⟨fun hIn => ?_, hS, hCur⟩
    rcases mem_appendNew.mp hIn with hIn | rfl
    · exact hC hIn
    · exact hPending hw
  nodup := h.nodup

theorem putAside (h : Placed g ex) (hv : v ∈ g.ids) (hCompleted : v ∉ ex.completedNodes)
    (hCurrent : v ∉ ex.currentNodes) (hPending : v ∉ ex.pendingNodes)
    (results : Dict NodeId NodeResult) :
    Placed g { ex with
      skippedNodes := appendNew ex.skippedNodes v, nodeResults := results } where
  graph := h.graph
  failed := h.failed
  completed := (h.skip hv hCompleted hCurrent).completed
  skipped := (h.skip hv hCompleted hCurrent).skipped
  current := h.current
  pending := by
    intro w hw
    obtain ⟨hC, hS, hCur⟩ := h.pending w hw
    refine ⟨hC, fun hIn => ?_, hCur⟩
    rcases mem_appendNew.mp hIn with hIn | rfl
    · exact hS hIn
    · exact hPending hw
  nodup := h.nodup

theorem postpone (h : Placed g ex) (hCompleted : v ∉ ex.completedNodes)
    (hSkipped : v ∉ ex.skippedNodes) (hCurrent : v ∉ ex.currentNodes)
    (results : Dict NodeId NodeResult) :
    Placed g { ex with
      pendingNodes := appendNew ex.pendingNodes v, nodeResults := results } where
  graph := h.graph
  failed := h.failed
  completed := h.completed
  skipped := h.skipped
  current := h.current
  pending := by
    intro w hw
    rcases mem_appendNew.mp hw with hw | rfl
    · exact h.pending w hw
    · exact ⟨hCompleted, hSkipped, hCurrent⟩
  nodup := h.nodup

theorem status (h : Placed g ex) (st : WorkflowStatus) : Placed g { ex with status := st } :=
  ⟨h.graph, h.failed, h.completed, h.skipped, h.current, h.pending, h.nodup⟩

theorem move {ex' : WorkflowExecution} (hMove : Move g ex ex') (h : Placed g ex) : Placed g ex' := by
  cases hMove with
  | status st _ => exact h.status st
  | refresh ready => exact h.refresh ready
  | skip v hNode hListed hCurrent hPreds =>
    refine h.skip hNode (fun hCompleted => ?_) hCurrent
    rcases hListed with hPending | hSkipped
    · exact (h.pending v hPending).1 hCompleted
    · exact (h.completed v hCompleted).2.1 hSkipped
  | assign agents =>
    exact ⟨h.graph, h.failed, h.completed, h.skipped, h.current, h.pending, h.nodup⟩

theorem moves {ex' : WorkflowExecution} (h : Placed g ex) (hMoves : Moves g ex ex') :
    Placed g ex' :=
  hMoves.keep move h

end Placed

-- ------ Positions

/-- Nothing is awaited. -/
def Position.AtRest : Position → Prop
  | .idle _ | .top => True
  | _ => False

namespace Coordinator

variable {c : Coordinator} {ex : WorkflowExecution} {p : Party}

theorem leaveFinal_atRest : (c.leaveFinal p ex).position.AtRest := by
  unfold leaveFinal
  split
  · trivial
  · trivial

theorem afterStep_atRest : (c.afterStep p ex).position.AtRest := by
  unfold afterStep
  split
  · trivial
  · split
    · exact leaveFinal_atRest
    · split
      · split
        · trivial
        · split
          · split
            · exact leaveFinal_atRest
            · trivial
          · trivial
      · trivial

theorem endStep_atRest : (c.endStep p ex).position.AtRest := by
  unfold endStep
  split
  · trivial
  · split
    · exact afterStep_atRest
    · trivial

theorem pollNext_position (c : Coordinator) (p : Party) (ex : WorkflowExecution)
    (todo : List (RequestId × ExecutionRequest)) :
    (c.pollNext p ex todo).position.AtRest ∨
      todo ≠ [] ∧ (c.pollNext p ex todo).position = .polling todo c.pollRetries ∧
        (c.pollNext p ex todo).execution = ex := by
  cases todo with
  | nil => exact .inl endStep_atRest
  | cons e todo => exact .inr ⟨List.cons_ne_nil _ _, rfl, rfl⟩

theorem cancelNext_position (requests : List RequestId) :
    (cancelNext p requests).position.AtRest ∨
      (cancelNext p requests).position = .cancelling requests := by
  unfold cancelNext
  split
  · split
    · exact .inl trivial
    · exact .inl trivial
  · exact .inr rfl

end Coordinator

theorem assign_nodeId {c : Coordinator} {node : TaskNode} {agentPool : List String}
    {assignment : AgentAssignment} (h : c.assign node agentPool = .ok assignment) :
    assignment.nodeId = node.id := by
  unfold Coordinator.assign at h
  dsimp only at h
  split at h
  · split at h
    · cases h
    · cases h
      rfl
  · split at h
    · cases h
    · cases h
      rfl

/-- What the position of the coroutine says about the sets and the requests. -/
def PositionOk (g : TaskGraph) (sh : Shared) (ex : WorkflowExecution) : Position → Prop
  | .dispatching nid assignment todo =>
    assignment.nodeId = nid ∧ (nid :: todo).Nodup ∧ ∀ v ∈ nid :: todo, Admissible g ex.sets v
  | .polling todo _ => (todo.map Prod.fst).Nodup ∧ ∀ e ∈ todo, sh.inflight.get? e.1 = some e.2
  | _ => True

theorem Position.AtRest.ok {g : TaskGraph} {sh : Shared} {ex : WorkflowExecution}
    {position : Position} (h : position.AtRest) : PositionOk g sh ex position := by
  cases position with
  | idle raised => trivial
  | top => trivial
  | cancelling requests => trivial
  | dispatching nid assignment todo => cases h
  | polling todo tries => cases h

-- ------ The invariant

/-- Every request in flight is for a running node of its own. -/
structure Served (sh : Shared) (ex : WorkflowExecution) : Prop where
  running : ∀ r req, sh.inflight.get? r = some req → req.nodeId ∈ ex.currentNodes
  distinct : ∀ r r' req req', sh.inflight.get? r = some req → sh.inflight.get? r' = some req' →
    req.nodeId = req'.nodeId → r = r'

theorem Served.of_current {sh : Shared} {ex ex' : WorkflowExecution} (h : Served sh ex)
    (hCurrent : ex'.currentNodes = ex.currentNodes) : Served sh ex' where
  running r req hReq := by
    rw [hCurrent]
    exact h.running r req hReq
  distinct := h.distinct

theorem Served.erase {sh : Shared} {ex : WorkflowExecution} (h : Served sh ex)
    {executionId : String} {requestId : RequestId} :
    Served (Coordinator.withdraw sh executionId requestId) ex := by
  have hOld : ∀ r req, (sh.inflight.erase requestId).get? r = some req →
      sh.inflight.get? r = some req := fun _ _ hReq => (Dict.get?_erase_eq_some.mp hReq).2
  exact ⟨fun r req hReq => h.running r req (hOld r req hReq), fun r r' req req' hReq hReq' hSame =>
    h.distinct r r' req req' (hOld r req hReq) (hOld r' req' hReq') hSame⟩

structure Inv (g : TaskGraph) (s : Shared × Party) : Prop where
  placed : Placed g s.2.execution
  served : Served s.1 s.2.execution
  position : PositionOk g s.1 s.2.execution s.2.position

theorem Inv.positionOk {g : TaskGraph} {sh : Shared} {p : Party} (h : Inv g (sh, p))
    {position : Position} (hPosition : p.position = position) :
    PositionOk g sh p.execution position :=
  hPosition ▸ h.position

variable {e : RequestId × ExecutionRequest} {todo : List (RequestId × ExecutionRequest)}

theorem Inv.running {g : TaskGraph} {sh : Shared} {p : Party} (h : Inv g (sh, p)) {tries : Nat}
    (hPosition : p.position = .polling (e :: todo) tries) {signal : ExecutionSignal}
    (hSignal : signal.nodeId = e.2.nodeId) : signal.nodeId ∈ p.execution.currentNodes := by
  rw [hSignal]
  exact h.served.running _ _ ((h.positionOk hPosition).2 e (List.mem_cons_self ..))

/-- HAOE answers about the request it was asked about. -/
def Honest (s : Shared × Party) (action : Action) : Prop :=
  match action, s.2.position with
  | .polled (some signal), .polling (e :: _) _ => signal.nodeId = e.2.nodeId
  | _, _ => True

instance (s : Shared × Party) : DecidablePred (Honest s) := fun action => by
  unfold Honest
  split
  · infer_instance
  · infer_instance

theorem Honest.signal {s : Shared × Party} {signal : ExecutionSignal} {tries : Nat}
    (h : Honest s (.polled (some signal))) (hPosition : s.2.position = .polling (e :: todo) tries) :
    signal.nodeId = e.2.nodeId := by
  unfold Honest at h
  rw [hPosition] at h
  exact h

-- ------ A signal

inductive Received (ex : WorkflowExecution) (v : NodeId) : SignalKind → WorkflowExecution → Prop
  | completed (results : Dict NodeId NodeResult) :
    Received ex v .success { ex with
      currentNodes := without ex.currentNodes v
      completedNodes := appendNew ex.completedNodes v
      nodeResults := results }
  | exhausted (results : Dict NodeId NodeResult) :
    Received ex v .failure { ex with
      currentNodes := without ex.currentNodes v
      skippedNodes := appendNew ex.skippedNodes v
      nodeResults := results }
  | retried (results : Dict NodeId NodeResult) :
    Received ex v .failure { ex with
      currentNodes := without ex.currentNodes v
      pendingNodes := appendNew ex.pendingNodes v
      nodeResults := results }
  | skipped :
    Received ex v .skip { ex with
      currentNodes := without ex.currentNodes v
      skippedNodes := appendNew ex.skippedNodes v }
  | unknown :
    Received ex v .unknown { ex with currentNodes := without ex.currentNodes v }

theorem receive_cases {g : TaskGraph} (hKeyed : g.Keyed) (c : Coordinator) (sh : Shared) {p : Party}
    (hPlaced : Placed g p.execution) (r : RequestId) (todo : List (RequestId × ExecutionRequest))
    {signal : ExecutionSignal} (hv : signal.nodeId ∈ g.ids) :
    ∃ attempts ex', Received p.execution signal.nodeId signal.kind ex' ∧
      c.receive sh p r todo signal =
        ({ Coordinator.drop sh p.execution.executionId r with attempts := attempts },
          c.pollNext p ex' todo) := by
  obtain ⟨node, hNode⟩ := Option.isSome_iff_exists.mp (Dict.mem_keys_iff.mp hv)
  have hId := hKeyed _ _ hNode
  unfold Coordinator.receive WorkflowExecution.applySignal
  cases hKind : signal.kind with
  | success =>
    dsimp only
    rw [if_neg (by decide)]
    exact ⟨sh.attempts, _, .completed _, rfl⟩
  | skip =>
    dsimp only
    rw [if_neg (by decide)]
    exact ⟨sh.attempts, _, .skipped, rfl⟩
  | unknown =>
    dsimp only
    rw [if_neg (by decide)]
    exact ⟨sh.attempts, _, .unknown, rfl⟩
  | failure =>
    have hFailed : without (appendNew p.execution.failedNodes signal.nodeId) signal.nodeId =
        p.execution.failedNodes := by
      rw [hPlaced.failed]
      simp [appendNew, without]
    dsimp only
    rw [if_pos rfl]
    unfold Coordinator.retryFailed
    rw [hPlaced.graph]
    dsimp only
    rw [hNode]
    dsimp only [decideRetry, WorkflowExecution.applyDecision]
    rw [hId, hFailed, ← hPlaced.graph]
    -- retried while attempts are left, put aside afterwards
    split
    · exact ⟨_, _, .exhausted _, rfl⟩
    · exact ⟨_, _, .retried _, rfl⟩

namespace Received

variable {g : TaskGraph} {ex ex' : WorkflowExecution} {v : NodeId} {kind : SignalKind}

theorem current (h : Received ex v kind ex') : ex'.currentNodes = without ex.currentNodes v := by
  cases h with
  | completed results => rfl
  | exhausted results => rfl
  | retried results => rfl
  | skipped => rfl
  | unknown => rfl

theorem placed (h : Received ex v kind ex') (hPlaced : Placed g ex) (hv : v ∈ ex.currentNodes) :
    Placed g ex' := by
  have hMem := hPlaced.current v hv
  have hCompleted : v ∉ ex.completedNodes := fun hIn => (hPlaced.completed v hIn).2.2 hv
  have hSkipped : v ∉ ex.skippedNodes := fun hIn => (hPlaced.skipped v hIn).2 hv
  have hPending : v ∉ ex.pendingNodes := fun hIn => (hPlaced.pending v hIn).2.2 hv
  have hRelease := hPlaced.release v
  have hCurrent : v ∉ without ex.currentNodes v := fun hIn => (mem_without.mp hIn).2 rfl
  cases h with
  | completed results => exact hRelease.complete hMem hSkipped hCurrent hPending results
  | exhausted results => exact hRelease.putAside hMem hCompleted hCurrent hPending results
  | retried results => exact hRelease.postpone hCompleted hSkipped hCurrent results
  | skipped => exact hRelease.putAside hMem hCompleted hCurrent hPending ex.nodeResults
  | unknown => exact hRelease

end Received

-- ------ Every action keeps the invariant

theorem wake_sets (ex : WorkflowExecution) : ex.wake.sets = ex.sets := by
  unfold WorkflowExecution.wake
  split
  · rfl
  · rfl

theorem prepare_admissible {c : Coordinator} {g : TaskGraph} {ex ex' : WorkflowExecution}
    (hGraph : ex.graph = .graph g) {todo : List NodeId} (h : c.prepare ex = (ex', .ok todo)) :
    todo.Nodup ∧ ∀ v ∈ todo, Admissible g ex'.sets v := by
  unfold Coordinator.prepare at h
  rw [hGraph] at h
  dsimp only at h
  split at h
  · cases h
  · split at h
    · cases h
    · next ex₁ _ _ =>
      split at h
      · cases h
      · next ready hReady =>
        obtain ⟨hNodup, hAdmissible⟩ := resolve_admissible hReady
        obtain ⟨hEx, hTodo⟩ := Prod.mk.inj h
        cases hTodo
        have hSets : ex'.sets = ex₁.sets := by
          rw [← hEx]
          split
          · exact wake_sets _
          · rfl
        rw [hSets]
        exact ⟨select_nodup hNodup, fun v hv => hAdmissible v (mem_select hv)⟩

section

variable {g : TaskGraph} {c : Coordinator} {sh : Shared} {p : Party} {ex : WorkflowExecution}

theorem inv_pollNext (hPlaced : Placed g ex) (hServed : Served sh ex)
    {todo : List (RequestId × ExecutionRequest)} (hNodup : (todo.map Prod.fst).Nodup)
    (hTodo : ∀ e ∈ todo, sh.inflight.get? e.1 = some e.2) : Inv g (sh, c.pollNext p ex todo) := by
  have hMoves := Moves.pollNext (c := c) hPlaced.graph p todo
  refine ⟨hPlaced.moves hMoves, hServed.of_current hMoves.frame.current, ?_⟩
  rcases Coordinator.pollNext_position c p ex todo with hRest | ⟨-, hEq, -⟩
  · exact hRest.ok
  · dsimp only
    rw [hEq]
    exact ⟨hNodup, hTodo⟩

theorem inv_dispatchNext (hKeyed : g.Keyed) (hPlaced : Placed g ex) (hServed : Served sh ex)
    {todo : List NodeId} (hNodup : todo.Nodup) (hTodo : ∀ v ∈ todo, Admissible g ex.sets v) :
    Inv g (sh, c.dispatchNext sh p ex todo) := by
  cases todo with
  | nil =>
    unfold Coordinator.dispatchNext
    dsimp only
    split
    · exact inv_pollNext hPlaced hServed List.nodup_nil fun e he => absurd he List.not_mem_nil
    · exact inv_pollNext hPlaced hServed sh.inflight.nodup fun e he => Dict.mem_entries_iff.mp he
  | cons nid rest =>
    obtain ⟨node, hNode⟩ :=
      Option.isSome_iff_exists.mp (Dict.mem_keys_iff.mp (hTodo nid (List.mem_cons_self ..)).node)
    have hMoves := Moves.dispatchNext (c := c) hPlaced.graph sh p (nid :: rest)
    refine ⟨hPlaced.moves hMoves, hServed.of_current hMoves.frame.current, ?_⟩
    unfold Coordinator.dispatchNext
    dsimp only
    rw [hPlaced.graph]
    dsimp only
    rw [hNode]
    dsimp only
    split
    · trivial
    · next assignment hAssign =>
      refine ⟨?_, hNodup, hTodo⟩
      rw [assign_nodeId hAssign]
      exact hKeyed nid node hNode

theorem inv_beginStep (hKeyed : g.Keyed) (hPlaced : Placed g ex) (hServed : Served sh ex) :
    Inv g (sh, c.beginStep sh p ex) := by
  have hPrepare := Moves.prepare (c := c) hPlaced.graph
  unfold Coordinator.beginStep
  split
  · next hEq =>
    rw [hEq] at hPrepare
    exact ⟨hPlaced.moves hPrepare, hServed.of_current hPrepare.frame.current, trivial⟩
  · next hEq =>
    rw [hEq] at hPrepare
    obtain ⟨hNodup, hTodo⟩ := prepare_admissible hPlaced.graph hEq
    exact inv_dispatchNext hKeyed (hPlaced.moves hPrepare)
      (hServed.of_current hPrepare.frame.current) hNodup hTodo

theorem inv_cancelNext (hPlaced : Placed g p.execution) (hServed : Served sh p.execution)
    (requests : List RequestId) : Inv g (sh, Coordinator.cancelNext p requests) := by
  have hMoves := Moves.cancelNext (g := g) p requests
  refine ⟨hPlaced.moves hMoves, hServed.of_current hMoves.frame.current, ?_⟩
  rcases Coordinator.cancelNext_position (p := p) requests with hRest | hEq
  · exact hRest.ok
  · dsimp only
    rw [hEq]
    trivial

end

/-! ### Calls from outside change the status at most -/

namespace Placed

variable {g : TaskGraph} {ex : WorkflowExecution}

theorem begin (h : Placed g ex) :
    Placed g ex.begin ∧ ex.begin.currentNodes = ex.currentNodes := by
  unfold WorkflowExecution.begin
  split
  · exact ⟨h.status _, rfl⟩
  · exact ⟨h, rfl⟩

theorem beginSingle (h : Placed g ex) :
    Placed g ex.beginSingle ∧ ex.beginSingle.currentNodes = ex.currentNodes := by
  unfold WorkflowExecution.beginSingle
  split
  · exact ⟨h.status _, rfl⟩
  · exact ⟨h, rfl⟩

theorem cancel (h : Placed g ex) (forced : Bool) :
    Placed g (ex.cancel forced) ∧ (ex.cancel forced).currentNodes = ex.currentNodes ∧
      (ex.cancel forced).sets = ex.sets := by
  unfold WorkflowExecution.cancel
  split
  · exact ⟨⟨h.graph, h.failed, h.completed, h.skipped, h.current, h.pending, h.nodup⟩, rfl, rfl⟩
  · exact ⟨⟨h.graph, h.failed, h.completed, h.skipped, h.current, h.pending, h.nodup⟩, rfl, rfl⟩

end Placed

theorem inv_submitted {g : TaskGraph} (hKeyed : g.Keyed) {c : Coordinator} {sh : Shared} {p : Party}
    (h : Inv g (sh, p)) {nid : NodeId} {assignment : AgentAssignment} {todo : List NodeId}
    (hPosition : p.position = .dispatching nid assignment todo) (requestId : RequestId) :
    Inv g (Coordinator.recordRequest sh p.execution assignment requestId,
      c.dispatchNext (Coordinator.recordRequest sh p.execution assignment requestId) p
        (p.execution.markRunning nid) todo) := by
  obtain ⟨hNode, hNodup, hTodo⟩ := h.positionOk hPosition
  have hFirst := hTodo nid (List.mem_cons_self ..)
  obtain ⟨hCompleted, hSkipped⟩ := not_or.mp fun hIn => hFirst.notDone (NodeSets.mem_done.mpr hIn)
  obtain ⟨-, hCurrent⟩ := not_or.mp fun hIn => hFirst.notBlocked (NodeSets.mem_blocked.mpr hIn)
  obtain ⟨hHead, hTail⟩ := List.nodup_cons.mp hNodup
  refine inv_dispatchNext hKeyed (h.placed.markRunning hFirst.node hCompleted hSkipped) ?_ hTail ?_
  · -- the new request is the only one for its node, which was not running
    have hNew : ∀ r req,
        (Coordinator.recordRequest sh p.execution assignment requestId).inflight.get? r = some req →
        (r = requestId ∧ req.nodeId = nid) ∨ (r ≠ requestId ∧ sh.inflight.get? r = some req) := by
      intro r req hReq
      unfold Coordinator.recordRequest at hReq
      rw [Dict.get?_set] at hReq
      split at hReq
      · next hEq =>
        cases hReq
        exact .inl ⟨hEq, hNode⟩
      · next hNe => exact .inr ⟨hNe, hReq⟩
    constructor
    · intro r req hReq
      refine mem_appendNew.mpr ?_
      rcases hNew r req hReq with ⟨-, hEq⟩ | ⟨-, hOld⟩
      · exact .inr hEq
      · exact .inl (h.served.running r req hOld)
    · intro r r' req req' hReq hReq' hSame
      rcases hNew r req hReq with ⟨hEq, hId⟩ | ⟨-, hOld⟩
      · rcases hNew r' req' hReq' with ⟨hEq', -⟩ | ⟨-, hOld'⟩
        · rw [hEq, hEq']
        · exact absurd (h.served.running r' req' hOld') (by rw [← hSame, hId]; exact hCurrent)
      · rcases hNew r' req' hReq' with ⟨-, hId'⟩ | ⟨-, hOld'⟩
        · exact absurd (h.served.running r req hOld) (by rw [hSame, hId']; exact hCurrent)
        · exact h.served.distinct r r' req req' hOld hOld' hSame
  -- the rest of the list is as ready as it was, since `nid` is not in it
  · intro v hv
    have hOld := hTodo v (List.mem_cons_of_mem _ hv)
    refine ⟨hOld.node, hOld.notDone, fun hIn => ?_, hOld.preds⟩
    rcases NodeSets.mem_blocked.mp hIn with hFailed | hRunning
    · exact hOld.notBlocked (NodeSets.mem_blocked.mpr (.inl hFailed))
    · rcases mem_appendNew.mp hRunning with hRunning | rfl
      · exact hOld.notBlocked (NodeSets.mem_blocked.mpr (.inr hRunning))
      · exact hHead hv

theorem inv_receive {g : TaskGraph} (hKeyed : g.Keyed) {c : Coordinator} {sh : Shared} {p : Party}
    (h : Inv g (sh, p)) {tries : Nat} (hPosition : p.position = .polling (e :: todo) tries)
    {signal : ExecutionSignal} (hSignal : signal.nodeId = e.2.nodeId) :
    Inv g (c.receive sh p e.1 todo signal) := by
  obtain ⟨hNodup, hTodo⟩ := h.positionOk hPosition
  obtain ⟨hHead, hTail⟩ := List.nodup_cons.mp hNodup
  have hFlight := hTodo e (List.mem_cons_self ..)
  have hRunning := h.running hPosition hSignal
  obtain ⟨attempts, ex', hReceived, hEq⟩ :=
    receive_cases hKeyed c sh h.placed e.1 todo
      (h.placed.current _ hRunning)
  rw [hEq]
  refine inv_pollNext (hReceived.placed h.placed hRunning) ?_ hTail fun e' he' => ?_
  · -- what is still in flight is for other nodes
    have hOld : ∀ r req, (sh.inflight.erase e.1).get? r = some req →
        r ≠ e.1 ∧ sh.inflight.get? r = some req := fun _ _ => Dict.get?_erase_eq_some.mp
    constructor
    · intro r req hReq
      obtain ⟨hNe, hReq⟩ := hOld r req hReq
      rw [hReceived.current, mem_without]
      refine ⟨h.served.running r req hReq, fun hSame => hNe ?_⟩
      exact h.served.distinct r e.1 req e.2 hReq hFlight (hSame.trans hSignal)
    · intro r r' req req' hReq hReq' hSame
      exact h.served.distinct r r' req req' (hOld r req hReq).2 (hOld r' req' hReq').2 hSame
  · have hNe : e'.1 ≠ e.1 := fun hSame => hHead (hSame ▸ List.mem_map_of_mem he')
    exact (Dict.get?_erase_ne _ hNe).trans (hTodo e' (List.mem_cons_of_mem _ he'))

/-- **Step.** -/
theorem inv_act {g : TaskGraph} (hKeyed : g.Keyed) {c : Coordinator} (s : Shared × Party)
    (action : Action) (h : Inv g s) (hHonest : Honest s action) : Inv g (c.soloAct s action) := by
  obtain ⟨sh, p⟩ := s
  have hPlaced : Placed g p.execution := h.placed
  have hServed : Served sh p.execution := h.served
  have hActs := Coordinator.act_cases c sh p action
  unfold Coordinator.soloAct
  dsimp only
  generalize c.act sh p action = next at hActs ⊢
  cases hActs with
  | nothing _ => exact h
  | cancel forced =>
    obtain ⟨hCancelled, hFrame, hSets⟩ := hPlaced.cancel forced
    refine ⟨hCancelled, hServed.of_current hFrame, ?_⟩
    -- no position speaks about the status or the request to cancel
    have hOk := h.position
    unfold PositionOk at hOk ⊢
    dsimp only at hOk ⊢
    rw [hSets]
    exact hOk
  | start _ =>
    obtain ⟨hBegun, hFrame⟩ := hPlaced.begin
    exact ⟨hBegun, hServed.of_current hFrame, trivial⟩
  | step _ =>
    obtain ⟨hBegun, hFrame⟩ := hPlaced.beginSingle
    exact inv_beginStep hKeyed hBegun (hServed.of_current hFrame)
  | advance _ =>
    unfold Coordinator.loopTop
    split
    · exact ⟨hPlaced, hServed, trivial⟩
    · split
      · exact inv_cancelNext hPlaced hServed _
      · exact inv_beginStep hKeyed hPlaced hServed
  | submitted hPosition requestId => exact inv_submitted hKeyed h hPosition requestId
  | again hPosition =>
    have hOk := h.positionOk hPosition
    exact ⟨hPlaced, hServed, hOk⟩
  | silent hPosition =>
    have hOk := h.positionOk hPosition
    exact inv_pollNext hPlaced hServed (List.nodup_cons.mp hOk.1).2
      fun e' he' => hOk.2 e' (List.mem_cons_of_mem _ he')
  | received hPosition signal =>
    exact inv_receive hKeyed h hPosition (hHonest.signal hPosition)
  | withdrawn _ => exact inv_cancelNext hPlaced hServed.erase _
  | portError text => exact ⟨hPlaced, hServed, trivial⟩

-- ------ What an action does to the execution

/-- What comes before the moves of an action. -/
inductive Entry (g : TaskGraph) (ex : WorkflowExecution) : WorkflowExecution → Prop
  | nothing : Entry g ex ex
  | called (st : WorkflowStatus) (cancelRequested : Bool) (h : st = ex.status ∨ st ≠ .failed) :
    Entry g ex { ex with status := st, cancelRequested := cancelRequested }
  | dispatched {v : NodeId} (h : Admissible g ex.sets v) : Entry g ex (ex.markRunning v)
  | received {v : NodeId} {kind : SignalKind} {ex' : WorkflowExecution} (hv : v ∈ ex.currentNodes)
    (h : Received ex v kind ex') : Entry g ex ex'

namespace Entry

variable {g : TaskGraph} {ex : WorkflowExecution}

theorem begin : Entry g ex ex.begin := by
  unfold WorkflowExecution.begin
  split
  · exact .called .running ex.cancelRequested (.inr (by decide))
  · exact .nothing

theorem beginSingle : Entry g ex ex.beginSingle := by
  unfold WorkflowExecution.beginSingle
  split
  · exact .called .running ex.cancelRequested (.inr (by decide))
  · exact .nothing

theorem cancel (forced : Bool) : Entry g ex (ex.cancel forced) := by
  unfold WorkflowExecution.cancel
  split
  · exact .called .cancelled true (.inr (by decide))
  · exact .called ex.status true (.inl rfl)

end Entry

theorem act_moves {g : TaskGraph} (hKeyed : g.Keyed) {c : Coordinator} {s : Shared × Party}
    {action : Action} (h : Inv g s) (hHonest : Honest s action) :
    ∃ ex, Entry g s.2.execution ex ∧ Moves g ex (c.soloAct s action).2.execution := by
  obtain ⟨sh, p⟩ := s
  have hPlaced : Placed g p.execution := h.placed
  have hActs := Coordinator.act_cases c sh p action
  unfold Coordinator.soloAct
  dsimp only
  generalize c.act sh p action = next at hActs ⊢
  cases hActs with
  | nothing _ => exact ⟨_, .nothing, .refl⟩
  | cancel forced => exact ⟨_, .cancel forced, .refl⟩
  | start _ => exact ⟨_, .begin, .refl⟩
  | step _ => exact ⟨_, .beginSingle, Moves.beginStep hPlaced.beginSingle.1.graph sh _⟩
  | advance _ => exact ⟨_, .nothing, Moves.loopTop sh hPlaced.graph⟩
  | @submitted nid _ todo hPosition requestId =>
    have hOk := h.positionOk hPosition
    have hGraph : (p.execution.markRunning nid).graph = .graph g := hPlaced.graph
    exact ⟨_, .dispatched (hOk.2.2 nid (List.mem_cons_self ..)),
      Moves.dispatchNext hGraph _ p todo⟩
  | again _ => exact ⟨_, .nothing, .refl⟩
  | silent _ => exact ⟨_, .nothing, Moves.pollNext hPlaced.graph p _⟩
  | @received e todo _ hPosition signal =>
    have hRunning := h.running hPosition (hHonest.signal hPosition)
    obtain ⟨attempts, ex', hReceived, hEq⟩ :=
      receive_cases hKeyed c sh hPlaced e.1 todo
        (hPlaced.current _ hRunning)
    rw [hEq]
    exact ⟨ex', .received hRunning hReceived,
      Moves.pollNext (hReceived.placed hPlaced hRunning).graph p todo⟩
  | withdrawn _ => exact ⟨_, .nothing, Moves.cancelNext p _⟩
  | portError text => exact ⟨_, .nothing, .refl⟩

-- ------ Runs

/-- A new execution on a new orchestrator. -/
def fresh (ex : WorkflowExecution) : Shared × Party := ({}, { execution := ex })

theorem inv_fresh {g : TaskGraph} (workflowId executionId : String) (context : Context)
    (agents : List String) :
    Inv g (fresh (.bindWorkflow workflowId executionId g context agents)) where
  placed :=
    { graph := rfl
      failed := rfl
      completed := fun v hv => absurd hv List.not_mem_nil
      skipped := fun v hv => absurd hv List.not_mem_nil
      current := fun v hv => absurd hv List.not_mem_nil
      pending := fun _ _ => ⟨List.not_mem_nil, List.not_mem_nil, List.not_mem_nil⟩
      nodup := List.nodup_nil }
  served := ⟨fun _ _ h => absurd h (by simp [fresh]), fun _ _ _ _ h => absurd h (by simp [fresh])⟩
  position := trivial

structure SetsConsistent (g : TaskGraph) (ex : WorkflowExecution) : Prop where
  nodes : ∀ v, v ∈ ex.completedNodes ∨ v ∈ ex.failedNodes ∨ v ∈ ex.skippedNodes ∨
    v ∈ ex.currentNodes → v ∈ g.ids
  completed_failed : ex.completedNodes.Disjoint ex.failedNodes
  completed_skipped : ex.completedNodes.Disjoint ex.skippedNodes
  completed_current : ex.completedNodes.Disjoint ex.currentNodes
  failed_skipped : ex.failedNodes.Disjoint ex.skippedNodes
  failed_current : ex.failedNodes.Disjoint ex.currentNodes
  skipped_current : ex.skippedNodes.Disjoint ex.currentNodes

theorem Placed.consistent {g : TaskGraph} {ex : WorkflowExecution} (h : Placed g ex) :
    SetsConsistent g ex where
  nodes := by
    rintro v (hv | hv | hv | hv)
    · exact (h.completed v hv).1
    · rw [h.failed] at hv
      cases hv
    · exact (h.skipped v hv).1
    · exact h.current v hv
  completed_failed := by
    rw [h.failed]
    exact List.disjoint_nil_right _
  completed_skipped v hv := (h.completed v hv).2.1
  completed_current v hv := (h.completed v hv).2.2
  failed_skipped := by
    rw [h.failed]
    exact List.disjoint_nil_left _
  failed_current := by
    rw [h.failed]
    exact List.disjoint_nil_left _
  skipped_current v hv := (h.skipped v hv).2

/-- The node that is being dispatched may be. -/
def DispatchesRightly (g : TaskGraph) (p : Party) : Prop :=
  ∀ nid assignment todo, p.position = .dispatching nid assignment todo →
    (∀ v, g.Precedes v nid → v ∈ p.execution.completedNodes ∨ v ∈ p.execution.skippedNodes) ∧
      nid ∉ p.execution.currentNodes ∧ nid ∉ p.execution.completedNodes

theorem Inv.dispatchesRightly {g : TaskGraph} {s : Shared × Party} (h : Inv g s) :
    DispatchesRightly g s.2 := by
  intro nid assignment todo hPosition
  have hOk := h.position
  rw [hPosition] at hOk
  have hFirst := hOk.2.2 nid (List.mem_cons_self ..)
  refine ⟨fun v hv => NodeSets.mem_done.mp (hFirst.preds v hv), fun hIn => ?_, fun hIn => ?_⟩
  · exact hFirst.notBlocked (NodeSets.mem_blocked.mpr (.inr hIn))
  · exact hFirst.notDone (NodeSets.mem_done.mpr (.inl hIn))

/-- **Run.** -/
theorem inv_along {g : TaskGraph} (hKeyed : g.Keyed) (c : Coordinator)
    (workflowId executionId : String) (context : Context) (agents : List String)
    (actions : List Action)
    (hHonest : Run.Every c.soloAct Honest
      (fresh (.bindWorkflow workflowId executionId g context agents)) actions) :
    Run.Along c.soloAct (Inv g) (fresh (.bindWorkflow workflowId executionId g context agents))
      actions :=
  Run.along_of_every (fun s a h hC => inv_act hKeyed s a h hC)
    (inv_fresh workflowId executionId context agents) hHonest

/-- **Node sets.** All along every run, the four sets are disjoint sets of nodes, and what is
being dispatched has all its predecessors completed or skipped and is neither running nor
completed. -/
theorem nodeSets_along (g : TaskGraph) (hKeyed : g.Keyed) (c : Coordinator)
    (workflowId executionId : String) (context : Context) (agents : List String)
    (actions : List Action)
    (hHonest : Run.Every c.soloAct Honest
      (fresh (.bindWorkflow workflowId executionId g context agents)) actions) :
    Run.Along c.soloAct
      (fun s => SetsConsistent g s.2.execution ∧ DispatchesRightly g s.2)
      (fresh (.bindWorkflow workflowId executionId g context agents)) actions :=
  (inv_along hKeyed c workflowId executionId context agents actions hHonest).mono fun _ h =>
    ⟨h.placed.consistent, h.dispatchesRightly⟩

/-- One node that is tried once and once more. -/
def lone : TaskGraph where
  graphId := "g"
  nodes := Dict.empty.set "a" { id := "a", retryPolicy := { maxAttempts := 1 } }

theorem lone_keyed : lone.Keyed := by
  intro nid node hNode
  rcases List.mem_singleton.mp (Dict.mem_entries_iff.mpr hNode) with hEq
  cases hEq
  rfl

def loneStart : Shared × Party := fresh (.bindWorkflow "wf" "ex" lone .plain ["w"])

/-- What HAOE reports about the request `r` for `a`. -/
def reportA (r : RequestId) (status : String) : Action :=
  .polled (some { requestId := r, executionId := "ex", nodeId := "a", status := status })

theorem nodeSets_along_lone :
    Run.Along (Coordinator.soloAct {})
      (fun s => SetsConsistent lone s.2.execution ∧ DispatchesRightly lone s.2) loneStart
      [.start, .advance, .submitted "r1", reportA "r1" "failed", .advance, .submitted "r2",
        reportA "r2" "succeeded"] :=
  nodeSets_along lone lone_keyed {} "wf" "ex" .plain ["w"] _ (by decide +kernel)

end Neuroswarm.MetaOrchestrator
