import Neuroswarm.MetaOrchestrator.Coordinator

/-!
# Meta orchestrator — what a step does to the node sets

Between two awaits, `step` and `coordinate` do four things to an execution
(`Move`): they put a pending node aside whose predecessors are completed, recompute
`ready_nodes` and `pending_nodes`, note an assignment, and change the status, to
FAILED only if some node is failed. Every section is a sequence of such moves, so
an invariant is proved from them and from what a dispatch and a signal do.
-/

namespace Neuroswarm.MetaOrchestrator

open Swarm

-- ------ Lists without repetitions

@[simp] theorem mem_appendNew {l : List NodeId} {v w : NodeId} :
    w ∈ appendNew l v ↔ w ∈ l ∨ w = v := by
  unfold appendNew
  split
  · next h =>
    constructor
    · exact .inl
    · rintro (h' | rfl)
      · exact h'
      · exact h
  · rw [List.mem_append, List.mem_singleton]

@[simp] theorem mem_without {l : List NodeId} {v w : NodeId} : w ∈ without l v ↔ w ∈ l ∧ w ≠ v := by
  unfold without
  rw [List.mem_filter, decide_eq_true_eq]

theorem appendNew_nodup {l : List NodeId} (h : l.Nodup) (v : NodeId) : (appendNew l v).Nodup := by
  unfold appendNew
  split
  · exact h
  · next hNot => exact List.nodup_append.mpr ⟨h, List.nodup_singleton v, fun a ha b hb hab => by
      rw [List.mem_singleton] at hb
      exact hNot (hb ▸ hab ▸ ha)⟩

-- ------ Statuses

namespace WorkflowExecution

variable {ex ex' : WorkflowExecution}

theorem transition_ok {target : WorkflowStatus} (h : ex.transition target = .ok ex') :
    ex' = { ex with status := target } := by
  unfold transition at h
  split at h
  · next hEq =>
    cases h
    rw [← hEq]
  · split at h
    · cases h
      rfl
    · cases h

theorem failed_of_shouldFail {failFast : Bool} (h : ex.shouldFail failFast = true) :
    ex.failedNodes ≠ [] := by
  intro hNil
  unfold shouldFail at h
  simp [hNil] at h

end WorkflowExecution

-- ------ Moves

/-- One thing that a section does to an execution. -/
inductive Move (g : TaskGraph) : WorkflowExecution → WorkflowExecution → Prop
  | status (ex : WorkflowExecution) (st : WorkflowStatus) (h : st = .failed → ex.failedNodes ≠ []) :
    Move g ex { ex with status := st }
  | refresh (ex : WorkflowExecution) (ready : List NodeId) : Move g ex (ex.refresh ready)
  | skip (ex : WorkflowExecution) (v : NodeId) (hNode : v ∈ g.ids)
    (hListed : v ∈ ex.pendingNodes ∨ v ∈ ex.skippedNodes) (hCurrent : v ∉ ex.currentNodes)
    (hPreds : ∀ p, g.Precedes p v → p ∈ ex.completedNodes) : Move g ex (ex.skip v)
  | assign (ex : WorkflowExecution) (agents : Dict NodeId AgentAssignment) :
    Move g ex { ex with assignedAgents := agents }

abbrev Moves (g : TaskGraph) : WorkflowExecution → WorkflowExecution → Prop :=
  Relation.ReflTransGen (Move g)

theorem Moves.keep {g : TaskGraph} {P : WorkflowExecution → Prop}
    (hMove : ∀ {ex ex'}, Move g ex ex' → P ex → P ex') {ex ex' : WorkflowExecution}
    (h : Moves g ex ex') (hP : P ex) : P ex' := by
  induction h with
  | refl => exact hP
  | tail _ hStep ih => exact hMove hStep ih

/-- What no section touches. -/
structure Frame (ex ex' : WorkflowExecution) : Prop where
  graph : ex'.graph = ex.graph
  executionId : ex'.executionId = ex.executionId
  context : ex'.context = ex.context
  agentPool : ex'.agentPool = ex.agentPool
  completed : ex'.completedNodes = ex.completedNodes
  failed : ex'.failedNodes = ex.failedNodes
  current : ex'.currentNodes = ex.currentNodes
  cancelRequested : ex'.cancelRequested = ex.cancelRequested
  skipped : ex.skippedNodes ⊆ ex'.skippedNodes

theorem Frame.refl (ex : WorkflowExecution) : Frame ex ex :=
  ⟨rfl, rfl, rfl, rfl, rfl, rfl, rfl, rfl, List.Subset.refl _⟩

theorem Frame.trans {ex ex' ex'' : WorkflowExecution} (h : Frame ex ex') (h' : Frame ex' ex'') :
    Frame ex ex'' where
  graph := h'.graph.trans h.graph
  executionId := h'.executionId.trans h.executionId
  context := h'.context.trans h.context
  agentPool := h'.agentPool.trans h.agentPool
  completed := h'.completed.trans h.completed
  failed := h'.failed.trans h.failed
  current := h'.current.trans h.current
  cancelRequested := h'.cancelRequested.trans h.cancelRequested
  skipped _ hv := h'.skipped (h.skipped hv)

theorem Move.frame {g : TaskGraph} {ex ex' : WorkflowExecution} (h : Move g ex ex') :
    Frame ex ex' := by
  cases h with
  | status st h => exact ⟨rfl, rfl, rfl, rfl, rfl, rfl, rfl, rfl, List.Subset.refl _⟩
  | refresh ready => exact ⟨rfl, rfl, rfl, rfl, rfl, rfl, rfl, rfl, List.Subset.refl _⟩
  | skip v hNode hListed hCurrent hPreds =>
    exact ⟨rfl, rfl, rfl, rfl, rfl, rfl, rfl, rfl, fun _ hw => mem_appendNew.mpr (.inl hw)⟩
  | assign agents => exact ⟨rfl, rfl, rfl, rfl, rfl, rfl, rfl, rfl, List.Subset.refl _⟩

theorem Moves.frame {g : TaskGraph} {ex ex' : WorkflowExecution} (h : Moves g ex ex') :
    Frame ex ex' :=
  h.keep (fun hMove hFrame => hFrame.trans hMove.frame) (.refl ex)

namespace Moves

variable {c : Coordinator} {g : TaskGraph} {ex ex' : WorkflowExecution}

theorem wake (ex : WorkflowExecution) : Moves g ex ex.wake := by
  unfold WorkflowExecution.wake
  split
  · exact .single (.status ex _ (fun h => by cases h))
  · exact .refl

theorem finalize {failFast : Bool} (h : ex.finalize failFast = .ok ex') : Moves g ex ex' := by
  unfold WorkflowExecution.finalize at h
  split at h
  · rw [WorkflowExecution.transition_ok h]
    exact .single (.status ex _ (fun h => by cases h))
  · split at h
    · next hFail =>
      rw [WorkflowExecution.transition_ok h]
      exact .single (.status ex _ fun _ => WorkflowExecution.failed_of_shouldFail hFail)
    · split at h
      · rw [WorkflowExecution.transition_ok h]
        exact .single (.status ex _ (fun h => by cases h))
      · cases h
        exact .refl

theorem shouldSkip_preds {registry : Registry} {ctx : ConditionCtx} {completed : List NodeId}
    {v : NodeId} {node : TaskNode} (h : shouldSkip registry g ctx completed v node = .ok true) :
    ∀ p, g.Precedes p v → p ∈ completed := by
  unfold shouldSkip at h
  split at h
  · cases h
  · next hSat =>
    rw [Bool.not_eq_false] at hSat
    intro p hp
    rcases hardPredecessorsSatisfied_iff.mp hSat p hp with h' | h'
    · exact h'
    · exact absurd h' List.not_mem_nil

theorem skipLoop {ctx : ConditionCtx} {keep : List NodeId} {l : List NodeId}
    (hListed : ∀ v ∈ l, v ∈ ex.pendingNodes ∨ v ∈ ex.skippedNodes)
    (hKeep : ∀ v, v ∉ keep → v ∉ ex.currentNodes) : Moves g ex (c.skipLoop g ctx keep l ex).1 := by
  induction l generalizing ex with
  | nil => exact .refl
  | cons v l ih =>
    have hRest : ∀ w ∈ l, w ∈ ex.pendingNodes ∨ w ∈ ex.skippedNodes :=
      fun w hw => hListed w (List.mem_cons_of_mem _ hw)
    unfold Coordinator.skipLoop
    split
    · exact ih hRest hKeep
    · next hNot =>
      split
      · exact .refl
      · next node hNode =>
        split
        · exact .refl
        · exact ih hRest hKeep
        · next hSkip =>
          have hMem : v ∈ g.ids := Dict.mem_keys_iff.mpr (by rw [hNode]; rfl)
          have hMove : Move g ex (ex.skip v) := .skip ex v hMem (hListed v (List.mem_cons_self ..))
            (hKeep v hNot) (shouldSkip_preds hSkip)
          refine .head hMove (ih (fun w hw => ?_) hKeep)
          rcases hRest w hw with hPending | hSkipped
          · by_cases hEq : w = v
            · exact .inr (mem_appendNew.mpr (.inr hEq))
            · exact .inl (mem_without.mpr ⟨hPending, hEq⟩)
          · exact .inr (mem_appendNew.mpr (.inl hSkipped))

theorem prepare (hGraph : ex.graph = .graph g) : Moves g ex (c.prepare ex).1 := by
  unfold Coordinator.prepare
  rw [hGraph]
  dsimp only
  split
  · exact .refl
  · next ready _ =>
    have hLoop : Moves g ex
        (c.skipLoop g ex.conditionCtx (ready ++ ex.currentNodes) ex.pendingNodes ex).1 :=
      skipLoop (fun v hv => .inl hv) fun v hv hCurrent => hv (List.mem_append_right _ hCurrent)
    split
    · next hEq =>
      rw [hEq] at hLoop
      exact hLoop
    · next hEq =>
      rw [hEq] at hLoop
      split
      · exact hLoop
      · split
        · exact (hLoop.tail (.refresh _ _)).trans (wake _)
        · exact hLoop.tail (.refresh _ _)

theorem finish : Moves g ex (c.finish ex).1 := by
  unfold Coordinator.finish
  split
  · exact .refl
  · split
    · exact .refl
    · next ready _ =>
      refine .head (.refresh ex ready) ?_
      dsimp only
      split
      · split
        · exact .refl
        · next hEq => exact finalize hEq
      · split
        · exact wake _
        · split
          · split
            · exact .single (.status _ _ (fun h => by cases h))
            · exact .refl
          · split
            · exact wake _
            · exact .refl

theorem trySkipBlocked (hGraph : ex.graph = .graph g) (hIdle : ex.currentNodes = []) :
    Moves g ex (c.trySkipBlocked ex).1 := by
  have hLoop : Moves g ex (c.skipLoop g ex.conditionCtx [] ex.pendingNodes ex).1 :=
    skipLoop (fun v hv => .inl hv) fun v _ => by
      rw [hIdle]
      exact List.not_mem_nil
  unfold Coordinator.trySkipBlocked
  rw [hGraph]
  dsimp only
  split
  · next hEq =>
    rw [hEq] at hLoop
    exact hLoop
  · next hEq =>
    rw [hEq] at hLoop
    exact hLoop
  · next hEq =>
    rw [hEq] at hLoop
    split
    · exact hLoop
    · exact hLoop.tail (.refresh _ _)

theorem leaveFinal (p : Party) : Moves g ex (c.leaveFinal p ex).execution := by
  unfold Coordinator.leaveFinal
  split
  · exact .refl
  · next hEq => exact finalize hEq

theorem afterStep (hGraph : ex.graph = .graph g) (p : Party) :
    Moves g ex (c.afterStep p ex).execution := by
  unfold Coordinator.afterStep
  split
  · exact .refl
  · split
    · exact leaveFinal p
    · split
      · next hIdle =>
        have hTry := trySkipBlocked (c := c) hGraph hIdle.2
        split
        · next hEq =>
          rw [hEq] at hTry
          exact hTry
        · next hEq =>
          rw [hEq] at hTry
          split
          · split
            · exact hTry.trans (leaveFinal p)
            · exact hTry
          · exact hTry
      · exact .refl

theorem endStep (hGraph : ex.graph = .graph g) (p : Party) :
    Moves g ex (c.endStep p ex).execution := by
  have hFinish : Moves g ex (c.finish ex).1 := finish
  unfold Coordinator.endStep
  split
  · next hEq =>
    rw [hEq] at hFinish
    exact hFinish
  · next hEq =>
    rw [hEq] at hFinish
    split
    · exact hFinish.trans (afterStep (hFinish.frame.graph.trans hGraph) p)
    · exact hFinish

theorem pollNext (hGraph : ex.graph = .graph g) (p : Party)
    (todo : List (RequestId × ExecutionRequest)) : Moves g ex (c.pollNext p ex todo).execution := by
  unfold Coordinator.pollNext
  split
  · exact endStep hGraph p
  · exact .refl

theorem dispatchNext (hGraph : ex.graph = .graph g) (sh : Shared) (p : Party) (todo : List NodeId) :
    Moves g ex (c.dispatchNext sh p ex todo).execution := by
  unfold Coordinator.dispatchNext
  split
  · exact pollNext hGraph p _
  · split
    · exact .refl
    · split
      · exact .refl
      · split
        · exact .refl
        · exact .single (.assign ex _)

theorem beginStep (hGraph : ex.graph = .graph g) (sh : Shared) (p : Party) :
    Moves g ex (c.beginStep sh p ex).execution := by
  have hPrepare := prepare (c := c) hGraph
  unfold Coordinator.beginStep
  split
  · next hEq =>
    rw [hEq] at hPrepare
    exact hPrepare
  · next hEq =>
    rw [hEq] at hPrepare
    exact hPrepare.trans (dispatchNext (hPrepare.frame.graph.trans hGraph) sh p _)

theorem cancelNext (p : Party) (requests : List RequestId) :
    Moves g p.execution (Coordinator.cancelNext p requests).execution := by
  unfold Coordinator.cancelNext
  split
  · split
    · exact .refl
    · next hEq =>
      rw [WorkflowExecution.transition_ok hEq]
      exact .single (.status _ _ (fun h => by cases h))
  · exact .refl

theorem loopTop (sh : Shared) {p : Party} (hGraph : p.execution.graph = .graph g) :
    Moves g p.execution (c.loopTop sh p).execution := by
  unfold Coordinator.loopTop
  split
  · exact .refl
  · split
    · exact cancelNext p _
    · exact beginStep hGraph sh p

end Moves

end Neuroswarm.MetaOrchestrator
