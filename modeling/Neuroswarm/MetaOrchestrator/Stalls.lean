import Neuroswarm.MetaOrchestrator.Sections

/-!
# Meta orchestrator — stalls

`coordinate` raises that it stalls when a step has ended with nothing ready and
nothing running, and `_try_skip_blocked` leaves it so. That happens when all that
waits is barred, when the skips leave nothing that is ready in the map from before
them, and when a cancellation arrives in the last poll.

* `stallsAt_iff` — the last section stalls exactly where the execution does not get on.
* `stalled_act` — an action ends in a stall exactly if its last section does.
* `goesOn_iff` — the runs that never stall.
-/

namespace Neuroswarm.MetaOrchestrator

open Swarm

-- ------ `_try_skip_blocked`

/-- `_try_skip_blocked` leaves pending nodes and none that is ready, and no node has failed. -/
def StallsAt (c : Coordinator) (ex : WorkflowExecution) : Prop :=
  ∃ ex', c.trySkipBlocked ex = (ex', none) ∧ ex'.readyNodes = [] ∧ ex'.pendingNodes ≠ [] ∧
    ex'.failedNodes = []

/-- The node sets once `_try_skip_blocked` has skipped what it can. -/
def afterSkips (c : Coordinator) (g : TaskGraph) (ex : WorkflowExecution) : NodeSets :=
  (c.skipLoop g ex.conditionCtx [] ex.pendingNodes ex).1.sets

/-- Not all that waits is barred, a cancellation finds a node to skip, and after the skips some
node is ready, if any waits, in the map from before. -/
structure GetsOn (c : Coordinator) (g : TaskGraph) (ex : WorkflowExecution) : Prop where
  unbarred : Unbarred c g ex
  cancelled : ex.cancelRequested = true →
    ∃ n, Open g ex.sets n ∧ c.Skippable g ex.conditionCtx ex n
  skipped : (∃ n, Waits g (afterSkips c g ex) n) →
    ∃ n, Ready c g (afterSkips c g ex) ex.conditionCtx n

section

variable {c : Coordinator} {g : TaskGraph} {ex ex' : WorkflowExecution} {ctx : ConditionCtx}

theorem finish_eq (hGraph : ex.graph = .graph g) (h : c.finish ex = (ex', none)) :
    ∃ ready st, resolve c.registry g ex.sets ex.cancelRequested ex.conditionCtx = .ok ready ∧
      ex' = { ex.refresh ready with status := st } := by
  have hWake : ∀ e : WorkflowExecution, ∃ st, e.wake = { e with status := st } := by
    intro e
    unfold WorkflowExecution.wake
    split
    · exact ⟨.running, rfl⟩
    · exact ⟨e.status, rfl⟩
  unfold Coordinator.finish at h
  rw [hGraph] at h
  dsimp only at h
  split at h
  · cases h
  · next ready hReady =>
    refine ⟨ready, ?_⟩
    -- each way out of `finish` writes the status alone
    suffices hStatus : ∃ st, ex' = { ex.refresh ready with status := st } by
      obtain ⟨st, hEq⟩ := hStatus
      exact ⟨st, hReady, hEq⟩
    split at h
    · split at h
      · cases h
      · next hFinal =>
        cases h
        unfold WorkflowExecution.finalize at hFinal
        split at hFinal
        · exact ⟨_, WorkflowExecution.transition_ok hFinal⟩
        · split at hFinal
          · exact ⟨_, WorkflowExecution.transition_ok hFinal⟩
          · split at hFinal
            · exact ⟨_, WorkflowExecution.transition_ok hFinal⟩
            · cases hFinal
              exact ⟨ex.status, rfl⟩
    · split at h
      · cases h
        exact hWake _
      · split at h
        · split at h
          · cases h
            exact ⟨.waiting, rfl⟩
          · cases h
            exact ⟨ex.status, rfl⟩
        · split at h
          · cases h
            exact hWake _
          · cases h
            exact ⟨ex.status, rfl⟩

theorem mem_refresh_pending (hGraph : ex.graph = .graph g) (ready : List NodeId) {v : NodeId} :
    v ∈ (ex.refresh ready).pendingNodes ↔ Open g ex.sets v := by
  unfold WorkflowExecution.refresh WorkflowExecution.nodeSet
  rw [hGraph]
  dsimp only
  rw [mem_sorted, List.mem_filter, decide_eq_true_eq]
  constructor
  · rintro ⟨hNode, hC, hK, hF, hR⟩
    exact ⟨hNode, fun hIn => (NodeSets.mem_done.mp hIn).elim hC hK,
      fun hIn => (NodeSets.mem_blocked.mp hIn).elim hF hR⟩
  · rintro ⟨hNode, hDone, hBlocked⟩
    exact ⟨hNode, fun hIn => hDone (NodeSets.mem_done.mpr (.inl hIn)),
      fun hIn => hDone (NodeSets.mem_done.mpr (.inr hIn)),
      fun hIn => hBlocked (NodeSets.mem_blocked.mpr (.inl hIn)),
      fun hIn => hBlocked (NodeSets.mem_blocked.mpr (.inr hIn))⟩

theorem Blocked.listed (h : Blocked c ex) (hGraph : ex.graph = .graph g) :
    resolve c.registry g ex.sets ex.cancelRequested ex.conditionCtx = .ok [] ∧
      ∀ v, v ∈ ex.pendingNodes ↔ Open g ex.sets v := by
  obtain ⟨ex₀, hFinish⟩ := h.finished
  have hMoves : Moves g ex₀ (c.finish ex₀).1 := Moves.finish
  rw [hFinish] at hMoves
  have hGraph₀ : ex₀.graph = .graph g := hMoves.frame.graph.symm.trans hGraph
  obtain ⟨ready, st, hReady, hEq⟩ := finish_eq hGraph₀ hFinish
  have hNil : ready = [] := by
    have hNone := h.ready
    rw [hEq] at hNone
    exact hNone
  rw [hNil] at hReady hEq
  subst hEq
  exact ⟨hReady, fun v => mem_refresh_pending hGraph₀ []⟩

theorem readyAmong_ok {s : NodeSets} (h : Evaluates c.registry g ctx.environment)
    {l : List (NodeId × TaskNode)} (hl : ∀ e ∈ l, g.nodes.get? e.1 = some e.2) :
    ∃ ready, readyAmong c.registry g s ctx l = .ok ready := by
  induction l with
  | nil => exact ⟨[], rfl⟩
  | cons e l ih =>
    obtain ⟨n, node⟩ := e
    obtain ⟨rest, hRest⟩ := ih fun e he => hl e (List.mem_cons_of_mem _ he)
    have hOk : ∃ b, isReady c.registry g s ctx n node = .ok b := by
      unfold isReady
      split
      · exact ⟨false, rfl⟩
      · split
        · exact ⟨false, rfl⟩
        · exact conditionsOk_ok h _ (hl (n, node) (List.mem_cons_self ..))
    obtain ⟨b, hOk⟩ := hOk
    unfold readyAmong
    rw [hOk, hRest]
    cases b with
    | true => exact ⟨n :: rest, rfl⟩
    | false => exact ⟨rest, rfl⟩

theorem resolve_ok (h : Evaluates c.registry g ctx.environment) (s : NodeSets)
    (cancelRequested : Bool) : ∃ ready, resolve c.registry g s cancelRequested ctx = .ok ready := by
  unfold resolve
  split
  · exact ⟨[], rfl⟩
  · have hCtx : Evaluates c.registry g (s.resolveCtx ctx).environment := h
    obtain ⟨ready, hReady⟩ := readyAmong_ok (s := s) hCtx fun e he => Dict.mem_entries_iff.mp he
    rw [hReady]
    exact ⟨sorted ready, rfl⟩

theorem skipLoop_total (h : Evaluates c.registry g ctx.environment) (keep : List NodeId)
    {l : List NodeId} (ex : WorkflowExecution) (hl : ∀ v ∈ l, v ∈ g.ids) :
    ∃ ex' changed, c.skipLoop g ctx keep l ex = (ex', .ok changed) := by
  induction l generalizing ex with
  | nil => exact ⟨ex, false, rfl⟩
  | cons n l ih =>
    have hRest : ∀ v ∈ l, v ∈ g.ids := fun v hv => hl v (List.mem_cons_of_mem _ hv)
    obtain ⟨node, hNode⟩ :=
      Option.isSome_iff_exists.mp (Dict.mem_keys_iff.mp (hl n (List.mem_cons_self ..)))
    have hOk : ∃ b, shouldSkip c.registry g ctx ex.completedNodes n node = .ok b := by
      obtain ⟨b, hCondition⟩ := nodeConditionOk_ok h hNode
      obtain ⟨b', hEdges⟩ := edgeConditionsOk_ok h ex.completedNodes n
      unfold shouldSkip
      rw [hCondition, hEdges]
      split
      · exact ⟨false, rfl⟩
      · cases b with
        | false => exact ⟨true, rfl⟩
        | true =>
          cases b' with
          | true => exact ⟨false, rfl⟩
          | false => exact ⟨_, rfl⟩
    obtain ⟨b, hOk⟩ := hOk
    unfold Coordinator.skipLoop
    split
    · exact ih ex hRest
    · rw [hNode]
      dsimp only
      rw [hOk]
      cases b with
      | false => exact ih ex hRest
      | true =>
        obtain ⟨ex', changed, hLoop⟩ := ih (ex.skip n) hRest
        dsimp only
        rw [hLoop]
        exact ⟨ex', true, rfl⟩

theorem mem_resolve_iff {s : NodeSets} {ready : List NodeId} {n : NodeId}
    (h : resolve c.registry g s false ctx = .ok ready) : n ∈ ready ↔ Ready c g s ctx n :=
  mem_resolve h

theorem GetsOn.skips (h : GetsOn c g ex) (hAcyclic : EdgeList.Acyclic g.Precedes)
    (hClosed : g.Closed) (hEval : Evaluates c.registry g ex.conditionCtx.environment)
    (hFree : ex.sets.blocked = []) (hOpen : ∃ n, Open g ex.sets n)
    (hReady : resolve c.registry g ex.sets ex.cancelRequested ex.conditionCtx = .ok []) :
    ∃ n, Open g ex.sets n ∧ c.Skippable g ex.conditionCtx ex n := by
  cases hCancel : ex.cancelRequested with
  | true => exact h.cancelled hCancel
  | false =>
    rw [hCancel] at hReady
    obtain ⟨n, hOpen, hMoves⟩ :=
      (movable_iff_unbarred hAcyclic hClosed hEval hFree).mpr h.unbarred hOpen
    rcases hMoves with hIn | hSkip
    · exact absurd ((mem_resolve_iff hReady).mpr hIn) List.not_mem_nil
    · exact ⟨n, hOpen, hSkip⟩

/-- **The last section.** It stalls exactly where the execution does not get on. -/
theorem stallsAt_iff (hAcyclic : EdgeList.Acyclic g.Precedes) (hClosed : g.Closed)
    (hEval : Evaluates c.registry g ex.conditionCtx.environment) (hGraph : ex.graph = .graph g)
    (hFailed : ex.failedNodes = []) (h : Blocked c ex) : StallsAt c ex ↔ ¬ GetsOn c g ex := by
  obtain ⟨hReady, hPending⟩ := h.listed hGraph
  have hFree : ∀ s : NodeSets, s.failed = ex.failedNodes → s.running = ex.currentNodes →
      s.blocked = [] := by
    intro s hF hR
    unfold NodeSets.blocked
    rw [hF, hR, hFailed, h.current]
    rfl
  have hOpen : ∃ n, Open g ex.sets n := by
    obtain ⟨n, hn⟩ := List.exists_mem_of_ne_nil _ h.pending
    exact ⟨n, (hPending n).mp hn⟩
  obtain ⟨ex', changed, hLoop⟩ :=
    skipLoop_total (c := c) hEval [] ex fun v hv => ((hPending v).mp hv).node
  have hSkips : changed = true ↔ ∃ n, Open g ex.sets n ∧ c.Skippable g ex.conditionCtx ex n := by
    rw [skipLoop_changed hLoop]
    constructor
    · rintro ⟨n, hn, -, hSkip⟩
      exact ⟨n, (hPending n).mp hn, hSkip⟩
    · rintro ⟨n, hn, hSkip⟩
      exact ⟨n, (hPending n).mpr hn, List.not_mem_nil, hSkip⟩
  unfold StallsAt Coordinator.trySkipBlocked
  rw [hGraph]
  dsimp only
  rw [hLoop]
  cases changed with
  | false =>
    -- nothing was skipped, so nothing has changed
    rw [skipLoop_unchanged hLoop]
    refine iff_of_true ⟨ex, rfl, h.ready, h.pending, hFailed⟩ fun hGetsOn => ?_
    cases hSkips.mpr (hGetsOn.skips hAcyclic hClosed hEval (hFree _ rfl rfl) hOpen hReady)
  | true =>
    have hLast := skipLoop_skipping c g ex.conditionCtx [] ex.pendingNodes ex
    have hMoves : Moves g ex (c.skipLoop g ex.conditionCtx [] ex.pendingNodes ex).1 :=
      Moves.skipLoop (fun v hv => .inl hv) fun v _ => by
        rw [h.current]
        exact List.not_mem_nil
    have hAfter : afterSkips c g ex = ex'.sets := by
      unfold afterSkips
      rw [hLoop]
    rw [hLoop] at hLast hMoves
    obtain ⟨ready, hResolve⟩ := resolve_ok (c := c) hEval ex'.sets false
    have hGraph' : ex'.graph = .graph g := hMoves.frame.graph.trans hGraph
    have hFailed' : ex'.failedNodes = [] := hMoves.frame.failed.trans hFailed
    have hStuck : (∃ ex'', (ex'.refresh ready, (none : Option Failure)) = (ex'', none) ∧
        ex''.readyNodes = [] ∧ ex''.pendingNodes ≠ [] ∧ ex''.failedNodes = []) ↔
        ready = [] ∧ ∃ n, Open g ex'.sets n := by
      constructor
      · rintro ⟨ex'', hEq, hNil, hSome, -⟩
        cases hEq
        obtain ⟨n, hn⟩ := List.exists_mem_of_ne_nil _ hSome
        exact ⟨hNil, n, (mem_refresh_pending hGraph' ready).mp hn⟩
      · rintro ⟨hNil, n, hn⟩
        exact ⟨_, rfl, hNil, List.ne_nil_of_mem ((mem_refresh_pending hGraph' ready).mpr hn),
          hFailed'⟩
    dsimp only
    rw [hResolve]
    dsimp only
    rw [hStuck]
    constructor
    · rintro ⟨rfl, hOpen'⟩ hGetsOn
      obtain ⟨n, hIn⟩ := hGetsOn.skipped (by
        rw [hAfter]
        exact exists_waits hAcyclic hClosed (hFree _ hLast.failed hLast.running) hOpen')
      rw [hAfter] at hIn
      exact absurd ((mem_resolve_iff hResolve).mpr hIn) List.not_mem_nil
    · intro hNot
      by_contra hGoes
      obtain ⟨m, hOpenM, hSkipM⟩ := hSkips.mp rfl
      have hWaitsM := waits_of_movable hEval hOpenM (.inr hSkipM)
      refine hNot ⟨fun _ => ⟨m, hWaitsM, ?_⟩, fun _ => ⟨m, hOpenM, hSkipM⟩, fun hWaits => ?_⟩
      · exact (movable_iff_not_barred hEval hWaitsM).mp (.inr hSkipM)
      · rw [hAfter] at hWaits ⊢
        obtain ⟨n, hWaits⟩ := hWaits
        have hSome : ready ≠ [] := fun hNil => hGoes ⟨hNil, n, hWaits.toOpen⟩
        obtain ⟨r, hr⟩ := List.exists_mem_of_ne_nil _ hSome
        exact ⟨r, (mem_resolve_iff hResolve).mp hr⟩

end

-- ------ Which actions end in a stall

/-- `CoordinationError("coordination stalled; …")`. -/
def Failure.Stall : Failure → Prop
  | .stalled _ => True
  | _ => False

/-- The call has raised it. -/
def Stalled (p : Party) : Prop := ∃ f, p.position = .idle (some f) ∧ f.Stall

section

variable {c : Coordinator} {ex ex' : WorkflowExecution} {f : Failure}

theorem transition_error {target : WorkflowStatus} (h : ex.transition target = .error f) :
    ¬ f.Stall := by
  unfold WorkflowExecution.transition at h
  split at h
  · cases h
  · split at h
    · cases h
    · cases h
      exact id

theorem finalize_error {failFast : Bool} (h : ex.finalize failFast = .error f) : ¬ f.Stall := by
  unfold WorkflowExecution.finalize at h
  split at h
  · exact transition_error h
  · split at h
    · exact transition_error h
    · split at h
      · exact transition_error h
      · cases h

theorem skipLoop_error {g : TaskGraph} {ctx : ConditionCtx} {keep l : List NodeId}
    (h : c.skipLoop g ctx keep l ex = (ex', .error f)) : ¬ f.Stall := by
  induction l generalizing ex with
  | nil => cases h
  | cons nid l ih =>
    unfold Coordinator.skipLoop at h
    split at h
    · exact ih h
    · split at h
      · cases h
        exact id
      · split at h
        · cases h
          exact id
        · exact ih h
        · obtain ⟨hEx, hRest⟩ := Prod.mk.inj h
          cases hLoop : (c.skipLoop g ctx keep l (ex.skip nid)).2 with
          | ok changed =>
            rw [hLoop] at hRest
            cases hRest
          | error f' =>
            rw [hLoop] at hRest
            cases hRest
            exact ih (Prod.ext hEx hLoop)

theorem prepare_error (h : c.prepare ex = (ex', .error f)) : ¬ f.Stall := by
  unfold Coordinator.prepare at h
  split at h
  · cases h
    exact id
  · dsimp only at h
    split at h
    · cases h
      exact id
    · split at h
      · next hLoop =>
        cases h
        exact skipLoop_error hLoop
      · split at h
        · cases h
          exact id
        · cases h

theorem finish_error (h : c.finish ex = (ex', some f)) : ¬ f.Stall := by
  unfold Coordinator.finish at h
  split at h
  · cases h
    exact id
  · split at h
    · cases h
      exact id
    · dsimp only at h
      split at h
      · split at h
        · next hFinal =>
          cases h
          exact finalize_error hFinal
        · cases h
      · split at h
        · cases h
        · split at h
          · cases h
          · split at h
            · cases h
            · cases h

theorem trySkipBlocked_error (h : c.trySkipBlocked ex = (ex', some f)) : ¬ f.Stall := by
  unfold Coordinator.trySkipBlocked at h
  split at h
  · cases h
    exact id
  · dsimp only at h
    split at h
    · next hLoop =>
      cases h
      exact skipLoop_error hLoop
    · cases h
    · split at h
      · cases h
        exact id
      · cases h

theorem assign_error {node : TaskNode} {agentPool : List String}
    (h : c.assign node agentPool = .error f) : ¬ f.Stall := by
  unfold Coordinator.assign at h
  dsimp only at h
  split at h
  · split at h
    · cases h
      exact id
    · cases h
  · split at h
    · cases h
      exact id
    · cases h

/-- Only a section of `_try_skip_blocked` can end in a stall. -/
abbrev StallsIn (c : Coordinator) (l : List (Section × WorkflowExecution)) : Prop :=
  ∃ ex, (.trySkipBlocked, ex) ∈ l ∧ StallsAt c ex

theorem not_stallsIn_nil : ¬ StallsIn c [] := by
  rintro ⟨ex, hIn, -⟩
  cases hIn

theorem stallsIn_cons {sec : Section} {l : List (Section × WorkflowExecution)}
    (h : sec ≠ .trySkipBlocked) : StallsIn c ((sec, ex) :: l) ↔ StallsIn c l := by
  constructor
  · rintro ⟨ex', hIn, hStalls⟩
    rcases List.mem_cons.mp hIn with hEq | hIn
    · exact absurd (Prod.mk.inj hEq).1.symm h
    · exact ⟨ex', hIn, hStalls⟩
  · rintro ⟨ex, hIn, hStalls⟩
    exact ⟨ex, List.mem_cons_of_mem _ hIn, hStalls⟩

theorem not_stalled_leave (p : Party) (h : ¬ f.Stall) : ¬ Stalled (Coordinator.leave p ex (some f)) := by
  rintro ⟨f', hEq, hStall⟩
  cases hEq
  exact h hStall

theorem not_stalled_leave_none (p : Party) : ¬ Stalled (Coordinator.leave p ex none) := by
  rintro ⟨f', hEq, -⟩
  cases hEq

theorem not_stalled_leaveFinal (p : Party) : ¬ Stalled (c.leaveFinal p ex) := by
  unfold Coordinator.leaveFinal
  split
  · next hFinal => exact not_stalled_leave p (finalize_error hFinal)
  · exact not_stalled_leave_none p

theorem stalled_afterStep (p : Party) :
    Stalled (c.afterStep p ex) ↔ StallsIn c (Coordinator.afterStepSections ex) := by
  unfold Coordinator.afterStep Coordinator.afterStepSections
  split
  · exact iff_of_false (not_stalled_leave_none p) not_stallsIn_nil
  · split
    · exact iff_of_false (not_stalled_leaveFinal p) not_stallsIn_nil
    · split
      · have hOnly : StallsIn c [(.trySkipBlocked, ex)] ↔ StallsAt c ex := by
          constructor
          · rintro ⟨ex', hIn, hStalls⟩
            cases List.mem_singleton.mp hIn
            exact hStalls
          · exact fun hStalls => ⟨ex, List.mem_singleton_self _, hStalls⟩
        rw [hOnly]
        unfold StallsAt
        cases hTry : c.trySkipBlocked ex with
        | mk ex' raised =>
          cases raised with
          | some f =>
            refine iff_of_false (not_stalled_leave p (trySkipBlocked_error hTry)) ?_
            rintro ⟨ex'', hEq, -⟩
            cases hEq
          | none =>
            dsimp only
            split
            -- nothing is ready and something is pending: a failed node ends the
            -- execution, without one it stalls
            · next hPending =>
              split
              · next hFailed =>
                refine iff_of_false (not_stalled_leaveFinal p) ?_
                rintro ⟨ex'', hEq, -, -, hNone⟩
                cases hEq
                exact hFailed hNone
              · next hFailed =>
                exact iff_of_true ⟨_, rfl, trivial⟩
                  ⟨ex', rfl, hPending.1, hPending.2, not_not.mp hFailed⟩
            · next hGoes =>
              refine iff_of_false ?_ ?_
              · rintro ⟨f, hEq, -⟩
                cases hEq
              · rintro ⟨ex'', hEq, hReady, hPending, -⟩
                cases hEq
                exact hGoes ⟨hReady, hPending⟩
      · refine iff_of_false ?_ not_stallsIn_nil
        rintro ⟨f, hEq, -⟩
        cases hEq

theorem stalled_endStep (p : Party) :
    Stalled (c.endStep p ex) ↔ StallsIn c (c.endStepSections p ex) := by
  unfold Coordinator.endStep Coordinator.endStepSections
  rw [stallsIn_cons (by decide)]
  cases hFinish : c.finish ex with
  | mk ex' raised =>
    cases raised with
    | some f => exact iff_of_false (not_stalled_leave p (finish_error hFinish)) not_stallsIn_nil
    | none =>
      dsimp only
      split
      · exact stalled_afterStep p
      · exact iff_of_false (not_stalled_leave_none p) not_stallsIn_nil

theorem stalled_pollNext (p : Party) (todo : List (RequestId × ExecutionRequest)) :
    Stalled (c.pollNext p ex todo) ↔ StallsIn c (c.pollNextSections p ex todo) := by
  cases todo with
  | nil => exact stalled_endStep p
  | cons e todo =>
    refine iff_of_false ?_ not_stallsIn_nil
    rintro ⟨f, hEq, -⟩
    cases hEq

theorem stalled_dispatchNext (sh : Shared) (p : Party) (todo : List NodeId) :
    Stalled (c.dispatchNext sh p ex todo) ↔ StallsIn c (c.dispatchNextSections sh p ex todo) := by
  cases todo with
  | nil => exact stalled_pollNext p _
  | cons nid todo =>
    refine iff_of_false ?_ not_stallsIn_nil
    unfold Coordinator.dispatchNext
    dsimp only
    split
    · exact not_stalled_leave p id
    · split
      · exact not_stalled_leave p id
      · split
        · next hAssign => exact not_stalled_leave p (assign_error hAssign)
        · rintro ⟨f, hEq, -⟩
          cases hEq

theorem stalled_beginStep (sh : Shared) (p : Party) :
    Stalled (c.beginStep sh p ex) ↔ StallsIn c (c.beginStepSections sh p ex) := by
  unfold Coordinator.beginStep Coordinator.beginStepSections
  rw [stallsIn_cons (by decide)]
  cases hPrepare : c.prepare ex with
  | mk ex' result =>
    cases result with
    | error f => exact iff_of_false (not_stalled_leave p (prepare_error hPrepare)) not_stallsIn_nil
    | ok todo => exact stalled_dispatchNext sh p todo

theorem not_stalled_cancelNext (p : Party) (requests : List RequestId) :
    ¬ Stalled (Coordinator.cancelNext p requests) := by
  unfold Coordinator.cancelNext
  split
  · split
    · next hFinal => exact not_stalled_leave p (transition_error hFinal)
    · exact not_stalled_leave_none p
  · rintro ⟨f, hEq, -⟩
    cases hEq

theorem retryFailed_error {sh sh' : Shared} {signal : ExecutionSignal}
    (h : Coordinator.retryFailed sh ex signal = (sh', ex', some f)) : ¬ f.Stall := by
  unfold Coordinator.retryFailed at h
  split at h
  · cases h
    exact id
  · split at h
    · cases h
      exact id
    · cases h

theorem stalled_receive (sh : Shared) (p : Party) (r : RequestId)
    (todo : List (RequestId × ExecutionRequest)) (signal : ExecutionSignal) :
    Stalled (c.receive sh p r todo signal).2 ↔
      StallsIn c (c.receiveSections sh p r todo signal) := by
  unfold Coordinator.receive Coordinator.receiveSections
  dsimp only
  split
  · rcases hRetry : Coordinator.retryFailed
      (Coordinator.drop sh (p.execution.applySignal signal).executionId r)
      (p.execution.applySignal signal) signal with ⟨sh', ex', raised⟩
    cases raised with
    | some f => exact iff_of_false (not_stalled_leave p (retryFailed_error hRetry)) not_stallsIn_nil
    | none => exact stalled_pollNext p todo
  · exact stalled_pollNext p todo

/-- **An action ends in a stall exactly if its last section does.** -/
theorem stalled_act {sh : Shared} {p : Party} (action : Action) (h : ¬ Stalled p) :
    Stalled (c.act sh p action).2 ↔ StallsIn c (c.sections sh p action) := by
  -- nothing of the party's position changes, or it goes where no failure is kept
  have hStays : ∀ p' : Party, p'.position = p.position → (Stalled p' ↔ StallsIn c []) := by
    intro p' hSame
    refine iff_of_false (fun hStalled => h ?_) not_stallsIn_nil
    obtain ⟨f, hEq, hStall⟩ := hStalled
    exact ⟨f, hSame ▸ hEq, hStall⟩
  have hElsewhere : ∀ p' : Party, (∀ raised, p'.position ≠ .idle raised) →
      (Stalled p' ↔ StallsIn c []) := by
    intro p' hNot
    refine iff_of_false ?_ not_stallsIn_nil
    rintro ⟨f, hEq, -⟩
    exact hNot _ hEq
  unfold Coordinator.act Coordinator.sections
  cases action with
  | cancel forced => exact hStays _ rfl
  | start =>
    cases hPosition : p.position with
    | idle raised => exact hElsewhere _ fun _ h => by cases h
    | _ => exact hStays _ rfl
  | step =>
    cases hPosition : p.position with
    | idle raised => exact stalled_beginStep sh _
    | _ => exact hStays _ rfl
  | advance =>
    cases hPosition : p.position with
    | top =>
      dsimp only
      unfold Coordinator.loopTop Coordinator.loopTopSections
      split
      · exact iff_of_false (not_stalled_leave_none p) not_stallsIn_nil
      · split
        · exact iff_of_false (not_stalled_cancelNext p _) not_stallsIn_nil
        · exact stalled_beginStep sh p
    | _ => exact hStays _ rfl
  | submitted requestId =>
    cases hPosition : p.position with
    | dispatching nid assignment todo => exact stalled_dispatchNext _ p todo
    | _ => exact hStays _ rfl
  | polled answer =>
    cases hPosition : p.position with
    | polling todo tries =>
      cases todo with
      | nil =>
        cases answer with
        | none => exact hStays _ rfl
        | some signal => exact hStays _ rfl
      | cons e todo =>
        cases answer with
        | none =>
          dsimp only
          split
          · exact stalled_pollNext p todo
          · exact hElsewhere _ fun _ h => by cases h
        | some signal => exact stalled_receive sh p e.1 todo signal
    | _ =>
      cases answer with
      | none => exact hStays _ rfl
      | some signal => exact hStays _ rfl
  | withdrawn =>
    cases hPosition : p.position with
    | cancelling requests =>
      cases requests with
      | nil => exact hStays _ rfl
      | cons r requests => exact iff_of_false (not_stalled_cancelNext p requests) not_stallsIn_nil
    | _ => exact hStays _ rfl
  | portError text =>
    cases hPosition : p.position with
    | idle raised => exact hStays _ rfl
    | top => exact hStays _ rfl
    | _ => exact iff_of_false (not_stalled_leave p id) not_stallsIn_nil

end

-- ------ Runs in which every request succeeds

/-- The map that conditions are evaluated with, but for the statuses. -/
def Context.environment : Context → Environment
  | .swarm (.ok map) => map.environment
  | .swarm (.error _) | .plain => {}

theorem conditionCtx_environment (ex : WorkflowExecution) :
    ex.conditionCtx.environment = ex.context.environment := by
  unfold WorkflowExecution.conditionCtx Context.environment
  cases ex.context with
  | plain => rfl
  | swarm asConditionMap =>
    cases asConditionMap with
    | error text => rfl
    | ok map => rfl

/-- HAOE reports nothing but successes. -/
def Successful : Action → Prop
  | .polled (some signal) => signal.kind = .success
  | _ => True

instance : DecidablePred Successful
  | .polled (some signal) => inferInstanceAs (Decidable (signal.kind = .success))
  | .polled none | .start | .step | .advance | .submitted _ | .withdrawn | .portError _
  | .cancel _ => .isTrue trivial

/-- `coordinate` has not raised that it stalls; and at rest, with nothing in flight and some node
open, some open node is ready or skippable. -/
structure GoesOn (c : Coordinator) (g : TaskGraph) (p : Party) : Prop where
  runs : ¬ Stalled p
  movable : p.position.AtRest → p.execution.currentNodes = [] →
    (∃ n, Open g p.execution.sets n) → Movable c g p.execution

/-- At rest and with nothing in flight, not all that waits is barred. -/
def Unhindered (c : Coordinator) (g : TaskGraph) (p : Party) : Prop :=
  p.position.AtRest → p.execution.currentNodes = [] → Unbarred c g p.execution

section

variable {c : Coordinator}

theorem Noted.failed_success {ex ex' : WorkflowExecution} {signal : ExecutionSignal}
    (h : Noted ex signal ex') (hKind : signal.kind = .success) (hFailed : ex.failedNodes = []) :
    ex'.failedNodes = [] := by
  have hApply : (ex.applySignal signal).failedNodes = [] := by
    unfold WorkflowExecution.applySignal
    rw [hKind]
    exact hFailed
  cases h with
  | applied => exact hApply
  | decided decision =>
    unfold WorkflowExecution.applyDecision
    split
    · dsimp only
      rw [hApply]
      rfl
    · dsimp only
      rw [hApply]
      rfl

variable {g : TaskGraph} {context : Context} {p : Party}

/-- What stays of an execution in which every request succeeds. -/
structure Smooth (g : TaskGraph) (context : Context) (ex : WorkflowExecution) : Prop where
  graph : ex.graph = .graph g
  context : ex.context = context
  failed : ex.failedNodes = []

theorem Smooth.moves {ex ex' : WorkflowExecution} (h : Smooth g context ex) (hMoves : Moves g ex ex') :
    Smooth g context ex' :=
  ⟨hMoves.frame.graph.trans h.graph, hMoves.frame.context.trans h.context,
    hMoves.frame.failed.trans h.failed⟩

theorem Smooth.call {action : Action} {ex : WorkflowExecution} (h : Smooth g context p.execution)
    (hSuccess : Successful action) (hCall : Call p action ex) : Smooth g context ex := by
  cases hCall with
  | nothing _ => exact h
  | called st cancelRequested => exact ⟨h.graph, h.context, h.failed⟩
  | dispatched _ _ => exact ⟨h.graph, h.context, h.failed⟩
  | noted _ hNoted =>
    exact ⟨hNoted.graph.trans h.graph, hNoted.context.trans h.context,
      hNoted.failed_success hSuccess h.failed⟩

theorem not_stalled_act (hAcyclic : EdgeList.Acyclic g.Precedes) (hClosed : g.Closed)
    (hEval : Evaluates c.registry g context.environment) (sh : Shared) (h : Smooth g context p.execution)
    (hRuns : ¬ Stalled p) {action : Action} (hSuccess : Successful action) :
    ¬ Stalled (c.act sh p action).2 ↔
      ∀ ex, (.trySkipBlocked, ex) ∈ c.sections sh p action → GetsOn c g ex := by
  have hExact : ∀ ex, (.trySkipBlocked, ex) ∈ c.sections sh p action →
      (StallsAt c ex ↔ ¬ GetsOn c g ex) := by
    intro ex hIn
    obtain ⟨ex', hCall, hFound⟩ := found_sections h.graph hIn
    have hSmooth := (h.call hSuccess hCall).moves hFound.moves
    refine stallsAt_iff hAcyclic hClosed ?_ hSmooth.graph hSmooth.failed (hFound.blocked rfl)
    rw [conditionCtx_environment, hSmooth.context]
    exact hEval
  rw [stalled_act action hRuns]
  constructor
  · intro hNone ex hIn
    by_contra hNot
    exact hNone ⟨ex, hIn, (hExact ex hIn).mpr hNot⟩
  · rintro hAll ⟨ex, hIn, hStalls⟩
    exact (hExact ex hIn).mp hStalls (hAll ex hIn)

end

section

variable {ι : Type*} [DecidableEq ι] {c : Coordinator} {graphs : ι → TaskGraph} {contexts : ι → Context}

theorem smooth_act {w : World ι} (h : ∀ i, Smooth (graphs i) (contexts i) (w.party i).execution)
    (op : ι × Action) (hSuccess : Successful op.2) (i : ι) :
    Smooth (graphs i) (contexts i) ((w.act c op).party i).execution := by
  by_cases hEq : i = op.1
  · obtain ⟨ex, hCall, hMoves⟩ := act_calls c w.shared (h op.1).graph op.2
    rw [hEq, World.act_party_self]
    exact ((h op.1).call hSuccess hCall).moves hMoves
  · rw [World.act_party_ne c w op hEq]
    exact h i

/-- **No stall.** Where every request succeeds and every condition can be evaluated, all executions
go on all along a run if and only if in no state at rest all that waits is barred, and every
execution whose last section is reached gets on there. -/
theorem goesOn_iff (c : Coordinator) (workflowIds executionIds : ι → String) (graphs : ι → TaskGraph)
    (hAcyclic : ∀ i, EdgeList.Acyclic (graphs i).Precedes) (hClosed : ∀ i, (graphs i).Closed)
    (contexts : ι → Context)
    (hEval : ∀ i, Evaluates c.registry (graphs i) (contexts i).environment)
    (agents : ι → List String) (ops : List (ι × Action))
    (hSuccess : Run.Every (World.act c) (fun _ op => Successful op.2)
      (.opened workflowIds executionIds graphs contexts agents) ops) :
    Run.Along (World.act c) (fun w => ∀ i, GoesOn c (graphs i) (w.party i))
        (.opened workflowIds executionIds graphs contexts agents) ops ↔
      Run.Along (World.act c) (fun w => ∀ i, Unhindered c (graphs i) (w.party i))
        (.opened workflowIds executionIds graphs contexts agents) ops ∧
      Run.Every (World.act c) (fun w op => ∀ ex,
          (.trySkipBlocked, ex) ∈ c.sections w.shared (w.party op.1) op.2 →
            GetsOn c (graphs op.1) ex)
        (.opened workflowIds executionIds graphs contexts agents) ops := by
  have hOpened : ∀ i, Smooth (graphs i) (contexts i) ((World.opened workflowIds executionIds graphs
      contexts agents).party i).execution := fun _ => ⟨rfl, rfl, rfl⟩
  have hRuns : ∀ i, ¬ Stalled ((World.opened workflowIds executionIds graphs contexts agents).party i) := by
    rintro i ⟨f, hEq, -⟩
    cases hEq
  have hSmooth := Run.along_of_every
    (I := fun w : World ι => ∀ i, Smooth (graphs i) (contexts i) (w.party i).execution)
    (fun _ op h hC => smooth_act (c := c) h op hC) hOpened hSuccess
  -- the calls that do not raise
  have hStalls : Run.Along (World.act c) (fun w => ∀ i, ¬ Stalled (w.party i))
        (.opened workflowIds executionIds graphs contexts agents) ops ↔
      Run.Every (World.act c) (fun w op => ∀ ex,
          (.trySkipBlocked, ex) ∈ c.sections w.shared (w.party op.1) op.2 →
            GetsOn c (graphs op.1) ex)
        (.opened workflowIds executionIds graphs contexts agents) ops := by
    refine Run.along_iff_every_of
      (I := fun w : World ι => (∀ i, Smooth (graphs i) (contexts i) (w.party i).execution) ∧
        ∀ i, ¬ Stalled (w.party i))
      (fun _ h => h.2) (fun w op h hC hGetsOn => ⟨smooth_act h.1 op hC, fun i => ?_⟩)
      (fun w op h hC hNot hNone => hNot ?_) ⟨hOpened, hRuns⟩ hSuccess
    · by_cases hEq : i = op.1
      · rw [hEq, World.act_party_self]
        exact (not_stalled_act (hAcyclic op.1) (hClosed op.1) (hEval op.1) w.shared (h.1 op.1)
          (h.2 op.1) hC).mpr hGetsOn
      · rw [World.act_party_ne c w op hEq]
        exact h.2 i
    · have hSelf := hNone op.1
      rw [World.act_party_self] at hSelf
      exact (not_stalled_act (hAcyclic op.1) (hClosed op.1) (hEval op.1) w.shared (h.1 op.1)
        (h.2 op.1) hC).mp hSelf
  -- the states at rest
  have hRest : ∀ w : World ι, (∀ i, Smooth (graphs i) (contexts i) (w.party i).execution) →
      ∀ i, ((w.party i).position.AtRest → (w.party i).execution.currentNodes = [] →
          (∃ n, Open (graphs i) (w.party i).execution.sets n) →
            Movable c (graphs i) (w.party i).execution) ↔
        Unhindered c (graphs i) (w.party i) := by
    intro w h i
    refine forall₂_congr fun _ hCurrent => movable_iff_unbarred (hAcyclic i) (hClosed i) ?_ ?_
    · rw [conditionCtx_environment, (h i).context]
      exact hEval i
    · unfold NodeSets.blocked WorkflowExecution.sets
      rw [(h i).failed, hCurrent]
      rfl
  rw [← hStalls]
  simp only [Run.along_iff_take] at hSmooth ⊢
  constructor
  · intro h
    exact ⟨fun n i => (hRest _ (hSmooth n) i).mp (h n i).movable, fun n i => (h n i).runs⟩
  · rintro ⟨hUnhindered, hNone⟩ n i
    exact ⟨hNone n i, (hRest _ (hSmooth n) i).mpr (hUnhindered n i)⟩

end

-- ------ A skipped node with a successor that is never to run

/-- Neither `a` nor its successor `b` is ever to run. -/
def neverChain : TaskGraph where
  graphId := "g"
  nodes := (Dict.empty.set "a" { id := "a", condition := some (.ok .never) }).set "b"
    { id := "b", condition := some (.ok .never) }
  edges := [{ src := "a", dst := "b" }]

theorem neverChain_closed : neverChain.Closed := by
  intro u v h
  obtain ⟨e, he, -, rfl, rfl⟩ := TaskGraph.precedes_iff.mp h
  rw [List.mem_singleton.mp he]
  exact ⟨by decide, by decide⟩

theorem neverChain_acyclic : EdgeList.Acyclic neverChain.Precedes :=
  (TaskGraph.isDag_iff none neverChain_closed).mp (by decide +kernel)

theorem neverChain_evaluates (registry : Registry) : Evaluates registry neverChain {} := by
  rintro condition (⟨e, he, rfl⟩ | ⟨n, node, hNode, rfl⟩) statuses
  · rw [List.mem_singleton.mp he]
    exact ⟨true, rfl⟩
  · have hIn := Dict.mem_entries_iff.mpr hNode
    rcases List.mem_cons.mp hIn with hEq | hIn
    · cases hEq
      exact ⟨false, rfl⟩
    · cases List.mem_singleton.mp hIn
      exact ⟨false, rfl⟩

def neverChainStart : World Unit :=
  .opened (fun _ => "wf") (fun _ => "ex") (fun _ => neverChain) (fun _ => .plain) fun _ => ["w"]

theorem goesOn_iff_neverChain :
    Run.Along (World.act {}) (fun w => ∀ i, GoesOn {} neverChain (w.party i)) neverChainStart
        [((), .start)] ↔
      Run.Along (World.act {}) (fun w => ∀ i, Unhindered {} neverChain (w.party i)) neverChainStart
        [((), .start)] ∧
      Run.Every (World.act {}) (fun w op => ∀ ex,
          (.trySkipBlocked, ex) ∈ Coordinator.sections {} w.shared (w.party op.1) op.2 →
            GetsOn {} neverChain ex)
        neverChainStart [((), .start)] :=
  goesOn_iff {} (fun _ => "wf") (fun _ => "ex") (fun _ => neverChain) (fun _ => neverChain_acyclic)
    (fun _ => neverChain_closed) (fun _ => .plain) (fun _ => neverChain_evaluates _) (fun _ => ["w"])
    [((), .start)] (by decide)

/-- `a` is skipped; `b`, behind it, is not, and is not ready. -/
theorem not_goesOn_neverChain :
    ¬ Run.Along (World.act {}) (fun w => ∀ i, GoesOn {} neverChain (w.party i)) neverChainStart
      [((), .start), ((), .advance)] := by
  intro h
  exact (h.exec ()).runs ⟨.stalled ["b"], by rfl, trivial⟩

end Neuroswarm.MetaOrchestrator
