import Neuroswarm.MetaOrchestrator.Executions
import Neuroswarm.MetaOrchestrator.NodeSets
import Neuroswarm.Swarm.Completion

/-!
# Meta orchestrator — `max_attempts`

`RetryCoordinator` raises the counter of a node when it has failed, and gives the node
up when the counter is above `max_attempts`; `GraphExecutor` compares before it calls.
So a node that always fails is dispatched once more than its handler is called.

`Counted` ties the counter to what happened: before a dispatch the node has failed as
often as it was dispatched, and while it runs once less.
-/

/-!
## `fail_fast`

`should_fail` asks whether a node is failed. By the time it is asked, the retry
coordinator has taken every failed node out of `failed_nodes`: to try it again, or,
when its attempts are used up, to skip it. So no run reaches FAILED, whatever
`fail_fast` says.
-/

namespace Neuroswarm.MetaOrchestrator

open Swarm

variable {g : TaskGraph} {ex ex' : WorkflowExecution}

theorem Move.status_ne (hMove : Move g ex ex') (hFailed : ex.failedNodes = [])
    (h : ex.status ≠ .failed) : ex'.status ≠ .failed := by
  cases hMove with
  | status st hSet => exact fun hSt => hSet hSt hFailed
  | refresh ready => exact h
  | skip v hNode hListed hCurrent hPreds => exact h
  | assign agents => exact h

theorem Moves.status_ne (hMoves : Moves g ex ex') (hFailed : ex.failedNodes = [])
    (h : ex.status ≠ .failed) : ex'.status ≠ .failed := by
  have hBoth : ex'.failedNodes = [] ∧ ex'.status ≠ .failed :=
    hMoves.keep (P := fun ex => ex.failedNodes = [] ∧ ex.status ≠ .failed)
      (fun hMove hP => ⟨hMove.frame.failed.trans hP.1, hMove.status_ne hP.1 hP.2⟩) ⟨hFailed, h⟩
  exact hBoth.2

theorem Entry.status_ne (hEntry : Entry g ex ex') (hFailed : ex.failedNodes = [])
    (h : ex.status ≠ .failed) : ex'.failedNodes = [] ∧ ex'.status ≠ .failed := by
  cases hEntry with
  | nothing => exact ⟨hFailed, h⟩
  | called st cancelRequested hSt =>
    rcases hSt with rfl | hSt
    · exact ⟨hFailed, h⟩
    · exact ⟨hFailed, hSt⟩
  | dispatched hAdmissible => exact ⟨hFailed, h⟩
  | received hv hReceived =>
    cases hReceived with
    | completed results => exact ⟨hFailed, h⟩
    | exhausted results => exact ⟨hFailed, h⟩
    | retried results => exact ⟨hFailed, h⟩
    | skipped => exact ⟨hFailed, h⟩
    | unknown => exact ⟨hFailed, h⟩

/-- **Step.** -/
theorem status_act (hKeyed : g.Keyed) {c : Coordinator} (s : Shared × Party) (action : Action)
    (h : Inv g s ∧ s.2.execution.status ≠ .failed) (hHonest : Honest s action) :
    Inv g (c.soloAct s action) ∧ (c.soloAct s action).2.execution.status ≠ .failed := by
  obtain ⟨ex, hEntry, hMoves⟩ := act_moves hKeyed (c := c) h.1 hHonest
  obtain ⟨hFailed, hStatus⟩ := hEntry.status_ne h.1.placed.failed h.2
  exact ⟨inv_act hKeyed s action h.1 hHonest, hMoves.status_ne hFailed hStatus⟩

/-- **Run.** -/
theorem notFailed_along (hKeyed : g.Keyed) (c : Coordinator) {s : Shared × Party} (hInv : Inv g s)
    (hStatus : s.2.execution.status ≠ .failed) {actions : List Action}
    (hHonest : Run.Every c.soloAct Honest s actions) :
    Run.Along c.soloAct (fun s => Inv g s ∧ s.2.execution.status ≠ .failed) s actions :=
  Run.along_of_every (fun s a h hC => status_act hKeyed s a h hC) ⟨hInv, hStatus⟩ hHonest

-- ------ Exhausted retries

/-- The retries of `n` are used up: it failed once more than it may be tried. -/
def Exhausted (g : TaskGraph) (s : Shared × Party) (n : NodeId) : Prop :=
  ∃ node, g.nodes.get? n = some node ∧
    maxAttempts node < ((s.1.attempts.get? (retryKey s.2.execution.executionId n)).getD 0 : Nat)

/-- Some continuation, with whatever HAOE reports, ends the execution in FAILED. -/
def CanFail (c : Coordinator) (s : Shared × Party) : Prop :=
  ∃ actions, Run.Every c.soloAct Honest s actions ∧
    (Run.exec c.soloAct s actions).2.execution.status = .failed

/-- **Fail fast.** After no run with a node whose retries are used up does the execution end in
FAILED, or can it still. -/
theorem exhausted_cannotFail (g : TaskGraph) (hKeyed : g.Keyed) (c : Coordinator)
    (workflowId executionId : String) (context : Context) (agents : List String)
    (actions : List Action)
    (hHonest : Run.Every c.soloAct Honest
      (fresh (.bindWorkflow workflowId executionId g context agents)) actions) (n : NodeId)
    (_hExhausted : Exhausted g (Run.exec c.soloAct
      (fresh (.bindWorkflow workflowId executionId g context agents)) actions) n) :
    ¬ CanFail c (Run.exec c.soloAct
      (fresh (.bindWorkflow workflowId executionId g context agents)) actions) := by
  have hInit : (fresh (.bindWorkflow workflowId executionId g context agents)).2.execution.status ≠
      .failed := fun h => by cases h
  obtain ⟨hInv, hStatus⟩ := (notFailed_along hKeyed c
    (inv_fresh workflowId executionId context agents) hInit hHonest).exec
  rintro ⟨more, hMore, hFailed⟩
  exact (notFailed_along hKeyed c hInv hStatus hMore).exec.2 hFailed

/-- `a` fails twice and may be tried once. -/
def failures : List Action :=
  [.start, .advance, .submitted "r1", reportA "r1" "failed", .advance, .submitted "r2",
    reportA "r2" "failed"]

theorem exhausted_cannotFail_lone :
    ¬ CanFail { failFast := true }
      (Run.exec (Coordinator.soloAct { failFast := true }) loneStart failures) :=
  exhausted_cannotFail lone lone_keyed { failFast := true } "wf" "ex" .plain ["w"] failures
    (by decide +kernel) "a" ⟨_, rfl, by decide +kernel⟩

/-- With `fail_fast`, the workflow is reported as completed. -/
theorem not_fails_fast :
    ¬ ∀ (c : Coordinator), c.failFast = true → ∀ (g : TaskGraph), g.Keyed →
      EdgeList.Acyclic g.Precedes → ∀ (actions : List Action) (n : NodeId),
      Run.Every c.soloAct Honest (fresh (.bindWorkflow "wf" "ex" g .plain ["w"])) actions →
      Exhausted g (Run.exec c.soloAct
        (fresh (.bindWorkflow "wf" "ex" g .plain ["w"])) actions) n →
      (Run.exec c.soloAct (fresh (.bindWorkflow "wf" "ex" g .plain ["w"]))
        actions).2.execution.status ≠ .completed := by
  intro h
  have hAcyclic : EdgeList.Acyclic lone.Precedes := fun a ha => by
    rcases ha with hEdge | ⟨-, hEdge⟩
    · cases hEdge
    · cases hEdge
  exact h { failFast := true } rfl lone lone_keyed hAcyclic failures "a" (by decide +kernel)
    ⟨_, rfl, by decide +kernel⟩ (by decide +kernel)

end Neuroswarm.MetaOrchestrator

/-! ## `max_attempts` -/

namespace Neuroswarm.MetaOrchestrator

open Swarm

variable {g : TaskGraph} {c : Coordinator} {sh : Shared} {p : Party} {n : NodeId}

/-- How often a node was dispatched, and how often it was reported as failed. -/
structure Tally where
  dispatches : Nat := 0
  failures : Nat := 0

/-- The request of a dispatch is submitted, or a poll is answered by a failure. -/
def Tally.count (n : NodeId) (p : Party) (t : Tally) : Action → Tally
  | .submitted _ =>
    match p.position with
    | .dispatching nid _ _ => if nid = n then { t with dispatches := t.dispatches + 1 } else t
    | _ => t
  | .polled (some signal) =>
    match p.position with
    | .polling (_ :: _) _ =>
      if signal.nodeId = n ∧ signal.kind = .failure then { t with failures := t.failures + 1 }
      else t
    | _ => t
  | _ => t

/-- An execution alone on its orchestrator, with the tally of `n`. -/
def Coordinator.countedAct (c : Coordinator) (n : NodeId) (s : (Shared × Party) × Tally)
    (action : Action) : (Shared × Party) × Tally :=
  (c.soloAct s.1 action, s.2.count n s.1.2 action)

/-- HAOE reports how `n` ended. -/
def Reports (n : NodeId) : Action → Prop
  | .polled (some signal) => signal.nodeId = n → signal.kind ≠ .unknown
  | _ => True

instance (n : NodeId) : DecidablePred (Reports n)
  | .polled (some signal) =>
    inferInstanceAs (Decidable (signal.nodeId = n → signal.kind ≠ .unknown))
  | .polled none | .start | .step | .advance | .submitted _ | .withdrawn | .portError _
  | .cancel _ => .isTrue trivial

/-- When `n` is dispatched it has failed less than `limit` times. -/
def DispatchedInTime (n : NodeId) (limit : Int) (s : (Shared × Party) × Tally)
    (action : Action) : Prop :=
  s.2.dispatches < (s.2.count n s.1.2 action).dispatches → (s.2.failures : Int) < limit

instance (n : NodeId) (limit : Int) (s : (Shared × Party) × Tally) :
    DecidablePred (DispatchedInTime n limit s) :=
  fun _ => inferInstanceAs (Decidable (_ → _))

/-- `n` is dispatched at most `limit` times, and that often if its retries are used up. -/
def Limited (g : TaskGraph) (n : NodeId) (limit : Int) (s : (Shared × Party) × Tally) : Prop :=
  (s.2.dispatches : Int) ≤ limit ∧ (Exhausted g s.1 n → (s.2.dispatches : Int) = limit)

-- ------ What concerns the node

theorem Received.executionId {ex ex' : WorkflowExecution} {v : NodeId} {kind : SignalKind}
    (h : Received ex v kind ex') : ex'.executionId = ex.executionId := by
  cases h with
  | completed | exhausted | retried | skipped | unknown => rfl

theorem Received.done {ex ex' : WorkflowExecution} {v : NodeId} {kind : SignalKind}
    (h : Received ex v kind ex') (hFailure : kind ≠ .failure) (hUnknown : kind ≠ .unknown) :
    v ∈ ex'.completedNodes ∨ v ∈ ex'.skippedNodes := by
  cases h with
  | completed => exact .inl (mem_appendNew.mpr (.inr rfl))
  | exhausted | retried => exact absurd rfl hFailure
  | skipped => exact .inr (mem_appendNew.mpr (.inr rfl))
  | unknown => exact absurd rfl hUnknown

/-- Nothing happens to `n`, but that it may be done. -/
structure Unmoved (n : NodeId) (ex ex' : WorkflowExecution) : Prop where
  executionId : ex'.executionId = ex.executionId
  current : n ∈ ex'.currentNodes ↔ n ∈ ex.currentNodes
  completed : n ∈ ex.completedNodes → n ∈ ex'.completedNodes
  skipped : n ∈ ex.skippedNodes → n ∈ ex'.skippedNodes

namespace Unmoved

variable {ex ex' ex'' : WorkflowExecution} {v : NodeId}

theorem refl (ex : WorkflowExecution) : Unmoved n ex ex := ⟨rfl, .rfl, id, id⟩

theorem trans (h : Unmoved n ex ex') (h' : Unmoved n ex' ex'') : Unmoved n ex ex'' where
  executionId := h'.executionId.trans h.executionId
  current := h'.current.trans h.current
  completed hIn := h'.completed (h.completed hIn)
  skipped hIn := h'.skipped (h.skipped hIn)

theorem moves (h : Moves g ex ex') : Unmoved n ex ex' where
  executionId := h.frame.executionId
  current := by rw [h.frame.current]
  completed hIn := h.frame.completed ▸ hIn
  skipped hIn := h.frame.skipped hIn

theorem markRunning (ex : WorkflowExecution) (hv : v ≠ n) : Unmoved n ex (ex.markRunning v) where
  executionId := rfl
  current := ⟨fun hIn => (mem_appendNew.mp hIn).resolve_right hv.symm,
    fun hIn => mem_appendNew.mpr (.inl hIn)⟩
  completed := id
  skipped := id

theorem received {kind : SignalKind} (h : Received ex v kind ex') (hv : v ≠ n) :
    Unmoved n ex ex' where
  executionId := h.executionId
  current := by
    rw [h.current, mem_without]
    exact ⟨And.left, fun hIn => ⟨hIn, hv.symm⟩⟩
  completed hIn := by
    cases h with
    | completed => exact mem_appendNew.mpr (.inl hIn)
    | exhausted | retried | skipped | unknown => exact hIn
  skipped hIn := by
    cases h with
    | exhausted | skipped => exact mem_appendNew.mpr (.inl hIn)
    | completed | retried | unknown => exact hIn

end Unmoved

theorem retryKey_inj {executionId : String} {v w : NodeId} :
    retryKey executionId v = retryKey executionId w ↔ v = w := by
  constructor
  · intro h
    exact String.append_right_inj _ |>.mp h
  · rintro rfl
    rfl

-- ------ The counter

/-- `_attempts.get(key, 0)`. -/
def attemptsOf (sh : Shared) (executionId : String) (n : NodeId) : Nat :=
  (sh.attempts.get? (retryKey executionId n)).getD 0

theorem receive_attempts (c : Coordinator) (sh : Shared) (hGraph : p.execution.graph = .graph g)
    (r : RequestId) (todo : List (RequestId × ExecutionRequest)) {signal : ExecutionSignal}
    {node : TaskNode} (hNode : g.nodes.get? signal.nodeId = some node)
    (hId : node.id = signal.nodeId) :
    attemptsOf (c.receive sh p r todo signal).1 p.execution.executionId n =
      attemptsOf sh p.execution.executionId n +
        if signal.nodeId = n ∧ signal.kind = .failure then 1 else 0 := by
  unfold Coordinator.receive WorkflowExecution.applySignal attemptsOf
  cases hKind : signal.kind with
  | failure =>
    dsimp only
    rw [if_pos rfl]
    unfold Coordinator.retryFailed
    rw [hGraph]
    dsimp only
    rw [hNode]
    dsimp only [decideRetry, Coordinator.drop]
    rw [hId, Dict.get?_set]
    by_cases hn : signal.nodeId = n
    · subst hn
      rw [if_pos rfl, if_pos ⟨rfl, rfl⟩]
      rfl
    · rw [if_neg fun h => hn (retryKey_inj.mp h).symm, if_neg fun h => hn h.1]
      rfl
  | success | skip | unknown =>
    dsimp only
    rw [if_neg (by decide), if_neg fun h => absurd h.2 (by decide)]
    rfl

theorem receive_exhausted (c : Coordinator) (sh : Shared) (hGraph : p.execution.graph = .graph g)
    (r : RequestId) (todo : List (RequestId × ExecutionRequest)) {signal : ExecutionSignal}
    {node : TaskNode} (hNode : g.nodes.get? signal.nodeId = some node)
    (hId : node.id = signal.nodeId) (hKind : signal.kind = .failure)
    (hSpent : maxAttempts node <
      ((attemptsOf sh p.execution.executionId signal.nodeId + 1 : Nat) : Int)) :
    signal.nodeId ∈ (c.receive sh p r todo signal).2.execution.skippedNodes := by
  unfold attemptsOf at hSpent
  unfold Coordinator.receive WorkflowExecution.applySignal
  rw [hKind]
  dsimp only
  rw [if_pos rfl]
  unfold Coordinator.retryFailed
  rw [hGraph]
  dsimp only
  rw [hNode]
  dsimp only [decideRetry, WorkflowExecution.applyDecision, Coordinator.drop]
  rw [hId, if_pos (decide_eq_true hSpent)]
  refine (Moves.pollNext (c := c) (g := g) ?_ p todo).frame.skipped (mem_appendNew.mpr (.inr rfl))
  rfl

theorem unmoved_act (hGraph : p.execution.graph = .graph g) {action : Action}
    (hSubmitted : ∀ r, action ≠ .submitted r) (hPolled : ∀ signal, action ≠ .polled (some signal)) :
    Unmoved n p.execution (c.act sh p action).2.execution ∧
      (c.act sh p action).1.attempts = sh.attempts := by
  have hActs := Coordinator.act_cases c sh p action
  generalize c.act sh p action = next at hActs ⊢
  cases hActs with
  | nothing _ => exact ⟨.refl _, rfl⟩
  | cancel forced =>
    refine ⟨?_, rfl⟩
    dsimp only
    unfold WorkflowExecution.cancel
    split
    · exact ⟨rfl, .rfl, id, id⟩
    · exact ⟨rfl, .rfl, id, id⟩
  | start _ =>
    refine ⟨?_, rfl⟩
    dsimp only
    unfold WorkflowExecution.begin
    split
    · exact ⟨rfl, .rfl, id, id⟩
    · exact .refl _
  | step _ =>
    have hBegin : Unmoved n p.execution p.execution.beginSingle ∧
        p.execution.beginSingle.graph = .graph g := by
      unfold WorkflowExecution.beginSingle
      split
      · exact ⟨⟨rfl, .rfl, id, id⟩, hGraph⟩
      · exact ⟨.refl _, hGraph⟩
    exact ⟨hBegin.1.trans (.moves (Moves.beginStep hBegin.2 sh _)), rfl⟩
  | advance _ => exact ⟨.moves (Moves.loopTop sh hGraph), rfl⟩
  | submitted _ requestId => exact absurd rfl (hSubmitted requestId)
  | again _ => exact ⟨.refl _, rfl⟩
  | silent _ => exact ⟨.moves (Moves.pollNext hGraph p _), rfl⟩
  | received _ signal => exact absurd rfl (hPolled signal)
  | withdrawn _ => exact ⟨.moves (Moves.cancelNext (g := g) p _), rfl⟩
  | portError text => exact ⟨.refl _, rfl⟩

-- ------ The invariant

/-- The counter of `n` against what happened to it. -/
structure Counted (g : TaskGraph) (n : NodeId) (limit : Int) (s : (Shared × Party) × Tally) :
    Prop where
  inv : Inv g s.1
  attempts : attemptsOf s.1.1 s.1.2.execution.executionId n = s.2.failures
  behind : s.2.failures ≤ s.2.dispatches
  ahead : s.2.dispatches ≤ s.2.failures + 1
  running : n ∈ s.1.2.execution.currentNodes → s.2.dispatches = s.2.failures + 1
  waiting : n ∉ s.1.2.execution.currentNodes → n ∉ s.1.2.execution.completedNodes →
    n ∉ s.1.2.execution.skippedNodes → s.2.dispatches = s.2.failures
  spent : limit < (s.2.failures : Int) → n ∈ s.1.2.execution.skippedNodes ∧
    (s.2.failures : Int) = limit + 1 ∧ s.2.dispatches = s.2.failures

namespace Counted

variable {limit : Int} {s s' : Shared × Party} {t : Tally}

theorem unmoved (h : Counted g n limit (s, t)) (hInv : Inv g s')
    (hUnmoved : Unmoved n s.2.execution s'.2.execution)
    (hAttempts : attemptsOf s'.1 s.2.execution.executionId n =
      attemptsOf s.1 s.2.execution.executionId n) : Counted g n limit (s', t) where
  inv := hInv
  attempts := by
    rw [hUnmoved.executionId, hAttempts]
    exact h.attempts
  behind := h.behind
  ahead := h.ahead
  running hIn := h.running (hUnmoved.current.mp hIn)
  waiting hCurrent hCompleted hSkipped := by
    refine h.waiting (fun hIn => hCurrent (hUnmoved.current.mpr hIn)) (fun hIn => ?_) fun hIn => ?_
    · exact hCompleted (hUnmoved.completed hIn)
    · exact hSkipped (hUnmoved.skipped hIn)
  spent hLess := ⟨hUnmoved.skipped (h.spent hLess).1, (h.spent hLess).2⟩

theorem level (h : Counted g n limit (s, t)) {assignment : AgentAssignment} {todo : List NodeId}
    (hPosition : s.2.position = .dispatching n assignment todo) :
    t.dispatches = t.failures ∧ n ∉ s.2.execution.skippedNodes := by
  have hFirst := (h.inv.positionOk hPosition).2.2 n (List.mem_cons_self ..)
  obtain ⟨hCompleted, hSkipped⟩ := not_or.mp fun hIn => hFirst.notDone (NodeSets.mem_done.mpr hIn)
  obtain ⟨-, hCurrent⟩ := not_or.mp fun hIn => hFirst.notBlocked (NodeSets.mem_blocked.mpr hIn)
  exact ⟨h.waiting hCurrent hCompleted hSkipped, hSkipped⟩

theorem submitted (hKeyed : g.Keyed) (h : Counted g n limit ((sh, p), t)) {nid : NodeId}
    {assignment : AgentAssignment} {todo : List NodeId}
    (hPosition : p.position = .dispatching nid assignment todo) (r : RequestId) :
    Counted g n limit (c.countedAct n ((sh, p), t) (.submitted r)) := by
  have hInv := inv_submitted (c := c) hKeyed h.inv hPosition r
  have hMoves := Moves.dispatchNext (c := c)
    (show (p.execution.markRunning nid).graph = .graph g from h.inv.placed.graph)
    (Coordinator.recordRequest sh p.execution assignment r) p todo
  unfold Coordinator.countedAct Coordinator.soloAct Coordinator.act Tally.count
  dsimp only
  rw [hPosition]
  dsimp only
  split
  · next hn =>
    subst hn
    obtain ⟨hLevel, hSkipped⟩ := h.level hPosition
    have hCurrent : nid ∈ (p.execution.markRunning nid).currentNodes :=
      mem_appendNew.mpr (.inr rfl)
    rw [← hMoves.frame.current] at hCurrent
    exact
      { inv := hInv
        attempts := by
          rw [hMoves.frame.executionId]
          exact h.attempts
        behind := Nat.le_succ_of_le h.behind
        ahead := by
          show t.dispatches + 1 ≤ t.failures + 1
          rw [hLevel]
        running := fun _ => by
          show t.dispatches + 1 = t.failures + 1
          rw [hLevel]
        waiting := fun hNot => absurd hCurrent hNot
        spent := fun hLess => absurd (h.spent hLess).1 hSkipped }
  · next hn => exact h.unmoved hInv ((Unmoved.markRunning p.execution hn).trans (.moves hMoves)) rfl

theorem reported (hKeyed : g.Keyed) {node : TaskNode} (hNode : g.nodes.get? n = some node)
    (hLimit : maxAttempts node = limit) (h : Counted g n limit ((sh, p), t))
    {e : RequestId × ExecutionRequest} {todo : List (RequestId × ExecutionRequest)} {tries : Nat}
    (hPosition : p.position = .polling (e :: todo) tries) {signal : ExecutionSignal}
    (hSignal : signal.nodeId = e.2.nodeId) (hReports : Reports n (.polled (some signal))) :
    Counted g n limit (c.countedAct n ((sh, p), t) (.polled (some signal))) := by
  have hInv := inv_receive (c := c) hKeyed h.inv hPosition hSignal
  have hRunning := h.inv.running hPosition hSignal
  have hMem := h.inv.placed.current _ hRunning
  obtain ⟨node', hNode'⟩ := Option.isSome_iff_exists.mp (Dict.mem_keys_iff.mp hMem)
  have hAttempts := receive_attempts (n := n) c sh h.inv.placed.graph e.1 todo hNode'
    (hKeyed _ _ hNode')
  obtain ⟨attempts, ex', hReceived, hEq⟩ :=
    receive_cases hKeyed c sh h.inv.placed e.1 todo hMem
  have hMoves := Moves.pollNext (c := c) (hReceived.placed h.inv.placed hRunning).graph p todo
  have hExecution : (c.receive sh p e.1 todo signal).2.execution =
      (c.pollNext p ex' todo).execution := by
    rw [hEq]
  unfold Coordinator.countedAct Coordinator.soloAct Coordinator.act Tally.count
  dsimp only
  rw [hPosition]
  dsimp only
  by_cases hn : signal.nodeId = n
  · subst hn
    rw [hNode] at hNode'
    cases hNode'
    have hLevel : t.dispatches = t.failures + 1 := h.running hRunning
    have hBehind : t.failures ≤ t.dispatches := h.behind
    have hOut : signal.nodeId ∉ (c.receive sh p e.1 todo signal).2.execution.currentNodes := by
      rw [hExecution, hMoves.frame.current, hReceived.current]
      exact fun hIn => (mem_without.mp hIn).2 rfl
    -- a node that runs is not given up
    have hInTime : ¬ limit < (t.failures : Int) := fun hLess =>
      (h.inv.placed.skipped _ (h.spent hLess).1).2 hRunning
    have hId : (c.receive sh p e.1 todo signal).2.execution.executionId =
        p.execution.executionId := by
      rw [hExecution, hMoves.frame.executionId]
      exact hReceived.executionId
    by_cases hKind : signal.kind = .failure
    · rw [if_pos ⟨rfl, hKind⟩]
      rw [if_pos ⟨rfl, hKind⟩, h.attempts] at hAttempts
      refine
        { inv := hInv
          attempts := by rw [hId]; exact hAttempts
          behind := ?_
          ahead := ?_
          running := fun hIn => absurd hIn hOut
          waiting := fun _ _ _ => hLevel
          spent := fun hLess => ⟨?_, ?_, hLevel⟩ }
      · show t.failures + 1 ≤ t.dispatches
        omega
      · show t.dispatches ≤ t.failures + 1 + 1
        omega
      · refine receive_exhausted c sh h.inv.placed.graph e.1 todo hNode (hKeyed _ _ hNode) hKind ?_
        rw [hLimit, h.attempts]
        exact hLess
      · have hLess : limit < ((t.failures + 1 : Nat) : Int) := hLess
        show ((t.failures + 1 : Nat) : Int) = limit + 1
        omega
    · rw [if_neg fun hBoth => hKind hBoth.2]
      rw [if_neg fun hBoth => hKind hBoth.2] at hAttempts
      refine
        { inv := hInv
          attempts := by rw [hId, hAttempts]; exact h.attempts
          behind := hBehind
          ahead := h.ahead
          running := fun hIn => absurd hIn hOut
          waiting := fun _ hCompleted hSkipped => ?_
          spent := fun hLess => absurd hLess hInTime }
      rw [hExecution, hMoves.frame.completed] at hCompleted
      exact (hReceived.done hKind (hReports rfl)).elim (fun hIn => absurd hIn hCompleted)
        fun hIn => absurd (hExecution ▸ hMoves.frame.skipped hIn) hSkipped
  · rw [if_neg fun hBoth => hn hBoth.1]
    rw [if_neg fun hBoth => hn hBoth.1] at hAttempts
    refine h.unmoved hInv ?_ hAttempts
    rw [hExecution]
    exact (Unmoved.received hReceived hn).trans (.moves hMoves)

/-- **Step.** -/
theorem act (hKeyed : g.Keyed) {node : TaskNode} (hNode : g.nodes.get? n = some node)
    (hLimit : maxAttempts node = limit) (h : Counted g n limit ((sh, p), t)) {action : Action}
    (hHonest : Honest (sh, p) action) (hReports : Reports n action) :
    Counted g n limit (c.countedAct n ((sh, p), t) action) := by
  have hInv := inv_act hKeyed (c := c) (sh, p) action h.inv hHonest
  have hQuiet : (∀ r, action ≠ .submitted r) → (∀ signal, action ≠ .polled (some signal)) →
      Counted g n limit (c.act sh p action, t) := by
    intro hSubmitted hPolled
    obtain ⟨hUnmoved, hAttempts⟩ : Unmoved n p.execution (c.act sh p action).2.execution ∧
        (c.act sh p action).1.attempts = sh.attempts :=
      unmoved_act h.inv.placed.graph hSubmitted hPolled
    refine h.unmoved hInv hUnmoved ?_
    unfold attemptsOf
    rw [hAttempts]
  cases action with
  | submitted r =>
    cases hPosition : p.position with
    | dispatching nid assignment todo => exact submitted hKeyed h hPosition r
    | _ =>
      unfold Coordinator.countedAct Coordinator.soloAct Coordinator.act Tally.count
      rw [hPosition]
      exact h
  | polled answer =>
    cases answer with
    | none => exact hQuiet nofun nofun
    | some signal =>
      cases hPosition : p.position with
      | polling todo tries =>
        cases todo with
        | nil =>
          unfold Coordinator.countedAct Coordinator.soloAct Coordinator.act Tally.count
          rw [hPosition]
          exact h
        | cons e todo =>
          exact reported hKeyed hNode hLimit h hPosition (hHonest.signal hPosition) hReports
      | _ =>
        unfold Coordinator.countedAct Coordinator.soloAct Coordinator.act Tally.count
        rw [hPosition]
        exact h
  | _ => exact hQuiet nofun nofun

theorem exhausted (h : Counted g n limit (s, t)) {node : TaskNode}
    (hNode : g.nodes.get? n = some node) (hLimit : maxAttempts node = limit)
    (hExhausted : Exhausted g s n) : (t.dispatches : Int) = limit + 1 := by
  obtain ⟨_, hSame, hLess⟩ := hExhausted
  rw [hNode] at hSame
  cases hSame
  have hAttempts : attemptsOf s.1 s.2.execution.executionId n = t.failures := h.attempts
  unfold attemptsOf at hAttempts
  rw [hLimit, hAttempts] at hLess
  obtain ⟨-, hFailures, hDispatches⟩ := h.spent hLess
  rw [← hFailures]
  exact congrArg Nat.cast hDispatches

end Counted

theorem counted_fresh (n : NodeId) (limit : Int) (hLimit : 0 ≤ limit)
    (workflowId executionId : String) (context : Context) (agents : List String) :
    Counted g n limit (fresh (.bindWorkflow workflowId executionId g context agents), {}) where
  inv := inv_fresh workflowId executionId context agents
  attempts := rfl
  behind := le_rfl
  ahead := Nat.le_succ 0
  running hIn := absurd hIn List.not_mem_nil
  waiting _ _ _ := rfl
  spent hLess := absurd hLess (not_lt.mpr hLimit)

-- ------ The limit

theorem Tally.dispatch {t : Tally} {action : Action}
    (h : t.dispatches < (t.count n p action).dispatches) :
    (∃ assignment todo, p.position = .dispatching n assignment todo) ∧
      (t.count n p action).dispatches = t.dispatches + 1 := by
  unfold Tally.count at h ⊢
  cases action with
  | submitted r =>
    cases hPosition : p.position with
    | dispatching nid assignment todo =>
      rw [hPosition] at h
      dsimp only at h ⊢
      split
      · next hn =>
        subst hn
        exact ⟨⟨assignment, todo, rfl⟩, rfl⟩
      · next hn =>
        rw [if_neg hn] at h
        exact absurd h (lt_irrefl _)
    | _ =>
      rw [hPosition] at h
      exact absurd h (lt_irrefl _)
  | polled answer =>
    cases answer with
    | none => exact absurd h (lt_irrefl _)
    | some signal =>
      dsimp only at h
      split at h
      · split at h
        · exact absurd h (lt_irrefl _)
        · exact absurd h (lt_irrefl _)
      · exact absurd h (lt_irrefl _)
  | _ => exact absurd h (lt_irrefl _)

end Neuroswarm.MetaOrchestrator
