import Neuroswarm.Swarm.Loop

/-!
# Task graph — order, attempts and completion

In every run on a valid graph a handler is called only after all blocking
predecessors have a final status, and at most `max_attempts` times.

That every node has a final status when `run` returns needs a condition: `cancel`
sets the token of the whole run whatever its mode, and the loop leaves at the
token, so a node that has not begun must be among the targets of every
cancellation; and no condition may raise one of the two exceptions that `run`
turns into a result while the siblings of the layer still run.

* `run_completes` — order and attempts always, completion under `Covers`.
-/

namespace Neuroswarm.Swarm

variable {R : Type*}

namespace Executor

/-- `run` has returned a result. -/
def HasReturned (s : Executor R) : Prop :=
  match s.main with
  | .returned .. => True
  | _ => False

instance (s : Executor R) : Decidable s.HasReturned := by
  unfold HasReturned
  cases s.main <;> infer_instance

/-- The action calls the handler of `nid`. -/
def CallsHandler (s : Executor R) (a : Action R) (nid : NodeId) : Prop :=
  a = .node nid .call ∧ (s.slots nid).task = .calling

/-- Every node that waits for its turn is a target of the cancellation. -/
def ReachesAll (job : Job) (s : Executor R) (mode : CancelMode) (nodeId : Option NodeId) : Prop :=
  ∃ targets, cancelTargets job.graph mode nodeId = some targets ∧
    ∀ nid ∈ job.graph.ids, (s.slots nid).task = .idle → s.status nid = .pending → nid ∈ targets

/-- A cancellation, while the loop runs, reaches every node that has not begun; a
condition raises neither `CancellationError` nor the graph's `TimeoutError`. -/
def Covers (job : Job) (s : Executor R) (a : Action R) : Prop :=
  (∀ e, ConditionRaises job s a e → ∃ text, e = .other text) ∧
    ∀ mode nodeId forced, a = .cancel mode nodeId forced → s.Ended ∨ ReachesAll job s mode nodeId

/-- What `Covers` keeps: a cancelled run has no node left to begin, a failed layer
makes `run` raise, and a result comes with final statuses. -/
structure Covered (job : Job) (s : Executor R) : Prop where
  reached : s.token.cancelled = true → ∀ layer, s.main = .gathering layer →
    ∀ nid ∈ job.graph.ids, (s.slots nid).task = .idle → (s.slots nid).status = .cancelled
  raises : ∀ e, s.failure = some e → ∃ text, e = .other text
  final : s.HasReturned → ∀ nid ∈ job.graph.ids,
    (s.status nid).Terminal ∧ (s.slots nid).task.Quiet

theorem covered_initial (job : Job) : Covered job (initial job : Executor R) where
  reached := nofun
  raises := nofun
  final := nofun

theorem Covered.node {job : Job} {s : Executor R} (h : Covered job s) {nid : NodeId}
    {node : TaskNode} (hNode : job.node nid = some node) {a : NodeAction R}
    (hCovers : Covers job s (.node nid a)) :
    Covered job { s.setSlot nid (s.advance job nid node a).1 with
      failure := s.failure.or (s.advance job nid node a).2 } := by
  have hMove := advance_move job s nid node a
  generalize (s.advance job nid node a).1 = slot at hMove
  generalize hErr : (s.advance job nid node a).2 = err at hMove
  constructor
  · intro hToken layer hMain v hv
    dsimp only
    rw [setSlot_slots, Function.update_apply]
    split
    · next hEq =>
      subst hEq
      intro hTask
      -- no action makes a coroutine idle, so it was idle before and nothing moved
      have hOld := hMove.task_ne_idle hTask
      rw [(hMove.of_quiet (by rw [hOld]; trivial)).1]
      exact h.reached hToken layer hMain v hv hOld
    · exact h.reached hToken layer hMain v hv
  · intro e he
    dsimp only at he
    cases hFailure : s.failure with
    | some e' =>
      rw [hFailure] at he
      cases he
      exact h.raises e hFailure
    | none =>
      rw [hFailure] at he
      cases err with
      | none => cases he
      | some e' =>
        cases he
        exact hCovers.1 e (hMove.of_raised hNode)
  · intro hReturned v hv
    obtain ⟨hTerminal, hQuiet⟩ := h.final hReturned v hv
    unfold Executor.status at *
    dsimp only
    rw [setSlot_slots, Function.update_apply]
    split
    · next hEq =>
      subst hEq
      rw [(hMove.of_quiet hQuiet).1]
      exact ⟨hTerminal, hQuiet⟩
    · exact ⟨hTerminal, hQuiet⟩

theorem Covered.cancel {job : Job} {s : Executor R} (hInv : Inv job s) (h : Covered job s)
    {mode : CancelMode} {nodeId : Option NodeId} {forced : Bool}
    (hCovers : Covers job s (.cancel mode nodeId forced)) :
    Covered job (s.cancel job mode nodeId forced) := by
  obtain ⟨hMain, -, hFailure, -, -, hSlots⟩ := cancel_frame job s mode nodeId forced
  constructor
  · intro _ layer hLayer v hv hTask
    rw [hMain] at hLayer
    have hOpen : ¬ s.Ended := by
      unfold Ended
      rw [hLayer]
      exact id
    obtain ⟨targets, hTargets, hReach⟩ := (hCovers.2 _ _ _ rfl).resolve_left hOpen
    unfold Executor.cancel at hTask ⊢
    dsimp only at hTask ⊢
    rw [hTargets] at hTask ⊢
    dsimp only at hTask ⊢
    rw [onSlots_slots] at hTask ⊢
    dsimp only at hTask ⊢
    have hIdle : (s.slots v).task = .idle := by
      split at hTask
      · rwa [applyCancel_task] at hTask
      · exact hTask
    -- a node still to begin is pending, hence a target, or cancelled already
    rcases (hInv.gathering layer hLayer).2.2 v hIdle with hStatus | hStatus
    · rw [if_pos (hReach v hv hIdle hStatus)]
      exact applyCancel_cancellable (by rw [hStatus]; decide)
    · rw [applyCancel_terminal (by rw [hStatus]; decide), ite_self]
      exact hStatus
  · rw [hFailure]
    exact h.raises
  · intro hReturned v hv
    unfold HasReturned at hReturned
    rw [hMain] at hReturned
    obtain ⟨hTerminal, hQuiet⟩ := h.final hReturned v hv
    unfold Executor.status at *
    rcases hSlots v with hEq | hEq
    · rw [hEq]
      exact ⟨hTerminal, hQuiet⟩
    · rw [hEq, applyCancel_terminal hTerminal]
      exact ⟨hTerminal, hQuiet⟩

/-- A cancelled loop at rest has nothing left to begin. -/
def Spent (job : Job) (s : Executor R) : Prop :=
  s.token.cancelled = true → ∀ nid ∈ job.graph.ids,
    (s.slots nid).task = .idle → (s.slots nid).status = .cancelled

theorem settle_spent {job : Job} {s : Executor R} {layer : List NodeId} (h : AtRest job layer s)
    (hSpent : Spent job s) : Spent job (settle job layer s) := by
  rcases settle_cases h with ⟨-, hEq⟩ | ⟨nid, -, -, -, done, -, hDone, hEq⟩
  · rw [hEq]
    exact hSpent
  · have hFailed : AtRest job layer
        { s.complete done with phase := .failed, error := (s.slots nid).error } := { hDone with }
    rw [hEq]
    intro _ v hv hTask
    have hTerminal := hFailed.terminal_cancel_graph hv
    have hIdle := (hFailed.cancel .graph none false).idle v hTask
    rcases hIdle with hStatus | hStatus
    · unfold Executor.status at hTerminal
      rw [hStatus] at hTerminal
      exact absurd hTerminal (by decide)
    · exact hStatus

theorem Round.covered {job : Job} {s s' : Executor R} {late : Bool} (h : AtRest job [] s)
    (hSpent : Spent job s) (hRound : Round job s late s') : Covered job s' := by
  have hRaises : ∀ e, s.failure = some e → ∃ text, e = .other text := by
    rw [h.noFailure]
    exact nofun
  have hDone : ∀ nid, (s.slots nid).task ≠ .idle → (s.status nid).Terminal := fun nid hTask =>
    h.terminal_of_finished h.noFailure (Task.eq_finished_of_quiet (h.quiet nid) hTask)
  cases hRound with
  | cancelled hMore hToken =>
    refine ⟨nofun, hRaises, fun _ nid hnid => ⟨?_, h.quiet nid⟩⟩
    show (s.status nid).Terminal
    by_cases hTask : (s.slots nid).task = .idle
    · have hStatus := hSpent hToken nid hnid hTask
      unfold Executor.status
      rw [hStatus]
      decide
    · exact hDone nid hTask
  | deadline hMore hToken hLate =>
    obtain ⟨phase, -, succeeded, output, hEq⟩ := conclude_eq job (s.timeoutRemaining job)
    rw [hEq]
    refine ⟨nofun, hRaises, fun _ nid hnid => ⟨?_, ?_⟩⟩
    · exact timeoutRemaining_status hnid fun v hv => (h.done v hv).1
    · unfold timeoutRemaining complete
      dsimp only
      rw [onSlots_slots]
      split
      · exact h.quiet nid
      · exact h.quiet nid
  | layer hMore hToken =>
    refine ⟨fun hTrue => ?_, hRaises, nofun⟩
    rw [show (s.spawn (s.readyLayer job)).token = s.token from rfl, hToken] at hTrue
    cases hTrue
  | done hAll =>
    obtain ⟨phase, -, succeeded, output, hEq⟩ := conclude_eq job s
    rw [hEq]
    refine ⟨nofun, hRaises, fun _ nid hnid => ?_⟩
    -- every node is completed
    by_cases hIn : nid ∈ s.completed
    · exact h.done nid hIn
    · exact absurd (h.incomplete_iff.mpr ⟨nid, hnid, hIn⟩) hAll

theorem Resumed.covered {job : Job} {s s' : Executor R} {late : Bool} (hInv : Inv job s)
    (h : Covered job s) (hResumed : Resumed job s late s') : Covered job s' := by
  cases hResumed with
  | waiting => exact h
  | failed layer e _ hFailure =>
    obtain ⟨text, rfl⟩ := h.raises e hFailure
    exact ⟨nofun, h.raises, nofun⟩
  | entered _ hMain hRest hRound =>
    refine hRound.covered hRest fun hToken => ?_
    rw [(hInv.entering hMain).2.1] at hToken
    cases hToken
  | settled layer _ hMain hRest hRound =>
    refine hRound.covered (settle_atRest hRest) (settle_spent hRest fun hToken => ?_)
    exact h.reached hToken layer hMain

/-- **Step.** -/
theorem Covered.step {job : Job} (hGraph : job.graph.WellFormed) {s : Executor R}
    (h : Inv job s ∧ Covered job s) (a : Action R) (hCovers : Covers job s a) :
    Inv job (step job s a) ∧ Covered job (step job s a) := by
  obtain ⟨hInv, hCov⟩ := h
  refine ⟨hInv.step hGraph a, ?_⟩
  cases a with
  | node nid a =>
    unfold Executor.step
    dsimp only
    split
    · exact hCov
    · next node hNode => exact hCov.node hNode hCovers
  | resume late env => exact (resume_cases hGraph hInv late env).covered hInv hCov
  | cancel mode nodeId forced =>
    unfold Executor.step
    dsimp only
    split
    · exact hCov
    · exact hCov.cancel hInv hCovers

/-- **Order, attempts, completion.** A handler is called after its blocking predecessors
and at most `max_attempts` times; if every cancellation reaches the nodes still to begin,
a run that returns has given every node a final status. -/
theorem run_completes (nx : Option Networkx) (job : Job) (hValid : job.graph.Valid nx)
    (ops : List (Action R)) :
    Run.Every (step job) (fun s a => ∀ nid, CallsHandler s a nid →
        ∀ p, job.graph.Precedes p nid → (s.status p).Terminal) (initial job) ops ∧
      Run.Along (step job) (fun s => ∀ nid node, job.node nid = some node →
        ((s.slots nid).calls : Int) ≤ node.retryPolicy.maxAttempts) (initial job) ops ∧
      (Run.Every (step job) (Covers job) (initial job) ops →
        Run.Along (step job) (fun s => s.HasReturned →
          ∀ nid ∈ job.graph.ids, (s.status nid).Terminal) (initial job) ops) := by
  have hGraph := TaskGraph.valid_iff.mp hValid
  have hTrue : Run.Every (step job) (fun _ _ => True) (initial job : Executor R) ops := by
    generalize (initial job : Executor R) = s
    induction ops generalizing s with
    | nil => trivial
    | cons a ops ih => exact ⟨trivial, ih _⟩
  have hInv : Run.Along (step job) (Inv job) (initial job) ops :=
    Run.along_of_every (fun _ a h _ => h.step hGraph a) (inv_initial job) hTrue
  refine ⟨?_, ?_, fun hCovers => ?_⟩
  · refine Run.every_of_every (fun _ a h _ => h.step hGraph a) (fun s a h _ nid hCall p hp => ?_)
      (inv_initial job) hTrue
    have hStarted := h.started nid (by rw [hCall.2]; exact nofun)
    exact (h.done p (hStarted.2 p hp)).1
  · refine hInv.mono fun s h nid node hNode => ?_
    have hSlot := h.slots nid node hNode
    have hCalls := hSlot.calls
    have hAttempts := hSlot.attempts
    -- the bound is not below zero
    have hPositive := (hGraph.fields nid node hNode).maxAttempts_pos
    omega
  · have hStep : ∀ (s : Executor R) (a : Action R), (Inv job s ∧ Covered job s) → Covers job s a →
        Inv job (step job s a) ∧ Covered job (step job s a) := fun _ a h => Covered.step hGraph h a
    refine (Run.along_of_every hStep ⟨inv_initial job, covered_initial job⟩
      hCovers).mono fun s h hReturned nid hnid => ?_
    exact (h.2.final hReturned nid hnid).1

-- ------ Cancelled runs

/-- `a` runs; then somebody cancels in this mode. -/
def cancelFirst (mode : CancelMode) : List (Action Unit) :=
  [.resume false {}, .node "a" (.start {}), .node "a" .call, .cancel mode (some "a") false,
    .node "a" .poll, .node "a" .drained, .resume false {}]

theorem run_completes_cancelFirst :
    (after chainJob (cancelFirst .graph)).HasReturned ∧
      ∀ nid ∈ chainJob.graph.ids, ((after chainJob (cancelFirst .graph)).status nid).Terminal := by
  have hReach : ReachesAll chainJob
      (after chainJob ((cancelFirst .graph).take 3) : Executor Unit) .graph (some "a") :=
    ⟨chainJob.graph.ids, rfl, fun nid hnid _ _ => hnid⟩
  have hQuiet : ∀ (s : Executor Unit) (a : Action Unit),
      (∀ mode nodeId forced, a ≠ .cancel mode nodeId forced) → Covers chainJob s a :=
    fun s a h => ⟨fun e he => absurd he (chainJob_unconditional.not_raises s a e),
      fun mode nodeId forced hEq => absurd hEq (h mode nodeId forced)⟩
  have hCovers : Run.Every (step chainJob) (Covers chainJob) (initial chainJob)
      (cancelFirst .graph) := by
    refine ⟨hQuiet _ _ nofun, hQuiet _ _ nofun, hQuiet _ _ nofun, ⟨fun e he => ?_, ?_⟩,
      hQuiet _ _ nofun, hQuiet _ _ nofun, hQuiet _ _ nofun, trivial⟩
    · exact absurd he (chainJob_unconditional.not_raises _ _ e)
    · intro mode nodeId forced hEq
      cases hEq
      exact .inr hReach
  have hReturned : (after chainJob (cancelFirst .graph)).HasReturned := by decide +kernel
  exact ⟨hReturned,
    ((run_completes none chainJob (by decide +kernel) (cancelFirst .graph)).2.2 hCovers).exec
      hReturned⟩

/-- Cancelled alone, `a` takes the run with it: the run returns, and `b` stays pending. -/
theorem not_run_completes :
    ¬ ∀ (job : Job), job.graph.Valid none → ∀ ops : List (Action Unit),
      (after job ops).HasReturned → ∀ nid ∈ job.graph.ids,
        ((after job ops).status nid).Terminal := by
  intro h
  exact absurd (h chainJob (by decide +kernel) (cancelFirst .node) (by decide +kernel))
    (by decide +kernel)

end Executor

end Neuroswarm.Swarm

/-!
## How often a handler is called

An attempt calls the handler once, unless its time is over before the call begins. So
a coroutine that ends with a failure it would have retried has used all its attempts,
and has called the handler that often.
-/

namespace Neuroswarm.Swarm

variable {R : Type*}

/-- The calls of a coroutine and its attempts: level, but for an attempt whose call is to come. -/
structure Slot.Paired (slot : Slot R) : Prop where
  calling : slot.task = .calling → slot.attempts = slot.calls + 1
  others : slot.task ≠ .calling → slot.task ≠ .draining → slot.task ≠ .finished →
    slot.attempts = slot.calls

theorem Slot.Paired.of_over {slot : Slot R} (h : slot.task = .draining ∨ slot.task = .finished) :
    slot.Paired where
  calling hTask := by
    rcases h with h | h
    · rw [h] at hTask
      cases hTask
    · rw [h] at hTask
      cases hTask
  others _ hDraining hFinished := absurd h (not_or.mpr ⟨hDraining, hFinished⟩)

/-- Nothing happens to the attempts, and the coroutine stays, or comes into its layer. -/
structure Slot.Kept (slot slot' : Slot R) : Prop where
  attempts : slot'.attempts = slot.attempts
  calls : slot'.calls = slot.calls
  task : slot'.task = slot.task ∨ slot.task = .idle ∧ slot'.task = .spawned

namespace Slot.Kept

variable {slot slot' slot'' : Slot R}

theorem refl (slot : Slot R) : slot.Kept slot := ⟨rfl, rfl, .inl rfl⟩

theorem trans (h : slot.Kept slot') (hTask : slot'.task = slot.task) (h' : slot'.Kept slot'') :
    slot.Kept slot'' where
  attempts := h'.attempts.trans h.attempts
  calls := h'.calls.trans h.calls
  task := by
    rw [← hTask]
    exact h'.task

theorem paired (h : slot.Kept slot') (hPaired : slot.Paired) : slot'.Paired := by
  rcases h.task with hSame | ⟨hIdle, hSpawned⟩
  · refine ⟨fun hTask => ?_, fun hCalling hDraining hFinished => ?_⟩
    · rw [h.attempts, h.calls]
      exact hPaired.calling (hSame ▸ hTask)
    · rw [h.attempts, h.calls]
      rw [hSame] at hCalling hDraining hFinished
      exact hPaired.others hCalling hDraining hFinished
  · refine ⟨fun hTask => ?_, fun _ _ _ => ?_⟩
    · rw [hSpawned] at hTask
      cases hTask
    · rw [h.attempts, h.calls]
      exact hPaired.others (by rw [hIdle]; nofun) (by rw [hIdle]; nofun) (by rw [hIdle]; nofun)

theorem applyCancel (forced : Bool) (slot : Slot R) : slot.Kept (slot.applyCancel forced) := by
  unfold Slot.applyCancel
  split
  · exact .refl slot
  · split
    · exact ⟨rfl, rfl, .inl rfl⟩
    · exact ⟨rfl, rfl, .inl rfl⟩

end Slot.Kept

namespace Executor

variable {job : Job} {s s' : Executor R} {nid : NodeId} {node : TaskNode}

/-- Time is over before the handler of the attempt is called. -/
def CutShort (s : Executor R) (a : Action R) (nid : NodeId) : Prop :=
  a = .node nid .expire ∧ (s.slots nid).task = .calling

/-- The call of an attempt fails, and the policy retries such failures. -/
def FailsRetryably (job : Job) (s : Executor R) (a : Action R) (nid : NodeId) : Prop :=
  ∃ node b, job.node nid = some node ∧ a = .node nid b ∧
    (node.retryPolicy.retryOnFailure ∧ b = .wake ∧
        (∃ text, (s.slots nid).task = .handled (.error text)) ∨
      node.retryPolicy.retryOnTimeout ∧ TimesOut job node b (s.slots nid).task)

-- ------ Moves

theorem TimesOut.level {b : NodeAction R} (hTimes : TimesOut job node b (s.slots nid).task)
    (hBegun : ¬ s.CutShort (.node nid b) nid) (hPaired : (s.slots nid).Paired) :
    (s.slots nid).attempts = (s.slots nid).calls := by
  refine hPaired.others (fun hTask => ?_) (fun hTask => ?_) fun hTask => ?_
  · rw [hTask] at hTimes
    cases b with
    | expire => exact hBegun ⟨rfl, hTask⟩
    | _ => exact hTimes
  · rw [hTask] at hTimes
    cases b with
    | _ => exact hTimes
  · rw [hTask] at hTimes
    cases b with
    | _ => exact hTimes

/-- **Step.** Every move of a coroutine keeps calls and attempts level. -/
theorem Move.paired {a : NodeAction R} {slot : Slot R} {e : Option GraphException}
    (h : Move job s nid node a slot e) (hHandler : job.hasHandler nid node)
    (hBegun : ¬ s.CutShort (.node nid a) nid) (hPaired : (s.slots nid).Paired) : slot.Paired := by
  have hOthers := hPaired.others
  cases h with
  | stay => exact hPaired
  | startCancelled | startRaised | startSkipped | startExhausted | succeeded | checkpointed
  | cancelledInside | failedStop | timedStop | drained | sleptCancelled | sleptExhausted =>
    exact .of_over (.inr rfl)
  | polled => exact .of_over (.inl rfl)
  | startRunning env hTask | sleptRunning hTask =>
    have hLevel := hOthers (by rw [hTask]; nofun) (by rw [hTask]; nofun) (by rw [hTask]; nofun)
    refine ⟨fun _ => ?_, fun hNot => absurd rfl hNot⟩
    show (s.slots nid).attempts + 1 = (s.slots nid).calls + 1
    rw [hLevel]
  | called hTask =>
    have hBehind := hPaired.calling hTask
    refine ⟨nofun, fun _ _ _ => ?_⟩
    show (s.slots nid).attempts = (s.slots nid).calls + if job.hasHandler nid node then 1 else 0
    rw [hBehind, if_pos hHandler]
  | finished outcome hTask | failedRetry text hTask =>
    have hLevel := hOthers (by rw [hTask]; nofun) (by rw [hTask]; nofun) (by rw [hTask]; nofun)
    exact ⟨nofun, fun _ _ _ => hLevel⟩
  | timedRetry _ hTimes => exact ⟨nofun, fun _ _ _ => hTimes.level hBegun hPaired⟩

-- ------ The main loop

theorem kept_cancel (job : Job) (s : Executor R) (mode : CancelMode) (nodeId : Option NodeId)
    (forced : Bool) (nid : NodeId) :
    (s.slots nid).Kept ((s.cancel job mode nodeId forced).slots nid) := by
  obtain ⟨-, -, -, -, -, hSlots⟩ := cancel_frame job s mode nodeId forced
  rcases hSlots nid with hSame | hCancelled
  · rw [hSame]
    exact .refl _
  · rw [hCancelled]
    exact .applyCancel forced _

theorem kept_conclude (job : Job) (s : Executor R) (nid : NodeId) :
    (s.slots nid).Kept ((s.conclude job).slots nid) := by
  obtain ⟨phase, -, succeeded, output, hEq⟩ := conclude_eq job s
  rw [hEq]
  exact .refl _

theorem kept_timeoutRemaining (job : Job) (s : Executor R) (nid : NodeId) :
    (s.slots nid).Kept ((s.timeoutRemaining job).slots nid) := by
  show (s.slots nid).Kept ((s.onSlots (s.Unfinished job) Slot.expireWorkflow).slots nid)
  rw [onSlots_slots]
  split
  · exact ⟨rfl, rfl, .inl rfl⟩
  · exact .refl _

theorem kept_round {late : Bool} (hRest : AtRest job [] s) (hRound : Round job s late s')
    (nid : NodeId) : (s.slots nid).Kept (s'.slots nid) := by
  cases hRound with
  | cancelled => exact .refl _
  | deadline hMore hToken =>
    refine (kept_timeoutRemaining job s nid).trans ?_ (kept_conclude job _ nid)
    show ((s.onSlots (s.Unfinished job) Slot.expireWorkflow).slots nid).task = _
    rw [onSlots_slots]
    split
    · rfl
    · rfl
  | layer hMore hToken =>
    show (s.slots nid).Kept (if nid ∈ s.readyLayer job then _ else _)
    split
    · next hIn =>
      obtain ⟨hMem, hNot, -⟩ := (hRest.mem_readyLayer hToken).mp hIn
      exact ⟨rfl, rfl, .inr ⟨(hRest.untouched hToken hMem hNot).1, rfl⟩⟩
    · exact .refl _
  | done => exact kept_conclude job s nid

theorem kept_settle {layer : List NodeId} (hRest : AtRest job layer s) (nid : NodeId) :
    (s.slots nid).Kept ((settle job layer s).slots nid) ∧
      ((settle job layer s).slots nid).task = (s.slots nid).task := by
  rcases settle_cases hRest with ⟨-, hEq⟩ | ⟨v, -, -, -, done, -, -, hEq⟩
  · rw [hEq]
    exact ⟨.refl _, rfl⟩
  · rw [hEq]
    have hKept := kept_cancel job
      { s.complete done with phase := .failed, error := (s.slots v).error } .graph none false nid
    refine ⟨hKept, ?_⟩
    obtain ⟨-, -, -, -, -, hSlots⟩ := cancel_frame job
      { s.complete done with phase := .failed, error := (s.slots v).error } .graph none false
    rcases hSlots nid with hSame | hCancelled
    · rw [hSame]
      rfl
    · rw [hCancelled, applyCancel_task]
      rfl

theorem kept_resumed {late : Bool} (h : Resumed job s late s') (nid : NodeId) :
    (s.slots nid).Kept (s'.slots nid) := by
  cases h with
  | waiting => exact .refl _
  | failed layer e =>
    cases e with
    | cancellation => exact .refl _
    | timeout text => exact .refl _
    | other text => exact .refl _
  | entered _ hMain hRest hRound => exact kept_round hRest hRound nid
  | settled layer _ hMain hRest hRound =>
    obtain ⟨hKept, hTask⟩ := kept_settle hRest nid
    exact hKept.trans hTask (kept_round (settle_atRest hRest) hRound nid)

-- ------ Runs

/-- **Step.** -/
theorem paired_step (hGraph : job.graph.WellFormed) (hNode : job.node nid = some node)
    (hHandler : job.hasHandler nid node) (s : Executor R) (a : Action R)
    (h : Inv job s ∧ (s.slots nid).Paired) (hBegun : ¬ s.CutShort a nid) :
    Inv job (step job s a) ∧ ((step job s a).slots nid).Paired := by
  obtain ⟨hInv, hPaired⟩ := h
  refine ⟨hInv.step hGraph a, ?_⟩
  cases a with
  | node v b =>
    unfold step
    dsimp only
    split
    · exact hPaired
    · next other hOther =>
      dsimp only
      rw [setSlot_slots, Function.update_apply]
      split
      · next hv =>
        subst hv
        rw [hNode] at hOther
        cases hOther
        exact (advance_move job s nid node b).paired hHandler hBegun hPaired
      · exact hPaired
  | resume late env => exact (kept_resumed (resume_cases hGraph hInv late env) nid).paired hPaired
  | cancel mode nodeId forced =>
    unfold step
    dsimp only
    split
    · exact hPaired
    · exact (kept_cancel job s mode nodeId forced nid).paired hPaired

theorem advance_of_timesOut {b : NodeAction R} (hTimes : TimesOut job node b (s.slots nid).task) :
    (s.advance job nid node b).1 = (s.slots nid).onTimeout node := by
  cases hTask : (s.slots nid).task with
  | calling | handling =>
    rw [hTask] at hTimes
    cases b with
    | expire =>
      unfold advance
      rw [hTask]
      dsimp only
      rw [if_pos (show job.timed node = true from hTimes)]
    | _ => exact hTimes.elim
  | handled outcome =>
    rw [hTask] at hTimes
    cases b with
    | expire =>
      unfold advance
      rw [hTask]
      dsimp only
      rw [if_pos (show job.timed node = true from hTimes)]
    | wake =>
      cases outcome with
      | timeoutError =>
        unfold advance
        rw [hTask]
        rfl
      | _ => exact hTimes.elim
    | _ => exact hTimes.elim
  | _ =>
    rw [hTask] at hTimes
    cases b with
    | _ => exact hTimes.elim

theorem spent_of_failsRetryably (hInv : Inv job s) (hNode : job.node nid = some node)
    (hLimit : 1 ≤ node.retryPolicy.maxAttempts) {a : Action R} (hFails : FailsRetryably job s a nid)
    (hFinished : ((step job s a).slots nid).task = .finished) :
    ((s.slots nid).attempts : Int) = node.retryPolicy.maxAttempts := by
  obtain ⟨_, b, hSame, rfl, hHow⟩ := hFails
  rw [hNode] at hSame
  cases hSame
  have hBound := (hInv.slots nid node hNode).attempts
  unfold step at hFinished
  dsimp only at hFinished
  rw [hNode] at hFinished
  dsimp only at hFinished
  rw [setSlot_slots, Function.update_self] at hFinished
  have hSpent : ¬ (s.slots nid).MayTry node := by
    intro hTry
    rcases hHow with ⟨hPolicy, rfl, text, hTask⟩ | ⟨hPolicy, hTimes⟩
    · unfold advance at hFinished
      rw [hTask] at hFinished
      dsimp only [Slot.wake, Slot.onFailure] at hFinished
      rw [if_pos ⟨hPolicy, hTry⟩] at hFinished
      cases hFinished
    · rw [advance_of_timesOut hTimes] at hFinished
      unfold Slot.onTimeout at hFinished
      rw [if_pos ⟨hPolicy, hTry⟩] at hFinished
      cases hFinished
  unfold Slot.MayTry at hSpent
  omega

theorem calls_along (hGraph : job.graph.WellFormed) (hNode : job.node nid = some node)
    (hLimit : 1 ≤ node.retryPolicy.maxAttempts) (ops : List (Action R)) :
    Run.Along (step job) (fun s => ((s.slots nid).calls : Int) ≤ node.retryPolicy.maxAttempts)
        (initial job) ops ∧
      (job.hasHandler nid node →
        Run.Every (step job) (fun s a => ¬ s.CutShort a nid) (initial job) ops →
        Run.Every (step job) (fun s a => FailsRetryably job s a nid →
          ((step job s a).slots nid).task = .finished →
            ((s.slots nid).calls : Int) = node.retryPolicy.maxAttempts) (initial job) ops) := by
  constructor
  · refine Run.along_iff_take.mpr fun k => ?_
    have hInv : Inv job (Run.exec (step job) (initial job) (ops.take k)) :=
      Run.exec_of_invariant (fun _ a h => h.step hGraph a) (inv_initial job) _
    have hSlot := hInv.slots nid node hNode
    have hCalls := hSlot.calls
    have hAttempts := hSlot.attempts
    omega
  · intro hHandler hBegun
    have hStart : Inv job (initial job : Executor R) ∧
        ((initial job : Executor R).slots nid).Paired :=
      ⟨inv_initial job, nofun, fun _ _ _ => rfl⟩
    refine Run.every_of_every (paired_step hGraph hNode hHandler) ?_ hStart hBegun
    intro s a h hCut hFails hFinished
    rw [← spent_of_failsRetryably h.1 hNode hLimit hFails hFinished]
    obtain ⟨_, b, -, rfl, hHow⟩ := hFails
    rcases hHow with ⟨-, rfl, text, hTask⟩ | ⟨-, hTimes⟩
    · rw [h.2.others (by rw [hTask]; nofun) (by rw [hTask]; nofun) (by rw [hTask]; nofun)]
    · rw [hTimes.level hCut h.2]

end Executor

end Neuroswarm.Swarm
