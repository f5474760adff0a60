import Neuroswarm.Swarm.Executor

/-!
# Task graph — what holds of coroutines at any time

* `SlotInv` — the status of a node fits the position of its coroutine, and calls
  never outnumber attempts; every move keeps it (`Move.slotInv`).
* `Base` — completed nodes have a final status and a coroutine that is over or was
  never begun, and a coroutine only exists once all blocking predecessors are
  completed.
-/

/-!
## What one step can do

`Move` lists everything a step of a node's coroutine can do to its slot, with the
guards; `advance_move` is the only proof that opens `advance`. `setSlot` and
`onSlots` come with their lemmas, and the loop of `run` with two: `settle_cases`
and, in a state where the loop can go on, `drive_cases`.
-/

namespace Neuroswarm.Swarm

variable {R : Type*}

-- ------ Slots

namespace Slot

variable (slot : Slot R) (target : NodeStatus)

@[simp] theorem assign_status : (slot.assign target).status = target := rfl
@[simp] theorem assign_task : (slot.assign target).task = slot.task := rfl
@[simp] theorem assign_attempts : (slot.assign target).attempts = slot.attempts := rfl
@[simp] theorem assign_calls : (slot.assign target).calls = slot.calls := rfl
@[simp] theorem assign_result : (slot.assign target).result = slot.result := rfl
@[simp] theorem assign_cancelRequested :
    (slot.assign target).cancelRequested = slot.cancelRequested := rfl
@[simp] theorem assign_assigned :
    (slot.assign target).assigned = (slot.status, target) :: slot.assigned := rfl

@[simp] theorem stop_status : (slot.stop target).status = target := rfl
@[simp] theorem stop_task : (slot.stop target).task = .finished := rfl
@[simp] theorem stop_attempts : (slot.stop target).attempts = slot.attempts := rfl
@[simp] theorem stop_calls : (slot.stop target).calls = slot.calls := rfl
@[simp] theorem stop_result : (slot.stop target).result = slot.result := rfl
@[simp] theorem stop_cancelRequested :
    (slot.stop target).cancelRequested = slot.cancelRequested := rfl
end Slot

namespace Executor

/-- A timeout reaches the coroutine: the handler raised it, or `wait_for` did. -/
def TimesOut (job : Job) (node : TaskNode) : NodeAction R → Task R → Prop
  | .wake, .handled .timeoutError => True
  | .expire, .calling | .expire, .handling | .expire, .handled _ => job.timed node
  | _, _ => False

/-- The coroutine of `nid`, or its handler, can do this next. -/
def NodeEnabled (job : Job) (s : Executor R) (nid : NodeId) (node : TaskNode) :
    NodeAction R → Prop
  | .start _ => (s.slots nid).task = .spawned
  | .call => (s.slots nid).task = .calling
  | .finish _ => (s.slots nid).task = .handling
  | .wake => ∃ outcome, (s.slots nid).task = .handled outcome
  | .poll => ((s.slots nid).task = .calling ∨ (s.slots nid).task = .handling) ∧
      (s.token.cancelled ∨ (s.slots nid).cancelRequested)
  | .drained => (s.slots nid).task = .draining
  | .expire => TimesOut job node (.expire : NodeAction R) (s.slots nid).task
  | .slept => (s.slots nid).task = .sleeping

/-- The slot and the exception after an action of the coroutine of `nid`. -/
inductive Move (job : Job) (s : Executor R) (nid : NodeId) (node : TaskNode) :
    NodeAction R → Slot R → Option GraphException → Prop
  | stay (a : NodeAction R) (hNot : ¬ NodeEnabled job s nid node a) :
      Move job s nid node a (s.slots nid) none
  | startCancelled (env : Environment) (hTask : (s.slots nid).task = .spawned)
      (hCancel : (s.slots nid).cancelRequested ∨ s.token.cancelled) :
      Move job s nid node (.start env) ((s.slots nid).stop .cancelled) none
  | startRaised (env : Environment) (e : GraphException) (hTask : (s.slots nid).task = .spawned)
      (hCancel : ¬ ((s.slots nid).cancelRequested ∨ s.token.cancelled))
      (hRun : s.shouldRun job nid node env = .error e) :
      Move job s nid node (.start env) { s.slots nid with task := .finished } (some e)
  | startSkipped (env : Environment) (hTask : (s.slots nid).task = .spawned)
      (hCancel : ¬ ((s.slots nid).cancelRequested ∨ s.token.cancelled))
      (hRun : s.shouldRun job nid node env = .ok false) :
      Move job s nid node (.start env) ((s.slots nid).stop .skipped) none
  | startRunning (env : Environment) (hTask : (s.slots nid).task = .spawned)
      (hCancel : ¬ ((s.slots nid).cancelRequested ∨ s.token.cancelled))
      (hRun : s.shouldRun job nid node env = .ok true) (hTry : (s.slots nid).MayTry node) :
      Move job s nid node (.start env)
        { ((s.slots nid).assign .ready).assign .running with
          attempts := (s.slots nid).attempts + 1, task := .calling } none
  | startExhausted (env : Environment) (hTask : (s.slots nid).task = .spawned)
      (hCancel : ¬ ((s.slots nid).cancelRequested ∨ s.token.cancelled))
      (hRun : s.shouldRun job nid node env = .ok true) (hTry : ¬ (s.slots nid).MayTry node) :
      Move job s nid node (.start env)
        { (((s.slots nid).assign .ready).assign .running).stop .failed with
          error := some "max attempts exceeded" } none
  | called (hTask : (s.slots nid).task = .calling) :
      Move job s nid node .call
        { s.slots nid with
          task := .handling
          calls := (s.slots nid).calls + if job.hasHandler nid node then 1 else 0 } none
  | finished (outcome : Outcome R) (hTask : (s.slots nid).task = .handling) :
      Move job s nid node (.finish outcome)
        { s.slots nid with
          task := .handled (if job.hasHandler nid node then outcome else .returned none) } none
  | succeeded (result : Option R) (hTask : (s.slots nid).task = .handled (.returned result))
      (hCheck : ¬ Slot.Checkpointing node) :
      Move job s nid node .wake ({ s.slots nid with result := result }.stop .succeeded) none
  | checkpointed (result : Option R) (hTask : (s.slots nid).task = .handled (.returned result))
      (hCheck : Slot.Checkpointing node) :
      Move job s nid node .wake
        (({ { s.slots nid with result := result }.assign .succeeded with
            checkpointId := some ((truthy node.checkpointId).getD nid) }.assign
          .checkpointed).stop .succeeded) none
  | cancelledInside (hTask : (s.slots nid).task = .handled .cancellationError) :
      Move job s nid node .wake ((s.slots nid).stop .cancelled) none
  | failedRetry (text : String) (hTask : (s.slots nid).task = .handled (.error text))
      (hTry : (s.slots nid).MayTry node) :
      Move job s nid node .wake (s.slots nid).retry none
  | failedStop (text : String) (hTask : (s.slots nid).task = .handled (.error text)) :
      Move job s nid node .wake { (s.slots nid).stop .failed with error := some text } none
  | timedRetry (a : NodeAction R) (hTimes : TimesOut job node a (s.slots nid).task)
      (hTry : (s.slots nid).MayTry node) :
      Move job s nid node a (s.slots nid).retry none
  | timedStop (a : NodeAction R) (hTimes : TimesOut job node a (s.slots nid).task) :
      Move job s nid node a
        { (s.slots nid).stop .timedOut with error := some "timeout:node" } none
  | polled (hTask : (s.slots nid).task = .calling ∨ (s.slots nid).task = .handling)
      (hCancel : s.token.cancelled ∨ (s.slots nid).cancelRequested) :
      Move job s nid node .poll { s.slots nid with task := .draining } none
  | drained (hTask : (s.slots nid).task = .draining) :
      Move job s nid node .drained ((s.slots nid).stop .cancelled) none
  | sleptCancelled (hTask : (s.slots nid).task = .sleeping) (hTry : (s.slots nid).MayTry node)
      (hCancel : s.token.cancelled) :
      Move job s nid node .slept
        ({ (s.slots nid).assign .running with attempts := (s.slots nid).attempts + 1 }.stop
          .cancelled) none
  | sleptRunning (hTask : (s.slots nid).task = .sleeping) (hTry : (s.slots nid).MayTry node)
      (hCancel : ¬ s.token.cancelled) :
      Move job s nid node .slept
        { (s.slots nid).assign .running with
          attempts := (s.slots nid).attempts + 1, task := .calling } none
  | sleptExhausted (hTask : (s.slots nid).task = .sleeping) (hTry : ¬ (s.slots nid).MayTry node) :
      Move job s nid node .slept
        { ((s.slots nid).assign .running).stop .failed with
          error := some "max attempts exceeded" } none

def ConditionRaises (job : Job) (s : Executor R) (a : Action R) (e : GraphException) : Prop :=
  ∃ nid env node, a = .node nid (.start env) ∧ job.node nid = some node ∧
    (s.slots nid).task = .spawned ∧ ¬ ((s.slots nid).cancelRequested ∨ s.token.cancelled) ∧
    s.shouldRun job nid node env = .error e

theorem onTimeout_move {job : Job} {s : Executor R} {nid : NodeId} {node : TaskNode}
    {a : NodeAction R} (h : TimesOut job node a (s.slots nid).task) :
    Move job s nid node a ((s.slots nid).onTimeout node) none := by
  unfold Slot.onTimeout
  split
  · next hTry => exact .timedRetry a h hTry.2
  · exact .timedStop a h

theorem wake_move {job : Job} {s : Executor R} {nid : NodeId} {node : TaskNode}
    {outcome : Outcome R} (h : (s.slots nid).task = .handled outcome) :
    Move job s nid node .wake ((s.slots nid).wake nid node outcome) none := by
  unfold Slot.wake
  cases outcome with
  | returned result =>
    by_cases hCheck : Slot.Checkpointing node
    · dsimp only [Slot.onSuccess]
      rw [if_pos hCheck]
      exact .checkpointed result h hCheck
    · dsimp only [Slot.onSuccess]
      rw [if_neg hCheck]
      exact .succeeded result h hCheck
  | timeoutError =>
    refine onTimeout_move ?_
    rw [h]
    trivial
  | cancellationError => exact .cancelledInside h
  | error text =>
    dsimp only [Slot.onFailure]
    split
    · next hTry => exact .failedRetry text h hTry.2
    · exact .failedStop text h

theorem start_move {job : Job} {s : Executor R} {nid : NodeId} {node : TaskNode}
    {env : Environment} (hTask : (s.slots nid).task = .spawned)
    (hCancel : ¬ ((s.slots nid).cancelRequested ∨ s.token.cancelled))
    (hRun : s.shouldRun job nid node env = .ok true) :
    Move job s nid node (.start env) ((s.slots nid).start node s.token.cancelled) none := by
  have hToken : s.token.cancelled = false := by
    simpa using fun h => hCancel (.inr h)
  unfold Slot.start Slot.attempt
  rw [hToken]
  split
  · next hTry => exact .startRunning env hTask hCancel hRun hTry
  · next hTry => exact .startExhausted env hTask hCancel hRun hTry

theorem slept_move {job : Job} {s : Executor R} {nid : NodeId} {node : TaskNode}
    (hTask : (s.slots nid).task = .sleeping) :
    Move job s nid node .slept
      (((s.slots nid).assign .running).attempt node s.token.cancelled) none := by
  unfold Slot.attempt
  split
  · next hTry =>
    by_cases hCancel : s.token.cancelled = true
    · rw [if_pos hCancel]
      exact .sleptCancelled hTask hTry hCancel
    · rw [if_neg hCancel]
      exact .sleptRunning hTask hTry hCancel
  · next hTry => exact .sleptExhausted hTask hTry

/-- **Inversion.** `advance` makes one of the moves. -/
theorem advance_move (job : Job) (s : Executor R) (nid : NodeId) (node : TaskNode)
    (a : NodeAction R) :
    Move job s nid node a (s.advance job nid node a).1 (s.advance job nid node a).2 := by
  cases a with
  | start env =>
    dsimp only [advance]
    split
    · next hTask =>
      split
      · next hCancel => exact .startCancelled env hTask hCancel
      · next hCancel =>
        split
        · next e hRun => exact .startRaised env e hTask hCancel hRun
        · next hRun => exact .startSkipped env hTask hCancel hRun
        · next hRun => exact start_move hTask hCancel hRun
    · next hNot => exact .stay _ hNot
  | call =>
    dsimp only [advance]
    split
    · next hTask => exact .called hTask
    · next hNot => exact .stay _ hNot
  | finish outcome =>
    dsimp only [advance]
    split
    · next hTask => exact .finished outcome hTask
    · next hNot => exact .stay _ hNot
  | wake =>
    dsimp only [advance]
    split
    · next outcome hTask => exact wake_move hTask
    · next hNot => exact .stay _ fun ⟨outcome, hTask⟩ => hNot outcome hTask
  | poll =>
    dsimp only [advance]
    split
    · next hTask =>
      split
      · next hCancel => exact .polled (.inl hTask) hCancel
      · next hCancel => exact .stay _ fun hEnabled => hCancel hEnabled.2
    · next hTask =>
      split
      · next hCancel => exact .polled (.inr hTask) hCancel
      · next hCancel => exact .stay _ fun hEnabled => hCancel hEnabled.2
    -- no coroutine runs that could see the request
    · next hCalling hHandling =>
      exact .stay _ fun hEnabled => hEnabled.1.elim hCalling hHandling
  | drained =>
    dsimp only [advance]
    split
    · next hTask => exact .drained hTask
    · next hNot => exact .stay _ hNot
  | expire =>
    dsimp only [advance]
    split
    · next hTask =>
      split
      · next hOn => exact onTimeout_move (by rw [hTask]; exact hOn)
      · next hOff => exact .stay _ (by unfold NodeEnabled; rw [hTask]; exact hOff)
    · next hTask =>
      split
      · next hOn => exact onTimeout_move (by rw [hTask]; exact hOn)
      · next hOff => exact .stay _ (by unfold NodeEnabled; rw [hTask]; exact hOff)
    · next outcome hTask =>
      split
      · next hOn => exact onTimeout_move (by rw [hTask]; exact hOn)
      · next hOff => exact .stay _ (by unfold NodeEnabled; rw [hTask]; exact hOff)
    · next hCalling hHandling hHandled =>
      -- no time is measured outside the three states above
      refine .stay _ fun hEnabled => ?_
      unfold NodeEnabled at hEnabled
      generalize (s.slots nid).task = task at *
      cases task with
      | calling => exact hCalling rfl
      | handling => exact hHandling rfl
      | handled outcome => exact hHandled outcome rfl
      | _ => exact hEnabled
  | slept =>
    dsimp only [advance]
    split
    · next hTask => exact slept_move hTask
    · next hNot => exact .stay _ hNot

end Executor

end Neuroswarm.Swarm

/-! ## What holds of coroutines at any time -/

namespace Neuroswarm.Swarm

variable {R : Type*}

-- ------ Elementary facts

theorem Job.exists_node {job : Job} {nid : NodeId} (h : nid ∈ job.graph.ids) :
    ∃ node, job.node nid = some node :=
  Option.isSome_iff_exists.mp (Dict.mem_keys_iff.mp h)

theorem Job.mem_ids {job : Job} {nid : NodeId} {node : TaskNode} (h : job.node nid = some node) :
    nid ∈ job.graph.ids :=
  Dict.mem_keys_iff.mpr (by rw [show job.graph.nodes.get? nid = some node from h]; rfl)

/-- The statuses a node can have while its coroutine stands there. -/
def Task.statuses : Task R → List NodeStatus
  | .idle => [.pending, .cancelled, .timedOut]
  | .spawned => [.pending, .cancelled]
  | .calling | .handling | .handled _ | .draining => [.running, .cancelled]
  | .sleeping => [.retrying, .cancelled]
  | .finished => [.pending, .succeeded, .failed, .cancelled, .skipped, .timedOut]

namespace Executor

@[simp] theorem setSlot_slots (s : Executor R) (nid : NodeId) (slot : Slot R) :
    (s.setSlot nid slot).slots = Function.update s.slots nid slot := rfl

@[simp] theorem onSlots_slots (s : Executor R) (p : NodeId → Prop) [DecidablePred p]
    (f : Slot R → Slot R) (nid : NodeId) :
    (s.onSlots p f).slots nid = if p nid then f (s.slots nid) else s.slots nid := rfl

theorem mem_foldl_insert {nids done : List NodeId} {v : NodeId} :
    v ∈ nids.foldl (fun done nid => done.insert nid) done ↔ v ∈ nids ∨ v ∈ done := by
  induction nids generalizing done with
  | nil => simp
  | cons nid nids ih =>
    rw [List.foldl_cons, ih, List.mem_insert_iff, List.mem_cons]
    tauto

@[simp] theorem mem_complete {s : Executor R} {nids : List NodeId} {v : NodeId} :
    v ∈ (s.complete nids).completed ↔ v ∈ nids ∨ v ∈ s.completed :=
  mem_foldl_insert

theorem nodup_complete {s : Executor R} (h : s.completed.Nodup) (nids : List NodeId) :
    (s.complete nids).completed.Nodup := by
  unfold complete
  dsimp only
  generalize s.completed = done at h
  induction nids generalizing done with
  | nil => exact h
  | cons nid nids ih => exact ih (done.insert nid) h.insert

theorem complete_of_subset {s : Executor R} {nids : List NodeId}
    (h : ∀ v ∈ nids, v ∈ s.completed) : s.complete nids = s := by
  have hFold : nids.foldl (fun done nid => done.insert nid) s.completed = s.completed := by
    induction nids with
    | nil => rfl
    | cons nid nids ih =>
      rw [List.foldl_cons, List.insert_of_mem (h nid (List.mem_cons_self ..))]
      exact ih fun v hv => h v (List.mem_cons_of_mem _ hv)
  unfold complete
  rw [hFold]

-- ------ Moves

namespace Move

variable {job : Job} {s : Executor R} {nid : NodeId} {node : TaskNode} {a : NodeAction R}
  {slot : Slot R} {e : Option GraphException}

theorem timesOut_not_quiet {task : Task R} (h : TimesOut job node a task) : ¬ task.Quiet := by
  cases a <;> cases task <;> simp_all [TimesOut, Task.Quiet]

theorem of_quiet (h : Move job s nid node a slot e) (hQuiet : (s.slots nid).task.Quiet) :
    slot = s.slots nid ∧ e = none := by
  cases h with
  | stay => exact ⟨rfl, rfl⟩
  | timedRetry _ hTimes => exact absurd hQuiet (timesOut_not_quiet hTimes)
  | timedStop _ hTimes => exact absurd hQuiet (timesOut_not_quiet hTimes)
  | polled hTask =>
    rcases hTask with hTask | hTask
    · simp [hTask, Task.Quiet] at hQuiet
    · simp [hTask, Task.Quiet] at hQuiet
  | _ => simp_all [Task.Quiet]

theorem task_ne_idle (h : Move job s nid node a slot e) (hIdle : slot.task = .idle) :
    (s.slots nid).task = .idle := by
  cases h with
  | stay => exact hIdle
  | _ => cases hIdle

theorem of_raised {err : GraphException} (hNode : job.node nid = some node)
    (h : Move job s nid node a slot (some err)) : ConditionRaises job s (.node nid a) err := by
  cases h with
  | startRaised env _ hTask hCancel hRun => exact ⟨nid, env, node, rfl, hNode, hTask, hCancel, hRun⟩

end Move

-- ------ The invariant of a slot

/-- What holds of one node at any time; `raised` says that the layer has failed,
`token` that somebody has cancelled. -/
structure SlotInv (raised token : Bool) (node : TaskNode) (slot : Slot R) : Prop where
  fits : slot.status ∈ slot.task.statuses
  attempts : slot.attempts ≤ node.retryPolicy.maxAttempts.toNat
  calls : slot.calls ≤ slot.attempts
  calling : slot.task = .calling → slot.calls < slot.attempts
  pending : slot.task = .finished → slot.status = .pending → raised
  cancelled : slot.status = .cancelled → slot.task = .finished ∨ token
  requested : slot.cancelRequested → token

theorem TimesOut.status_mem {job : Job} {node : TaskNode} {a : NodeAction R} {task : Task R}
    {st : NodeStatus} (h : TimesOut job node a task) (hFits : st ∈ task.statuses) :
    st = .running ∨ st = .cancelled := by
  cases a <;> cases task <;> simp_all [TimesOut, Task.statuses]

namespace SlotInv

variable {raised token : Bool} {node : TaskNode} {slot slot' : Slot R}

theorem weaken {raised' token' : Bool} (h : SlotInv raised token node slot)
    (hRaised : raised → raised') (hToken : token → token') : SlotInv raised' token' node slot :=
  { h with
    pending := fun hT hS => hRaised (h.pending hT hS)
    cancelled := fun hS => (h.cancelled hS).imp id hToken
    requested := fun hR => hToken (h.requested hR) }

theorem stop (h : SlotInv raised token node slot) (hTask : slot'.task = .finished)
    (hStatus : slot'.status ∈ terminalStatuses)
    (hAttempts : slot'.attempts ≤ node.retryPolicy.maxAttempts.toNat)
    (hMore : slot.attempts ≤ slot'.attempts) (hCalls : slot'.calls = slot.calls)
    (hRequested : slot'.cancelRequested = slot.cancelRequested) :
    SlotInv raised token node slot' where
  fits := by
    rw [hTask]
    revert hStatus
    cases slot'.status <;> simp [terminalStatuses, Task.statuses]
  attempts := hAttempts
  calls := by
    have := h.calls
    omega
  calling := by
    rw [hTask]
    exact nofun
  pending := fun _ hS => by
    rw [hS] at hStatus
    exact absurd hStatus (by decide)
  cancelled := fun _ => .inl hTask
  requested := by
    rw [hRequested]
    exact h.requested

/-- The coroutine goes on in the middle of something, with status `RUNNING`, `RETRYING` or
the one it had. -/
theorem proceed (h : SlotInv raised token node slot) (hFits : slot'.status ∈ slot'.task.statuses)
    (hTask : slot'.task ≠ .finished)
    (hStatus : slot'.status = .cancelled → slot.status = .cancelled ∧ slot.task ≠ .finished)
    (hAttempts : slot'.attempts ≤ node.retryPolicy.maxAttempts.toNat)
    (hCalls : slot'.calls ≤ slot'.attempts)
    (hCalling : slot'.task = .calling → slot'.calls < slot'.attempts)
    (hRequested : slot'.cancelRequested = slot.cancelRequested) :
    SlotInv raised token node slot' where
  fits := hFits
  attempts := hAttempts
  calls := hCalls
  calling := hCalling
  pending := fun hT => absurd hT hTask
  cancelled := fun hS =>
    have ⟨hOld, hNot⟩ := hStatus hS
    .inr ((h.cancelled hOld).resolve_left hNot)
  requested := by
    rw [hRequested]
    exact h.requested

end SlotInv

theorem attempts_lt_of_mayTry {slot : Slot R} {node : TaskNode} (h : slot.MayTry node) :
    slot.attempts + 1 ≤ node.retryPolicy.maxAttempts.toNat := by
  unfold Slot.MayTry at h
  omega

/-- **Step.** Every move keeps the invariant of its slot. -/
theorem Move.slotInv {job : Job} {s : Executor R} {nid : NodeId} {node : TaskNode}
    {a : NodeAction R} {slot : Slot R} {e : Option GraphException}
    (h : Move job s nid node a slot e)
    (hInv : SlotInv s.failure.isSome s.token.cancelled node (s.slots nid)) :
    SlotInv (s.failure.or e).isSome s.token.cancelled node slot := by
  have hCalls := hInv.calls
  have hAttempts := hInv.attempts
  have hFits := hInv.fits
  have hInv' : SlotInv (s.failure.isSome || e.isSome) s.token.cancelled node (s.slots nid) :=
    hInv.weaken (by simp +contextual) id
  suffices hNew : SlotInv (s.failure.isSome || e.isSome) s.token.cancelled node slot from
    hNew.weaken (by cases s.failure <;> simp) id
  cases h with
  | stay => exact hInv'
  | startCancelled | startSkipped | startExhausted | succeeded | checkpointed | cancelledInside
  | failedStop | timedStop | drained | sleptExhausted =>
    exact hInv'.stop rfl (by simp [terminalStatuses]) hAttempts le_rfl rfl rfl
  | sleptCancelled hTask hTry =>
    exact hInv'.stop rfl (by simp [terminalStatuses]) (attempts_lt_of_mayTry hTry) (Nat.le_succ _) rfl rfl
  | startRaised env err hTask =>
    -- the node keeps its status, and the layer has failed
    rw [hTask] at hFits
    exact
      { fits := by
          revert hFits
          simp only [Task.statuses, List.mem_cons, List.not_mem_nil, or_false]
          tauto
        attempts := hAttempts
        calls := hCalls
        calling := nofun
        pending := fun _ _ => by simp
        cancelled := fun _ => .inl rfl
        requested := hInv.requested }
  | startRunning env hTask _ _ hTry | sleptRunning hTask hTry =>
    exact hInv'.proceed (by simp [Task.statuses]) nofun nofun (attempts_lt_of_mayTry hTry)
      (by dsimp only [Slot.assign]; omega) (fun _ => by dsimp only [Slot.assign]; omega) rfl
  | called hTask =>
    have hLess := hInv.calling hTask
    rw [hTask] at hFits
    refine hInv'.proceed hFits nofun (fun hS => ⟨hS, by rw [hTask]; exact nofun⟩) hAttempts ?_
      nofun rfl
    dsimp only
    split <;> omega
  | finished outcome hTask =>
    rw [hTask] at hFits
    exact hInv'.proceed hFits nofun (fun hS => ⟨hS, by rw [hTask]; exact nofun⟩) hAttempts hCalls
      nofun rfl
  | failedRetry text hTask | timedRetry _ hTimes =>
    exact hInv'.proceed (by simp [Slot.retry, Task.statuses]) nofun nofun hAttempts hCalls nofun rfl
  | polled hTask =>
    have hSame : (s.slots nid).status ∈ [NodeStatus.running, .cancelled] := by
      rcases hTask with hTask | hTask
      · rwa [hTask] at hFits
      · rwa [hTask] at hFits
    have hNot : (s.slots nid).task ≠ .finished := by
      rcases hTask with hTask | hTask
      · rw [hTask]
        exact nofun
      · rw [hTask]
        exact nofun
    exact hInv'.proceed hSame nofun (fun hS => ⟨hS, hNot⟩) hAttempts hCalls nofun rfl

-- ------ Cancellation of a slot

@[simp] theorem applyCancel_task (forced : Bool) (slot : Slot R) :
    (slot.applyCancel forced).task = slot.task := by
  unfold Slot.applyCancel
  split
  · rfl
  · split <;> rfl

theorem applyCancel_terminal {forced : Bool} {slot : Slot R} (h : slot.status.Terminal) :
    slot.applyCancel forced = slot := by
  unfold Slot.applyCancel
  rw [if_pos h]

theorem applyCancel_status (forced : Bool) (slot : Slot R) :
    (slot.applyCancel forced).status = slot.status ∨
      (slot.applyCancel forced).status = .cancelled := by
  unfold Slot.applyCancel
  split
  · exact .inl rfl
  · split
    · exact .inr rfl
    · exact .inl rfl

theorem applyCancel_cancellable {forced : Bool} {slot : Slot R}
    (h : slot.status ∈ Slot.cancellable) : (slot.applyCancel forced).status = .cancelled := by
  have hNot : ¬ slot.status.Terminal := by
    revert h
    cases slot.status <;> decide
  unfold Slot.applyCancel
  rw [if_neg hNot, if_pos (.inr h)]
  rfl

theorem SlotInv.applyCancel {raised token : Bool} {node : TaskNode} {slot : Slot R}
    (h : SlotInv raised token node slot) (forced : Bool) :
    SlotInv raised true node (slot.applyCancel forced) := by
  have hWeak : SlotInv raised true node slot := h.weaken id fun _ => rfl
  unfold Slot.applyCancel
  split
  · exact hWeak
  · split
    · exact
        { fits := by
            show NodeStatus.cancelled ∈ slot.task.statuses
            cases slot.task <;> simp [Task.statuses]
          attempts := h.attempts
          calls := h.calls
          calling := h.calling
          pending := nofun
          cancelled := fun _ => .inr rfl
          requested := fun _ => rfl }
    · exact { hWeak with requested := fun _ => rfl }

-- ------ The invariant of the executor

/-- What holds at any time, also while coroutines outlive the main loop. -/
structure Base (job : Job) (s : Executor R) : Prop where
  slots : ∀ nid node, job.node nid = some node →
    SlotInv s.failure.isSome s.token.cancelled node (s.slots nid)
  nodup : s.completed.Nodup
  known : ∀ nid ∈ s.completed, nid ∈ job.graph.ids
  done : ∀ nid ∈ s.completed, (s.status nid).Terminal ∧ (s.slots nid).task.Quiet
  started : ∀ nid, (s.slots nid).task ≠ .idle →
    nid ∈ job.graph.ids ∧ ∀ p, job.graph.Precedes p nid → p ∈ s.completed

namespace Base

variable {job : Job} {s s' : Executor R}

theorem of_status (h : Base job s) (hCompleted : s'.completed = s.completed)
    (hSlots : ∀ nid node, job.node nid = some node →
      SlotInv s'.failure.isSome s'.token.cancelled node (s'.slots nid))
    (hTask : ∀ nid, (s'.slots nid).task = (s.slots nid).task)
    (hTerminal : ∀ nid ∈ s.completed, (s'.status nid).Terminal) : Base job s' where
  slots := hSlots
  nodup := hCompleted ▸ h.nodup
  known := hCompleted ▸ h.known
  done := by
    rw [hCompleted]
    intro nid hnid
    rw [hTask]
    exact ⟨hTerminal nid hnid, (h.done nid hnid).2⟩
  started := by
    intro nid
    rw [hTask, hCompleted]
    exact h.started nid

theorem complete (h : Base job s) {nids : List NodeId}
    (hDone : ∀ nid ∈ nids, nid ∈ job.graph.ids ∧ (s.status nid).Terminal ∧
      (s.slots nid).task.Quiet) : Base job (s.complete nids) where
  slots := h.slots
  nodup := nodup_complete h.nodup nids
  known := by
    intro nid hnid
    rcases mem_complete.mp hnid with hnid | hnid
    · exact (hDone nid hnid).1
    · exact h.known nid hnid
  done := by
    intro nid hnid
    rcases mem_complete.mp hnid with hnid | hnid
    · exact (hDone nid hnid).2
    · exact h.done nid hnid
  started := fun nid hnid =>
    ⟨(h.started nid hnid).1, fun p hp => mem_complete.mpr (.inr ((h.started nid hnid).2 p hp))⟩

theorem node (h : Base job s) {nid : NodeId} {node : TaskNode} (hNode : job.node nid = some node)
    (a : NodeAction R) :
    Base job { s.setSlot nid (s.advance job nid node a).1 with
      failure := s.failure.or (s.advance job nid node a).2 } := by
  have hMove := advance_move job s nid node a
  generalize (s.advance job nid node a).1 = slot at hMove
  generalize (s.advance job nid node a).2 = e at hMove
  constructor
  · intro n node' hNode'
    dsimp only
    rw [setSlot_slots, Function.update_apply]
    split
    · next hn =>
      subst hn
      rw [hNode] at hNode'
      cases hNode'
      exact hMove.slotInv (h.slots n node hNode)
    · exact (h.slots n node' hNode').weaken (by cases s.failure <;> simp) id
  · exact h.nodup
  · exact h.known
  · intro n hn
    obtain ⟨hTerminal, hQuiet⟩ := h.done n hn
    unfold Executor.status at *
    dsimp only
    rw [setSlot_slots, Function.update_apply]
    split
    · next hEq =>
      subst hEq
      rw [(hMove.of_quiet hQuiet).1]
      exact ⟨hTerminal, hQuiet⟩
    · exact ⟨hTerminal, hQuiet⟩
  · intro n hn
    refine h.started n fun hIdle => hn ?_
    dsimp only
    rw [setSlot_slots, Function.update_apply]
    split
    · next hEq =>
      subst hEq
      rw [(hMove.of_quiet (by rw [hIdle]; trivial)).1]
      exact hIdle
    · exact hIdle

theorem cancel (h : Base job s) (mode : CancelMode) (nodeId : Option NodeId) (forced : Bool) :
    Base job (s.cancel job mode nodeId forced) := by
  unfold Executor.cancel
  dsimp only
  split
  · refine h.of_status rfl (fun nid node hNode => ?_) (fun _ => rfl) fun nid hnid => (h.done nid hnid).1
    exact (h.slots nid node hNode).weaken id fun _ => rfl
  · refine h.of_status rfl (fun nid node hNode => ?_) (fun nid => ?_) fun nid hnid => ?_
    · rw [onSlots_slots]
      split
      · exact (h.slots nid node hNode).applyCancel forced
      · exact (h.slots nid node hNode).weaken id fun _ => rfl
    · rw [onSlots_slots]
      split
      · exact applyCancel_task ..
      · rfl
    · have hTerminal := (h.done nid hnid).1
      unfold Executor.status at *
      rw [onSlots_slots]
      split
      · rw [applyCancel_terminal hTerminal]
        exact hTerminal
      · exact hTerminal

theorem terminal_of_finished (h : Base job s) (hFailure : s.failure = none) {nid : NodeId}
    (hTask : (s.slots nid).task = .finished) : (s.status nid).Terminal := by
  obtain ⟨node, hNode⟩ := Job.exists_node (h.started nid (by rw [hTask]; exact nofun)).1
  have hInv := h.slots nid node hNode
  have hFits := hInv.fits
  have hPending := hInv.pending hTask
  rw [hTask] at hFits
  rw [hFailure] at hPending
  unfold Executor.status
  generalize (s.slots nid).status = status at hFits hPending
  revert hFits hPending
  cases status <;> simp [Task.statuses, NodeStatus.Terminal, terminalStatuses]

end Base

end Executor

end Neuroswarm.Swarm
