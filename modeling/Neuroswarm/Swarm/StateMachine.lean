import Neuroswarm.Swarm.Loop

/-!
# Task graph — the declared state machine

`NodeRuntimeState.transition` checks `NODE_TRANSITIONS`, but nothing calls it: the
executor assigns statuses directly. `Slot.assigned` records every assignment, and
`transitions_along_iff` says which runs only make permitted ones: those in which

* no call and no delay ends after a cancellation has overwritten the status of its
  node (a forced one of a running node, any one of a node that waits for a retry);
* no checkpoint node succeeds, since `SUCCEEDED` is left for `CHECKPOINTED`;
* the workflow deadline is not noticed while some node is pending, since `PENDING`
  does not lead to `TIMED_OUT`.
-/

namespace Neuroswarm.Swarm

variable {R : Type*}

/-- A no-op, or a transition of the table that leaves no terminal status. -/
def Permitted (current target : NodeStatus) : Prop :=
  current = target ∨ (target ∈ nodeTransitions current ∧ ¬ current.Terminal)

instance (current target : NodeStatus) : Decidable (Permitted current target) :=
  inferInstanceAs (Decidable (_ ∨ _))

namespace Slot

def Legal (slot : Slot R) : Prop := ∀ p ∈ slot.assigned, Permitted p.1 p.2

theorem Legal.assign {slot : Slot R} (h : slot.Legal) {current target : NodeStatus}
    (hStatus : slot.status = current) (hPermitted : Permitted current target) :
    (slot.assign target).Legal := by
  intro p hp
  rcases List.mem_cons.mp hp with rfl | hp
  · rw [hStatus]
    exact hPermitted
  · exact h p hp

theorem not_legal_stop {slot : Slot R} {target : NodeStatus}
    (hNot : ¬ Permitted slot.status target) : ¬ (slot.stop target).Legal :=
  fun h => hNot (h (slot.status, target) (List.mem_cons_self ..))

end Slot

namespace Executor

/-- Every assignment to the status of a node was permitted so far. -/
def Legal (job : Job) (s : Executor R) : Prop := ∀ nid ∈ job.graph.ids, (s.slots nid).Legal

-- ------ The condition

/-- The coroutine does not end a call or a delay of a cancelled node, and does not
write a checkpoint. -/
structure NodeKeeps (job : Job) (s : Executor R) (nid : NodeId) (node : TaskNode)
    (a : NodeAction R) : Prop where
  timeout : TimesOut job node a (s.slots nid).task → s.status nid = .running
  success : a = .wake → ∀ result, (s.slots nid).task = .handled (.returned result) →
    s.status nid = .running ∧ ¬ Slot.Checkpointing node
  failure : a = .wake → ∀ text, (s.slots nid).task = .handled (.error text) →
    s.status nid = .running
  delay : a = .slept → (s.slots nid).task = .sleeping → s.status nid = .retrying

/-- The loop goes on past the deadline, with nodes that have not begun. -/
def DeadlineFires (job : Job) (s : Executor R) (late : Bool) : Prop :=
  (job.hasDeadline && late) = true ∧ s.token.cancelled = false ∧
    (∃ nid ∈ job.graph.ids, (s.slots nid).task = .idle) ∧
    (s.main = .entering ∨ ∃ layer, s.main = .gathering layer ∧ s.failure = none ∧
      (∀ nid ∈ layer, (s.slots nid).task.isFinished = true) ∧
      ¬ (job.failFast ∧ ∃ nid ∈ layer, s.status nid = .failed))

def KeepsRules (job : Job) (s : Executor R) : Action R → Prop
  | .node nid a => ∀ node, job.node nid = some node → NodeKeeps job s nid node a
  | .resume late _ => ¬ DeadlineFires job s late
  | .cancel .. => True

-- ------ Steps of a coroutine

variable {node : TaskNode} {slot : Slot R}

theorem SlotInv.status_spawned {raised token : Bool} (h : SlotInv raised token node slot)
    (hTask : slot.task = .spawned) (hToken : ¬ (slot.cancelRequested ∨ token)) :
    slot.status = .pending := by
  have hFits := h.fits
  rw [hTask] at hFits
  rcases List.mem_cons.mp hFits with hStatus | hStatus
  · exact hStatus
  · have hStatus : slot.status = .cancelled := List.mem_singleton.mp hStatus
    rcases h.cancelled hStatus with hFinished | hTrue
    · rw [hTask] at hFinished
      cases hFinished
    · exact absurd (.inr hTrue) hToken

variable {job : Job} {s : Executor R} {nid : NodeId}

theorem Move.legal {a : NodeAction R} {e : Option GraphException} (h : Move job s nid node a slot e)
    (hInv : SlotInv s.failure.isSome s.token.cancelled node (s.slots nid))
    (hLegal : (s.slots nid).Legal) (hKeeps : NodeKeeps job s nid node a) : slot.Legal := by
  have hFits := hInv.fits
  -- a coroutine that waits to begin, or for a call, may always be cancelled
  have hCancel : (s.slots nid).status ∈ [NodeStatus.pending, .running, .cancelled] →
      ((s.slots nid).assign .cancelled).Legal := by
    intro hMem
    refine hLegal.assign rfl ?_
    generalize (s.slots nid).status = status at hMem
    revert status
    simp only [List.mem_cons, List.not_mem_nil, or_false, forall_eq_or_imp, forall_eq]
    exact ⟨by decide, by decide, by decide⟩
  cases h with
  | stay | called | finished | polled | startRaised => exact hLegal
  | startCancelled env hTask =>
    rw [hTask] at hFits
    refine hCancel ?_
    simp only [Task.statuses, List.mem_cons] at hFits ⊢
    tauto
  | startSkipped env hTask hToken =>
    exact hLegal.assign (hInv.status_spawned hTask hToken) (by decide)
  | startRunning env hTask hToken =>
    exact (hLegal.assign (hInv.status_spawned hTask hToken) (by decide)).assign
      (Slot.assign_status ..) (by decide)
  | startExhausted env hTask hToken =>
    exact ((hLegal.assign (hInv.status_spawned hTask hToken) (by decide)).assign
      (Slot.assign_status ..) (by decide)).assign (Slot.assign_status ..) (by decide)
  | succeeded result hTask =>
    have hStatus : (s.slots nid).status = .running := (hKeeps.success rfl result hTask).1
    exact Slot.Legal.assign hLegal hStatus (by decide)
  | checkpointed result hTask hCheck => exact absurd hCheck (hKeeps.success rfl result hTask).2
  | cancelledInside hTask | drained hTask =>
    rw [hTask] at hFits
    exact hCancel (List.mem_cons_of_mem _ hFits)
  | failedRetry text hTask | failedStop text hTask =>
    exact hLegal.assign (hKeeps.failure rfl text hTask) (by decide)
  | timedRetry _ hTimes | timedStop _ hTimes =>
    exact hLegal.assign (hKeeps.timeout hTimes) (by decide)
  | sleptCancelled hTask =>
    have hRunning : ((s.slots nid).assign .running).Legal :=
      hLegal.assign (hKeeps.delay rfl hTask) (by decide)
    exact Slot.Legal.assign hRunning (Slot.assign_status (s.slots nid) .running) (by decide)
  | sleptRunning hTask => exact hLegal.assign (hKeeps.delay rfl hTask) (by decide)
  | sleptExhausted hTask =>
    exact (hLegal.assign (hKeeps.delay rfl hTask) (by decide)).assign (Slot.assign_status ..)
      (by decide)

-- ------ Steps outside the condition

theorem advance_wake {outcome : Outcome R} (h : (s.slots nid).task = .handled outcome) :
    s.advance job nid node .wake = ((s.slots nid).wake nid node outcome, none) := by
  dsimp only [advance]
  rw [h]

theorem advance_slept (h : (s.slots nid).task = .sleeping) :
    s.advance job nid node .slept =
      (((s.slots nid).assign .running).attempt node s.token.cancelled, none) := by
  dsimp only [advance]
  rw [h]

theorem advance_timesOut {a : NodeAction R} (h : TimesOut job node a (s.slots nid).task) :
    s.advance job nid node a = ((s.slots nid).onTimeout node, none) := by
  cases a with
  | wake =>
    generalize hTask : (s.slots nid).task = task at h
    cases task with
    | handled outcome =>
      cases outcome with
      | timeoutError => exact advance_wake hTask
      | _ => exact h.elim
    | _ => exact h.elim
  | expire =>
    dsimp only [advance]
    generalize (s.slots nid).task = task at h
    cases task with
    | calling | handling | handled => exact if_pos h
    | _ => exact h.elim
  | _ =>
    generalize (s.slots nid).task = task at h
    cases task <;> exact h.elim

theorem not_legal_onTimeout (h : slot.status = .cancelled) :
    ¬ (slot.onTimeout node).Legal := by
  unfold Slot.onTimeout
  split
  · exact fun hLegal => absurd (hLegal (slot.status, .retrying) (List.mem_cons_self ..))
      (by rw [h]; decide)
  · exact Slot.not_legal_stop (by rw [h]; decide)

theorem not_legal_onFailure {text : String} (h : slot.status = .cancelled) :
    ¬ (slot.onFailure node text).Legal := by
  unfold Slot.onFailure
  split
  · exact fun hLegal => absurd (hLegal (slot.status, .retrying) (List.mem_cons_self ..))
      (by rw [h]; decide)
  · exact Slot.not_legal_stop (by rw [h]; decide)

theorem not_legal_onSuccess {result : Option R}
    (h : slot.status = .cancelled ∨ Slot.Checkpointing node) :
    ¬ (slot.onSuccess nid node result).Legal := by
  unfold Slot.onSuccess
  dsimp only
  split
  · -- the middle assignment leaves `SUCCEEDED`
    intro hLegal
    refine absurd (hLegal (.succeeded, .checkpointed) ?_) (by decide)
    simp [Slot.stop, Slot.assign]
  · next hCheck =>
    intro hLegal
    have hPair := hLegal (slot.status, .succeeded) (by simp [Slot.assign])
    rw [h.resolve_right hCheck] at hPair
    exact absurd hPair (by decide)

theorem not_legal_attempt {cancelled : Bool} (h : ¬ slot.Legal) :
    ¬ (slot.attempt node cancelled).Legal := by
  have hMore : ∀ p ∈ slot.assigned, p ∈ (slot.attempt node cancelled).assigned := by
    unfold Slot.attempt
    dsimp only
    intro p hp
    split
    · split
      · exact List.mem_cons_of_mem _ hp
      · exact hp
    · exact List.mem_cons_of_mem _ hp
  exact fun hLegal => h fun p hp => hLegal p (hMore p hp)

/-- **Outside the condition** the coroutine makes an assignment that is not permitted. -/
theorem not_legal_advance {a : NodeAction R}
    (hInv : SlotInv s.failure.isSome s.token.cancelled node (s.slots nid))
    (hKeeps : ¬ NodeKeeps job s nid node a) : ¬ (s.advance job nid node a).1.Legal := by
  have hFits := hInv.fits
  by_cases hTimes : TimesOut job node a (s.slots nid).task ∧ s.status nid ≠ .running
  · rw [advance_timesOut hTimes.1]
    exact not_legal_onTimeout ((TimesOut.status_mem hTimes.1 hFits).resolve_left hTimes.2)
  -- what breaks the condition is not a time-out, so it is one of the three others
  · have hRest : ¬ ((a = .wake → ∀ result, (s.slots nid).task = .handled (.returned result) →
          s.status nid = .running ∧ ¬ Slot.Checkpointing node) ∧
        (a = .wake → ∀ text, (s.slots nid).task = .handled (.error text) →
          s.status nid = .running) ∧
        (a = .slept → (s.slots nid).task = .sleeping → s.status nid = .retrying)) := by
      rintro ⟨hSuccess, hFailure, hDelay⟩
      refine hKeeps ⟨fun h => ?_, hSuccess, hFailure, hDelay⟩
      by_contra hStatus
      exact hTimes ⟨h, hStatus⟩
    -- a handled node is `RUNNING`, or was cancelled meanwhile
    have hHandled : ∀ outcome, (s.slots nid).task = .handled outcome →
        s.status nid ≠ .running → (s.slots nid).status = .cancelled := by
      intro outcome hTask hNot
      rw [hTask] at hFits
      rcases List.mem_cons.mp hFits with hStatus | hStatus
      · exact absurd hStatus hNot
      · exact List.mem_singleton.mp hStatus
    cases a with
    | wake =>
      generalize hTask : (s.slots nid).task = task at hRest
      cases task with
      | handled outcome =>
        rw [advance_wake hTask]
        cases outcome with
        | returned result =>
          refine not_legal_onSuccess ?_
          by_contra hNone
          push Not at hNone
          refine hRest ⟨fun _ result _ => ⟨?_, hNone.2⟩, nofun, nofun⟩
          by_contra hStatus
          exact hNone.1 (hHandled _ hTask hStatus)
        | error text =>
          refine not_legal_onFailure ?_
          by_contra hNone
          refine hRest ⟨nofun, fun _ text _ => ?_, nofun⟩
          by_contra hStatus
          exact hNone (hHandled _ hTask hStatus)
        | timeoutError => exact absurd ⟨nofun, nofun, nofun⟩ hRest
        | cancellationError => exact absurd ⟨nofun, nofun, nofun⟩ hRest
      | _ => exact absurd ⟨nofun, nofun, nofun⟩ hRest
    | slept =>
      by_cases hTask : (s.slots nid).task = .sleeping
      · rw [advance_slept hTask]
        refine not_legal_attempt fun hLegal => ?_
        have hPair := hLegal ((s.slots nid).status, .running) (List.mem_cons_self ..)
        rw [hTask] at hFits
        rcases List.mem_cons.mp hFits with hStatus | hStatus
        · exact hRest ⟨nofun, nofun, fun _ _ => hStatus⟩
        · rw [List.mem_singleton.mp hStatus] at hPair
          exact absurd hPair (by decide)
      · exact absurd ⟨nofun, nofun, fun _ h => absurd h hTask⟩ hRest
    | _ => exact absurd ⟨nofun, nofun, nofun⟩ hRest

-- ------ The loop

theorem Legal.applyCancel (h : slot.Legal) {forced : Bool}
    (hStatus : slot.status ∈ [NodeStatus.pending, .running, .retrying, .cancelled] ∨
      slot.status.Terminal) : (slot.applyCancel forced).Legal := by
  unfold Slot.applyCancel
  split
  · exact h
  · next hOpen =>
    split
    · refine Slot.Legal.assign h rfl ?_
      show Permitted slot.status .cancelled
      have hMem := hStatus.resolve_right hOpen
      generalize slot.status = status at hMem
      revert status
      simp only [List.mem_cons, List.not_mem_nil, or_false, forall_eq_or_imp, forall_eq]
      exact ⟨by decide, by decide, by decide, by decide⟩
    · exact h

theorem SlotInv.status_cases {raised token : Bool} (h : SlotInv raised token node slot) :
    slot.status ∈ [NodeStatus.pending, .running, .retrying, .cancelled] ∨
      slot.status.Terminal := by
  have hFits := h.fits
  generalize slot.task = task at hFits
  cases task <;>
    · simp only [Task.statuses, List.mem_cons, List.not_mem_nil, or_false] at hFits
      simp only [NodeStatus.Terminal, terminalStatuses, List.mem_cons, List.not_mem_nil, or_false]
      tauto

theorem Legal.cancel (hInv : Base job s) (h : Legal job s) (mode : CancelMode)
    (nodeId : Option NodeId) (forced : Bool) :
    Legal job (s.cancel job mode nodeId forced) := by
  obtain ⟨-, -, -, -, -, hSlots⟩ := cancel_frame job s mode nodeId forced
  intro nid hnid
  rcases hSlots nid with hEq | hEq
  · rw [hEq]
    exact h nid hnid
  · obtain ⟨node, hNode⟩ := Job.exists_node hnid
    rw [hEq]
    exact Legal.applyCancel (h nid hnid) (hInv.slots nid node hNode).status_cases

theorem settle_legal {layer : List NodeId} (hRest : AtRest job layer s) (h : Legal job s) :
    Legal job (settle job layer s) := by
  rcases settle_cases hRest with ⟨-, hEq⟩ | ⟨nid, -, -, -, done, -, hDone, hEq⟩
  · rw [hEq]
    exact h
  · rw [hEq]
    have hFailed : Base job
        { s.complete done with phase := .failed, error := (s.slots nid).error } :=
      { hDone.toBase with }
    exact Legal.cancel hFailed h .graph none false

theorem Round.legal {s' : Executor R} {late : Bool} (h : Legal job s) (hRound : Round job s late s')
    (hLate : s.Incomplete job → s.token.cancelled = false → ¬ (job.hasDeadline && late) = true) :
    Legal job s' := by
  cases hRound with
  | cancelled => exact h
  | deadline hMore hToken hFires => exact absurd hFires (hLate hMore hToken)
  | layer =>
    intro nid hnid
    show Slot.Legal (if nid ∈ s.readyLayer job then { s.slots nid with task := .spawned }
      else s.slots nid)
    split
    · exact h nid hnid
    · exact h nid hnid
  | done =>
    obtain ⟨phase, -, succeeded, output, hEq⟩ := conclude_eq job s
    rw [hEq]
    exact h

theorem Round.not_legal {s' : Executor R} {late : Bool} (hRest : AtRest job [] s)
    (hRound : Round job s late s') (hMore : s.Incomplete job) (hToken : s.token.cancelled = false)
    (hFires : (job.hasDeadline && late) = true) : ¬ Legal job s' := by
  obtain ⟨v, hv, hOut⟩ := hRest.incomplete_iff.mp hMore
  obtain ⟨-, hPending⟩ := hRest.untouched hToken hv hOut
  cases hRound with
  | cancelled _ hTrue => simp [hToken] at hTrue
  | layer _ _ hNot => simp [hFires] at hNot
  | done hAll => exact absurd hMore hAll
  | deadline =>
    obtain ⟨phase, -, succeeded, output, hEq⟩ := conclude_eq job (s.timeoutRemaining job)
    rw [hEq]
    intro hLegal
    have hOpen : s.Unfinished job v := by
      refine ⟨hv, hOut, ?_⟩
      unfold Executor.status
      rw [hPending]
      decide
    refine absurd (hLegal v hv (.pending, .timedOut) ?_) (by decide)
    show _ ∈ (if s.Unfinished job v then (s.slots v).expireWorkflow else s.slots v).assigned
    rw [if_pos hOpen, ← hPending]
    exact List.mem_cons_self ..

theorem AtRest.incomplete_iff_idle (h : AtRest job [] s) (hToken : s.token.cancelled = false) :
    s.Incomplete job ↔ ∃ nid ∈ job.graph.ids, (s.slots nid).task = .idle := by
  rw [h.incomplete_iff]
  constructor
  · rintro ⟨nid, hnid, hOut⟩
    exact ⟨nid, hnid, (h.untouched hToken hnid hOut).1⟩
  · rintro ⟨nid, hnid, hIdle⟩
    refine ⟨nid, hnid, fun hIn => ?_⟩
    obtain ⟨node, hNode⟩ := Job.exists_node hnid
    have hTerminal := (h.done nid hIn).1
    unfold Executor.status at hTerminal
    -- an idle node is pending, or cancelled by somebody
    rcases h.idle nid hIdle with hStatus | hStatus
    · rw [hStatus] at hTerminal
      exact absurd hTerminal (by decide)
    · rcases (h.slots nid node hNode).cancelled hStatus with hTask | hTrue
      · simp [hIdle] at hTask
      · simp [hToken] at hTrue

/-- The round of the loop past the deadline, with something left to begin. -/
def Overdue (job : Job) (s : Executor R) (late : Bool) : Prop :=
  s.Incomplete job ∧ s.token.cancelled = false ∧ (job.hasDeadline && late) = true

theorem Round.legal_iff {s' : Executor R} {late : Bool} (hRest : AtRest job [] s) (h : Legal job s)
    (hRound : Round job s late s') : Legal job s' ↔ ¬ Overdue job s late := by
  constructor
  · rintro hLegal ⟨hMore, hToken, hFires⟩
    exact hRound.not_legal hRest hMore hToken hFires hLegal
  · intro hNot
    exact hRound.legal h fun hMore hToken hFires => hNot ⟨hMore, hToken, hFires⟩

theorem overdue_settle_iff {layer : List NodeId} {late : Bool} (hMain : s.main = .gathering layer)
    (hRest : AtRest job layer s) (hFinished : ∀ nid ∈ layer, (s.slots nid).task.isFinished = true) :
    Overdue job (settle job layer s) late ↔ DeadlineFires job s late := by
  have hNext := settle_atRest hRest
  rcases settle_cases hRest with ⟨hFast, hEq⟩ | ⟨nid, hnid, hFast, hFailed, done, -, -, hEq⟩
  · rw [hEq] at hNext ⊢
    constructor
    · rintro ⟨hMore, hToken, hFires⟩
      exact ⟨hFires, hToken, (hNext.incomplete_iff_idle hToken).mp hMore,
        .inr ⟨layer, hMain, hRest.noFailure, hFinished, hFast⟩⟩
    · rintro ⟨hFires, hToken, hIdle, -⟩
      exact ⟨(hNext.incomplete_iff_idle hToken).mpr hIdle, hToken, hFires⟩
  · -- the failed node has cancelled the run
    rw [hEq]
    constructor
    · rintro ⟨-, hToken, -⟩
      cases hToken
    · rintro ⟨-, -, -, hEnter | ⟨layer', hMain', -, -, hNot⟩⟩
      · rw [hMain] at hEnter
        cases hEnter
      · rw [hMain] at hMain'
        cases hMain'
        exact absurd ⟨hFast, nid, hnid, hFailed⟩ hNot

theorem resume_legal_iff (hGraph : job.graph.WellFormed) (hInv : Inv job s) (h : Legal job s)
    (late : Bool) (env : Environment) :
    Legal job (s.resume job late env) ↔ ¬ DeadlineFires job s late := by
  unfold resume
  split
  · next hMain =>
    have hRest := hInv.atRest_entering hMain
    rw [(drive_cases hGraph hRest late env).legal_iff hRest h, not_iff_not]
    constructor
    · rintro ⟨hMore, hToken, hFires⟩
      exact ⟨hFires, hToken, (hRest.incomplete_iff_idle hToken).mp hMore, .inl hMain⟩
    · rintro ⟨hFires, hToken, hIdle, -⟩
      exact ⟨(hRest.incomplete_iff_idle hToken).mpr hIdle, hToken, hFires⟩
  · next layer hMain =>
    split
    · next e hFailure =>
      refine iff_of_true (by cases e <;> exact h) ?_
      rintro ⟨-, -, -, hEnter | ⟨layer', -, hNone, -⟩⟩
      · simp [hMain] at hEnter
      · simp [hFailure] at hNone
    · next hFailure =>
      split
      · next hFinished =>
        have hRest := hInv.atRest_gathering hMain hFailure hFinished
        rw [(drive_cases hGraph (settle_atRest hRest) late env).legal_iff (settle_atRest hRest)
          (settle_legal hRest h), overdue_settle_iff hMain hRest hFinished]
      · next hBusy =>
        refine iff_of_true h ?_
        rintro ⟨-, -, -, hEnter | ⟨layer', hMain', -, hFinished, -⟩⟩
        · simp [hMain] at hEnter
        · rw [hMain] at hMain'
          cases hMain'
          exact hBusy hFinished
  · next hNotEnter hNotGather =>
    refine iff_of_true h ?_
    rintro ⟨-, -, -, hEnter | ⟨layer, hMain, -⟩⟩
    · exact hNotEnter hEnter
    · exact hNotGather layer hMain

-- ------ Runs

theorem step_legal_iff (hGraph : job.graph.WellFormed) (hInv : Inv job s) (h : Legal job s)
    (a : Action R) :
    Legal job (step job s a) ↔ KeepsRules job s a := by
  cases a with
  | node nid a =>
    unfold Executor.step
    dsimp only
    split
    · next hNone =>
      refine iff_of_true h fun node hNode => ?_
      rw [hNone] at hNode
      cases hNode
    · next node hNode =>
      have hSlot := hInv.slots nid node hNode
      constructor
      · intro hLegal node' hNode'
        rw [hNode] at hNode'
        cases hNode'
        by_contra hKeeps
        have hNew := hLegal nid (Job.mem_ids hNode)
        dsimp only at hNew
        rw [setSlot_slots, Function.update_self] at hNew
        exact not_legal_advance hSlot hKeeps hNew
      · intro hKeeps v hv
        dsimp only
        rw [setSlot_slots, Function.update_apply]
        split
        · next hEq =>
          subst hEq
          exact (advance_move job s v node a).legal hSlot (h v hv) (hKeeps node hNode)
        · exact h v hv
  | resume late env => exact resume_legal_iff hGraph hInv h late env
  | cancel mode nodeId forced =>
    refine iff_of_true ?_ trivial
    unfold Executor.step
    dsimp only
    split
    · exact h
    · exact Legal.cancel hInv.toBase h mode nodeId forced

/-- **The declared state machine.** A run makes permitted assignments only exactly when all its
steps keep the rules. -/
theorem transitions_along_iff (nx : Option Networkx) (job : Job) (hValid : job.graph.Valid nx)
    (ops : List (Action R)) :
    Run.Along (step job) (Legal job) (initial job) ops ↔
      Run.Every (step job) (KeepsRules job) (initial job) ops := by
  have hGraph := TaskGraph.valid_iff.mp hValid
  have hLegal : Legal job (initial job : Executor R) := fun _ _ => nofun
  refine Run.along_iff_every (I := fun s => Inv job s ∧ Legal job s) (fun _ h => h.2)
    (fun s a h hKeeps => ⟨h.1.step hGraph a, (step_legal_iff hGraph h.1 h.2 a).mpr hKeeps⟩)
    (fun s a h hNot hNext => hNot ((step_legal_iff hGraph h.1 h.2 a).mp hNext))
    ⟨inv_initial job, hLegal⟩ ops

/-- `a` is cancelled by force while its handler runs; the handler returns in time. -/
def forcedCancel : List (Action Unit) :=
  [.resume false {}, .node "a" (.start {}), .node "a" .call, .cancel .node (some "a") true,
    .node "a" (.finish (.returned none)), .node "a" .wake]

theorem transitions_along_iff_chain :
    Run.Along (step chainJob) (Legal chainJob) (initial chainJob) (forcedCancel.take 4) ↔
      Run.Every (step chainJob) (KeepsRules chainJob) (initial chainJob) (forcedCancel.take 4) :=
  transitions_along_iff none chainJob (by decide +kernel) (forcedCancel.take 4)

/-- The status of a cancelled node becomes `SUCCEEDED`. -/
theorem not_legal_run :
    ¬ ∀ (job : Job), job.graph.Valid none → ∀ ops : List (Action Unit),
      Legal job (after job ops) := by
  intro h
  have hLegal := h chainJob (by decide +kernel) forcedCancel "a" (by decide +kernel)
  exact absurd (hLegal (.cancelled, .succeeded) (by decide +kernel)) (by decide)

end Executor

end Neuroswarm.Swarm
