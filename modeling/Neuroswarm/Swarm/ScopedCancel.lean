import Neuroswarm.Swarm.Reports

/-!
# Task graph — scoped cancellation

`_apply_cancel` marks the nodes of the scope, but `cancel` has set the one token of
the run before, and the loop, every coroutine that has not begun and every call
that is polled look at the token. A node outside the scope keeps what it has, and
nothing else.

* `cancel_contained_iff` — a cancellation of a run without trouble is contained
  exactly when every node outside its scope has its result already.
-/

namespace Neuroswarm.Swarm

variable {R : Type*}

namespace Executor

/-- A step without trouble: handlers return what they may, nothing runs out of time and
nobody cancels. -/
def Plain (returns : NodeId → Option R → Prop) : Action R → Prop
  | .node nid (.finish outcome) => ∃ result, outcome = .returned result ∧ returns nid result
  | .node _ .expire => False
  | .node _ _ => True
  | .resume late _ => late = false
  | .cancel .. => False

/-- A run without trouble that leads from `s` to its end. -/
def Completes (job : Job) (returns : NodeId → Option R → Prop) (s final : Executor R) : Prop :=
  ∃ ops, Run.Every (step job) (fun _ => Plain returns) s ops ∧ final = Run.exec (step job) s ops ∧
    final.Ended

def Targeted (job : Job) (mode : CancelMode) (nid v : NodeId) : Prop :=
  match mode with
  | .graph => v ∈ job.graph.ids
  | .node => v = nid
  | .subtree | .downstream => Relation.ReflTransGen job.graph.Precedes nid v

/-- However the run goes on, with and without the cancellation, a node outside the target
set ends with the same status and result. -/
def Contained (job : Job) (returns : NodeId → Option R → Prop) (s : Executor R)
    (mode : CancelMode) (nid : NodeId) (forced : Bool) : Prop :=
  ∀ final final', Completes job returns (s.cancel job mode (some nid) forced) final →
    Completes job returns s final' → ∀ v ∈ job.graph.ids, ¬ Targeted job mode nid v →
      final.status v = final'.status v ∧ (final.slots v).result = (final'.slots v).result

def Settled (s : Executor R) (v : NodeId) : Prop :=
  s.status v = .succeeded ∨ ∃ result, (s.slots v).task = .handled (.returned result)

-- ------ What a step does to a node

theorem step_node (job : Job) (s : Executor R) (nid : NodeId) (a : NodeAction R) :
    (step job s (.node nid a)).token = s.token ∧ (step job s (.node nid a)).main = s.main ∧
      (step job s (.node nid a)).completed = s.completed ∧
      ∀ v, (step job s (.node nid a)).slots v = s.slots v ∨
        (v = nid ∧ ∃ node slot e, job.node nid = some node ∧ Move job s nid node a slot e ∧
          (step job s (.node nid a)).slots v = slot) := by
  unfold step
  dsimp only
  split
  · exact ⟨rfl, rfl, rfl, fun _ => .inl rfl⟩
  · next node hNode =>
    refine ⟨rfl, rfl, rfl, fun v => ?_⟩
    dsimp only
    rw [setSlot_slots, Function.update_apply]
    split
    · next hEq => exact .inr ⟨hEq, node, _, _, hNode, advance_move job s nid node a, rfl⟩
    · exact .inl rfl

variable {job : Job} {s : Executor R}

theorem Round.slot {s' : Executor R} (hRest : AtRest job [] s) (hRound : Round job s false s') :
    s'.token = s.token ∧ ∀ nid, s'.slots nid = s.slots nid ∨
      (s.token.cancelled = false ∧ (s.slots nid).task = .idle ∧
        s'.slots nid = { s.slots nid with task := .spawned }) := by
  cases hRound with
  | cancelled => exact ⟨rfl, fun _ => .inl rfl⟩
  | deadline _ _ hLate =>
    rw [Bool.and_false] at hLate
    cases hLate
  | layer _ hToken =>
    refine ⟨rfl, fun nid => ?_⟩
    have hSlot : (s.spawn (s.readyLayer job)).slots nid =
        if nid ∈ s.readyLayer job then { s.slots nid with task := .spawned } else s.slots nid := rfl
    rw [hSlot]
    split
    · next hIn =>
      obtain ⟨hIds, hOut, -⟩ := (hRest.mem_readyLayer hToken).mp hIn
      exact .inr ⟨hToken, (hRest.untouched hToken hIds hOut).1, rfl⟩
    · exact .inl rfl
  | done =>
    obtain ⟨phase, -, succeeded, output, hEq⟩ := conclude_eq job s
    rw [hEq]
    exact ⟨rfl, fun _ => .inl rfl⟩

theorem resume_slot (hGraph : job.graph.WellFormed) (hInv : Inv job s) (env : Environment) :
    ((s.resume job false env).token = s.token ∧
      ∀ nid, (s.resume job false env).slots nid = s.slots nid ∨
        (s.token.cancelled = false ∧ (s.slots nid).task = .idle ∧
          (s.resume job false env).slots nid = { s.slots nid with task := .spawned })) ∨
    ((∃ nid, s.status nid = .failed) ∧ (s.resume job false env).token.cancelled = true ∧
      ∀ nid, (s.slots nid).task.Quiet ∧
        ((s.resume job false env).slots nid = s.slots nid ∨
          (s.resume job false env).slots nid = (s.slots nid).applyCancel false)) := by
  have hResumed := resume_cases hGraph hInv false env
  generalize s.resume job false env = s' at hResumed
  cases hResumed with
  | waiting => exact .inl ⟨rfl, fun _ => .inl rfl⟩
  | failed layer e => cases e <;> exact .inl ⟨rfl, fun _ => .inl rfl⟩
  | entered _ _ hRest hRound => exact .inl (hRound.slot hRest)
  | settled layer _ _ hRest hRound =>
    have hNext := hRound.slot (settle_atRest hRest)
    rcases settle_cases hRest with ⟨-, hEq⟩ | ⟨nid, -, -, hFailed, done, -, -, hEq⟩
    · rw [hEq] at hNext
      exact .inl hNext
    · obtain ⟨-, -, -, -, hToken, hSlots⟩ := cancel_frame job
        { s.complete done with phase := .failed, error := (s.slots nid).error } .graph none false
      rw [← hEq] at hToken hSlots
      refine .inr ⟨⟨nid, hFailed⟩, ?_, fun v => ⟨hRest.quiet v, ?_⟩⟩
      · rw [hNext.1]
        exact hToken
      · -- the token is set, so the round that follows creates no coroutine
        rcases hNext.2 v with hSame | ⟨hOpen, -⟩
        · rw [hSame]
          exact hSlots v
        · rw [hToken] at hOpen
          cases hOpen

-- ------ Runs without trouble

/-- A node of a run without trouble and without cancellation. -/
def Smooth (slot : Slot R) : Prop :=
  match slot.task with
  | .idle | .spawned => slot.status = .pending ∧ slot.attempts = 0
  | .calling | .handling | .handled (.returned _) => slot.status = .running
  | .finished => slot.status = .succeeded
  | _ => False

variable {slot : Slot R}

theorem Smooth.not_failed (h : Smooth slot) : slot.status ≠ .failed := by
  intro hStatus
  unfold Smooth at h
  rw [hStatus] at h
  split at h <;> simp_all

variable {node : TaskNode} {returns : NodeId → Option R → Prop}

variable {nid : NodeId}

theorem TimesOut.of_plain {a : NodeAction R} {task : Task R} (hPlain : Plain returns (.node nid a))
    (h : TimesOut job node a task) :
    task = .handled .timeoutError := by
  cases a with
  | wake =>
    cases task with
    | handled outcome =>
      cases outcome with
      | timeoutError => rfl
      | _ => exact h.elim
    | _ => exact h.elim
  | expire => exact hPlain.elim
  | _ => cases task <;> exact h.elim

variable {e : Option GraphException}

theorem Move.smooth {a : NodeAction R} (hMove : Move job s nid node a slot e)
    (hPlain : Plain returns (.node nid a)) (hToken : s.token.cancelled = false)
    (hRequested : (s.slots nid).cancelRequested = false) (hTries : 0 < node.retryPolicy.maxAttempts)
    (hRun : ∀ env, s.shouldRun job nid node env = .ok true) (h : Smooth (s.slots nid)) :
    Smooth slot := by
  unfold Smooth at h
  cases hMove with
  | stay => exact h
  | startCancelled _ _ hCancel =>
    rw [hToken, hRequested] at hCancel
    simp at hCancel
  | startRaised env _ _ _ hRaised =>
    rw [hRun env] at hRaised
    cases hRaised
  | startSkipped env _ _ hSkipped =>
    rw [hRun env] at hSkipped
    cases hSkipped
  | startRunning => rfl
  -- a node that was never called may try
  | startExhausted _ hTask _ _ hTry =>
    rw [hTask] at h
    unfold Slot.MayTry at hTry
    rw [h.2] at hTry
    exact absurd hTries hTry
  | called hTask =>
    rw [hTask] at h
    exact h
  | finished outcome hTask =>
    rw [hTask] at h
    obtain ⟨result, rfl, -⟩ := hPlain
    unfold Smooth
    dsimp only
    cases job.hasHandler nid node with
    | true => exact h
    | false => exact h
  | succeeded | checkpointed => rfl
  | cancelledInside hTask | failedRetry _ hTask | failedStop _ hTask =>
    rw [hTask] at h
    exact h.elim
  -- a plain schedule lets no time run out
  | timedRetry _ hTimes | timedStop _ hTimes =>
    rw [TimesOut.of_plain hPlain hTimes] at h
    exact h.elim
  | polled _ hCancel =>
    rw [hToken, hRequested] at hCancel
    simp at hCancel
  | drained hTask | sleptCancelled hTask | sleptRunning hTask | sleptExhausted hTask =>
    rw [hTask] at h
    exact h.elim

/-- What holds as long as nothing goes wrong and nobody cancels. -/
structure Undisturbed (job : Job) (s : Executor R) : Prop where
  token : s.token.cancelled = false
  failure : s.failure = none
  smooth : ∀ nid, Smooth (s.slots nid)
  completed : s.Ended → ∀ nid ∈ job.graph.ids, nid ∈ s.completed

theorem undisturbed_initial (job : Job) : Undisturbed job (initial job : Executor R) where
  token := rfl
  failure := rfl
  smooth := fun _ => ⟨rfl, rfl⟩
  completed := fun h => h.elim

theorem failure_none (hGraph : job.graph.WellFormed) (hFree : Unconditional job.graph)
    (hInv : Inv job s) (h : s.failure = none) (a : Action R) :
    (step job s a).failure = none := by
  cases hNext : (step job s a).failure with
  | none => rfl
  | some e =>
    rcases (failure_step hGraph hInv a e).mp hNext with hOld | ⟨-, hRaises⟩
    · rw [h] at hOld
      cases hOld
    · exact absurd hRaises (hFree.not_raises s a e)

theorem Round.completed {s' : Executor R} (hRest : AtRest job [] s)
    (hToken : s.token.cancelled = false) (hRound : Round job s false s') (hEnded : s'.Ended) :
    ∀ nid ∈ job.graph.ids, nid ∈ s'.completed := by
  cases hRound with
  | cancelled _ hTrue =>
    rw [hToken] at hTrue
    cases hTrue
  | deadline _ _ hLate =>
    rw [Bool.and_false] at hLate
    cases hLate
  | layer => exact hEnded.elim
  | done hAll =>
    obtain ⟨phase, -, succeeded, output, hEq⟩ := conclude_eq job s
    rw [hEq]
    intro nid hnid
    by_contra hOut
    exact hAll (hRest.incomplete_iff.mpr ⟨nid, hnid, hOut⟩)

theorem Undisturbed.resume (hGraph : job.graph.WellFormed) (hInv : Inv job s)
    (h : Undisturbed job s) (env : Environment) :
    Undisturbed job (s.resume job false env) := by
  have hNone : ∀ nid, s.status nid ≠ .failed := fun nid => (h.smooth nid).not_failed
  obtain ⟨hToken, hSlots⟩ | ⟨⟨nid, hFailed⟩, -⟩ := resume_slot hGraph hInv env
  · refine ⟨by rw [hToken, h.token], ?_, fun nid => ?_, ?_⟩
    · rw [failure_resume hGraph hInv, h.failure]
    · have hSmooth := h.smooth nid
      rcases hSlots nid with hSame | ⟨-, hIdle, hSpawned⟩
      · rw [hSame]
        exact hSmooth
      · unfold Smooth at hSmooth
        rw [hIdle] at hSmooth
        rw [hSpawned]
        exact hSmooth
    · have hResumed := resume_cases hGraph hInv false env
      generalize s.resume job false env = s' at hResumed hToken
      cases hResumed with
      | waiting => exact h.completed
      | failed _ e _ hFailure =>
        rw [h.failure] at hFailure
        cases hFailure
      | entered _ _ hRest hRound => exact hRound.completed hRest h.token
      | settled layer _ _ hRest hRound =>
        refine hRound.completed (settle_atRest hRest) ?_
        rw [← (hRound.slot (settle_atRest hRest)).1, hToken, h.token]
  · exact absurd hFailed (hNone nid)

variable {a : Action R}

/-- **Step.** -/
theorem Undisturbed.step (hGraph : job.graph.WellFormed) (hFree : Unconditional job.graph)
    (hInv : Inv job s) (h : Undisturbed job s) (hPlain : Plain returns a) :
    Undisturbed job (step job s a) := by
  cases a with
  | node nid a =>
    obtain ⟨hToken, hMain, hCompleted, hSlots⟩ := step_node job s nid a
    refine ⟨by rw [hToken, h.token], failure_none hGraph hFree hInv h.failure _, fun v => ?_, ?_⟩
    · rcases hSlots v with hSame | ⟨rfl, node, slot, e, hNode, hMove, hEq⟩
      · rw [hSame]
        exact h.smooth v
      · rw [hEq]
        have hSlot := hInv.slots v node hNode
        have hRequested : (s.slots v).cancelRequested = false := by
          by_contra hTrue
          have hCancelled := hSlot.requested (Bool.eq_true_of_not_eq_false hTrue)
          rw [h.token] at hCancelled
          cases hCancelled
        have hTries := (hGraph.fields v node hNode).maxAttempts_pos
        exact hMove.smooth hPlain h.token hRequested hTries (hFree.shouldRun s hNode) (h.smooth v)
    · unfold Ended
      rw [hMain, hCompleted]
      exact h.completed
  | resume late env =>
    cases hPlain
    exact h.resume hGraph hInv env
  | cancel => exact hPlain.elim

-- ------ Cancelled runs

/-- A node of a cancelled run that will not succeed. -/
def Doomed (slot : Slot R) : Prop :=
  match slot.task with
  | .idle | .spawned | .draining | .sleeping => True
  | .finished => slot.status ≠ .succeeded
  | _ => False

theorem Move.doomed {a : NodeAction R} (hMove : Move job s nid node a slot e)
    (hToken : s.token.cancelled = true) (h : Doomed (s.slots nid)) : Doomed slot := by
  unfold Doomed at h
  cases hMove with
  | stay => exact h
  | startCancelled | drained | sleptCancelled => exact NodeStatus.noConfusion
  | startRaised _ _ _ hCancel | startSkipped _ _ hCancel | startRunning _ _ hCancel
  | startExhausted _ _ hCancel => exact absurd (.inr hToken) hCancel
  | called hTask | finished _ hTask | succeeded _ hTask | checkpointed _ hTask
  | cancelledInside hTask | failedRetry _ hTask | failedStop _ hTask =>
    rw [hTask] at h
    exact h.elim
  | timedRetry _ hTimes | timedStop _ hTimes =>
    generalize (s.slots nid).task = task at h hTimes
    cases a with
    | wake | expire => cases task <;> first | exact h.elim | exact hTimes.elim
    | _ => cases task <;> exact hTimes.elim
  | polled => trivial
  | sleptRunning _ _ hCancel => exact absurd hToken hCancel
  | sleptExhausted => exact NodeStatus.noConfusion

/-- A cancelled run in which `v` will not succeed. -/
def DoomedAt (v : NodeId) (s : Executor R) : Prop :=
  s.token.cancelled = true ∧ Doomed (s.slots v)

theorem Doomed.applyCancel (h : Doomed slot) (forced : Bool) :
    Doomed (slot.applyCancel forced) := by
  unfold Doomed at h ⊢
  rw [applyCancel_task]
  cases hTask : slot.task with
  | finished =>
    rw [hTask] at h
    rcases applyCancel_status forced slot with hStatus | hStatus
    · rw [hStatus]
      exact h
    · rw [hStatus]
      exact NodeStatus.noConfusion
  | _ =>
    rw [hTask] at h
    exact h

variable {v : NodeId}

/-- **Step.** No plain step saves the node. -/
theorem DoomedAt.step (hGraph : job.graph.WellFormed) (hInv : Inv job s) (h : DoomedAt v s)
    (hPlain : Plain returns a) : DoomedAt v (step job s a) := by
  obtain ⟨hToken, hDoomed⟩ := h
  cases a with
  | node nid a =>
    obtain ⟨hSame, -, -, hSlots⟩ := step_node job s nid a
    refine ⟨by rw [hSame, hToken], ?_⟩
    rcases hSlots v with hEq | ⟨rfl, node, slot, e, -, hMove, hEq⟩
    · rw [hEq]
      exact hDoomed
    · rw [hEq]
      exact hMove.doomed hToken hDoomed
  | resume late env =>
    cases hPlain
    show DoomedAt v (s.resume job false env)
    obtain ⟨hSame, hSlots⟩ | ⟨-, hTrue, hSlots⟩ := resume_slot hGraph hInv env
    · refine ⟨by rw [hSame, hToken], ?_⟩
      rcases hSlots v with hEq | ⟨hFalse, -⟩
      · rw [hEq]
        exact hDoomed
      · rw [hToken] at hFalse
        cases hFalse
    · refine ⟨hTrue, ?_⟩
      rcases (hSlots v).2 with hEq | hEq
      · rw [hEq]
        exact hDoomed
      · rw [hEq]
        exact hDoomed.applyCancel false
  | cancel => exact hPlain.elim

theorem Doomed.not_succeeded {raised token : Bool} (h : Doomed slot)
    (hSlot : SlotInv raised token node slot) : slot.status ≠ .succeeded := by
  intro hStatus
  have hFits := hSlot.fits
  unfold Doomed at h
  rw [hStatus] at hFits h
  cases hTask : slot.task with
  | finished =>
    rw [hTask] at h
    exact h rfl
  | idle | spawned | draining | sleeping =>
    rw [hTask] at hFits
    simp [Task.statuses] at hFits
  | calling | handling | handled =>
    rw [hTask] at h
    exact h

-- ------ Nodes whose result is in

/-- The node has succeeded with this result, or is about to. -/
def Delivers (result : Option R) (slot : Slot R) : Prop :=
  slot.task = .handled (.returned result) ∨
    (slot.task = .finished ∧ slot.status = .succeeded ∧ slot.result = result)

theorem Move.delivers {result : Option R} {a : NodeAction R} (hMove : Move job s nid node a slot e)
    (hPlain : Plain returns (.node nid a)) (h : Delivers result (s.slots nid)) :
    Delivers result slot := by
  rcases h with hHandled | hDone
  · cases hMove with
    | stay => exact .inl hHandled
    | succeeded _ hTask | checkpointed _ hTask =>
      rw [hHandled] at hTask
      cases hTask
      exact .inr ⟨rfl, rfl, rfl⟩
    | timedRetry _ hTimes | timedStop _ hTimes =>
      have hTask := TimesOut.of_plain hPlain hTimes
      rw [hHandled] at hTask
      cases hTask
    | polled hTask =>
      rw [hHandled] at hTask
      rcases hTask with hTask | hTask
      · cases hTask
      · cases hTask
    | startCancelled _ hTask | startRaised _ _ hTask | startSkipped _ hTask
    | startRunning _ hTask | startExhausted _ hTask | called hTask | finished _ hTask
    | cancelledInside hTask | failedRetry _ hTask | failedStop _ hTask | drained hTask
    | sleptCancelled hTask | sleptRunning hTask | sleptExhausted hTask =>
      rw [hHandled] at hTask
      cases hTask
  · have hQuiet : (s.slots nid).task.Quiet := by
      rw [hDone.1]
      trivial
    rw [(hMove.of_quiet hQuiet).1]
    exact .inr hDone

/-- **Step.** -/
theorem Delivers.step (hGraph : job.graph.WellFormed) {result : Option R} (hInv : Inv job s)
    (h : Delivers result (s.slots v)) (hPlain : Plain returns a) :
    Delivers result ((step job s a).slots v) := by
  cases a with
  | node nid a =>
    obtain ⟨-, -, -, hSlots⟩ := step_node job s nid a
    rcases hSlots v with hEq | ⟨rfl, node, slot, e, -, hMove, hEq⟩
    · rw [hEq]
      exact h
    · rw [hEq]
      exact hMove.delivers hPlain h
  | resume late env =>
    cases hPlain
    show Delivers result ((s.resume job false env).slots v)
    obtain ⟨-, hSlots⟩ | ⟨-, -, hSlots⟩ := resume_slot hGraph hInv env
    · rcases hSlots v with hEq | ⟨-, hIdle, -⟩
      · rw [hEq]
        exact h
      · rcases h with hTask | ⟨hTask, -⟩
        · rw [hIdle] at hTask
          cases hTask
        · rw [hIdle] at hTask
          cases hTask
    · obtain ⟨hQuiet, hEq⟩ := hSlots v
      -- the result has been taken, and the status is final
      have hDone := h.resolve_left fun hTask => by
        rw [hTask] at hQuiet
        exact hQuiet
      have hTerminal : (s.slots v).status.Terminal := by
        rw [hDone.2.1]
        decide
      rw [applyCancel_terminal hTerminal, or_self] at hEq
      rw [hEq]
      exact h
  | cancel => exact hPlain.elim

-- ------ Complete runs

variable {final : Executor R}

theorem Completes.invariant {P : Executor R → Prop}
    (hStep : ∀ s a, P s → Plain returns a → P (step job s a)) (h : Completes job returns s final)
    (h0 : P s) : P final := by
  obtain ⟨ops, hPlain, rfl, -⟩ := h
  exact (Run.along_of_every hStep h0 hPlain).exec

theorem plain_of_ordinary {result : NodeId → Option R} (hReturns : ∀ nid, returns nid (result nid))
    (h : Ordinary (fun nid => .returned (result nid)) a) : Plain returns a := by
  cases a with
  | node nid a =>
    cases a with
    | finish outcome => exact ⟨result nid, h, hReturns nid⟩
    | _ => exact h
  | resume => exact h
  | cancel => exact h

/-- **A run without trouble can always be completed.** -/
theorem exists_completes (hGraph : job.graph.WellFormed)
    (hTotal : ∀ nid, ∃ result, returns nid result) (hInv : Inv job s) :
    ∃ final, Completes job returns s final := by
  choose result hReturns using hTotal
  obtain ⟨ops, hPlain, hEnded⟩ := Run.exists_run_of_measure (I := Inv job) (P := Ended)
    (C := fun _ => Plain returns) (μ := work job) (fun _ a h _ => h.step hGraph a)
    (fun s h hOpen => by
      obtain ⟨a, hEnabled, hOrdinary⟩ := exists_enabled h hOpen fun nid => .returned (result nid)
      exact ⟨a, plain_of_ordinary hReturns hOrdinary, (work_step hGraph h a).2 hEnabled⟩) hInv
  exact ⟨_, ops, hPlain, rfl, hEnded⟩

theorem Completes.cons (hPlain : Plain returns a) (h : Completes job returns (step job s a) final) :
    Completes job returns s final := by
  obtain ⟨ops, hOps, rfl, hEnded⟩ := h
  exact ⟨a :: ops, ⟨hPlain, hOps⟩, rfl, hEnded⟩

/-- A run on an unconditional graph. -/
structure Sound (job : Job) (s : Executor R) : Prop extends Inv job s where
  outcomes : Outcomes s
  noFailure : s.failure = none

theorem Sound.step (hGraph : job.graph.WellFormed) (hFree : Unconditional job.graph)
    (h : Sound job s) (a : Action R) : Sound job (step job s a) where
  toInv := h.toInv.step hGraph a
  outcomes := h.outcomes.step hGraph h.toInv a
  noFailure := failure_none hGraph hFree h.toInv h.noFailure a

theorem Sound.cancel (h : Sound job s) (hMain : s.main ≠ .entering) (mode : CancelMode)
    (nodeId : Option NodeId) (forced : Bool) :
    Sound job (s.cancel job mode nodeId forced) where
  toInv := h.toInv.cancel hMain mode nodeId forced
  outcomes := h.outcomes.cancel mode nodeId forced
  noFailure := by
    rw [(cancel_frame ..).2.2.1]
    exact h.noFailure

theorem Completes.delivers (hGraph : job.graph.WellFormed) (hFree : Unconditional job.graph)
    (hSound : Sound job s) (h : Completes job returns s final) {result : Option R}
    (hDelivers : Delivers result (s.slots v)) :
    final.status v = .succeeded ∧ (final.slots v).result = result := by
  obtain ⟨hFinal, hLast⟩ := h.invariant
    (P := fun s => Sound job s ∧ Delivers result (s.slots v))
    (fun s a hs hPlain => ⟨hs.1.step hGraph hFree a, hs.2.step hGraph hs.1.toInv hPlain⟩)
    ⟨hSound, hDelivers⟩
  obtain ⟨-, -, -, hEnded⟩ := h
  rcases hLast with hTask | ⟨-, hDone⟩
  · have hQuiet := hFinal.outcomes.quiet hEnded hFinal.noFailure v
    rw [hTask] at hQuiet
    exact hQuiet.elim
  · exact hDone

theorem Completes.doomed (hGraph : job.graph.WellFormed) (hInv : Inv job s)
    (h : Completes job returns s final) (hv : v ∈ job.graph.ids) (hDoomed : DoomedAt v s) :
    final.status v ≠ .succeeded := by
  obtain ⟨hFinal, -, hLast⟩ := h.invariant (P := fun s => Inv job s ∧ DoomedAt v s)
    (fun s a hs hPlain => ⟨hs.1.step hGraph a, hs.2.step hGraph hs.1 hPlain⟩) ⟨hInv, hDoomed⟩
  obtain ⟨node, hNode⟩ := Job.exists_node hv
  exact hLast.not_succeeded (hFinal.slots v node hNode)

theorem Completes.undisturbed (hGraph : job.graph.WellFormed) (hFree : Unconditional job.graph)
    (hInv : Inv job s) (hUndisturbed : Undisturbed job s) (h : Completes job returns s final)
    (hv : v ∈ job.graph.ids) : final.status v = .succeeded := by
  obtain ⟨hFinal, hLast⟩ := h.invariant (P := fun s => Inv job s ∧ Undisturbed job s)
    (fun s a hs hPlain => ⟨hs.1.step hGraph a, hs.2.step hGraph hFree hs.1 hPlain⟩)
    ⟨hInv, hUndisturbed⟩
  obtain ⟨-, -, -, hEnded⟩ := h
  obtain ⟨hTerminal, hQuiet⟩ := hFinal.done v (hLast.completed hEnded v hv)
  have hSmooth := hLast.smooth v
  unfold Executor.status at *
  unfold Smooth at hSmooth
  cases hTask : (final.slots v).task with
  | finished =>
    rw [hTask] at hSmooth
    exact hSmooth
  | idle =>
    rw [hTask] at hSmooth
    rw [hSmooth.1] at hTerminal
    exact absurd hTerminal (by decide)
  | _ =>
    rw [hTask] at hQuiet
    exact hQuiet.elim

-- ------ The scope

theorem cancel_slot (s : Executor R) {mode : CancelMode} (forced : Bool)
    (hNot : ¬ Targeted job mode nid v) :
    (s.cancel job mode (some nid) forced).slots v = s.slots v := by
  have hOut : ∀ targets, cancelTargets job.graph mode (some nid) = some targets → v ∉ targets := by
    intro targets hTargets hv
    -- an empty id counts as none: the whole graph, or nothing, is targeted
    by_cases hEmpty : nid = ""
    · have hTruthy : truthy (some nid) = none := by
        rw [hEmpty]
        rfl
      unfold cancelTargets at hTargets
      rw [hTruthy] at hTargets
      cases mode with
      | graph =>
        cases hTargets
        exact hNot hv
      | node | subtree | downstream =>
        cases hTargets
        cases hv
    · have hTruthy : truthy (some nid) = some nid := by
        unfold truthy
        simp [hEmpty]
      unfold cancelTargets at hTargets
      rw [hTruthy] at hTargets
      cases mode with
      | graph =>
        cases hTargets
        exact hNot hv
      | node =>
        dsimp only at hTargets
        split at hTargets
        · cases hTargets
          exact hNot (List.mem_singleton.mp hv)
        · cases hTargets
      | subtree => exact hNot ((TaskGraph.mem_reachableFrom hTargets).mp hv)
      | downstream =>
        dsimp only at hTargets
        unfold TaskGraph.downstream at hTargets
        cases hSeen : job.graph.reachableFrom nid with
        | none =>
          rw [hSeen] at hTargets
          cases hTargets
        | some seen =>
          rw [hSeen] at hTargets
          cases hTargets
          rcases List.mem_cons.mp hv with rfl | hv
          · exact hNot .refl
          · exact hNot ((TaskGraph.mem_reachableFrom hSeen).mp (List.mem_filter.mp hv).1)
  unfold Executor.cancel
  dsimp only
  cases hTargets : cancelTargets job.graph mode (some nid) with
  | none => rfl
  | some targets =>
    dsimp only
    rw [onSlots_slots, if_neg (hOut targets hTargets)]

theorem exists_lost (hGraph : job.graph.WellFormed) (hTotal : ∀ nid, ∃ result, returns nid result)
    (hInv : Inv job s) (hToken : s.token.cancelled = true) (hv : v ∈ job.graph.ids)
    (hTask : Doomed (s.slots v) ∨ (s.slots v).task = .calling ∨ (s.slots v).task = .handling) :
    ∃ final, Completes job returns s final ∧ final.status v ≠ .succeeded := by
  rcases hTask with hDoomed | hBusy
  · obtain ⟨final, hFinal⟩ := exists_completes hGraph hTotal hInv
    exact ⟨final, hFinal, hFinal.doomed hGraph hInv hv ⟨hToken, hDoomed⟩⟩
  · obtain ⟨node, hNode⟩ := Job.exists_node hv
    have hInv' := hInv.step hGraph (.node v .poll)
    have hPolled : DoomedAt v (step job s (.node v .poll)) := by
      obtain ⟨hSame, -, -, -⟩ := step_node job s v .poll
      refine ⟨by rw [hSame, hToken], ?_⟩
      unfold step
      dsimp only
      rw [hNode]
      dsimp only
      rw [setSlot_slots, Function.update_self]
      dsimp only [advance]
      rcases hBusy with hBusy | hBusy
      · rw [hBusy]
        dsimp only
        rw [if_pos (.inl hToken)]
        trivial
      · rw [hBusy]
        dsimp only
        rw [if_pos (.inl hToken)]
        trivial
    have hPlain : Plain returns (.node v .poll) := trivial
    obtain ⟨final, hFinal⟩ := exists_completes hGraph hTotal hInv'
    exact ⟨final, hFinal.cons hPlain, hFinal.doomed hGraph hInv' hv hPolled⟩

/-- **Containment.** At any moment of a run without trouble, a cancellation leaves the nodes
outside its target set their status and result exactly when they have them already. -/
theorem cancel_contained_iff (nx : Option Networkx) (job : Job) (hValid : job.graph.Valid nx)
    (hFree : Unconditional job.graph) (returns : NodeId → Option R → Prop)
    (hTotal : ∀ nid, ∃ result, returns nid result) (ops : List (Action R))
    (hPlain : Run.Every (step job) (fun _ => Plain returns) (initial job) ops)
    (hBegun : (after job ops).main ≠ .entering) (mode : CancelMode) (nid : NodeId)
    (forced : Bool) :
    Contained job returns (after job ops) mode nid forced ↔
      ∀ v ∈ job.graph.ids, ¬ Targeted job mode nid v → Settled (after job ops) v := by
  have hGraph := TaskGraph.valid_iff.mp hValid
  obtain ⟨hSound, hUndisturbed⟩ :=
    (Run.along_of_every (I := fun s => Sound job s ∧ Undisturbed job s)
      (fun s a h hA => ⟨h.1.step hGraph hFree a, h.2.step hGraph hFree h.1.toInv hA⟩)
      ⟨⟨inv_initial job, Outcomes.of_open id, rfl⟩, undisturbed_initial job⟩ hPlain).exec
  change Sound job (after job ops) at hSound
  change Undisturbed job (after job ops) at hUndisturbed
  generalize after job ops = s at *
  have hCancelled := hSound.cancel hBegun mode (some nid) forced
  constructor
  · intro hContained v hv hOut
    by_contra hNot
    -- one way to go on loses `v` after the cancellation; without it `v` succeeds
    have hTask : Doomed (s.slots v) ∨ (s.slots v).task = .calling ∨
        (s.slots v).task = .handling := by
      have hSmooth := hUndisturbed.smooth v
      unfold Smooth at hSmooth
      unfold Doomed
      unfold Settled Executor.status at hNot
      cases hTask : (s.slots v).task with
      | idle | spawned => exact .inl trivial
      | calling => exact .inr (.inl rfl)
      | handling => exact .inr (.inr rfl)
      | handled outcome =>
        rw [hTask] at hSmooth hNot
        cases outcome with
        | returned result => exact absurd (.inr ⟨result, rfl⟩) hNot
        | _ => exact hSmooth.elim
      | finished =>
        rw [hTask] at hSmooth
        exact absurd (.inl hSmooth) hNot
      | draining | sleeping =>
        rw [hTask] at hSmooth
        exact hSmooth.elim
    rw [← cancel_slot s forced hOut] at hTask
    obtain ⟨final, hFinal, hLost⟩ :=
      exists_lost hGraph hTotal hCancelled.toInv (cancel_frame ..).2.2.2.2.1 hv hTask
    obtain ⟨final', hFinal'⟩ := exists_completes hGraph hTotal hSound.toInv
    refine hLost ?_
    rw [(hContained final final' hFinal hFinal' v hv hOut).1]
    exact hFinal'.undisturbed hGraph hFree hSound.toInv hUndisturbed hv
  · intro hSettled final final' hFinal hFinal' v hv hOut
    have hDelivers : ∃ result, Delivers result (s.slots v) := by
      rcases hSettled v hv hOut with hStatus | ⟨result, hTask⟩
      · have hSmooth := hUndisturbed.smooth v
        unfold Smooth at hSmooth
        unfold Executor.status at hStatus
        rw [hStatus] at hSmooth
        refine ⟨_, .inr ⟨?_, hStatus, rfl⟩⟩
        revert hSmooth
        cases (s.slots v).task with
        | finished => exact fun _ => rfl
        | handled outcome => cases outcome <;> simp
        | _ => simp
      · exact ⟨result, .inl hTask⟩
    obtain ⟨result, hDelivers⟩ := hDelivers
    obtain ⟨hStatus', hResult'⟩ := hFinal'.delivers hGraph hFree hSound hDelivers
    rw [← cancel_slot s forced hOut] at hDelivers
    obtain ⟨hStatus, hResult⟩ := hFinal.delivers hGraph hFree hCancelled hDelivers
    rw [hStatus, hStatus', hResult, hResult']
    exact ⟨rfl, rfl⟩

-- ------ Two nodes

/-- The chain up to the call of `b`. -/
def lastCall : List (Action Unit) :=
  [.resume false {}, .node "a" (.start {}), .node "a" .call, .node "a" (.finish (.returned none)),
    .node "a" .wake, .resume false {}, .node "b" (.start {}), .node "b" .call]

theorem cancel_contained_iff_lastCall :
    Contained chainJob (fun _ result => result = none) (after chainJob lastCall) .node "b" false := by
  have hPlain : Run.Every (step chainJob) (fun _ => Plain fun _ result => result = none)
      (initial chainJob) lastCall :=
    ⟨rfl, trivial, trivial, ⟨none, rfl, rfl⟩, trivial, rfl, trivial, trivial, trivial⟩
  refine (cancel_contained_iff none chainJob (by decide +kernel) chainJob_unconditional
    (fun _ result => result = none) (fun _ => ⟨none, rfl⟩) lastCall hPlain nofun .node "b" false).mpr fun v hv hOut => ?_
  rcases List.mem_cons.mp hv with rfl | hv
  · exact .inl (by decide +kernel)
  · exact absurd (List.mem_singleton.mp hv) hOut

/-- Two nodes without an edge. -/
def pairJob : Job where
  graph :=
    { graphId := "g"
      nodes := (Dict.empty.set "a" { id := "a" }).set "b" { id := "b" } }

def bothRun : List (Action Unit) :=
  [.resume false {}, .node "a" (.start {}), .node "a" .call, .node "b" (.start {}),
    .node "b" .call]

/-- The calls end, cancelled or not. -/
def bothCancelled : List (Action Unit) :=
  [.node "a" .poll, .node "a" .drained, .node "b" .poll, .node "b" .drained, .resume false {}]

def bothReturn : List (Action Unit) :=
  [.node "a" (.finish (.returned none)), .node "a" .wake, .node "b" (.finish (.returned none)),
    .node "b" .wake, .resume false {}]

/-- The cancelled subtree of `a` takes `b` with it. -/
theorem not_cancel_contained :
    ¬ ∀ (job : Job), job.graph.Valid none → Unconditional job.graph →
      ∀ returns : NodeId → Option Unit → Prop, (∀ nid, ∃ result, returns nid result) →
      ∀ ops : List (Action Unit), Run.Every (step job) (fun _ => Plain returns) (initial job) ops →
      (after job ops).main ≠ .entering → ∀ nid ∈ job.graph.ids,
        Contained job returns (after job ops) .subtree nid false := by
  intro h
  have hFree : Unconditional pairJob.graph :=
    { edges := nofun
      nodes := by
        intro nid node hGet
        rcases List.mem_cons.mp (Dict.mem_entries_iff.mpr hGet) with hEq | hMem
        · cases hEq
          rfl
        · cases List.mem_singleton.mp hMem
          rfl }
  have hPlain : Run.Every (step pairJob) (fun _ => Plain fun _ result => result = none)
      (initial pairJob) bothRun := ⟨rfl, trivial, trivial, trivial, trivial, trivial⟩
  have hContained := h pairJob (by decide +kernel) hFree (fun _ result => result = none)
    (fun _ => ⟨none, rfl⟩) bothRun hPlain nofun "a" (by decide)
  have hOut : ¬ Targeted pairJob .subtree "a" "b" := by
    intro hReach
    rcases hReach.cases_head with hEq | ⟨c, hEdge, -⟩
    · exact absurd hEq (by decide)
    · cases hEdge
  have hSame := (hContained _ _
    ⟨bothCancelled, ⟨trivial, trivial, trivial, trivial, rfl, trivial⟩, rfl, trivial⟩
    ⟨bothReturn, ⟨⟨none, rfl, rfl⟩, trivial, ⟨none, rfl, rfl⟩, trivial, rfl, trivial⟩, rfl,
      trivial⟩ "b" (by decide) hOut).1
  exact absurd hSame (by decide +kernel)

end Executor

end Neuroswarm.Swarm
