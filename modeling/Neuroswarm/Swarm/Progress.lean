import Mathlib.Algebra.Order.BigOperators.Group.List
import Neuroswarm.Swarm.Loop

/-!
# Task graph — progress

A step of a coroutine uses up some of the work that is left (`work`): every attempt
passes at most through call, handler, result and delay, and a node has
`max_attempts` of them. Until `run` ends some step is possible (`exists_enabled`),
so a run in which the event loop is not starved ends (`fair_ends`), and no run takes more
steps than there is work (`taken_le`).
-/

namespace Neuroswarm.Swarm

variable {R : Type*}

/-- The work left for a node that may try `m` times. -/
def Slot.work (m : Nat) (slot : Slot R) : Nat :=
  match slot.task with
  | .idle => 6 * m + 7
  | .spawned => 6 * m + 6
  | .calling => 6 * (m - slot.attempts) + 5
  | .handling => 6 * (m - slot.attempts) + 4
  | .handled _ => 6 * (m - slot.attempts) + 3
  | .draining => 6 * (m - slot.attempts) + 2
  | .sleeping => 6 * (m - slot.attempts) + 1
  | .finished => 0

namespace Job

def attemptsOf (job : Job) (nid : NodeId) : Nat :=
  match job.node nid with
  | none => 0
  | some node => node.retryPolicy.maxAttempts.toNat

end Job

namespace Executor

/-- The work left until `run` ends. -/
def work (job : Job) (s : Executor R) : Nat :=
  (job.graph.ids.map fun nid => (s.slots nid).work (job.attemptsOf nid)).sum +
    match s.main with
    | .entering | .gathering _ => 1
    | .returned .. | .raised _ => 0

/-- A step of the event loop that is possible: of a coroutine or of the loop of `run`. -/
def Enabled (job : Job) (s : Executor R) : Action R → Prop
  | .node nid a => ∃ node, job.node nid = some node ∧ NodeEnabled job s nid node a
  | .resume _ _ => s.CanResume
  | .cancel .. => False

-- ------ Coroutines

variable {slot : Slot R}

theorem work_of_task {m : Nat} {slot' : Slot R} (hTask : slot'.task = slot.task)
    (hAttempts : slot'.attempts = slot.attempts) : slot'.work m = slot.work m := by
  unfold Slot.work
  rw [hTask, hAttempts]

variable {job : Job} {node : TaskNode} {a : NodeAction R}

theorem TimesOut.work_gt (h : TimesOut job node a slot.task) (m : Nat) :
    6 * (m - slot.attempts) + 3 ≤ slot.work m := by
  unfold Slot.work
  generalize slot.task = task at h
  cases a with
  | wake | expire =>
    cases task with
    | calling | handling | handled =>
      dsimp only
      omega
    | _ => exact h.elim
  | _ => cases task <;> exact h.elim

variable {s : Executor R} {nid : NodeId}

variable {e : Option GraphException}

/-- **Step.** A move of an enabled coroutine uses up work. -/
theorem Move.work_lt (h : Move job s nid node a slot e) (hEnabled : NodeEnabled job s nid node a) :
    slot.work node.retryPolicy.maxAttempts.toNat <
      (s.slots nid).work node.retryPolicy.maxAttempts.toNat := by
  cases h with
  | stay _ hNot => exact absurd hEnabled hNot
  | startCancelled _ hTask | startRaised _ _ hTask | startSkipped _ hTask
  | startExhausted _ hTask | succeeded _ hTask | checkpointed _ hTask | cancelledInside hTask
  | failedStop _ hTask | drained hTask | sleptCancelled hTask | sleptExhausted hTask =>
    simp only [Slot.work, hTask, Slot.stop]
    omega
  | startRunning _ hTask =>
    simp only [Slot.work, hTask]
    omega
  | called hTask | finished _ hTask =>
    simp only [Slot.work, hTask]
    omega
  | failedRetry _ hTask =>
    simp only [Slot.work, hTask, Slot.retry, Slot.assign]
    omega
  | timedRetry _ hTimes =>
    have := TimesOut.work_gt hTimes node.retryPolicy.maxAttempts.toNat
    simp only [Slot.retry, Slot.assign, Slot.work] at this ⊢
    omega
  | timedStop _ hTimes =>
    have := TimesOut.work_gt hTimes node.retryPolicy.maxAttempts.toNat
    simp only [Slot.stop, Slot.work] at this ⊢
    omega
  | polled hTask =>
    rcases hTask with hTask | hTask
    · simp only [Slot.work, hTask]
      omega
    · simp only [Slot.work, hTask]
      omega
  | sleptRunning hTask hTry =>
    have := attempts_lt_of_mayTry hTry
    simp only [Slot.work, hTask]
    omega

theorem TimesOut.enabled (h : TimesOut job node a (s.slots nid).task) :
    NodeEnabled job s nid node a := by
  cases a with
  | wake =>
    generalize hTask : (s.slots nid).task = task at h
    cases task with
    | handled outcome => exact ⟨outcome, hTask⟩
    | _ => exact h.elim
  | expire => exact h
  | _ =>
    generalize (s.slots nid).task = task at h
    cases task <;> exact h.elim

theorem Move.of_not_enabled (h : Move job s nid node a slot e)
    (hNot : ¬ NodeEnabled job s nid node a) :
    slot = s.slots nid ∧ e = none := by
  cases h with
  | stay => exact ⟨rfl, rfl⟩
  | startCancelled _ hTask | startRaised _ _ hTask | startSkipped _ hTask
  | startExhausted _ hTask | startRunning _ hTask => exact absurd hTask hNot
  | called hTask | finished _ hTask => exact absurd hTask hNot
  | succeeded _ hTask | checkpointed _ hTask | cancelledInside hTask | failedStop _ hTask
  | failedRetry _ hTask => exact absurd ⟨_, hTask⟩ hNot
  | timedRetry _ hTimes | timedStop _ hTimes => exact absurd (TimesOut.enabled hTimes) hNot
  | polled hTask hCancel => exact absurd ⟨hTask, hCancel⟩ hNot
  | drained hTask => exact absurd hTask hNot
  | sleptCancelled hTask | sleptRunning hTask | sleptExhausted hTask => exact absurd hTask hNot

theorem Move.work_le (h : Move job s nid node a slot e) :
    slot.work node.retryPolicy.maxAttempts.toNat ≤
      (s.slots nid).work node.retryPolicy.maxAttempts.toNat := by
  by_cases hEnabled : NodeEnabled job s nid node a
  · exact (h.work_lt hEnabled).le
  · rw [(h.of_not_enabled hEnabled).1]

-- ------ The executor

theorem attemptsOf_eq (h : job.node nid = some node) :
    job.attemptsOf nid = node.retryPolicy.maxAttempts.toNat := by
  unfold Job.attemptsOf
  rw [h]

variable {s' : Executor R}

theorem work_congr (hMain : s'.main = s.main)
    (hSlots : ∀ nid, (s'.slots nid).task = (s.slots nid).task ∧
      (s'.slots nid).attempts = (s.slots nid).attempts) : s'.work job = s.work job := by
  unfold work
  rw [hMain]
  congr 2
  refine List.map_congr_left fun nid _ => ?_
  exact work_of_task (hSlots nid).1 (hSlots nid).2

@[simp] theorem applyCancel_attempts (forced : Bool) (slot : Slot R) :
    (slot.applyCancel forced).attempts = slot.attempts := by
  unfold Slot.applyCancel
  split
  · rfl
  · split <;> rfl

theorem work_cancel (job : Job) (s : Executor R) (mode : CancelMode) (nodeId : Option NodeId)
    (forced : Bool) : (s.cancel job mode nodeId forced).work job = s.work job := by
  obtain ⟨hMain, -, -, -, -, hSlots⟩ := cancel_frame job s mode nodeId forced
  refine work_congr hMain fun nid => ?_
  rcases hSlots nid with hEq | hEq
  · rw [hEq]
    exact ⟨rfl, rfl⟩
  · rw [hEq, applyCancel_task, applyCancel_attempts]
    exact ⟨rfl, rfl⟩

theorem work_settle {layer : List NodeId} (h : AtRest job layer s) :
    (settle job layer s).work job = s.work job := by
  rcases settle_cases h with ⟨-, hEq⟩ | ⟨nid, -, -, -, done, -, -, hEq⟩
  · rw [hEq]
    exact work_congr rfl fun _ => ⟨rfl, rfl⟩
  · rw [hEq, work_cancel]
    exact work_congr rfl fun _ => ⟨rfl, rfl⟩

theorem work_ended (hOpen : ¬ s.Ended) (hEnded : s'.Ended)
    (hSlots : ∀ nid, (s'.slots nid).task = (s.slots nid).task ∧
      (s'.slots nid).attempts = (s.slots nid).attempts) : s'.work job < s.work job := by
  have hSum : (job.graph.ids.map fun nid => (s'.slots nid).work (job.attemptsOf nid)).sum =
      (job.graph.ids.map fun nid => (s.slots nid).work (job.attemptsOf nid)).sum := by
    congr 1
    refine List.map_congr_left fun nid _ => ?_
    exact work_of_task (hSlots nid).1 (hSlots nid).2
  unfold work
  unfold Ended at hOpen hEnded
  rw [hSum]
  cases hMain : s.main with
  | entering | gathering =>
    cases hMain' : s'.main with
    | entering | gathering =>
      rw [hMain'] at hEnded
      exact hEnded.elim
    | returned | raised =>
      dsimp only
      omega
  | returned | raised =>
    rw [hMain] at hOpen
    exact absurd trivial hOpen

theorem Round.work_lt {late : Bool} (hRest : AtRest job [] s) (hOpen : ¬ s.Ended)
    (hRound : Round job s late s') : s'.work job < s.work job := by
  cases hRound with
  | cancelled => exact work_ended hOpen trivial fun _ => ⟨rfl, rfl⟩
  | deadline =>
    obtain ⟨phase, -, succeeded, output, hEq⟩ := conclude_eq job (s.timeoutRemaining job)
    rw [hEq]
    refine work_ended hOpen trivial fun nid => ?_
    unfold timeoutRemaining complete
    dsimp only
    rw [onSlots_slots]
    split
    · exact ⟨rfl, rfl⟩
    · exact ⟨rfl, rfl⟩
  | done =>
    obtain ⟨phase, -, succeeded, output, hEq⟩ := conclude_eq job s
    rw [hEq]
    exact work_ended hOpen trivial fun _ => ⟨rfl, rfl⟩
  | layer _ hToken _ hLayer =>
    obtain ⟨v, hv⟩ := List.exists_mem_of_ne_nil _ hLayer
    have hSlot : ∀ nid, (s.spawn (s.readyLayer job)).slots nid =
        if nid ∈ s.readyLayer job then { s.slots nid with task := .spawned } else s.slots nid :=
      fun _ => rfl
    have hIdle : ∀ nid ∈ s.readyLayer job, (s.slots nid).task = .idle := fun nid hnid =>
      have ⟨hIds, hOut, _⟩ := (hRest.mem_readyLayer hToken).mp hnid
      (hRest.untouched hToken hIds hOut).1
    have hLess : ∀ nid ∈ s.readyLayer job,
        ((s.spawn (s.readyLayer job)).slots nid).work (job.attemptsOf nid) <
          (s.slots nid).work (job.attemptsOf nid) := by
      intro nid hnid
      rw [hSlot, if_pos hnid]
      simp only [Slot.work, hIdle nid hnid]
      omega
    -- every node of the layer has work again, but less than an idle one; no other changes
    have hSum := List.sum_lt_sum (l := job.graph.ids)
      (fun nid => ((s.spawn (s.readyLayer job)).slots nid).work (job.attemptsOf nid))
      (fun nid => (s.slots nid).work (job.attemptsOf nid))
      (fun nid _ => by
        by_cases hnid : nid ∈ s.readyLayer job
        · exact (hLess nid hnid).le
        · rw [hSlot, if_neg hnid])
      ⟨v, ((hRest.mem_readyLayer hToken).mp hv).1, hLess v hv⟩
    have hMain : (match s.main with
        | .entering | .gathering _ => 1
        | .returned .. | .raised _ => 0) = 1 := by
      unfold Ended at hOpen
      cases hM : s.main with
      | entering | gathering => rfl
      | returned | raised =>
        rw [hM] at hOpen
        exact absurd trivial hOpen
    unfold work
    rw [hMain]
    exact Nat.add_lt_add_right hSum 1

theorem Resumed.work {late : Bool} (hResumed : Resumed job s late s') :
    (s' = s ∧ ¬ s.CanResume) ∨ s'.work job < s.work job := by
  have hGathering : ∀ layer, s.main = .gathering layer → ¬ s.Ended := by
    intro layer hMain
    unfold Ended
    rw [hMain]
    exact id
  cases hResumed with
  | waiting hNot => exact .inl ⟨rfl, hNot⟩
  | failed layer e hMain =>
    refine .inr (work_ended (hGathering layer hMain) (endWith_ended s e) fun nid => ?_)
    cases e with
    | cancellation | timeout | other => exact ⟨rfl, rfl⟩
  | entered _ hMain hRest hRound =>
    refine .inr (hRound.work_lt hRest ?_)
    unfold Ended
    rw [hMain]
    exact id
  | settled layer _ hMain hRest hRound =>
    have hOpen : ¬ (settle job layer s).Ended := by
      have hSame : (settle job layer s).main = s.main := by
        rcases settle_cases hRest with ⟨-, hEq⟩ | ⟨nid, -, -, -, done, -, -, hEq⟩
        · rw [hEq]
          rfl
        · rw [hEq]
          exact (cancel_frame ..).1
      unfold Ended
      rw [hSame, hMain]
      exact id
    rw [← work_settle hRest]
    exact .inr (hRound.work_lt (settle_atRest hRest) hOpen)

theorem work_node (hNode : job.node nid = some node) {failure : Option GraphException} :
    (slot.work node.retryPolicy.maxAttempts.toNat ≤
        (s.slots nid).work node.retryPolicy.maxAttempts.toNat →
      ({ s.setSlot nid slot with failure := failure }).work job ≤ s.work job) ∧
    (slot.work node.retryPolicy.maxAttempts.toNat <
        (s.slots nid).work node.retryPolicy.maxAttempts.toNat →
      ({ s.setSlot nid slot with failure := failure }).work job < s.work job) := by
  rw [← attemptsOf_eq hNode]
  have hOther : ∀ v, v ≠ nid → Function.update s.slots nid slot v = s.slots v := fun v hv =>
    Function.update_of_ne hv slot s.slots
  have hSelf : Function.update s.slots nid slot nid = slot := Function.update_self nid slot s.slots
  have hLe : slot.work (job.attemptsOf nid) ≤ (s.slots nid).work (job.attemptsOf nid) →
      ∀ v, (Function.update s.slots nid slot v).work (job.attemptsOf v) ≤
        (s.slots v).work (job.attemptsOf v) := by
    intro h v
    by_cases hv : v = nid
    · rw [hv, hSelf]
      exact h
    · rw [hOther v hv]
  unfold work
  dsimp only
  rw [setSlot_slots]
  constructor
  · intro h
    exact Nat.add_le_add_right (List.sum_le_sum fun v _ => hLe h v) _
  · intro h
    refine Nat.add_lt_add_right (List.sum_lt_sum _ _ (fun v _ => hLe h.le v)
      ⟨nid, Job.mem_ids hNode, ?_⟩) _
    rw [hSelf]
    exact h

/-- **Step.** No step makes work, and every enabled one uses some up. -/
theorem work_step (hGraph : job.graph.WellFormed) (hInv : Inv job s) (a : Action R) :
    (step job s a).work job ≤ s.work job ∧
      (Enabled job s a → (step job s a).work job < s.work job) := by
  cases a with
  | node nid a =>
    unfold Executor.step
    dsimp only
    split
    · next hNone =>
      refine ⟨le_rfl, ?_⟩
      rintro ⟨node, hNode, -⟩
      rw [hNone] at hNode
      cases hNode
    · next node hNode =>
      have hMove := advance_move job s nid node a
      refine ⟨(work_node hNode).1 hMove.work_le, ?_⟩
      rintro ⟨node', hNode', hEnabled⟩
      rw [hNode] at hNode'
      cases hNode'
      exact (work_node hNode).2 (hMove.work_lt hEnabled)
  | resume late env =>
    rcases (resume_cases hGraph hInv late env).work with ⟨hSame, hNot⟩ | hLess
    · refine ⟨?_, fun hEnabled => absurd hEnabled hNot⟩
      show (s.resume job late env).work job ≤ _
      rw [hSame]
    · exact ⟨hLess.le, fun _ => hLess⟩
  | cancel mode nodeId forced =>
    refine ⟨?_, fun h => h.elim⟩
    unfold Executor.step
    dsimp only
    split
    · exact le_rfl
    · exact (work_cancel job s mode nodeId forced).le

-- ------ No deadlock

/-- A step without trouble: handlers end as `outcome` says, nothing runs out of time and
nobody cancels. -/
def Ordinary (outcome : NodeId → Outcome R) : Action R → Prop
  | .node nid (.finish o) => o = outcome nid
  | .node _ .expire => False
  | .node _ _ => True
  | .resume late _ => late = false
  | .cancel .. => False

/-- **No deadlock.** Until `run` ends, some ordinary step is possible. -/
theorem exists_enabled (hInv : Inv job s) (hOpen : ¬ s.Ended) (outcome : NodeId → Outcome R) :
    ∃ a, Enabled job s a ∧ Ordinary outcome a := by
  cases hMain : s.main with
  | entering => exact ⟨.resume false {}, .inl hMain, rfl⟩
  | gathering layer =>
    by_cases hFinished : ∀ nid ∈ layer, (s.slots nid).task.isFinished = true
    · exact ⟨.resume false {}, .inr ⟨layer, hMain, .inr hFinished⟩, rfl⟩
    · push Not at hFinished
      obtain ⟨nid, hnid, hBusy⟩ := hFinished
      have hStarted := (hInv.gathering layer hMain).2.1 nid hnid
      obtain ⟨node, hNode⟩ := Job.exists_node (hInv.started nid hStarted).1
      cases hTask : (s.slots nid).task with
      | idle => exact absurd hTask hStarted
      | spawned => exact ⟨.node nid (.start {}), ⟨node, hNode, hTask⟩, trivial⟩
      | calling => exact ⟨.node nid .call, ⟨node, hNode, hTask⟩, trivial⟩
      | handling => exact ⟨.node nid (.finish (outcome nid)), ⟨node, hNode, hTask⟩, rfl⟩
      | handled o => exact ⟨.node nid .wake, ⟨node, hNode, o, hTask⟩, trivial⟩
      | draining => exact ⟨.node nid .drained, ⟨node, hNode, hTask⟩, trivial⟩
      | sleeping => exact ⟨.node nid .slept, ⟨node, hNode, hTask⟩, trivial⟩
      | finished =>
        rw [hTask] at hBusy
        exact absurd rfl hBusy
  | returned | raised =>
    unfold Ended at hOpen
    rw [hMain] at hOpen
    exact absurd trivial hOpen

-- ------ Fair schedules

def states (job : Job) (σ : ℕ → Action R) (t : ℕ) : Executor R :=
  Run.trace (step job) (initial job) σ t

/-- The event loop is not starved: as long as `run` has not ended, sooner or later a step
of a coroutine or of the loop is taken. Handlers end. -/
def Fair (job : Job) (σ : ℕ → Action R) : Prop :=
  ∀ t, ¬ (states job σ t).Ended → ∃ t' ≥ t, Enabled job (states job σ t') (σ t')

theorem inv_states (hGraph : job.graph.WellFormed) (σ : ℕ → Action R) (t : ℕ) :
    Inv job (states job σ t) :=
  Run.trace_of_invariant (fun _ a h => h.step hGraph a) (inv_initial job) σ t

/-- **Termination.** Every fair run ends. -/
theorem fair_ends (hGraph : job.graph.WellFormed) {σ : ℕ → Action R} (hFair : Fair job σ) :
    ∃ t, (states job σ t).Ended := by
  refine Run.eventually_of_measure (μ := work job) (fun t => ?_) fun t hOpen => ?_
  · exact (work_step hGraph (inv_states hGraph σ t) (σ t)).1
  · obtain ⟨t', ht', hEnabled⟩ := hFair t hOpen
    exact ⟨t', ht', (work_step hGraph (inv_states hGraph σ t') (σ t')).2 hEnabled⟩

open Classical in
/-- How many steps of a run were possible where they were taken. -/
noncomputable def taken (job : Job) : Executor R → List (Action R) → Nat
  | _, [] => 0
  | s, a :: ops => (if Enabled job s a then 1 else 0) + taken job (step job s a) ops

theorem taken_le_work (hGraph : job.graph.WellFormed) {s : Executor R} (hInv : Inv job s)
    (ops : List (Action R)) : taken job s ops ≤ s.work job := by
  induction ops generalizing s with
  | nil => exact Nat.zero_le _
  | cons a ops ih =>
    obtain ⟨hLe, hLt⟩ := work_step hGraph hInv a
    have hRest := ih (hInv.step hGraph a)
    rw [taken]
    split
    · next hEnabled =>
      have hLess := hLt hEnabled
      omega
    · omega

/-- **No livelock.** However handlers, timeouts, retries and cancellations interleave, a run takes
no more steps than the graph and its retry policies allow. -/
theorem taken_le (nx : Option Networkx) (job : Job) (hValid : job.graph.Valid nx)
    (ops : List (Action R)) :
    taken job (initial job) ops ≤
      (job.graph.ids.map fun nid => 6 * job.attemptsOf nid + 7).sum + 1 :=
  taken_le_work (TaskGraph.valid_iff.mp hValid) (inv_initial job) ops

theorem taken_le_chainJob :
    taken chainJob (initial chainJob)
      [.resume false {}, .node "a" (.start {}), .node "a" .call, .cancel .graph none true,
        .node "a" .poll, .node "a" (.finish (.returned (some ())))] ≤ 51 :=
  (taken_le none chainJob (by decide +kernel) _).trans_eq (by decide +kernel)

end Executor

end Neuroswarm.Swarm
