import Neuroswarm.Swarm.Invariant

/-!
# Task graph — the main loop

`AtRest` is the loop between two layers. `settle_cases` says what the loop does
with a layer that is done, `drive_cases` what a round does then: of its branches,
"no ready nodes" and the soft skip are never taken on a well-formed graph.

`Inv` holds in every state of every run.
-/

namespace Neuroswarm.Swarm

variable {R : Type*}

namespace Executor

-- ------ Between two layers

/-- The loop between two layers: no coroutine is in the middle of something, and the
nodes of `layer` are still to be looked at. -/
structure AtRest (job : Job) (layer : List NodeId) (s : Executor R) : Prop extends Base job s where
  quiet : ∀ nid, (s.slots nid).task.Quiet
  noFailure : s.failure = none
  idle : ∀ nid, (s.slots nid).task = .idle →
    (s.slots nid).status = .pending ∨ (s.slots nid).status = .cancelled
  finished : ∀ nid ∈ layer, (s.slots nid).task = .finished
  caughtUp : s.token.cancelled = false →
    ∀ nid, (s.slots nid).task ≠ .idle → nid ∈ s.completed ∨ nid ∈ layer

theorem Task.eq_finished_of_quiet {task : Task R} (hQuiet : task.Quiet) (hIdle : task ≠ .idle) :
    task = .finished := by
  cases task <;> simp_all [Task.Quiet]

theorem onSlots_of_forall_not {s : Executor R} {p : NodeId → Prop} [DecidablePred p]
    {f : Slot R → Slot R} (h : ∀ nid, ¬ p nid) : s.onSlots p f = s := by
  unfold onSlots
  simp only [h, if_false]

namespace AtRest

variable {job : Job} {s : Executor R} {layer : List NodeId}

theorem complete_cons {nid : NodeId} {rest : List NodeId} (h : AtRest job (nid :: rest) s) :
    AtRest job rest (s.complete [nid]) where
  toBase := h.toBase.complete fun v hv => by
    rw [List.mem_singleton] at hv
    subst hv
    have hTask := h.finished v (List.mem_cons_self ..)
    exact ⟨(h.started v (by rw [hTask]; exact nofun)).1,
      h.terminal_of_finished h.noFailure hTask, h.quiet v⟩
  quiet := h.quiet
  noFailure := h.noFailure
  idle := h.idle
  finished := fun v hv => h.finished v (List.mem_cons_of_mem _ hv)
  caughtUp := fun hToken v hv => by
    rcases h.caughtUp hToken v hv with hDone | hLayer
    · exact .inl (mem_complete.mpr (.inr hDone))
    · rcases List.mem_cons.mp hLayer with rfl | hRest
      · exact .inl (mem_complete.mpr (.inl (List.mem_singleton_self v)))
      · exact .inr hRest

theorem terminal_cancel_graph (h : AtRest job layer s) {nid : NodeId} (hnid : nid ∈ job.graph.ids) :
    ((s.cancel job .graph none false).status nid).Terminal := by
  unfold Executor.cancel Executor.status cancelTargets
  dsimp only
  rw [onSlots_slots, if_pos hnid]
  dsimp only
  by_cases hIdle : (s.slots nid).task = .idle
  · rcases h.idle nid hIdle with hStatus | hStatus
    · rw [applyCancel_cancellable (by rw [hStatus]; decide)]
      decide
    · rw [applyCancel_terminal (by rw [hStatus]; decide), hStatus]
      decide
  · have hTerminal := h.terminal_of_finished h.noFailure
      (Task.eq_finished_of_quiet (h.quiet nid) hIdle)
    rw [applyCancel_terminal hTerminal]
    exact hTerminal

theorem cancel (h : AtRest job layer s) (mode : CancelMode) (nodeId : Option NodeId)
    (forced : Bool) : AtRest job [] (s.cancel job mode nodeId forced) where
  toBase := h.toBase.cancel mode nodeId forced
  quiet := by
    intro nid
    unfold Executor.cancel
    dsimp only
    split
    · exact h.quiet nid
    · rw [onSlots_slots]
      split
      · rw [applyCancel_task]
        exact h.quiet nid
      · exact h.quiet nid
  noFailure := by
    unfold Executor.cancel
    dsimp only
    split
    · exact h.noFailure
    · exact h.noFailure
  idle := by
    intro nid
    unfold Executor.cancel
    dsimp only
    split
    · exact h.idle nid
    · rw [onSlots_slots]
      split
      · rw [applyCancel_task]
        intro hIdle
        rcases applyCancel_status forced (s.slots nid) with hSame | hNew
        · rw [hSame]
          exact h.idle nid hIdle
        · exact .inr hNew
      · exact h.idle nid
  finished := nofun
  caughtUp := by
    unfold Executor.cancel
    dsimp only
    split
    · exact nofun
    · exact nofun

theorem failFast_eq (h : AtRest job layer s) (nid : NodeId) :
    s.failFast job nid =
      { s with phase := .failed, error := (s.slots nid).error }.cancel job .graph none false := by
  have hRest : AtRest job layer { s with phase := .failed, error := (s.slots nid).error } :=
    { h with }
  unfold Executor.failFast
  generalize { s with phase := .failed, error := (s.slots nid).error } = s' at hRest
  have hNone : ∀ v, ¬ (s'.cancel job .graph none false).Unfinished job v := fun v hv =>
    hv.2.2 (hRest.terminal_cancel_graph hv.1)
  dsimp only
  rw [onSlots_of_forall_not hNone]
  refine complete_of_subset fun v hv => ?_
  exact absurd (of_decide_eq_true (List.mem_filter.mp hv).2) (hNone v)

end AtRest

/-- **The end of a layer.** The layer is completed, or a failed node cancels the rest. -/
theorem settle_cases {job : Job} {s : Executor R} {layer : List NodeId} (h : AtRest job layer s) :
    ((¬ (job.failFast ∧ ∃ nid ∈ layer, s.status nid = .failed)) ∧
      settle job layer s = s.complete layer) ∨
    ∃ nid ∈ layer, job.failFast ∧ s.status nid = .failed ∧ ∃ done, done ⊆ layer ∧
      AtRest job layer (s.complete done) ∧
      settle job layer s =
        { s.complete done with phase := .failed, error := (s.slots nid).error }.cancel job .graph
          none false := by
  induction layer generalizing s with
  | nil => exact .inl ⟨fun hFail => by simp at hFail, rfl⟩
  | cons nid rest ih =>
    have hNext := h.complete_cons
    have hTerminal := h.terminal_of_finished h.noFailure (h.finished nid (List.mem_cons_self ..))
    unfold settle
    rw [if_pos hTerminal]
    split
    · next hFail =>
      refine .inr ⟨nid, List.mem_cons_self .., hFail.1, hFail.2, [nid], by simp, ?_, ?_⟩
      · exact { hNext with
          finished := h.finished
          caughtUp := fun hToken v hv => (hNext.caughtUp hToken v hv).imp id (List.mem_cons_of_mem _) }
      · exact hNext.failFast_eq nid
    · next hFail =>
      rcases ih hNext with ⟨hNone, hEq⟩ | ⟨v, hv, hFast, hStatus, done, hSub, hDone, hEq⟩
      · refine .inl ⟨?_, hEq⟩
        rintro ⟨hFast, v, hv, hStatus⟩
        rcases List.mem_cons.mp hv with rfl | hv
        · exact hFail ⟨hFast, hStatus⟩
        · exact hNone ⟨hFast, v, hv, hStatus⟩
      · refine .inr ⟨v, List.mem_cons_of_mem _ hv, hFast, hStatus, nid :: done, ?_, ?_, hEq⟩
        · exact List.cons_subset_cons nid hSub
        · exact { hDone with
            finished := h.finished
            caughtUp := fun hToken w hw => (hDone.caughtUp hToken w hw).imp id (List.mem_cons_of_mem _) }

theorem settle_atRest {job : Job} {s : Executor R} {layer : List NodeId} (h : AtRest job layer s) :
    AtRest job [] (settle job layer s) := by
  rcases settle_cases h with ⟨-, hEq⟩ | ⟨nid, -, -, -, done, -, hDone, hEq⟩
  · rw [hEq]
    refine
      { toBase := h.toBase.complete fun v hv => ?_
        quiet := h.quiet
        noFailure := h.noFailure
        idle := h.idle
        finished := nofun
        caughtUp := fun hToken v hv => ?_ }
    · have hTask := h.finished v hv
      exact ⟨(h.started v (by rw [hTask]; exact nofun)).1,
        h.terminal_of_finished h.noFailure hTask, h.quiet v⟩
    · refine .inl (mem_complete.mpr ?_)
      exact (h.caughtUp hToken v hv).symm
  · rw [hEq]
    have hFailed : AtRest job layer
        { s.complete done with phase := .failed, error := (s.slots nid).error } := { hDone with }
    exact hFailed.cancel .graph none false

-- ------ A round of the loop

/-- The loop still has something to do. -/
def Incomplete (job : Job) (s : Executor R) : Prop := s.completed.length < job.graph.ids.length

instance (job : Job) (s : Executor R) : Decidable (s.Incomplete job) :=
  inferInstanceAs (Decidable (_ < _))

theorem Base.incomplete_iff {job : Job} {s : Executor R} (h : Base job s) :
    s.Incomplete job ↔ ∃ nid ∈ job.graph.ids, nid ∉ s.completed := by
  constructor
  · intro hLess
    by_contra hAll
    push Not at hAll
    exact absurd (List.subperm_of_subset job.graph.nodes.nodup hAll).length_le (Nat.not_le.mpr hLess)
  · rintro ⟨nid, hnid, hNot⟩
    have hSub : nid :: s.completed ⊆ job.graph.ids :=
      List.cons_subset.mpr ⟨hnid, fun v hv => h.known v hv⟩
    have hLen := (List.subperm_of_subset (List.nodup_cons.mpr ⟨hNot, h.nodup⟩) hSub).length_le
    exact hLen

variable {nid : NodeId}

theorem AtRest.untouched {job : Job} {s : Executor R} (h : AtRest job [] s)
    (hToken : s.token.cancelled = false) (hnid : nid ∈ job.graph.ids) (hNot : nid ∉ s.completed) :
    (s.slots nid).task = .idle ∧ (s.slots nid).status = .pending := by
  have hIdle : (s.slots nid).task = .idle := by
    by_contra hTask
    rcases h.caughtUp hToken nid hTask with hDone | hLayer
    · exact hNot hDone
    · cases hLayer
  refine ⟨hIdle, (h.idle nid hIdle).resolve_right fun hStatus => ?_⟩
  obtain ⟨node, hNode⟩ := Job.exists_node hnid
  rcases (h.slots nid node hNode).cancelled hStatus with hTask | hTrue
  · rw [hIdle] at hTask
    cases hTask
  · rw [hToken] at hTrue
    cases hTrue

theorem AtRest.mem_readyLayer {job : Job} {s : Executor R} (h : AtRest job [] s)
    (hToken : s.token.cancelled = false) :
    nid ∈ s.readyLayer job ↔
      nid ∈ job.graph.ids ∧ nid ∉ s.completed ∧
        ∀ p, job.graph.Precedes p nid → p ∈ s.completed := by
  unfold readyLayer Executor.status
  rw [List.mem_filter, TaskGraph.mem_readyNodes, decide_eq_true_eq]
  constructor
  · exact And.left
  · intro hReady
    obtain ⟨-, hStatus⟩ := h.untouched hToken hReady.1 hReady.2.1
    rw [hStatus]
    exact ⟨hReady, by decide, by decide, by decide⟩

inductive Round (job : Job) (s : Executor R) (late : Bool) : Executor R → Prop
  | cancelled (hMore : s.Incomplete job) (hToken : s.token.cancelled = true) :
      Round job s late (s.giveUp .cancelled)
  | deadline (hMore : s.Incomplete job) (hToken : s.token.cancelled = false)
      (hLate : (job.hasDeadline && late) = true) :
      Round job s late ((s.timeoutRemaining job).conclude job)
  | layer (hMore : s.Incomplete job) (hToken : s.token.cancelled = false)
      (hLate : (job.hasDeadline && late) = false) (hLayer : s.readyLayer job ≠ []) :
      Round job s late (s.spawn (s.readyLayer job))
  | done (hAll : ¬ s.Incomplete job) : Round job s late (s.conclude job)

theorem drive_cases {job : Job} (hGraph : job.graph.WellFormed) {s : Executor R}
    (h : AtRest job [] s) (late : Bool) (env : Environment) :
    Round job s late (s.drive job late env) := by
  unfold drive iterate
  by_cases hMore : s.completed.length < job.graph.ids.length
  · rw [if_pos hMore]
    cases hToken : s.token.cancelled with
    | true => exact .cancelled hMore hToken
    | false =>
      rw [if_neg Bool.false_ne_true]
      cases hLate : job.hasDeadline && late with
      | true => exact .deadline hMore hToken hLate
      | false =>
        -- some node is ready, so the layer is not empty
        obtain ⟨v, hv, hNot⟩ := h.incomplete_iff.mp hMore
        obtain ⟨r, hr⟩ := TaskGraph.exists_ready hGraph.acyclic hGraph.closed hv hNot
        have hLayer : s.readyLayer job ≠ [] :=
          List.ne_nil_of_mem ((h.mem_readyLayer hToken).mpr (TaskGraph.mem_readyNodes.mp hr))
        have hCollect : s.collectCancelled job = s := by
          refine complete_of_subset fun w hw => ?_
          obtain ⟨hw, hStatus⟩ := List.mem_filter.mp hw
          by_contra hOut
          have hPending := (h.untouched hToken hw hOut).2
          have hCancelled : (s.slots w).status = .cancelled := of_decide_eq_true hStatus
          rw [hCancelled] at hPending
          cases hPending
        rw [if_neg Bool.false_ne_true]
        dsimp only
        rw [hCollect, if_neg hLayer]
        exact .layer hMore hToken hLate hLayer
  · rw [if_neg hMore]
    exact .done hMore

-- ------ How a round ends

def reportedPhases : List GraphPhase := [.succeeded, .failed, .cancelled, .timedOut]

theorem conclude_eq (job : Job) (s : Executor R) :
    ∃ phase ∈ reportedPhases, ∃ succeeded output,
      s.conclude job = { s with phase := phase, main := .returned succeeded output } := by
  unfold conclude
  split
  · exact ⟨.failed, by decide, false, none, rfl⟩
  · split
    · exact ⟨.cancelled, by decide, false, none, rfl⟩
    · split
      · exact ⟨.timedOut, by decide, false, none, rfl⟩
      · split
        · exact ⟨.failed, by decide, false, none, rfl⟩
        · exact ⟨.succeeded, by decide, true, _, rfl⟩

/-- `run` has returned or raised. -/
def Ended (s : Executor R) : Prop :=
  match s.main with
  | .entering | .gathering _ => False
  | .returned .. | .raised _ => True

theorem timeoutRemaining_status {job : Job} {s : Executor R} (hnid : nid ∈ job.graph.ids)
    (hDone : ∀ v ∈ s.completed, (s.status v).Terminal) :
    ((s.timeoutRemaining job).status nid).Terminal := by
  unfold timeoutRemaining Executor.status complete
  dsimp only
  rw [onSlots_slots]
  split
  · show NodeStatus.Terminal .timedOut
    decide
  · next hNot =>
    by_contra hOpen
    exact hNot ⟨hnid, fun hDoneV => hOpen (hDone nid hDoneV), hOpen⟩

theorem AtRest.timeoutRemaining {job : Job} {s : Executor R} (h : AtRest job [] s)
    (hToken : s.token.cancelled = false) : Base job (s.timeoutRemaining job) := by
  unfold Executor.timeoutRemaining
  have hOpen : ∀ v, s.Unfinished job v → (s.slots v).task = .idle := fun v hv =>
    (h.untouched hToken hv.1 hv.2.1).1
  have hBase : Base job (s.onSlots (s.Unfinished job) Slot.expireWorkflow) := by
    refine h.toBase.of_status rfl (fun nid node hNode => ?_) (fun nid => ?_) fun nid hnid => ?_
    · rw [onSlots_slots]
      split
      · next hv =>
        have hOld := h.slots nid node hNode
        exact
          { fits := by
              show NodeStatus.timedOut ∈ (s.slots nid).task.statuses
              rw [hOpen nid hv]
              simp [Task.statuses]
            attempts := hOld.attempts
            calls := hOld.calls
            calling := hOld.calling
            pending := fun _ hS => by cases hS
            cancelled := fun hS => by cases hS
            requested := hOld.requested }
      · exact h.slots nid node hNode
    · rw [onSlots_slots]
      split
      · rfl
      · rfl
    · unfold Executor.status
      rw [onSlots_slots, if_neg fun hv => hv.2.1 hnid]
      exact (h.done nid hnid).1
  refine hBase.complete fun nid hnid => ?_
  obtain ⟨hnid, hv⟩ := List.mem_filter.mp hnid
  have hv : s.Unfinished job nid := of_decide_eq_true hv
  unfold Executor.status
  rw [onSlots_slots, if_pos hv]
  refine ⟨hnid, ?_, ?_⟩
  · show NodeStatus.Terminal .timedOut
    decide
  · show (s.slots nid).task.Quiet
    rw [hOpen nid hv]
    trivial

-- ------ Runs

/-- `Base`, and what holds until `run` returns or raises. -/
structure Inv (job : Job) (s : Executor R) : Prop extends Base job s where
  entering : s.main = .entering → s.failure = none ∧ s.token.cancelled = false ∧
    ∀ nid, (s.slots nid).task = .idle ∧ (s.slots nid).status = .pending
  gathering : ∀ layer, s.main = .gathering layer →
    (∀ nid, (s.slots nid).task ≠ .idle → nid ∈ s.completed ∨ nid ∈ layer) ∧
    (∀ nid ∈ layer, (s.slots nid).task ≠ .idle) ∧
    ∀ nid, (s.slots nid).task = .idle →
      (s.slots nid).status = .pending ∨ (s.slots nid).status = .cancelled

theorem Inv.of_ended {job : Job} {s : Executor R} (h : Base job s) (hEnded : s.Ended) :
    Inv job s where
  toBase := h
  entering := fun hMain => by
    unfold Ended at hEnded
    rw [hMain] at hEnded
    exact hEnded.elim
  gathering := fun layer hMain => by
    unfold Ended at hEnded
    rw [hMain] at hEnded
    exact hEnded.elim

theorem AtRest.spawn {job : Job} {s : Executor R} (h : AtRest job [] s)
    (hToken : s.token.cancelled = false) : Inv job (s.spawn (s.readyLayer job)) := by
  have hReady : ∀ nid ∈ s.readyLayer job, nid ∈ job.graph.ids ∧ nid ∉ s.completed ∧
      ∀ p, job.graph.Precedes p nid → p ∈ s.completed :=
    fun _ => (h.mem_readyLayer hToken).mp
  have hSlot : ∀ nid, (s.spawn (s.readyLayer job)).slots nid =
      if nid ∈ s.readyLayer job then { s.slots nid with task := .spawned } else s.slots nid :=
    fun _ => rfl
  refine
    { slots := fun nid node hNode => ?_
      nodup := h.nodup
      known := h.known
      done := fun nid hnid => ?_
      started := fun nid hTask => ?_
      entering := fun hMain => by cases hMain
      gathering := fun layer hMain => ?_ }
  · rw [hSlot]
    split
    · next hnid =>
      obtain ⟨hMem, hNot, -⟩ := hReady nid hnid
      have hOld := h.slots nid node hNode
      exact
        { fits := by
            show (s.slots nid).status ∈ _
            rw [(h.untouched hToken hMem hNot).2]
            simp [Task.statuses]
          attempts := hOld.attempts
          calls := hOld.calls
          calling := fun hT => by cases hT
          pending := fun hT => by cases hT
          -- a ready node is `PENDING`
          cancelled := fun hS => by
            have hPending := (h.untouched hToken hMem hNot).2
            rw [show (s.slots nid).status = .cancelled from hS] at hPending
            cases hPending
          requested := hOld.requested }
    · exact h.slots nid node hNode
  -- what is completed is not ready, so its slot is the old one
  · have hOut : nid ∉ s.readyLayer job := fun hIn => (hReady nid hIn).2.1 hnid
    unfold Executor.status
    rw [hSlot, if_neg hOut]
    exact h.done nid hnid
  · by_cases hIn : nid ∈ s.readyLayer job
    · exact ⟨(hReady nid hIn).1, (hReady nid hIn).2.2⟩
    · rw [hSlot, if_neg hIn] at hTask
      exact h.started nid hTask
  · cases hMain
    refine ⟨fun nid hTask => ?_, fun nid hIn => ?_, fun nid => ?_⟩
    · by_cases hIn : nid ∈ s.readyLayer job
      · exact .inr hIn
      · rw [hSlot, if_neg hIn] at hTask
        exact .inl ((h.caughtUp hToken nid hTask).resolve_right List.not_mem_nil)
    · rw [hSlot, if_pos hIn]
      intro hTask
      cases hTask
    · rw [hSlot]
      split
      · intro hTask
        cases hTask
      · exact h.idle nid

/-- **A round keeps the invariant.** -/
theorem Round.inv {job : Job} {s s' : Executor R} {late : Bool} (h : AtRest job [] s)
    (hRound : Round job s late s') : Inv job s' := by
  cases hRound with
  | cancelled => exact .of_ended { h.toBase with } trivial
  | deadline _ hToken =>
    obtain ⟨phase, -, succeeded, output, hEq⟩ := conclude_eq job (s.timeoutRemaining job)
    rw [hEq]
    exact .of_ended { h.timeoutRemaining hToken with } trivial
  | layer _ hToken => exact h.spawn hToken
  | done =>
    obtain ⟨phase, -, succeeded, output, hEq⟩ := conclude_eq job s
    rw [hEq]
    exact .of_ended { h.toBase with } trivial

namespace Inv

variable {job : Job} {s : Executor R}

theorem atRest_entering (h : Inv job s) (hMain : s.main = .entering) : AtRest job [] s := by
  obtain ⟨hFailure, hToken, hIdle⟩ := h.entering hMain
  exact
    { toBase := h.toBase
      quiet := fun nid => by
        rw [(hIdle nid).1]
        trivial
      noFailure := hFailure
      idle := fun nid _ => .inl (hIdle nid).2
      finished := nofun
      caughtUp := fun _ nid hTask => absurd (hIdle nid).1 hTask }

theorem atRest_gathering (h : Inv job s) {layer : List NodeId} (hMain : s.main = .gathering layer)
    (hFailure : s.failure = none)
    (hFinished : ∀ nid ∈ layer, (s.slots nid).task.isFinished = true) : AtRest job layer s := by
  obtain ⟨hCover, -, hIdle⟩ := h.gathering layer hMain
  have hDone : ∀ nid ∈ layer, (s.slots nid).task = .finished := by
    intro nid hnid
    have hTask := hFinished nid hnid
    revert hTask
    cases (s.slots nid).task <;> simp [Task.isFinished]
  refine
    { toBase := h.toBase
      quiet := fun nid => ?_
      noFailure := hFailure
      idle := hIdle
      finished := hDone
      caughtUp := fun _ => hCover }
  by_cases hTask : (s.slots nid).task = .idle
  · rw [hTask]
    trivial
  · rcases hCover nid hTask with hIn | hIn
    · exact (h.done nid hIn).2
    · rw [hDone nid hIn]
      trivial

end Inv

/-- What the main coroutine waits for is there. -/
def CanResume (s : Executor R) : Prop :=
  s.main = .entering ∨ ∃ layer, s.main = .gathering layer ∧
    (s.failure ≠ none ∨ ∀ nid ∈ layer, (s.slots nid).task.isFinished = true)

/-- What `resume` does: nothing, a failed layer, or a round of the loop. -/
inductive Resumed (job : Job) (s : Executor R) (late : Bool) : Executor R → Prop
  | waiting (hNot : ¬ s.CanResume) : Resumed job s late s
  | failed (layer : List NodeId) (e : GraphException) (hMain : s.main = .gathering layer)
      (hFailure : s.failure = some e) : Resumed job s late (s.endWith e)
  | entered (s' : Executor R) (hMain : s.main = .entering) (hRest : AtRest job [] s)
      (hRound : Round job s late s') : Resumed job s late s'
  | settled (layer : List NodeId) (s' : Executor R) (hMain : s.main = .gathering layer)
      (hRest : AtRest job layer s) (hRound : Round job (settle job layer s) late s') :
      Resumed job s late s'

theorem resume_cases {job : Job} (hGraph : job.graph.WellFormed) {s : Executor R}
    (h : Inv job s) (late : Bool) (env : Environment) :
    Resumed job s late (s.resume job late env) := by
  unfold resume
  split
  · next hMain =>
    have hRest := h.atRest_entering hMain
    exact .entered _ hMain hRest (drive_cases hGraph hRest late env)
  · next layer hMain =>
    split
    · next e hFailure => exact .failed layer e hMain hFailure
    · next hFailure =>
      split
      · next hFinished =>
        have hRest := h.atRest_gathering hMain hFailure hFinished
        exact .settled layer _ hMain hRest (drive_cases hGraph (settle_atRest hRest) late env)
      · next hBusy =>
        refine .waiting ?_
        rintro (hEnter | ⟨layer', hMain', hFail | hFinished⟩)
        · simp [hMain] at hEnter
        · exact hFail hFailure
        · rw [hMain] at hMain'
          cases hMain'
          exact hBusy hFinished
  · next hNotEnter hNotGather =>
    refine .waiting ?_
    rintro (hEnter | ⟨layer, hMain, -⟩)
    · exact hNotEnter hEnter
    · exact hNotGather layer hMain

theorem endWith_ended (s : Executor R) (e : GraphException) : (s.endWith e).Ended := by
  cases e <;> trivial

theorem Base.endWith {job : Job} {s : Executor R} (h : Base job s) (e : GraphException) :
    Base job (s.endWith e) := by
  cases e with
  | cancellation => exact { h with }
  | timeout text => exact { h with }
  | other text => exact { h with }

theorem Resumed.inv {job : Job} {s s' : Executor R} {late : Bool} (h : Inv job s)
    (hResumed : Resumed job s late s') : Inv job s' := by
  cases hResumed with
  | waiting => exact h
  | failed layer e => exact .of_ended (h.toBase.endWith e) (endWith_ended s e)
  | entered _ _ hRest hRound => exact hRound.inv hRest
  | settled layer _ _ hRest hRound => exact hRound.inv (settle_atRest hRest)

theorem Inv.node {job : Job} {s : Executor R} (h : Inv job s) {node : TaskNode}
    (hNode : job.node nid = some node) (a : NodeAction R) :
    Inv job { s.setSlot nid (s.advance job nid node a).1 with
      failure := s.failure.or (s.advance job nid node a).2 } := by
  have hMove := advance_move job s nid node a
  refine { toBase := h.toBase.node hNode a, entering := ?_, gathering := ?_ }
  · intro hMain
    obtain ⟨hFailure, hToken, hIdle⟩ := h.entering hMain
    -- no coroutine exists yet, so the action changes nothing
    obtain ⟨hSame, hNone⟩ := hMove.of_quiet (by rw [(hIdle nid).1]; trivial)
    dsimp only
    rw [hSame, hNone, hFailure, setSlot_slots, Function.update_eq_self]
    exact ⟨rfl, hToken, hIdle⟩
  · intro layer hMain
    obtain ⟨hCover, hLayer, hIdle⟩ := h.gathering layer hMain
    have hSlots : ∀ v, Function.update s.slots nid (s.advance job nid node a).1 v = s.slots v ∨
        (v = nid ∧ Function.update s.slots nid (s.advance job nid node a).1 v =
          (s.advance job nid node a).1 ∧ (s.slots v).task ≠ .idle) := by
      intro v
      rw [Function.update_apply]
      split
      · next hv =>
        subst hv
        by_cases hTask : (s.slots v).task = .idle
        · exact .inl (hMove.of_quiet (by rw [hTask]; trivial)).1
        · exact .inr ⟨rfl, rfl, hTask⟩
      · exact .inl rfl
    dsimp only
    rw [setSlot_slots]
    refine ⟨fun v hTask => hCover v ?_, fun v hIn hTask => ?_, fun v hTask => ?_⟩
    · rcases hSlots v with hSame | ⟨-, -, hOld⟩
      · rwa [hSame] at hTask
      · exact hOld
    · rcases hSlots v with hSame | ⟨rfl, hNew, hOld⟩
      · rw [hSame] at hTask
        exact hLayer v hIn hTask
      · rw [hNew] at hTask
        exact hOld (hMove.task_ne_idle hTask)
    · rcases hSlots v with hSame | ⟨rfl, hNew, hOld⟩
      · rw [hSame] at hTask ⊢
        exact hIdle v hTask
      · rw [hNew] at hTask
        exact absurd (hMove.task_ne_idle hTask) hOld

theorem cancel_frame (job : Job) (s : Executor R) (mode : CancelMode) (nodeId : Option NodeId)
    (forced : Bool) :
    (s.cancel job mode nodeId forced).main = s.main ∧
      (s.cancel job mode nodeId forced).completed = s.completed ∧
      (s.cancel job mode nodeId forced).failure = s.failure ∧
      (s.cancel job mode nodeId forced).phase = s.phase ∧
      (s.cancel job mode nodeId forced).token.cancelled = true ∧
      ∀ nid, ((s.cancel job mode nodeId forced).slots nid = s.slots nid ∨
        (s.cancel job mode nodeId forced).slots nid = (s.slots nid).applyCancel forced) := by
  unfold Executor.cancel
  dsimp only
  split
  · exact ⟨rfl, rfl, rfl, rfl, rfl, fun _ => .inl rfl⟩
  · refine ⟨rfl, rfl, rfl, rfl, rfl, fun nid => ?_⟩
    rw [onSlots_slots]
    split
    · exact .inr rfl
    · exact .inl rfl

theorem Inv.cancel {job : Job} {s : Executor R} (h : Inv job s) (hMain : s.main ≠ .entering)
    (mode : CancelMode) (nodeId : Option NodeId) (forced : Bool) :
    Inv job (s.cancel job mode nodeId forced) := by
  obtain ⟨hSame, hCompleted, -, -, -, hSlots⟩ := cancel_frame job s mode nodeId forced
  have hTask : ∀ nid, ((s.cancel job mode nodeId forced).slots nid).task = (s.slots nid).task := by
    intro nid
    rcases hSlots nid with hEq | hEq
    · rw [hEq]
    · rw [hEq, applyCancel_task]
  refine { toBase := h.toBase.cancel mode nodeId forced, entering := ?_, gathering := ?_ }
  · rw [hSame]
    exact fun hEnter => absurd hEnter hMain
  · rw [hSame, hCompleted]
    intro layer hLayer
    obtain ⟨hCover, hStarted, hIdle⟩ := h.gathering layer hLayer
    refine ⟨fun nid => ?_, fun nid hnid => ?_, fun nid hn => ?_⟩
    · rw [hTask]
      exact hCover nid
    · rw [hTask]
      exact hStarted nid hnid
    · rw [hTask] at hn
      rcases hSlots nid with hEq | hEq
      · rw [hEq]
        exact hIdle nid hn
      · rw [hEq]
        rcases applyCancel_status forced (s.slots nid) with hStatus | hStatus
        · rw [hStatus]
          exact hIdle nid hn
        · exact .inr hStatus

/-- **Step.** -/
theorem Inv.step {job : Job} (hGraph : job.graph.WellFormed) {s : Executor R} (h : Inv job s)
    (a : Action R) : Inv job (step job s a) := by
  cases a with
  | node nid a =>
    unfold Executor.step
    dsimp only
    split
    · exact h
    · next node hNode => exact h.node hNode a
  | resume late env => exact (resume_cases hGraph h late env).inv h
  | cancel mode nodeId forced =>
    unfold Executor.step
    dsimp only
    split
    · exact h
    · next hMain => exact h.cancel hMain mode nodeId forced

theorem inv_initial (job : Job) : Inv job (initial job : Executor R) where
  slots := fun nid node hNode =>
    { fits := by simp [initial, Task.statuses]
      attempts := Nat.zero_le _
      calls := le_rfl
      calling := nofun
      pending := nofun
      cancelled := nofun
      requested := nofun }
  nodup := List.nodup_nil
  known := nofun
  done := nofun
  started := fun nid hTask => absurd rfl hTask
  entering := fun _ => ⟨rfl, rfl, fun _ => ⟨rfl, rfl⟩⟩
  gathering := nofun

-- ------ Graphs without conditions

structure Unconditional (g : TaskGraph) : Prop where
  edges : ∀ e ∈ g.edges, e.condition = none
  nodes : ∀ nid node, g.nodes.get? nid = some node → node.condition = none

theorem edgesAllow_of_none {env : Environment} {statuses : NodeId → Option String}
    {nodeId : NodeId} {es : List TaskEdge} (h : ∀ e ∈ es, e.condition = none) :
    edgesAllow env statuses nodeId es = .ok true := by
  induction es with
  | nil => rfl
  | cons e es ih =>
    have ih := ih fun e' he' => h e' (List.mem_cons_of_mem _ he')
    unfold edgesAllow
    rw [h e (List.mem_cons_self ..)]
    split
    · exact ih
    · exact ih

theorem Unconditional.shouldRun {job : Job} (h : Unconditional job.graph) (s : Executor R)
    {node : TaskNode} (hNode : job.node nid = some node) (env : Environment) :
    s.shouldRun job nid node env = .ok true := by
  unfold Executor.shouldRun
  rw [edgesAllow_of_none h.edges, h.nodes nid node hNode]
  rfl

theorem Unconditional.not_raises {job : Job} (h : Unconditional job.graph) (s : Executor R)
    (a : Action R) (e : GraphException) : ¬ ConditionRaises job s a e := by
  rintro ⟨nid, env, node, -, hNode, -, -, hRun⟩
  rw [h.shouldRun s hNode env] at hRun
  cases hRun

/-- A chain `a → b`. -/
def chainJob : Job where
  graph :=
    { graphId := "g"
      nodes := (Dict.empty.set "a" { id := "a" }).set "b" { id := "b" }
      edges := [{ src := "a", dst := "b" }] }

theorem chainJob_unconditional : Unconditional chainJob.graph where
  edges := by
    intro e he
    rw [List.mem_singleton.mp he]
  nodes := by
    intro nid node hGet
    rcases List.mem_cons.mp (Dict.mem_entries_iff.mpr hGet) with hEq | hMem
    · cases hEq
      rfl
    · cases List.mem_singleton.mp hMem
      rfl

end Executor

end Neuroswarm.Swarm
