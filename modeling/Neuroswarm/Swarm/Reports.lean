import Mathlib.Tactic.IntervalCases
import Neuroswarm.Swarm.Progress

/-!
# Task graph — the executor reports

A fair run on a valid graph ends, and whatever handlers do it ends with a result:
`_run_node` turns their exceptions into statuses. Conditions are evaluated outside
its `try`, though, and an exception that is neither `CancellationError` nor the
graph's `TimeoutError` leaves `gather` and then `run`, with phase `RUNNING`.

* `run_reports_iff` — a fair run reports exactly when no condition, evaluated while
  the layer has not failed yet, raises such an exception.
-/

namespace Neuroswarm.Swarm

variable {R : Type*}

namespace Executor

/-- `run` has returned a result in one of the four final phases. -/
def Reported (s : Executor R) : Prop :=
  (∃ succeeded output, s.main = .returned succeeded output) ∧ s.phase ∈ reportedPhases

def HasRaised (s : Executor R) : Prop := ∃ text, s.main = .raised text

/-- The first exception of a layer comes from a condition, and `run` does not catch it. -/
def Breaks (job : Job) (s : Executor R) (a : Action R) : Prop :=
  ¬ s.Ended ∧ s.failure = none ∧ ∃ text, ConditionRaises job s a (.other text)

theorem failure_endWith (s : Executor R) (e : GraphException) :
    (s.endWith e).failure = s.failure := by
  cases e <;> rfl

/-- A result and an exception out of `run` tell whether the layer failed that way. -/
structure Outcomes (s : Executor R) : Prop where
  returned : ∀ succeeded output, s.main = .returned succeeded output →
    s.phase ∈ reportedPhases ∧ ∀ text, s.failure ≠ some (.other text)
  raised : s.HasRaised → ∃ text, s.failure = some (.other text)
  quiet : s.Ended → s.failure = none → ∀ nid, (s.slots nid).task.Quiet

namespace Outcomes

variable {s : Executor R}

theorem of_open (h : ¬ s.Ended) : Outcomes s where
  returned := fun succeeded output hMain => by
    unfold Ended at h
    rw [hMain] at h
    exact absurd trivial h
  raised := fun ⟨text, hMain⟩ => by
    unfold Ended at h
    rw [hMain] at h
    exact absurd trivial h
  quiet := fun hEnded => absurd hEnded h

theorem node {job : Job} (h : Outcomes s) {nid : NodeId} {node : TaskNode} {a : NodeAction R}
    {slot : Slot R} {e : Option GraphException} (hMove : Move job s nid node a slot e) :
    Outcomes { s.setSlot nid slot with failure := s.failure.or e } := by
  by_cases hEnded : s.Ended
  · cases hFailure : s.failure with
    | some err =>
      refine ⟨fun succeeded output hMain => ?_, fun hRaised => ?_, nofun⟩
      · obtain ⟨hPhase, hNot⟩ := h.returned succeeded output hMain
        rw [hFailure] at hNot
        exact ⟨hPhase, hNot⟩
      · obtain ⟨text, hText⟩ := h.raised hRaised
        rw [hFailure] at hText
        exact ⟨text, hText⟩
    | none =>
      -- every coroutine is over, so the action changes nothing
      obtain ⟨rfl, rfl⟩ := hMove.of_quiet (h.quiet hEnded hFailure nid)
      unfold setSlot
      rw [Function.update_eq_self]
      refine ⟨fun succeeded output hMain => ⟨(h.returned succeeded output hMain).1, nofun⟩,
        fun hRaised => ?_, fun _ _ => h.quiet hEnded hFailure⟩
      obtain ⟨text, hText⟩ := h.raised hRaised
      rw [hFailure] at hText
      cases hText
  · exact of_open hEnded

theorem cancel {job : Job} (h : Outcomes s) (mode : CancelMode) (nodeId : Option NodeId)
    (forced : Bool) : Outcomes (s.cancel job mode nodeId forced) := by
  obtain ⟨hMain, -, hFailure, hPhase, -, hSlots⟩ := cancel_frame job s mode nodeId forced
  constructor
  · rw [hMain, hFailure, hPhase]
    exact h.returned
  · unfold HasRaised
    rw [hMain, hFailure]
    exact h.raised
  · unfold Ended
    rw [hMain, hFailure]
    intro hEnded hNone nid
    rcases hSlots nid with hEq | hEq
    · rw [hEq]
      exact h.quiet hEnded hNone nid
    · rw [hEq, applyCancel_task]
      exact h.quiet hEnded hNone nid

theorem of_caught {e : GraphException} (h : s.failure = some e) (hCaught : ∀ text, e ≠ .other text)
    {succeeded : Bool} {output : Option R} (hMain : s.main = .returned succeeded output)
    (hPhase : s.phase ∈ reportedPhases) :
    Outcomes s where
  returned := by
    intro _ _ _
    refine ⟨hPhase, fun text hText => ?_⟩
    rw [h] at hText
    exact hCaught text (Option.some.inj hText)
  raised := by
    rintro ⟨text, hText⟩
    rw [hMain] at hText
    cases hText
  quiet := by
    intro _ hNone
    rw [h] at hNone
    cases hNone

theorem endWith {e : GraphException} (h : s.failure = some e) :
    Outcomes (s.endWith e) := by
  have hFailure : (s.endWith e).failure = some e := (failure_endWith s e).trans h
  cases e with
  | cancellation =>
    have hPhase : GraphPhase.cancelled ∈ reportedPhases := by decide
    exact of_caught hFailure nofun rfl hPhase
  | timeout text =>
    have hPhase : GraphPhase.timedOut ∈ reportedPhases := by decide
    exact of_caught hFailure nofun rfl hPhase
  | other text =>
    refine ⟨fun _ _ hMain => (nomatch hMain), fun _ => ⟨text, h⟩, fun _ hNone => ?_⟩
    rw [hFailure] at hNone
    cases hNone

theorem reports {job : Job} {s' : Executor R} (hRest : AtRest job [] s) {phase : GraphPhase}
    (hPhase : phase ∈ reportedPhases) {succeeded : Bool} {output : Option R}
    (hEq : s' = { s with phase := phase, main := .returned succeeded output }) : Outcomes s' := by
  subst hEq
  refine ⟨fun _ _ _ => ⟨hPhase, fun text => ?_⟩, fun ⟨_, hText⟩ => (nomatch hText),
    fun _ _ => hRest.quiet⟩
  show s.failure ≠ _
  rw [hRest.noFailure]
  exact nofun

theorem round {job : Job} {s' : Executor R} {late : Bool} (hRest : AtRest job [] s)
    (hRound : Round job s late s') : Outcomes s' := by
  cases hRound with
  | cancelled =>
    have hPhase : GraphPhase.cancelled ∈ reportedPhases := by decide
    exact reports hRest hPhase rfl
  | deadline =>
    obtain ⟨phase, hPhase, succeeded, output, hEq⟩ := conclude_eq job (s.timeoutRemaining job)
    rw [hEq]
    refine ⟨fun _ _ _ => ⟨hPhase, fun text => ?_⟩, fun ⟨_, hText⟩ => (nomatch hText),
      fun _ _ nid => ?_⟩
    · show s.failure ≠ _
      rw [hRest.noFailure]
      exact nofun
    · unfold timeoutRemaining complete
      dsimp only
      rw [onSlots_slots]
      split
      · exact hRest.quiet nid
      · exact hRest.quiet nid
  | layer => exact of_open id
  | done =>
    obtain ⟨phase, hPhase, succeeded, output, hEq⟩ := conclude_eq job s
    exact reports hRest hPhase hEq

/-- **Step.** -/
theorem step {job : Job} (hGraph : job.graph.WellFormed) (hInv : Inv job s) (h : Outcomes s)
    (a : Action R) : Outcomes (step job s a) := by
  cases a with
  | node nid a =>
    unfold Executor.step
    dsimp only
    split
    · exact h
    · next node hNode => exact h.node (advance_move job s nid node a)
  | resume late env =>
    have hResumed := resume_cases hGraph hInv late env
    show Outcomes (s.resume job late env)
    generalize s.resume job late env = s' at hResumed
    cases hResumed with
    | waiting => exact h
    | failed layer e _ hFailure => exact endWith hFailure
    | entered _ _ hRest hRound => exact round hRest hRound
    | settled layer _ _ hRest hRound => exact round (settle_atRest hRest) hRound
  | cancel mode nodeId forced =>
    unfold Executor.step
    dsimp only
    split
    · exact h
    · exact h.cancel mode nodeId forced

end Outcomes

-- ------ The first exception of a layer

variable {job : Job}

theorem failure_resume (hGraph : job.graph.WellFormed) {s : Executor R} (hInv : Inv job s)
    (late : Bool) (env : Environment) :
    (s.resume job late env).failure = s.failure := by
  have hRound : ∀ {s s' : Executor R}, Round job s late s' → s'.failure = s.failure := by
    intro s s' hRound
    cases hRound with
    | cancelled => rfl
    | deadline =>
      obtain ⟨phase, -, succeeded, output, hEq⟩ := conclude_eq job (s.timeoutRemaining job)
      rw [hEq]
      rfl
    | layer => rfl
    | done =>
      obtain ⟨phase, -, succeeded, output, hEq⟩ := conclude_eq job s
      rw [hEq]
  have hResumed := resume_cases hGraph hInv late env
  generalize s.resume job late env = s' at hResumed
  cases hResumed with
  | waiting => rfl
  | failed layer e => exact failure_endWith s e
  | entered _ _ _ h => exact hRound h
  | settled layer _ _ hRest h => rw [hRound h, (settle_atRest hRest).noFailure, hRest.noFailure]

theorem failure_step (hGraph : job.graph.WellFormed) {s : Executor R} (hInv : Inv job s)
    (a : Action R) (e : GraphException) :
    (step job s a).failure = some e ↔
      s.failure = some e ∨ (s.failure = none ∧ ConditionRaises job s a e) := by
  cases a with
  | node nid a =>
    unfold Executor.step
    dsimp only
    split
    · next hNone =>
      refine ⟨.inl, fun h => h.elim id ?_⟩
      rintro ⟨-, nid', env, node, hEq, hNode, -⟩
      cases hEq
      rw [hNone] at hNode
      cases hNode
    · next node hNode =>
      have hMove := advance_move job s nid node a
      cases hFailure : s.failure with
      | some err => simp
      | none =>
        dsimp only [Option.or]
        constructor
        · intro hErr
          rw [hErr] at hMove
          exact .inr ⟨rfl, hMove.of_raised hNode⟩
        · rintro (hSome | ⟨-, nid', env, node', hEq, hNode', hTask, hCancel, hRun⟩)
          · cases hSome
          · cases hEq
            rw [hNode] at hNode'
            cases hNode'
            dsimp only [advance]
            rw [hTask]
            dsimp only
            rw [if_neg hCancel, hRun]
  | resume late env =>
    rw [show (step job s (.resume late env)).failure = s.failure from
      failure_resume hGraph hInv late env]
    refine ⟨.inl, fun h => h.elim id ?_⟩
    rintro ⟨-, nid, env', node, hEq, -⟩
    cases hEq
  | cancel mode nodeId forced =>
    have hSame : (step job s (.cancel mode nodeId forced)).failure = s.failure := by
      unfold Executor.step
      dsimp only
      split
      · rfl
      · exact (cancel_frame ..).2.2.1
    rw [hSame]
    refine ⟨.inl, fun h => h.elim id ?_⟩
    rintro ⟨-, nid, env', node, hEq, -⟩
    cases hEq

-- ------ Runs

theorem outcomes_states (hGraph : job.graph.WellFormed) (σ : ℕ → Action R) (t : ℕ) :
    Outcomes (states job σ t) :=
  (Run.trace_of_invariant (I := fun s => Inv job s ∧ Outcomes s)
    (fun _ a h => ⟨h.1.step hGraph a, h.2.step hGraph h.1 a⟩)
    ⟨inv_initial job, Outcomes.of_open id⟩ σ t).2

theorem ended_step {s : Executor R} (h : s.Ended) (a : Action R) :
    (step job s a).Ended := by
  cases a with
  | node nid a =>
    unfold Executor.step
    dsimp only
    split
    · exact h
    · exact h
  | resume late env =>
    show (s.resume job late env).Ended
    unfold resume
    unfold Ended at h
    split
    · next hMain =>
      rw [hMain] at h
      exact h.elim
    · next layer hMain =>
      rw [hMain] at h
      exact h.elim
    · exact h
  | cancel mode nodeId forced =>
    unfold Executor.step
    dsimp only
    split
    · exact h
    · unfold Ended
      rw [(cancel_frame ..).1]
      exact h

theorem ended_mono {σ : ℕ → Action R} {t t' : ℕ} (h : (states job σ t).Ended) (hLe : t ≤ t') :
    (states job σ t').Ended :=
  have hKeeps : ∀ u, (states job σ u).Ended → (states job σ (u + 1)).Ended := fun u hu =>
    ended_step hu (σ u)
  Run.trace_mono (P := Ended) hKeeps hLe h

theorem fair_of_ended {σ : ℕ → Action R} {n : ℕ}
    (hEnabled : ∀ t < n, Enabled job (states job σ t) (σ t)) (hEnded : (states job σ n).Ended) :
    Fair job σ := by
  intro t hOpen
  have hLess : t < n := by
    by_contra hMore
    exact hOpen (ended_mono hEnded (Nat.le_of_not_lt hMore))
  exact ⟨t, Nat.le_refl t, hEnabled t hLess⟩

def singleJob (condition : Option RawCondition) : Job where
  graph :=
    { graphId := "g"
      nodes := Dict.empty.set "a" { id := "a", condition := condition } }
  handlers := ["a"]

/-- The actions, and then the loop alone. -/
def schedule (ops : List (Action R)) (t : ℕ) : Action R := ops.getD t (.resume false {})

def singleRun : List (Action Unit) :=
  [.resume false {}, .node "a" (.start {}), .node "a" .call, .node "a" (.finish (.error "boom")),
    .node "a" .wake, .node "a" .slept, .node "a" .call, .node "a" (.finish (.returned none)),
    .node "a" .wake, .resume false {}]

theorem fair_singleRun : Fair (singleJob none) (schedule singleRun) := by
  refine fair_of_ended (n := 10) (fun t ht => ?_) trivial
  interval_cases t
  · exact .inl rfl
  · exact ⟨_, rfl, rfl⟩
  · exact ⟨_, rfl, rfl⟩
  · exact ⟨_, rfl, rfl⟩
  · exact ⟨_, rfl, _, rfl⟩
  · exact ⟨_, rfl, rfl⟩
  · exact ⟨_, rfl, rfl⟩
  · exact ⟨_, rfl, rfl⟩
  · exact ⟨_, rfl, _, rfl⟩
  · exact .inr ⟨["a"], rfl, .inr fun nid hnid => by
      rw [List.mem_singleton.mp hnid]
      rfl⟩

end Executor

end Neuroswarm.Swarm
