import Neuroswarm.MetaOrchestrator.Sections

/-!
# Meta orchestrator — what conditions see

`Success(p)` and `Failure(p)` read the status of `p` from a map that is put together
from three places: the lists of the execution, the map of its context, which
replaces them, and the fills of `resolve`, which take every skipped node that has no
entry for a success. `Truthful` says that what a check sees is what happened.

* `seesTruth_iff_keepsInformed` — it is, wherever the entries of the context are right and no
  node without an entry is skipped in the section (`Informed`).
-/

namespace Neuroswarm.Swarm

-- ------ The nodes that conditions name

namespace Condition

mutual

def names : Condition → List NodeId
  | .success nodeIds | .failure nodeIds => nodeIds
  | .and children | .or children => namesAmong children
  | .not child => child.names
  | .always | .never | .confidenceThreshold _ _ | .budgetThreshold _ | .latencyThreshold _
  | .memoryThreshold _ | .toolAvailability _ | .modelAvailability _ | .custom _ => []

def namesAmong : List Condition → List NodeId
  | [] => []
  | c :: cs => c.names ++ namesAmong cs

end

end Condition

/-- A node, or a blocking edge into it, has a condition that names `p`. -/
def TaskGraph.Names (g : TaskGraph) (p : NodeId) : Prop :=
  (∃ e ∈ g.edges, e.isBlocking ∧ ∃ c, e.condition = some (.ok c) ∧ p ∈ c.names) ∨
    ∃ nid node, g.nodes.get? nid = some node ∧
      ∃ c, node.condition = some (.ok c) ∧ p ∈ c.names

end Neuroswarm.Swarm

namespace Neuroswarm.MetaOrchestrator

open Swarm

-- ------ Statuses

/-- `Success` takes this status for a success. -/
def Succeeds (status : Option String) : Prop := ∃ x ∈ status, x ∈ successStatuses.map NodeStatus.value

/-- `Failure` takes it for a failure. -/
def Fails (status : Option String) : Prop := ∃ x ∈ status, x ∈ failureStatuses.map NodeStatus.value

instance (status : Option String) : Decidable (Succeeds status) := by
  unfold Succeeds
  infer_instance

instance (status : Option String) : Decidable (Fails status) := by
  unfold Fails
  infer_instance

section

variable (registry : Registry) (ctx : ConditionCtx) (p : NodeId)

theorem evaluate_success :
    ctx.evaluate registry (some (.ok (.success [p]))) = .ok (decide (Succeeds (ctx.nodeStatuses p))) := by
  unfold ConditionCtx.evaluate evaluateCondition Condition.evaluate Succeeds
  cases hEntry : ctx.nodeStatuses p with
  | none => simp [hEntry]
  | some x => simp [hEntry]

theorem evaluate_failure :
    ctx.evaluate registry (some (.ok (.failure [p]))) = .ok (decide (Fails (ctx.nodeStatuses p))) := by
  unfold ConditionCtx.evaluate evaluateCondition Condition.evaluate Fails
  cases hEntry : ctx.nodeStatuses p with
  | none => simp [hEntry]
  | some x => simp [hEntry]

end

theorem Succeeds.not_fails {status : Option String} (h : Succeeds status) : ¬ Fails status := by
  rintro ⟨x, hx, hFails⟩
  obtain ⟨y, hy, hSucceeds⟩ := h
  rw [Option.mem_def] at hx hy
  rw [hx] at hy
  cases hy
  simp only [successStatuses, failureStatuses, List.map_cons, List.map_nil, List.mem_cons,
    List.not_mem_nil, or_false, NodeStatus.value] at hFails hSucceeds
  rcases hSucceeds with rfl | rfl
  · exact absurd hFails (by decide)
  · exact absurd hFails (by decide)

theorem not_succeeds_none : ¬ Succeeds none := by decide

theorem not_fails_none : ¬ Fails none := by decide

theorem fillStatuses_of_some {s : NodeSets} {statuses : NodeId → Option String} {p : NodeId}
    {x : String} (h : statuses p = some x) : s.fillStatuses statuses p = some x := by
  unfold NodeSets.fillStatuses
  rw [h]
  rfl

theorem fillStatuses_of_none {s : NodeSets} {statuses : NodeId → Option String} {p : NodeId}
    (h : statuses p = none) : s.fillStatuses statuses p =
      if p ∈ s.done then some "succeeded" else if p ∈ s.failed then some "failed" else none := by
  unfold NodeSets.fillStatuses
  rw [h]
  by_cases hDone : p ∈ s.done
  · rw [if_pos hDone, if_pos hDone]
    rfl
  · have hSkipped : p ∉ s.skipped := fun hIn => hDone (NodeSets.mem_done.mpr (.inr hIn))
    rw [if_neg hDone, if_neg hDone, if_neg hSkipped]
    by_cases hFailed : p ∈ s.failed
    · rw [if_pos hFailed]
      rfl
    · rw [if_neg hFailed]
      rfl

-- ------ True checks

/-- The conditions on the outcome of `p` are true exactly when it is what happened. -/
structure Truthful (registry : Registry) (chk : Coordinator.Check) (p : NodeId) : Prop where
  success : chk.ctx.evaluate registry (some (.ok (.success [p]))) = .ok true ↔ p ∈ chk.sets.completed
  skipped : p ∈ chk.sets.skipped →
    chk.ctx.evaluate registry (some (.ok (.success [p]))) = .ok false
  failure : chk.ctx.evaluate registry (some (.ok (.failure [p]))) = .ok true ↔ p ∈ chk.sets.failed

theorem truthful_iff {registry : Registry} {chk : Coordinator.Check} {p : NodeId} :
    Truthful registry chk p ↔
      (Succeeds (chk.ctx.nodeStatuses p) ↔ p ∈ chk.sets.completed) ∧
      (p ∈ chk.sets.skipped → ¬ Succeeds (chk.ctx.nodeStatuses p)) ∧
      (Fails (chk.ctx.nodeStatuses p) ↔ p ∈ chk.sets.failed) := by
  constructor
  · rintro ⟨hSuccess, hSkipped, hFailure⟩
    rw [evaluate_success] at hSuccess hSkipped
    rw [evaluate_failure] at hFailure
    simpa using And.intro hSuccess (And.intro hSkipped hFailure)
  · rintro ⟨hSuccess, hSkipped, hFailure⟩
    constructor
    · rw [evaluate_success]
      simpa using hSuccess
    · rw [evaluate_success]
      simpa using hSkipped
    · rw [evaluate_failure]
      simpa using hFailure

/-- The `node_statuses` that a context brings along. -/
def Context.ownStatuses : Context → Option (NodeId → Option String)
  | .swarm (.ok map) => map.nodeStatuses
  | .swarm (.error _) | .plain => none

/-- `should_skip` is called in the section. -/
def Looks (c : Coordinator) (g : TaskGraph) (sec : Section) (ex : WorkflowExecution) : Prop :=
  sec ≠ .finish ∧ ∃ v ∈ ex.pendingNodes, v ∉ c.kept g sec ex

/-- `resolve` is called in the section. -/
def Resolves (c : Coordinator) (g : TaskGraph) (sec : Section) (ex : WorkflowExecution) : Prop :=
  sec = .trySkipBlocked → ∃ v, c.Skips g sec ex v

/-- `p` is put among the skipped nodes by this section. -/
def SkipsNow (c : Coordinator) (g : TaskGraph) (sec : Section) (ex : WorkflowExecution)
    (p : NodeId) : Prop :=
  sec ≠ .finish ∧ c.Skips g sec ex p ∧ p ∉ ex.skippedNodes

/-- `p` is completed, failed, skipped, or none of these. -/
def Apart (ex : WorkflowExecution) (p : NodeId) : Prop :=
  (p ∈ ex.completedNodes → p ∉ ex.failedNodes ∧ p ∉ ex.skippedNodes) ∧
    (p ∈ ex.failedNodes → p ∉ ex.skippedNodes)

/-- The entry of the context for `p` is right. Without one, `p` is not skipped where `resolve` is
called, and not completed where `should_skip` is. A context without entries leaves it to the
execution, but then `p` is not to be skipped in the section. -/
def Informed (c : Coordinator) (g : TaskGraph) (sec : Section) (ex : WorkflowExecution)
    (p : NodeId) : Prop :=
  match ex.context.ownStatuses with
  | none => Apart ex p ∧ (p ∉ ex.failedNodes → ¬ SkipsNow c g sec ex p)
  | some statuses =>
    match statuses p with
    | none =>
      (Looks c g sec ex → p ∉ ex.completedNodes ∧ p ∉ ex.failedNodes) ∧
        (Resolves c g sec ex → p ∉ ex.skippedNodes ∧ ¬ SkipsNow c g sec ex p ∧
          (p ∈ ex.completedNodes → p ∉ ex.failedNodes))
    | some x =>
      (Succeeds (some x) ↔ p ∈ ex.completedNodes) ∧ (Fails (some x) ↔ p ∈ ex.failedNodes) ∧
        (p ∈ ex.completedNodes → p ∉ ex.skippedNodes ∧ ¬ SkipsNow c g sec ex p)

section

variable {c : Coordinator} {g : TaskGraph} {sec : Section} {ex : WorkflowExecution} {p : NodeId}

theorem conditionCtx_nodeStatuses (ex : WorkflowExecution) :
    ex.conditionCtx.nodeStatuses = ex.context.ownStatuses.getD ex.statuses := by
  unfold WorkflowExecution.conditionCtx Context.ownStatuses
  cases ex.context with
  | plain => rfl
  | swarm asConditionMap =>
    cases asConditionMap with
    | error text => rfl
    | ok map => rfl

theorem statuses_right (h : Apart ex p) :
    (Succeeds (ex.statuses p) ↔ p ∈ ex.completedNodes) ∧
      (Fails (ex.statuses p) ↔ p ∈ ex.failedNodes) ∧
      (ex.statuses p = none →
        p ∉ ex.completedNodes ∧ p ∉ ex.failedNodes ∧ p ∉ ex.skippedNodes) := by
  obtain ⟨hCompleted, hFailed⟩ := h
  unfold WorkflowExecution.statuses
  by_cases hK : p ∈ ex.skippedNodes
  · have hC : p ∉ ex.completedNodes := fun hIn => (hCompleted hIn).2 hK
    have hF : p ∉ ex.failedNodes := fun hIn => hFailed hIn hK
    rw [if_pos hK]
    exact ⟨iff_of_false (by decide) hC, iff_of_false (by decide) hF, fun h => by cases h⟩
  · rw [if_neg hK]
    by_cases hF : p ∈ ex.failedNodes
    · have hC : p ∉ ex.completedNodes := fun hIn => (hCompleted hIn).1 hF
      rw [if_pos hF]
      exact ⟨iff_of_false (by decide) hC, iff_of_true (by decide) hF, fun h => by cases h⟩
    · rw [if_neg hF]
      by_cases hC : p ∈ ex.completedNodes
      · rw [if_pos hC]
        exact ⟨iff_of_true (by decide) hC, iff_of_false (by decide) hF, fun h => by cases h⟩
      · rw [if_neg hC]
        exact ⟨iff_of_false (by decide) hC, iff_of_false (by decide) hF, fun _ => ⟨hC, hF, hK⟩⟩

/-- The states of a section: the one it finds, with nodes that its loop skips. -/
abbrev Within (c : Coordinator) (g : TaskGraph) (sec : Section) (ex : WorkflowExecution)
    (s : NodeSets) : Prop :=
  Skipping c g ex.conditionCtx (c.kept g sec ex) ex.pendingNodes ex s

theorem Skipping.cases {s : NodeSets} (hSec : sec ≠ .finish) (h : Within c g sec ex s)
    (hIn : p ∈ s.skipped) :
    p ∈ ex.skippedNodes ∨ SkipsNow c g sec ex p := by
  by_cases hK : p ∈ ex.skippedNodes
  · exact .inl hK
  · exact .inr ⟨hSec, (h.skipped p hIn).resolve_left hK, hK⟩

-- ------ Informed sections are truthful

theorem truthful_skip (h : Informed c g sec ex p) (hLooks : Looks c g sec ex) {s : NodeSets}
    (hWithin : Within c g sec ex s) :
    Truthful c.registry { sets := s, ctx := ex.conditionCtx } p := by
  refine truthful_iff.mpr ?_
  dsimp only
  rw [hWithin.completed, hWithin.failed, conditionCtx_nodeStatuses]
  unfold Informed at h
  cases hOwn : ex.context.ownStatuses with
  | none =>
    rw [hOwn] at h
    obtain ⟨hApart, hSkips⟩ := h
    obtain ⟨hC, hF, -⟩ := statuses_right hApart
    refine ⟨hC, fun hIn hSucceeds => ?_, hF⟩
    obtain ⟨hFailed, hSkipped⟩ := hApart.1 (hC.mp hSucceeds)
    exact (hWithin.cases hLooks.1 hIn).elim hSkipped (hSkips hFailed)
  | some statuses =>
    rw [hOwn] at h
    dsimp only [Option.getD_some] at h ⊢
    cases hEntry : statuses p with
    | none =>
      rw [hEntry] at h
      obtain ⟨hC, hF⟩ := h.1 hLooks
      exact ⟨iff_of_false not_succeeds_none hC, fun _ => not_succeeds_none,
        iff_of_false not_fails_none hF⟩
    | some x =>
      rw [hEntry] at h
      obtain ⟨hC, hF, hApart⟩ := h
      refine ⟨hC, fun hIn hSucceeds => ?_, hF⟩
      obtain ⟨hSkipped, hSkips⟩ := hApart (hC.mp hSucceeds)
      exact (hWithin.cases hLooks.1 hIn).elim hSkipped hSkips

theorem fill_right {s : NodeSets} {statuses : NodeId → Option String} (hEntry : statuses p = none)
    (hSkipped : p ∉ s.skipped) (hApart : p ∈ s.completed → p ∉ s.failed) :
    (Succeeds (s.fillStatuses statuses p) ↔ p ∈ s.completed) ∧
      (Fails (s.fillStatuses statuses p) ↔ p ∈ s.failed) := by
  rw [fillStatuses_of_none hEntry]
  by_cases hC : p ∈ s.completed
  · rw [if_pos (NodeSets.mem_done.mpr (.inl hC))]
    exact ⟨iff_of_true (by decide) hC, iff_of_false (by decide) (hApart hC)⟩
  · rw [if_neg fun hDone => (NodeSets.mem_done.mp hDone).elim hC hSkipped]
    by_cases hF : p ∈ s.failed
    · rw [if_pos hF]
      exact ⟨iff_of_false (by decide) hC, iff_of_true (by decide) hF⟩
    · rw [if_neg hF]
      exact ⟨iff_of_false (by decide) hC, iff_of_false (by decide) hF⟩

theorem truthful_resolve (h : Informed c g sec ex p) (hResolves : Resolves c g sec ex)
    {s : NodeSets} (hWithin : Within c g sec ex s)
    (hNow : p ∈ s.skipped → p ∈ ex.skippedNodes ∨ SkipsNow c g sec ex p) :
    Truthful c.registry { sets := s, ctx := s.resolveCtx ex.conditionCtx } p := by
  refine truthful_iff.mpr ?_
  dsimp only [NodeSets.resolveCtx]
  rw [conditionCtx_nodeStatuses]
  unfold Informed at h
  cases hOwn : ex.context.ownStatuses with
  | none =>
    rw [hOwn] at h
    obtain ⟨hApart, hSkips⟩ := h
    obtain ⟨hC, hF, hNone⟩ := statuses_right hApart
    dsimp only [Option.getD_none]
    cases hEntry : ex.statuses p with
    | none =>
      obtain ⟨-, hFailed, hK⟩ := hNone hEntry
      -- without an entry, `resolve` fills in what it sees in its own sets
      have hNot : p ∉ s.skipped := fun hIn => (hNow hIn).elim hK (hSkips hFailed)
      obtain ⟨hC', hF'⟩ := fill_right hEntry hNot fun _ => by
        rw [hWithin.failed]
        exact hFailed
      exact ⟨hC', fun hIn => absurd hIn hNot, hF'⟩
    | some x =>
      rw [hEntry] at hC hF
      rw [fillStatuses_of_some hEntry, hWithin.completed, hWithin.failed]
      refine ⟨hC, fun hIn hSucceeds => ?_, hF⟩
      obtain ⟨hFailed, hSkipped⟩ := hApart.1 (hC.mp hSucceeds)
      exact (hNow hIn).elim hSkipped (hSkips hFailed)
  | some statuses =>
    rw [hOwn] at h
    dsimp only [Option.getD_some] at h ⊢
    cases hEntry : statuses p with
    | none =>
      rw [hEntry] at h
      -- the context has statuses of its own, but none for `p`
      obtain ⟨hK, hSkips, hApart⟩ := h.2 hResolves
      have hNot : p ∉ s.skipped := fun hIn => (hNow hIn).elim hK hSkips
      obtain ⟨hC, hF⟩ := fill_right hEntry hNot fun hIn => by
        rw [hWithin.failed]
        rw [hWithin.completed] at hIn
        exact hApart hIn
      exact ⟨hC, fun hIn => absurd hIn hNot, hF⟩
    | some x =>
      rw [hEntry] at h
      obtain ⟨hC, hF, hApart⟩ := h
      rw [fillStatuses_of_some hEntry, hWithin.completed, hWithin.failed]
      refine ⟨hC, fun hIn hSucceeds => ?_, hF⟩
      obtain ⟨hSkipped, hSkips⟩ := hApart (hC.mp hSucceeds)
      exact (hNow hIn).elim hSkipped hSkips

theorem looks_of_mem {chk : Coordinator.Check} (hSec : sec ≠ .finish)
    (h : chk ∈ c.skipLoopChecks g ex.conditionCtx (c.kept g sec ex) ex.pendingNodes ex) :
    Looks c g sec ex := by
  refine ⟨hSec, ?_⟩
  by_contra hNone
  have hAll : ∀ v ∈ ex.pendingNodes, v ∈ c.kept g sec ex := fun v hv =>
    not_not.mp fun hNot => hNone ⟨v, hv, hNot⟩
  -- a loop that passes over every node makes no check
  have hNil : ∀ {l : List NodeId} {ex' : WorkflowExecution}, (∀ v ∈ l, v ∈ c.kept g sec ex) →
      c.skipLoopChecks g ex.conditionCtx (c.kept g sec ex) l ex' = [] := by
    intro l
    induction l with
    | nil => exact fun _ => rfl
    | cons nid l ih =>
      intro ex' hAll
      unfold Coordinator.skipLoopChecks
      rw [if_pos (hAll nid (List.mem_cons_self ..))]
      exact ih fun v hv => hAll v (List.mem_cons_of_mem _ hv)
  rw [hNil hAll] at h
  cases h

/-- **A section.** -/
theorem truthful_checks (h : Informed c g sec ex p) {chk : Coordinator.Check}
    (hChk : chk ∈ c.checks g sec ex) : Truthful c.registry chk p := by
  have hLoop : sec ≠ .finish → ∀ {chk},
      chk ∈ c.skipLoopChecks g ex.conditionCtx (c.kept g sec ex) ex.pendingNodes ex →
      Truthful c.registry chk p := by
    intro hSec chk hIn
    obtain ⟨hCtx, hSkipping⟩ := skipLoopChecks_skipping hIn
    have hTruthful := truthful_skip h (looks_of_mem hSec hIn) hSkipping
    rw [← hCtx] at hTruthful
    exact hTruthful
  have hResolve : ∀ {s cancelRequested chk}, Resolves c g sec ex → Within c g sec ex s →
      (p ∈ s.skipped → p ∈ ex.skippedNodes ∨ SkipsNow c g sec ex p) →
      chk ∈ Coordinator.resolveChecks s cancelRequested ex.conditionCtx →
      Truthful c.registry chk p := by
    intro s cancelRequested chk hResolves hWithin hNow hIn
    unfold Coordinator.resolveChecks at hIn
    split at hIn
    · cases hIn
    · rw [List.mem_singleton.mp hIn]
      exact truthful_resolve h hResolves hWithin hNow
  -- the last check sees what the loop has skipped
  have hLast : Within c g sec ex
      (c.skipLoop g ex.conditionCtx (c.kept g sec ex) ex.pendingNodes ex).1.sets :=
    skipLoop_skipping c g ex.conditionCtx (c.kept g sec ex) ex.pendingNodes ex
  unfold Coordinator.checks at hChk
  cases sec with
  | prepare =>
    have hResolves : Resolves c g .prepare ex := fun h => by cases h
    dsimp only at hChk
    rcases List.mem_append.mp hChk with hFirst | hChk
    · exact hResolve hResolves (.refl _ _) .inl hFirst
    · split at hChk
      · cases hChk
      · rcases List.mem_append.mp hChk with hIn | hChk
        · exact hLoop (by decide) hIn
        · split at hChk
          · cases hChk
          · next hEq =>
            rw [hEq] at hLast
            exact hResolve hResolves hLast (hLast.cases (by decide)) hChk
  | finish => exact hResolve (fun h => by cases h) (.refl _ _) .inl hChk
  | trySkipBlocked =>
    dsimp only at hChk
    rcases List.mem_append.mp hChk with hIn | hChk
    · exact hLoop (by decide) hIn
    · split at hChk
      · cases hChk
      · cases hChk
      · next hEq =>
        have hResolves : Resolves c g .trySkipBlocked ex := fun _ => (skipLoop_changed hEq).mp rfl
        rw [hEq] at hLast
        exact hResolve hResolves hLast (hLast.cases (by decide)) hChk

-- ------ Truthful sections are informed

/-- No condition raises in the section, and nobody asked for the execution to be cancelled. -/
structure RunsThrough (c : Coordinator) (g : TaskGraph) (sec : Section) (ex : WorkflowExecution) :
    Prop where
  goesOn : ex.cancelRequested = false
  resolved : sec = .prepare →
    ∃ ready, resolve c.registry g ex.sets ex.cancelRequested ex.conditionCtx = .ok ready
  looped : sec ≠ .finish → ∃ ex' changed,
    c.skipLoop g ex.conditionCtx (c.kept g sec ex) ex.pendingNodes ex = (ex', .ok changed)

theorem RunsThrough.skip_mem (h : RunsThrough c g sec ex) (hLooks : Looks c g sec ex) :
    { sets := ex.sets, ctx := ex.conditionCtx } ∈ c.checks g sec ex := by
  obtain ⟨hSec, v, hv, hKept⟩ := hLooks
  obtain ⟨ex', changed, hLoop⟩ := h.looped hSec
  -- the first node that the loop looks at is looked at with the context as it is
  have hFirst : ∀ {l : List NodeId} {changed : Bool}, (∃ v ∈ l, v ∉ c.kept g sec ex) →
      c.skipLoop g ex.conditionCtx (c.kept g sec ex) l ex = (ex', .ok changed) →
      { sets := ex.sets, ctx := ex.conditionCtx } ∈
        c.skipLoopChecks g ex.conditionCtx (c.kept g sec ex) l ex := by
    intro l
    induction l with
    | nil =>
      rintro changed ⟨v, hv, -⟩
      cases hv
    | cons nid l ih =>
      rintro changed ⟨v, hv, hKept⟩ hLoop
      unfold Coordinator.skipLoopChecks
      unfold Coordinator.skipLoop at hLoop
      split at hLoop
      · next hIn =>
        rw [if_pos hIn]
        rcases List.mem_cons.mp hv with rfl | hv
        · exact absurd hIn hKept
        · exact ih ⟨v, hv, hKept⟩ hLoop
      · next hNot =>
        rw [if_neg hNot]
        cases hNode : g.nodes.get? nid with
        | none =>
          rw [hNode] at hLoop
          cases hLoop
        | some node => exact List.mem_cons_self ..
  have hIn := hFirst ⟨v, hv, hKept⟩ hLoop
  unfold Coordinator.checks
  cases sec with
  | finish => exact absurd rfl hSec
  | prepare =>
    obtain ⟨ready, hReady⟩ := h.resolved rfl
    dsimp only
    rw [hReady]
    exact List.mem_append_right _ (List.mem_append_left _ hIn)
  | trySkipBlocked => exact List.mem_append_left _ hIn

theorem skipLoop_cancelRequested (c : Coordinator) (g : TaskGraph) (ctx : ConditionCtx)
    (keep l : List NodeId) (ex : WorkflowExecution) :
    (c.skipLoop g ctx keep l ex).1.cancelRequested = ex.cancelRequested := by
  induction l generalizing ex with
  | nil => rfl
  | cons nid l ih =>
    unfold Coordinator.skipLoop
    split
    · exact ih ex
    · split
      · rfl
      · split
        · rfl
        · exact ih ex
        · exact ih (ex.skip nid)

theorem RunsThrough.resolve_mem (h : RunsThrough c g sec ex) (hResolves : Resolves c g sec ex) :
    ∃ s, Within c g sec ex s ∧ (SkipsNow c g sec ex p → p ∈ s.skipped) ∧
      { sets := s, ctx := s.resolveCtx ex.conditionCtx } ∈ c.checks g sec ex := by
  unfold Coordinator.checks
  cases sec with
  | finish =>
    refine ⟨ex.sets, .refl _ _, fun hNow => absurd rfl hNow.1, ?_⟩
    unfold Coordinator.resolveChecks
    rw [h.goesOn]
    exact List.mem_singleton_self _
  | prepare =>
    obtain ⟨ready, hReady⟩ := h.resolved rfl
    obtain ⟨ex', changed, hLoop⟩ := h.looped (by decide)
    have hLast := skipLoop_skipping c g ex.conditionCtx (c.kept g .prepare ex) ex.pendingNodes ex
    rw [hLoop] at hLast
    refine ⟨ex'.sets, hLast, fun hNow => ?_, ?_⟩
    · exact mem_skipLoop hLoop hNow.2.1.1 hNow.2.1.2.1 hNow.2.1.2.2
    · have hGoesOn := skipLoop_cancelRequested c g ex.conditionCtx (c.kept g .prepare ex)
        ex.pendingNodes ex
      rw [hLoop, h.goesOn] at hGoesOn
      dsimp only
      rw [hReady, hLoop]
      refine List.mem_append_right _ (List.mem_append_right _ ?_)
      unfold Coordinator.resolveChecks
      dsimp only
      rw [hGoesOn]
      exact List.mem_singleton_self _
  | trySkipBlocked =>
    obtain ⟨ex', changed, hLoop⟩ := h.looped (by decide)
    have hLast := skipLoop_skipping c g ex.conditionCtx (c.kept g .trySkipBlocked ex)
      ex.pendingNodes ex
    rw [hLoop] at hLast
    refine ⟨ex'.sets, hLast, fun hNow => ?_, ?_⟩
    · exact mem_skipLoop hLoop hNow.2.1.1 hNow.2.1.2.1 hNow.2.1.2.2
    -- `resolve` runs again only after something was skipped
    · cases (skipLoop_changed hLoop).mpr (hResolves rfl)
      dsimp only
      rw [hLoop]
      refine List.mem_append_right _ ?_
      unfold Coordinator.resolveChecks
      exact List.mem_singleton_self _

theorem apart_of_right (hC : Succeeds (ex.statuses p) ↔ p ∈ ex.completedNodes)
    (hK : p ∈ ex.skippedNodes → ¬ Succeeds (ex.statuses p))
    (hF : Fails (ex.statuses p) ↔ p ∈ ex.failedNodes) : Apart ex p := by
  refine ⟨fun hCompleted => ⟨fun hFailed => ?_, fun hSkipped => ?_⟩, fun hFailed hSkipped => ?_⟩
  · exact (hC.mpr hCompleted).not_fails (hF.mpr hFailed)
  · exact hK hSkipped (hC.mpr hCompleted)
  · have hFails := hF.mpr hFailed
    unfold WorkflowExecution.statuses at hFails
    rw [if_pos hSkipped] at hFails
    exact absurd hFails (by decide)

theorem statuses_none (h : ex.statuses p = none) :
    p ∉ ex.completedNodes ∧ p ∉ ex.failedNodes ∧ p ∉ ex.skippedNodes := by
  unfold WorkflowExecution.statuses at h
  split at h
  · cases h
  · next hK =>
    split at h
    · cases h
    · next hF =>
      split at h
      · cases h
      · next hC => exact ⟨hC, hF, hK⟩

/-- **A section, conversely.** -/
theorem informed_of_truthful (hRuns : RunsThrough c g sec ex)
    (hPending : sec = .trySkipBlocked → ex.pendingNodes ≠ [])
    (h : ∀ chk ∈ c.checks g sec ex, Truthful c.registry chk p) : Informed c g sec ex p := by
  have hRaw : Looks c g sec ex → _ := fun hLooks =>
    truthful_iff.mp (h _ (hRuns.skip_mem hLooks))
  have hFill : Resolves c g sec ex → ∃ s, Within c g sec ex s ∧
      (SkipsNow c g sec ex p → p ∈ s.skipped) ∧
      (Succeeds (s.fillStatuses ex.conditionCtx.nodeStatuses p) ↔ p ∈ ex.completedNodes) ∧
      (p ∈ s.skipped → ¬ Succeeds (s.fillStatuses ex.conditionCtx.nodeStatuses p)) ∧
      (Fails (s.fillStatuses ex.conditionCtx.nodeStatuses p) ↔ p ∈ ex.failedNodes) := by
    intro hResolves
    obtain ⟨s, hWithin, hNow, hIn⟩ := hRuns.resolve_mem (p := p) hResolves
    obtain ⟨hC, hK, hF⟩ := truthful_iff.mp (h _ hIn)
    dsimp only [NodeSets.resolveCtx] at hC hK hF
    rw [hWithin.completed] at hC
    rw [hWithin.failed] at hF
    exact ⟨s, hWithin, hNow, hC, hK, hF⟩
  have hNowResolves : SkipsNow c g sec ex p → Resolves c g sec ex := fun hNow _ => ⟨p, hNow.2.1⟩
  -- a section makes at least one check
  have hEither : Looks c g sec ex ∨ Resolves c g sec ex := by
    cases sec with
    | prepare => exact .inr fun h => by cases h
    | finish => exact .inr fun h => by cases h
    | trySkipBlocked =>
      obtain ⟨v, hv⟩ := List.exists_mem_of_ne_nil _ (hPending rfl)
      exact .inl ⟨by decide, v, hv, List.not_mem_nil⟩
  dsimp only at hRaw
  rw [conditionCtx_nodeStatuses] at hRaw hFill
  unfold Informed
  cases hOwn : ex.context.ownStatuses with
  | none =>
    rw [hOwn] at hRaw hFill
    dsimp only [Option.getD_none] at hRaw hFill ⊢
    refine ⟨?_, fun hFailed hNow => ?_⟩
    · cases hEntry : ex.statuses p with
      | none =>
        obtain ⟨hC, hF, hK⟩ := statuses_none hEntry
        exact ⟨fun hIn => absurd hIn hC, fun hIn => absurd hIn hF⟩
      | some x =>
        rcases hEither with hLooks | hResolves
        · obtain ⟨hC, hK, hF⟩ := hRaw hLooks
          exact apart_of_right hC hK hF
        · obtain ⟨s, hWithin, -, hC, hK, hF⟩ := hFill hResolves
          rw [fillStatuses_of_some hEntry, ← hEntry] at hC hK hF
          exact apart_of_right hC (fun hIn => hK (hWithin.kept hIn)) hF
    · obtain ⟨s, -, hSkipped, -, hK, -⟩ := hFill (hNowResolves hNow)
      refine hK (hSkipped hNow) ?_
      cases hEntry : ex.statuses p with
      | none =>
        rw [fillStatuses_of_none hEntry, if_pos (NodeSets.mem_done.mpr (.inr (hSkipped hNow)))]
        decide
      | some x =>
        -- neither skipped nor failed, so it is completed
        rw [fillStatuses_of_some hEntry]
        unfold WorkflowExecution.statuses at hEntry
        rw [if_neg hNow.2.2, if_neg hFailed] at hEntry
        split at hEntry
        · rw [← hEntry]
          decide
        · cases hEntry
  | some statuses =>
    rw [hOwn] at hRaw hFill
    dsimp only [Option.getD_some] at hRaw hFill ⊢
    cases hEntry : statuses p with
    | none =>
      dsimp only
      refine ⟨fun hLooks => ?_, fun hResolves => ?_⟩
      · obtain ⟨hC, -, hF⟩ := hRaw hLooks
        rw [hEntry] at hC hF
        exact ⟨fun hIn => not_succeeds_none (hC.mpr hIn), fun hIn => not_fails_none (hF.mpr hIn)⟩
      · obtain ⟨s, hWithin, hNow, -, hK, hF⟩ := hFill hResolves
        have hDone : p ∈ s.done →
            s.fillStatuses statuses p = some "succeeded" := fun hIn => by
          rw [fillStatuses_of_none hEntry, if_pos hIn]
        have hNot : p ∉ s.skipped := fun hIn => hK hIn <| by
          rw [hDone (NodeSets.mem_done.mpr (.inr hIn))]
          decide
        refine ⟨fun hIn => hNot (hWithin.kept hIn), fun hIn => hNot (hNow hIn),
          fun hIn hFailed => ?_⟩
        rw [← hWithin.completed] at hIn
        rw [hDone (NodeSets.mem_done.mpr (.inl hIn))] at hF
        exact absurd (hF.mpr hFailed) (by decide)
    | some x =>
      dsimp only
      have hX : (Succeeds (some x) ↔ p ∈ ex.completedNodes) ∧
          (p ∈ ex.skippedNodes → ¬ Succeeds (some x)) ∧
          (Fails (some x) ↔ p ∈ ex.failedNodes) := by
        rcases hEither with hLooks | hResolves
        · obtain ⟨hC, hK, hF⟩ := hRaw hLooks
          rw [hEntry] at hC hK hF
          exact ⟨hC, hK, hF⟩
        · obtain ⟨s, hWithin, -, hC, hK, hF⟩ := hFill hResolves
          rw [fillStatuses_of_some hEntry] at hC hK hF
          exact ⟨hC, fun hIn => hK (hWithin.kept hIn), hF⟩
      obtain ⟨hC, hK, hF⟩ := hX
      refine ⟨hC, hF, fun hIn => ⟨fun hSkipped => hK hSkipped (hC.mpr hIn), fun hNow => ?_⟩⟩
      obtain ⟨s, -, hSkipped, -, hK', -⟩ := hFill (hNowResolves hNow)
      rw [fillStatuses_of_some hEntry] at hK'
      exact hK' (hSkipped hNow) (hC.mpr hIn)

end

-- ------ Runs

section

variable {ι : Type*} [DecidableEq ι] (c : Coordinator) (graphs : ι → TaskGraph)

/-- Every check of the step sees what happened to every node that conditions name. -/
def SeesTruth (w : World ι) (op : ι × Action) : Prop :=
  ∀ entry ∈ c.sections w.shared (w.party op.1) op.2,
    ∀ chk ∈ c.checks (graphs op.1) entry.1 entry.2,
      ∀ p, (graphs op.1).Names p → Truthful c.registry chk p

/-- Every section of the step is informed about every node that conditions name. -/
def KeepsInformed (w : World ι) (op : ι × Action) : Prop :=
  ∀ entry ∈ c.sections w.shared (w.party op.1) op.2,
    ∀ p, (graphs op.1).Names p → Informed c (graphs op.1) entry.1 entry.2 p

def KeepsRunning (w : World ι) (op : ι × Action) : Prop :=
  ∀ entry ∈ c.sections w.shared (w.party op.1) op.2, RunsThrough c (graphs op.1) entry.1 entry.2

/-- **True outcomes.** In every run whose sections are informed, every check sees what happened;
and where no condition raises and nobody cancels, only in these. -/
theorem seesTruth_iff_keepsInformed (workflowIds executionIds : ι → String) (contexts : ι → Context)
    (agents : ι → List String) (ops : List (ι × Action)) :
    (Run.Every (World.act c) (KeepsInformed c graphs)
        (.opened workflowIds executionIds graphs contexts agents) ops →
      Run.Every (World.act c) (SeesTruth c graphs)
        (.opened workflowIds executionIds graphs contexts agents) ops) ∧
    (Run.Every (World.act c) (KeepsRunning c graphs)
        (.opened workflowIds executionIds graphs contexts agents) ops →
      Run.Every (World.act c) (SeesTruth c graphs)
        (.opened workflowIds executionIds graphs contexts agents) ops →
      Run.Every (World.act c) (KeepsInformed c graphs)
        (.opened workflowIds executionIds graphs contexts agents) ops) := by
  constructor
  · exact Run.Every.mono fun w op hInformed entry hEntry chk hChk p hNames =>
      truthful_checks (hInformed entry hEntry p hNames) hChk
  · intro hRuns hTruth
    refine Run.every_of_every
      (I := fun w : World ι => ∀ i, (w.party i).execution.graph = .graph (graphs i))
      (fun _ op h _ => graph_act h op) (fun w op h hStep entry hEntry p hNames => ?_)
      (fun _ => rfl) (hRuns.and hTruth)
    obtain ⟨ex', -, hFound⟩ := found_sections (h op.1) hEntry
    exact informed_of_truthful (hStep.1 entry hEntry) (fun hSec => (hFound.blocked hSec).pending)
      fun chk hChk => hStep.2 entry hEntry chk hChk p hNames

end

-- ------ A node that is skipped in the tick

/-- `x` is never to run; `y` comes after it, if it succeeds. -/
def afterSkipped : TaskGraph where
  graphId := "g"
  nodes := (Dict.empty.set "x" { id := "x", condition := some (.ok .never) }).set "y"
    { id := "y", condition := some (.ok (.success ["x"])) }
  edges := [{ src := "x", dst := "y" }]

def afterSkippedStart : World Unit :=
  .opened (fun _ => "wf") (fun _ => "ex") (fun _ => afterSkipped) (fun _ => .plain) fun _ => ["w"]

/-- The execution that the first tick finds. -/
def afterSkippedBegun : WorkflowExecution :=
  (WorkflowExecution.bindWorkflow "wf" "ex" afterSkipped .plain ["w"]).begin

theorem afterSkipped_runsThrough : RunsThrough {} afterSkipped .prepare afterSkippedBegun where
  goesOn := rfl
  resolved _ := ⟨[], by decide +kernel⟩
  looped _ := ⟨_, _, rfl⟩

theorem afterSkipped_skipsNow : SkipsNow {} afterSkipped .prepare afterSkippedBegun "x" :=
  ⟨by decide, ⟨by decide +kernel, by decide +kernel, _, rfl, by decide +kernel⟩, by decide⟩

/-- The tick that skips `x` takes `Success(x)` for true, and dispatches `y`. -/
theorem not_seesTruth :
    ¬ Run.Every (World.act {}) (SeesTruth {} fun _ => afterSkipped) afterSkippedStart
        [((), .start), ((), .advance)] ∧
      ∃ assignment todo, ((Run.exec (World.act {}) afterSkippedStart
        [((), .start), ((), .advance)]).party ()).position = .dispatching "y" assignment todo := by
  refine ⟨fun h => ?_, _, _, rfl⟩
  have hNames : afterSkipped.Names "x" :=
    .inr ⟨"y", _, rfl, .success ["x"], rfl, List.mem_singleton_self _⟩
  have hInformed : Informed {} afterSkipped .prepare afterSkippedBegun "x" :=
    informed_of_truthful afterSkipped_runsThrough (fun h => by cases h) fun chk hChk =>
      h.2.1 (.prepare, afterSkippedBegun) (List.mem_cons_self ..) chk hChk "x" hNames
  exact hInformed.2 (by decide) afterSkipped_skipsNow

end Neuroswarm.MetaOrchestrator
