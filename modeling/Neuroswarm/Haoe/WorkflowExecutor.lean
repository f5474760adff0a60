import Mathlib.Algebra.Order.Ring.Rat
import Neuroswarm.Haoe.DependencyGraph
import Neuroswarm.Lib.Run

/-!
# HAOE — the workflow executor

`WorkflowExecutor.execute` of `haoe/workflow/workflow_executor.py`, with
`TaskExecutor.execute`, `RetryManager.run` and `CheckpointStore`. One step is one action: the
head of the loop, a call of a node's function, the write of its result, the save of a
checkpoint. The states of the nodes, events and timings are left out; a store keeps JSON
values and ids that can be file names.

* `Workflow.proceed` — the next action, with what a called function answers.
* `Workflow.Proceeds` — everything an action can be, one case for each.
* `Proceeds.pending` — a node that waits its turn was found ready.
* `runsOnce_every` — uncompleted nodes are called, after those before them.
-/

namespace Neuroswarm.Haoe

open Swarm (NodeId Networkx)

/-- A graph, whether its nodes have a function, and whether there is a checkpoint store;
`null` is Python's None. -/
structure Workflow (M V : Type*) where
  graph : TaskGraph M (Dict String V)
  hasFn : NodeId → Bool
  null : V
  checkpoints : Bool := true

inductive ExecutorPhase (V : Type*) where
  | loop
  | batch (ready : List NodeId)
  | attempt (nodeId : NodeId) (attempts : Nat) (rest : List NodeId)
  | returned (nodeId : NodeId) (result : V) (rest : List NodeId)
  | save (nodeId : NodeId) (result : V) (rest : List NodeId)
  | complete (nodeId : NodeId) (rest : List NodeId)
  | ended (raised : Bool)

/-- The variables of an execution, the entries of the store for its graph, and the context on
which the nodes of the current round were found ready, which no code reads. -/
structure ExecutorState (V : Type*) where
  phase : ExecutorPhase V
  completed : List NodeId := []
  context : Dict String V
  results : Dict NodeId V := .empty
  saved : Dict NodeId V := .empty
  cancelled : Bool := false
  asOf : Dict String V := .empty

/-- What a function answers, where one is called: it returns, or it raises an error that the
retry policy takes, or another. -/
inductive Answer (V : Type*) where
  | returned (result : V)
  | raised (retryable : Bool)

/-- The token is cancelled, or the execution takes its next step. -/
inductive ExecutorEvent (V : Type*) where
  | cancel
  | proceed (answer : Answer V)

namespace Workflow

variable {M V : Type*} (w : Workflow M V)

/-- `dep.ready_nodes(completed)`, on a context. -/
def readyNodes (context : Dict String V) (completed : List NodeId) : List NodeId :=
  { w.graph with context }.readyNodes completed

def name (nodeId : NodeId) : String := (w.graph.nodes.get? nodeId).elim "" (·.name)

def maxAttempts (nodeId : NodeId) : Int :=
  (w.graph.nodes.get? nodeId).elim 3 (·.retry.maxAttempts)

def isCheckpoint (nodeId : NodeId) : Bool :=
  (w.graph.nodes.get? nodeId).any (·.isCheckpoint)

/-- `f"result:{key}"` -/
def resultKey (key : String) : String := "result:" ++ key

/-- An execution, with the checkpoints that are found. -/
def start (nx : Option Networkx) (saved : Dict NodeId V) : ExecutorState V :=
  let restored := saved.filterKeys w.graph.nodes.contains
  if w.graph.isDag nx then
    { phase := .loop
      completed := restored.keys
      context := w.graph.context
      results := restored
      saved }
  else
    { phase := .ended true, context := w.graph.context, saved }

/-- The next action; `answer` is used where a function is called. -/
def proceed (answer : Answer V) (s : ExecutorState V) : ExecutorState V :=
  match s.phase with
  | .ended _ => s
  | .loop =>
    if w.graph.nodes.size ≤ s.completed.length then { s with phase := .ended false }
    else if s.cancelled then { s with phase := .ended true }
    else
      match w.readyNodes s.context s.completed with
      | [] => { s with phase := .ended false }
      | ready => { s with phase := .batch ready, asOf := s.context }
  | .batch [] => { s with phase := .loop }
  | .batch (nodeId :: rest) =>
    if w.hasFn nodeId then { s with phase := .attempt nodeId 0 rest }
    else
      { s with
        results := s.results.set nodeId w.null
        phase := .returned nodeId w.null rest }
  | .attempt nodeId attempts rest =>
    if s.cancelled then { s with phase := .ended true }
    else
      match answer with
      | .returned result =>
        { s with
          results := s.results.set nodeId result
          phase := .returned nodeId result rest }
      | .raised retryable =>
        if retryable ∧ (attempts + 1 : Int) < w.maxAttempts nodeId then
          { s with phase := .attempt nodeId (attempts + 1) rest }
        else { s with phase := .ended true }
  | .returned nodeId result rest =>
    { s with
      context :=
        (s.context.set (resultKey (w.name nodeId)) result).set (resultKey nodeId) result
      phase := .save nodeId result rest }
  | .save nodeId result rest =>
    { s with
      saved :=
        if w.isCheckpoint nodeId ∧ w.checkpoints then s.saved.set nodeId result else s.saved
      phase := .complete nodeId rest }
  | .complete nodeId rest =>
    { s with completed := s.completed ++ [nodeId], phase := .batch rest }

def step (s : ExecutorState V) : ExecutorEvent V → ExecutorState V
  | .cancel => { s with cancelled := true }
  | .proceed answer => w.proceed answer s

-- ------ Actions

/-- What an action is. -/
inductive Proceeds (answer : Answer V) (s : ExecutorState V) : ExecutorState V → Prop
  | ended {raised : Bool} (hPhase : s.phase = .ended raised) : Proceeds answer s s
  | finish {raised : Bool} (hPhase : s.phase = .loop) :
    Proceeds answer s { s with phase := .ended raised }
  | round {ready : List NodeId} (hPhase : s.phase = .loop)
    (hUnfinished : s.completed.length < w.graph.nodes.size)
    (hReady : w.readyNodes s.context s.completed = ready) (hNe : ready ≠ []) :
    Proceeds answer s { s with phase := .batch ready, asOf := s.context }
  | endRound (hPhase : s.phase = .batch []) : Proceeds answer s { s with phase := .loop }
  | enter {nodeId : NodeId} {rest : List NodeId} (hPhase : s.phase = .batch (nodeId :: rest))
    (hFn : w.hasFn nodeId = true) :
    Proceeds answer s { s with phase := .attempt nodeId 0 rest }
  | noFn {nodeId : NodeId} {rest : List NodeId} (hPhase : s.phase = .batch (nodeId :: rest))
    (hFn : w.hasFn nodeId = false) :
    Proceeds answer s
      { s with results := s.results.set nodeId w.null, phase := .returned nodeId w.null rest }
  | stop {nodeId : NodeId} {attempts : Nat} {rest : List NodeId}
    (hPhase : s.phase = .attempt nodeId attempts rest) :
    Proceeds answer s { s with phase := .ended true }
  | returns {nodeId : NodeId} {attempts : Nat} {rest : List NodeId} {result : V}
    (hPhase : s.phase = .attempt nodeId attempts rest) (hCancelled : s.cancelled = false)
    (hAnswer : answer = .returned result) :
    Proceeds answer s
      { s with results := s.results.set nodeId result, phase := .returned nodeId result rest }
  | retry {nodeId : NodeId} {attempts : Nat} {rest : List NodeId}
    (hPhase : s.phase = .attempt nodeId attempts rest)
    (hAttempts : (attempts + 1 : Int) < w.maxAttempts nodeId) :
    Proceeds answer s { s with phase := .attempt nodeId (attempts + 1) rest }
  | write {nodeId : NodeId} {result : V} {rest : List NodeId}
    (hPhase : s.phase = .returned nodeId result rest) :
    Proceeds answer s
      { s with
        context :=
          (s.context.set (resultKey (w.name nodeId)) result).set (resultKey nodeId) result
        phase := .save nodeId result rest }
  | save {nodeId : NodeId} {result : V} {rest : List NodeId}
    (hPhase : s.phase = .save nodeId result rest) :
    Proceeds answer s
      { s with
        saved :=
          if w.isCheckpoint nodeId ∧ w.checkpoints then s.saved.set nodeId result else s.saved
        phase := .complete nodeId rest }
  | complete {nodeId : NodeId} {rest : List NodeId} (hPhase : s.phase = .complete nodeId rest) :
    Proceeds answer s
      { s with completed := s.completed ++ [nodeId], phase := .batch rest }

variable {w} {answer : Answer V} {s : ExecutorState V}

theorem proceeds (w : Workflow M V) (answer : Answer V) (s : ExecutorState V) :
    w.Proceeds answer s (w.proceed answer s) := by
  unfold proceed
  cases hPhase : s.phase with
  | ended raised => exact .ended hPhase
  | loop =>
    dsimp only
    split
    · exact .finish hPhase
    · next hUnfinished =>
      split
      · exact .finish hPhase
      · split
        · exact .finish hPhase
        · next hNe => exact .round hPhase (not_le.mp hUnfinished) rfl hNe
  | batch ready =>
    cases ready with
    | nil => exact .endRound hPhase
    | cons nodeId rest =>
      dsimp only
      split
      · next hFn => exact .enter hPhase hFn
      · next hFn => exact .noFn hPhase (Bool.eq_false_iff.mpr hFn)
  | attempt nodeId attempts rest =>
    dsimp only
    split
    · exact .stop hPhase
    · next hCancelled =>
      split
      · exact .returns hPhase (Bool.eq_false_iff.mpr hCancelled) rfl
      · split
        · next hRetry => exact .retry hPhase hRetry.2
        · exact .stop hPhase
  | returned nodeId result rest => exact .write hPhase
  | save nodeId result rest => exact .save hPhase
  | complete nodeId rest => exact .complete hPhase

-- ------ Nodes that wait their turn

end Workflow

/-- The nodes of the round that are not done; the one whose function is called is the first. -/
def ExecutorPhase.pending {V : Type*} : ExecutorPhase V → List NodeId
  | .batch ready => ready
  | .attempt nodeId _ rest => nodeId :: rest
  | .returned _ _ rest => rest
  | .save _ _ rest => rest
  | .complete _ rest => rest
  | _ => []

namespace Workflow

variable {M V : Type*} {w : Workflow M V} {s : ExecutorState V} {event : ExecutorEvent V}

/-- A node was found ready, on the context of the round. -/
structure Ready (w : Workflow M V) (s : ExecutorState V) (nodeId : NodeId) : Prop where
  node : nodeId ∈ w.graph.ids
  predecessors : ∀ p, w.graph.Precedes p nodeId → p ∈ s.completed
  predicates : { w.graph with context := s.asOf }.predicatesSatisfied nodeId = true

/-- Everything that waits its turn was found ready. -/
def PendingReady (w : Workflow M V) (s : ExecutorState V) : Prop :=
  ∀ nodeId ∈ s.phase.pending, w.Ready s nodeId

theorem pendingReady_start (w : Workflow M V) (nx : Option Networkx) (saved : Dict NodeId V) :
    w.PendingReady (w.start nx saved) := by
  unfold start
  dsimp only
  split <;> exact fun _ h => nomatch h

theorem mem_readyNodes_iff {context : Dict String V} {completed : List NodeId} {nodeId : NodeId} :
    nodeId ∈ w.readyNodes context completed ↔
      nodeId ∈ w.graph.ids ∧ nodeId ∉ completed ∧
        (∀ p, w.graph.Precedes p nodeId → p ∈ completed) ∧
        { w.graph with context }.predicatesSatisfied nodeId = true := by
  unfold readyNodes TaskGraph.readyNodes
  rw [List.mem_filter, decide_eq_true_eq]
  simp only [TaskGraph.mem_rev]
  rfl

theorem Proceeds.pending {answer : Answer V} {s' : ExecutorState V}
    (h : w.Proceeds answer s s') :
    (s'.phase.pending = w.readyNodes s.context s.completed ∧ s'.completed = s.completed ∧
        s'.asOf = s.context) ∨
      s'.phase.pending ⊆ s.phase.pending ∧ s.completed ⊆ s'.completed ∧ s'.asOf = s.asOf := by
  cases h with
  | ended => exact .inr ⟨List.Subset.refl _, List.Subset.refl _, rfl⟩
  | finish => exact .inr ⟨List.nil_subset _, List.Subset.refl _, rfl⟩
  | round hPhase hUnfinished hReady hNe => exact .inl ⟨hReady.symm, rfl, rfl⟩
  | endRound => exact .inr ⟨List.nil_subset _, List.Subset.refl _, rfl⟩
  | enter hPhase =>
    rw [hPhase]
    exact .inr ⟨List.Subset.refl _, List.Subset.refl _, rfl⟩
  | noFn hPhase =>
    rw [hPhase]
    exact .inr ⟨List.subset_cons_self _ _, List.Subset.refl _, rfl⟩
  | stop => exact .inr ⟨List.nil_subset _, List.Subset.refl _, rfl⟩
  | returns hPhase =>
    rw [hPhase]
    exact .inr ⟨List.subset_cons_self _ _, List.Subset.refl _, rfl⟩
  | retry hPhase =>
    rw [hPhase]
    exact .inr ⟨List.Subset.refl _, List.Subset.refl _, rfl⟩
  | write hPhase =>
    rw [hPhase]
    exact .inr ⟨List.Subset.refl _, List.Subset.refl _, rfl⟩
  | save hPhase =>
    rw [hPhase]
    exact .inr ⟨List.Subset.refl _, List.Subset.refl _, rfl⟩
  | complete hPhase =>
    rw [hPhase]
    exact .inr ⟨List.Subset.refl _, List.subset_append_left _ _, rfl⟩

theorem PendingReady.proceeds {answer : Answer V} {s' : ExecutorState V} (h : w.PendingReady s)
    (hProceeds : w.Proceeds answer s s') : w.PendingReady s' := by
  intro nodeId hMem
  obtain ⟨hPending, hCompleted, hAsOf⟩ | ⟨hPending, hCompleted, hAsOf⟩ := hProceeds.pending
  · rw [hPending] at hMem
    obtain ⟨hNode, -, hPredecessors, hPredicates⟩ := mem_readyNodes_iff.mp hMem
    rw [← hCompleted] at hPredecessors
    rw [← hAsOf] at hPredicates
    exact ⟨hNode, hPredecessors, hPredicates⟩
  · obtain ⟨hNode, hPredecessors, hPredicates⟩ := h nodeId (hPending hMem)
    rw [← hAsOf] at hPredicates
    exact ⟨hNode, fun p hp => hCompleted (hPredecessors p hp), hPredicates⟩

theorem PendingReady.step (h : w.PendingReady s) (event : ExecutorEvent V) :
    w.PendingReady (w.step s event) := by
  cases event with
  | cancel =>
    intro nodeId hMem
    obtain ⟨hNode, hPredecessors, hPredicates⟩ := h nodeId hMem
    exact ⟨hNode, hPredecessors, hPredicates⟩
  | proceed answer => exact h.proceeds (w.proceeds answer s)

end Workflow

end Neuroswarm.Haoe

/-!
## Conditional edges

`_edge_map` keeps one edge for each pair of nodes, and the nodes of a round are run one after
the other on the readiness that was computed when it began. A function is called with all its
predecessors done; that all its incoming predicates hold at that moment is another matter.

* `TaskGraph.edgeMap_get?` — of parallel edges the last one is consulted.
* `Workflow.gated_every_iff` — in which runs all conditional edges gate.
-/

namespace Neuroswarm.Haoe

open Swarm (NodeId Networkx)

-- ------ Edges that are consulted

namespace TaskGraph

variable {M Γ : Type*} {g : TaskGraph M Γ}

/-- The last of the edges from `u` to `v`. -/
def lastEdge (g : TaskGraph M Γ) (u v : NodeId) : Option (TaskEdge Γ) :=
  (g.depends.filter fun e => (e.src, e.dst) = (u, v)).getLast?

theorem edgeMap_get? (g : TaskGraph M Γ) (u v : NodeId) :
    g.edgeMap.get? (u, v) = g.lastEdge u v := by
  have hFold : ∀ (es : List (TaskEdge Γ)) (d : Dict (NodeId × NodeId) (TaskEdge Γ)),
      (es.foldl (fun d e => d.set (e.src, e.dst) e) d).get? (u, v) =
        ((es.filter fun e => (e.src, e.dst) = (u, v)).getLast?).or (d.get? (u, v)) := by
    intro es
    induction es with
    | nil => intro d; rfl
    | cons e es ih =>
      intro d
      rw [List.foldl_cons, ih, Dict.get?_set]
      by_cases hEnds : (e.src, e.dst) = (u, v)
      · rw [List.filter_cons, if_pos (decide_eq_true hEnds), if_pos hEnds.symm,
          List.getLast?_cons]
        cases (es.filter fun e => (e.src, e.dst) = (u, v)).getLast? with
        | none => rfl
        | some last => rfl
      · have hOther : (u, v) ≠ (e.src, e.dst) := fun h => hEnds h.symm
        rw [if_neg hOther, List.filter_cons, if_neg (by simpa using hEnds)]
  unfold edgeMap lastEdge
  rw [hFold]
  exact Option.or_none

/-- Another edge between the same nodes comes after it. -/
def Overridden (g : TaskGraph M Γ) (e : TaskEdge Γ) : Prop := g.lastEdge e.src e.dst ≠ some e

structure Guards (g : TaskGraph M Γ) (e : TaskEdge Γ) (nodeId : NodeId) (condition : Γ → Bool) :
    Prop where
  edge : e ∈ g.edges
  dst : e.dst = nodeId
  kind : e.kind = .conditional
  condition : e.condition = some condition

theorem Guards.precedes {e : TaskEdge Γ} {nodeId : NodeId} {condition : Γ → Bool}
    (h : g.Guards e nodeId condition) : g.Precedes e.src nodeId := by
  refine precedes_iff.mpr ⟨e, h.edge, ?_, rfl, h.dst⟩
  rw [h.kind]
  decide

theorem Guards.of_predicatesSatisfied {e : TaskEdge Γ} {nodeId : NodeId} {condition : Γ → Bool}
    (h : g.Guards e nodeId condition) (hLast : ¬ g.Overridden e)
    (hSatisfied : g.predicatesSatisfied nodeId = true) : condition g.context = true := by
  have hPred := List.all_eq_true.mp hSatisfied e.src (mem_rev.mpr h.precedes)
  have hEdge : g.edgeMap.get? (e.src, nodeId) = some e := by
    rw [← h.dst, edgeMap_get?]
    exact not_not.mp hLast
  rw [hEdge] at hPred
  simp only [h.kind, h.condition] at hPred
  exact hPred

end TaskGraph

-- ------ Runs

namespace Workflow

variable {M V : Type*} {w : Workflow M V} {s : ExecutorState V} {event : ExecutorEvent V}

/-- The step calls the function of a node. -/
structure Calls (s : ExecutorState V) (event : ExecutorEvent V) (nodeId : NodeId) : Prop where
  proceeds : ∃ answer, event = .proceed answer
  uncancelled : s.cancelled = false
  attempt : ∃ attempts rest, s.phase = .attempt nodeId attempts rest

/-- A function is called only when all predecessors are done, and the predicates of all
conditional edges into its node hold on the context of that moment. -/
structure Gated (w : Workflow M V) (s : ExecutorState V) (event : ExecutorEvent V) : Prop where
  predecessors : ∀ nodeId, Calls s event nodeId →
    ∀ p, w.graph.Precedes p nodeId → p ∈ s.completed
  conditions : ∀ nodeId, Calls s event nodeId →
    ∀ e condition, w.graph.Guards e nodeId condition → condition s.context = true

/-- When a function is called, the predicates that are not consulted hold by themselves, and
those that were have not become false in the same round. -/
structure Steady (w : Workflow M V) (s : ExecutorState V) (event : ExecutorEvent V) : Prop where
  overridden : ∀ nodeId, Calls s event nodeId →
    ∀ e condition, w.graph.Guards e nodeId condition → w.graph.Overridden e →
      condition s.context = true
  kept : ∀ nodeId, Calls s event nodeId →
    ∀ e condition, w.graph.Guards e nodeId condition → ¬ w.graph.Overridden e →
      condition s.asOf = true → condition s.context = true

theorem PendingReady.calls (h : w.PendingReady s) {nodeId : NodeId}
    (hCalls : Calls s event nodeId) : w.Ready s nodeId := by
  obtain ⟨attempts, rest, hPhase⟩ := hCalls.attempt
  refine h nodeId ?_
  rw [hPhase]
  exact List.mem_cons_self ..

/-- **Step lemma.** -/
theorem gated_iff (h : w.PendingReady s) : w.Gated s event ↔ w.Steady s event := by
  constructor
  · intro hGated
    exact ⟨fun nodeId hCalls e condition hGuards _ =>
        hGated.conditions nodeId hCalls e condition hGuards,
      fun nodeId hCalls e condition hGuards _ _ =>
        hGated.conditions nodeId hCalls e condition hGuards⟩
  · intro hSteady
    refine ⟨fun nodeId hCalls => (h.calls hCalls).predecessors, ?_⟩
    intro nodeId hCalls e condition hGuards
    by_cases hOverridden : w.graph.Overridden e
    · exact hSteady.overridden nodeId hCalls e condition hGuards hOverridden
    · refine hSteady.kept nodeId hCalls e condition hGuards hOverridden ?_
      have hThen : ({ w.graph with context := s.asOf } : TaskGraph M (Dict String V)).Guards e
        nodeId condition := ⟨hGuards.edge, hGuards.dst, hGuards.kind, hGuards.condition⟩
      exact hThen.of_predicatesSatisfied hOverridden (h.calls hCalls).predicates

/-- **All conditional edges gate in a run** iff its calls are steady. -/
theorem gated_every_iff (w : Workflow M V) (nx : Option Networkx) (saved : Dict NodeId V)
    (events : List (ExecutorEvent V)) :
    Run.Every w.step w.Gated (w.start nx saved) events ↔
      Run.Every w.step w.Steady (w.start nx saved) events := by
  have hStart := pendingReady_start w nx saved
  constructor
  · exact Run.every_of_every (fun s event h _ => h.step event)
      (fun s event h hGated => (gated_iff h).mp hGated) hStart
  · exact Run.every_of_every (fun s event h _ => h.step event)
      (fun s event h hSteady => (gated_iff h).mpr hSteady) hStart

/-- Two edges from `a` to `b`: the first has a predicate that is false, the second none. -/
def parallelEdges : Workflow Unit Unit :=
  { graph :=
      { graphId := "g"
        nodes := (Dict.empty.set "a" { nodeId := "a", name := "a", metadata := () }).set
          "b" { nodeId := "b", name := "b", metadata := () }
        edges :=
          [{ src := "a", dst := "b", kind := .conditional, condition := some fun _ => false },
            { src := "a", dst := "b" }]
        context := .empty }
    hasFn := fun _ => true
    null := () }

theorem not_gated_parallelEdges :
    ¬ Run.Every parallelEdges.step parallelEdges.Gated (parallelEdges.start none .empty)
      (List.replicate 10 (.proceed (.returned ()))) := by
  rintro ⟨-, -, -, -, -, -, -, -, -, h, -⟩
  have hFalse := h.conditions "b" ⟨⟨_, rfl⟩, rfl, _, _, rfl⟩ _ (fun _ => false)
    ⟨List.mem_cons_self .., rfl, rfl, rfl⟩
  cases hFalse

-- ------ At most once

/-- The nodes of the round that are not completed, the one that runs first. -/
def unfinished : ExecutorPhase V → List NodeId
  | .batch ready => ready
  | .attempt nodeId _ rest | .returned nodeId _ rest | .save nodeId _ rest
  | .complete nodeId rest => nodeId :: rest
  | _ => []

/-- No node is completed twice, or completed and still to run. -/
def RunsOnce (s : ExecutorState V) : Prop := (s.completed ++ unfinished s.phase).Nodup

theorem RunsOnce.proceeds {answer : Answer V} {s' : ExecutorState V} (h : RunsOnce s)
    (hProceeds : w.Proceeds answer s s') : RunsOnce s' := by
  have hCompleted : s.completed.Nodup := (List.nodup_append.mp h).1
  unfold RunsOnce at *
  cases hProceeds with
  | ended => exact h
  | round hPhase hUnfinished hReady =>
    subst hReady
    refine List.nodup_append.mpr ⟨hCompleted, List.Nodup.filter _ w.graph.nodes.nodup, ?_⟩
    rintro v hv _ hReady rfl
    exact (mem_readyNodes_iff.mp hReady).2.1 hv
  | finish | endRound | stop => simpa [unfinished] using hCompleted
  | complete hPhase =>
    rw [hPhase] at h
    simpa [unfinished] using h
  | enter hPhase | noFn hPhase | returns hPhase | retry hPhase | write hPhase | save hPhase =>
    rw [hPhase] at h
    exact h

/-- **A node is run at most once, after its predecessors**: whatever is restored, answered and
cancelled, a function that is called belongs to a node of the graph that is not completed. -/
theorem runsOnce_every (w : Workflow M V) (nx : Option Networkx) (saved : Dict NodeId V)
    (events : List (ExecutorEvent V)) :
    Run.Every w.step (fun s event => ∀ nodeId, Calls s event nodeId →
        nodeId ∈ w.graph.ids ∧ nodeId ∉ s.completed ∧
          ∀ p, w.graph.Precedes p nodeId → p ∈ s.completed) (w.start nx saved) events ∧
      (Run.exec w.step (w.start nx saved) events).completed.Nodup := by
  have hStart : RunsOnce (w.start nx saved) := by
    unfold RunsOnce start
    dsimp only
    split
    · simpa [unfinished, Dict.keys] using (saved.filterKeys w.graph.nodes.contains).nodup
    · exact List.nodup_nil
  have hStep : ∀ s event, w.PendingReady s ∧ RunsOnce s →
      w.PendingReady (w.step s event) ∧ RunsOnce (w.step s event) := by
    rintro s event ⟨hReady, hOnce⟩
    refine ⟨hReady.step event, ?_⟩
    cases event with
    | cancel => exact hOnce
    | proceed answer => exact hOnce.proceeds (w.proceeds answer s)
  refine ⟨Run.every_of_every (fun s event h _ => hStep s event h)
    (fun s event h _ nodeId hCalls => ?_) ⟨pendingReady_start w nx saved, hStart⟩
    (Run.every_true events), ?_⟩
  · have hReady := h.1.calls hCalls
    obtain ⟨attempts, rest, hPhase⟩ := hCalls.attempt
    refine ⟨hReady.node, fun hDone => ?_, hReady.predecessors⟩
    have hApart := (List.nodup_append.mp h.2).2.2 nodeId hDone nodeId
    rw [hPhase] at hApart
    exact hApart (List.mem_cons_self ..) rfl
  · exact (List.nodup_append.mp
      (Run.exec_of_invariant hStep ⟨pendingReady_start w nx saved, hStart⟩ events).2).1

end Workflow

end Neuroswarm.Haoe
