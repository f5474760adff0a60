import Neuroswarm.Swarm.Analyzer

/-!
# HAOE — task graphs and `DependencyGraph`

The graphs of `haoe/core/task_graph.py` and the analysis of
`haoe/workflow/dependency_graph.py`, up to readiness. Every edge blocks, except
those that cancel.

Node metadata and the workflow context are parameters; pools, executors, affinity,
priorities and the state machine of a node are left out.

* `mem_readyNodes` — what `ready_nodes` returns when no predicate objects.
-/

namespace Neuroswarm.Haoe

open Swarm (NodeId Networkx)

/-- Dependency edge semantics in the task graph. -/
inductive EdgeKind where
  | hard
  | conditional
  | fanOut
  | fanIn
  | checkpoint
  | retry
  | cancel
  deriving DecidableEq, Repr

structure RetryPolicy where
  maxAttempts : Int := 3
  backoffBaseS : ℚ := 1 / 20
  backoffFactor : ℚ := 2
  backoffMaxS : ℚ := 5

/-- The inputs of the cost model that a translation sets. -/
structure ResourceEstimate where
  cpuCost : ℚ := 1
  memoryBytes : Int := 0
  expectedLatencyMs : ℚ := 0

/-- A single schedulable unit in the graph, with metadata in `M`. -/
structure TaskNode (M : Type*) where
  nodeId : NodeId
  name : String := ""
  retry : RetryPolicy := {}
  timeoutS : Option ℚ := none
  estimate : ResourceEstimate := {}
  metadata : M
  isCheckpoint : Bool := false

/-- An edge, maybe with a predicate on the context. -/
structure TaskEdge (Γ : Type*) where
  src : NodeId
  dst : NodeId
  kind : EdgeKind := .hard
  condition : Option (Γ → Bool) := none
  label : String := ""

structure TaskGraph (M Γ : Type*) where
  graphId : String
  nodes : Dict NodeId (TaskNode M) := .empty
  edges : List (TaskEdge Γ) := []
  context : Γ

namespace TaskGraph

variable {M Γ : Type*}

def ids (g : TaskGraph M Γ) : List NodeId := g.nodes.keys

/-- The edges that `DependencyGraph` takes in. -/
def depends (g : TaskGraph M Γ) : List (TaskEdge Γ) := g.edges.filter fun e => e.kind ≠ .cancel

/-- `_adj`, edge by edge. -/
def adjacency (g : TaskGraph M Γ) : List (NodeId × NodeId) :=
  g.depends.map fun e => (e.src, e.dst)

def rev (g : TaskGraph M Γ) (nodeId : NodeId) : List NodeId :=
  EdgeList.predecessors g.adjacency nodeId

/-- `_edge_map`: of parallel edges the last one. -/
def edgeMap (g : TaskGraph M Γ) : Dict (NodeId × NodeId) (TaskEdge Γ) :=
  g.depends.foldl (fun d e => d.set (e.src, e.dst) e) .empty

def isDag (nx : Option Networkx) (g : TaskGraph M Γ) : Bool :=
  match nx with
  | some nx => nx.isDirectedAcyclicGraph g.ids g.edgeMap.keys
  | none => (EdgeList.kahn g.ids g.adjacency).length == g.ids.length

def predicatesSatisfied (g : TaskGraph M Γ) (nodeId : NodeId) : Bool :=
  (g.rev nodeId).all fun pred =>
    match g.edgeMap.get? (pred, nodeId) with
    | none => true
    | some e =>
      match e.kind, e.condition with
      | .conditional, some condition => condition g.context
      | _, _ => true

def readyNodes (g : TaskGraph M Γ) (completed : List NodeId) : List NodeId :=
  g.ids.filter fun nid =>
    nid ∉ completed ∧ (∀ p ∈ g.rev nid, p ∈ completed) ∧ g.predicatesSatisfied nid

/-- `p` precedes `v`. -/
def Precedes (g : TaskGraph M Γ) : NodeId → NodeId → Prop := EdgeList.Adj g.adjacency

-- ------ Lemmas

variable {g : TaskGraph M Γ}

theorem precedes_iff {u v : NodeId} :
    g.Precedes u v ↔ ∃ e ∈ g.edges, e.kind ≠ .cancel ∧ e.src = u ∧ e.dst = v := by
  unfold Precedes EdgeList.Adj adjacency depends
  rw [List.mem_map]
  constructor
  · rintro ⟨e, he, hEq⟩
    obtain ⟨hMem, hKind⟩ := List.mem_filter.mp he
    obtain ⟨rfl, rfl⟩ := Prod.mk.inj hEq
    exact ⟨e, hMem, of_decide_eq_true hKind, rfl, rfl⟩
  · rintro ⟨e, hMem, hKind, rfl, rfl⟩
    exact ⟨e, List.mem_filter.mpr ⟨hMem, decide_eq_true hKind⟩, rfl⟩

@[simp] theorem mem_rev {u v : NodeId} : u ∈ g.rev v ↔ g.Precedes u v :=
  EdgeList.mem_predecessors

theorem mem_edgeMap_keys {p : NodeId × NodeId} : p ∈ g.edgeMap.keys ↔ p ∈ g.adjacency := by
  have hFold : ∀ (es : List (TaskEdge Γ)) (d : Dict (NodeId × NodeId) (TaskEdge Γ)),
      p ∈ (es.foldl (fun d e => d.set (e.src, e.dst) e) d).keys ↔
        p ∈ es.map (fun e => (e.src, e.dst)) ∨ p ∈ d.keys := by
    intro es
    induction es with
    | nil => simp
    | cons e es ih =>
      intro d
      rw [List.foldl_cons, ih, List.map_cons, List.mem_cons, Dict.mem_keys_iff, Dict.mem_keys_iff,
        Dict.get?_set]
      by_cases hp : p = (e.src, e.dst)
      · simp [hp]
      · simp [hp]
  unfold edgeMap adjacency
  rw [hFold, or_iff_left]
  exact List.not_mem_nil

theorem isDag_some_iff (nx : Networkx) :
    g.isDag (some nx) = true ↔ EdgeList.Acyclic g.Precedes := by
  have hSame : ∀ u v, EdgeList.Adj g.edgeMap.keys u v ↔ g.Precedes u v := fun u v =>
    mem_edgeMap_keys
  refine (nx.isDirectedAcyclicGraph_iff _ _).trans ⟨fun h => ?_, fun h => ?_⟩
  · exact h.mono fun u v huv => (hSame u v).mpr huv
  · exact h.mono fun u v huv => (hSame u v).mp huv

/-- No predicate objects: the edges have none, or it holds. -/
def Permissive (g : TaskGraph M Γ) : Prop :=
  ∀ e ∈ g.edges, ∀ condition, e.condition = some condition → condition g.context = true

theorem Permissive.predicatesSatisfied (h : g.Permissive) (nodeId : NodeId) :
    g.predicatesSatisfied nodeId = true := by
  have hMem : ∀ (es : List (TaskEdge Γ)) (d : Dict (NodeId × NodeId) (TaskEdge Γ)) p e,
      (es.foldl (fun d e => d.set (e.src, e.dst) e) d).get? p = some e →
        e ∈ es ∨ d.get? p = some e := by
    intro es
    induction es with
    | nil => exact fun d p e he => .inr he
    | cons e' es ih =>
      intro d p e he
      rcases ih _ p e he with hIn | hOld
      · exact .inl (List.mem_cons_of_mem _ hIn)
      · rw [Dict.get?_set] at hOld
        split at hOld
        · cases hOld
          exact .inl (List.mem_cons_self ..)
        · exact .inr hOld
  unfold TaskGraph.predicatesSatisfied
  rw [List.all_eq_true]
  intro pred _
  split
  · rfl
  · next e he =>
    have hEdge : e ∈ g.depends := (hMem g.depends .empty _ e he).resolve_right nofun
    split
    · next condition _ hCondition => exact h e (List.mem_filter.mp hEdge).1 condition hCondition
    · rfl

theorem mem_readyNodes (h : g.Permissive) {completed : List NodeId} {v : NodeId} :
    v ∈ g.readyNodes completed ↔
      v ∈ g.ids ∧ v ∉ completed ∧ ∀ p, g.Precedes p v → p ∈ completed := by
  unfold readyNodes
  rw [List.mem_filter, decide_eq_true_eq]
  simp only [mem_rev, h.predicatesSatisfied, and_true]

end TaskGraph

end Neuroswarm.Haoe

/-!
## `topological_order` and the two DAG engines

Both branches of `DependencyGraph.topological_order`, and when the pure-Python branches of
it and of `DAGAnalyzer` do what `networkx` does on the same nodes and edges.

* `enginesAgree_iff` — exactly when the edges of an acyclic graph join its nodes, and in a
  cyclic one the count of the ordered nodes is not right by chance.
-/

namespace Neuroswarm

open Swarm (NodeId NetworkxSort)

/-- The pure-Python branch and `networkx` give one verdict on these nodes and edges, and for an
acyclic graph each returns an order that lists every node once, forward. -/
structure EnginesAgree (ids : List NodeId) (edges : List (NodeId × NodeId))
    (verdict verdictNx : Bool) (order orderNx : Option (List NodeId)) : Prop where
  verdict : verdict = verdictNx
  pure : EdgeList.Acyclic (EdgeList.Adj edges) →
    ∃ l, order = some l ∧ EdgeList.Topological ids edges l
  networkx : EdgeList.Acyclic (EdgeList.Adj edges) →
    ∃ l, orderNx = some l ∧ EdgeList.Topological ids edges l

/-- Where `networkx` does as specified and the pure branch counts. -/
theorem enginesAgree_of_spec {ids : List NodeId} {edges : List (NodeId × NodeId)}
    (hIds : ids.Nodup) {verdict verdictNx : Bool} {order orderNx : Option (List NodeId)}
    (hVerdict : verdict = ((EdgeList.kahn ids edges).length == ids.length))
    (hOrder : order =
      if verdict then some (EdgeList.arrangedOrder Swarm.sorted ids edges) else none)
    (hNx : verdictNx = true ↔ EdgeList.Acyclic (EdgeList.Adj edges))
    (hOrderNx : EdgeList.Acyclic (EdgeList.Adj edges) →
      ∃ l, orderNx = some l ∧ EdgeList.Topological ids edges l) :
    EnginesAgree ids edges verdict verdictNx order orderNx ↔
      EdgeList.CountDecides ids edges := by
  have hPure : verdict = true ↔ (EdgeList.kahn ids edges).length = ids.length := by
    rw [hVerdict, beq_iff_eq]
  rw [← EdgeList.arrangedOrder_agrees_iff Swarm.sorted_perm hIds, ← hPure]
  constructor
  · intro h
    have hSame : verdict = true ↔ EdgeList.Acyclic (EdgeList.Adj edges) := by
      rw [h.verdict, hNx]
    refine ⟨hSame, fun hAcyclic => ?_⟩
    obtain ⟨l, hl, hTopological⟩ := h.pure hAcyclic
    rw [hOrder, if_pos (hSame.mpr hAcyclic)] at hl
    cases hl
    exact hTopological
  · rintro ⟨hSame, hTopological⟩
    refine ⟨Bool.eq_iff_iff.mpr (hSame.trans hNx.symm), fun hAcyclic => ?_, hOrderNx⟩
    rw [hOrder, if_pos (hSame.mpr hAcyclic)]
    exact ⟨_, rfl, hTopological hAcyclic⟩

namespace Swarm.TaskGraph

def EnginesAgree (nx : NetworkxSort) (g : TaskGraph) : Prop :=
  Neuroswarm.EnginesAgree g.ids g.blocking (g.isDag none) (g.isDag (some nx.toNetworkx))
    (g.topologicalOrder none).toOption (g.topologicalOrder (some nx)).toOption

theorem enginesAgree_iff (nx : NetworkxSort) (g : TaskGraph) :
    g.EnginesAgree nx ↔ EdgeList.CountDecides g.ids g.blocking := by
  refine enginesAgree_of_spec g.nodes.nodup rfl ?_ (nx.isDirectedAcyclicGraph_iff _ _) ?_
  · unfold topologicalOrder
    rw [Option.map_none]
    split <;> rfl
  · intro hAcyclic
    have hDag : g.isDag (some nx.toNetworkx) = true :=
      (nx.isDirectedAcyclicGraph_iff _ _).mpr hAcyclic
    refine ⟨_, ?_, nx.topologicalSort_spec g.ids g.blocking hAcyclic⟩
    unfold topologicalOrder
    rw [Option.map_some, if_pos hDag]
    rfl

end Swarm.TaskGraph

namespace Haoe.TaskGraph

variable {M Γ : Type*}

/-- `topological_order()`; `none` is the `ValueError` of a cycle. -/
def topologicalOrder (nx : Option NetworkxSort) (g : TaskGraph M Γ) : Option (List NodeId) :=
  if g.isDag (nx.map NetworkxSort.toNetworkx) then
    match nx with
    | some nx => some (nx.topologicalSort g.ids g.edgeMap.keys)
    | none => some (EdgeList.arrangedOrder Swarm.sorted g.ids g.adjacency)
  else none

def EnginesAgree (nx : NetworkxSort) (g : TaskGraph M Γ) : Prop :=
  Neuroswarm.EnginesAgree g.ids g.adjacency (g.isDag none) (g.isDag (some nx.toNetworkx))
    (g.topologicalOrder none) (g.topologicalOrder (some nx))

theorem enginesAgree_iff (nx : NetworkxSort) (g : TaskGraph M Γ) :
    g.EnginesAgree nx ↔ EdgeList.CountDecides g.ids g.adjacency := by
  have hSame : ∀ u v, EdgeList.Adj g.edgeMap.keys u v ↔ EdgeList.Adj g.adjacency u v :=
    fun u v => mem_edgeMap_keys
  refine enginesAgree_of_spec g.nodes.nodup rfl rfl (isDag_some_iff nx.toNetworkx) ?_
  intro hAcyclic
  have hKeys : EdgeList.Acyclic (EdgeList.Adj g.edgeMap.keys) :=
    hAcyclic.mono fun u v huv => (hSame u v).mp huv
  refine ⟨_, ?_, (nx.topologicalSort_spec g.ids g.edgeMap.keys hKeys).congr hSame⟩
  unfold topologicalOrder
  rw [Option.map_some, if_pos ((isDag_some_iff nx.toNetworkx).mpr hAcyclic)]

end Haoe.TaskGraph

/-- **Agreement.** Each analyzer agrees with `networkx` exactly on the graphs where counting
decides acyclicity. -/
theorem engines_agree_iff {M Γ : Type*} (nx : NetworkxSort) (g : Swarm.TaskGraph)
    (g' : Haoe.TaskGraph M Γ) :
    (g.EnginesAgree nx ↔ EdgeList.CountDecides g.ids g.blocking) ∧
      (g'.EnginesAgree nx ↔ EdgeList.CountDecides g'.ids g'.adjacency) :=
  ⟨g.enginesAgree_iff nx, g'.enginesAgree_iff nx⟩

/-- A cycle of `b` and `c` beside edges from `a` to two missing nodes: three nodes, and three
are ordered. -/
def cycleAndStrays : Haoe.TaskGraph Unit Unit where
  graphId := "g"
  nodes := ((Dict.empty.set "a" { nodeId := "a", metadata := () }).set "b"
    { nodeId := "b", metadata := () }).set "c" { nodeId := "c", metadata := () }
  edges := [{ src := "b", dst := "c" }, { src := "c", dst := "b" }, { src := "a", dst := "x" },
    { src := "a", dst := "y" }]
  context := ()

/-- A missing target makes a cycle of what is none, and two of them hide one. -/
theorem engines_disagree :
    ¬ Swarm.danglingEdge.EnginesAgree Swarm.referenceNetworkx ∧
      ¬ cycleAndStrays.EnginesAgree Swarm.referenceNetworkx := by
  constructor
  · intro h
    exact absurd h.verdict (by decide +kernel)
  · intro h
    exact absurd h.verdict (by decide +kernel)

end Neuroswarm
