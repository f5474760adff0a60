import Mathlib.Data.List.Sort
import Mathlib.Data.String.Basic
import Neuroswarm.Lib.EdgeList
import Neuroswarm.Lib.TopologicalOrder
import Neuroswarm.Swarm.Types

/-!
# Task graph — `DAGAnalyzer`

The analyzer of `dag.py` over the blocking edges of a graph. `networkx` is an
optional accelerator outside the repository: `Networkx` is its acyclicity test
with the documented meaning, and `none` selects the pure-Python branch.

* `mem_readyNodes` — what `ready_nodes` returns.
* `isDag_iff` — both branches of `is_dag` decide acyclicity when the edges join
  nodes of the graph.
* `exists_ready` — an acyclic graph with an uncompleted node has a ready node.
-/

namespace Neuroswarm.Swarm

/-- `nx.is_directed_acyclic_graph` on a `DiGraph` with these nodes and edges. -/
structure Networkx where
  isDirectedAcyclicGraph : List NodeId → List (NodeId × NodeId) → Bool
  isDirectedAcyclicGraph_iff : ∀ V E,
    isDirectedAcyclicGraph V E = true ↔ EdgeList.Acyclic (EdgeList.Adj E)

/-- `sorted(...)` on ids. -/
def sorted (l : List NodeId) : List NodeId := l.insertionSort (· ≤ ·)

@[simp] theorem mem_sorted {l : List NodeId} {v : NodeId} : v ∈ sorted l ↔ v ∈ l :=
  List.mem_insertionSort _

namespace TaskGraph

def ids (g : TaskGraph) : List NodeId := g.nodes.keys

/-- The edges of `_adj` and `_rev`. -/
def blocking (g : TaskGraph) : List (NodeId × NodeId) :=
  (g.edges.filter TaskEdge.isBlocking).map fun e => (e.src, e.dst)

def adj (g : TaskGraph) (nodeId : NodeId) : List NodeId := EdgeList.successors g.blocking nodeId

def rev (g : TaskGraph) (nodeId : NodeId) : List NodeId := EdgeList.predecessors g.blocking nodeId

/-- `p` precedes `v` over a blocking edge. -/
def Precedes (g : TaskGraph) : NodeId → NodeId → Prop := EdgeList.Adj g.blocking

def isDag (nx : Option Networkx) (g : TaskGraph) : Bool :=
  match nx with
  | some nx => nx.isDirectedAcyclicGraph g.ids g.blocking
  | none => (EdgeList.kahn g.ids g.blocking).length == g.ids.length

def readyNodes (g : TaskGraph) (completed : List NodeId) : List NodeId :=
  sorted (g.ids.filter fun nid => nid ∉ completed ∧ ∀ p ∈ g.rev nid, p ∈ completed)

def leaves (g : TaskGraph) : List NodeId := sorted (g.ids.filter fun nid => g.adj nid = [])

/-- `predecessors(node_id)`; `none` is `NodeNotFoundError`. -/
def predecessors (g : TaskGraph) (nodeId : NodeId) : Option (List NodeId) :=
  if nodeId ∈ g.ids then some (g.rev nodeId) else none

def reachableFrom (g : TaskGraph) (nodeId : NodeId) : Option (List NodeId) :=
  if nodeId ∈ g.ids then some (EdgeList.reach g.blocking nodeId) else none

def subtree (g : TaskGraph) (nodeId : NodeId) : Option (List NodeId) := g.reachableFrom nodeId

/-- Strict descendants (excludes self). -/
def downstream (g : TaskGraph) (nodeId : NodeId) : Option (List NodeId) :=
  (g.reachableFrom nodeId).map fun seen => seen.filter (· ≠ nodeId)

def components (undirected : List (NodeId × NodeId)) : List NodeId → List NodeId →
    List (List NodeId)
  | [], _ => []
  | start :: rest, seen =>
    if start ∈ seen then components undirected rest seen
    else
      let comp := EdgeList.reach undirected start
      comp :: components undirected rest (seen ++ comp)

/-- `connected_components()`; `none` is the `KeyError` of an edge that joins no node. -/
def connectedComponents (g : TaskGraph) : Option (List (List NodeId)) :=
  if g.blocking.all fun e => e.1 ∈ g.ids ∧ e.2 ∈ g.ids then
    some (components (g.blocking ++ g.blocking.map Prod.swap) g.ids [])
  else none

/-- `disconnected_nodes()`: edges of every kind count. -/
def disconnectedNodes (g : TaskGraph) : List NodeId :=
  if g.ids.length ≤ 1 then []
  else sorted (g.ids.filter fun nid => g.edges.all fun e => e.src ≠ nid ∧ e.dst ≠ nid)

def missingDependencies (g : TaskGraph) : List (NodeId × NodeId) :=
  (g.edges.flatMap fun e =>
    (if e.src ∈ g.ids then [] else [(e.src, e.dst)]) ++
    (if e.dst ∈ g.ids then [] else [(e.src, e.dst)])) ++
  g.nodes.entries.flatMap fun (nid, node) =>
    (node.dependencies.filter (· ∉ g.ids)).map fun dep => (dep, nid)

-- ------ Lemmas

variable {g : TaskGraph}

theorem precedes_iff {u v : NodeId} :
    g.Precedes u v ↔ ∃ e ∈ g.edges, e.isBlocking ∧ e.src = u ∧ e.dst = v := by
  unfold Precedes EdgeList.Adj blocking
  rw [List.mem_map]
  constructor
  · rintro ⟨e, he, hEq⟩
    obtain ⟨hMem, hBlocking⟩ := List.mem_filter.mp he
    obtain ⟨rfl, rfl⟩ := Prod.mk.inj hEq
    exact ⟨e, hMem, hBlocking, rfl, rfl⟩
  · rintro ⟨e, hMem, hBlocking, rfl, rfl⟩
    exact ⟨e, List.mem_filter.mpr ⟨hMem, hBlocking⟩, rfl⟩

@[simp] theorem mem_rev {u v : NodeId} : u ∈ g.rev v ↔ g.Precedes u v :=
  EdgeList.mem_predecessors

@[simp] theorem mem_adj {u v : NodeId} : v ∈ g.adj u ↔ g.Precedes u v :=
  EdgeList.mem_successors

theorem mem_readyNodes {completed : List NodeId} {v : NodeId} :
    v ∈ g.readyNodes completed ↔
      v ∈ g.ids ∧ v ∉ completed ∧ ∀ p, g.Precedes p v → p ∈ completed := by
  unfold readyNodes
  rw [mem_sorted, List.mem_filter, decide_eq_true_eq]
  simp only [mem_rev]

theorem mem_reachableFrom {u v : NodeId} {seen : List NodeId} (h : g.reachableFrom u = some seen) :
    v ∈ seen ↔ Relation.ReflTransGen g.Precedes u v := by
  unfold reachableFrom at h
  split at h
  · cases h
    exact EdgeList.mem_reach
  · cases h

/-- The blocking edges join nodes of the graph. -/
def Closed (g : TaskGraph) : Prop := ∀ u v, g.Precedes u v → u ∈ g.ids ∧ v ∈ g.ids

theorem all_blocking_iff :
    (g.blocking.all fun e => e.1 ∈ g.ids ∧ e.2 ∈ g.ids) = true ↔ g.Closed := by
  rw [List.all_eq_true]
  constructor
  · intro h u v huv
    exact of_decide_eq_true (h (u, v) huv)
  · intro h e he
    exact decide_eq_true (h e.1 e.2 he)

theorem isDag_iff (nx : Option Networkx) (h : g.Closed) :
    g.isDag nx = true ↔ EdgeList.Acyclic g.Precedes := by
  cases nx with
  | some nx => exact nx.isDirectedAcyclicGraph_iff _ _
  | none =>
    unfold isDag
    rw [beq_iff_eq]
    exact EdgeList.kahn_complete_iff g.nodes.nodup h

theorem exists_ready (hAcyclic : EdgeList.Acyclic g.Precedes) (hClosed : g.Closed)
    {completed : List NodeId} {v : NodeId} (hv : v ∈ g.ids) (hNot : v ∉ completed) :
    ∃ r, r ∈ g.readyNodes completed := by
  have hNil : g.ids.filter (· ∉ completed) ≠ [] :=
    List.ne_nil_of_mem (List.mem_filter.mpr ⟨hv, decide_eq_true hNot⟩)
  obtain ⟨r, hr, hMin⟩ := EdgeList.exists_minimal hAcyclic hNil
  obtain ⟨hrIds, hrNot⟩ := List.mem_filter.mp hr
  refine ⟨r, mem_readyNodes.mpr ⟨hrIds, of_decide_eq_true hrNot, fun p hp => ?_⟩⟩
  -- a predecessor outside `completed` would be below the minimal node
  by_contra hpNot
  exact hMin p (List.mem_filter.mpr ⟨(hClosed p r hp).1, decide_eq_true hpNot⟩) hp

end TaskGraph

end Neuroswarm.Swarm

/-!
## `topological_order`

Both branches of `DAGAnalyzer.topological_order`: `nx.topological_sort` with its documented
meaning, and the queue loop that sorts what it starts with and what it releases.

* `topologicalOrder_spec` — on blocking edges that form a DAG of the nodes either branch
  lists every node once, forward.
-/

namespace Neuroswarm.Swarm

/-- `networkx` with `nx.topological_sort` on a `DiGraph` with these nodes and edges, which
also has the ends of the edges as nodes. -/
structure NetworkxSort extends Networkx where
  topologicalSort : List NodeId → List (NodeId × NodeId) → List NodeId
  topologicalSort_spec : ∀ V E, EdgeList.Acyclic (EdgeList.Adj E) →
    EdgeList.Topological V E (topologicalSort V E)

/-- The documented meaning can be met: Kahn's algorithm over the nodes and the ends of edges. -/
def referenceNetworkx : NetworkxSort where
  isDirectedAcyclicGraph V E :=
    (EdgeList.kahn (EdgeList.vertices V E) E).length == (EdgeList.vertices V E).length
  isDirectedAcyclicGraph_iff V E := by
    rw [beq_iff_eq]
    exact EdgeList.kahn_complete_iff (EdgeList.nodup_vertices V E) (EdgeList.within_vertices V E)
  topologicalSort V E := EdgeList.arrangedOrder id (EdgeList.vertices V E) E
  topologicalSort_spec V E hAcyclic :=
    (EdgeList.arrangedOrder_topological (fun l => List.Perm.refl l)
      (EdgeList.within_vertices V E) hAcyclic).of_vertices

theorem sorted_perm (l : List NodeId) : (sorted l).Perm l := List.perm_insertionSort _ l

inductive AnalyzerError where
  | cycle
  | residual (nodes : List NodeId)
  | keyError (nodeId : NodeId)
  deriving DecidableEq, Repr

namespace TaskGraph

def topologicalOrder (nx : Option NetworkxSort) (g : TaskGraph) :
    Except AnalyzerError (List NodeId) :=
  if g.isDag (nx.map NetworkxSort.toNetworkx) then
    match nx with
    | some nx => .ok (nx.topologicalSort g.ids g.blocking)
    | none => .ok (EdgeList.arrangedOrder sorted g.ids g.blocking)
  else .error .cycle

/-- The blocking edges form a DAG of the nodes. -/
structure Dag (g : TaskGraph) : Prop where
  closed : g.Closed
  acyclic : EdgeList.Acyclic g.Precedes

theorem Dag.isDag {g : TaskGraph} (h : g.Dag) (nx : Option Networkx) : g.isDag nx = true :=
  (isDag_iff nx h.closed).mpr h.acyclic

theorem dag_of_isDag {g : TaskGraph} (hClosed : g.Closed) (h : g.isDag none = true) : g.Dag :=
  ⟨hClosed, (isDag_iff none hClosed).mp h⟩

theorem topologicalOrder_spec (nx : Option NetworkxSort) {g : TaskGraph} (h : g.Dag) :
    ∃ order, g.topologicalOrder nx = .ok order ∧ order.Nodup ∧ (∀ v, v ∈ order ↔ v ∈ g.ids) ∧
      EdgeList.Forward g.blocking order := by
  have hWithin : EdgeList.Within g.ids g.blocking := h.closed
  have hVertices : ∀ {order}, EdgeList.Topological g.ids g.blocking order →
      order.Nodup ∧ (∀ v, v ∈ order ↔ v ∈ g.ids) ∧ EdgeList.Forward g.blocking order :=
    fun hOrder => ⟨hOrder.nodup, fun v => (hOrder.complete v).trans hWithin.vertex_iff,
      hOrder.forward⟩
  unfold topologicalOrder
  rw [if_pos (h.isDag _)]
  cases nx with
  | some nx => exact ⟨_, rfl, hVertices (nx.topologicalSort_spec _ _ h.acyclic)⟩
  | none =>
    exact ⟨_, rfl, hVertices (EdgeList.arrangedOrder_topological sorted_perm hWithin h.acyclic)⟩

end TaskGraph

/-- An edge from `a` to a node that is missing. -/
def danglingEdge : TaskGraph where
  graphId := "g"
  nodes := Dict.empty.set "a" { id := "a" }
  edges := [{ src := "a", dst := "x" }]

theorem danglingEdge_acyclic : EdgeList.Acyclic danglingEdge.Precedes := by
  have hWithin : EdgeList.Within ["a", "x"] danglingEdge.blocking := by
    intro u v huv
    have hMem : (u, v) ∈ [("a", "x")] := huv
    cases List.mem_singleton.mp hMem
    simp
  exact (EdgeList.kahn_complete_iff (by decide) hWithin).mp (by decide +kernel)

end Neuroswarm.Swarm
