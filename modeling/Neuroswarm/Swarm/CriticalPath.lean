import Mathlib.Algebra.Order.Ring.Rat
import Neuroswarm.Lib.Argmax
import Neuroswarm.Lib.Fallible
import Neuroswarm.Lib.Levels
import Neuroswarm.Lib.LongestPath
import Neuroswarm.Swarm.Analyzer

/-!
# Task graph — `critical_path`

The dynamic program of `DAGAnalyzer.critical_path`: edges relaxed along a topological
order, the best end, and the walk back over the predecessors.

`Relaxed` is the invariant, over the edges relaxed so far: every node has a distance, and the
distances and predecessors are a relaxed table.

* `criticalPath_heaviest` — on blocking edges that form a DAG of the nodes the path is a
  heaviest one.
-/

/-!
## `execution_layers`

The layers of `DAGAnalyzer.execution_layers`, and `depth`.

* `executionLayers_spec` — on blocking edges that form a DAG of the nodes the layers are the
  longest-path levels.
-/

namespace Neuroswarm.Swarm

namespace TaskGraph

def executionLayers (nx : Option Networkx) (g : TaskGraph) :
    Except AnalyzerError (List (List NodeId)) :=
  if g.isDag nx then
    let layers := EdgeList.layers sorted g.ids g.blocking
    let remaining := g.ids.filter (· ∉ layers.flatten)
    if remaining = [] then .ok layers else .error (.residual (sorted remaining))
  else .error .cycle

def depth (nx : Option Networkx) (g : TaskGraph) : Except AnalyzerError Nat :=
  (g.executionLayers nx).map List.length

/-- The layers split the nodes, a node is in the layer whose index is the number of edges on
the longest blocking path that ends at it, and there are as many layers as the longest chain
has nodes. -/
structure LongestPathLevels (g : TaskGraph) (layers : List (List NodeId)) : Prop where
  partition : layers.flatten.Perm g.ids
  level : ∀ i layer v, layers[i]? = some layer → (v ∈ layer ↔ v ∈ g.ids ∧
    EdgeList.Height g.Precedes v i)
  forward : ∀ u v, g.Precedes u v → ∀ (i j : Nat) (layer layer' : List NodeId),
    layers[i]? = some layer → u ∈ layer → layers[j]? = some layer' → v ∈ layer' → i < j
  longest : ∀ path : List NodeId, path.IsChain g.Precedes → (∀ v ∈ path, v ∈ g.ids) →
    path.length ≤ layers.length
  reached : ∃ path : List NodeId, path.IsChain g.Precedes ∧ (∀ v ∈ path, v ∈ g.ids) ∧
    path.length = layers.length

theorem Dag.longestPathLevels {g : TaskGraph} (h : g.Dag) :
    g.LongestPathLevels (EdgeList.layers sorted g.ids g.blocking) := by
  have hLayered := EdgeList.layers_spec sorted_perm g.ids g.blocking
  have hWithin : EdgeList.Within g.ids g.blocking := h.closed
  have hSettles : ∀ v, EdgeList.Settles g.ids g.blocking v ↔ v ∈ g.ids := fun v =>
    hWithin.settles_iff h.acyclic
  constructor
  case partition =>
    refine (List.perm_ext_iff_of_nodup hLayered.nodup g.nodes.nodup).mpr fun v => ?_
    exact (hLayered.complete v).trans (hSettles v)
  case level =>
    intro i layer v hi
    rw [hLayered.mem_iff hi, hSettles]
    rfl
  case forward =>
    intro u v huv i j layer layer' hi hu hj hv
    exact (hLayered.height_at hi hu).lt (hLayered.height_at hj hv) huv
  case longest =>
    intro path hChain hIds
    exact hLayered.length_chain_le hChain fun v hv => (hSettles v).mpr (hIds v hv)
  case reached =>
    obtain ⟨path, hChain, hAll, hLen⟩ := hLayered.exists_chain
    exact ⟨path, hChain, fun v hv => (hSettles v).mp (hAll v hv), hLen⟩

/-- **Levels.** On blocking edges that form a DAG of the nodes, `execution_layers` returns the
longest-path levels and `depth` their number, with or without `networkx`. -/
theorem executionLayers_spec (nx : Option Networkx) (g : TaskGraph) (h : g.Dag) :
    ∃ layers, g.executionLayers nx = .ok layers ∧ g.LongestPathLevels layers ∧
      g.depth nx = .ok layers.length := by
  have hLevels := h.longestPathLevels
  have hResult : g.executionLayers nx = .ok (EdgeList.layers sorted g.ids g.blocking) := by
    have hRemaining : g.ids.filter
        (· ∉ (EdgeList.layers sorted g.ids g.blocking).flatten) = [] := by
      rw [List.filter_eq_nil_iff]
      intro v hv
      simpa using hLevels.partition.symm.subset hv
    unfold executionLayers
    rw [if_pos (h.isDag nx)]
    exact if_pos hRemaining
  refine ⟨_, hResult, hLevels, ?_⟩
  unfold depth
  rw [hResult]
  rfl

/-- Two edges from `a` to `b`, one from `b` to `c` and one from `a` to `c`. -/
def parallelEdges : TaskGraph where
  graphId := "g"
  nodes := ((Dict.empty.set "c" { id := "c", estimatedLatency := 5 }).set "a"
    { id := "a", estimatedLatency := 10 }).set "b" { id := "b", estimatedLatency := 20 }
  edges := [{ src := "a", dst := "b" }, { src := "a", dst := "b", kind := .data },
    { src := "b", dst := "c" }, { src := "a", dst := "c" }]

theorem parallelEdges_dag : parallelEdges.Dag :=
  dag_of_isDag (all_blocking_iff.mp (by decide +kernel)) (by decide +kernel)

theorem executionLayers_spec_parallelEdges :
    ∃ layers, parallelEdges.executionLayers none = .ok layers ∧
      parallelEdges.LongestPathLevels layers ∧ parallelEdges.depth none = .ok layers.length :=
  executionLayers_spec none parallelEdges parallelEdges_dag

example : parallelEdges.executionLayers none = .ok [["a"], ["b"], ["c"]] := by rfl

/-- A missing node is in a layer, or a cycle is reported where there is none. -/
theorem executionLayers_danglingEdge :
    EdgeList.Acyclic danglingEdge.Precedes ∧ ∀ nx, ¬ ∃ layers,
      danglingEdge.executionLayers nx = .ok layers ∧ danglingEdge.LongestPathLevels layers := by
  refine ⟨danglingEdge_acyclic, ?_⟩
  rintro nx ⟨layers, h, hLevels⟩
  have hLayers : layers = [["a"], ["x"]] := by
    unfold executionLayers at h
    split at h
    · exact (Except.ok.inj h).symm
    · cases h
  have hLen := hLevels.partition.length_eq
  rw [hLayers] at hLen
  exact absurd hLen (by decide +kernel)

end TaskGraph

end Neuroswarm.Swarm

/-! ## `critical_path` -/

namespace Neuroswarm.Swarm

/-- `dist` and `pred`. -/
structure Longest where
  dist : Dict NodeId ℚ
  pred : Dict NodeId (Option NodeId)

namespace Longest

def distOf (st : Longest) (v : NodeId) : ℚ := (st.dist.get? v).getD 0

def predOf (st : Longest) (v : NodeId) : Option NodeId := (st.pred.get? v).getD none

def table (st : Longest) : EdgeList.Table NodeId ℚ := ⟨st.distOf, st.predOf⟩

/-- One edge out of `u`; a `KeyError` for a node without a distance. -/
def relax (u : NodeId) (base : ℚ) (st : Longest) (v : NodeId) : Except AnalyzerError Longest :=
  match st.dist.get? u, st.dist.get? v with
  | some du, some dv =>
    let cand := du + base
    if dv ≤ cand then .ok { dist := st.dist.set v cand, pred := st.pred.set v (some u) }
    else .ok st
  | none, _ => .error (.keyError u)
  | some _, none => .error (.keyError v)

/-- The predecessors back from `v`; a walk without repetition needs no more steps than there
are nodes. -/
def walkBack (st : Longest) : Nat → NodeId → List NodeId
  | 0, v => [v]
  | n + 1, v =>
    match st.predOf v with
    | some u => walkBack st n u ++ [v]
    | none => [v]

end Longest

namespace TaskGraph

/-- `float(self.graph.nodes[node_id].estimated_latency)`. -/
def latency (g : TaskGraph) (nodeId : NodeId) : Except AnalyzerError ℚ :=
  match g.nodes.get? nodeId with
  | some node => .ok node.estimatedLatency
  | none => .error (.keyError nodeId)

def weight (g : TaskGraph) (nodeId : NodeId) : ℚ :=
  ((g.nodes.get? nodeId).map TaskNode.estimatedLatency).getD 0

/-- The edges out of one node of the order. -/
def visit (g : TaskGraph) (st : Longest) (u : NodeId) : Except AnalyzerError Longest := do
  let base ← g.latency u
  (g.adj u).foldlM (Longest.relax u base) st

def unrelaxed (g : TaskGraph) : Longest :=
  { dist := g.nodes.mapValues fun _ _ => 0, pred := g.nodes.mapValues fun _ _ => none }

def criticalPath (nx : Option NetworkxSort) (g : TaskGraph) :
    Except AnalyzerError (List NodeId) := do
  if g.ids = [] then return []
  let order ← g.topologicalOrder nx
  let st ← order.foldlM g.visit g.unrelaxed
  match g.ids.argmax fun n => st.distOf n + g.weight n with
  | some bestEnd => return st.walkBack g.ids.length bestEnd
  | none => return []

def criticalPathLatencyMs (nx : Option NetworkxSort) (g : TaskGraph) : Except AnalyzerError ℚ := do
  let path ← g.criticalPath nx
  let latencies ← path.mapM g.latency
  return latencies.sum

/-- Nodes of the graph, each joined to the next by a blocking edge. -/
structure IsPath (g : TaskGraph) (path : List NodeId) : Prop where
  joined : path.IsChain g.Precedes
  within : ∀ v ∈ path, v ∈ g.ids

def totalLatency (g : TaskGraph) (path : List NodeId) : ℚ := (path.map g.weight).sum

-- ------ The invariant

/-- `done u v` says that the edge from `u` to `v` has been relaxed. -/
structure Relaxed (g : TaskGraph) (done : NodeId → NodeId → Prop) (st : Longest) : Prop where
  known : ∀ v ∈ g.ids, (st.dist.get? v).isSome
  table : EdgeList.Relaxed (fun u _ => g.weight u) done st.table

variable {g : TaskGraph}

variable {v : NodeId}

theorem latency_eq (hv : v ∈ g.ids) :
    g.latency v = .ok (g.weight v) := by
  obtain ⟨node, hNode⟩ := Option.isSome_iff_exists.mp (Dict.mem_keys_iff.mp hv)
  unfold latency weight
  rw [hNode]
  rfl

theorem relaxed_start (g : TaskGraph) : g.Relaxed (fun _ _ => False) g.unrelaxed := by
  have hDist : ∀ v, g.unrelaxed.distOf v = 0 := by
    intro v
    unfold Longest.distOf unrelaxed
    rw [Dict.get?_mapValues]
    cases g.nodes.get? v <;> rfl
  have hPred : ∀ v, g.unrelaxed.predOf v = none := by
    intro v
    unfold Longest.predOf unrelaxed
    rw [Dict.get?_mapValues]
    cases g.nodes.get? v <;> rfl
  refine ⟨fun v hv => ?_, fun v => (hDist v).ge, fun u v h => h.elim, fun v _ => hDist v,
    fun u v h => ?_⟩
  · unfold unrelaxed
    rw [Dict.get?_mapValues, Option.isSome_map]
    exact Dict.mem_keys_iff.mp hv
  · exact absurd (h.symm.trans (hPred v)) (Option.some_ne_none u)

variable {st : Longest}

variable {done : NodeId → NodeId → Prop}

theorem Relaxed.relax (h : g.Relaxed done st) {u : NodeId} (hu : u ∈ g.ids) (hv : v ∈ g.ids)
    (huv : u ≠ v) (hNew : ∀ w, ¬ done v w) :
    ∃ st', st.relax u (g.weight u) v = .ok st' ∧
      g.Relaxed (fun a b => done a b ∨ (a = u ∧ b = v)) st' := by
  obtain ⟨du, hdu⟩ := Option.isSome_iff_exists.mp (h.known u hu)
  obtain ⟨dv, hdv⟩ := Option.isSome_iff_exists.mp (h.known v hv)
  have hDistU : st.distOf u = du := by
    unfold Longest.distOf
    rw [hdu]
    rfl
  have hDistV : st.distOf v = dv := by
    unfold Longest.distOf
    rw [hdv]
    rfl
  unfold Longest.relax
  rw [hdu, hdv]
  dsimp only
  by_cases hLe : dv ≤ du + g.weight u
  · rw [if_pos hLe]
    refine ⟨_, rfl, fun w hw => ?_, ?_⟩
    · rw [Dict.get?_set]
      split
      · rfl
      · exact h.known w hw
    · convert h.table.settle huv hNew (by rwa [← hDistU, ← hDistV] at hLe) using 1
      unfold Longest.table EdgeList.Table.settle
      congr 1
      · funext w
        show Longest.distOf _ w = Function.update st.distOf v (st.distOf u + g.weight u) w
        rw [hDistU, Function.update_apply]
        unfold Longest.distOf
        rw [Dict.get?_set]
        split <;> rfl
      · funext w
        rw [Function.update_apply]
        unfold Longest.predOf
        rw [Dict.get?_set]
        split <;> rfl
  · rw [if_neg hLe, ← hDistU, ← hDistV] at *
    exact ⟨st, rfl, h.known, h.table.keep (not_le.mp hLe).le⟩

/-- The edges out of one node. -/
theorem Relaxed.visit (hDag : g.Dag) {u : NodeId} (hu : u ∈ g.ids) (h : g.Relaxed done st)
    (hNew : ∀ v ∈ g.adj u, ∀ w, ¬ done v w) (hSelf : u ∉ g.adj u) :
    ∃ st', g.visit st u = .ok st' ∧
      g.Relaxed (fun a b => done a b ∨ (a = u ∧ b ∈ g.adj u)) st' := by
  unfold TaskGraph.visit
  rw [latency_eq hu]
  exact EdgeList.exists_foldlM_targets (Longest.relax u (g.weight u)) (g.adj u)
    (fun v hv _ _ h hNew => h.relax hu (hDag.closed u v (mem_adj.mp hv)).2
      (fun hEq => hSelf (hEq ▸ hv)) hNew) hSelf hNew h

-- ------ The walk back

theorem walkBack_table (st : Longest) (n : Nat) (v : NodeId) :
    st.walkBack n v = st.table.walkBack n v := by
  induction n generalizing v with
  | zero => rfl
  | succ n ih =>
    unfold Longest.walkBack EdgeList.Table.walkBack
    cases hPred : st.predOf v with
    | none => simp [Longest.table, hPred]
    | some u => simp [Longest.table, hPred, ih u]

theorem totalLatency_append (path : List NodeId) (v : NodeId) :
    g.totalLatency (path ++ [v]) =
      EdgeList.pathWeight (fun u _ => g.weight u) (path ++ [v]) + g.weight v := by
  unfold totalLatency
  rw [EdgeList.pathWeight_source, List.map_append, List.sum_append, List.map_singleton,
    List.sum_singleton]

theorem Relaxed.walkBack_spec (hDag : g.Dag) (h : g.Relaxed g.Precedes st) (hv : v ∈ g.ids) :
    g.IsPath (st.walkBack g.ids.length v) ∧
      g.totalLatency (st.walkBack g.ids.length v) = st.distOf v + g.weight v := by
  have hWithin : ∀ u v, g.Precedes u v → u ∈ g.ids := fun u v huv => (hDag.closed u v huv).1
  obtain ⟨before, hWalk, hChain, hWeight⟩ := h.table.walkBack_spec hDag.acyclic hWithin hv
  rw [walkBack_table, hWalk, totalLatency_append, hWeight]
  exact ⟨⟨hChain, EdgeList.subset_of_isChain hWithin hv hChain⟩, rfl⟩

theorem Relaxed.totalLatency_le (h : g.Relaxed g.Precedes st) {path : List NodeId}
    (hPath : g.IsPath (path ++ [v])) :
    g.totalLatency (path ++ [v]) ≤ st.distOf v + g.weight v := by
  have hWeight := h.table.pathWeight_le hPath.joined
  rw [totalLatency_append]
  exact add_le_add_left hWeight _

/-- **Heaviest path.** On blocking edges that form a DAG of the nodes, `critical_path` returns
a path of total latency at least that of every other one, and `critical_path_latency_ms` that
total, with or without `networkx` and whatever the order of `nx.topological_sort`. -/
theorem criticalPath_heaviest (nx : Option NetworkxSort) (g : TaskGraph) (hDag : g.Dag) :
    ∃ path, g.criticalPath nx = .ok path ∧ g.IsPath path ∧ (path = [] ↔ g.ids = []) ∧
      (∀ other, g.IsPath other → other ≠ [] → g.totalLatency other ≤ g.totalLatency path) ∧
      g.criticalPathLatencyMs nx = .ok (g.totalLatency path) := by
  have hLatency : ∀ {path}, g.criticalPath nx = .ok path → g.IsPath path →
      g.criticalPathLatencyMs nx = .ok (g.totalLatency path) := by
    intro path hPath hIs
    have hMap : path.mapM g.latency = .ok (path.map g.weight) :=
      Except.mapM_eq_ok fun v hv => latency_eq (hIs.within v hv)
    exact Except.bind_eq_ok.mpr ⟨path, hPath, Except.bind_eq_ok.mpr ⟨_, hMap, rfl⟩⟩
  by_cases hEmpty : g.ids = []
  · have hPath : g.criticalPath nx = .ok [] := by
      unfold criticalPath
      rw [if_pos hEmpty]
      rfl
    have hIs : g.IsPath [] := ⟨List.isChain_nil, fun v hv => absurd hv List.not_mem_nil⟩
    refine ⟨[], hPath, hIs, iff_of_true rfl hEmpty, fun other hOther hNil => ?_,
      hLatency hPath hIs⟩
    obtain ⟨v, hv⟩ := List.exists_mem_of_ne_nil other hNil
    have hIds := hOther.within v hv
    rw [hEmpty] at hIds
    cases hIds
  · obtain ⟨order, hOrder, hNodup, hMem, hForward⟩ := topologicalOrder_spec nx hDag
    obtain ⟨st, hFold, hRelaxed⟩ := EdgeList.exists_foldlM_along hDag.acyclic g.visit order []
      (fun u hu _ _ h hNew hSelf => Relaxed.visit hDag ((hMem u).mp hu) h hNew hSelf)
      hForward hNodup (by simpa using g.relaxed_start)
    have hAll : g.Relaxed g.Precedes st := by
      convert hRelaxed using 3 with u v
      rw [List.nil_append]
      exact ⟨fun h => ⟨(hMem u).mpr (hDag.closed u v h).1, h⟩, And.right⟩
    cases hBest : g.ids.argmax fun n => st.distOf n + g.weight n with
    | none => exact absurd (List.argmax_eq_none.mp hBest) hEmpty
    | some bestEnd =>
      obtain ⟨hIs, hTotal⟩ := hAll.walkBack_spec hDag (List.argmax_mem hBest)
      have hPath : g.criticalPath nx = .ok (st.walkBack g.ids.length bestEnd) := by
        unfold criticalPath
        rw [if_neg hEmpty]
        refine Except.bind_eq_ok.mpr ⟨order, hOrder, Except.bind_eq_ok.mpr ⟨st, hFold, ?_⟩⟩
        rw [hBest]
        rfl
      refine ⟨_, hPath, hIs, iff_of_false (fun hNil => ?_) hEmpty, fun other hOther hNil => ?_,
        hLatency hPath hIs⟩
      · obtain ⟨before, hWalk, -⟩ := hAll.table.exists_walkBack g.ids.length bestEnd
        rw [walkBack_table, hWalk] at hNil
        simp at hNil
      · obtain ⟨before, v, rfl⟩ := (List.eq_nil_or_concat' other).resolve_left hNil
        have hv := hOther.within v (List.mem_append_right _ (List.mem_singleton_self v))
        rw [hTotal]
        exact (hAll.totalLatency_le hOther).trans (List.le_of_mem_argmax hv hBest)

theorem criticalPath_heaviest_parallelEdges :
    ∃ path, parallelEdges.criticalPath none = .ok path ∧ parallelEdges.IsPath path ∧
      (path = [] ↔ parallelEdges.ids = []) ∧
      (∀ other, parallelEdges.IsPath other → other ≠ [] →
        parallelEdges.totalLatency other ≤ parallelEdges.totalLatency path) ∧
      parallelEdges.criticalPathLatencyMs none = .ok (parallelEdges.totalLatency path) :=
  criticalPath_heaviest none parallelEdges parallelEdges_dag

example : parallelEdges.criticalPath none = .ok ["a", "b", "c"] := by decide +kernel

/-- Without `networkx` a cycle is reported where there is none. -/
theorem criticalPath_danglingEdge :
    EdgeList.Acyclic danglingEdge.Precedes ∧
      danglingEdge.criticalPath none = .error .cycle :=
  ⟨danglingEdge_acyclic, by decide +kernel⟩

end TaskGraph

end Neuroswarm.Swarm
