import Mathlib.Algebra.Order.Ring.Rat
import Neuroswarm.Haoe.DependencyGraph
import Neuroswarm.Lib.Fallible
import Neuroswarm.Lib.LongestPath

/-!
# HAOE — `critical_path`

Both branches of `DependencyGraph.critical_path`: `nx.dag_longest_path` with its documented
meaning, and the pure-Python relaxation. The latency of a node, at least 0.001, is the weight
of the edges into it, so the first node of a path weighs nothing. Latencies are rationals.

* `criticalPath_isLongest` — in either branch the path has the greatest weight so counted.
* `heaviest_iff` — when that makes it a heaviest path.
-/

namespace Neuroswarm.Haoe

open Swarm (NodeId NetworkxSort)

/-- `networkx` with `nx.dag_longest_path` on a `DiGraph` with these nodes and weighted edges. -/
structure NetworkxPaths extends NetworkxSort where
  dagLongestPath : List NodeId → List (NodeId × NodeId) → (NodeId → NodeId → ℚ) → List NodeId
  dagLongestPath_spec : ∀ V E w, EdgeList.Acyclic (EdgeList.Adj E) →
    EdgeList.IsLongest V E w (dagLongestPath V E w)

/-- What leaves `critical_path`: the `ValueError` of `topological_order`, or a `KeyError` for
a node that an edge names and the graph has not. -/
inductive PathError where
  | cycle
  | keyError
  deriving DecidableEq, Repr

namespace TaskGraph

variable {M Γ : Type*}

/-- `self.graph.nodes[v].estimate.expected_latency_ms`. -/
def latency (g : TaskGraph M Γ) (v : NodeId) : ℚ :=
  ((g.nodes.get? v).map fun node => node.estimate.expectedLatencyMs).getD 0

/-- The weight of an edge into `v`. -/
def edgeWeight (g : TaskGraph M Γ) (_ v : NodeId) : ℚ := max (1 / 1000) (g.latency v)

/-- The loop body of `_longest_path_pure`; `dist` and `pred` have the keys of `graph.nodes`. -/
def relaxEdge (g : TaskGraph M Γ) (u : NodeId) (t : EdgeList.Table NodeId ℚ) (v : NodeId) :
    Except PathError (EdgeList.Table NodeId ℚ) :=
  if v ∉ g.ids ∨ u ∉ g.ids then .error .keyError else .ok (t.relax g.edgeWeight u v)

def relaxFrom (g : TaskGraph M Γ) (t : EdgeList.Table NodeId ℚ) (u : NodeId) :
    Except PathError (EdgeList.Table NodeId ℚ) :=
  (EdgeList.successors g.adjacency u).foldlM (g.relaxEdge u) t

/-- `_longest_path_pure()`; the walk back takes no more steps than there are nodes. -/
def longestPathPure (g : TaskGraph M Γ) : Except PathError (List NodeId) :=
  match g.topologicalOrder none with
  | none => .error .cycle
  | some order => do
    let t ← order.foldlM g.relaxFrom .start
    match g.ids.argmax t.dist with
    | none => return []
    | some last => return t.walkBack g.ids.length last

def criticalPath (nx : Option NetworkxPaths) (g : TaskGraph M Γ) :
    Except PathError (List NodeId) :=
  if g.ids = [] ∨ g.isDag (nx.map fun nx => nx.toNetworkx) = false then .ok []
  else
    match nx with
    | some nx =>
      if ∃ e ∈ g.edgeMap.keys, e.2 ∉ g.ids then .error .keyError
      else .ok (nx.dagLongestPath g.ids g.edgeMap.keys g.edgeWeight)
    | none => g.longestPathPure

/-- Nodes of the graph, each joined to the next by an edge that does not cancel. -/
structure IsPath (g : TaskGraph M Γ) (path : List NodeId) : Prop where
  joined : path.IsChain g.Precedes
  within : ∀ v ∈ path, v ∈ g.ids

def totalLatency (g : TaskGraph M Γ) (path : List NodeId) : ℚ := (path.map g.latency).sum

/-- The result is a path, empty only for the empty graph, that no other path outweighs. -/
structure Heaviest (g : TaskGraph M Γ) (path : List NodeId) : Prop extends g.IsPath path where
  nonempty : path = [] → g.ids = []
  heaviest : ∀ other, g.IsPath other → g.totalLatency other ≤ g.totalLatency path

def Closed (g : TaskGraph M Γ) : Prop := EdgeList.Within g.ids g.adjacency

/-- Not counting the first node, no path outweighs this one. -/
def LongestPastFirst (g : TaskGraph M Γ) (path : List NodeId) : Prop :=
  EdgeList.IsLongest g.ids g.adjacency g.edgeWeight path

-- ------ Both branches on edges between nodes

variable {g : TaskGraph M Γ}

theorem adj_edgeMap {u v : NodeId} :
    EdgeList.Adj g.edgeMap.keys u v ↔ EdgeList.Adj g.adjacency u v :=
  mem_edgeMap_keys

theorem foldlM_relaxFrom (hClosed : g.Closed) {order : List NodeId}
    (t : EdgeList.Table NodeId ℚ) :
    order.foldlM g.relaxFrom t =
      .ok (order.foldl (EdgeList.Table.visit g.adjacency g.edgeWeight) t) := by
  have hEdges : ∀ (u : NodeId) (targets : List NodeId) (t : EdgeList.Table NodeId ℚ),
      (∀ v ∈ targets, g.Precedes u v) →
        targets.foldlM (g.relaxEdge u) t =
          .ok (targets.foldl (EdgeList.Table.relax g.edgeWeight u) t) := by
    intro u targets
    induction targets with
    | nil => exact fun t _ => rfl
    | cons v targets ih =>
      intro t hTargets
      obtain ⟨hu, hv⟩ := hClosed u v (hTargets v (List.mem_cons_self ..))
      have hRelax : g.relaxEdge u t v = .ok (t.relax g.edgeWeight u v) :=
        if_neg (by simp [hu, hv])
      rw [List.foldlM_cons, hRelax]
      exact ih _ fun w hw => hTargets w (List.mem_cons_of_mem _ hw)
  induction order generalizing t with
  | nil => rfl
  | cons u order ih =>
    have hVisit : g.relaxFrom t u = .ok (t.visit g.adjacency g.edgeWeight u) :=
      hEdges u _ t fun v hv => EdgeList.mem_successors.mp hv
    rw [List.foldlM_cons, hVisit]
    exact ih _

/-- **Greatest weight past the first node**, in either branch. -/
theorem criticalPath_isLongest (hAcyclic : EdgeList.Acyclic g.Precedes) (hClosed : g.Closed)
    (hIds : g.ids ≠ []) (nx : Option NetworkxPaths) :
    ∃ path, g.criticalPath nx = .ok path ∧ g.LongestPastFirst path := by
  cases nx with
  | some nx =>
    have hDag : g.isDag (some nx.toNetworkx) = true := (isDag_some_iff _).mpr hAcyclic
    have hKnown : ¬ ∃ e ∈ g.edgeMap.keys, e.2 ∉ g.ids := by
      rintro ⟨e, he, hNot⟩
      exact hNot (hClosed e.1 e.2 (mem_edgeMap_keys.mp he)).2
    have hKeys : EdgeList.Acyclic (EdgeList.Adj g.edgeMap.keys) :=
      hAcyclic.mono fun u v huv => adj_edgeMap.mp huv
    refine ⟨_, ?_, (nx.dagLongestPath_spec g.ids _ g.edgeWeight hKeys).congr fun u v => adj_edgeMap⟩
    simp [criticalPath, hIds, hDag, if_neg hKnown]
  | none =>
    have hDag : g.isDag none = true :=
      beq_iff_eq.mpr ((EdgeList.kahn_complete_iff g.nodes.nodup hClosed).mpr hAcyclic)
    have hOrder : g.topologicalOrder none =
        some (EdgeList.arrangedOrder Swarm.sorted g.ids g.adjacency) := if_pos hDag
    have hTopological : EdgeList.Topological g.ids g.adjacency
        (EdgeList.arrangedOrder Swarm.sorted g.ids g.adjacency) :=
      EdgeList.arrangedOrder_topological Swarm.sorted_perm hClosed hAcyclic
    have hRelaxed := EdgeList.longest_relaxed g.edgeWeight hAcyclic hTopological
    cases hLast : g.ids.argmax (EdgeList.longest g.adjacency g.edgeWeight
        (EdgeList.arrangedOrder Swarm.sorted g.ids g.adjacency)).dist with
    | none => exact absurd (List.argmax_eq_none.mp hLast) hIds
    | some last =>
      refine ⟨_, ?_, hRelaxed.isLongest hAcyclic (fun v => hClosed.vertex_iff.symm) hLast⟩
      unfold criticalPath
      rw [if_neg (by simp [hIds, hDag])]
      simp only [longestPathPure, hOrder, foldlM_relaxFrom hClosed]
      show (match g.ids.argmax (EdgeList.longest g.adjacency g.edgeWeight _).dist with
        | none => _
        | some last => _) = _
      rw [hLast]
      rfl

-- ------ Heaviest paths

open Classical in
/-- A `networkx` that returns this path wherever it is a longest one. -/
noncomputable def choosing (path : List NodeId) : NetworkxPaths where
  toNetworkxSort := Swarm.referenceNetworkx
  dagLongestPath V E w :=
    if EdgeList.IsLongest V E w path then path
    else if h : EdgeList.Acyclic (EdgeList.Adj E) then (EdgeList.exists_isLongest V w h).choose
    else []
  dagLongestPath_spec V E w hAcyclic := by
    by_cases hLongest : EdgeList.IsLongest V E w path
    · rwa [if_pos hLongest]
    · rw [if_neg hLongest, dif_pos hAcyclic]
      exact (EdgeList.exists_isLongest V w hAcyclic).choose_spec

/-- `critical_path` returns a heaviest path, with or without `networkx`. -/
def FindsHeaviest (g : TaskGraph M Γ) : Prop :=
  ∀ nx : Option NetworkxPaths, ∃ path, g.criticalPath nx = .ok path ∧ g.Heaviest path

theorem mem_ids_of_found (hAcyclic : EdgeList.Acyclic g.Precedes) (hIds : g.ids ≠ [])
    (h : g.FindsHeaviest) {u v : NodeId} (huv : g.Precedes u v) : v ∈ g.ids := by
  by_contra hv
  obtain ⟨path, hPath, -⟩ := h (some (choosing []))
  have hDag : g.isDag (some (choosing []).toNetworkx) = true := (isDag_some_iff _).mpr hAcyclic
  have hMissing : ∃ e ∈ g.edgeMap.keys, e.2 ∉ g.ids := ⟨(u, v), mem_edgeMap_keys.mpr huv, hv⟩
  unfold criticalPath at hPath
  rw [if_neg (by simp [hIds, hDag])] at hPath
  simp only [if_pos hMissing] at hPath
  cases hPath

theorem isDag_none_of_missing (hTargets : ∀ u v, g.Precedes u v → v ∈ g.ids) {u v : NodeId}
    (huv : g.Precedes u v) (hu : u ∉ g.ids) : g.isDag none = false := by
  obtain ⟨hNodup, hMem⟩ := EdgeList.kahn_spec g.ids g.adjacency
  have hKnown : ∀ {x}, EdgeList.Settles g.ids g.adjacency x → x ∈ g.ids := by
    intro x hSettles
    obtain hx | hx : EdgeList.Known g.ids g.adjacency x := by
      cases hSettles
      assumption
    · exact hx
    · obtain ⟨⟨a, b⟩, hEdge, rfl⟩ := List.mem_map.mp hx
      exact hTargets a b hEdge
  have hNot : v ∉ EdgeList.kahn g.ids g.adjacency := by
    rw [hMem]
    intro hSettles
    cases hSettles with
    | intro _ _ hPred => exact hu (hKnown (hPred u huv))
  have hShort : (v :: EdgeList.kahn g.ids g.adjacency).length ≤ g.ids.length := by
    refine (List.subperm_of_subset (List.nodup_cons.mpr ⟨hNot, hNodup⟩) ?_).length_le
    intro x hx
    rcases List.mem_cons.mp hx with rfl | hx
    · exact hTargets u x huv
    · exact hKnown ((hMem x).mp hx)
  rw [List.length_cons] at hShort
  refine beq_eq_false_iff_ne.mpr ?_
  show (EdgeList.kahn g.ids g.adjacency).length ≠ g.ids.length
  omega

theorem closed_of_found (hAcyclic : EdgeList.Acyclic g.Precedes) (hIds : g.ids ≠ [])
    (h : g.FindsHeaviest) : g.Closed := by
  intro u v huv
  have hTargets : ∀ a b, g.Precedes a b → b ∈ g.ids := fun a b hab =>
    mem_ids_of_found hAcyclic hIds h hab
  refine ⟨?_, hTargets u v huv⟩
  by_contra hu
  obtain ⟨path, hPath, hHeaviest⟩ := h none
  have hDag : g.isDag none = false := isDag_none_of_missing hTargets huv hu
  unfold criticalPath at hPath
  rw [if_pos (.inr hDag)] at hPath
  cases hPath
  exact hIds (hHeaviest.nonempty rfl)

theorem LongestPastFirst.isPath (hClosed : g.Closed) {path : List NodeId}
    (h : g.LongestPastFirst path) : g.IsPath path :=
  ⟨h.joined, fun v hv => hClosed.vertex_iff.mp (h.within v hv)⟩

/-- **A heaviest path**: on an acyclic graph `critical_path` returns one iff the edges join
nodes of the graph, and a path that no other outweighs when the first node does not count is
also not outweighed when it does. -/
theorem heaviest_iff (hAcyclic : EdgeList.Acyclic g.Precedes) :
    g.FindsHeaviest ↔ g.ids = [] ∨ g.Closed ∧ ∀ path, g.LongestPastFirst path →
      ∀ other, g.IsPath other → g.totalLatency other ≤ g.totalLatency path := by
  by_cases hIds : g.ids = []
  · refine iff_of_true (fun nx => ⟨[], if_pos (.inl hIds), ?_⟩) (.inl hIds)
    refine ⟨⟨List.isChain_nil, by simp⟩, fun _ => hIds, fun other hOther => ?_⟩
    have hNil : other = [] := by
      refine List.eq_nil_iff_forall_not_mem.mpr fun v hv => ?_
      have hv := hOther.within v hv
      rw [hIds] at hv
      cases hv
    rw [hNil]
  · rw [or_iff_right hIds]
    constructor
    · intro h
      have hClosed := closed_of_found hAcyclic hIds h
      refine ⟨hClosed, fun path hLongest => ?_⟩
      -- a `networkx` that picks this path is as good as any
      obtain ⟨found, hFound, hHeaviest⟩ := h (some (choosing path))
      have hDag : g.isDag (some (choosing path).toNetworkx) = true :=
        (isDag_some_iff _).mpr hAcyclic
      have hKnown : ¬ ∃ e ∈ g.edgeMap.keys, e.2 ∉ g.ids := by
        rintro ⟨e, he, hNot⟩
        exact hNot (hClosed e.1 e.2 (mem_edgeMap_keys.mp he)).2
      have hKeys : EdgeList.IsLongest g.ids g.edgeMap.keys g.edgeWeight path :=
        EdgeList.IsLongest.congr hLongest fun u v => adj_edgeMap.symm
      unfold criticalPath at hFound
      rw [if_neg (by simp [hIds, hDag])] at hFound
      simp only [if_neg hKnown, choosing, if_pos hKeys] at hFound
      cases hFound
      exact hHeaviest.heaviest
    · rintro ⟨hClosed, hCounts⟩ nx
      obtain ⟨path, hPath, hLongest⟩ := criticalPath_isLongest hAcyclic hClosed hIds nx
      refine ⟨path, hPath, hLongest.isPath hClosed, fun hNil => ?_, hCounts path hLongest⟩
      obtain ⟨v, hv⟩ := List.exists_mem_of_ne_nil g.ids hIds
      exact absurd hNil (hLongest.nonempty v (.inl hv))

-- ------ A heavy node on its own

def heavyAlone : TaskGraph Unit Unit where
  graphId := "g"
  nodes := ((Dict.empty.set "a"
    { nodeId := "a", estimate := { expectedLatencyMs := 1000 }, metadata := () }).set "b"
    { nodeId := "b", estimate := { expectedLatencyMs := 1 }, metadata := () }).set "c"
    { nodeId := "c", estimate := { expectedLatencyMs := 1 }, metadata := () }
  edges := [{ src := "b", dst := "c" }]
  context := ()

theorem heavyAlone_acyclic : EdgeList.Acyclic heavyAlone.Precedes := by
  refine (EdgeList.kahn_complete_iff heavyAlone.nodes.nodup ?_).mp (by decide +kernel)
  intro u v huv
  obtain ⟨rfl, rfl⟩ := Prod.mk.inj (List.mem_singleton.mp huv)
  decide +kernel

theorem heaviest_iff_heavyAlone :
    heavyAlone.FindsHeaviest ↔ heavyAlone.ids = [] ∨ heavyAlone.Closed ∧
      ∀ path, heavyAlone.LongestPastFirst path → ∀ other, heavyAlone.IsPath other →
        heavyAlone.totalLatency other ≤ heavyAlone.totalLatency path :=
  heaviest_iff heavyAlone_acyclic

/-- The edge is the critical path. -/
theorem not_findsHeaviest_heavyAlone : ¬ heavyAlone.FindsHeaviest := by
  intro h
  obtain ⟨path, hPath, hHeaviest⟩ := h none
  have hEdge : heavyAlone.criticalPath none = .ok ["b", "c"] := by decide +kernel
  rw [hEdge] at hPath
  cases hPath
  have hAlone : heavyAlone.IsPath ["a"] := ⟨List.isChain_singleton _, by decide +kernel⟩
  exact absurd (hHeaviest.heaviest ["a"] hAlone) (by decide +kernel)

end TaskGraph

end Neuroswarm.Haoe
