import Neuroswarm.Swarm.Edits

/-!
# Task graph — what an edit leaves

For each operation: the graph it leaves or returns, that this graph is intact, and
when it is well-formed, which depends on the lists of the nodes it keeps.

* `removed_iff`, `replaced_iff` — nobody may name a node that goes.
* `PartOf.wellFormed_iff` — the lists of a part stay within the part.
* `Merged.wellFormed_iff` — the lists of the other graph name nodes of the result.
-/

namespace Neuroswarm.Swarm

namespace TaskGraph

variable {g : TaskGraph}

-- ------ Removing and replacing a node

/-- No other node names it in its lists. -/
def NotNamed (g : TaskGraph) (nodeId : NodeId) : Prop :=
  ∀ nid node, g.nodes.get? nid = some node → nid ≠ nodeId →
    nodeId ∉ node.dependencies ∧ nodeId ∉ node.children

theorem get?_removed (nodeId v : NodeId) :
    (g.removed nodeId).nodes.get? v = if v = nodeId then none else g.nodes.get? v :=
  Dict.get?_erase g.nodes nodeId v

variable {nodeId : NodeId}

theorem mem_ids_removed {v : NodeId} :
    v ∈ (g.removed nodeId).ids ↔ v ∈ g.ids ∧ v ≠ nodeId := by
  rw [mem_ids_iff, mem_ids_iff, get?_removed]
  split
  · next hEq => simp [hEq]
  · next hne => simp [hne]

theorem removed_intact (hg : g.WellFormed) (nodeId : NodeId) : (g.removed nodeId).Intact := by
  refine (wellFormed_iff_intact.mp hg).1.restrict (fun e he => ?_) fun v node hNode => ?_
  · obtain ⟨hMem, hOther⟩ := List.mem_filter.mp he
    obtain ⟨hSrc, hDst⟩ := of_decide_eq_true hOther
    have hEnds := hg.endpoints e hMem
    exact ⟨hMem, mem_ids_removed.mpr ⟨hEnds.1, hSrc⟩, mem_ids_removed.mpr ⟨hEnds.2, hDst⟩⟩
  · rw [get?_removed] at hNode
    split at hNode
    · cases hNode
    · exact hg.fields v node hNode

theorem removed_iff (hg : g.WellFormed) (nodeId : NodeId) :
    (g.removed nodeId).WellFormed ↔ g.NotNamed nodeId := by
  rw [(removed_intact hg nodeId).wellFormed_iff]
  constructor
  · intro hLinks v node hNode hv
    have hOwn := hLinks v node (by rw [get?_removed, if_neg hv, hNode])
    exact ⟨fun hd => (mem_ids_removed.mp (hOwn.dependencies _ hd)).2 rfl,
      fun hc => (mem_ids_removed.mp (hOwn.children _ hc)).2 rfl⟩
  · intro hNot v node hNode
    rw [get?_removed] at hNode
    split at hNode
    · cases hNode
    · next hv =>
      have hOld := hg.links v node hNode
      obtain ⟨hDeps, hChildren⟩ := hNot v node hNode hv
      exact ⟨fun d hd => mem_ids_removed.mpr ⟨hOld.dependencies d hd, fun hEq => hDeps (hEq ▸ hd)⟩,
        fun c hc => mem_ids_removed.mpr ⟨hOld.children c hc, fun hEq => hChildren (hEq ▸ hc)⟩⟩

theorem removeNode_ok {g' : TaskGraph} (h : g.removeNode nodeId = .ok g') :
    nodeId ∈ g.ids ∧ g' = g.removed nodeId := by
  unfold removeNode at h
  split at h
  · cases h
  · split at h
    · cases h
    · next hKnown =>
      cases h
      exact ⟨not_not.mp hKnown, rfl⟩

theorem removeNode_iff (hg : g.WellFormed) {g' : TaskGraph} (h : g.removeNode nodeId = .ok g') :
    g'.WellFormed ↔ g.NotNamed nodeId := by
  rw [(removeNode_ok h).2]
  exact removed_iff hg nodeId

theorem get?_replaced (nodeId : NodeId) (newNode : TaskNode) (v : NodeId) :
    (g.replaced nodeId newNode).nodes.get? v =
      if v = newNode.id then some newNode else if v = nodeId then none else g.nodes.get? v := by
  show ((g.nodes.erase nodeId).set newNode.id newNode).get? v = _
  rw [Dict.get?_set, Dict.get?_erase]

variable {newNode : TaskNode}

theorem mem_ids_replaced {v : NodeId} :
    v ∈ (g.replaced nodeId newNode).ids ↔ v ∈ newNode.id :: g.ids.filter (· ≠ nodeId) := by
  rw [mem_ids_iff, get?_replaced, List.mem_cons, List.mem_filter, mem_ids_iff, decide_eq_true_eq]
  by_cases hNew : v = newNode.id
  · simp [hNew]
  · by_cases hOld : v = nodeId
    · simp [hOld]
    · simp [hNew, hOld]

theorem acyclic_redirect {r : NodeId → NodeId → Prop} (hg : g.WellFormed) {f : NodeId → NodeId}
    (hInj : Set.InjOn f {v | v ∈ g.ids})
    (hEdges : ∀ x y, r x y → ∃ e ∈ g.edges, e.isBlocking ∧ f e.src = x ∧ f e.dst = y) :
    EdgeList.Acyclic r := by
  refine hg.acyclic.image hInj (fun a b hab => hg.closed a b hab) fun x y hxy => ?_
  obtain ⟨e, he, hBlocking, hSrc, hDst⟩ := hEdges x y hxy
  exact ⟨e.src, e.dst, precedes_iff.mpr ⟨e, he, hBlocking, rfl, rfl⟩, hSrc, hDst⟩

def Admits (g : TaskGraph) (nodeId : NodeId) (newNode : TaskNode) : Prop :=
  ∀ v ∈ g.ids, v ≠ nodeId → v ≠ newNode.id

theorem Admits.injOn (h : g.Admits nodeId newNode) :
    Set.InjOn (fun v => if v = nodeId then newNode.id else v) {v | v ∈ g.ids} := by
  intro a ha b hb hEq
  dsimp only at hEq
  split at hEq
  · next haOld =>
    split at hEq
    · next hbOld => rw [haOld, hbOld]
    · next hbNew => exact absurd hEq.symm (h b hb hbNew)
  · next haNew =>
    split at hEq
    · exact absurd hEq (h a ha haNew)
    · exact hEq

theorem replaced_intact (hg : g.WellFormed) (hAdmits : g.Admits nodeId newNode)
    (hFields : newNode.FieldsOk) :
    (g.replaced nodeId newNode).Intact := by
  have hMap : ∀ v ∈ g.ids,
      (if v = nodeId then newNode.id else v) ∈ (g.replaced nodeId newNode).ids := by
    intro v hv
    rw [mem_ids_replaced, List.mem_cons, List.mem_filter, decide_eq_true_eq]
    split
    · exact .inl rfl
    · next hne => exact .inr ⟨hv, hne⟩
  refine ⟨acyclic_redirect hg hAdmits.injOn fun x y hxy => ?_, fun e he => ?_, fun e he => ?_,
    fun e he => ?_, fun v node hNode => ?_⟩
  · obtain ⟨e, he, hBlocking, rfl, rfl⟩ := precedes_iff.mp hxy
    obtain ⟨old, hOld, rfl⟩ := List.mem_map.mp he
    exact ⟨old, hOld, hBlocking, rfl, rfl⟩
  · obtain ⟨old, hOld, rfl⟩ := List.mem_map.mp he
    have hEnds := hg.endpoints old hOld
    exact ⟨hMap _ hEnds.1, hMap _ hEnds.2⟩
  · obtain ⟨old, hOld, rfl⟩ := List.mem_map.mp he
    have hEnds := hg.endpoints old hOld
    exact fun hEq => hg.noLoop old hOld (hAdmits.injOn hEnds.1 hEnds.2 hEq)
  · obtain ⟨old, hOld, rfl⟩ := List.mem_map.mp he
    exact hg.edgeConditions old hOld
  · rw [get?_replaced] at hNode
    split at hNode
    · cases hNode
      exact hFields
    · split at hNode
      · cases hNode
      · exact hg.fields v node hNode

theorem replaced_iff (hg : g.WellFormed) (hAdmits : g.Admits nodeId newNode) :
    (g.replaced nodeId newNode).WellFormed ↔ newNode.FieldsOk ∧
      newNode.LinksWithin (newNode.id :: g.ids.filter (· ≠ nodeId)) ∧
      (newNode.id ≠ nodeId → g.NotNamed nodeId) := by
  have hSelf : (g.replaced nodeId newNode).nodes.get? newNode.id = some newNode := by
    rw [get?_replaced, if_pos rfl]
  constructor
  · intro hWell
    have hNew := hWell.links newNode.id newNode hSelf
    refine ⟨hWell.fields newNode.id newNode hSelf,
      ⟨fun d hd => mem_ids_replaced.mp (hNew.dependencies d hd),
        fun c hc => mem_ids_replaced.mp (hNew.children c hc)⟩, fun hne v node hNode hv => ?_⟩
    -- a list entry that names the old id names nothing any more
    have hGone : nodeId ∉ newNode.id :: g.ids.filter (· ≠ nodeId) := by
      rw [List.mem_cons, List.mem_filter]
      rintro (hEq | ⟨-, hOld⟩)
      · exact hne hEq.symm
      · exact of_decide_eq_true hOld rfl
    have hOther : (g.replaced nodeId newNode).nodes.get? v = some node := by
      rw [get?_replaced, if_neg (hAdmits v (mem_ids_iff.mpr ⟨node, hNode⟩) hv), if_neg hv, hNode]
    have hLinks := hWell.links v node hOther
    exact ⟨fun hd => hGone (mem_ids_replaced.mp (hLinks.dependencies _ hd)),
      fun hc => hGone (mem_ids_replaced.mp (hLinks.children _ hc))⟩
  · rintro ⟨hFields, hLinks, hNot⟩
    refine (replaced_intact hg hAdmits hFields).wellFormed_iff.mpr fun v node hNode => ?_
    rw [get?_replaced] at hNode
    split at hNode
    · cases hNode
      exact ⟨fun d hd => mem_ids_replaced.mpr (hLinks.dependencies d hd),
        fun c hc => mem_ids_replaced.mpr (hLinks.children c hc)⟩
    · split at hNode
      · cases hNode
      · next hv =>
        have hOld := hg.links v node hNode
        have hKeep : ∀ w ∈ g.ids, (newNode.id ≠ nodeId → w ≠ nodeId) →
            w ∈ (g.replaced nodeId newNode).ids := by
          intro w hw hne
          rw [mem_ids_replaced, List.mem_cons, List.mem_filter, decide_eq_true_eq]
          by_cases hSame : newNode.id = nodeId
          · by_cases hwOld : w = nodeId
            · exact .inl (hwOld.trans hSame.symm)
            · exact .inr ⟨hw, hwOld⟩
          · exact .inr ⟨hw, hne hSame⟩
        refine ⟨fun d hd => hKeep d (hOld.dependencies d hd) fun hne hEq => ?_,
          fun c hc => hKeep c (hOld.children c hc) fun hne hEq => ?_⟩
        · exact (hNot hne v node hNode hv).1 (hEq ▸ hd)
        · exact (hNot hne v node hNode hv).2 (hEq ▸ hc)

theorem replaceNode_ok {g' : TaskGraph} (h : g.replaceNode nodeId newNode = .ok g') :
    g.Admits nodeId newNode ∧ g' = g.replaced nodeId newNode := by
  unfold replaceNode at h
  split at h
  · cases h
  · split at h
    · cases h
    · split at h
      · cases h
      · next hFree =>
        cases h
        refine ⟨fun v hv hne hEq => hFree ⟨?_, ?_⟩, rfl⟩
        · rw [← hEq]
          exact hne
        · rw [← hEq]
          exact hv

theorem replaceNode_iff (hg : g.WellFormed) {g' : TaskGraph}
    (h : g.replaceNode nodeId newNode = .ok g') :
    g'.WellFormed ↔ newNode.FieldsOk ∧
      newNode.LinksWithin (newNode.id :: g.ids.filter (· ≠ nodeId)) ∧
      (newNode.id ≠ nodeId → g.NotNamed nodeId) := by
  obtain ⟨hAdmits, rfl⟩ := replaceNode_ok h
  exact replaced_iff hg hAdmits

-- ------ Copies

end TaskGraph

theorem TaskNode.clone_eq {node : TaskNode} (h : node.FieldsOk) (newId newIdValue : NodeId) :
    node.clone newId newIdValue = .ok (node.renamed newId newIdValue) := by
  unfold clone
  have hTimeout : ¬ node.timeout.any (· ≤ 0) = true := by
    cases hT : node.timeout with
    | none => simp
    | some t => simpa using h.timeout t hT
  rw [if_neg hTimeout, h.retry]

theorem TaskNode.FieldsOk.renamed {node : TaskNode} (h : node.FieldsOk) {newId newIdValue : NodeId}
    (hNew : newId ≠ "") : (node.renamed newId newIdValue).FieldsOk where
  hasId := by
    unfold TaskNode.renamed
    dsimp only
    split
    · exact hNew
    · assumption
  timeout := h.timeout
  memory := h.memory
  cost := h.cost
  latency := h.latency
  retry := h.retry
  condition := h.condition

namespace TaskGraph

variable {g : TaskGraph}

-- ------ Splitting and extracting

variable {keep : List NodeId}

/-- Each part of `split` holds copies of its nodes. -/
theorem splitNodes_ok {newId : NodeId → NodeId} {l : List (NodeId × TaskNode)}
    (hNodup : (l.map Prod.fst).Nodup) (hFields : ∀ e ∈ l, e.2.FieldsOk)
    (left right : Dict NodeId TaskNode) :
    ∃ left' right', splitNodes keep newId l left right = .ok (left', right') ∧
      ∀ v, left'.get? v = (if v ∈ keep then
            ((l.lookup v).map fun node => node.renamed (newId v) v).or (left.get? v)
          else left.get? v) ∧
        right'.get? v = if v ∈ keep then right.get? v
          else ((l.lookup v).map fun node => node.renamed (newId v) v).or (right.get? v) := by
  induction l generalizing left right with
  | nil =>
    refine ⟨left, right, rfl, fun v => ⟨?_, ?_⟩⟩
    · split <;> rfl
    · split <;> rfl
  | cons e l ih =>
    obtain ⟨nid, node⟩ := e
    obtain ⟨hOut, hRest⟩ := List.nodup_cons.mp hNodup
    have hClone := TaskNode.clone_eq (hFields _ (List.mem_cons_self ..)) (newId nid) nid
    have ih := ih hRest fun e he => hFields e (List.mem_cons_of_mem _ he)
    have hNone : l.lookup nid = none := by
      rw [List.lookup_eq_none_iff]
      intro e he
      by_contra hEq
      exact hOut (List.mem_map.mpr ⟨e, he, (beq_iff_eq.mp (by simpa using hEq)).symm⟩)
    unfold splitNodes
    rw [hClone]
    dsimp only
    -- only the entry of `nid` changes, in one of the parts
    split
    · next hKeep =>
      obtain ⟨left', right', hEq, hGet⟩ := ih (left.set nid (node.renamed (newId nid) nid)) right
      refine ⟨left', right', hEq, fun v => ?_⟩
      rw [(hGet v).1, (hGet v).2, Dict.lookup_cons_ite, Dict.get?_set]
      by_cases hv : v = nid
      · subst hv
        simp [hKeep, hNone]
      · have hne : ¬ (nid, node).1 = v := fun hEq => hv hEq.symm
        rw [if_neg hv, if_neg hne]
        exact ⟨rfl, rfl⟩
    · next hDrop =>
      obtain ⟨left', right', hEq, hGet⟩ := ih left (right.set nid (node.renamed (newId nid) nid))
      refine ⟨left', right', hEq, fun v => ?_⟩
      rw [(hGet v).1, (hGet v).2, Dict.lookup_cons_ite, Dict.get?_set]
      by_cases hv : v = nid
      · subst hv
        simp [hDrop, hNone]
      · have hne : ¬ (nid, node).1 = v := fun hEq => hv hEq.symm
        rw [if_neg hv, if_neg hne]
        exact ⟨rfl, rfl⟩

theorem extractNodes_ok (hFields : ∀ nid node, g.nodes.get? nid = some node → node.FieldsOk)
    {newId : NodeId → NodeId} {nodes nodes' : Dict NodeId TaskNode}
    (h : extractNodes g newId keep nodes = .ok nodes') :
    (∀ v ∈ keep, v ∈ g.ids) ∧ ∀ v, nodes'.get? v =
      if v ∈ keep then (g.nodes.get? v).map fun node => node.renamed (newId v) v
      else nodes.get? v := by
  induction keep generalizing nodes with
  | nil =>
    cases h
    exact ⟨nofun, fun v => rfl⟩
  | cons nid keep ih =>
    unfold extractNodes at h
    split at h
    · cases h
    · next node hNode =>
      rw [TaskNode.clone_eq (hFields nid node hNode)] at h
      obtain ⟨hKnown, hGet⟩ := ih h
      refine ⟨List.forall_mem_cons.mpr ⟨mem_ids_iff.mpr ⟨node, hNode⟩, hKnown⟩, fun v => ?_⟩
      rw [hGet, Dict.get?_set]
      by_cases hv : v = nid
      · subst hv
        simp [hNode]
      · simp [hv]

/-- The lists of the nodes of a part name nodes of the part. -/
def SelfContained (g : TaskGraph) (p : NodeId → Prop) [DecidablePred p] : Prop :=
  ∀ nid node, p nid → g.nodes.get? nid = some node → node.LinksWithin (g.ids.filter p)

/-- A graph made of copies of the nodes in `p`, with edges between them. -/
structure PartOf (g part : TaskGraph) (p : NodeId → Prop) [DecidablePred p]
    (newId : NodeId → NodeId) : Prop where
  node : ∀ v, part.nodes.get? v =
    if p v then (g.nodes.get? v).map fun node => node.renamed (newId v) v else none
  edges : ∀ e ∈ part.edges, e ∈ g.edges ∧ p e.src ∧ p e.dst

namespace PartOf

variable {part : TaskGraph} {p : NodeId → Prop} [DecidablePred p] {newId : NodeId → NodeId}

theorem mem_ids (h : PartOf g part p newId) {v : NodeId} : v ∈ part.ids ↔ v ∈ g.ids.filter p := by
  rw [mem_ids_iff, h.node, List.mem_filter, mem_ids_iff, decide_eq_true_eq]
  by_cases hv : p v
  · simp [hv]
  · simp [hv]

theorem intact (h : PartOf g part p newId) (hNew : ∀ nid, newId nid ≠ "") (hg : g.WellFormed) :
    part.Intact := by
  refine (wellFormed_iff_intact.mp hg).1.restrict (fun e he => ?_) fun v node hNode => ?_
  · obtain ⟨hMem, hSrc, hDst⟩ := h.edges e he
    have hEnds := hg.endpoints e hMem
    rw [h.mem_ids, h.mem_ids, List.mem_filter, List.mem_filter]
    exact ⟨hMem, ⟨hEnds.1, decide_eq_true hSrc⟩, ⟨hEnds.2, decide_eq_true hDst⟩⟩
  · rw [h.node] at hNode
    split at hNode
    · obtain ⟨old, hOld, rfl⟩ := Option.map_eq_some_iff.mp hNode
      exact (hg.fields v old hOld).renamed (hNew v)
    · cases hNode

theorem wellFormed_iff (h : PartOf g part p newId) (hNew : ∀ nid, newId nid ≠ "")
    (hg : g.WellFormed) : part.WellFormed ↔ g.SelfContained p := by
  rw [(h.intact hNew hg).wellFormed_iff]
  constructor
  · intro hLinks v node hv hNode
    have hOwn := hLinks v (node.renamed (newId v) v) (by
      rw [h.node, if_pos hv, hNode, Option.map_some])
    exact ⟨fun d hd => h.mem_ids.mp (hOwn.dependencies d hd),
      fun c hc => h.mem_ids.mp (hOwn.children c hc)⟩
  · intro hSelf v node hNode
    rw [h.node] at hNode
    split at hNode
    · next hv =>
      obtain ⟨old, hOld, rfl⟩ := Option.map_eq_some_iff.mp hNode
      have hOwn := hSelf v old hv hOld
      exact ⟨fun d hd => h.mem_ids.mpr (hOwn.dependencies d hd),
        fun c hc => h.mem_ids.mpr (hOwn.children c hc)⟩
    · cases hNode

end PartOf

theorem split_partOf (hg : g.WellFormed) {leftId rightId : String} {newId : NodeId → NodeId}
    {parts : TaskGraph × TaskGraph} (h : g.split keep leftId rightId newId = .ok parts) :
    PartOf g parts.1 (· ∈ keep) newId ∧ PartOf g parts.2 (· ∉ keep) newId := by
  have hFields : ∀ e ∈ g.nodes.entries, e.2.FieldsOk := fun e he =>
    hg.fields e.1 e.2 (Dict.mem_entries_iff.mp he)
  have hSplit := @splitNodes_ok keep newId g.nodes.entries g.nodes.nodup hFields
  obtain ⟨left, right, hNodes, hGet⟩ := hSplit .empty .empty
  unfold split at h
  rw [hNodes] at h
  cases h
  refine ⟨⟨fun v => ?_, fun e he => ?_⟩, ⟨fun v => ?_, fun e he => ?_⟩⟩
  · rw [(hGet v).1, Dict.get?_empty, Option.or_none]
    rfl
  · obtain ⟨hMem, hKeep⟩ := List.mem_filter.mp he
    exact ⟨hMem, of_decide_eq_true hKeep⟩
  · rw [(hGet v).2, Dict.get?_empty, Option.or_none, ite_not]
    rfl
  · obtain ⟨hMem, hKeep⟩ := List.mem_filter.mp he
    exact ⟨hMem, of_decide_eq_true hKeep⟩

theorem extractSubgraph_partOf (hg : g.WellFormed) {graphId : String} {newId : NodeId → NodeId}
    {part : TaskGraph} (h : g.extractSubgraph keep graphId newId = .ok part) :
    PartOf g part (· ∈ keep) newId := by
  unfold extractSubgraph at h
  split at h
  · cases h
  · next nodes hNodes =>
    cases h
    refine ⟨(extractNodes_ok hg.fields hNodes).2, fun e he => ?_⟩
    obtain ⟨hMem, hKeep⟩ := List.mem_filter.mp he
    exact ⟨hMem, of_decide_eq_true hKeep⟩

-- ------ Merging

/-- The id under which `merge` stores a node of the other graph. -/
def mergedId (g : TaskGraph) (namePrefix : String) (newId : NodeId → NodeId) (nid : NodeId) :
    NodeId :=
  if namePrefix ++ nid ∈ g.ids then newId nid else namePrefix ++ nid

/-- The ids that `new_id` returns are new. -/
structure FreshIds (g other : TaskGraph) (namePrefix : String) (newId : NodeId → NodeId) :
    Prop where
  nonempty : ∀ nid, newId nid ≠ ""
  outside : ∀ nid, newId nid ∉ g.ids
  unused : ∀ nid, ∀ nid' ∈ other.ids, newId nid ≠ namePrefix ++ nid'
  injective : Function.Injective newId

namespace FreshIds

variable {other : TaskGraph} {namePrefix : String} {newId : NodeId → NodeId}

theorem mergedId_notMem (h : FreshIds g other namePrefix newId) (nid : NodeId) :
    g.mergedId namePrefix newId nid ∉ g.ids := by
  unfold mergedId
  split
  · exact h.outside nid
  · assumption

theorem mergedId_ne (h : FreshIds g other namePrefix newId) {a b : NodeId} (hb : b ∈ other.ids)
    (hne : a ≠ b) : g.mergedId namePrefix newId a ≠ namePrefix ++ b := by
  unfold mergedId
  split
  · exact h.unused a b hb
  · exact fun hEq => hne ((String.append_right_inj namePrefix).mp hEq)

theorem mergedId_injOn (h : FreshIds g other namePrefix newId) :
    Set.InjOn (g.mergedId namePrefix newId) {v | v ∈ other.ids} := by
  intro a ha b hb hEq
  by_contra hne
  by_cases hMem : namePrefix ++ b ∈ g.ids
  · by_cases hMem' : namePrefix ++ a ∈ g.ids
    · unfold mergedId at hEq
      rw [if_pos hMem, if_pos hMem'] at hEq
      exact hne (h.injective hEq)
    · refine h.mergedId_ne ha (Ne.symm hne) (hEq.symm.trans ?_)
      unfold mergedId
      rw [if_neg hMem']
  · refine h.mergedId_ne hb hne (hEq.trans ?_)
    unfold mergedId
    rw [if_neg hMem]

end FreshIds

theorem mergeNodes_ok {other : TaskGraph} {namePrefix : String} {newId : NodeId → NodeId}
    (hFresh : FreshIds g other namePrefix newId) {l : List (NodeId × TaskNode)}
    (hNodup : (l.map Prod.fst).Nodup) (hKnown : ∀ e ∈ l, e.1 ∈ other.ids)
    (hFields : ∀ e ∈ l, e.2.FieldsOk) (nodes : Dict NodeId TaskNode) (idMap : Dict NodeId NodeId)
    (hBase : ∀ e ∈ l, namePrefix ++ e.1 ∈ nodes.keys ↔ namePrefix ++ e.1 ∈ g.ids) :
    ∃ nodes' idMap', mergeNodes namePrefix newId l nodes idMap = .ok (nodes', idMap') ∧
      (∀ e ∈ l, idMap'.get? e.1 = some (g.mergedId namePrefix newId e.1) ∧
        nodes'.get? (g.mergedId namePrefix newId e.1) =
          some (e.2.renamed (newId e.1) (g.mergedId namePrefix newId e.1))) ∧
      (∀ v, v ∉ l.map Prod.fst → idMap'.get? v = idMap.get? v) ∧
      ∀ v, (∀ e ∈ l, g.mergedId namePrefix newId e.1 ≠ v) → nodes'.get? v = nodes.get? v := by
  induction l generalizing nodes idMap with
  | nil =>
    exact ⟨nodes, idMap, rfl, fun e he => absurd he List.not_mem_nil, fun _ _ => rfl, fun _ _ => rfl⟩
  | cons e l ih =>
    obtain ⟨nid, node⟩ := e
    obtain ⟨hOut, hRest⟩ := List.nodup_cons.mp hNodup
    have hOther : ∀ e ∈ l, e.1 ≠ nid := fun e he hEq =>
      hOut (List.mem_map.mpr ⟨e, he, hEq⟩)
    have hMapped : (if namePrefix ++ nid ∈ nodes.keys then newId nid else namePrefix ++ nid) =
        g.mergedId namePrefix newId nid := by
      unfold mergedId
      have hIff := hBase (nid, node) (List.mem_cons_self ..)
      by_cases hMem : namePrefix ++ nid ∈ g.ids
      · rw [if_pos hMem, if_pos (hIff.mpr hMem)]
      · rw [if_neg hMem, if_neg fun hKey => hMem (hIff.mp hKey)]
    unfold mergeNodes
    dsimp only
    rw [hMapped, TaskNode.clone_eq (hFields _ (List.mem_cons_self ..))]
    dsimp only
    generalize hCopy : node.renamed (newId nid) (g.mergedId namePrefix newId nid) = copy
    -- the copy takes no name that a later node would like to keep
    have hLater : ∀ e ∈ l, namePrefix ++ e.1 ∈ (nodes.set (g.mergedId namePrefix newId nid) copy).keys ↔
        namePrefix ++ e.1 ∈ g.ids := by
      intro e he
      have hne := hFresh.mergedId_ne (a := nid) (hKnown e (List.mem_cons_of_mem _ he))
        (hOther e he).symm
      rw [← hBase e (List.mem_cons_of_mem _ he), Dict.mem_keys_iff, Dict.mem_keys_iff,
        Dict.get?_set_ne _ _ (Ne.symm hne)]
    obtain ⟨nodes', idMap', hEq, hNew, hIdMap, hNodes⟩ :=
      ih hRest (fun e he => hKnown e (List.mem_cons_of_mem _ he))
        (fun e he => hFields e (List.mem_cons_of_mem _ he)) _
        (idMap.set nid (g.mergedId namePrefix newId nid)) hLater
    have hApart : ∀ e ∈ l, g.mergedId namePrefix newId e.1 ≠ g.mergedId namePrefix newId nid :=
      fun e he hSame => hOther e he (hFresh.mergedId_injOn (hKnown e (List.mem_cons_of_mem _ he))
        (hKnown (nid, node) (List.mem_cons_self ..)) hSame)
    refine ⟨nodes', idMap', hEq, fun e he => ?_, fun v hv => ?_, fun v hv => ?_⟩
    · rcases List.mem_cons.mp he with rfl | he
      · rw [hIdMap nid hOut, hNodes _ hApart, Dict.get?_set_self, Dict.get?_set_self, hCopy]
        exact ⟨rfl, rfl⟩
      · exact hNew e he
    · rw [List.map_cons, List.mem_cons, not_or] at hv
      rw [hIdMap v hv.2, Dict.get?_set_ne _ _ hv.1]
    · have hHead := hv (nid, node) (List.mem_cons_self ..)
      rw [hNodes v fun e he => hv e (List.mem_cons_of_mem _ he),
        Dict.get?_set_ne _ _ (Ne.symm hHead)]

theorem mergeEdges_ok {idMap : Dict NodeId NodeId} {f : NodeId → NodeId} {es : List TaskEdge}
    (h : ∀ e ∈ es, idMap.get? e.src = some (f e.src) ∧ idMap.get? e.dst = some (f e.dst)) :
    mergeEdges idMap es = .ok (es.map (TaskEdge.redirect f)) := by
  induction es with
  | nil => rfl
  | cons e es ih =>
    obtain ⟨hSrc, hDst⟩ := h e (List.mem_cons_self ..)
    unfold mergeEdges
    rw [hSrc, hDst]
    dsimp only
    rw [ih fun e he => h e (List.mem_cons_of_mem _ he)]
    rfl

/-- `merge` puts the other graph, renamed, beside the first one. -/
structure Merged (g other g' : TaskGraph) (f newId : NodeId → NodeId) : Prop where
  injOn : Set.InjOn f {v | v ∈ other.ids}
  apart : ∀ nid, f nid ∉ g.ids
  node : ∀ v node, g'.nodes.get? v = some node ↔ g.nodes.get? v = some node ∨
    ∃ nid old, other.nodes.get? nid = some old ∧ f nid = v ∧ node = old.renamed (newId nid) v
  edges : g'.edges = g.edges ++ other.edges.map (TaskEdge.redirect f)

theorem merge_merged {other : TaskGraph} (hOther : other.WellFormed) {namePrefix : String}
    {newId : NodeId → NodeId} (hFresh : FreshIds g other namePrefix newId) {g' : TaskGraph}
    (h : g.merge other namePrefix newId = .ok g') :
    Merged g other g' (g.mergedId namePrefix newId) newId := by
  obtain ⟨nodes, idMap, hNodes, hNew, -, hOld⟩ :=
    mergeNodes_ok hFresh other.nodes.nodup
      (fun e he => mem_ids_iff.mpr ⟨e.2, Dict.mem_entries_iff.mp he⟩)
      (fun e he => hOther.fields e.1 e.2 (Dict.mem_entries_iff.mp he)) g.nodes .empty
      (fun _ _ => Iff.rfl)
  have hEdges : mergeEdges idMap other.edges =
      .ok (other.edges.map (TaskEdge.redirect (g.mergedId namePrefix newId))) := by
    refine mergeEdges_ok fun e he => ?_
    obtain ⟨hSrc, hDst⟩ := hOther.endpoints e he
    obtain ⟨src, hSrc⟩ := mem_ids_iff.mp hSrc
    obtain ⟨dst, hDst⟩ := mem_ids_iff.mp hDst
    exact ⟨(hNew _ (Dict.mem_entries_iff.mpr hSrc)).1, (hNew _ (Dict.mem_entries_iff.mpr hDst)).1⟩
  unfold merge at h
  split at h
  · cases h
  · rw [hNodes] at h
    dsimp only at h
    rw [hEdges] at h
    cases h
    refine ⟨hFresh.mergedId_injOn, hFresh.mergedId_notMem, fun v node => ?_, rfl⟩
    dsimp only
    constructor
    · intro hGet
      -- a node of the result is a copy, or was there before
      by_cases hCopy : ∃ e ∈ other.nodes.entries, g.mergedId namePrefix newId e.1 = v
      · obtain ⟨⟨nid, old⟩, he, rfl⟩ := hCopy
        rw [(hNew _ he).2] at hGet
        cases hGet
        exact .inr ⟨nid, old, Dict.mem_entries_iff.mp he, rfl, rfl⟩
      · push Not at hCopy
        rw [hOld v hCopy] at hGet
        exact .inl hGet
    · rintro (hGet | ⟨nid, old, hOldNode, rfl, rfl⟩)
      · rw [hOld v fun e _ hEq => ?_, hGet]
        refine hFresh.mergedId_notMem e.1 ?_
        rw [hEq]
        exact mem_ids_iff.mpr ⟨node, hGet⟩
      · exact (hNew (nid, old) (Dict.mem_entries_iff.mpr hOldNode)).2

namespace Merged

variable {other g' : TaskGraph} {f newId : NodeId → NodeId}

theorem mem_ids (h : Merged g other g' f newId) {v : NodeId} :
    v ∈ g'.ids ↔ v ∈ g.ids ++ other.ids.map f := by
  rw [mem_ids_iff, List.mem_append, List.mem_map]
  constructor
  · rintro ⟨node, hGet⟩
    rcases (h.node v node).mp hGet with hMem | ⟨nid, old, hOld, rfl, -⟩
    · exact .inl (mem_ids_iff.mpr ⟨node, hMem⟩)
    · exact .inr ⟨nid, mem_ids_iff.mpr ⟨old, hOld⟩, rfl⟩
  · rintro (hMem | ⟨nid, hMem, rfl⟩)
    · obtain ⟨node, hGet⟩ := mem_ids_iff.mp hMem
      exact ⟨node, (h.node v node).mpr (.inl hGet)⟩
    · obtain ⟨old, hOld⟩ := mem_ids_iff.mp hMem
      exact ⟨_, (h.node _ _).mpr (.inr ⟨nid, old, hOld, rfl, rfl⟩)⟩

theorem acyclic (h : Merged g other g' f newId) (hg : g.WellFormed) (hOther : other.WellFormed) :
    EdgeList.Acyclic g'.Precedes := by
  have hCopied : EdgeList.Acyclic fun x y => ∃ e ∈ other.edges, e.isBlocking ∧ f e.src = x ∧
      f e.dst = y := acyclic_redirect hOther h.injOn fun x y hxy => hxy
  refine hg.acyclic.glue hCopied {v | v ∈ g.ids} fun x y hxy => ?_
  obtain ⟨e, he, hBlocking, rfl, rfl⟩ := precedes_iff.mp hxy
  rw [h.edges] at he
  rcases List.mem_append.mp he with hMem | hMem
  · have hEnds := hg.endpoints e hMem
    exact .inl ⟨hEnds.1, hEnds.2, precedes_iff.mpr ⟨e, hMem, hBlocking, rfl, rfl⟩⟩
  · obtain ⟨old, hOld, rfl⟩ := List.mem_map.mp hMem
    exact .inr ⟨h.apart _, h.apart _, old, hOld, hBlocking, rfl, rfl⟩

theorem intact (h : Merged g other g' f newId) (hNew : ∀ nid, newId nid ≠ "") (hg : g.WellFormed)
    (hOther : other.WellFormed) : g'.Intact := by
  have hEdge : ∀ e ∈ g'.edges, e ∈ g.edges ∨ ∃ old ∈ other.edges, e = old.redirect f := by
    intro e he
    rw [h.edges] at he
    refine (List.mem_append.mp he).imp id fun hMem => ?_
    obtain ⟨old, hOld, rfl⟩ := List.mem_map.mp hMem
    exact ⟨old, hOld, rfl⟩
  refine ⟨h.acyclic hg hOther, fun e he => ?_, fun e he => ?_, fun e he => ?_, fun v node hGet => ?_⟩
  · rw [h.mem_ids, h.mem_ids, List.mem_append, List.mem_append]
    rcases hEdge e he with hMem | ⟨old, hOld, rfl⟩
    · exact ⟨.inl (hg.endpoints e hMem).1, .inl (hg.endpoints e hMem).2⟩
    · have hEnds := hOther.endpoints old hOld
      exact ⟨.inr (List.mem_map_of_mem hEnds.1), .inr (List.mem_map_of_mem hEnds.2)⟩
  · rcases hEdge e he with hMem | ⟨old, hOld, rfl⟩
    · exact hg.noLoop e hMem
    · have hEnds := hOther.endpoints old hOld
      exact fun hEq => hOther.noLoop old hOld (h.injOn hEnds.1 hEnds.2 hEq)
  · rcases hEdge e he with hMem | ⟨old, hOld, rfl⟩
    · exact hg.edgeConditions e hMem
    · exact hOther.edgeConditions old hOld
  · rcases (h.node v node).mp hGet with hMem | ⟨nid, old, hOld, rfl, rfl⟩
    · exact hg.fields v node hMem
    · exact (hOther.fields nid old hOld).renamed (hNew nid)

theorem wellFormed_iff (h : Merged g other g' f newId) (hNew : ∀ nid, newId nid ≠ "")
    (hg : g.WellFormed) (hOther : other.WellFormed) :
    g'.WellFormed ↔ ∀ nid node, other.nodes.get? nid = some node →
      node.LinksWithin (g.ids ++ other.ids.map f) := by
  rw [(h.intact hNew hg hOther).wellFormed_iff]
  constructor
  · intro hLinks nid node hOld
    have hOwn := hLinks _ _ ((h.node (f nid) _).mpr (.inr ⟨nid, node, hOld, rfl, rfl⟩))
    exact ⟨fun d hd => h.mem_ids.mp (hOwn.dependencies d hd),
      fun c hc => h.mem_ids.mp (hOwn.children c hc)⟩
  · intro hLinks v node hGet
    rcases (h.node v node).mp hGet with hMem | ⟨nid, old, hOld, rfl, rfl⟩
    · have hOwn := hg.links v node hMem
      exact ⟨fun d hd => h.mem_ids.mpr (List.mem_append_left _ (hOwn.dependencies d hd)),
        fun c hc => h.mem_ids.mpr (List.mem_append_left _ (hOwn.children c hc))⟩
    · have hOwn := hLinks nid old hOld
      exact ⟨fun d hd => h.mem_ids.mpr (hOwn.dependencies d hd),
        fun c hc => h.mem_ids.mpr (hOwn.children c hc)⟩

end Merged

end TaskGraph

end Neuroswarm.Swarm

/-!
## Edits and validity

Every edit of a valid graph leaves the edges and the fields in order, so that
`freeze` copies the lists from the edges. Without it the lists of the nodes
decide.

* `edit_valid_iff` — the results of an edit are valid exactly when the lists of the
  nodes it keeps name nodes it keeps.
-/

namespace Neuroswarm.Swarm

namespace Edit

/-- The other graph of a merge is valid, and the ids that `new_id` returns are new. -/
def Proper (nx : Option Networkx) (g : TaskGraph) : Edit → Prop
  | .remove _ | .replace .. => True
  | .merge other namePrefix newId =>
    other.Valid nx ∧ TaskGraph.FreshIds g other namePrefix newId
  | .split _ _ _ newId | .extract _ _ newId => ∀ nid, newId nid ≠ ""

def Keeps (g : TaskGraph) : Edit → Prop
  | .remove nodeId => g.NotNamed nodeId
  | .replace nodeId newNode => newNode.FieldsOk ∧
      newNode.LinksWithin (newNode.id :: g.ids.filter (· ≠ nodeId)) ∧
      (newNode.id ≠ nodeId → g.NotNamed nodeId)
  | .merge other namePrefix newId => ∀ nid node, other.nodes.get? nid = some node →
      node.LinksWithin (g.ids ++ other.ids.map (g.mergedId namePrefix newId))
  | .split keep _ _ _ => g.SelfContained (· ∈ keep) ∧ g.SelfContained (· ∉ keep)
  | .extract keep _ _ => g.SelfContained (· ∈ keep)

theorem map_eq_ok {α β : Type} {x : Except EditError α} {f : α → β} {b : β}
    (h : x.map f = .ok b) : ∃ a, x = .ok a ∧ f a = b := by
  cases x with
  | error e => cases h
  | ok a =>
    cases h
    exact ⟨a, rfl, rfl⟩

theorem of_map_ok {x : Except EditError TaskGraph} {results : List TaskGraph}
    (h : x.map ([·]) = .ok results) : ∃ g', x = .ok g' ∧ results = [g'] := by
  obtain ⟨g', hEq, hResults⟩ := map_eq_ok h
  exact ⟨g', hEq, hResults.symm⟩

theorem results_iff {nx : Option Networkx} {g : TaskGraph} (hg : g.WellFormed) {edit : Edit}
    (hProper : edit.Proper nx g) {results : List TaskGraph}
    (hResults : edit.results g = .ok results) :
    (∀ g' ∈ results, g'.WellFormed) ↔ edit.Keeps g := by
  cases edit with
  | remove nodeId =>
    obtain ⟨g', hEq, rfl⟩ := of_map_ok hResults
    rw [List.forall_mem_singleton]
    exact TaskGraph.removeNode_iff hg hEq
  | replace nodeId newNode =>
    obtain ⟨g', hEq, rfl⟩ := of_map_ok hResults
    rw [List.forall_mem_singleton]
    exact TaskGraph.replaceNode_iff hg hEq
  | merge other namePrefix newId =>
    obtain ⟨g', hEq, rfl⟩ := of_map_ok hResults
    obtain ⟨hOther, hFresh⟩ := hProper
    have hOther := TaskGraph.valid_iff.mp hOther
    rw [List.forall_mem_singleton]
    exact (TaskGraph.merge_merged hOther hFresh hEq).wellFormed_iff hFresh.nonempty hg hOther
  | split keep leftId rightId newId =>
    obtain ⟨parts, hEq, hParts⟩ := map_eq_ok hResults
    obtain ⟨hLeft, hRight⟩ := TaskGraph.split_partOf hg hEq
    rw [← hParts, List.forall_mem_cons, List.forall_mem_singleton,
      hLeft.wellFormed_iff hProper hg, hRight.wellFormed_iff hProper hg]
    exact Iff.rfl
  | extract keep graphId newId =>
    obtain ⟨g', hEq, rfl⟩ := of_map_ok hResults
    rw [List.forall_mem_singleton]
    exact (TaskGraph.extractSubgraph_partOf hg hEq).wellFormed_iff hProper hg

def Step (nx : Option Networkx) (g g' : TaskGraph) : Prop :=
  ∃ (edit : Edit) (results : List TaskGraph), edit.Proper nx g ∧ edit.Keeps g ∧
    edit.results g = .ok results ∧ g' ∈ results

/-- **Edits.** The results of an edit of a valid graph are valid exactly when the lists of the
nodes that are kept name nodes that are kept. -/
theorem edit_valid_iff (nx : Option Networkx) (g : TaskGraph) (hValid : g.Valid nx) (edit : Edit)
    (hProper : edit.Proper nx g) (results : List TaskGraph)
    (hResults : edit.results g = .ok results) :
    (∀ g' ∈ results, g'.Valid nx) ↔ edit.Keeps g := by
  simp only [TaskGraph.valid_iff]
  exact results_iff (TaskGraph.valid_iff.mp hValid) hProper hResults

/-- `a → b`, as the builder leaves it: the lists are empty. -/
def pipeline : TaskGraph where
  graphId := "g"
  nodes := (Dict.empty.set "a" { id := "a" }).set "b" { id := "b" }
  edges := [{ src := "a", dst := "b" }]

theorem edit_valid_iff_pipeline : (pipeline.removed "a").Valid none := by
  refine (edit_valid_iff none pipeline (by decide +kernel) (.remove "a") trivial _ rfl).mpr ?_ _
    (List.mem_singleton_self _)
  intro nid node hNode _
  rcases List.mem_cons.mp (Dict.mem_entries_iff.mpr hNode) with hEq | hMem
  · cases hEq
    exact ⟨List.not_mem_nil, List.not_mem_nil⟩
  · cases List.mem_singleton.mp hMem
    exact ⟨List.not_mem_nil, List.not_mem_nil⟩

/-- Once frozen, `b` names `a` in its list, and goes on to do so when `a` is removed. -/
theorem not_edit_valid :
    ¬ ∀ (g : TaskGraph), g.Valid none → ∀ (edit : Edit), edit.Proper none g →
      ∀ results, edit.results g = .ok results → ∀ g' ∈ results, g'.Valid none := by
  intro h
  have hLeft := h pipeline.freeze.unfreeze (by decide +kernel) (.remove "a") trivial _ rfl
    (pipeline.freeze.unfreeze.removed "a") (List.mem_singleton_self _)
  exact absurd hLeft (by decide +kernel)

end Edit

end Neuroswarm.Swarm
