import Neuroswarm.Swarm.Validator

/-!
# Task graph — edits

The editing operations of `graph.py`, and `freeze`. The links of a node are stored
twice: as edges of the graph, and in its lists `dependencies` and `children`, which
`freeze` copies from the edges. An edit drops or renames edges, and takes the lists
of the nodes it keeps as they are.

* `Intact` — what the edges and the fields owe to the validator; `freeze` makes the
  lists agree with an intact graph.
-/

namespace Neuroswarm.Swarm

inductive EditError where
  | frozen
  | nodeNotFound (nodeId : NodeId)
  | collides (nodeId : NodeId)
  | invalid (text : String)
  | keyError (nodeId : NodeId)
  deriving DecidableEq, Repr

def EditError.message : EditError → String
  | .frozen => "graph is frozen; clone() or unfreeze() before mutating"
  | .nodeNotFound nodeId => s!"node not found: {nodeId}"
  | .collides nodeId => s!"replacement id collides: {nodeId}"
  | .invalid text => text
  | .keyError nodeId => nodeId

/-- The node under another id; `newId` is what `new_id` returns when the id is empty. -/
def TaskNode.renamed (node : TaskNode) (newId newIdValue : NodeId) : TaskNode :=
  { node with id := if newIdValue = "" then newId else newIdValue }

/-- `clone(new_id_value=...)`; `model_validate` runs the field validators again. -/
def TaskNode.clone (node : TaskNode) (newId newIdValue : NodeId) : Except EditError TaskNode :=
  if node.timeout.any (· ≤ 0) then .error (.invalid "timeout must be > 0 when set")
  else
    match node.retryPolicy.modelValidate with
    | .error e => .error (.invalid e)
    | .ok _ => .ok (node.renamed newId newIdValue)

/-- `edge.model_copy(update={"src": ..., "dst": ...})`. -/
def TaskEdge.redirect (f : NodeId → NodeId) (e : TaskEdge) : TaskEdge :=
  { e with src := f e.src, dst := f e.dst }

namespace TaskGraph

-- ------ Freezing

def syncDepLinks (g : TaskGraph) : TaskGraph :=
  { g with nodes := g.nodes.mapValues fun nid node =>
      { node with
        dependencies := ((g.edges.filter fun e => e.dst = nid).map TaskEdge.src).eraseDups
        children := ((g.edges.filter fun e => e.src = nid).map TaskEdge.dst).eraseDups } }

def freeze (g : TaskGraph) : TaskGraph := { g.syncDepLinks with frozen := true }

def unfreeze (g : TaskGraph) : TaskGraph := { g with frozen := false }

-- ------ The operations

def removed (g : TaskGraph) (nodeId : NodeId) : TaskGraph :=
  { g with
    nodes := g.nodes.erase nodeId
    edges := g.edges.filter fun e => e.src ≠ nodeId ∧ e.dst ≠ nodeId }

def removeNode (g : TaskGraph) (nodeId : NodeId) : Except EditError TaskGraph :=
  if g.frozen then .error .frozen
  else if nodeId ∉ g.ids then .error (.nodeNotFound nodeId)
  else .ok (g.removed nodeId)

/-- The new node takes the place of the old one, also in the edges. -/
def replaced (g : TaskGraph) (nodeId : NodeId) (newNode : TaskNode) : TaskGraph :=
  { g with
    nodes := (g.nodes.erase nodeId).set newNode.id newNode
    edges := g.edges.map (TaskEdge.redirect fun v => if v = nodeId then newNode.id else v) }

def replaceNode (g : TaskGraph) (nodeId : NodeId) (newNode : TaskNode) :
    Except EditError TaskGraph :=
  if g.frozen then .error .frozen
  else if nodeId ∉ g.ids then .error (.nodeNotFound nodeId)
  else if newNode.id ≠ nodeId ∧ newNode.id ∈ g.ids then .error (.collides newNode.id)
  else .ok (g.replaced nodeId newNode)

/-- The loop over the nodes of the other graph. A node keeps its id, with the prefix, unless
the graph has it; `newId` is what `new_id` returns while the node is merged. -/
def mergeNodes (namePrefix : String) (newId : NodeId → NodeId) :
    List (NodeId × TaskNode) → Dict NodeId TaskNode → Dict NodeId NodeId →
      Except EditError (Dict NodeId TaskNode × Dict NodeId NodeId)
  | [], nodes, idMap => .ok (nodes, idMap)
  | (nid, node) :: rest, nodes, idMap =>
    let candidate := namePrefix ++ nid
    let mapped := if candidate ∈ nodes.keys then newId nid else candidate
    match node.clone (newId nid) mapped with
    | .error e => .error e
    | .ok copy => mergeNodes namePrefix newId rest (nodes.set mapped copy) (idMap.set nid mapped)

/-- The loop over the edges of the other graph. -/
def mergeEdges (idMap : Dict NodeId NodeId) : List TaskEdge → Except EditError (List TaskEdge)
  | [] => .ok []
  | e :: es =>
    match idMap.get? e.src, idMap.get? e.dst with
    | some src, some dst => (mergeEdges idMap es).map ({ e with src := src, dst := dst } :: ·)
    | none, _ => .error (.keyError e.src)
    | some _, none => .error (.keyError e.dst)

def merge (g other : TaskGraph) (namePrefix : String) (newId : NodeId → NodeId) :
    Except EditError TaskGraph :=
  if g.frozen then .error .frozen
  else
    match mergeNodes namePrefix newId other.nodes.entries g.nodes .empty with
    | .error e => .error e
    | .ok (nodes, idMap) =>
      match mergeEdges idMap other.edges with
      | .error e => .error e
      | .ok edges => .ok { g with nodes := nodes, edges := g.edges ++ edges }

/-- The loop of `split` over the nodes. -/
def splitNodes (keep : List NodeId) (newId : NodeId → NodeId) :
    List (NodeId × TaskNode) → Dict NodeId TaskNode → Dict NodeId TaskNode →
      Except EditError (Dict NodeId TaskNode × Dict NodeId TaskNode)
  | [], left, right => .ok (left, right)
  | (nid, node) :: rest, left, right =>
    match node.clone (newId nid) nid with
    | .error e => .error e
    | .ok copy =>
      if nid ∈ keep then splitNodes keep newId rest (left.set nid copy) right
      else splitNodes keep newId rest left (right.set nid copy)

/-- `split(node_ids)`: the part with these nodes, and the rest. -/
def split (g : TaskGraph) (keep : List NodeId) (leftId rightId : String)
    (newId : NodeId → NodeId) : Except EditError (TaskGraph × TaskGraph) :=
  match splitNodes keep newId g.nodes.entries .empty .empty with
  | .error e => .error e
  | .ok (left, right) =>
    .ok ({ graphId := leftId, nodes := left
           edges := g.edges.filter fun e => e.src ∈ keep ∧ e.dst ∈ keep },
         { graphId := rightId, nodes := right
           edges := g.edges.filter fun e => e.src ∉ keep ∧ e.dst ∉ keep })

/-- The loop of `extract_subgraph` over the nodes to keep. -/
def extractNodes (g : TaskGraph) (newId : NodeId → NodeId) :
    List NodeId → Dict NodeId TaskNode → Except EditError (Dict NodeId TaskNode)
  | [], nodes => .ok nodes
  | nid :: rest, nodes =>
    match g.nodes.get? nid with
    | none => .error (.nodeNotFound nid)
    | some node =>
      match node.clone (newId nid) nid with
      | .error e => .error e
      | .ok copy => extractNodes g newId rest (nodes.set nid copy)

/-- `extract_subgraph(node_ids)`; the order of the set is that of the list. -/
def extractSubgraph (g : TaskGraph) (keep : List NodeId) (graphId : String)
    (newId : NodeId → NodeId) : Except EditError TaskGraph :=
  match extractNodes g newId keep .empty with
  | .error e => .error e
  | .ok nodes =>
    .ok { graphId := graphId, nodes := nodes
          edges := g.edges.filter fun e => e.src ∈ keep ∧ e.dst ∈ keep }

end TaskGraph

/-- An edit with its arguments, and the ids that `new_id` returns. -/
inductive Edit where
  | remove (nodeId : NodeId)
  | replace (nodeId : NodeId) (newNode : TaskNode)
  | merge (other : TaskGraph) (namePrefix : String) (newId : NodeId → NodeId)
  | split (keep : List NodeId) (leftId rightId : String) (newId : NodeId → NodeId)
  | extract (keep : List NodeId) (graphId : String) (newId : NodeId → NodeId)

def Edit.results (g : TaskGraph) : Edit → Except EditError (List TaskGraph)
  | .remove nodeId => (g.removeNode nodeId).map ([·])
  | .replace nodeId newNode => (g.replaceNode nodeId newNode).map ([·])
  | .merge other namePrefix newId => (g.merge other namePrefix newId).map ([·])
  | .split keep leftId rightId newId =>
    (g.split keep leftId rightId newId).map fun parts => [parts.1, parts.2]
  | .extract keep graphId newId => (g.extractSubgraph keep graphId newId).map ([·])

-- ------ What an edit owes to the validator

/-- The edges and the fields are in order, whatever the lists of the nodes say. -/
structure TaskGraph.Intact (g : TaskGraph) : Prop where
  acyclic : EdgeList.Acyclic g.Precedes
  endpoints : ∀ e ∈ g.edges, e.src ∈ g.ids ∧ e.dst ∈ g.ids
  noLoop : ∀ e ∈ g.edges, e.src ≠ e.dst
  edgeConditions : ∀ e ∈ g.edges, Parses e.condition
  fields : ∀ nid node, g.nodes.get? nid = some node → node.FieldsOk

namespace TaskGraph

variable {g : TaskGraph}

theorem wellFormed_iff_intact :
    g.WellFormed ↔ g.Intact ∧
      ∀ nid node, g.nodes.get? nid = some node → node.LinksWithin g.ids := by
  constructor
  · intro h
    exact ⟨⟨h.acyclic, h.endpoints, h.noLoop, h.edgeConditions, h.fields⟩, h.links⟩
  · rintro ⟨h, hLinks⟩
    exact ⟨h.acyclic, h.endpoints, h.noLoop, h.edgeConditions, h.fields, hLinks⟩

theorem Intact.wellFormed_iff (h : g.Intact) :
    g.WellFormed ↔ ∀ nid node, g.nodes.get? nid = some node → node.LinksWithin g.ids := by
  rw [wellFormed_iff_intact, and_iff_right h]

theorem mem_ids_iff {v : NodeId} : v ∈ g.ids ↔ ∃ node, g.nodes.get? v = some node := by
  unfold ids
  rw [Dict.mem_keys_iff, Option.isSome_iff_exists]

theorem Intact.restrict {g' : TaskGraph} (h : g.Intact)
    (hEdges : ∀ e ∈ g'.edges, e ∈ g.edges ∧ e.src ∈ g'.ids ∧ e.dst ∈ g'.ids)
    (hFields : ∀ nid node, g'.nodes.get? nid = some node → node.FieldsOk) : g'.Intact where
  acyclic := h.acyclic.mono fun u v huv => by
    obtain ⟨e, he, hBlocking, rfl, rfl⟩ := precedes_iff.mp huv
    exact precedes_iff.mpr ⟨e, (hEdges e he).1, hBlocking, rfl, rfl⟩
  endpoints := fun e he => (hEdges e he).2
  noLoop := fun e he => h.noLoop e (hEdges e he).1
  edgeConditions := fun e he => h.edgeConditions e (hEdges e he).1
  fields := hFields

end TaskGraph

end Neuroswarm.Swarm
