import Neuroswarm.Haoe.DependencyGraph
import Neuroswarm.Lib.Json
import Neuroswarm.Lib.Replay

/-!
# Task graph — the translation to HAOE

`to_haoe_graph` of `adapters/haoe.py`. HAOE has no soft and no priority edges; the
translation makes them hard, so that on the other side they block.

* `mem_readyNodes_toHaoe` — every edge into a node counts.
* `haoe_schedule_iff` — both sides schedule alike exactly when the edges that do not
  block add nothing: they run beside an edge that blocks, or into a node that waits
  for itself.
-/

namespace Neuroswarm.Swarm

def EdgeKind.value : EdgeKind → String
  | .hard => "hard"
  | .soft => "soft"
  | .conditional => "conditional"
  | .data => "data"
  | .control => "control"
  | .priority => "priority"

def edgeToHaoe : EdgeKind → Haoe.EdgeKind
  | .hard => .hard
  | .conditional => .conditional
  | .soft => .hard
  | .data => .hard
  | .control => .hard
  | .priority => .hard

/-- What the translation stores in the metadata of a node: its own fields under `_swarm`,
and the conditions of edges into it under `_swarm_edge_conditions`. -/
structure SwarmMetadata where
  nodeType : NodeType
  condition : Option RawCondition
  handlerKey : Option String
  checkpointId : Option String
  edgeConditions : Dict String RawCondition := .empty

def toHaoeNode (node : TaskNode) : Haoe.TaskNode SwarmMetadata where
  nodeId := node.id
  name := node.name
  retry :=
    { maxAttempts := node.retryPolicy.maxAttempts
      backoffBaseS := node.retryPolicy.backoffBaseS
      backoffFactor := node.retryPolicy.backoffFactor
      backoffMaxS := node.retryPolicy.backoffMaxS }
  timeoutS := node.timeout
  estimate :=
    { memoryBytes := node.memoryRequirement
      expectedLatencyMs := node.estimatedLatency
      cpuCost := if node.estimatedCost = 0 then 1 else node.estimatedCost }
  metadata :=
    { nodeType := node.nodeType, condition := node.condition, handlerKey := node.handlerKey
      checkpointId := node.checkpointId }
  isCheckpoint := node.nodeType = .checkpoint ∨ node.checkpointId.any (· ≠ "")

variable {Γ : Type*}

def toHaoeEdge (edge : TaskEdge) : Haoe.TaskEdge Γ where
  src := edge.src
  dst := edge.dst
  kind := edgeToHaoe edge.kind
  label := if edge.label = "" then edge.kind.value else edge.label

def stashCondition (nodes : Dict NodeId (Haoe.TaskNode SwarmMetadata)) (edge : TaskEdge) :
    Dict NodeId (Haoe.TaskNode SwarmMetadata) :=
  match edge.condition with
  | none => nodes
  | some condition =>
    nodes.modify edge.dst fun node =>
      { node with metadata := { node.metadata with
          edgeConditions :=
            node.metadata.edgeConditions.set (edge.src ++ "->" ++ edge.dst) condition } }

/-- `to_haoe_graph(graph)`; `context` is `dict(graph.metadata)`. -/
def toHaoeGraph (context : Γ) (g : TaskGraph) : Haoe.TaskGraph SwarmMetadata Γ where
  graphId := g.graphId
  nodes := g.edges.foldl stashCondition
    (g.nodes.entries.foldl (fun d e => d.set (toHaoeNode e.2).nodeId (toHaoeNode e.2)) .empty)
  edges := g.edges.map toHaoeEdge
  context := context

-- ------ The graph on the other side

theorem mem_keys_stash {nodes : Dict NodeId (Haoe.TaskNode SwarmMetadata)} {es : List TaskEdge}
    {v : NodeId} : v ∈ (es.foldl stashCondition nodes).keys ↔ v ∈ nodes.keys := by
  induction es generalizing nodes with
  | nil => exact Iff.rfl
  | cons e es ih =>
    rw [List.foldl_cons, ih, Dict.mem_keys_iff, Dict.mem_keys_iff]
    unfold stashCondition
    split
    · exact Iff.rfl
    · rw [Dict.get?_modify]
      split
      · next hv => rw [hv, Option.isSome_map]
      · exact Iff.rfl

theorem mem_ids_toHaoe {g : TaskGraph} (hKeyed : g.Keyed) (context : Γ) {v : NodeId} :
    v ∈ (toHaoeGraph context g).ids ↔ v ∈ g.ids := by
  have hFold : ∀ (l : List (NodeId × TaskNode)) (d : Dict NodeId (Haoe.TaskNode SwarmMetadata)),
      (∀ e ∈ l, e.2.id = e.1) →
      (v ∈ (l.foldl (fun d e => d.set (toHaoeNode e.2).nodeId (toHaoeNode e.2)) d).keys ↔
        v ∈ l.map Prod.fst ∨ v ∈ d.keys) := by
    intro l
    induction l with
    | nil => simp
    | cons e l ih =>
      intro d hl
      have hId : (toHaoeNode e.2).nodeId = e.1 := hl e (List.mem_cons_self ..)
      rw [List.foldl_cons, ih _ fun e he => hl e (List.mem_cons_of_mem _ he), List.map_cons,
        List.mem_cons, Dict.mem_keys_iff, Dict.mem_keys_iff, Dict.get?_set, hId]
      by_cases hv : v = e.1
      · simp [hv]
      · simp [hv]
  unfold Haoe.TaskGraph.ids toHaoeGraph
  dsimp only
  rw [mem_keys_stash, hFold _ _ fun e he => hKeyed e.1 e.2 (Dict.mem_entries_iff.mp he),
    or_iff_left]
  · rfl
  · exact List.not_mem_nil

theorem precedes_toHaoe {g : TaskGraph} {context : Γ} {u v : NodeId} :
    (toHaoeGraph context g).Precedes u v ↔ ∃ e ∈ g.edges, e.src = u ∧ e.dst = v := by
  rw [Haoe.TaskGraph.precedes_iff]
  constructor
  · rintro ⟨e, he, -, rfl, rfl⟩
    obtain ⟨old, hOld, rfl⟩ := List.mem_map.mp he
    exact ⟨old, hOld, rfl, rfl⟩
  · rintro ⟨e, he, rfl, rfl⟩
    refine ⟨toHaoeEdge e, List.mem_map_of_mem he, ?_, rfl, rfl⟩
    show edgeToHaoe e.kind ≠ .cancel
    cases e.kind <;> decide

theorem TaskGraph.Precedes.toHaoe {g : TaskGraph} {context : Γ} {u v : NodeId}
    (h : g.Precedes u v) : (toHaoeGraph context g).Precedes u v := by
  obtain ⟨e, he, -, rfl, rfl⟩ := TaskGraph.precedes_iff.mp h
  exact precedes_toHaoe.mpr ⟨e, he, rfl, rfl⟩

theorem permissive_toHaoe (g : TaskGraph) (context : Γ) : (toHaoeGraph context g).Permissive := by
  intro e he condition hCondition
  obtain ⟨old, -, rfl⟩ := List.mem_map.mp he
  cases hCondition

theorem mem_readyNodes_toHaoe {g : TaskGraph} (hKeyed : g.Keyed) {context : Γ}
    {completed : List NodeId} {v : NodeId} :
    v ∈ (toHaoeGraph context g).readyNodes completed ↔
      v ∈ g.ids ∧ v ∉ completed ∧ ∀ e ∈ g.edges, e.dst = v → e.src ∈ completed := by
  rw [Haoe.TaskGraph.mem_readyNodes (permissive_toHaoe g context), mem_ids_toHaoe hKeyed]
  simp only [precedes_toHaoe]
  refine and_congr_right fun _ => and_congr_right fun _ => ⟨fun h e he hDst => ?_, ?_⟩
  · exact h e.src ⟨e, he, rfl, hDst⟩
  · rintro h p ⟨e, he, rfl, hDst⟩
    exact h e he hDst

theorem readyNodes_toHaoe_subset {g : TaskGraph} (hKeyed : g.Keyed) {context : Γ}
    {completed : List NodeId} :
    (toHaoeGraph context g).readyNodes completed ⊆ g.readyNodes completed := by
  intro v hv
  obtain ⟨hMem, hOut, hPreds⟩ := (mem_readyNodes_toHaoe hKeyed).mp hv
  refine TaskGraph.mem_readyNodes.mpr ⟨hMem, hOut, fun p hp => ?_⟩
  obtain ⟨e, he, -, rfl, hDst⟩ := TaskGraph.precedes_iff.mp hp
  exact hPreds e he hDst

-- ------ When both sides agree

/-- An edge that does not block runs beside one that does, or into a node that waits for
itself. -/
def TaskGraph.Absorbed (g : TaskGraph) : Prop :=
  ∀ e ∈ g.edges, e.isBlocking = false → g.Precedes e.src e.dst ∨ g.Precedes e.dst e.dst

/-- Both engines see the same cycles and, for every set of completed nodes, the same ready
nodes. -/
structure SameSchedule (nx : Option Networkx) (context : Γ) (g : TaskGraph) : Prop where
  isDag : (toHaoeGraph context g).isDag nx = g.isDag nx
  ready : ∀ completed v,
    v ∈ (toHaoeGraph context g).readyNodes completed ↔ v ∈ g.readyNodes completed

namespace TaskGraph

variable {g : TaskGraph}

theorem Absorbed.precedes_iff (h : g.Absorbed) {context : Γ} {u v : NodeId}
    (hSelf : ¬ g.Precedes v v) : (toHaoeGraph context g).Precedes u v ↔ g.Precedes u v := by
  refine ⟨fun huv => ?_, Precedes.toHaoe⟩
  obtain ⟨e, he, rfl, rfl⟩ := precedes_toHaoe.mp huv
  cases hBlocking : e.isBlocking with
  | true => exact TaskGraph.precedes_iff.mpr ⟨e, he, hBlocking, rfl, rfl⟩
  | false => exact (h e he hBlocking).resolve_right hSelf

theorem Absorbed.acyclic_iff (h : g.Absorbed) (context : Γ) :
    EdgeList.Acyclic (toHaoeGraph context g).Precedes ↔ EdgeList.Acyclic g.Precedes := by
  constructor
  · exact fun hAll => hAll.mono fun u v => Precedes.toHaoe
  · exact fun hOwn => hOwn.mono fun u v => (h.precedes_iff (hOwn.irrefl v)).mp

theorem Absorbed.settles_iff (h : g.Absorbed) (hKeyed : g.Keyed) (context : Γ) (v : NodeId) :
    EdgeList.Settles (toHaoeGraph context g).ids (toHaoeGraph context g).adjacency v ↔
      EdgeList.Settles g.ids g.blocking v := by
  have hKnown : ∀ w, EdgeList.Known (toHaoeGraph context g).ids
      (toHaoeGraph context g).adjacency w ↔ EdgeList.Known g.ids g.blocking w := by
    intro w
    unfold EdgeList.Known
    rw [mem_ids_toHaoe hKeyed, List.mem_map, List.mem_map]
    refine or_congr Iff.rfl ⟨?_, ?_⟩
    · rintro ⟨⟨u, w⟩, hEdge, rfl⟩
      by_cases hSelf : g.Precedes w w
      · exact ⟨(w, w), hSelf, rfl⟩
      · exact ⟨(u, w), (h.precedes_iff hSelf).mp hEdge, rfl⟩
    · rintro ⟨⟨u, w⟩, hEdge, rfl⟩
      exact ⟨(u, w), Precedes.toHaoe (g := g) hEdge, rfl⟩
  constructor
  · intro hAll
    induction hAll with
    | intro w hw _ ih => exact .intro w ((hKnown w).mp hw) fun u hu => ih u (Precedes.toHaoe hu)
  · intro hOwn
    induction hOwn with
    | intro w hw hPred ih =>
      have hSelf : ¬ g.Precedes w w := fun hLoop =>
        (EdgeList.Settles.intro w hw hPred).irrefl (.single hLoop)
      exact .intro w ((hKnown w).mpr hw) fun u hu => ih u ((h.precedes_iff hSelf).mp hu)

theorem Absorbed.sameSchedule (h : g.Absorbed) (hKeyed : g.Keyed) (nx : Option Networkx)
    (context : Γ) : SameSchedule nx context g where
  isDag := by
    cases nx with
    | some nx =>
      rw [Bool.eq_iff_iff, Haoe.TaskGraph.isDag_some_iff, h.acyclic_iff]
      exact (nx.isDirectedAcyclicGraph_iff _ _).symm
    | none =>
      have hLength : (toHaoeGraph context g).ids.length = g.ids.length :=
        ((List.perm_ext_iff_of_nodup (toHaoeGraph context g).nodes.nodup g.nodes.nodup).mpr
          fun v => mem_ids_toHaoe hKeyed context).length_eq
      unfold Haoe.TaskGraph.isDag TaskGraph.isDag
      dsimp only
      rw [EdgeList.kahn_length_congr (h.settles_iff hKeyed context), hLength]
  ready := by
    intro completed v
    refine ⟨fun hv => readyNodes_toHaoe_subset hKeyed hv, fun hv => ?_⟩
    obtain ⟨hMem, hOut, hPreds⟩ := TaskGraph.mem_readyNodes.mp hv
    have hSelf : ¬ g.Precedes v v := fun hLoop => hOut (hPreds v hLoop)
    refine (mem_readyNodes_toHaoe hKeyed).mpr ⟨hMem, hOut, ?_⟩
    rintro e he rfl
    have hEdge : (toHaoeGraph context g).Precedes e.src e.dst :=
      precedes_toHaoe.mpr ⟨e, he, rfl, rfl⟩
    exact hPreds e.src ((h.precedes_iff hSelf).mp hEdge)

theorem absorbed_of_ready (hKeyed : g.Keyed) (hTargets : ∀ e ∈ g.edges, e.dst ∈ g.ids)
    {context : Γ}
    (hReady : ∀ completed v, v ∈ g.readyNodes completed →
      v ∈ (toHaoeGraph context g).readyNodes completed) : g.Absorbed := by
  intro e he _
  by_contra hNot
  rw [not_or] at hNot
  have hSwarm : e.dst ∈ g.readyNodes (g.rev e.dst) := by
    refine TaskGraph.mem_readyNodes.mpr ⟨hTargets e he, ?_, fun p hp => mem_rev.mpr hp⟩
    rw [mem_rev]
    exact hNot.2
  have hHaoe := (mem_readyNodes_toHaoe hKeyed).mp (hReady _ _ hSwarm)
  exact hNot.1 (mem_rev.mp (hHaoe.2.2 e he rfl))

end TaskGraph

/-- **Translation.** If every edge that does not block is absorbed, both engines schedule
alike; and if they do, and edges end in nodes, every such edge is. -/
theorem haoe_schedule_iff (nx : Option Networkx) (context : Γ) (g : TaskGraph)
    (hKeyed : g.Keyed) :
    (g.Absorbed → SameSchedule nx context g) ∧
      ((∀ e ∈ g.edges, e.dst ∈ g.ids) → SameSchedule nx context g → g.Absorbed) :=
  ⟨fun h => h.sameSchedule hKeyed nx context,
    fun hTargets hSame => TaskGraph.absorbed_of_ready hKeyed hTargets fun completed v =>
      (hSame.ready completed v).mpr⟩

/-- `a` and `b` with edges of these kinds between them. -/
def twoNodes (kinds : List EdgeKind) : TaskGraph where
  graphId := "g"
  nodes := (Dict.empty.set "a" { id := "a" }).set "b" { id := "b" }
  edges := kinds.map fun kind => { src := "a", dst := "b", kind := kind }

theorem keyed_twoNodes (kinds : List EdgeKind) : (twoNodes kinds).Keyed := by
  intro nid node hNode
  rcases List.mem_cons.mp (Dict.mem_entries_iff.mpr hNode) with hEq | hMem
  · cases hEq
    rfl
  · cases List.mem_singleton.mp hMem
    rfl

theorem haoe_schedule_iff_twoNodes : SameSchedule none () (twoNodes [.soft, .hard]) := by
  refine (haoe_schedule_iff none () _ (keyed_twoNodes _)).1 fun e he _ => .inl ?_
  obtain ⟨kind, -, rfl⟩ := List.mem_map.mp he
  have hHard : EdgeKind.hard ∈ [EdgeKind.soft, .hard] := by decide
  exact TaskGraph.precedes_iff.mpr
    ⟨{ src := "a", dst := "b", kind := .hard }, List.mem_map_of_mem hHard, rfl, rfl, rfl⟩

def misplaced : TaskGraph where
  graphId := "g"
  nodes := Dict.empty.set "k" { id := "a" }

/-- A soft edge blocks in HAOE; and HAOE knows a node by its own id only. -/
theorem not_haoe_schedule :
    (¬ ∀ g : TaskGraph, g.Keyed → SameSchedule none () g) ∧
      ¬ ∀ g : TaskGraph, g.Absorbed → SameSchedule none () g := by
  constructor
  · intro h
    have hSame := (h (twoNodes [.soft]) (keyed_twoNodes _)).ready [] "b"
    exact absurd (hSame.mpr (by decide +kernel)) (by decide +kernel)
  · intro h
    have hSame := (h misplaced nofun).ready [] "k"
    exact absurd (hSame.mpr (by decide +kernel)) (by decide +kernel)

end Neuroswarm.Swarm

/-!
## Both ways through the HAOE adapter

`to_haoe_graph` and `from_haoe_graph` of `adapters/haoe.py` with the fields that are
split between HAOE's own attributes and a metadata dictionary. A condition is the dict
that it is, the metadata of a node is a dictionary of JSON values, and a retry policy
has every field.

The status, result and error of a node, its priority, display fields, tags, tool lists
and budget, the HAOE-native fields (function, pool, executor, affinity, condition key)
and the metadata of a graph are left out. `none` is where the code raises.
-/

namespace Neuroswarm.Swarm.Adapter

-- ------ Records

abbrev ConditionDict := List (String × Json)

inductive BackoffStrategy where
  | constant
  | linear
  | exponential
  deriving DecidableEq, Repr

structure FullRetryPolicy extends RetryPolicy where
  backoffStrategy : BackoffStrategy := .exponential
  jitter : Bool := true
  retryConditions : List String := []

structure SwarmNode where
  id : NodeId
  name : String := ""
  agentType : String := ""
  nodeType : NodeType := .task
  dependencies : List NodeId := []
  children : List NodeId := []
  metadata : Dict String Json := .empty
  timeout : Option ℚ := none
  retryPolicy : FullRetryPolicy := {}
  condition : Option ConditionDict := none
  estimatedCost : ℚ := 0
  estimatedLatency : ℚ := 0
  memoryRequirement : ℤ := 0
  attempts : Option Json := none
  checkpointId : Option String := none
  handlerKey : Option String := none

structure SwarmEdge where
  src : NodeId
  dst : NodeId
  kind : EdgeKind := .hard
  label : String := ""
  condition : Option ConditionDict := none
  priorityBoost : ℤ := 0
  dataKey : Option String := none

structure SwarmGraph where
  graphId : String
  nodes : Dict NodeId SwarmNode := .empty
  edges : List SwarmEdge := []

/-- The node as the validator and the executor know it; `parse` is `condition_from_dict`. -/
def SwarmNode.toTaskNode (parse : ConditionDict → RawCondition) (node : SwarmNode) : TaskNode where
  id := node.id
  name := node.name
  nodeType := node.nodeType
  dependencies := node.dependencies
  children := node.children
  timeout := node.timeout
  retryPolicy := node.retryPolicy.toRetryPolicy
  condition := (node.condition.filter (!·.isEmpty)).map parse
  estimatedCost := node.estimatedCost
  estimatedLatency := node.estimatedLatency
  memoryRequirement := node.memoryRequirement
  checkpointId := node.checkpointId
  handlerKey := node.handlerKey
  agentType := node.agentType

def SwarmEdge.toTaskEdge (parse : ConditionDict → RawCondition) (edge : SwarmEdge) : TaskEdge where
  src := edge.src
  dst := edge.dst
  kind := edge.kind
  label := edge.label
  condition := (edge.condition.filter (!·.isEmpty)).map parse

def SwarmGraph.toTaskGraph (parse : ConditionDict → RawCondition) (g : SwarmGraph) : TaskGraph where
  graphId := g.graphId
  nodes := g.nodes.mapValues fun _ node => node.toTaskNode parse
  edges := g.edges.map (SwarmEdge.toTaskEdge parse)

/-- Every node is stored under its own id. -/
def SwarmGraph.Keyed (g : SwarmGraph) : Prop :=
  ∀ nid node, g.nodes.get? nid = some node → node.id = nid

-- ------ HAOE

/-- What `metadata["_swarm"].get(..)` returns. -/
structure SwarmFields where
  agentType : Option String := none
  nodeType : Option String := none
  condition : Option ConditionDict := none
  handlerKey : Option String := none
  checkpointId : Option String := none

/-- The metadata of a HAOE node: the entry `_swarm` and the others. -/
structure HaoeMetadata where
  swarm : SwarmFields := {}
  others : Dict String Json := .empty

structure HaoeNode extends Haoe.TaskNode HaoeMetadata where
  attempts : ℤ := 0

structure HaoeGraph where
  graphId : String
  nodes : Dict NodeId HaoeNode := .empty
  edges : List (Haoe.TaskEdge Unit) := []

-- ------ Values

/-- `int()` of texts and floats. -/
structure Numbers where
  ofStr : String → Option ℤ
  ofFloat : FloatText → ℤ

/-- `int(value)`. -/
def toInt (numbers : Numbers) : Json → Option ℤ
  | .bool b => some (if b then 1 else 0)
  | .int n => some n
  | .float x => some (numbers.ofFloat x)
  | .str s => numbers.ofStr s
  | .null | .list _ | .dict _ => none

/-- `value or default`, of a text that may be missing. -/
def orText (value : Option String) (default : String) : String :=
  match value with
  | some text => if text = "" then default else text
  | none => default

/-- `metadata.get("_swarm_edge_conditions", {})`, of which only a dict can be used. -/
def edgeConditions (metadata : Dict String Json) : Option ConditionDict :=
  match (metadata.get? "_swarm_edge_conditions").getD (.dict []) with
  | .dict conditions => some conditions
  | _ => none

/-- What a `TaskEdge` takes for its condition. -/
def asCondition : Option Json → Option (Option ConditionDict)
  | none | some .null => some none
  | some (.dict condition) => some (some condition)
  | some _ => none

def conditionKey (src dst : NodeId) : String := src ++ "->" ++ dst

/-- `NodeType.value`. -/
def nodeTypeValue : NodeType → String
  | .task => "task"
  | .parallel => "parallel"
  | .aggregate => "aggregate"
  | .condition => "condition"
  | .checkpoint => "checkpoint"
  | .subgraph => "subgraph"
  | .agent => "agent"
  | .tool => "tool"
  | .inference => "inference"
  | .memory => "memory"
  | .routing => "routing"
  | .custom => "custom"

/-- `NodeType(value)`; a value of no type is a task. -/
def nodeTypeOf (value : String) : NodeType :=
  ([.task, .parallel, .aggregate, .condition, .checkpoint, .subgraph, .agent, .tool, .inference,
    .memory, .routing, .custom].find? fun t => nodeTypeValue t = value).getD .task

-- ------ `to_haoe_graph`

/-- The HAOE node of a node whose attempts are read as `attempts`. -/
def haoeNode (node : SwarmNode) (attempts : ℤ) : HaoeNode where
  nodeId := node.id
  name := node.name
  retry :=
    { maxAttempts := node.retryPolicy.maxAttempts
      backoffBaseS := node.retryPolicy.backoffBaseS
      backoffFactor := node.retryPolicy.backoffFactor
      backoffMaxS := node.retryPolicy.backoffMaxS }
  timeoutS := node.timeout
  estimate :=
    { memoryBytes := node.memoryRequirement
      expectedLatencyMs := node.estimatedLatency
      cpuCost := if node.estimatedCost = 0 then 1 else node.estimatedCost }
  metadata :=
    { swarm :=
        { agentType := some node.agentType, nodeType := some (nodeTypeValue node.nodeType)
          condition := node.condition, handlerKey := node.handlerKey
          checkpointId := node.checkpointId }
      others := node.metadata.erase "_swarm" }
  isCheckpoint := node.nodeType = .checkpoint ∨ node.checkpointId.any (· ≠ "")
  attempts := attempts

def toHaoeNode (numbers : Numbers) (node : SwarmNode) : Option HaoeNode :=
  (toInt numbers (node.attempts.getD (.int 0))).map (haoeNode node)

def toHaoeEdge (edge : SwarmEdge) : Haoe.TaskEdge Unit where
  src := edge.src
  dst := edge.dst
  kind := edgeToHaoe edge.kind
  label := if edge.label = "" then edge.kind.value else edge.label

def HaoeNode.withOthers (h : HaoeNode) (others : Dict String Json) : HaoeNode :=
  { h with metadata := { h.metadata with others := others } }

/-- `metadata.setdefault("_swarm_edge_conditions", {})[key] = condition`. -/
def stashed (metadata : Dict String Json) (key : String) (condition : ConditionDict) :
    Option (Dict String Json) :=
  (edgeConditions metadata).map fun conditions =>
    metadata.set "_swarm_edge_conditions" (.dict (Dict.setEntry key (.dict condition) conditions))

def stash (nodes : Dict NodeId HaoeNode) (edge : SwarmEdge) : Option (Dict NodeId HaoeNode) :=
  match edge.condition.filter (!·.isEmpty), nodes.get? edge.dst with
  | some condition, some dst =>
    (stashed dst.metadata.others (conditionKey edge.src edge.dst) condition).map fun others =>
      nodes.set edge.dst (dst.withOthers others)
  | _, _ => some nodes

def toHaoeGraph (numbers : Numbers) (g : SwarmGraph) : Option HaoeGraph := do
  let nodes ← g.nodes.entries.mapM fun e => toHaoeNode numbers e.2
  let nodes ← g.edges.foldlM stash (Dict.replay (nodes.map fun h => (h.nodeId, h)))
  return { graphId := g.graphId, nodes := nodes, edges := g.edges.map toHaoeEdge }

-- ------ `from_haoe_graph`

/-- The node that is built; its links are synchronized later. -/
def swarmNode (h : HaoeNode) : SwarmNode where
  id := h.nodeId
  name := h.name
  agentType := orText h.metadata.swarm.agentType ""
  nodeType := nodeTypeOf (h.metadata.swarm.nodeType.getD "task")
  metadata := h.metadata.others
  timeout := h.timeoutS
  retryPolicy :=
    { maxAttempts := h.retry.maxAttempts, backoffBaseS := h.retry.backoffBaseS
      backoffFactor := h.retry.backoffFactor, backoffMaxS := h.retry.backoffMaxS }
  condition := h.metadata.swarm.condition
  estimatedCost := h.estimate.cpuCost
  estimatedLatency := h.estimate.expectedLatencyMs
  memoryRequirement := h.estimate.memoryBytes
  attempts := some (.int h.attempts)
  checkpointId := h.metadata.swarm.checkpointId
  handlerKey := some (orText h.metadata.swarm.handlerKey h.name)

/-- The validators of `RetryPolicy` and `TaskNode` pass. -/
def SwarmNode.Accepted (node : SwarmNode) : Prop :=
  node.retryPolicy.modelValidate = .ok () ∧ ¬ node.timeout.any (· ≤ 0)

instance (node : SwarmNode) : Decidable node.Accepted :=
  inferInstanceAs (Decidable (_ ∧ _))

def fromHaoeNode (h : HaoeNode) : Option SwarmNode :=
  if (swarmNode h).Accepted then some (swarmNode h) else none

/-- `_HAOE_TO_EDGE`. -/
def edgeFromHaoe : Haoe.EdgeKind → EdgeKind
  | .hard => .hard
  | .conditional => .conditional
  | .fanOut => .hard
  | .fanIn => .hard
  | .checkpoint => .control
  | .retry => .control
  | .cancel => .control

/-- The condition that is stored for an edge, in the metadata of its target. -/
def storedCondition (nodes : Dict NodeId HaoeNode) (src dst : NodeId) :
    Option (Option ConditionDict) :=
  match nodes.get? dst with
  | none => some none
  | some h => do
    let conditions ← edgeConditions h.metadata.others
    asCondition (conditions.lookup (conditionKey src dst))

def fromHaoeEdge (nodes : Dict NodeId HaoeNode) (edge : Haoe.TaskEdge Unit) : Option SwarmEdge :=
  (storedCondition nodes edge.src edge.dst).map fun condition =>
    { src := edge.src, dst := edge.dst, kind := edgeFromHaoe edge.kind, label := edge.label
      condition := condition }

def SwarmGraph.syncDepLinks (g : SwarmGraph) : SwarmGraph :=
  { g with nodes := g.nodes.mapValues fun nid node =>
      { node with
        dependencies := ((g.edges.filter fun e => e.dst = nid).map SwarmEdge.src).eraseDups
        children := ((g.edges.filter fun e => e.src = nid).map SwarmEdge.dst).eraseDups } }

/-- `from_haoe_graph(hgraph)`; `newId` is for a graph without an id. -/
def fromHaoeGraph (newId : String) (h : HaoeGraph) : Option SwarmGraph := do
  let nodes ← h.nodes.entries.mapM fun e => (fromHaoeNode e.2).map fun node => (e.1, node)
  let edges ← h.edges.mapM (fromHaoeEdge h.nodes)
  let graphId := if h.graphId = "" then newId else h.graphId
  return SwarmGraph.syncDepLinks { graphId := graphId, nodes := Dict.replay nodes, edges := edges }

/-- `from_haoe_graph(to_haoe_graph(graph))`. -/
def roundTrip (numbers : Numbers) (newId : String) (g : SwarmGraph) : Option SwarmGraph :=
  toHaoeGraph numbers g >>= fromHaoeGraph newId

end Neuroswarm.Swarm.Adapter
