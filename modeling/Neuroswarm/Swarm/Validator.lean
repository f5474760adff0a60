import Neuroswarm.Swarm.Analyzer
import Neuroswarm.Swarm.Conditions

/-!
# Task graph — `GraphValidator`

`validate` of `validator.py`, with the codes, texts and severities of its issues.
`valid_iff` says what a report without errors means; everything later about valid
graphs goes through it.
-/

namespace Neuroswarm.Swarm

inductive Severity where
  | error
  | warning
  deriving DecidableEq, Repr

/-- Single human-readable validation finding. -/
structure ValidationIssue where
  code : String
  message : String
  severity : Severity := .error
  nodeId : Option NodeId := none
  edge : Option (NodeId × NodeId) := none
  components : List (List NodeId) := []

structure ValidationReport where
  issues : List ValidationIssue
  graphId : String

def ValidationReport.ok (r : ValidationReport) : Bool :=
  !r.issues.any fun i => i.severity = .error

namespace TaskGraph

def cycles (nx : Option Networkx) (g : TaskGraph) : List ValidationIssue :=
  if g.isDag nx then [] else [{ code := "CYCLE", message := "graph contains a cycle" }]

/-- `_disconnected`; `none` is the `KeyError` of `connected_components`. -/
def disconnected (g : TaskGraph) : Option (List ValidationIssue) :=
  if g.ids.length ≤ 1 then some []
  else
    g.connectedComponents.map fun comps =>
      (g.disconnectedNodes.map fun nid =>
        { code := "DISCONNECTED_NODE", message := "node has no edges (orphaned)"
          severity := .warning, nodeId := some nid }) ++
      if 1 < comps.length then
        [{ code := "MULTIPLE_COMPONENTS"
           message := s!"graph has {comps.length} weakly connected components"
           severity := .warning, components := comps.map sorted }]
      else []

def missingDeps (g : TaskGraph) : List ValidationIssue :=
  (g.missingDependencies.map fun (src, dst) =>
    { code := "MISSING_DEPENDENCY", message := "edge or dependency references unknown node"
      edge := some (src, dst) }) ++
  g.nodes.entries.flatMap fun (nid, node) =>
    (node.children.filter (· ∉ g.ids)).map fun child =>
      { code := "MISSING_CHILD", message := s!"child {child} not in graph", nodeId := some nid }

/-- The issues of one node; priority and metadata have types that exclude their checks. -/
def nodeIssues (nid : NodeId) (node : TaskNode) : List ValidationIssue :=
  (node.validateNode.map fun msg =>
    { code := "INVALID_NODE", message := msg, nodeId := some nid }) ++
  (match node.retryPolicy.modelValidate with
    | .ok _ => []
    | .error e => [{ code := "INVALID_RETRY_POLICY", message := e, nodeId := some nid }]) ++
  (if node.timeout.any (· ≤ 0) then
    [{ code := "INVALID_TIMEOUT", message := "timeout must be > 0", nodeId := some nid }]
  else [])

def nodeFields (g : TaskGraph) : List ValidationIssue :=
  g.nodes.entries.flatMap fun (nid, node) => nodeIssues nid node

def edgeFields (g : TaskGraph) : List ValidationIssue :=
  (g.edges.filter fun e => e.src = e.dst).map fun e =>
    { code := "SELF_LOOP", message := "edge src == dst", edge := some (e.src, e.dst) }

def conditionIssue (nodeId : Option NodeId) (edge : Option (NodeId × NodeId)) :
    Option RawCondition → List ValidationIssue
  | some (.error e) => [{ code := "INVALID_CONDITION", message := e, nodeId := nodeId, edge := edge }]
  | _ => []

def conditions (g : TaskGraph) : List ValidationIssue :=
  (g.nodes.entries.flatMap fun (nid, node) => conditionIssue (some nid) none node.condition) ++
  g.edges.flatMap fun e => conditionIssue none (some (e.src, e.dst)) e.condition

/-- `GraphValidator().validate(graph)`; `none` when it raises. -/
def validate (nx : Option Networkx) (g : TaskGraph) : Option ValidationReport :=
  g.disconnected.map fun orphans =>
    { issues := g.cycles nx ++ orphans ++ g.missingDeps ++ g.nodeFields ++ g.edgeFields ++
        g.conditions
      graphId := g.graphId }

/-- `validate_graph` accepts the graph. -/
def Valid (nx : Option Networkx) (g : TaskGraph) : Prop :=
  (g.validate nx).any ValidationReport.ok = true

instance (nx : Option Networkx) (g : TaskGraph) : Decidable (g.Valid nx) :=
  inferInstanceAs (Decidable (_ = true))

-- ------ What acceptance means

end TaskGraph

def Parses (c : Option RawCondition) : Prop := ∀ e, c ≠ some (.error e)

structure TaskNode.FieldsOk (node : TaskNode) : Prop where
  hasId : node.id ≠ ""
  timeout : ∀ t, node.timeout = some t → 0 < t
  memory : 0 ≤ node.memoryRequirement
  cost : 0 ≤ node.estimatedCost
  latency : 0 ≤ node.estimatedLatency
  retry : node.retryPolicy.modelValidate = .ok ()
  condition : Parses node.condition

theorem TaskNode.FieldsOk.maxAttempts_pos {node : TaskNode} (h : node.FieldsOk) :
    0 < node.retryPolicy.maxAttempts := by
  have hRetry := h.retry
  unfold RetryPolicy.modelValidate at hRetry
  split at hRetry
  · cases hRetry
  · omega

/-- What a node names in its own lists exists among `ids`. -/
structure TaskNode.LinksWithin (node : TaskNode) (ids : List NodeId) : Prop where
  dependencies : ∀ d ∈ node.dependencies, d ∈ ids
  children : ∀ c ∈ node.children, c ∈ ids

/-- A graph without errors. -/
structure TaskGraph.WellFormed (g : TaskGraph) : Prop where
  acyclic : EdgeList.Acyclic g.Precedes
  endpoints : ∀ e ∈ g.edges, e.src ∈ g.ids ∧ e.dst ∈ g.ids
  noLoop : ∀ e ∈ g.edges, e.src ≠ e.dst
  edgeConditions : ∀ e ∈ g.edges, Parses e.condition
  fields : ∀ nid node, g.nodes.get? nid = some node → node.FieldsOk
  links : ∀ nid node, g.nodes.get? nid = some node → node.LinksWithin g.ids

def ErrorFree (l : List ValidationIssue) : Prop := ∀ i ∈ l, i.severity ≠ .error

namespace ErrorFree

theorem append_iff {l l' : List ValidationIssue} :
    ErrorFree (l ++ l') ↔ ErrorFree l ∧ ErrorFree l' := by
  unfold ErrorFree
  simp only [List.forall_mem_append]

theorem nil : ErrorFree [] := fun _ hi => absurd hi List.not_mem_nil

theorem map_iff {α : Type*} {l : List α} {f : α → ValidationIssue}
    (hf : ∀ a, (f a).severity = .error) : ErrorFree (l.map f) ↔ l = [] := by
  cases l with
  | nil => exact ⟨fun _ => rfl, fun _ => nil⟩
  | cons a l =>
    constructor
    · intro h
      exact absurd (hf a) (h (f a) (List.mem_cons_self ..))
    · intro h
      cases h

theorem flatMap_iff {α : Type*} {l : List α} {f : α → List ValidationIssue} :
    ErrorFree (l.flatMap f) ↔ ∀ a ∈ l, ErrorFree (f a) := by
  unfold ErrorFree
  simp only [List.mem_flatMap]
  constructor
  · intro h a ha i hi
    exact h i ⟨a, ha, hi⟩
  · rintro h i ⟨a, ha, hi⟩
    exact h a ha i hi

theorem ite_iff {p : Prop} [Decidable p] {i : ValidationIssue} (hi : i.severity = .error) :
    ErrorFree (if p then [i] else []) ↔ ¬ p := by
  by_cases hp : p
  · rw [if_pos hp]
    exact ⟨fun h => absurd hi (h i (List.mem_singleton_self i)), fun h => absurd hp h⟩
  · rw [if_neg hp]
    exact ⟨fun _ => hp, fun _ => nil⟩

end ErrorFree

theorem ValidationReport.ok_iff {r : ValidationReport} : r.ok = true ↔ ErrorFree r.issues := by
  unfold ValidationReport.ok ErrorFree
  rw [Bool.not_eq_true', List.any_eq_false]
  simp only [decide_eq_true_eq]

theorem parses_iff {c : Option RawCondition} {n : Option NodeId} {e : Option (NodeId × NodeId)} :
    ErrorFree (TaskGraph.conditionIssue n e c) ↔ Parses c := by
  unfold Parses
  match c with
  | none => exact ⟨fun _ _ => nofun, fun _ => ErrorFree.nil⟩
  | some (.ok c) => exact ⟨fun _ _ => nofun, fun _ => ErrorFree.nil⟩
  | some (.error text) =>
    exact ⟨fun h => absurd rfl (h _ (List.mem_singleton_self _)), fun h => absurd rfl (h text)⟩

theorem TaskNode.validateNode_nil_iff {node : TaskNode} :
    node.validateNode = [] ↔
      node.id ≠ "" ∧ (∀ t, node.timeout = some t → 0 < t) ∧ 0 ≤ node.memoryRequirement ∧
        0 ≤ node.estimatedCost ∧ 0 ≤ node.estimatedLatency ∧
        node.retryPolicy.modelValidate = .ok () := by
  unfold TaskNode.validateNode
  have hTimeout : (node.timeout.any (· ≤ 0) = true) ↔ ¬ ∀ t, node.timeout = some t → 0 < t := by
    cases node.timeout <;> simp
  have hIte : ∀ (p : Prop) [Decidable p] (msg : String), (if p then [msg] else []) = [] ↔ ¬ p := by
    intro p _ msg
    split <;> simp_all
  simp only [List.append_eq_nil_iff, hIte, hTimeout, not_not, not_lt, and_assoc]
  cases node.retryPolicy.modelValidate <;> simp

theorem nodeIssues_iff {nid : NodeId} {node : TaskNode} :
    ErrorFree (TaskGraph.nodeIssues nid node) ∧ Parses node.condition ↔ node.FieldsOk := by
  unfold TaskGraph.nodeIssues
  rw [ErrorFree.append_iff, ErrorFree.append_iff, ErrorFree.map_iff fun _ => rfl,
    ErrorFree.ite_iff rfl, TaskNode.validateNode_nil_iff]
  constructor
  · rintro ⟨⟨⟨⟨hId, hTimeout, hMemory, hCost, hLatency, hRetry⟩, -⟩, -⟩, hCondition⟩
    exact ⟨hId, hTimeout, hMemory, hCost, hLatency, hRetry, hCondition⟩
  · intro h
    refine ⟨⟨⟨⟨h.hasId, h.timeout, h.memory, h.cost, h.latency, h.retry⟩, ?_⟩, ?_⟩, h.condition⟩
    · rw [h.retry]
      exact ErrorFree.nil
    · cases hT : node.timeout with
      | none => simp
      | some t => simpa using h.timeout t hT

namespace TaskGraph

variable {g : TaskGraph}

theorem forall_nodes_iff {P : NodeId → TaskNode → Prop} :
    (∀ e ∈ g.nodes.entries, P e.1 e.2) ↔ ∀ nid node, g.nodes.get? nid = some node → P nid node := by
  constructor
  · intro h nid node hGet
    exact h (nid, node) (Dict.mem_entries_iff.mpr hGet)
  · rintro h ⟨nid, node⟩ he
    exact h nid node (Dict.mem_entries_iff.mp he)

theorem missingDependencies_nil_iff :
    g.missingDependencies = [] ↔
      (∀ e ∈ g.edges, e.src ∈ g.ids ∧ e.dst ∈ g.ids) ∧
        ∀ e ∈ g.nodes.entries, ∀ d ∈ e.2.dependencies, d ∈ g.ids := by
  unfold missingDependencies
  rw [List.append_eq_nil_iff, List.flatMap_eq_nil_iff, List.flatMap_eq_nil_iff]
  refine and_congr (forall₂_congr fun e _ => ?_) (forall₂_congr fun e _ => ?_)
  · rw [List.append_eq_nil_iff]
    by_cases hSrc : e.src ∈ g.ids <;> by_cases hDst : e.dst ∈ g.ids <;> simp [hSrc, hDst]
  · rw [List.map_eq_nil_iff, List.filter_eq_nil_iff]
    simp

theorem missingDeps_iff :
    ErrorFree g.missingDeps ↔
      (∀ e ∈ g.edges, e.src ∈ g.ids ∧ e.dst ∈ g.ids) ∧
        ∀ e ∈ g.nodes.entries, e.2.LinksWithin g.ids := by
  unfold missingDeps
  rw [ErrorFree.append_iff, ErrorFree.map_iff fun _ => rfl, missingDependencies_nil_iff,
    ErrorFree.flatMap_iff, and_assoc]
  refine and_congr Iff.rfl ?_
  rw [← forall₂_and]
  refine forall₂_congr fun e _ => ?_
  rw [ErrorFree.map_iff fun _ => rfl, List.filter_eq_nil_iff]
  constructor
  · rintro ⟨hDeps, hChildren⟩
    exact ⟨hDeps, fun c hc => by simpa using hChildren c hc⟩
  · intro h
    exact ⟨h.dependencies, fun c hc => by simpa using h.children c hc⟩

theorem WellFormed.closed (h : g.WellFormed) : g.Closed := by
  intro u v huv
  obtain ⟨e, he, -, rfl, rfl⟩ := precedes_iff.mp huv
  exact h.endpoints e he

theorem errorFree_disconnected {orphans : List ValidationIssue} (h : g.disconnected = some orphans)
    : ErrorFree orphans := by
  unfold disconnected at h
  split at h
  · cases h
    exact ErrorFree.nil
  · obtain ⟨comps, -, rfl⟩ := Option.map_eq_some_iff.mp h
    rw [ErrorFree.append_iff]
    constructor
    · intro i hi
      obtain ⟨nid, -, rfl⟩ := List.mem_map.mp hi
      exact nofun
    · intro i hi
      split at hi
      · rw [List.mem_singleton.mp hi]
        exact nofun
      · cases hi

theorem exists_disconnected (h : g.Closed) :
    ∃ orphans, g.disconnected = some orphans := by
  unfold disconnected connectedComponents
  split
  · exact ⟨_, rfl⟩
  · rw [if_pos (all_blocking_iff.mpr h)]
    exact ⟨_, rfl⟩

/-- **Acceptance.** The validator finds no error exactly in the well-formed graphs. -/
theorem valid_iff {nx : Option Networkx} : g.Valid nx ↔ g.WellFormed := by
  have hIssues : ∀ orphans, g.disconnected = some orphans →
      (g.Valid nx ↔ ErrorFree (g.cycles nx) ∧ ErrorFree g.missingDeps ∧ ErrorFree g.nodeFields ∧
        ErrorFree g.edgeFields ∧ ErrorFree g.conditions) := by
    intro orphans hOrphans
    unfold Valid validate
    rw [hOrphans, Option.map_some, Option.any_some, ValidationReport.ok_iff]
    simp only [ErrorFree.append_iff, errorFree_disconnected hOrphans, and_true, and_assoc]
  have hParts : (ErrorFree g.missingDeps ∧ ErrorFree g.nodeFields ∧ ErrorFree g.edgeFields ∧
      ErrorFree g.conditions) ↔
      (∀ e ∈ g.edges, e.src ∈ g.ids ∧ e.dst ∈ g.ids) ∧ (∀ e ∈ g.edges, e.src ≠ e.dst) ∧
        (∀ e ∈ g.edges, Parses e.condition) ∧
        (∀ nid node, g.nodes.get? nid = some node → node.FieldsOk) ∧
        ∀ nid node, g.nodes.get? nid = some node → node.LinksWithin g.ids := by
    unfold nodeFields edgeFields conditions
    rw [missingDeps_iff, ErrorFree.append_iff, ErrorFree.flatMap_iff, ErrorFree.flatMap_iff,
      ErrorFree.flatMap_iff, ErrorFree.map_iff fun _ => rfl, List.filter_eq_nil_iff]
    have hNode : (∀ e ∈ g.nodes.entries, e.2.FieldsOk) ↔
        (∀ e ∈ g.nodes.entries, ErrorFree (nodeIssues e.1 e.2)) ∧
          ∀ e ∈ g.nodes.entries, Parses e.2.condition := by
      rw [← forall₂_and]
      exact forall₂_congr fun e _ => nodeIssues_iff.symm
    simp only [parses_iff, decide_eq_true_eq, ← forall_nodes_iff, hNode]
    tauto
  constructor
  · intro h
    -- the report exists, so the edges join nodes and `is_dag` means acyclic
    have hSome : ∃ orphans, g.disconnected = some orphans := by
      cases hO : g.disconnected with
      | some orphans => exact ⟨orphans, rfl⟩
      | none =>
        unfold Valid validate at h
        rw [hO] at h
        cases h
    obtain ⟨orphans, hOrphans⟩ := hSome
    obtain ⟨hCycles, hRest⟩ := (hIssues orphans hOrphans).mp h
    obtain ⟨hEnds, hLoop, hConds, hFields, hLinks⟩ := hParts.mp hRest
    have hClosed : g.Closed := by
      intro u v huv
      obtain ⟨e, he, -, rfl, rfl⟩ := precedes_iff.mp huv
      exact hEnds e he
    have hDag : g.isDag nx = true := by
      unfold cycles at hCycles
      split at hCycles
      · assumption
      · exact absurd rfl (hCycles _ (List.mem_singleton_self _))
    exact ⟨(isDag_iff nx hClosed).mp hDag, hEnds, hLoop, hConds, hFields, hLinks⟩
  · intro h
    obtain ⟨orphans, hOrphans⟩ := exists_disconnected h.closed
    refine (hIssues orphans hOrphans).mpr ⟨?_, hParts.mpr
      ⟨h.endpoints, h.noLoop, h.edgeConditions, h.fields, h.links⟩⟩
    unfold cycles
    rw [if_pos ((isDag_iff nx h.closed).mpr h.acyclic)]
    exact ErrorFree.nil

end TaskGraph

end Neuroswarm.Swarm
