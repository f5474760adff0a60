import Neuroswarm.Lib.Fallible
import Neuroswarm.Lib.Json
import Neuroswarm.Swarm.Validator

/-!
# Task graph — validation of a graph as it is read in

`condition_from_dict` on the dicts themselves, and `GraphValidator.validate` with the
exceptions that leave it. `TaskGraph` holds what a condition dict parses to; a
`GraphRecord` holds the dicts too.

A dict is a JSON value, as the serializer writes and reads it. The recursion limit of
the interpreter is left out.

* `validate_eq_ok_iff` — where no exception leaves the conditions, the record is
  validated as its graph is.
* `validate_reports_iff` — when there is a report, and it names every unknown node.
-/

namespace Neuroswarm.Swarm

-- ------ `condition_from_dict`

inductive ExceptionClass where
  | conditionError
  | keyError
  | typeError
  | valueError
  | attributeError
  | overflowError
  deriving DecidableEq, Repr

structure Raised where
  cls : ExceptionClass
  text : String
  deriving DecidableEq, Repr

/-- What the built-in functions make of a value, as far as a text depends on it. -/
structure Builtins where
  str : Json → String
  repr : String → String
  readsFloat : String → Bool

/-- `type(value).__name__`. -/
def typeName : Json → String
  | .null => "NoneType"
  | .bool _ => "bool"
  | .int _ => "int"
  | .float _ => "float"
  | .str _ => "str"
  | .list _ => "list"
  | .dict _ => "dict"

/-- `bool(value)`. -/
def isTruthy : Json → Bool
  | .null => false
  | .bool b => b
  | .int n => n ≠ 0
  | .float x => x.text ≠ "0.0".toList ∧ x.text ≠ "-0.0".toList
  | .str s => s ≠ ""
  | .list xs => !xs.isEmpty
  | .dict ms => !ms.isEmpty

/-- The least integer that `float` rounds to an infinity. -/
def floatLimit : Nat := 2 ^ 1024 - 2 ^ 970

/-- `float(value)`, whether it raises. -/
def toFloat (b : Builtins) : Json → Except Raised Unit
  | .bool _ | .float _ => .ok ()
  | .int n =>
    if n.natAbs < floatLimit then .ok ()
    else .error ⟨.overflowError, "int too large to convert to float"⟩
  | .str s =>
    if b.readsFloat s then .ok ()
    else .error ⟨.valueError, "could not convert string to float: " ++ b.repr s⟩
  | value =>
    .error ⟨.typeError,
      s!"float() argument must be a string or a real number, not '{typeName value}'"⟩

/-- `cls(*value)` of a class that takes any arguments. -/
def unpack (cls : String) : Json → Except Raised Unit
  | .list _ | .str _ | .dict _ => .ok ()
  | value =>
    .error ⟨.typeError, "neuroswarm_arm.runtime.swarm.task_graph.conditions." ++ cls ++
      s!"() argument after * must be an iterable, not {typeName value}"⟩

/-- `data[key]`, handed on to `f`. -/
def require (ms : List (String × Json)) (key : String) (f : Json → Except Raised Unit) :
    Except Raised Unit :=
  match ms.lookup key with
  | some value => f value
  | none => .error ⟨.keyError, s!"'{key}'"⟩

/-- What is no mapping has no `get`. -/
def withoutGet (value : Json) : Except Raised Unit :=
  if isTruthy value then
    .error ⟨.attributeError, s!"'{typeName value}' object has no attribute 'get'"⟩
  else .ok ()

mutual

/-- `condition_from_dict(data)`, whether it raises; the validator drops the condition. -/
def conditionFromDict (b : Builtins) : Json → Except Raised Unit
  | .dict [] => .ok ()
  | .dict (m :: ms) =>
    match ((m :: ms).lookup "kind").getD (.str "always") with
    | .str "always" | .str "never" => .ok ()
    | .str "success" => unpack "Success" (((m :: ms).lookup "node_ids").getD (.list []))
    | .str "failure" => unpack "Failure" (((m :: ms).lookup "node_ids").getD (.list []))
    | .str "confidence_threshold" => require (m :: ms) "threshold" (toFloat b)
    | .str "budget_threshold" => require (m :: ms) "max_cost_usd" (toFloat b)
    | .str "latency_threshold" => require (m :: ms) "max_latency_ms" (toFloat b)
    | .str "memory_threshold" => require (m :: ms) "max_pressure" (toFloat b)
    | .str "tool_availability" =>
      unpack "ToolAvailability" (((m :: ms).lookup "tools").getD (.list []))
    | .str "model_availability" =>
      unpack "ModelAvailability" (((m :: ms).lookup "models").getD (.list []))
    | .str "custom" => require (m :: ms) "name" fun _ => .ok ()
    | .str "and" | .str "or" => childrenOf b (m :: ms)
    | .str "not" => childOf b (m :: ms)
    | kind => .error ⟨.conditionError, s!"unknown condition kind: {b.str kind}"⟩
  | value => withoutGet value

/-- `condition_from_dict(data["child"])`. -/
def childOf (b : Builtins) : List (String × Json) → Except Raised Unit
  | [] => .error ⟨.keyError, "'child'"⟩
  | (key, value) :: ms => if key = "child" then conditionFromDict b value else childOf b ms

/-- `condition_from_dict(c) for c in data.get("children", [])`. -/
def childrenOf (b : Builtins) : List (String × Json) → Except Raised Unit
  | [] => .ok ()
  | (key, value) :: ms => if key = "children" then eachOf b value else childrenOf b ms

/-- What is iterated: the items of a list, the characters of a text, the keys of a dict. -/
def eachOf (b : Builtins) : Json → Except Raised Unit
  | .list xs => eachItem b xs
  | .str s => s.toList.forM fun c => withoutGet (.str c.toString)
  | .dict ms => ms.forM fun m => withoutGet (.str m.1)
  | value => .error ⟨.typeError, s!"'{typeName value}' object is not iterable"⟩

def eachItem (b : Builtins) : List Json → Except Raised Unit
  | [] => .ok ()
  | x :: xs => do
    conditionFromDict b x
    eachItem b xs

end

/-- The exceptions that `_conditions` makes an issue of. -/
def caughtClasses : List ExceptionClass := [.conditionError, .keyError, .typeError, .valueError]

/-- Parsing the dict raises nothing that `_conditions` lets through. -/
def Caught (b : Builtins) (data : Json) : Prop :=
  ∀ e, conditionFromDict b data = .error e → e.cls ∈ caughtClasses

-- ------ Records

inductive ParsesTo (b : Builtins) : Option Json → Option RawCondition → Prop
  | absent : ParsesTo b none none
  | parsed {data : Json} (c : Condition) (h : conditionFromDict b data = .ok ()) :
      ParsesTo b (some data) (some (.ok c))
  | raised {data : Json} {e : Raised} (h : conditionFromDict b data = .error e) :
      ParsesTo b (some data) (some (.error e.text))

structure GraphRecord (b : Builtins) where
  graph : TaskGraph
  nodeConditions : NodeId → Option Json
  edgeConditions : List (Option Json)
  nodesParse : ∀ e ∈ graph.nodes.entries, ParsesTo b (nodeConditions e.1) e.2.condition
  edgesParse : List.Forall₂ (fun e data => ParsesTo b data e.condition) graph.edges edgeConditions

namespace GraphRecord

variable {b : Builtins}

def conditionIssue (b : Builtins) (nodeId : Option NodeId) (edge : Option (NodeId × NodeId)) :
    Option Json → Except ExceptionClass (List ValidationIssue)
  | none => .ok []
  | some data =>
    match conditionFromDict b data with
    | .ok _ => .ok []
    | .error e =>
      if e.cls ∈ caughtClasses then
        .ok [{ code := "INVALID_CONDITION", message := e.text, nodeId := nodeId, edge := edge }]
      else .error e.cls

def ofNode (r : GraphRecord b) (entry : NodeId × TaskNode) :
    Except ExceptionClass (List ValidationIssue) :=
  conditionIssue b (some entry.1) none (r.nodeConditions entry.1)

def ofEdge (b : Builtins) (entry : TaskEdge × Option Json) :
    Except ExceptionClass (List ValidationIssue) :=
  conditionIssue b none (some (entry.1.src, entry.1.dst)) entry.2

/-- `_conditions`: first those of the nodes, then those of the edges. -/
def conditions (r : GraphRecord b) : Except ExceptionClass (List ValidationIssue) := do
  let ofNodes ← r.graph.nodes.entries.mapM r.ofNode
  let ofEdges ← (r.graph.edges.zip r.edgeConditions).mapM (ofEdge b)
  return ofNodes.flatten ++ ofEdges.flatten

/-- `GraphValidator().validate(graph)`, the checks one after the other. -/
def validate (nx : Option Networkx) (r : GraphRecord b) :
    Except ExceptionClass ValidationReport := do
  let cycles := r.graph.cycles nx
  let orphans ← match r.graph.disconnected with
    | some orphans => .ok orphans
    | none => .error .keyError
  let issues := cycles ++ orphans ++ r.graph.missingDeps ++ r.graph.nodeFields ++ r.graph.edgeFields
  let conditions ← r.conditions
  return { issues := issues ++ conditions, graphId := r.graph.graphId }

/-- The conditions of the graph raise nothing that `_conditions` lets through. -/
structure ConditionsCaught (r : GraphRecord b) : Prop where
  nodes : ∀ e ∈ r.graph.nodes.entries, ∀ data, r.nodeConditions e.1 = some data → Caught b data
  edges : ∀ condition ∈ r.edgeConditions, ∀ data, condition = some data → Caught b data

-- ------ The conditions of a record and those of its graph

variable {condition : Option Json}

theorem conditionIssue_isOk {n : Option NodeId} {e : Option (NodeId × NodeId)} :
    (conditionIssue b n e condition).isOk = true ↔
      ∀ data, condition = some data → Caught b data := by
  cases condition with
  | none => exact iff_of_true rfl nofun
  | some data =>
    cases hParse : conditionFromDict b data with
    | ok _ =>
      have hIssue : conditionIssue b n e (some data) = .ok [] := by
        simp only [conditionIssue, hParse]
      rw [hIssue]
      refine iff_of_true rfl fun d hd raised hRaised => ?_
      cases hd
      rw [hParse] at hRaised
      cases hRaised
    | error raised =>
      have hCaught : (∀ d, some data = some d → Caught b d) ↔ raised.cls ∈ caughtClasses := by
        constructor
        · intro h
          exact h data rfl raised hParse
        · intro h d hd raised' hRaised
          cases hd
          rw [hParse] at hRaised
          cases hRaised
          exact h
      rw [hCaught]
      simp only [conditionIssue, hParse]
      split
      · next h => exact iff_of_true rfl h
      · next h => exact iff_of_false nofun h

theorem conditionIssue_eq {n : Option NodeId} {e : Option (NodeId × NodeId)}
    {c : Option RawCondition} (h : ParsesTo b condition c)
    (hCaught : ∀ data, condition = some data → Caught b data) :
    conditionIssue b n e condition = .ok (TaskGraph.conditionIssue n e c) := by
  cases h with
  | absent => rfl
  | parsed c hParse => simp only [conditionIssue, hParse, TaskGraph.conditionIssue]
  | raised hParse =>
    have hCls := hCaught _ rfl _ hParse
    simp only [conditionIssue, hParse, TaskGraph.conditionIssue, if_pos hCls]

variable {r : GraphRecord b}

theorem mem_edgeConditions :
    condition ∈ r.edgeConditions ↔
      ∃ e, (e, condition) ∈ r.graph.edges.zip r.edgeConditions := by
  have hSnd : (r.graph.edges.zip r.edgeConditions).map Prod.snd = r.edgeConditions :=
    List.map_snd_zip r.edgesParse.length_eq.ge
  constructor
  · intro h
    rw [← hSnd] at h
    obtain ⟨⟨e, _⟩, hMem, rfl⟩ := List.mem_map.mp h
    exact ⟨e, hMem⟩
  · rintro ⟨e, he⟩
    exact (List.of_mem_zip he).2

theorem conditions_isOk :
    r.conditions.isOk = true ↔ r.ConditionsCaught := by
  have hNodes : (r.graph.nodes.entries.mapM r.ofNode).isOk = true ↔
      ∀ e ∈ r.graph.nodes.entries, ∀ data, r.nodeConditions e.1 = some data → Caught b data := by
    rw [Except.mapM_isOk]
    exact forall₂_congr fun e _ => conditionIssue_isOk
  have hEdges : ((r.graph.edges.zip r.edgeConditions).mapM (ofEdge b)).isOk = true ↔
      ∀ condition ∈ r.edgeConditions, ∀ data, condition = some data → Caught b data := by
    rw [Except.mapM_isOk]
    constructor
    · intro h condition hMem
      obtain ⟨e, he⟩ := mem_edgeConditions.mp hMem
      exact conditionIssue_isOk.mp (h _ he)
    · intro h p hp
      exact conditionIssue_isOk.mpr (h _ (mem_edgeConditions.mpr ⟨p.1, hp⟩))
  rw [Except.isOk_iff]
  constructor
  · rintro ⟨issues, h⟩
    obtain ⟨ofNodes, hOfNodes, h⟩ := Except.bind_eq_ok.mp h
    obtain ⟨ofEdges, hOfEdges, -⟩ := Except.bind_eq_ok.mp h
    exact ⟨hNodes.mp (Except.isOk_iff.mpr ⟨_, hOfNodes⟩),
      hEdges.mp (Except.isOk_iff.mpr ⟨_, hOfEdges⟩)⟩
  · intro h
    obtain ⟨ofNodes, hOfNodes⟩ := Except.isOk_iff.mp (hNodes.mpr h.nodes)
    obtain ⟨ofEdges, hOfEdges⟩ := Except.isOk_iff.mp (hEdges.mpr h.edges)
    exact ⟨_, Except.bind_eq_ok.mpr ⟨_, hOfNodes, Except.bind_eq_ok.mpr ⟨_, hOfEdges, rfl⟩⟩⟩

theorem conditions_eq (h : r.ConditionsCaught) :
    r.conditions = .ok r.graph.conditions := by
  have hNodes : r.graph.nodes.entries.mapM r.ofNode = .ok (r.graph.nodes.entries.map fun e =>
      TaskGraph.conditionIssue (some e.1) none e.2.condition) :=
    Except.mapM_eq_ok fun e he => conditionIssue_eq (r.nodesParse e he) (h.nodes e he)
  have hEdges : (r.graph.edges.zip r.edgeConditions).mapM (ofEdge b) =
      .ok ((r.graph.edges.zip r.edgeConditions).map fun p =>
        TaskGraph.conditionIssue none (some (p.1.src, p.1.dst)) p.1.condition) :=
    Except.mapM_eq_ok fun p hp => conditionIssue_eq
      ((List.forall₂_iff_zip.mp r.edgesParse).2 hp) (h.edges p.2 (List.of_mem_zip hp).2)
  have hFst : (r.graph.edges.zip r.edgeConditions).map Prod.fst = r.graph.edges :=
    List.map_fst_zip r.edgesParse.length_eq.le
  have hIssues : ((r.graph.edges.zip r.edgeConditions).map fun p =>
      TaskGraph.conditionIssue none (some (p.1.src, p.1.dst)) p.1.condition) =
      r.graph.edges.map fun e =>
        TaskGraph.conditionIssue none (some (e.src, e.dst)) e.condition := by
    conv_rhs => rw [← hFst, List.map_map]
    rfl
  rw [hIssues] at hEdges
  refine Except.bind_eq_ok.mpr ⟨_, hNodes, Except.bind_eq_ok.mpr ⟨_, hEdges, ?_⟩⟩
  unfold TaskGraph.conditions
  rw [List.flatMap_def, List.flatMap_def]
  rfl

theorem validate_eq_ok_iff {nx : Option Networkx} {report : ValidationReport} :
    r.validate nx = .ok report ↔ r.ConditionsCaught ∧ r.graph.validate nx = some report := by
  have hValidate : r.validate nx = .ok report ↔
      ∃ orphans, r.graph.disconnected = some orphans ∧ ∃ issues, r.conditions = .ok issues ∧
        { issues := r.graph.cycles nx ++ orphans ++ r.graph.missingDeps ++ r.graph.nodeFields ++
            r.graph.edgeFields ++ issues
          graphId := r.graph.graphId } = report := by
    unfold validate
    cases r.graph.disconnected with
    | none => exact iff_of_false nofun (by simp)
    | some orphans =>
      refine Except.bind_eq_ok.trans ⟨?_, ?_⟩
      · rintro ⟨_, hOrphans, h⟩
        cases hOrphans
        obtain ⟨issues, hIssues, hEq⟩ := Except.bind_eq_ok.mp h
        exact ⟨_, rfl, issues, hIssues, Except.ok.inj hEq⟩
      · rintro ⟨_, hOrphans, issues, hIssues, hEq⟩
        cases hOrphans
        exact ⟨_, rfl, Except.bind_eq_ok.mpr ⟨issues, hIssues, congrArg _ hEq⟩⟩
  rw [hValidate]
  unfold TaskGraph.validate
  rw [Option.map_eq_some_iff]
  constructor
  · rintro ⟨orphans, hOrphans, issues, hIssues, hEq⟩
    have hCaught : r.ConditionsCaught := conditions_isOk.mp (Except.isOk_iff.mpr ⟨_, hIssues⟩)
    rw [conditions_eq hCaught] at hIssues
    cases hIssues
    exact ⟨hCaught, orphans, hOrphans, hEq⟩
  · rintro ⟨hCaught, orphans, hOrphans, hEq⟩
    exact ⟨orphans, hOrphans, _, conditions_eq hCaught, hEq⟩

end GraphRecord

-- ------ Reports

namespace TaskGraph

def NamesMissing (report : ValidationReport) (edge : NodeId × NodeId) : Prop :=
  ∃ i ∈ report.issues, i.code = "MISSING_DEPENDENCY" ∧ i.severity = .error ∧ i.edge = some edge

structure Reported (g : TaskGraph) (report : ValidationReport) : Prop where
  endpoints : ∀ e ∈ g.edges, e.src ∉ g.ids ∨ e.dst ∉ g.ids → NamesMissing report (e.src, e.dst)
  dependencies : ∀ nid node, g.nodes.get? nid = some node →
    ∀ d ∈ node.dependencies, d ∉ g.ids → NamesMissing report (d, nid)

theorem mem_missingDependencies_of_edge {g : TaskGraph} {e : TaskEdge} (he : e ∈ g.edges)
    (h : e.src ∉ g.ids ∨ e.dst ∉ g.ids) : (e.src, e.dst) ∈ g.missingDependencies := by
  refine List.mem_append_left _ (List.mem_flatMap.mpr ⟨e, he, List.mem_append.mpr ?_⟩)
  rcases h with h | h
  · exact .inl (by simp [h])
  · exact .inr (by simp [h])

theorem mem_missingDependencies_of_dependency {g : TaskGraph} {nid d : NodeId} {node : TaskNode}
    (hNode : g.nodes.get? nid = some node) (hd : d ∈ node.dependencies) (h : d ∉ g.ids) :
    (d, nid) ∈ g.missingDependencies := by
  refine List.mem_append_right _
    (List.mem_flatMap.mpr ⟨(nid, node), Dict.mem_entries_iff.mpr hNode, ?_⟩)
  exact List.mem_map.mpr ⟨d, List.mem_filter.mpr ⟨hd, decide_eq_true h⟩, rfl⟩

theorem reported_of_validate {nx : Option Networkx} {g : TaskGraph} {report : ValidationReport}
    (h : g.validate nx = some report) : g.Reported report := by
  obtain ⟨orphans, -, rfl⟩ := Option.map_eq_some_iff.mp h
  have hNames : ∀ edge ∈ g.missingDependencies, NamesMissing
      { issues := g.cycles nx ++ orphans ++ g.missingDeps ++ g.nodeFields ++ g.edgeFields ++
          g.conditions
        graphId := g.graphId } edge := by
    intro edge hEdge
    refine ⟨{ code := "MISSING_DEPENDENCY", message := "edge or dependency references unknown node"
              edge := some edge }, ?_, rfl, rfl, rfl⟩
    have hMissing : { code := "MISSING_DEPENDENCY"
                      message := "edge or dependency references unknown node"
                      edge := some edge } ∈ g.missingDeps :=
      List.mem_append_left _ (List.mem_map_of_mem hEdge)
    simp only [List.mem_append]
    exact .inl (.inl (.inl (.inr hMissing)))
  exact ⟨fun e he hMissing => hNames _ (mem_missingDependencies_of_edge he hMissing),
    fun nid node hNode d hd hMissing =>
      hNames _ (mem_missingDependencies_of_dependency hNode hd hMissing)⟩

theorem disconnected_isSome {g : TaskGraph} :
    (∃ orphans, g.disconnected = some orphans) ↔ g.ids.length ≤ 1 ∨ g.Closed := by
  constructor
  · rintro ⟨orphans, h⟩
    unfold disconnected connectedComponents at h
    split at h
    · next hSmall => exact .inl hSmall
    · split at h
      · next hAll =>
        exact .inr (all_blocking_iff.mp hAll)
      · cases h
  · rintro (hSmall | hClosed)
    · exact ⟨[], if_pos hSmall⟩
    · exact exists_disconnected hClosed

end TaskGraph

/-- **Reports.** Validation ends in a report naming every unknown node exactly when one node
at most stands alone or the blocking edges join nodes, and no condition raises through. -/
theorem GraphRecord.validate_reports_iff (b : Builtins) (nx : Option Networkx)
    (r : GraphRecord b) :
    (∃ report, r.validate nx = .ok report ∧ r.graph.Reported report) ↔
      (r.graph.ids.length ≤ 1 ∨ r.graph.Closed) ∧ r.ConditionsCaught := by
  rw [← TaskGraph.disconnected_isSome]
  constructor
  · rintro ⟨report, h, -⟩
    obtain ⟨hCaught, hGraph⟩ := validate_eq_ok_iff.mp h
    obtain ⟨orphans, hOrphans, -⟩ := Option.map_eq_some_iff.mp hGraph
    exact ⟨⟨orphans, hOrphans⟩, hCaught⟩
  · rintro ⟨⟨orphans, hOrphans⟩, hCaught⟩
    have hGraph : ∃ report, r.graph.validate nx = some report := by
      unfold TaskGraph.validate
      rw [hOrphans]
      exact ⟨_, rfl⟩
    obtain ⟨report, hReport⟩ := hGraph
    exact ⟨report, validate_eq_ok_iff.mpr ⟨hCaught, hReport⟩,
      TaskGraph.reported_of_validate hReport⟩

/-- An edge from `a` to a node that is missing, beside a node `b`. -/
def danglingRecord : GraphRecord ⟨fun _ => "", id, fun _ => false⟩ where
  graph :=
    { graphId := "g"
      nodes := (Dict.empty.set "a" { id := "a" }).set "b" { id := "b" }
      edges := [{ src := "a", dst := "x" }] }
  nodeConditions _ := none
  edgeConditions := [none]
  nodesParse := by
    intro e he
    have hMem : e = ("a", { id := "a" }) ∨ e = ("b", { id := "b" }) := by
      simpa [Dict.set, Dict.setEntry, Dict.empty] using he
    rcases hMem with rfl | rfl
    · exact .absent
    · exact .absent
  edgesParse := .cons .absent .nil

/-- The missing node stops the validation before it is named. -/
theorem danglingRecord_unreported :
    ¬ ∃ report, danglingRecord.validate none = .ok report ∧
      danglingRecord.graph.Reported report := by
  rintro ⟨report, h, -⟩
  have hRaises : danglingRecord.validate none = .error .keyError := rfl
  rw [hRaises] at h
  cases h

end Neuroswarm.Swarm
