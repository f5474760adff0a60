import Mathlib.Tactic.NormNum
import Neuroswarm.Lib.Fallible
import Neuroswarm.Swarm.HaoeAdapter
import Neuroswarm.Swarm.Validator

/-!
# Task graph — what comes back from HAOE

A graph that goes to HAOE and back is the same, field by field, exactly when it holds
nothing that the translation cannot carry.

* `stash_run` — the conditions in the metadata of the targets, after the loop over the edges.
* `sameNode_iff`, `edgeFromHaoe_edgeToHaoe` — one node, one edge kind.
* `haoeRoundTrip_iff` — the whole graph.
-/

namespace Neuroswarm.Swarm.Adapter

-- ------ Statements

structure SameNode (node node' : SwarmNode) : Prop where
  id : node'.id = node.id
  handlerKey : node'.handlerKey = node.handlerKey
  timeout : node'.timeout = node.timeout
  retryPolicy : node'.retryPolicy = node.retryPolicy
  estimatedCost : node'.estimatedCost = node.estimatedCost
  estimatedLatency : node'.estimatedLatency = node.estimatedLatency
  memoryRequirement : node'.memoryRequirement = node.memoryRequirement
  condition : node'.condition = node.condition

structure SameEdge (edge edge' : SwarmEdge) : Prop where
  src : edge'.src = edge.src
  dst : edge'.dst = edge.dst
  kind : edge'.kind = edge.kind
  priorityBoost : edge'.priorityBoost = edge.priorityBoost
  condition : edge'.condition = edge.condition

structure Preserved (g g' : SwarmGraph) : Prop where
  ids : g'.nodes.keys = g.nodes.keys
  nodes : ∀ nid node, g.nodes.get? nid = some node →
    ∃ node', g'.nodes.get? nid = some node' ∧ SameNode node node'
  edges : List.Forall₂ SameEdge g.edges g'.edges

/-- The last condition that is not empty, of the edges from `src` to `dst`. -/
def lastCondition (edges : List SwarmEdge) (src dst : NodeId) : Option ConditionDict :=
  ((edges.filter fun e => e.src = src ∧ e.dst = dst).filterMap fun e =>
    e.condition.filter (!·.isEmpty)).getLast?

/-- The retry policy has nothing besides what HAOE has. -/
structure FullRetryPolicy.Carried (p : FullRetryPolicy) : Prop where
  backoffStrategy : p.backoffStrategy = .exponential
  jitter : p.jitter = true
  jitterRatio : p.jitterRatio = 1 / 10
  retryOnTimeout : p.retryOnTimeout = false
  retryOnFailure : p.retryOnFailure = true
  retryConditions : p.retryConditions = []

structure SwarmNode.Carried (node : SwarmNode) : Prop where
  handlerKey : ∃ key, node.handlerKey = some key ∧ (key = "" → node.name = "")
  retryPolicy : node.retryPolicy.Carried
  estimatedCost : node.estimatedCost ≠ 0

/-- A hard or conditional edge without a boost, whose condition is the last one of its
parallel edges or, if they have none, what the metadata of its target holds for it. -/
structure SwarmGraph.CarriesEdge (g : SwarmGraph) (edge : SwarmEdge) : Prop where
  kind : edge.kind = .hard ∨ edge.kind = .conditional
  priorityBoost : edge.priorityBoost = 0
  condition : ∀ node, g.nodes.get? edge.dst = some node →
    ∃ conditions, edgeConditions node.metadata = some conditions ∧
      match lastCondition g.edges edge.src edge.dst with
      | some condition => edge.condition = some condition
      | none => asCondition (conditions.lookup (conditionKey edge.src edge.dst)) =
          some edge.condition

/-- The graph holds nothing that the translation cannot carry. -/
structure SwarmGraph.Carried (numbers : Numbers) (g : SwarmGraph) : Prop where
  keyed : g.Keyed
  nodes : ∀ nid node, g.nodes.get? nid = some node → node.Carried
  attempts : ∀ nid node, g.nodes.get? nid = some node →
    (toInt numbers (node.attempts.getD (.int 0))).isSome
  edges : ∀ edge ∈ g.edges, g.CarriesEdge edge

-- ------ One node and one kind

theorem edgeFromHaoe_edgeToHaoe {kind : EdgeKind} :
    edgeFromHaoe (edgeToHaoe kind) = kind ↔ kind = .hard ∨ kind = .conditional := by
  cases kind <;> decide

theorem orText_iff {key : Option String} {name : String} :
    some (orText key name) = key ↔ ∃ text, key = some text ∧ (text = "" → name = "") := by
  unfold orText
  cases key with
  | none => simp
  | some text =>
    by_cases hEmpty : text = ""
    · simp [hEmpty]
    · simp [hEmpty]

theorem retryPolicy_iff {p : FullRetryPolicy} :
    ({ maxAttempts := p.maxAttempts, backoffBaseS := p.backoffBaseS
       backoffFactor := p.backoffFactor, backoffMaxS := p.backoffMaxS } : FullRetryPolicy) = p ↔
      p.Carried := by
  obtain ⟨⟨maxAttempts, base, factor, maxS, ratio, onTimeout, onFailure⟩, strategy, jitter,
    conditions⟩ := p
  constructor
  · intro h
    cases h
    exact ⟨rfl, rfl, rfl, rfl, rfl, rfl⟩
  · rintro ⟨hStrategy, hJitter, hRatio, hTimeout, hFailure, hConditions⟩
    cases hStrategy
    cases hJitter
    cases hRatio
    cases hTimeout
    cases hFailure
    cases hConditions
    rfl

variable {node : SwarmNode}

theorem sameNode_iff {attempts : ℤ} {others : Dict String Json} :
    SameNode node (swarmNode ((haoeNode node attempts).withOthers others)) ↔ node.Carried := by
  constructor
  · intro h
    refine ⟨orText_iff.mp h.handlerKey, retryPolicy_iff.mp h.retryPolicy, ?_⟩
    intro hZero
    have hCost : (if node.estimatedCost = 0 then 1 else node.estimatedCost) =
        node.estimatedCost := h.estimatedCost
    rw [if_pos hZero, hZero] at hCost
    exact one_ne_zero hCost
  · intro h
    exact
      { id := rfl
        handlerKey := orText_iff.mpr h.handlerKey
        timeout := rfl
        retryPolicy := retryPolicy_iff.mpr h.retryPolicy
        estimatedCost := if_neg h.estimatedCost
        estimatedLatency := rfl
        memoryRequirement := rfl
        condition := rfl }

theorem accepted_of_fields {parse : ConditionDict → RawCondition}
    (h : (node.toTaskNode parse).FieldsOk) (attempts : ℤ) (others : Dict String Json) :
    (swarmNode ((haoeNode node attempts).withOthers others)).Accepted := by
  have hRetry : node.retryPolicy.modelValidate = .ok () := h.retry
  have hTimeout : ∀ t, node.timeout = some t → 0 < t := h.timeout
  constructor
  · show RetryPolicy.modelValidate
      { maxAttempts := node.retryPolicy.maxAttempts
        backoffBaseS := node.retryPolicy.backoffBaseS
        backoffFactor := node.retryPolicy.backoffFactor
        backoffMaxS := node.retryPolicy.backoffMaxS } = _
    unfold RetryPolicy.modelValidate at hRetry ⊢
    split at hRetry
    · cases hRetry
    · next hAttempts =>
      split at hRetry
      · cases hRetry
      · next hValues =>
        have hRatio : ¬ (1 / 10 : ℚ) < 0 := by norm_num
        rw [not_or, not_or, not_or] at hValues
        rw [if_neg hAttempts, if_neg]
        rw [not_or, not_or, not_or]
        exact ⟨hValues.1, hValues.2.1, hValues.2.2.1, hRatio⟩
  · show ¬ node.timeout.any (· ≤ 0) = true
    cases hT : node.timeout with
    | none => simp
    | some t => simpa using hTimeout t hT

-- ------ The conditions of edges

/-- What the metadata hold for an edge, if they can be read. -/
def heldFor (metadata : Dict String Json) (src dst : NodeId) : Option (Option Json) :=
  (edgeConditions metadata).map (·.lookup (conditionKey src dst))

theorem conditionKey_inj {src src' dst : NodeId} :
    conditionKey src dst = conditionKey src' dst ↔ src = src' := by
  constructor
  · intro h
    have hAppend := String.append_left_inj dst |>.mp h
    exact String.append_left_inj "->" |>.mp hAppend
  · rintro rfl
    rfl

theorem heldFor_stashed {metadata metadata' : Dict String Json} {src dst : NodeId}
    {condition : ConditionDict}
    (h : stashed metadata (conditionKey src dst) condition = some metadata') (src' : NodeId) :
    heldFor metadata' src' dst =
      (heldFor metadata src' dst).map fun held =>
        if src' = src then some (.dict condition) else held := by
  obtain ⟨conditions, hConditions, rfl⟩ := Option.map_eq_some_iff.mp h
  have hSet : edgeConditions (metadata.set "_swarm_edge_conditions"
      (.dict (Dict.setEntry (conditionKey src dst) (.dict condition) conditions))) =
      some (Dict.setEntry (conditionKey src dst) (.dict condition) conditions) := by
    unfold edgeConditions
    rw [Dict.get?_set, if_pos rfl]
    rfl
  unfold heldFor
  rw [hSet, hConditions]
  simp only [Option.map_some, Dict.lookup_setEntry, conditionKey_inj]

theorem lastCondition_concat (edges : List SwarmEdge) (edge : SwarmEdge) (src dst : NodeId) :
    lastCondition (edges ++ [edge]) src dst =
      if edge.src = src ∧ edge.dst = dst then
        (edge.condition.filter (!·.isEmpty)).or (lastCondition edges src dst)
      else lastCondition edges src dst := by
  unfold lastCondition
  rw [List.filter_append, List.filterMap_append]
  split
  · next hBoth =>
    cases hCondition : edge.condition.filter (!·.isEmpty) with
    | none => simp [hBoth, hCondition]
    | some condition => simp [hBoth, hCondition]
  · next hOther => simp [hOther]

/-- The nodes after the conditions of these edges went to the metadata of their targets. -/
structure Stashed (edges : List SwarmEdge) (nodes nodes' : Dict NodeId HaoeNode) : Prop where
  keys : nodes'.keys = nodes.keys
  node : ∀ nid h, nodes.get? nid = some h → ∃ others, nodes'.get? nid = some (h.withOthers others) ∧
    ∀ src, heldFor others src nid = (heldFor h.metadata.others src nid).map fun held =>
      ((lastCondition edges src nid).map Json.dict).or held

variable {nodes : Dict NodeId HaoeNode}

theorem keys_set_of_some {nid : NodeId} {h : HaoeNode} (hGet : nodes.get? nid = some h)
    (h' : HaoeNode) : (nodes.set nid h').keys = nodes.keys := by
  have hMem : nid ∈ nodes.entries.map Prod.fst := Dict.mem_keys_iff.mpr (hGet ▸ rfl)
  unfold Dict.keys Dict.set
  rw [Dict.map_fst_setEntry, if_pos hMem]

theorem Stashed.refl (nodes : Dict NodeId HaoeNode) : Stashed [] nodes nodes where
  keys := rfl
  node nid h hGet := ⟨h.metadata.others, hGet, fun src => by simp [lastCondition]⟩

variable {edges : List SwarmEdge}

theorem Stashed.concat {edge : SwarmEdge} {nodes' nodes'' : Dict NodeId HaoeNode}
    (hRun : Stashed edges nodes nodes') (hStep : stash nodes' edge = some nodes'') :
    Stashed (edges ++ [edge]) nodes nodes'' := by
  unfold stash at hStep
  split at hStep
  · next condition dst hCondition hDst =>
    obtain ⟨others', hStashed, rfl⟩ := Option.map_eq_some_iff.mp hStep
    refine ⟨(keys_set_of_some hDst _).trans hRun.keys, fun nid h hGet => ?_⟩
    obtain ⟨others, hGet', hHeld⟩ := hRun.node nid h hGet
    by_cases hTarget : nid = edge.dst
    · subst hTarget
      cases hDst.symm.trans hGet'
      refine ⟨others', by rw [Dict.get?_set, if_pos rfl]; rfl, fun src => ?_⟩
      have hSet := heldFor_stashed hStashed src
      rw [hSet, lastCondition_concat, hCondition]
      show (heldFor others src edge.dst).map _ = _
      rw [hHeld, Option.map_map]
      refine congrArg (fun f => Option.map f _) (funext fun held => ?_)
      by_cases hSrc : src = edge.src
      · simp [hSrc]
      · simp [hSrc, Ne.symm hSrc]
    · refine ⟨others, by rw [Dict.get?_set, if_neg hTarget]; exact hGet', fun src => ?_⟩
      rw [hHeld, lastCondition_concat, if_neg fun hBoth => hTarget hBoth.2.symm]
  · next hNothing =>
    cases hStep
    refine ⟨hRun.keys, fun nid h hGet => ?_⟩
    obtain ⟨others, hGet', hHeld⟩ := hRun.node nid h hGet
    refine ⟨others, hGet', fun src => ?_⟩
    rw [hHeld, lastCondition_concat]
    split
    · next hBoth =>
      -- the target is there, so there was nothing to store
      have hEmpty : edge.condition.filter (!·.isEmpty) = none := by
        cases hCondition : edge.condition.filter (!·.isEmpty) with
        | none => rfl
        | some condition => exact (hNothing condition _ hCondition (hBoth.2 ▸ hGet')).elim
      rw [hEmpty]
      rfl
    · rfl

theorem stash_run {nodes' : Dict NodeId HaoeNode} (h : edges.foldlM stash nodes = some nodes') :
    Stashed edges nodes nodes' := by
  induction edges using List.reverseRecOn generalizing nodes' with
  | nil =>
    cases h
    exact .refl nodes
  | append_singleton edges edge ih =>
    rw [List.foldlM_append] at h
    obtain ⟨between, hRun, hStep⟩ := Option.bind_eq_some_iff.mp h
    obtain ⟨last, hLast, hEq⟩ := Option.bind_eq_some_iff.mp hStep
    cases hEq
    exact (ih hRun).concat hLast

theorem exists_stash_run (h : ∀ e ∈ edges, ∀ node, nodes.get? e.dst = some node →
      (edgeConditions node.metadata.others).isSome) :
    ∃ nodes', edges.foldlM stash nodes = some nodes' := by
  induction edges using List.reverseRecOn with
  | nil => exact ⟨nodes, rfl⟩
  | append_singleton edges edge ih =>
    obtain ⟨between, hRun⟩ := ih fun e he => h e (List.mem_append_left _ he)
    have hStep : ∃ nodes', stash between edge = some nodes' := by
      unfold stash
      split
      · next condition dst hCondition hDst =>
        have hKey : (nodes.get? edge.dst).isSome := by
          rw [← Dict.mem_keys_iff, ← (stash_run hRun).keys, Dict.mem_keys_iff, hDst]
          rfl
        obtain ⟨node, hNode⟩ := Option.isSome_iff_exists.mp hKey
        obtain ⟨others, hGet, hHeld⟩ := (stash_run hRun).node _ node hNode
        cases hDst.symm.trans hGet
        have hReads := h edge (by simp) node hNode
        have hSome : (edgeConditions others).isSome := by
          have hMap := congrArg Option.isSome (hHeld edge.src)
          unfold heldFor at hMap
          simpa [hReads] using hMap
        have hStashed : (stashed others (conditionKey edge.src edge.dst) condition).isSome := by
          unfold stashed
          rw [Option.isSome_map]
          exact hSome
        obtain ⟨others', hOthers'⟩ := Option.isSome_iff_exists.mp hStashed
        exact ⟨_, Option.map_eq_some_iff.mpr ⟨others', hOthers', rfl⟩⟩
      · exact ⟨_, rfl⟩
    obtain ⟨nodes', hNodes'⟩ := hStep
    refine ⟨nodes', ?_⟩
    rw [List.foldlM_append, hRun]
    show (stash between edge >>= fun s => [].foldlM stash s) = _
    rw [hNodes']
    rfl

-- ------ The nodes on the other side

section Nodes

variable {numbers : Numbers} {newId : String} {g : SwarmGraph} {hs : List HaoeNode}

theorem nodeId_of_get? {hs : List HaoeNode} {nid : NodeId} {h : HaoeNode}
    (hGet : (Dict.replay (hs.map fun h => (h.nodeId, h))).get? nid = some h) : h.nodeId = nid := by
  obtain ⟨h', -, hEq⟩ := List.mem_map.mp (Dict.mem_of_get?_replay hGet)
  cases hEq
  rfl

theorem get?_haoeNodes (hKeyed : g.Keyed)
    (hNodes : g.nodes.entries.mapM (fun e => toHaoeNode numbers e.2) = some hs) :
    (Dict.replay (hs.map fun h => (h.nodeId, h))).keys = g.nodes.keys ∧
      ∀ nid node, g.nodes.get? nid = some node →
        ∃ h, (Dict.replay (hs.map fun h => (h.nodeId, h))).get? nid = some h ∧
          toHaoeNode numbers node = some h := by
  refine Dict.replay_of_forall₂ ?_
  rw [List.forall₂_map_right_iff]
  have hItems := Option.mapM_eq_some_iff.mp hNodes
  refine (List.forall₂_and_left _ _).mpr ⟨fun e he => hKeyed e.1 e.2 (Dict.mem_entries_iff.mp he),
    hItems⟩ |>.imp fun e h hBoth => ?_
  obtain ⟨hId, hToHaoe⟩ := hBoth
  obtain ⟨attempts, -, rfl⟩ := Option.map_eq_some_iff.mp hToHaoe
  exact ⟨hId, hToHaoe⟩

theorem get?_swarmNodes {nodes : Dict NodeId HaoeNode} {back : List (NodeId × SwarmNode)}
    (hBack : nodes.entries.mapM (fun e => (fromHaoeNode e.2).map fun node => (e.1, node)) =
      some back) :
    (Dict.replay back).keys = nodes.keys ∧
      ∀ nid h, nodes.get? nid = some h →
        ∃ node, (Dict.replay back).get? nid = some node ∧ fromHaoeNode h = some node := by
  refine Dict.replay_of_forall₂ ((Option.mapM_eq_some_iff.mp hBack).imp fun e p hEntry => ?_)
  obtain ⟨node, hNode, rfl⟩ := Option.map_eq_some_iff.mp hEntry
  exact ⟨rfl, hNode⟩

end Nodes

-- ------ The round trip

/-- The stages of the way to HAOE. -/
structure Translated (numbers : Numbers) (g : SwarmGraph) where
  haoe : List HaoeNode
  nodes : Dict NodeId HaoeNode
  toNodes : g.nodes.entries.mapM (fun e => toHaoeNode numbers e.2) = some haoe
  toEdges : g.edges.foldlM stash (Dict.replay (haoe.map fun h => (h.nodeId, h))) = some nodes

theorem edgeConditions_erase (metadata : Dict String Json) :
    edgeConditions (metadata.erase "_swarm") = edgeConditions metadata := by
  unfold edgeConditions
  rw [Dict.get?_erase_ne metadata (by decide)]

theorem storedCondition_of_some {src dst : NodeId} {h : HaoeNode} (hGet : nodes.get? dst = some h) :
    storedCondition nodes src dst = (heldFor h.metadata.others src dst).bind asCondition := by
  unfold storedCondition heldFor
  rw [hGet]
  show (edgeConditions h.metadata.others >>= fun conditions =>
    asCondition (conditions.lookup (conditionKey src dst))) = _
  cases edgeConditions h.metadata.others with
  | none => rfl
  | some conditions => rfl

theorem stored_iff {metadata : Dict String Json} {last condition : Option ConditionDict}
    {src dst : NodeId} :
    ((heldFor metadata src dst).map fun held => (last.map Json.dict).or held).bind asCondition =
        some condition ↔
      ∃ conditions, edgeConditions metadata = some conditions ∧
        match last with
        | some c => condition = some c
        | none => asCondition (conditions.lookup (conditionKey src dst)) = some condition := by
  unfold heldFor
  cases edgeConditions metadata with
  | none => simp
  | some conditions =>
    cases last with
    | none => simp
    | some c =>
      show some (some c) = some condition ↔ _
      simp [eq_comm]

theorem Translated.get?_nodes {numbers : Numbers} {g : SwarmGraph} (s : Translated numbers g)
    (hKeyed : g.Keyed) {nid : NodeId} (hNode : g.nodes.get? nid = some node) :
    ∃ attempts others, toInt numbers (node.attempts.getD (.int 0)) = some attempts ∧
      s.nodes.get? nid = some ((haoeNode node attempts).withOthers others) ∧
      ∀ src, heldFor others src nid = (heldFor node.metadata src nid).map fun held =>
        ((lastCondition g.edges src nid).map Json.dict).or held := by
  obtain ⟨h, hGet, hTo⟩ := (get?_haoeNodes hKeyed s.toNodes).2 nid node hNode
  obtain ⟨attempts, hAttempts, rfl⟩ := Option.map_eq_some_iff.mp hTo
  obtain ⟨others, hGet', hHeld⟩ := (stash_run s.toEdges).node nid _ hGet
  refine ⟨attempts, others, hAttempts, hGet', fun src => ?_⟩
  rw [hHeld]
  show (heldFor (node.metadata.erase "_swarm") src nid).map _ = _
  unfold heldFor
  rw [edgeConditions_erase]

theorem Translated.sameEdge_iff {numbers : Numbers} {g : SwarmGraph} (s : Translated numbers g)
    (hKeyed : g.Keyed) {edge : SwarmEdge} (hNode : g.nodes.get? edge.dst = some node) :
    (∃ edge', fromHaoeEdge s.nodes (toHaoeEdge edge) = some edge' ∧ SameEdge edge edge') ↔
      g.CarriesEdge edge := by
  obtain ⟨attempts, others, -, hGet, hHeld⟩ := s.get?_nodes hKeyed hNode
  have hStored : storedCondition s.nodes edge.src edge.dst = some edge.condition ↔
      ∃ conditions, edgeConditions node.metadata = some conditions ∧
        match lastCondition g.edges edge.src edge.dst with
        | some c => edge.condition = some c
        | none => asCondition (conditions.lookup (conditionKey edge.src edge.dst)) =
            some edge.condition := by
    rw [storedCondition_of_some hGet, ← stored_iff, ← hHeld]
    rfl
  constructor
  · rintro ⟨edge', hEdge', hSame⟩
    obtain ⟨condition, hCondition, rfl⟩ := Option.map_eq_some_iff.mp hEdge'
    refine ⟨edgeFromHaoe_edgeToHaoe.mp hSame.kind, hSame.priorityBoost.symm, ?_⟩
    intro node' hNode'
    cases hNode.symm.trans hNode'
    have hOwn : condition = edge.condition := hSame.condition
    exact hStored.mp (hOwn ▸ hCondition)
  · intro h
    refine ⟨_, Option.map_eq_some_iff.mpr ⟨_, hStored.mpr (h.condition node hNode), rfl⟩, ?_⟩
    exact ⟨rfl, rfl, edgeFromHaoe_edgeToHaoe.mpr h.kind, h.priorityBoost.symm, rfl⟩

/-- The stages of a round trip. -/
structure Stages (numbers : Numbers) (g : SwarmGraph) extends Translated numbers g where
  back : List (NodeId × SwarmNode)
  edges : List SwarmEdge
  fromNodes : nodes.entries.mapM (fun e => (fromHaoeNode e.2).map fun node => (e.1, node)) =
    some back
  fromEdges : (g.edges.map toHaoeEdge).mapM (fromHaoeEdge nodes) = some edges

/-- The graph that comes back. -/
def Stages.result {numbers : Numbers} {g : SwarmGraph} (s : Stages numbers g) (newId : String) :
    SwarmGraph :=
  SwarmGraph.syncDepLinks
    { graphId := if g.graphId = "" then newId else g.graphId
      nodes := Dict.replay s.back
      edges := s.edges }

theorem roundTrip_eq_some {numbers : Numbers} {newId : String} {g g' : SwarmGraph} :
    roundTrip numbers newId g = some g' ↔ ∃ s : Stages numbers g, s.result newId = g' := by
  constructor
  · intro h
    obtain ⟨haoeGraph, hTo, hFrom⟩ := Option.bind_eq_some_iff.mp h
    obtain ⟨haoe, hNodes, hTo⟩ := Option.bind_eq_some_iff.mp hTo
    obtain ⟨nodes, hEdges, hTo⟩ := Option.bind_eq_some_iff.mp hTo
    cases hTo
    obtain ⟨back, hBack, hFrom⟩ := Option.bind_eq_some_iff.mp hFrom
    obtain ⟨edges, hBackEdges, hFrom⟩ := Option.bind_eq_some_iff.mp hFrom
    exact ⟨⟨⟨haoe, nodes, hNodes, hEdges⟩, back, edges, hBack, hBackEdges⟩, Option.some.inj hFrom⟩
  · rintro ⟨s, rfl⟩
    refine Option.bind_eq_some_iff.mpr ⟨_, Option.bind_eq_some_iff.mpr ⟨_, s.toNodes,
      Option.bind_eq_some_iff.mpr ⟨_, s.toEdges, rfl⟩⟩, ?_⟩
    exact Option.bind_eq_some_iff.mpr ⟨_, s.fromNodes,
      Option.bind_eq_some_iff.mpr ⟨_, s.fromEdges, rfl⟩⟩

namespace Stages

variable {numbers : Numbers} {g : SwarmGraph} (s : Stages numbers g)

theorem get?_result (newId : String) {nid : NodeId} {h : HaoeNode}
    (hGet : s.nodes.get? nid = some h) :
    (swarmNode h).Accepted ∧ ∃ dependencies children, (s.result newId).nodes.get? nid =
      some { swarmNode h with dependencies := dependencies, children := children } := by
  obtain ⟨node, hNode, hFrom⟩ := (get?_swarmNodes s.fromNodes).2 nid h hGet
  unfold fromHaoeNode at hFrom
  split at hFrom
  · next hAccepted =>
    cases hFrom
    have hResult := Dict.get?_mapValues (Dict.replay s.back) (fun nid node =>
      { node with
        dependencies := ((s.edges.filter fun (e : SwarmEdge) => e.dst = nid).map
          SwarmEdge.src).eraseDups
        children := ((s.edges.filter fun (e : SwarmEdge) => e.src = nid).map
          SwarmEdge.dst).eraseDups }) nid
    rw [hNode] at hResult
    exact ⟨hAccepted, _, _, hResult⟩
  · cases hFrom

theorem keys_result (newId : String) : (s.result newId).nodes.keys = s.nodes.keys := by
  rw [← (get?_swarmNodes s.fromNodes).1]
  show ((Dict.replay s.back).mapValues _).keys = _
  unfold Dict.keys Dict.mapValues
  simp

theorem keyed_of_preserved {newId : String} (hPreserved : Preserved g (s.result newId)) :
    g.Keyed := by
  intro nid node hNode
  obtain ⟨node', hNode', hSame⟩ := hPreserved.nodes nid node hNode
  have hKey : (s.nodes.get? nid).isSome := by
    rw [← Dict.mem_keys_iff, ← s.keys_result newId, Dict.mem_keys_iff, hNode']
    rfl
  obtain ⟨h, hGet⟩ := Option.isSome_iff_exists.mp hKey
  obtain ⟨-, dependencies, children, hResult⟩ := s.get?_result newId hGet
  cases hNode'.symm.trans hResult
  have hStashed := stash_run s.toEdges
  have hKey' : ((Dict.replay (s.haoe.map fun h => (h.nodeId, h))).get? nid).isSome := by
    rw [← Dict.mem_keys_iff, ← hStashed.keys, Dict.mem_keys_iff, hGet]
    rfl
  obtain ⟨h₀, hGet₀⟩ := Option.isSome_iff_exists.mp hKey'
  obtain ⟨others, hGet', -⟩ := hStashed.node nid h₀ hGet₀
  cases hGet.symm.trans hGet'
  have hId : h₀.nodeId = node.id := hSame.id
  exact hId.symm.trans (nodeId_of_get? hGet₀)

end Stages

section Equivalence

variable {numbers : Numbers} {newId : String} {g : SwarmGraph}

theorem Stages.sameNode_iff (s : Stages numbers g) (hKeyed : g.Keyed) {nid : NodeId}
    {node : SwarmNode} (hNode : g.nodes.get? nid = some node) :
    (∃ node', (s.result newId).nodes.get? nid = some node' ∧ SameNode node node') ↔
      node.Carried := by
  obtain ⟨attempts, others, -, hGet, -⟩ := s.get?_nodes hKeyed hNode
  obtain ⟨-, dependencies, children, hResult⟩ := s.get?_result newId hGet
  have hCarried : SameNode node (swarmNode ((haoeNode node attempts).withOthers others)) ↔
      node.Carried := Adapter.sameNode_iff
  rw [← hCarried]
  constructor
  · rintro ⟨node', hNode', hSame⟩
    cases hNode'.symm.trans hResult
    exact ⟨hSame.id, hSame.handlerKey, hSame.timeout, hSame.retryPolicy, hSame.estimatedCost,
      hSame.estimatedLatency, hSame.memoryRequirement, hSame.condition⟩
  · intro hSame
    exact ⟨_, hResult, hSame.id, hSame.handlerKey, hSame.timeout, hSame.retryPolicy,
      hSame.estimatedCost, hSame.estimatedLatency, hSame.memoryRequirement, hSame.condition⟩

variable {parse : ConditionDict → RawCondition}

theorem exists_target (hWell : (g.toTaskGraph parse).WellFormed) {edge : SwarmEdge}
    (hEdge : edge ∈ g.edges) : ∃ node, g.nodes.get? edge.dst = some node := by
  have hMem := (hWell.endpoints (edge.toTaskEdge parse) (List.mem_map_of_mem hEdge)).2
  have hKey : edge.dst ∈ (g.nodes.mapValues fun _ node => node.toTaskNode parse).keys := hMem
  rw [Dict.mem_keys_iff, Dict.get?_mapValues, Option.isSome_map] at hKey
  exact Option.isSome_iff_exists.mp hKey

theorem fieldsOk_of_wellFormed (hWell : (g.toTaskGraph parse).WellFormed) {nid : NodeId}
    {node : SwarmNode} (hNode : g.nodes.get? nid = some node) :
    (node.toTaskNode parse).FieldsOk := by
  have hGet := Dict.get?_mapValues g.nodes (fun _ node => node.toTaskNode parse) nid
  rw [hNode] at hGet
  exact hWell.fields nid _ hGet

theorem exists_translated (h : g.Carried numbers) : Nonempty (Translated numbers g) := by
  have hItems : ∀ e ∈ g.nodes.entries, ∃ hnode, toHaoeNode numbers e.2 = some hnode := by
    intro e he
    have hSome := h.attempts e.1 e.2 (Dict.mem_entries_iff.mp he)
    obtain ⟨attempts, hAttempts⟩ := Option.isSome_iff_exists.mp hSome
    exact ⟨_, Option.map_eq_some_iff.mpr ⟨attempts, hAttempts, rfl⟩⟩
  obtain ⟨haoe, hNodes⟩ := Option.exists_mapM_eq_some hItems
  obtain ⟨hKeys, hGet⟩ := get?_haoeNodes h.keyed hNodes
  have hReads : ∀ e ∈ g.edges, ∀ hnode,
      (Dict.replay (haoe.map fun h => (h.nodeId, h))).get? e.dst = some hnode →
        (edgeConditions hnode.metadata.others).isSome := by
    intro e he hnode hHaoe
    have hKey : (g.nodes.get? e.dst).isSome := by
      rw [← Dict.mem_keys_iff, ← hKeys, Dict.mem_keys_iff, hHaoe]
      rfl
    obtain ⟨node, hNode⟩ := Option.isSome_iff_exists.mp hKey
    obtain ⟨hnode', hHaoe', hTo⟩ := hGet e.dst node hNode
    cases hHaoe.symm.trans hHaoe'
    obtain ⟨attempts, -, rfl⟩ := Option.map_eq_some_iff.mp hTo
    obtain ⟨conditions, hConditions, -⟩ := (h.edges e he).condition node hNode
    show (edgeConditions (node.metadata.erase "_swarm")).isSome
    rw [edgeConditions_erase, hConditions]
    rfl
  obtain ⟨nodes, hEdges⟩ := exists_stash_run hReads
  exact ⟨⟨haoe, nodes, hNodes, hEdges⟩⟩

theorem exists_stages (hWell : (g.toTaskGraph parse).WellFormed) (h : g.Carried numbers) :
    Nonempty (Stages numbers g) := by
  obtain ⟨s⟩ := exists_translated h
  have hKeys : s.nodes.keys = g.nodes.keys :=
    (stash_run s.toEdges).keys.trans (get?_haoeNodes h.keyed s.toNodes).1
  have hNodes : ∀ e ∈ s.nodes.entries, ∃ entry,
      (fromHaoeNode e.2).map (fun node => (e.1, node)) = some entry := by
    intro e he
    have hHaoe := Dict.mem_entries_iff.mp he
    have hKey : (g.nodes.get? e.1).isSome := by
      rw [← Dict.mem_keys_iff, ← hKeys, Dict.mem_keys_iff, hHaoe]
      rfl
    obtain ⟨node, hNode⟩ := Option.isSome_iff_exists.mp hKey
    obtain ⟨attempts, others, -, hGet, -⟩ := s.get?_nodes h.keyed hNode
    have hOwn : e.2 = (haoeNode node attempts).withOthers others :=
      Option.some.inj (hHaoe.symm.trans hGet)
    have hAccepted := accepted_of_fields (fieldsOk_of_wellFormed hWell hNode) attempts others
    rw [hOwn]
    unfold fromHaoeNode
    rw [if_pos hAccepted]
    exact ⟨_, rfl⟩
  have hEdges : ∀ e ∈ g.edges.map toHaoeEdge, ∃ edge, fromHaoeEdge s.nodes e = some edge := by
    intro e he
    obtain ⟨edge, hEdge, rfl⟩ := List.mem_map.mp he
    obtain ⟨node, hNode⟩ := exists_target hWell hEdge
    obtain ⟨edge', hEdge', -⟩ := (s.sameEdge_iff h.keyed hNode).mpr (h.edges edge hEdge)
    exact ⟨edge', hEdge'⟩
  obtain ⟨back, hBack⟩ := Option.exists_mapM_eq_some hNodes
  obtain ⟨edges, hBackEdges⟩ := Option.exists_mapM_eq_some hEdges
  exact ⟨{ s with back := back, edges := edges, fromNodes := hBack, fromEdges := hBackEdges }⟩

theorem Stages.sameEdges_iff (s : Stages numbers g) (hWell : (g.toTaskGraph parse).WellFormed)
    (hKeyed : g.Keyed) :
    List.Forall₂ SameEdge g.edges s.edges ↔ ∀ edge ∈ g.edges, g.CarriesEdge edge := by
  have hBack : List.Forall₂ (fun edge edge' => fromHaoeEdge s.nodes (toHaoeEdge edge) = some edge')
      g.edges s.edges := by
    have hItems := Option.mapM_eq_some_iff.mp s.fromEdges
    rw [List.forall₂_map_left_iff] at hItems
    exact hItems
  constructor
  · intro h edge hEdge
    obtain ⟨node, hNode⟩ := exists_target hWell hEdge
    have hBoth := List.Forall₂.mp (fun edge edge' hFrom hSame => And.intro hFrom hSame) hBack h
    obtain ⟨edge', -, hFrom, hSame⟩ := Dict.exists_of_forall₂ hBoth edge hEdge
    exact (s.sameEdge_iff hKeyed hNode).mp ⟨edge', hFrom, hSame⟩
  · intro h
    have hCarried := (List.forall₂_and_left g.edges s.edges).mpr ⟨fun edge he => he, hBack⟩
    refine hCarried.imp fun edge edge' hBoth => ?_
    obtain ⟨node, hNode⟩ := exists_target hWell hBoth.1
    obtain ⟨edge'', hFrom, hSame⟩ := (s.sameEdge_iff hKeyed hNode).mpr (h edge hBoth.1)
    cases hBoth.2.symm.trans hFrom
    exact hSame

theorem Stages.preserved_iff (s : Stages numbers g) (hWell : (g.toTaskGraph parse).WellFormed)
    (newId : String) : Preserved g (s.result newId) ↔ g.Carried numbers := by
  constructor
  · intro h
    have hKeyed := s.keyed_of_preserved h
    refine ⟨hKeyed, fun nid node hNode => ?_, fun nid node hNode => ?_, ?_⟩
    · exact (s.sameNode_iff hKeyed hNode).mp (h.nodes nid node hNode)
    · obtain ⟨attempts, -, hAttempts, -⟩ := s.get?_nodes hKeyed hNode
      rw [hAttempts]
      rfl
    · exact (s.sameEdges_iff hWell hKeyed).mp h.edges
  · intro h
    refine ⟨?_, fun nid node hNode => ?_, (s.sameEdges_iff hWell h.keyed).mpr h.edges⟩
    · rw [s.keys_result, (stash_run s.toEdges).keys]
      exact (get?_haoeNodes h.keyed s.toNodes).1
    · exact (s.sameNode_iff h.keyed hNode).mpr (h.nodes nid node hNode)

theorem carried_of_preserved (hWell : (g.toTaskGraph parse).WellFormed) {g' : SwarmGraph}
    (hTrip : roundTrip numbers newId g = some g') (hPreserved : Preserved g g') :
    g.Carried numbers := by
  obtain ⟨s, rfl⟩ := roundTrip_eq_some.mp hTrip
  exact (s.preserved_iff hWell newId).mp hPreserved

end Equivalence

/-- **Round trip.** A valid graph comes back from HAOE with the same nodes and edges exactly
if it holds nothing that the translation cannot carry. -/
theorem haoeRoundTrip_iff (nx : Option Networkx) (parse : ConditionDict → RawCondition)
    (numbers : Numbers) (newId : String) (g : SwarmGraph)
    (hValid : (g.toTaskGraph parse).Valid nx) :
    (∃ g', roundTrip numbers newId g = some g' ∧ Preserved g g') ↔ g.Carried numbers := by
  have hWell := TaskGraph.valid_iff.mp hValid
  constructor
  · rintro ⟨g', hTrip, hPreserved⟩
    exact carried_of_preserved hWell hTrip hPreserved
  · intro h
    obtain ⟨s⟩ := exists_stages hWell h
    exact ⟨s.result newId, roundTrip_eq_some.mpr ⟨s, rfl⟩, (s.preserved_iff hWell newId).mpr h⟩

def noTexts : Numbers := ⟨fun _ => none, fun _ => 0⟩

/-- Two nodes with handlers and costs, and a hard and a conditional edge between them, each
with the condition. -/
def carriedGraph : SwarmGraph where
  graphId := "g"
  nodes := (Dict.empty.set "a" { id := "a", handlerKey := some "f", estimatedCost := 1 }).set "b"
    { id := "b", handlerKey := some "f", estimatedCost := 1 }
  edges := [{ src := "a", dst := "b", condition := some [("kind", .str "never")] },
    { src := "a", dst := "b", kind := .conditional, condition := some [("kind", .str "never")] }]

theorem carried_carriedGraph : carriedGraph.Carried noTexts := by
  have hNodes : ∀ nid node, carriedGraph.nodes.get? nid = some node →
      node = { id := nid, handlerKey := some "f", estimatedCost := 1 } := by
    intro nid node hNode
    rcases List.mem_cons.mp (Dict.mem_entries_iff.mpr hNode) with hEq | hMem
    · cases hEq
      rfl
    · cases List.mem_singleton.mp hMem
      rfl
  refine ⟨fun nid node hNode => ?_, fun nid node hNode => ?_, fun nid node hNode => ?_, ?_⟩
  · rw [hNodes nid node hNode]
  · rw [hNodes nid node hNode]
    exact ⟨⟨"f", rfl, fun hEmpty => absurd hEmpty (by decide)⟩, ⟨rfl, rfl, rfl, rfl, rfl, rfl⟩, one_ne_zero⟩
  · rw [hNodes nid node hNode]
    rfl
  · intro edge hEdge
    rcases List.mem_cons.mp hEdge with rfl | hMem
    · refine ⟨.inl rfl, rfl, fun node hNode => ?_⟩
      rw [hNodes _ node hNode]
      exact ⟨[], rfl, rfl⟩
    · cases List.mem_singleton.mp hMem
      refine ⟨.inr rfl, rfl, fun node hNode => ?_⟩
      rw [hNodes _ node hNode]
      exact ⟨[], rfl, rfl⟩

theorem haoeRoundTrip_iff_carriedGraph :
    ∃ g', roundTrip noTexts "new" carriedGraph = some g' ∧ Preserved carriedGraph g' :=
  (haoeRoundTrip_iff none (fun _ => .ok .never) noTexts "new" carriedGraph
    (by decide +kernel)).mpr carried_carriedGraph

def freeNode : SwarmGraph where
  graphId := "g"
  nodes := Dict.empty.set "a" { id := "a", handlerKey := some "f" }

def twoWays : SwarmGraph :=
  { carriedGraph with
    edges := [{ src := "a", dst := "b" },
      { src := "a", dst := "b", condition := some [("kind", .str "never")] }] }

/-- Both are valid; the free node comes back with a cost, and both edges with the condition. -/
theorem not_preserved_freeNode_twoWays :
    (freeNode.toTaskGraph fun _ => .ok .never).Valid none ∧
    (twoWays.toTaskGraph fun _ => .ok .never).Valid none ∧
    (¬ ∃ g', roundTrip noTexts "new" freeNode = some g' ∧ Preserved freeNode g') ∧
      ¬ ∃ g', roundTrip noTexts "new" twoWays = some g' ∧ Preserved twoWays g' := by
  have hFree : (freeNode.toTaskGraph fun _ => .ok .never).Valid none := by decide +kernel
  have hTwo : (twoWays.toTaskGraph fun _ => .ok .never).Valid none := by decide +kernel
  refine ⟨hFree, hTwo, ?_, ?_⟩
  · rintro ⟨g', hTrip, hPreserved⟩
    have hCarried := carried_of_preserved (TaskGraph.valid_iff.mp hFree) hTrip hPreserved
    exact (hCarried.nodes "a" _ rfl).estimatedCost rfl
  · rintro ⟨g', hTrip, hPreserved⟩
    have hCarried := carried_of_preserved (TaskGraph.valid_iff.mp hTwo) hTrip hPreserved
    obtain ⟨conditions, -, hLast⟩ := (hCarried.edges _ List.mem_cons_self).condition _ rfl
    cases hLast

end Neuroswarm.Swarm.Adapter
