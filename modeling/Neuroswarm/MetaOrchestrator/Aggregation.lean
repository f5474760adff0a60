import Neuroswarm.Lib.Overlay
import Neuroswarm.Lib.Replay
import Neuroswarm.MetaOrchestrator.Coordinator

/-!
# Meta orchestrator — `ResultAggregator`

Results of nodes with their payloads, merged into one record. Each field has a rule of
its own: outputs and metadata by node, numbers added up, references once each, and tool
outputs by tool name, or by node and tool where `aggregate` finds the name taken.
`merge_pair` adds and collects likewise, but a tool name that is taken it overwrites.

Numbers are of any type with a zero and an addition, since floats do not associate.

* `mergePair_aggregate_iff` — when `merge_pair` of two aggregates is the aggregate of
  all results, and no tool output is lost.
-/

namespace Neuroswarm.MetaOrchestrator.Aggregation

open Swarm

variable {V F : Type*}

-- ------ Records

/-- Result payload observed from HAOE; `output` may be `None`. -/
structure NodeResult (V F : Type*) where
  nodeId : NodeId
  output : Option V := none
  metadata : Dict String V := .empty
  metrics : Dict String F := .empty
  budgetUsed : Dict String F := .empty
  toolOutputs : Dict String V := .empty
  memoryRefs : List String := []

/-- A value of `AggregatedResult.metadata`. -/
inductive Metadata (V : Type*) where
  | dict (d : Dict String V)
  | other (v : V)

structure AggregatedResult (V F : Type*) where
  outputs : Dict NodeId (Option V) := .empty
  metadata : Dict NodeId (Metadata V) := .empty
  metrics : Dict String F := .empty
  budgets : Dict String F := .empty
  toolOutputs : Dict String V := .empty
  memoryRefs : List String := []
  nodeIds : List NodeId := []
  metadataExtra : Dict String V := .empty

-- ------ `ResultAggregator`

/-- `for ref in refs: if ref not in l: l.append(ref)`. -/
def appendAllNew (l refs : List String) : List String := refs.foldl appendNew l

/-- "de-dupe node_ids preserving order". -/
def dedupe (nodeIds : List NodeId) : List NodeId := appendAllNew [] nodeIds

/-- `f"{result.node_id}.{k}"`. -/
def qualified (nodeId : NodeId) (k : String) : String := s!"{nodeId}.{k}"

/-- The body of the loop over `tool_outputs`. -/
def addTool (nodeId : NodeId) (tools : Dict String V) (k : String) (v : V) : Dict String V :=
  tools.set (if tools.contains k then qualified nodeId k else k) v

section

variable [Zero F] [Add F]

/-- `for k, v in numbers.items(): out[k] = out.get(k, 0.0) + float(v)`. -/
def addNumbers (out numbers : Dict String F) : Dict String F :=
  numbers.entries.foldl (fun out e => out.set e.1 ((out.get? e.1).getD 0 + e.2)) out

/-- The body of the loop in `aggregate`. -/
def absorb (out : AggregatedResult V F) (result : NodeResult V F) : AggregatedResult V F :=
  { out with
    nodeIds := out.nodeIds ++ [result.nodeId]
    outputs := out.outputs.set result.nodeId result.output
    metadata := out.metadata.set result.nodeId (.dict result.metadata)
    metrics := addNumbers out.metrics result.metrics
    budgets := addNumbers out.budgets result.budgetUsed
    toolOutputs := result.toolOutputs.entries.foldl
      (fun tools e => addTool result.nodeId tools e.1 e.2) out.toolOutputs
    memoryRefs := appendAllNew out.memoryRefs result.memoryRefs }

def aggregate (results : List (NodeResult V F)) (base : AggregatedResult V F := {}) :
    AggregatedResult V F :=
  let out := results.foldl absorb base
  { out with nodeIds := dedupe out.nodeIds }

/-- The result that `merge_pair` makes of what `side` has about a node. -/
def carry (side : AggregatedResult V F) (nid : NodeId) : NodeResult V F where
  nodeId := nid
  output := (side.outputs.get? nid).join
  metadata :=
    match side.metadata.get? nid with
    | some (.dict d) => d
    | _ => .empty

def mergePair (left right : AggregatedResult V F) : AggregatedResult V F :=
  let combined := left.nodeIds.map (carry left) ++
    (right.nodeIds.filter (· ∉ left.nodeIds)).map (carry right)
  aggregate combined
    { metrics := addNumbers left.metrics right.metrics
      budgets := addNumbers left.budgets right.budgets
      toolOutputs := left.toolOutputs.update right.toolOutputs
      memoryRefs := appendAllNew left.memoryRefs right.memoryRefs }

end

/-- Equal as records: dictionaries by their entries, lists in order. -/
structure Same (a b : AggregatedResult V F) : Prop where
  outputs : ∀ k, a.outputs.get? k = b.outputs.get? k
  metadata : ∀ k, a.metadata.get? k = b.metadata.get? k
  metrics : ∀ k, a.metrics.get? k = b.metrics.get? k
  budgets : ∀ k, a.budgets.get? k = b.budgets.get? k
  toolOutputs : ∀ k, a.toolOutputs.get? k = b.toolOutputs.get? k
  memoryRefs : a.memoryRefs = b.memoryRefs
  nodeIds : a.nodeIds = b.nodeIds
  metadataExtra : ∀ k, a.metadataExtra.get? k = b.metadataExtra.get? k

-- ------ Collecting

theorem mem_appendAllNew {l refs : List String} {w : String} :
    w ∈ appendAllNew l refs ↔ w ∈ l ∨ w ∈ refs := by
  unfold appendAllNew
  induction refs generalizing l with
  | nil => simp
  | cons r refs ih =>
    rw [List.foldl_cons, ih, List.mem_cons]
    unfold appendNew
    split
    · next hr =>
      constructor
      · rintro (h | h)
        · exact .inl h
        · exact .inr (.inr h)
      · rintro (h | rfl | h)
        · exact .inl h
        · exact .inl hr
        · exact .inr h
    · simp [or_assoc]

theorem appendAllNew_dedupe (l refs : List String) :
    appendAllNew l (appendAllNew [] refs) = appendAllNew l refs := by
  induction refs using List.reverseRecOn with
  | nil => rfl
  | append_singleton refs r ih =>
    have hLast : ∀ m : List String,
        appendAllNew m (refs ++ [r]) = appendNew (appendAllNew m refs) r := fun m => by
      unfold appendAllNew
      rw [List.foldl_append]
      rfl
    rw [hLast, hLast]
    have hIf : appendNew (appendAllNew [] refs) r =
        if r ∈ appendAllNew [] refs then appendAllNew [] refs
        else appendAllNew [] refs ++ [r] := rfl
    rw [hIf]
    split
    · next hr =>
      have hIn : r ∈ appendAllNew l refs := by
        rw [mem_appendAllNew] at hr ⊢
        exact .inr (hr.resolve_left List.not_mem_nil)
      rw [ih]
      unfold appendNew
      rw [if_pos hIn]
    · rw [← ih]
      show List.foldl _ _ _ = _
      rw [List.foldl_append]
      rfl

-- ------ Numbers

section

variable [Zero F] [Add F]

theorem get?_addNumbers (out numbers : Dict String F) (k : String) :
    (addNumbers out numbers).get? k =
      match numbers.get? k with
      | none => out.get? k
      | some x => some ((out.get? k).getD 0 + x) := by
  obtain ⟨l, hNodup⟩ := numbers
  show (l.foldl _ out).get? k = match l.lookup k with | none => _ | some x => _
  induction l generalizing out with
  | nil => rfl
  | cons e l ih =>
    obtain ⟨hHead, hTail⟩ := List.nodup_cons.mp hNodup
    rw [List.foldl_cons, ih _ hTail, Dict.lookup_cons_ite, Dict.get?_set]
    by_cases hEq : e.1 = k
    · have hNone : l.lookup k = none := Option.eq_none_iff_forall_ne_some.mpr fun x hx =>
        hHead (hEq ▸ List.mem_map_of_mem ((Dict.lookup_eq_some_iff hTail).mp hx))
      rw [hNone, if_pos hEq, if_pos hEq.symm, hEq]
    · rw [if_neg hEq, if_neg (Ne.symm hEq)]

/-- The numbers that the results have for `k`, in order. -/
def numbersFor (field : NodeResult V F → Dict String F) (k : String)
    (results : List (NodeResult V F)) : List F :=
  results.filterMap fun r => (field r).get? k

/-- Added up from zero. -/
def total (numbers : List F) : F := numbers.foldl (· + ·) 0

theorem get?_foldl_addNumbers (field : NodeResult V F → Dict String F)
    (results : List (NodeResult V F)) (out : Dict String F) (k : String) :
    (results.foldl (fun out r => addNumbers out (field r)) out).get? k =
      if numbersFor field k results = [] then out.get? k
      else some ((numbersFor field k results).foldl (· + ·) ((out.get? k).getD 0)) := by
  induction results generalizing out with
  | nil => rfl
  | cons r results ih =>
    rw [List.foldl_cons, ih, get?_addNumbers]
    cases hField : (field r).get? k with
    | none =>
      have hCons : numbersFor field k (r :: results) = numbersFor field k results :=
        List.filterMap_cons_none hField
      rw [hCons]
    | some x =>
      have hCons : numbersFor field k (r :: results) = x :: numbersFor field k results :=
        List.filterMap_cons_some hField
      rw [hCons, if_neg (List.cons_ne_nil _ _), List.foldl_cons]
      split
      · next hNil =>
        rw [hNil]
        rfl
      · rfl

/-- Adding the numbers of `ys` at once to those of `xs` is adding them one by one. -/
def Regroups (field : NodeResult V F → Dict String F) (xs ys : List (NodeResult V F)) : Prop :=
  ∀ k, numbersFor field k ys ≠ [] →
    total (numbersFor field k xs) + total (numbersFor field k ys) =
      total (numbersFor field k xs ++ numbersFor field k ys)

def sums (field : NodeResult V F → Dict String F) (results : List (NodeResult V F)) :
    Dict String F :=
  results.foldl (fun out r => addNumbers out (field r)) .empty

theorem get?_sums (field : NodeResult V F → Dict String F) (results : List (NodeResult V F))
    (k : String) :
    (sums field results).get? k =
      if numbersFor field k results = [] then none else some (total (numbersFor field k results)) :=
  get?_foldl_addNumbers field results .empty k

theorem sums_same_iff (field : NodeResult V F → Dict String F) (xs ys : List (NodeResult V F)) :
    (∀ k, (addNumbers (sums field xs) (sums field ys)).get? k = (sums field (xs ++ ys)).get? k) ↔
      Regroups field xs ys := by
  have hAppend : ∀ k,
      numbersFor field k (xs ++ ys) = numbersFor field k xs ++ numbersFor field k ys :=
    fun k => List.filterMap_append
  have hStart : ∀ k, ((sums field xs).get? k).getD 0 = total (numbersFor field k xs) := by
    intro k
    rw [get?_sums]
    split
    · next hNil =>
      rw [hNil]
      rfl
    · rfl
  unfold Regroups
  refine forall_congr' fun k => ?_
  rw [get?_addNumbers, get?_sums field ys, get?_sums field (xs ++ ys), hStart, hAppend]
  by_cases hNil : numbersFor field k ys = []
  · rw [hNil, List.append_nil, if_pos rfl, get?_sums]
    exact iff_of_true rfl fun h => absurd rfl h
  · rw [if_neg hNil, if_neg fun h => hNil (List.append_eq_nil_iff.mp h).2]
    dsimp only
    rw [Option.some.injEq]
    exact ⟨fun h _ => h, fun h => h hNil⟩

end

-- ------ Tool outputs

abbrev ToolOutput (V : Type*) := NodeId × String × V

def toolOutputs (results : List (NodeResult V F)) : List (ToolOutput V) :=
  results.flatMap fun r => r.toolOutputs.entries.map fun e => (r.nodeId, e)

def fileName (taken : List String) (nodeId : NodeId) (k : String) : String :=
  if k ∈ taken then qualified nodeId k else k

/-- The tool outputs under the names that `aggregate` gives them, one after the other. -/
def filed (taken : List String) : List (ToolOutput V) → List (String × V)
  | [] => []
  | (nodeId, k, v) :: rest =>
    (fileName taken nodeId k, v) :: filed (fileName taken nodeId k :: taken) rest

theorem filed_cons (taken : List String) (nodeId : NodeId) (k : String) (v : V)
    (rest : List (ToolOutput V)) : filed taken ((nodeId, k, v) :: rest) =
      (fileName taken nodeId k, v) :: filed (fileName taken nodeId k :: taken) rest := rfl

theorem filed_values (taken : List String) (outs : List (ToolOutput V)) :
    (filed taken outs).map Prod.snd = outs.map fun o => o.2.2 := by
  induction outs generalizing taken with
  | nil => rfl
  | cons o outs ih =>
    obtain ⟨nodeId, k, v⟩ := o
    rw [filed_cons, List.map_cons, List.map_cons, ih]

theorem foldl_addTool (outs : List (ToolOutput V)) (tools : Dict String V) (taken : List String)
    (hTaken : ∀ k, k ∈ taken ↔ (tools.get? k).isSome) :
    outs.foldl (fun tools o => addTool o.1 tools o.2.1 o.2.2) tools =
      (filed taken outs).foldl (fun tools e => tools.set e.1 e.2) tools := by
  induction outs generalizing tools taken with
  | nil => rfl
  | cons o outs ih =>
    obtain ⟨nodeId, k, v⟩ := o
    have hName :
        (if tools.contains k then qualified nodeId k else k) = fileName taken nodeId k := by
      unfold fileName Dict.contains
      by_cases hk : k ∈ taken
      · rw [if_pos hk, if_pos ((hTaken k).mp hk)]
      · rw [if_neg hk, if_neg fun h => hk ((hTaken k).mpr h)]
    rw [List.foldl_cons, filed_cons, List.foldl_cons]
    dsimp only
    unfold addTool
    rw [hName]
    refine ih _ _ fun k' => ?_
    rw [List.mem_cons, hTaken k', Dict.get?_set]
    split
    · next hEq => simp [hEq]
    · next hNe => simp [hNe]

theorem filed_of_disjoint {outs : List (ToolOutput V)} {taken taken' : List String}
    (others : List String)
    (hTaken : ∀ k, k ∈ taken' ↔ k ∈ taken ∨ k ∈ others)
    (hDisjoint : ∀ k ∈ (filed taken outs).map Prod.fst, k ∉ others) :
    filed taken' outs = filed taken outs := by
  induction outs generalizing taken taken' with
  | nil => rfl
  | cons o outs ih =>
    obtain ⟨nodeId, k, v⟩ := o
    rw [filed_cons, List.map_cons, List.forall_mem_cons] at hDisjoint
    have hSame : fileName taken' nodeId k = fileName taken nodeId k := by
      have hHead := hDisjoint.1
      unfold fileName at hHead ⊢
      by_cases hk : k ∈ taken
      · rw [if_pos hk, if_pos ((hTaken k).mpr (.inl hk))]
      · rw [if_neg hk] at hHead
        rw [if_neg hk, if_neg fun hIn => ((hTaken k).mp hIn).elim hk hHead]
    rw [filed_cons, filed_cons, hSame]
    congr 1
    refine ih (fun k' => ?_) hDisjoint.2
    rw [List.mem_cons, List.mem_cons, hTaken, or_assoc]

theorem filed_append (taken : List String) (outs outs' : List (ToolOutput V)) :
    filed taken (outs ++ outs') =
      filed taken outs ++ filed (((filed taken outs).map Prod.fst).reverse ++ taken) outs' := by
  induction outs generalizing taken with
  | nil => rfl
  | cons o outs ih =>
    obtain ⟨nodeId, k, v⟩ := o
    rw [List.cons_append, filed_cons, filed_cons, ih, List.map_cons, List.reverse_cons,
      List.append_assoc]
    rfl

-- ------ `aggregate`, field by field

theorem appendAllNew_append (l refs refs' : List String) :
    appendAllNew l (refs ++ refs') = appendAllNew (appendAllNew l refs) refs' :=
  List.foldl_append

section

variable [Zero F] [Add F]

theorem outputs_aggregate (results : List (NodeResult V F)) (base : AggregatedResult V F) :
    (aggregate results base).outputs =
      (results.map fun r => (r.nodeId, r.output)).foldl (fun d e => d.set e.1 e.2)
        base.outputs := by
  rw [List.foldl_map]
  exact (List.foldl_hom AggregatedResult.outputs fun _ _ => rfl).symm

theorem metadata_aggregate (results : List (NodeResult V F)) (base : AggregatedResult V F) :
    (aggregate results base).metadata =
      (results.map fun r => (r.nodeId, Metadata.dict r.metadata)).foldl
        (fun d e => d.set e.1 e.2) base.metadata := by
  rw [List.foldl_map]
  exact (List.foldl_hom AggregatedResult.metadata fun _ _ => rfl).symm

theorem metrics_aggregate (results : List (NodeResult V F)) (base : AggregatedResult V F) :
    (aggregate results base).metrics =
      results.foldl (fun out r => addNumbers out r.metrics) base.metrics :=
  (List.foldl_hom AggregatedResult.metrics fun _ _ => rfl).symm

theorem budgets_aggregate (results : List (NodeResult V F)) (base : AggregatedResult V F) :
    (aggregate results base).budgets =
      results.foldl (fun out r => addNumbers out r.budgetUsed) base.budgets :=
  (List.foldl_hom AggregatedResult.budgets fun _ _ => rfl).symm

theorem toolOutputs_aggregate (results : List (NodeResult V F)) (base : AggregatedResult V F) :
    (aggregate results base).toolOutputs =
      (toolOutputs results).foldl (fun tools o => addTool o.1 tools o.2.1 o.2.2)
        base.toolOutputs := by
  unfold toolOutputs
  rw [List.foldl_flatMap]
  simp only [List.foldl_map]
  exact (List.foldl_hom AggregatedResult.toolOutputs fun _ _ => rfl).symm

theorem memoryRefs_aggregate (results : List (NodeResult V F)) (base : AggregatedResult V F) :
    (aggregate results base).memoryRefs =
      appendAllNew base.memoryRefs (results.flatMap NodeResult.memoryRefs) := by
  unfold appendAllNew
  rw [List.foldl_flatMap]
  exact (List.foldl_hom AggregatedResult.memoryRefs fun _ _ => rfl).symm

theorem nodeIds_aggregate (results : List (NodeResult V F)) (base : AggregatedResult V F) :
    (aggregate results base).nodeIds =
      dedupe (base.nodeIds ++ results.map NodeResult.nodeId) := by
  show dedupe (results.foldl absorb base).nodeIds = _
  congr 1
  induction results generalizing base with
  | nil => exact (List.append_nil _).symm
  | cons r results ih =>
    rw [List.foldl_cons, ih, List.map_cons]
    show (base.nodeIds ++ [r.nodeId]) ++ _ = _
    rw [List.append_assoc]
    rfl

theorem metadataExtra_aggregate (results : List (NodeResult V F)) (base : AggregatedResult V F) :
    (aggregate results base).metadataExtra = base.metadataExtra := by
  show (results.foldl absorb base).metadataExtra = _
  induction results generalizing base with
  | nil => rfl
  | cons r results ih => exact ih _

theorem toolOutputs_aggregate_nil (results : List (NodeResult V F)) :
    (aggregate results).toolOutputs = Dict.replay (filed [] (toolOutputs results)) := by
  rw [toolOutputs_aggregate]
  exact foldl_addTool _ _ [] fun k => by simp

-- ------ What `merge_pair` carries over

theorem get?_replay_map {W : Type*} (ids : List NodeId) (f : NodeId → W) (k : NodeId) :
    (Dict.replay (ids.map fun n => (n, f n))).get? k = if k ∈ ids then some (f k) else none := by
  induction ids using List.reverseRecOn with
  | nil => simp
  | append_singleton ids n ih =>
    rw [List.map_append, List.map_singleton, Dict.replay_concat, Dict.get?_set, ih]
    by_cases hn : k = n
    · subst hn
      simp
    · simp [hn]

/-- What both sides have by node, the merged record has. -/
theorem get?_carried {W : Type*} (left right : Dict NodeId W) {ids ids' : List NodeId}
    (hLeft : ∀ n, n ∈ ids ↔ (left.get? n).isSome) (hRight : ∀ n, n ∈ ids' ↔ (right.get? n).isSome)
    (hDisjoint : ∀ n ∈ ids', n ∉ ids) {f : Option W → W}
    (hCarryLeft : ∀ n w, left.get? n = some w → f (some w) = w)
    (hCarryRight : ∀ n w, right.get? n = some w → f (some w) = w) (k : NodeId) :
    (Dict.replay ((ids.map fun n => (n, f (left.get? n))) ++
        (ids'.filter (· ∉ ids)).map fun n => (n, f (right.get? n)))).get? k =
      (right.get? k).or (left.get? k) := by
  have hFilter : ids'.filter (· ∉ ids) = ids' :=
    List.filter_eq_self.mpr fun n hn => decide_eq_true (hDisjoint n hn)
  unfold Dict.replay
  rw [hFilter, List.foldl_append, Dict.get?_foldl_set_replay]
  show (Dict.get? (Dict.replay _) k).or (Dict.get? (Dict.replay _) k) = _
  rw [get?_replay_map, get?_replay_map]
  cases hR : right.get? k with
  | some w =>
    have hIn : k ∈ ids' := (hRight k).mpr (by rw [hR]; rfl)
    rw [if_pos hIn, hCarryRight k w hR]
    rfl
  | none =>
    have hOut : k ∉ ids' := fun hIn => by
      have hSome := (hRight k).mp hIn
      rw [hR] at hSome
      cases hSome
    rw [if_neg hOut]
    cases hL : left.get? k with
    | some w =>
      have hIn : k ∈ ids := (hLeft k).mpr (by rw [hL]; rfl)
      rw [if_pos hIn, hCarryLeft k w hL]
    | none =>
      have hOut' : k ∉ ids := fun hIn => by
        have hSome := (hLeft k).mp hIn
        rw [hL] at hSome
        cases hSome
      rw [if_neg hOut']

/-- The results that `merge_pair` aggregates. -/
def carried (left right : AggregatedResult V F) : List (NodeResult V F) :=
  left.nodeIds.map (carry left) ++ (right.nodeIds.filter (· ∉ left.nodeIds)).map (carry right)

omit [Zero F] [Add F] in
theorem carried_bare {left right : AggregatedResult V F} {r : NodeResult V F}
    (hr : r ∈ carried left right) :
    r.metrics = .empty ∧ r.budgetUsed = .empty ∧ r.toolOutputs = .empty ∧ r.memoryRefs = [] := by
  rcases List.mem_append.mp hr with hr | hr
  · obtain ⟨n, -, rfl⟩ := List.mem_map.mp hr
    exact ⟨rfl, rfl, rfl, rfl⟩
  · obtain ⟨n, -, rfl⟩ := List.mem_map.mp hr
    exact ⟨rfl, rfl, rfl, rfl⟩

variable {results : List (NodeResult V F)}

theorem foldl_addNumbers_empty {field : NodeResult V F → Dict String F}
    (h : ∀ r ∈ results, field r = .empty) (out : Dict String F) :
    results.foldl (fun out r => addNumbers out (field r)) out = out := by
  induction results generalizing out with
  | nil => rfl
  | cons r results ih =>
    rw [List.foldl_cons, h r (List.mem_cons_self ..)]
    exact ih (fun r' hr' => h r' (List.mem_cons_of_mem _ hr')) out

theorem mergePair_base (left right : AggregatedResult V F) :
    (mergePair left right).metrics = addNumbers left.metrics right.metrics ∧
      (mergePair left right).budgets = addNumbers left.budgets right.budgets ∧
      (mergePair left right).toolOutputs = left.toolOutputs.update right.toolOutputs ∧
      (mergePair left right).memoryRefs = appendAllNew left.memoryRefs right.memoryRefs := by
  have hTools : toolOutputs (carried left right) = [] :=
    List.flatMap_eq_nil_iff.mpr fun r hr => by
      rw [(carried_bare hr).2.2.1]
      rfl
  have hRefs : (carried left right).flatMap NodeResult.memoryRefs = [] :=
    List.flatMap_eq_nil_iff.mpr fun r hr => (carried_bare hr).2.2.2
  show (aggregate (carried left right) _).metrics = _ ∧
    (aggregate (carried left right) _).budgets = _ ∧
    (aggregate (carried left right) _).toolOutputs = _ ∧
      (aggregate (carried left right) _).memoryRefs = _
  rw [metrics_aggregate, budgets_aggregate, toolOutputs_aggregate, memoryRefs_aggregate, hTools,
    hRefs, foldl_addNumbers_empty fun r hr => (carried_bare hr).1,
    foldl_addNumbers_empty fun r hr => (carried_bare hr).2.1]
  exact ⟨rfl, rfl, rfl, rfl⟩

-- ------ Aggregates of disjoint results

theorem nodeIds_aggregate_nil (results : List (NodeResult V F)) :
    (aggregate results).nodeIds = appendAllNew [] (results.map NodeResult.nodeId) :=
  nodeIds_aggregate results {}

theorem mem_nodeIds_aggregate {n : NodeId} :
    n ∈ (aggregate results).nodeIds ↔ n ∈ results.map NodeResult.nodeId := by
  rw [nodeIds_aggregate_nil, mem_appendAllNew]
  exact ⟨fun h => h.resolve_left List.not_mem_nil, .inr⟩

theorem isSome_outputs_aggregate {n : NodeId} :
    n ∈ (aggregate results).nodeIds ↔ ((aggregate results).outputs.get? n).isSome := by
  rw [mem_nodeIds_aggregate, outputs_aggregate]
  show _ ↔ ((Dict.replay _).get? n).isSome
  rw [Dict.isSome_get?_replay, List.map_map]
  rfl

theorem isSome_metadata_aggregate {n : NodeId} :
    n ∈ (aggregate results).nodeIds ↔ ((aggregate results).metadata.get? n).isSome := by
  rw [mem_nodeIds_aggregate, metadata_aggregate]
  show _ ↔ ((Dict.replay _).get? n).isSome
  rw [Dict.isSome_get?_replay, List.map_map]
  rfl

theorem exists_metadata_aggregate {n : NodeId} {w : Metadata V}
    (h : (aggregate results).metadata.get? n = some w) : ∃ d, w = .dict d := by
  rw [metadata_aggregate] at h
  obtain ⟨r, -, hr⟩ := List.mem_map.mp (Dict.mem_of_get?_replay h)
  cases hr
  exact ⟨_, rfl⟩

/-- The metadata that `merge_pair` writes back. -/
def rewrap : Option (Metadata V) → Metadata V
  | some (.dict d) => .dict d
  | _ => .dict .empty

theorem outputs_mergePair (left right : AggregatedResult V F) :
    (mergePair left right).outputs =
      Dict.replay ((left.nodeIds.map fun n => (n, (left.outputs.get? n).join)) ++
        (right.nodeIds.filter (· ∉ left.nodeIds)).map fun n =>
          (n, (right.outputs.get? n).join)) := by
  show (aggregate (carried left right) _).outputs = _
  rw [outputs_aggregate]
  unfold carried
  rw [List.map_append, List.map_map, List.map_map]
  rfl

theorem metadata_mergePair (left right : AggregatedResult V F) :
    (mergePair left right).metadata =
      Dict.replay ((left.nodeIds.map fun n => (n, rewrap (left.metadata.get? n))) ++
        (right.nodeIds.filter (· ∉ left.nodeIds)).map fun n =>
          (n, rewrap (right.metadata.get? n))) := by
  have hMap : ∀ (side : AggregatedResult V F),
      ((fun r : NodeResult V F => (r.nodeId, Metadata.dict r.metadata)) ∘ carry side) =
        fun n => (n, rewrap (side.metadata.get? n)) := by
    intro side
    funext n
    show (n, Metadata.dict (carry side n).metadata) = _
    unfold carry
    dsimp only
    match side.metadata.get? n with
    | some (.dict d) => rfl
    | some (.other v) => rfl
    | none => rfl
  show (aggregate (carried left right) _).metadata = _
  rw [metadata_aggregate]
  unfold carried
  rw [List.map_append, List.map_map, List.map_map, hMap, hMap]
  rfl

variable {xs ys : List (NodeResult V F)}

theorem get?_outputs_append (k : NodeId) :
    (aggregate (xs ++ ys)).outputs.get? k =
      ((aggregate ys).outputs.get? k).or ((aggregate xs).outputs.get? k) := by
  rw [outputs_aggregate (xs ++ ys), List.map_append, List.foldl_append,
    Dict.get?_foldl_set_replay, outputs_aggregate ys, outputs_aggregate xs]
  rfl

theorem get?_metadata_append (k : NodeId) :
    (aggregate (xs ++ ys)).metadata.get? k =
      ((aggregate ys).metadata.get? k).or ((aggregate xs).metadata.get? k) := by
  rw [metadata_aggregate (xs ++ ys), List.map_append, List.foldl_append,
    Dict.get?_foldl_set_replay, metadata_aggregate ys, metadata_aggregate xs]
  rfl

theorem mergePair_rest (hDisjoint : ∀ x ∈ xs, ∀ y ∈ ys, x.nodeId ≠ y.nodeId) :
    (∀ k, (mergePair (aggregate xs) (aggregate ys)).outputs.get? k =
        (aggregate (xs ++ ys)).outputs.get? k) ∧
      (∀ k, (mergePair (aggregate xs) (aggregate ys)).metadata.get? k =
        (aggregate (xs ++ ys)).metadata.get? k) ∧
      (mergePair (aggregate xs) (aggregate ys)).memoryRefs = (aggregate (xs ++ ys)).memoryRefs ∧
      (mergePair (aggregate xs) (aggregate ys)).nodeIds = (aggregate (xs ++ ys)).nodeIds := by
  have hApart : ∀ n ∈ (aggregate ys).nodeIds, n ∉ (aggregate xs).nodeIds := by
    intro n hy hx
    obtain ⟨y, hyMem, hyId⟩ := List.mem_map.mp (mem_nodeIds_aggregate.mp hy)
    obtain ⟨x, hxMem, hxId⟩ := List.mem_map.mp (mem_nodeIds_aggregate.mp hx)
    exact hDisjoint x hxMem y hyMem (hxId.trans hyId.symm)
  refine ⟨fun k => ?_, fun k => ?_, ?_, ?_⟩
  · rw [outputs_mergePair, get?_outputs_append]
    exact get?_carried _ _ (fun _ => isSome_outputs_aggregate) (fun _ => isSome_outputs_aggregate)
      hApart (f := Option.join) (fun _ _ _ => rfl) (fun _ _ _ => rfl) k
  · rw [metadata_mergePair, get?_metadata_append]
    refine get?_carried _ _ (fun _ => isSome_metadata_aggregate)
      (fun _ => isSome_metadata_aggregate) hApart (fun n w h => ?_) (fun n w h => ?_) k
    · obtain ⟨d, rfl⟩ := exists_metadata_aggregate h
      rfl
    · obtain ⟨d, rfl⟩ := exists_metadata_aggregate h
      rfl
  · rw [(mergePair_base _ _).2.2.2, memoryRefs_aggregate, memoryRefs_aggregate,
      memoryRefs_aggregate, List.flatMap_append, appendAllNew_append, appendAllNew_dedupe]
  · have hFilter : (aggregate ys).nodeIds.filter (· ∉ (aggregate xs).nodeIds) =
        (aggregate ys).nodeIds :=
      List.filter_eq_self.mpr fun n hn => decide_eq_true (hApart n hn)
    have hIds : (carried (aggregate xs) (aggregate ys)).map NodeResult.nodeId =
        (aggregate xs).nodeIds ++ (aggregate ys).nodeIds := by
      unfold carried
      rw [List.map_append, List.map_map, List.map_map, hFilter]
      exact congrArg₂ _ (List.map_id _) (List.map_id _)
    show (aggregate (carried _ _) _).nodeIds = _
    rw [nodeIds_aggregate, hIds]
    show appendAllNew [] ((aggregate xs).nodeIds ++ (aggregate ys).nodeIds) = _
    rw [nodeIds_aggregate_nil, nodeIds_aggregate_nil, nodeIds_aggregate_nil, List.map_append,
      appendAllNew_append, appendAllNew_append, appendAllNew_dedupe, appendAllNew_dedupe]

-- ------ Nothing lost

/-- Every tool output of the results is in the aggregate; equal ones as often as they are there. -/
def KeepsTools (results : List (NodeResult V F)) : Prop :=
  ((toolOutputs results).map fun o => o.2.2).Subperm (aggregate results).toolOutputs.values

/-- The names of the tool outputs of `xs` in its aggregate and those of `ys` in its own: no name
comes up twice. -/
def NamesApart (xs ys : List (NodeResult V F)) : Prop :=
  ((filed [] (toolOutputs xs)).map Prod.fst ++ (filed [] (toolOutputs ys)).map Prod.fst).Nodup

instance (xs ys : List (NodeResult V F)) : Decidable (NamesApart xs ys) :=
  inferInstanceAs (Decidable (List.Nodup _))

omit [Zero F] [Add F] in
theorem toolOutputs_append :
    toolOutputs (xs ++ ys) = toolOutputs xs ++ toolOutputs ys := List.flatMap_append

omit [Zero F] [Add F] in
theorem length_filed (results : List (NodeResult V F)) :
    ((filed [] (toolOutputs results)).map Prod.fst).length = (toolOutputs results).length := by
  have hValues := congrArg List.length (filed_values [] (toolOutputs results))
  rw [List.length_map, List.length_map] at hValues
  rw [List.length_map, hValues]

omit [Zero F] [Add F] in
theorem filed_of_namesApart (h : NamesApart xs ys) :
    filed [] (toolOutputs (xs ++ ys)) =
      filed [] (toolOutputs xs) ++ filed [] (toolOutputs ys) := by
  rw [toolOutputs_append, filed_append]
  congr 1
  refine filed_of_disjoint ((filed [] (toolOutputs xs)).map Prod.fst) (fun k => ?_) ?_
  · simp
  · exact fun k hy hx => (List.disjoint_of_nodup_append h) hx hy

theorem tools_of_namesApart (h : NamesApart xs ys) :
    (∀ k, ((aggregate xs).toolOutputs.update (aggregate ys).toolOutputs).get? k =
        (aggregate (xs ++ ys)).toolOutputs.get? k) ∧ KeepsTools (xs ++ ys) := by
  have hFiled := filed_of_namesApart h
  constructor
  · intro k
    rw [Dict.get?_update, toolOutputs_aggregate_nil, toolOutputs_aggregate_nil,
      toolOutputs_aggregate_nil, hFiled]
    unfold Dict.replay
    rw [List.foldl_append, Dict.get?_foldl_set_replay (filed [] (toolOutputs ys))
      (List.foldl _ _ (filed [] (toolOutputs xs)))]
    rfl
  · have hNodup : ((filed [] (toolOutputs (xs ++ ys))).map Prod.fst).Nodup := by
      rw [hFiled, List.map_append]
      exact h
    have hReplay := Dict.replay_entries ⟨filed [] (toolOutputs (xs ++ ys)), hNodup⟩
    unfold KeepsTools
    rw [toolOutputs_aggregate_nil, show Dict.replay _ = _ from hReplay, ← filed_values []]
    exact List.Subperm.refl _

theorem namesApart_of_tools
    (hSame : ∀ k, ((aggregate xs).toolOutputs.update (aggregate ys).toolOutputs).get? k =
      (aggregate (xs ++ ys)).toolOutputs.get? k) (hKeeps : KeepsTools (xs ++ ys)) :
    NamesApart xs ys := by
  have hSub : (aggregate (xs ++ ys)).toolOutputs.keys ⊆
      (filed [] (toolOutputs xs)).map Prod.fst ++ (filed [] (toolOutputs ys)).map Prod.fst := by
    intro k hk
    have hSome := Dict.mem_keys_iff.mp hk
    rw [← hSame, Dict.get?_update, Option.isSome_or, Bool.or_eq_true, toolOutputs_aggregate_nil,
      toolOutputs_aggregate_nil, Dict.isSome_get?_replay, Dict.isSome_get?_replay] at hSome
    exact List.mem_append.mpr hSome.symm
  have hSubperm := List.subperm_of_subset (aggregate (xs ++ ys)).toolOutputs.nodup hSub
  have hCount : (toolOutputs (xs ++ ys)).length ≤
      (aggregate (xs ++ ys)).toolOutputs.keys.length := by
    have hLength := hKeeps.length_le
    unfold Dict.values at hLength
    rw [List.length_map, List.length_map] at hLength
    unfold Dict.keys
    rw [List.length_map]
    exact hLength
  have hPerm := hSubperm.perm_of_length_le (by
    rw [List.length_append, length_filed, length_filed, ← List.length_append, ← toolOutputs_append]
    exact hCount)
  exact hPerm.nodup_iff.mp (aggregate (xs ++ ys)).toolOutputs.nodup

/-- **Aggregation.** For results of different nodes, merging the aggregates is aggregating
everything, and no tool output is lost, iff the numbers can be regrouped and no name that a tool
output gets in its own aggregate comes up twice. -/
theorem mergePair_aggregate_iff (xs ys : List (NodeResult V F))
    (hDisjoint : ∀ x ∈ xs, ∀ y ∈ ys, x.nodeId ≠ y.nodeId) :
    (Same (mergePair (aggregate xs) (aggregate ys)) (aggregate (xs ++ ys)) ∧
        KeepsTools (xs ++ ys)) ↔
      Regroups NodeResult.metrics xs ys ∧ Regroups NodeResult.budgetUsed xs ys ∧
        NamesApart xs ys := by
  obtain ⟨hOutputs, hMetadata, hRefs, hIds⟩ := mergePair_rest hDisjoint
  obtain ⟨hMetrics, hBudgets, hTools, -⟩ := mergePair_base (aggregate xs) (aggregate ys)
  have hMetricsIff := sums_same_iff NodeResult.metrics xs ys
  have hBudgetsIff := sums_same_iff NodeResult.budgetUsed xs ys
  unfold sums at hMetricsIff hBudgetsIff
  constructor
  · rintro ⟨hSame, hKeeps⟩
    refine ⟨hMetricsIff.mp fun k => ?_, hBudgetsIff.mp fun k => ?_, ?_⟩
    · have hEq := hSame.metrics k
      rwa [hMetrics, metrics_aggregate, metrics_aggregate, metrics_aggregate] at hEq
    · have hEq := hSame.budgets k
      rwa [hBudgets, budgets_aggregate, budgets_aggregate, budgets_aggregate] at hEq
    · refine namesApart_of_tools (fun k => ?_) hKeeps
      rw [← hTools]
      exact hSame.toolOutputs k
  · rintro ⟨hRegroupMetrics, hRegroupBudgets, hApart⟩
    obtain ⟨hToolsSame, hKeeps⟩ := tools_of_namesApart hApart
    refine ⟨?_, hKeeps⟩
    exact
      { outputs := hOutputs
        metadata := hMetadata
        metrics := fun k => by
          rw [hMetrics, metrics_aggregate, metrics_aggregate, metrics_aggregate]
          exact hMetricsIff.mpr hRegroupMetrics k
        budgets := fun k => by
          rw [hBudgets, budgets_aggregate, budgets_aggregate, budgets_aggregate]
          exact hBudgetsIff.mpr hRegroupBudgets k
        toolOutputs := fun k => by
          rw [hTools]
          exact hToolsSame k
        memoryRefs := hRefs
        nodeIds := hIds
        metadataExtra := fun k => by
          rw [metadataExtra_aggregate]
          show ((aggregate (carried _ _) _).metadataExtra).get? k = _
          rw [metadataExtra_aggregate] }

/-- `node` has called one tool. -/
def called (node : NodeId) (tool : String) (output : Nat) : NodeResult Nat Nat where
  nodeId := node
  toolOutputs := Dict.empty.set tool output

theorem mergePair_aggregate_iff_called :
    Same (mergePair (aggregate [called "a" "search" 1]) (aggregate [called "b" "fetch" 2]))
        (aggregate [called "a" "search" 1, called "b" "fetch" 2]) ∧
      KeepsTools [called "a" "search" 1, called "b" "fetch" 2] :=
  (mergePair_aggregate_iff [called "a" "search" 1] [called "b" "fetch" 2] (by decide +kernel)).mpr
    ⟨fun _ h => absurd rfl h, fun _ h => absurd rfl h, by decide +kernel⟩

/-- Two nodes call the same tool: `merge_pair` keeps the second output only. -/
theorem not_mergePair_called :
    ¬ ∀ xs ys : List (NodeResult Nat Nat), (∀ x ∈ xs, ∀ y ∈ ys, x.nodeId ≠ y.nodeId) →
      Same (mergePair (aggregate xs) (aggregate ys)) (aggregate (xs ++ ys)) := by
  intro h
  have hSame := h [called "a" "search" 1] [called "b" "search" 2] (by decide +kernel)
  exact absurd (hSame.toolOutputs "search") (by decide +kernel)

end

end Neuroswarm.MetaOrchestrator.Aggregation
