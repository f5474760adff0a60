import Neuroswarm.Context.Record

/-!
# Swarm context — diffs

`diff.py`: the differences of two contexts by domain. A diff compares the fields that it
names, the content hash covers the whole record.

* `empty_iff` — a diff is empty iff the hashes agree or no compared field has changed.
* `contentHash_eq_iff` — the hashes agree iff every member of the payload has the same
  canonical form on both sides.
* `empty_iff_hash_iff` — when an empty diff and equal hashes say the same.
-/

namespace Neuroswarm.Context.Record

variable {V F : Type*}

-- ------ Values and field diffs

/-- A value as a field diff shows it. -/
inductive Shown (V F : Type*) where
  | none
  | any (v : V)
  | str (s : String)
  | int (n : Int)
  | float (x : F)
  | bool (b : Bool)
  | strs (l : List String)

/-- `==` between two values of one field. -/
def Shown.eq (py : Python V F) : Shown V F → Shown V F → Bool
  | .none, .none => true
  | .any v, .any w => py.eq v w
  | .str s, .str t => s == t
  | .int m, .int n => m == n
  | .float x, .float y => py.floatEq x y
  | .bool b, .bool c => b == c
  | .strs l, .strs m => l == m
  | _, _ => false

def Shown.optStr : Option String → Shown V F
  | .none => .none
  | .some s => .str s

def Shown.optInt : Option Int → Shown V F
  | .none => .none
  | .some n => .int n

def Shown.optFloat : Option F → Shown V F
  | .none => .none
  | .some x => .float x

/-- A value that `dict.get` returns: `None` where the key is absent. -/
def Shown.got (py : Python V F) (v : Option V) : Shown V F := .any (v.getD py.none)

structure FieldDiff (V F : Type*) where
  path : String
  before : Shown V F := .none
  after : Shown V F := .none

/-- `_diff_mapping`; `shown` is how a value that `dict.get` returns is shown. -/
def diffMapping {W : Type*} (py : Python V F) (shown : Option W → Shown V F)
    (before after : Dict String W) (pre : String) : List (FieldDiff V F) :=
  let keys := before.keys ++ after.keys.filter fun k => !before.contains k
  (keys.mergeSort fun k l => decide (k ≤ l)).filterMap fun k =>
    let b := shown (before.get? k)
    let a := shown (after.get? k)
    if b.eq py a then none else some { path := pre ++ "." ++ k, before := b, after := a }

def diffScalar (py : Python V F) (path : String) (before after : Shown V F) :
    List (FieldDiff V F) :=
  if before.eq py after then [] else [{ path, before, after }]

/-- Fields of a domain by name, with `getattr` of each. -/
abbrev Fields (C V F : Type*) := List (String × (C → Shown V F))

/-- `for name in (...): diffs.extend(_diff_scalar(f"domain.{name}", ...))`. -/
def diffFields {C : Type*} (py : Python V F) (pre : String) (fields : Fields C V F)
    (left right : C) : List (FieldDiff V F) :=
  fields.flatMap fun f => diffScalar py (pre ++ f.1) (f.2 left) (f.2 right)

-- ------ Domains

def budgetFields : Fields (BudgetContext V F) V F :=
  [("cost_usd_limit", fun b => .optFloat b.costUsdLimit),
    ("cost_usd_used", fun b => .float b.costUsdUsed),
    ("tokens_limit", fun b => .optFloat b.tokensLimit),
    ("tokens_used", fun b => .float b.tokensUsed),
    ("latency_ms_limit", fun b => .optFloat b.latencyMsLimit),
    ("latency_ms_used", fun b => .float b.latencyMsUsed),
    ("energy_j_limit", fun b => .optFloat b.energyJLimit),
    ("energy_j_used", fun b => .float b.energyJUsed),
    ("memory_bytes_limit", fun b => .optInt b.memoryBytesLimit),
    ("memory_bytes_used", fun b => .int b.memoryBytesUsed),
    ("reasoning_tokens_limit", fun b => .optFloat b.reasoningTokensLimit),
    ("reasoning_tokens_used", fun b => .float b.reasoningTokensUsed),
    ("envelope_id", fun b => .optStr b.envelopeId),
    ("frozen", fun b => .bool b.frozen)]

def diffBudget (py : Python V F) (left right : SwarmContext V F) : List (FieldDiff V F) :=
  diffFields py "budget." budgetFields left.budget right.budget ++
    diffMapping py (.got py) left.budget.metadata right.budget.metadata "budget.metadata"

def memoryFields : Fields (MemoryContext V F) V F :=
  [("session_id", fun m => .optStr m.sessionId),
    ("checkpoint_id", fun m => .optStr m.checkpointId),
    ("memory_pressure", fun m => .float m.memoryPressure),
    ("tier_hint", fun m => .str m.tierHint),
    ("keys", fun m => .strs m.keys)]

def diffMemory (py : Python V F) (left right : SwarmContext V F) : List (FieldDiff V F) :=
  diffFields py "memory." memoryFields left.memory right.memory ++
    diffMapping py (.got py) left.memory.workingMemory right.memory.workingMemory
      "memory.working" ++
    diffMapping py (.got py) left.memory.scratchpad right.memory.scratchpad
      "memory.scratchpad" ++
    diffMapping py (.got py) left.memory.metadata right.memory.metadata "memory.metadata"

def executionFields : Fields (ExecutionContext V F) V F :=
  [("run_id", fun e => .str e.runId),
    ("current_node", fun e => .optStr e.currentNode),
    ("current_agent", fun e => .optStr e.currentAgent),
    ("confidence", fun e => .optFloat e.confidence),
    ("depth", fun e => .int e.depth),
    ("timeout_s", fun e => .optFloat e.timeoutS),
    ("completed_nodes", fun e => .strs e.completedNodes),
    ("pending_nodes", fun e => .strs e.pendingNodes),
    ("failed_nodes", fun e => .strs e.failedNodes)]

def diffExecution (py : Python V F) (left right : SwarmContext V F) : List (FieldDiff V F) :=
  diffFields py "execution." executionFields left.execution right.execution ++
    diffMapping py .optStr left.execution.nodeStatuses right.execution.nodeStatuses
      "execution.node_statuses" ++
    diffMapping py (.got py) left.execution.nodeResults right.execution.nodeResults
      "execution.node_results"

def tagFields : Fields (SwarmContext V F) V F := [("tags", fun c => .strs c.tags)]

def diffMetadata (py : Python V F) (left right : SwarmContext V F) : List (FieldDiff V F) :=
  diffMapping py (.got py) left.metadata right.metadata "metadata" ++
    diffMapping py .optStr left.labels right.labels "labels" ++
    diffFields py "" tagFields left right

def knowledgeFields : Fields (KnowledgeContext V F) V F :=
  [("namespaces", fun k => .strs k.namespaces)]

def toolFields : Fields (ToolContext V F) V F :=
  [("available_tools", fun t => .strs t.availableTools)]

def otherFields : Fields (SwarmContext V F) V F :=
  [("request_id", fun c => .str c.requestId),
    ("workflow_id", fun c => .str c.workflowId),
    ("execution_id", fun c => .str c.executionId),
    ("session_id", fun c => .optStr c.sessionId),
    ("version", fun c => .str c.version)]

-- ------ `diff_contexts`

structure ContextDiff (V F : Type*) where
  leftId : String := ""
  rightId : String := ""
  leftHash : String := ""
  rightHash : String := ""
  identical : Bool := false
  execution : List (FieldDiff V F) := []
  budget : List (FieldDiff V F) := []
  memory : List (FieldDiff V F) := []
  knowledge : List (FieldDiff V F) := []
  tools : List (FieldDiff V F) := []
  metadata : List (FieldDiff V F) := []
  other : List (FieldDiff V F) := []

def ContextDiff.empty (d : ContextDiff V F) : Bool :=
  d.identical || !(!d.execution.isEmpty || !d.budget.isEmpty || !d.memory.isEmpty ||
    !d.knowledge.isEmpty || !d.tools.isEmpty || !d.metadata.isEmpty || !d.other.isEmpty)

def diffContexts (py : Python V F) (digest : Json → String) (left right : SwarmContext V F) :
    ContextDiff V F :=
  let lh := left.contentHash py digest
  let rh := right.contentHash py digest
  if lh = rh then
    { leftId := left.swarmId, rightId := right.swarmId, leftHash := lh, rightHash := rh,
      identical := true }
  else
    { leftId := left.swarmId, rightId := right.swarmId, leftHash := lh, rightHash := rh,
      identical := false
      execution := diffExecution py left right
      budget := diffBudget py left right
      memory := diffMemory py left right
      knowledge := diffFields py "knowledge." knowledgeFields left.knowledge right.knowledge
      tools := diffFields py "tools." toolFields left.tools right.tools
      metadata := diffMetadata py left right
      other := diffFields py "" otherFields left right }

-- ------ Fields that have not changed

def SameFields {C : Type*} (py : Python V F) (fields : Fields C V F) (left right : C) : Prop :=
  ∀ f ∈ fields, (f.2 left).eq py (f.2 right) = true

/-- A key that is absent counts as one with the value `None`. -/
def SameMapping {W : Type*} (py : Python V F) (shown : Option W → Shown V F)
    (before after : Dict String W) : Prop :=
  ∀ k, before.contains k ∨ after.contains k →
    (shown (before.get? k)).eq py (shown (after.get? k)) = true

/-- No field that a diff names has changed, as `==` sees it. -/
structure Unchanged (py : Python V F) (left right : SwarmContext V F) : Prop where
  budget : SameFields py budgetFields left.budget right.budget
  budgetMetadata : SameMapping py (.got py) left.budget.metadata right.budget.metadata
  memory : SameFields py memoryFields left.memory right.memory
  workingMemory : SameMapping py (.got py) left.memory.workingMemory right.memory.workingMemory
  scratchpad : SameMapping py (.got py) left.memory.scratchpad right.memory.scratchpad
  memoryMetadata : SameMapping py (.got py) left.memory.metadata right.memory.metadata
  execution : SameFields py executionFields left.execution right.execution
  nodeStatuses : SameMapping py .optStr left.execution.nodeStatuses right.execution.nodeStatuses
  nodeResults : SameMapping py (.got py) left.execution.nodeResults right.execution.nodeResults
  metadata : SameMapping py (.got py) left.metadata right.metadata
  labels : SameMapping py .optStr left.labels right.labels
  tags : SameFields py tagFields left right
  knowledge : SameFields py knowledgeFields left.knowledge right.knowledge
  tools : SameFields py toolFields left.tools right.tools
  other : SameFields py otherFields left right

theorem diffScalar_eq_nil_iff {py : Python V F} {path : String} {before after : Shown V F} :
    diffScalar py path before after = [] ↔ before.eq py after = true := by
  unfold diffScalar
  split <;> simp_all

theorem diffFields_eq_nil_iff {C : Type*} {py : Python V F} {pre : String}
    {fields : Fields C V F} {left right : C} :
    diffFields py pre fields left right = [] ↔ SameFields py fields left right := by
  rw [diffFields, List.flatMap_eq_nil_iff]
  exact forall₂_congr fun f _ => diffScalar_eq_nil_iff

theorem diffMapping_eq_nil_iff {W : Type*} {py : Python V F} {shown : Option W → Shown V F}
    {before after : Dict String W} {pre : String} :
    diffMapping py shown before after pre = [] ↔ SameMapping py shown before after := by
  have hKeys : ∀ k, k ∈ before.keys ++ after.keys.filter (fun k => !before.contains k) ↔
      (before.contains k ∨ after.contains k) := by
    intro k
    have hBefore : k ∈ before.keys ↔ before.contains k = true := Dict.mem_keys_iff
    have hAfter : k ∈ after.keys ↔ after.contains k = true := Dict.mem_keys_iff
    rw [List.mem_append, List.mem_filter, hBefore, hAfter]
    by_cases h : before.contains k = true <;> simp [h]
  rw [diffMapping, List.filterMap_eq_nil_iff]
  constructor
  · intro h k hk
    have hNone := h k (List.mem_mergeSort.mpr ((hKeys k).mpr hk))
    by_contra hNe
    simp [hNe] at hNone
  · intro h k hk
    have hEq := h k ((hKeys k).mp (List.mem_mergeSort.mp hk))
    simp [hEq]

section

variable {py : Python V F} {digest : Json → String} {left right : SwarmContext V F}

/-- **A diff is empty** iff the hashes agree or no compared field has changed. -/
theorem empty_iff :
    (diffContexts py digest left right).empty = true ↔
      left.contentHash py digest = right.contentHash py digest ∨ Unchanged py left right := by
  by_cases hHash : left.contentHash py digest = right.contentHash py digest
  · simp [diffContexts, ContextDiff.empty, hHash]
  · rw [or_iff_right hHash]
    simp only [diffContexts, if_neg hHash, ContextDiff.empty, diffExecution, diffBudget, diffMemory, diffMetadata,
      Bool.false_or, Bool.not_or, Bool.not_not, Bool.and_eq_true, List.isEmpty_iff,
      List.append_eq_nil_iff, diffFields_eq_nil_iff, diffMapping_eq_nil_iff]
    constructor
    · rintro ⟨⟨⟨⟨⟨⟨⟨⟨hExecution, hStatuses⟩, hResults⟩, hBudget, hBudgetMeta⟩,
        ⟨⟨hMemory, hWorking⟩, hScratchpad⟩, hMemoryMeta⟩, hKnowledge⟩, hTools⟩,
        ⟨hMetadata, hLabels⟩, hTags⟩, hOther⟩
      exact ⟨hBudget, hBudgetMeta, hMemory, hWorking, hScratchpad, hMemoryMeta, hExecution,
        hStatuses, hResults, hMetadata, hLabels, hTags, hKnowledge, hTools, hOther⟩
    · intro h
      exact ⟨⟨⟨⟨⟨⟨⟨⟨h.execution, h.nodeStatuses⟩, h.nodeResults⟩, h.budget, h.budgetMetadata⟩,
        ⟨⟨h.memory, h.workingMemory⟩, h.scratchpad⟩, h.memoryMetadata⟩, h.knowledge⟩, h.tools⟩,
        ⟨h.metadata, h.labels⟩, h.tags⟩, h.other⟩

end

-- ------ What a diff does not see

/-- `c'` with the fields that a diff names taken from `c`. -/
def SwarmContext.withCompared (c' c : SwarmContext V F) : SwarmContext V F :=
  { c' with
    requestId := c.requestId, workflowId := c.workflowId, executionId := c.executionId
    sessionId := c.sessionId, version := c.version
    metadata := c.metadata, labels := c.labels, tags := c.tags
    knowledge := { c'.knowledge with namespaces := c.knowledge.namespaces }
    tools := { c'.tools with availableTools := c.tools.availableTools }
    budget := { c'.budget with
      costUsdLimit := c.budget.costUsdLimit, costUsdUsed := c.budget.costUsdUsed
      tokensLimit := c.budget.tokensLimit, tokensUsed := c.budget.tokensUsed
      latencyMsLimit := c.budget.latencyMsLimit, latencyMsUsed := c.budget.latencyMsUsed
      energyJLimit := c.budget.energyJLimit, energyJUsed := c.budget.energyJUsed
      memoryBytesLimit := c.budget.memoryBytesLimit
      memoryBytesUsed := c.budget.memoryBytesUsed
      reasoningTokensLimit := c.budget.reasoningTokensLimit
      reasoningTokensUsed := c.budget.reasoningTokensUsed
      envelopeId := c.budget.envelopeId, frozen := c.budget.frozen
      metadata := c.budget.metadata }
    memory := { c'.memory with
      sessionId := c.memory.sessionId, checkpointId := c.memory.checkpointId
      memoryPressure := c.memory.memoryPressure, tierHint := c.memory.tierHint
      keys := c.memory.keys, workingMemory := c.memory.workingMemory
      scratchpad := c.memory.scratchpad, metadata := c.memory.metadata }
    execution := { c'.execution with
      runId := c.execution.runId, currentNode := c.execution.currentNode
      currentAgent := c.execution.currentAgent, confidence := c.execution.confidence
      depth := c.execution.depth, timeoutS := c.execution.timeoutS
      completedNodes := c.execution.completedNodes
      pendingNodes := c.execution.pendingNodes, failedNodes := c.execution.failedNodes
      nodeStatuses := c.execution.nodeStatuses, nodeResults := c.execution.nodeResults } }

section

variable {py : Python V F}

theorem Shown.eq_refl (hEq : ∀ v, py.eq v v = true) (hFloat : ∀ x, py.floatEq x x = true)
    (s : Shown V F) : s.eq py s = true := by
  cases s <;> simp [Shown.eq, hEq, hFloat]

theorem SameMapping.refl {W : Type*} (hRefl : ∀ s : Shown V F, s.eq py s = true)
    (shown : Option W → Shown V F) (d : Dict String W) : SameMapping py shown d d :=
  fun _ _ => hRefl _

/-- **A diff is blind to every other field**: it says nothing about two contexts that share
the fields it names. -/
theorem unchanged_withCompared (hEq : ∀ v, py.eq v v = true)
    (hFloat : ∀ x, py.floatEq x x = true) (c c' : SwarmContext V F) :
    Unchanged py c (c'.withCompared c) := by
  have hRefl : ∀ s : Shown V F, s.eq py s = true := Shown.eq_refl hEq hFloat
  constructor
  case budget => simp [SameFields, budgetFields, SwarmContext.withCompared, hRefl]
  case memory => simp [SameFields, memoryFields, SwarmContext.withCompared, hRefl]
  case execution => simp [SameFields, executionFields, SwarmContext.withCompared, hRefl]
  case tags => simp [SameFields, tagFields, SwarmContext.withCompared, hRefl]
  case knowledge => simp [SameFields, knowledgeFields, SwarmContext.withCompared, hRefl]
  case tools => simp [SameFields, toolFields, SwarmContext.withCompared, hRefl]
  case other => simp [SameFields, otherFields, SwarmContext.withCompared, hRefl]
  case nodeStatuses => exact .refl hRefl _ _
  case labels => exact .refl hRefl _ _
  all_goals exact .refl hRefl _ _

end

-- ------ Hashes

section

variable {py : Python V F} {digest : Json → String} {left right : SwarmContext V F}

theorem eq_of_perm_of_keys {ms ns : List (String × Json)}
    (hKeys : ms.map Prod.fst = ns.map Prod.fst) (hNodup : (ms.map Prod.fst).Nodup)
    (hPerm : ms.Perm ns) : ms = ns := by
  induction ms generalizing ns with
  | nil => exact hPerm.nil_eq
  | cons m ms ih =>
    cases ns with
    | nil => simp at hKeys
    | cons n ns =>
      rw [List.map_cons, List.map_cons, List.cons.injEq] at hKeys
      rw [List.map_cons, List.nodup_cons] at hNodup
      have hHead : m = n := by
        rcases List.mem_cons.mp (hPerm.subset List.mem_cons_self) with hEq | hMem
        · exact hEq
        · have hLater : m.1 ∈ ms.map Prod.fst := hKeys.2 ▸ List.mem_map_of_mem hMem
          exact absurd hLater hNodup.1
      subst hHead
      rw [ih hKeys.2 hNodup.2 hPerm.cons_inv]

theorem normalize_dict_eq_iff {ms ns : List (String × Json)}
    (hKeys : ms.map Prod.fst = ns.map Prod.fst) (hNodup : (ms.map Prod.fst).Nodup) :
    Router.normalize (.dict ms) = Router.normalize (.dict ns) ↔
      List.Forall₂ (fun m n => Router.normalize m.2 = Router.normalize n.2) ms ns := by
  have hNormalNodup : ((Router.normalizeMembers ms).map Prod.fst).Nodup := by
    rwa [Router.map_fst_normalizeMembers]
  have hNormalKeys : (Router.normalizeMembers ms).map Prod.fst =
      (Router.normalizeMembers ns).map Prod.fst := by
    rw [Router.map_fst_normalizeMembers, Router.map_fst_normalizeMembers, hKeys]
  have hSorted : Router.normalize (.dict ms) = Router.normalize (.dict ns) ↔
      Router.normalizeMembers ms = Router.normalizeMembers ns := by
    rw [Router.normalize, Router.normalize, Json.dict.injEq,
      Router.sortKeys_eq_iff hNormalNodup]
    exact ⟨eq_of_perm_of_keys hNormalKeys hNormalNodup, fun h => h ▸ List.Perm.refl _⟩
  rw [hSorted, Router.normalizeMembers_eq, Router.normalizeMembers_eq]
  clear hSorted hNormalKeys hNormalNodup hNodup
  induction ms generalizing ns with
  | nil =>
    have hNil : ns = [] := by simpa using hKeys.symm
    simp [hNil]
  | cons m ms ih =>
    cases ns with
    | nil => simp at hKeys
    | cons n ns =>
      simp only [List.map_cons, List.cons.injEq] at hKeys
      simp [ih hKeys.2, hKeys.1]

/-- Every member of the payload has the same canonical form on both sides. -/
def SameForm (py : Python V F) (left right : SwarmContext V F) : Prop :=
  List.Forall₂ (fun m n => Router.normalize m.2 = Router.normalize n.2)
    (left.members py) (right.members py)

theorem normalize_payload_eq_iff :
    Router.normalize (left.payload py) = Router.normalize (right.payload py) ↔
      SameForm py left right :=
  normalize_dict_eq_iff rfl (by simp [SwarmContext.members])

theorem contentHash_eq_iff (hDigest : Function.Injective digest) :
    left.contentHash py digest = right.contentHash py digest ↔ SameForm py left right :=
  hDigest.eq_iff.trans normalize_payload_eq_iff

/-- **An empty diff and equal hashes say the same** unless a member of the payload has another
canonical form while no compared field has changed. -/
theorem empty_iff_hash_iff (hDigest : Function.Injective digest) :
    ((diffContexts py digest left right).empty = true ↔
        left.contentHash py digest = right.contentHash py digest) ↔
      (Unchanged py left right → SameForm py left right) := by
  rw [empty_iff, contentHash_eq_iff hDigest]
  constructor
  · intro h hUnchanged
    exact h.mp (.inr hUnchanged)
  · intro h
    exact ⟨fun hEmpty => hEmpty.elim id h, .inl⟩

end

-- ------ A prompt that changes

namespace Prompts

def zero : FloatText := ⟨['0', '.', '0'], by simp [isNumeral], by simp⟩

def one : FloatText := ⟨['1', '.', '0'], by simp [isNumeral], by simp⟩

def python : Python (Option Int) FloatText where
  none := .none
  eq := (· == ·)
  dump := optInt
  floatEq := (· == ·)
  floatDump := .float

/-- A context with the given prompt and defaults otherwise. -/
def withPrompt (prompt : String) : SwarmContext (Option Int) FloatText where
  swarmId := "sw_1"
  requestId := "r"
  workflowId := "w"
  executionId := "e"
  request := { prompt }
  budget := {
    used := {
      costUsd := zero, tokens := zero, latencyMs := zero, energyJ := zero, cpuCoresS := zero
      reasoningTokens := zero }
    costUsdUsed := zero, tokensUsed := zero, latencyMsUsed := zero, energyJUsed := zero
    reasoningTokensUsed := zero }
  memory := { memoryPressure := zero, compression := { ratio := one } }
  knowledge := { retrieval := { latencyMs := zero } }
  metrics := { budgetUsageRatio := zero }
  traceContext := {
    traceId := "t", spanId := "s", workflowId := "w", requestId := "r", correlationId := "c"
    executionId := "e" }
  version := "1.0.0"
  schemaVersion := "1.0.0"
  createdAt := "2026-01-01T00:00:00Z"
  updatedAt := "2026-01-01T00:00:00Z"

theorem prompt_eq_of_normalize_eq {r r' : RequestContext (Option Int)}
    (h : Router.normalize (r.dump python) = Router.normalize (r'.dump python)) :
    r.prompt = r'.prompt := by
  have hMembers := (normalize_dict_eq_iff (by rfl) (by simp)).mp h
  rw [List.forall₂_cons] at hMembers
  simpa [Router.normalize] using hMembers.1

def digest (j : Json) : String := String.ofList j.dumps

theorem digest_injective : Function.Injective digest :=
  fun _ _ h => Json.dumps_injective (String.ofList_injective h)

theorem unchanged : Unchanged python (withPrompt "a") (withPrompt "b") :=
  unchanged_withCompared (by simp [python]) (by simp [python]) (withPrompt "a") (withPrompt "b")

theorem not_sameForm : ¬ SameForm python (withPrompt "a") (withPrompt "b") := by
  intro h
  have hRequest : Router.normalize ((withPrompt "a").request.dump python) =
      Router.normalize ((withPrompt "b").request.dump python) := by
    simp only [SameForm, SwarmContext.members, List.forall₂_cons] at h
    exact h.2.2.2.2.2.2.2.1
  exact absurd (prompt_eq_of_normalize_eq hRequest) (by decide)

theorem empty_iff_hash_iff_prompts :
    ((diffContexts python digest (withPrompt "a") (withPrompt "b")).empty = true ↔
        (withPrompt "a").contentHash python digest =
          (withPrompt "b").contentHash python digest) ↔
      (Unchanged python (withPrompt "a") (withPrompt "b") →
        SameForm python (withPrompt "a") (withPrompt "b")) :=
  empty_iff_hash_iff digest_injective

/-- The two contexts have an empty diff and different hashes. -/
theorem not_empty_iff_hash : ¬ ((diffContexts python digest (withPrompt "a")
    (withPrompt "b")).empty = true ↔
      (withPrompt "a").contentHash python digest = (withPrompt "b").contentHash python digest) := by
  intro h
  have hEmpty : (diffContexts python digest (withPrompt "a") (withPrompt "b")).empty = true :=
    empty_iff.mpr (.inr unchanged)
  exact not_sameForm ((contentHash_eq_iff digest_injective).mp (h.mp hEmpty))

end Prompts

end Neuroswarm.Context.Record
