import Mathlib.Data.Finset.Image
import Neuroswarm.Experience.Survival

/-!
# Experience store — queries

A query intersects the sets of ids under the keys that its filter names, and runs the
filter over what is left. The walk over a set of ids has no order of its own, so it is a
parameter here, `SetOrder`; a result is compared as a collection.
-/

namespace Neuroswarm.Experience

open Dict Run

variable {D : Type}

/-- What a filter reads of the rest of a record. -/
structure DataFields (D : Type) where
  sessionId : D → Option String
  /-- the envelope id of the budget, where there is a budget -/
  budgetEnvelopeId : D → Option String

/-- Composable AND-filter over execution records. -/
structure ExperienceFilter (D : Type) where
  workflowId : Option String := none
  requestId : Option String := none
  sessionId : Option String := none
  agentId : Option String := none
  model : Option String := none
  backend : Option String := none
  success : Option Bool := none
  tag : Option String := none
  tags : List String := []
  minLatency : Option ℚ := none
  maxLatency : Option ℚ := none
  minCost : Option ℚ := none
  maxCost : Option ℚ := none
  minQuality : Option ℚ := none
  maxQuality : Option ℚ := none
  since : Option ℚ := none
  untilTime : Option ℚ := none
  budgetEnvelopeId : Option String := none
  custom : List (ExecutionRecord D → Bool) := []

/-- A bound that is not set holds. -/
def notBelow (bound : Option ℚ) (value : ℚ) : Bool := bound.all fun low => !(value < low)

def notAbove (bound : Option ℚ) (value : ℚ) : Bool := bound.all fun high => !(high < value)

def ExperienceFilter.matches (f : DataFields D) (filt : ExperienceFilter D)
    (r : ExecutionRecord D) : Bool :=
  filt.workflowId.all (r.workflowId == ·) &&
  filt.requestId.all (r.requestId == some ·) &&
  filt.sessionId.all (f.sessionId r.data == some ·) &&
  filt.success.all (r.success == ·) &&
  filt.agentId.all (r.agents.contains ·) &&
  filt.model.all (r.modelsUsed.contains ·) &&
  filt.backend.all (r.backendsUsed.contains ·) &&
  filt.tag.all (r.tags.contains ·) &&
  filt.tags.all (r.tags.contains ·) &&
  notBelow filt.minLatency r.latency &&
  notAbove filt.maxLatency r.latency &&
  notBelow filt.minCost r.estimatedCost &&
  notAbove filt.maxCost r.estimatedCost &&
  notBelow filt.minQuality r.qualityScore &&
  notAbove filt.maxQuality r.qualityScore &&
  notBelow filt.since r.timestamp &&
  notAbove filt.untilTime r.timestamp &&
  filt.budgetEnvelopeId.all (f.budgetEnvelopeId r.data == some ·) &&
  filt.custom.all fun pred => pred r

def ExperienceFilter.apply (f : DataFields D) (filt : ExperienceFilter D)
    (records : List (ExecutionRecord D)) : List (ExecutionRecord D) :=
  records.filter fun r => filt.matches f r

/-- The keys that a filter looks up, in the order of its sets. -/
def ExperienceFilter.keys (filt : ExperienceFilter D) : List (Facet × String) :=
  (filt.workflowId.toList.map fun id => (.workflow, id)) ++
    (filt.requestId.toList.map fun id => (.request, id)) ++
    (filt.agentId.toList.map fun id => (.agent, id)) ++
    (filt.model.toList.map fun model => (.model, model)) ++
    (filt.backend.toList.map fun backend => (.backend, backend)) ++
    (filt.success.toList.map fun success => (.success, toString success)) ++
    filt.tag.toList.map fun tag => (.tag, tag)

def ExperienceIndex.idsUnder (idx : ExperienceIndex D) (key : Facet × String) : Finset String :=
  (idx.postings.filter fun e => e.1 = key).image Prod.snd

structure SetOrder where
  walk : Finset String → List String
  nodup : ∀ ids, (walk ids).Nodup
  mem_walk : ∀ ids id, id ∈ walk ids ↔ id ∈ ids

namespace QueryEngine

/-- Narrow via indexes; none means full scan. -/
def candidateIds (idx : ExperienceIndex D) (filt : Option (ExperienceFilter D)) :
    Option (Finset String) :=
  match filt.map ExperienceFilter.keys with
  | none | some [] => none
  | some (key :: rest) =>
    some (rest.foldl (fun ids key => ids ∩ idx.idsUnder key) (idx.idsUnder key))

def filter (f : DataFields D) (order : SetOrder) (idx : ExperienceIndex D)
    (filt : Option (ExperienceFilter D)) (predicate : Option (ExecutionRecord D → Bool)) :
    List (ExecutionRecord D) :=
  let records := match candidateIds idx filt with
    | none => idx.byExecution.values
    | some ids => (order.walk ids).filterMap idx.byExecution.get?
  let records := match filt with
    | none => records
    | some filt => filt.apply f records
  match predicate with
  | none => records
  | some pred => records.filter pred

end QueryEngine

namespace InMemoryRepository

/-- `InMemoryRepository()` -/
def empty : InMemoryRepository D :=
  ⟨Dict.empty, Dict.empty, Dict.empty, Dict.empty, Dict.empty, .empty⟩

/-- A call that raises changes nothing. -/
def step (c : Codec D) (m : InMemoryRepository D) : RepositoryCall D → InMemoryRepository D
  | .appendExecution record now =>
    (m.appendExecution record (recordedEnvelope c record.executionId now)).getD m
  | .appendWorkflow record => (m.appendWorkflow record).getD m
  | .archiveExecution executionId now =>
    ((m.archiveExecution executionId c.empty now).map fun result => result.2.2).getD m
  | .setEnvelope env => m.setEnvelope env
  | .storeSnapshot sid payload => m.storeSnapshot sid payload

def Answers (f : DataFields D) (order : SetOrder) (m : InMemoryRepository D)
    (filt : ExperienceFilter D) : Prop :=
  (QueryEngine.filter f order m.index (some filt) none).Perm
    (m.listExecutions.filter fun r => filt.matches f r)

/-- A request id that is empty is asked for, and an active execution has it: no key leads to
that execution, as `add` skips an empty request id. -/
def Overlooks (f : DataFields D) (m : InMemoryRepository D) (filt : ExperienceFilter D) : Prop :=
  filt.requestId = some "" ∧ ∃ r ∈ m.listExecutions, filt.matches f r = true

end InMemoryRepository

-- ------ Keys and filters

variable {f : DataFields D} {filt : ExperienceFilter D} {r : ExecutionRecord D}

theorem mem_facets {key : Facet × String} : key ∈ r.facets ↔
    key = (.workflow, r.workflowId) ∨
    (∃ id, r.requestId = some id ∧ id ≠ "" ∧ key = (.request, id)) ∨
    (∃ id ∈ r.agents, key = (.agent, id)) ∨
    (∃ model ∈ r.modelsUsed, key = (.model, model)) ∨
    (∃ backend ∈ r.backendsUsed, key = (.backend, backend)) ∨
    key = (.success, toString r.success) ∨ ∃ tag ∈ r.tags, key = (.tag, tag) := by
  have hRequest : key ∈ (r.requestId.filter (· ≠ "")).toList.map (fun id => (Facet.request, id)) ↔
      ∃ id, r.requestId = some id ∧ id ≠ "" ∧ key = (.request, id) := by
    simp only [List.mem_map, Option.mem_toList, Option.filter_eq_some_iff, decide_eq_true_eq,
      and_assoc, @eq_comm _ key]
  unfold ExecutionRecord.facets
  simp only [List.cons_append, List.mem_cons, List.mem_append, hRequest]
  simp only [List.mem_map, eq_comm, or_assoc]

theorem request_notMem_facets : (Facet.request, "") ∉ r.facets := by
  rw [mem_facets]
  simp

theorem mem_facets_of_matches (h : filt.matches f r = true) {key : Facet × String}
    (hKey : key ∈ filt.keys) : key ∈ r.facets ∨ key = (.request, "") := by
  simp only [ExperienceFilter.matches, Bool.and_eq_true, and_assoc] at h
  obtain ⟨hWorkflow, hRequest, -, hSuccess, hAgent, hModel, hBackend, hTag, -⟩ := h
  rw [mem_facets]
  simp only [ExperienceFilter.keys, List.mem_append, List.mem_map, Option.mem_toList] at hKey
  rcases hKey with (((((⟨id, hId, rfl⟩ | ⟨id, hId, rfl⟩) | ⟨id, hId, rfl⟩) | ⟨id, hId, rfl⟩) |
    ⟨id, hId, rfl⟩) | ⟨id, hId, rfl⟩) | ⟨id, hId, rfl⟩
  · simp only [hId, Option.all_some, beq_iff_eq] at hWorkflow
    simp [hWorkflow]
  · simp only [hId, Option.all_some, beq_iff_eq] at hRequest
    by_cases hEmpty : id = ""
    · simp [hEmpty]
    · simp [hRequest, hEmpty]
  · simp only [hId, Option.all_some, List.contains_iff_mem] at hAgent
    simp [hAgent]
  · simp only [hId, Option.all_some, List.contains_iff_mem] at hModel
    simp [hModel]
  · simp only [hId, Option.all_some, List.contains_iff_mem] at hBackend
    simp [hBackend]
  · simp only [hId, Option.all_some, beq_iff_eq] at hSuccess
    simp [hSuccess]
  · simp only [hId, Option.all_some, List.contains_iff_mem] at hTag
    simp [hTag]

theorem ExperienceIndex.mem_idsUnder {idx : ExperienceIndex D} {key : Facet × String}
    {id : String} : id ∈ idx.idsUnder key ↔ (key, id) ∈ idx.postings := by
  rw [idsUnder, Finset.mem_image]
  constructor
  · rintro ⟨⟨key', id'⟩, hMem, rfl⟩
    obtain ⟨hMem, hKey⟩ := Finset.mem_filter.mp hMem
    exact hKey ▸ hMem
  · intro h
    exact ⟨(key, id), Finset.mem_filter.mpr ⟨h, rfl⟩, rfl⟩

theorem mem_foldl_inter {under : Facet × String → Finset String} {keys : List (Facet × String)}
    {ids : Finset String} {id : String} :
    id ∈ keys.foldl (fun ids key => ids ∩ under key) ids ↔
      id ∈ ids ∧ ∀ key ∈ keys, id ∈ under key := by
  induction keys generalizing ids with
  | nil => simp
  | cons key keys ih => rw [List.foldl_cons, ih, Finset.mem_inter, List.forall_mem_cons, and_assoc]

namespace QueryEngine

variable {idx : ExperienceIndex D} {executions : Dict String (ExecutionRecord D)}

theorem candidateIds_of_nil (h : filt.keys = []) : candidateIds idx (some filt) = none := by
  rw [candidateIds, Option.map_some, h]

theorem candidateIds_of_ne (h : filt.keys ≠ []) :
    ∃ ids, candidateIds idx (some filt) = some ids ∧
      ∀ id, id ∈ ids ↔ ∀ key ∈ filt.keys, (key, id) ∈ idx.postings := by
  obtain ⟨key, rest, hKeys⟩ := List.exists_cons_of_ne_nil h
  refine ⟨rest.foldl (fun ids key => ids ∩ idx.idsUnder key) (idx.idsUnder key), ?_, fun id => ?_⟩
  · rw [candidateIds, Option.map_some, hKeys]
  · rw [mem_foldl_inter, hKeys, List.forall_mem_cons]
    simp only [ExperienceIndex.mem_idsUnder]

end QueryEngine

namespace InMemoryRepository

variable {m : InMemoryRepository D} {order : SetOrder}

/-- Executions stand under their own ids, and the index is over the active ones. -/
structure Indexed (m : InMemoryRepository D) : Prop where
  indexOver : m.index.Over m.executions
  keyed : ∀ id r, m.executions.get? id = some r → r.executionId = id

theorem Indexed.mem_listExecutions (h : Indexed m) :
    r ∈ m.listExecutions ↔ m.executions.get? r.executionId = some r := by
  rw [listExecutions, mem_values_iff]
  constructor
  · rintro ⟨id, hGet⟩
    rw [h.keyed id r hGet]
    exact hGet
  · intro hGet
    exact ⟨_, hGet⟩

theorem nodup_values {d : Dict String (ExecutionRecord D)}
    (hKeyed : ∀ id r, d.get? id = some r → r.executionId = id) : d.values.Nodup := by
  have hIds : d.values.map (·.executionId) = d.keys := by
    rw [Dict.values, Dict.keys, List.map_map]
    refine List.map_congr_left fun e he => ?_
    exact hKeyed e.1 e.2 (mem_entries_iff.mp he)
  exact List.Nodup.of_map (·.executionId) (hIds ▸ d.nodup)

theorem Indexed.filter_eq (h : Indexed m) (f : DataFields D) (order : SetOrder)
    (filt : ExperienceFilter D) : ∃ records : List (ExecutionRecord D),
    QueryEngine.filter f order m.index (some filt) none = filt.apply f records ∧
      records.Nodup ∧
      ∀ r, r ∈ records ↔ r ∈ m.listExecutions ∧ ∀ key ∈ filt.keys, key ∈ r.facets := by
  have hKeyed : ∀ id r, m.index.byExecution.get? id = some r → r.executionId = id := by
    intro id r hGet
    exact h.keyed id r (h.indexOver.byExecution id ▸ hGet)
  by_cases hKeys : filt.keys = []
  · refine ⟨m.index.byExecution.values, ?_, nodup_values hKeyed, fun r => ?_⟩
    · rw [QueryEngine.filter, QueryEngine.candidateIds_of_nil hKeys]
    · have hNone : ∀ key ∈ filt.keys, key ∈ r.facets := by simp [hKeys]
      rw [and_iff_left hNone, listExecutions, mem_values_iff, mem_values_iff]
      simp only [h.indexOver.byExecution]
  · obtain ⟨ids, hIds, hMem⟩ := @QueryEngine.candidateIds_of_ne _ filt m.index hKeys
    refine ⟨(order.walk ids).filterMap m.index.byExecution.get?, ?_, ?_, fun r => ?_⟩
    · rw [QueryEngine.filter, hIds]
    · refine (order.nodup ids).filterMap fun id id' r hr hr' => ?_
      exact (hKeyed id r hr).symm.trans (hKeyed id' r hr')
    · rw [List.mem_filterMap, h.mem_listExecutions]
      constructor
      · rintro ⟨id, hId, hGet⟩
        obtain rfl := hKeyed id r hGet
        rw [h.indexOver.byExecution] at hGet
        refine ⟨hGet, fun key hKey => ?_⟩
        obtain ⟨r', hGet', hFacet⟩ :=
          (h.indexOver.postings key _).mp ((hMem _).mp ((order.mem_walk _ _).mp hId) key hKey)
        obtain rfl : r = r' := Option.some.inj (hGet.symm.trans hGet')
        exact hFacet
      · rintro ⟨hGet, hFacets⟩
        refine ⟨r.executionId, (order.mem_walk _ _).mpr ((hMem _).mpr fun key hKey => ?_), ?_⟩
        · exact (h.indexOver.postings key _).mpr ⟨r, hGet, hFacets key hKey⟩
        · rw [h.indexOver.byExecution, hGet]

theorem Indexed.answers_iff_overlooks (h : Indexed m) :
    m.Answers f order filt ↔ ¬ m.Overlooks f filt := by
  obtain ⟨records, hFilter, hNodup, hMem⟩ := h.filter_eq f order filt
  have hActive : m.listExecutions.Nodup := nodup_values h.keyed
  have hPerm : m.Answers f order filt ↔
      ∀ r, r ∈ m.listExecutions → filt.matches f r = true → ∀ key ∈ filt.keys, key ∈ r.facets := by
    rw [Answers, hFilter, ExperienceFilter.apply,
      List.perm_ext_iff_of_nodup (hNodup.filter _) (hActive.filter _)]
    simp only [List.mem_filter, hMem]
    grind
  rw [hPerm]
  constructor
  · rintro hFound ⟨hEmpty, r, hr, hMatches⟩
    have hKey : (Facet.request, "") ∈ filt.keys := by simp [ExperienceFilter.keys, hEmpty]
    exact request_notMem_facets (hFound r hr hMatches _ hKey)
  · intro hSeen r hr hMatches key hKey
    rcases mem_facets_of_matches hMatches hKey with hFacet | rfl
    · exact hFacet
    · exact absurd ⟨by simpa [ExperienceFilter.keys] using hKey, r, hr, hMatches⟩ hSeen

-- ------ Runs

theorem indexed_empty : (empty : InMemoryRepository D).Indexed :=
  ⟨ExperienceIndex.over_empty, fun _ _ h => nomatch h⟩

theorem Indexed.appendExecution (h : Indexed m) {record : ExecutionRecord D}
    {env : RecordEnvelope D} {m' : InMemoryRepository D}
    (hAppend : m.appendExecution record env = some m') : Indexed m' := by
  unfold InMemoryRepository.appendExecution at hAppend
  split at hAppend
  · contradiction
  · next hFree =>
    obtain rfl := Option.some.inj hAppend
    have hNew : m.executions.get? record.executionId = none := by
      simp only [IsExecution, not_or, Option.not_isSome_iff_eq_none] at hFree
      exact hFree.1
    refine ⟨h.indexOver.add hNew, fun id r hGet => ?_⟩
    simp only [get?_set] at hGet
    split at hGet
    · next hId =>
      obtain rfl := Option.some.inj hGet
      exact hId.symm
    · exact h.keyed id r hGet

theorem Indexed.archiveExecution (h : Indexed m) {executionId : String} {empty : D} {now : Int}
    {record : ExecutionRecord D} {env : RecordEnvelope D} {m' : InMemoryRepository D}
    (hArchive : m.archiveExecution executionId empty now = some (record, env, m')) :
    Indexed m' := by
  unfold InMemoryRepository.archiveExecution at hArchive
  split at hArchive
  · next record' hGet =>
    simp only [Option.some.injEq, Prod.mk.injEq] at hArchive
    obtain ⟨-, -, rfl⟩ := hArchive
    refine ⟨h.indexOver.removeFromActive hGet (h.keyed _ _ hGet), fun id r hGet' => ?_⟩
    exact h.keyed id r (get?_erase_eq_some.mp hGet').2
  · split at hArchive
    · simp only [Option.some.injEq, Prod.mk.injEq] at hArchive
      obtain ⟨-, -, rfl⟩ := hArchive
      exact h
    · contradiction

variable {c : Codec D}

theorem indexed_step (call : RepositoryCall D) (h : Indexed m) : Indexed (m.step c call) := by
  cases call with
  | appendExecution record now =>
    show Indexed ((m.appendExecution record (recordedEnvelope c record.executionId now)).getD m)
    cases hAppend : m.appendExecution record (recordedEnvelope c record.executionId now) with
    | none => exact h
    | some m' => exact h.appendExecution hAppend
  | appendWorkflow record =>
    show Indexed ((m.appendWorkflow record).getD m)
    unfold appendWorkflow
    split <;> exact ⟨h.indexOver, h.keyed⟩
  | archiveExecution executionId now =>
    show Indexed
      (((m.archiveExecution executionId c.empty now).map fun result => result.2.2).getD m)
    cases hArchive : m.archiveExecution executionId c.empty now with
    | none => exact h
    | some result => exact h.archiveExecution hArchive
  | setEnvelope env => exact ⟨h.indexOver, h.keyed⟩
  | storeSnapshot sid payload => exact ⟨h.indexOver, h.keyed⟩

end InMemoryRepository

namespace JsonlRepository

theorem memory_step (c : Codec D) (s : JsonlRepository D) (call : RepositoryCall D) :
    (s.step c call).memory = s.memory.step c call ∨ (s.step c call).memory = s.memory := by
  cases call with
  | appendExecution record now =>
    refine Or.inl ?_
    show (s.appendExecution c record now).memory =
      (s.memory.appendExecution record (recordedEnvelope c record.executionId now)).getD s.memory
    simp only [appendExecution]
    split
    · next hTaken => rw [hTaken, Option.getD_none]
    · next memory hAppend =>
      rw [hAppend, Option.getD_some]
      split <;> rfl
  | appendWorkflow record =>
    refine Or.inl ?_
    show (s.appendWorkflow c record).memory = (s.memory.appendWorkflow record).getD s.memory
    simp only [appendWorkflow]
    split
    · next hTaken => rw [hTaken, Option.getD_none]
    · next memory hAppend =>
      rw [hAppend, Option.getD_some]
      split <;> rfl
  | archiveExecution executionId now =>
    refine Or.inl ?_
    show (s.archiveExecution c executionId now).memory =
      ((s.memory.archiveExecution executionId c.empty now).map fun result => result.2.2).getD
        s.memory
    simp only [archiveExecution]
    split
    · next hUnknown => rw [hUnknown, Option.map_none, Option.getD_none]
    · next record env memory hArchive =>
      rw [hArchive, Option.map_some, Option.getD_some]
      split <;> rfl
  | setEnvelope env => exact Or.inl rfl
  | storeSnapshot sid payload =>
    simp only [step, storeSnapshot]
    split
    · exact Or.inr rfl
    · refine Or.inl ?_
      split <;> rfl

theorem indexed_opened {c : Codec D} {dir : Directory} {now : Int} {s : JsonlRepository D}
    (hOpen : opened c dir now = some s) : s.memory.Indexed := by
  obtain ⟨k, -, rfl⟩ := Option.map_eq_some_iff.mp hOpen
  exact ⟨k.over_memory now, fun _ _ => Contents.keyed_replay⟩

theorem indexed_step {c : Codec D} {s : JsonlRepository D} (call : RepositoryCall D)
    (h : s.memory.Indexed) : (s.step c call).memory.Indexed := by
  rcases memory_step c s call with hSame | hSame
  · rw [hSame]
    exact InMemoryRepository.indexed_step call h
  · rw [hSame]
    exact h

end JsonlRepository

/-- A repository at some point of a run: the one in memory, or one on files with whatever
lines they had when it was opened. -/
inductive Reached (c : Codec D) : InMemoryRepository D → Prop where
  | inMemory (calls : List (RepositoryCall D)) :
      Reached c (exec (InMemoryRepository.step c) .empty calls)
  | jsonl {dir : Directory} {now : Int} {s : JsonlRepository D}
      (hOpen : JsonlRepository.opened c dir now = some s) (calls : List (RepositoryCall D)) :
      Reached c (exec (JsonlRepository.step c) s calls).memory

/-- **When a query equals a full scan.** A query over any repository is answered with the
active executions that match, each once, iff it does not ask for an empty request id that one
of these has. -/
theorem query_eq_scan_iff (f : DataFields D) (order : SetOrder) {c : Codec D}
    {m : InMemoryRepository D} (hReached : Reached c m) (filt : ExperienceFilter D) :
    m.Answers f order filt ↔ ¬ m.Overlooks f filt := by
  have hIndexed : m.Indexed := by
    cases hReached with
    | inMemory calls =>
      exact exec_of_invariant (fun m call h => InMemoryRepository.indexed_step call h)
        InMemoryRepository.indexed_empty calls
    | jsonl hOpen calls =>
      exact exec_of_invariant (I := fun s : JsonlRepository D => s.memory.Indexed)
        (fun s call h => JsonlRepository.indexed_step call h)
        (JsonlRepository.indexed_opened hOpen) calls
  exact hIndexed.answers_iff_overlooks

/-- Data without a session and a budget. -/
def plainFields : DataFields String := ⟨fun _ => none, fun _ => none⟩

noncomputable def someOrder : SetOrder where
  walk := Finset.toList
  nodup := Finset.nodup_toList
  mem_walk _ _ := Finset.mem_toList

/-- Two executions are recorded and the first is archived; a tag and a model are asked for. -/
theorem query_eq_scan_recorded :
    (exec (InMemoryRepository.step plainCodec) .empty
      [.appendExecution
          { executionId := "exec_1", workflowId := "wf", tags := ["t"], data := "{}" } 0,
        .appendExecution
          { executionId := "exec_2", workflowId := "wf", requestId := some "", tags := ["t", "t"],
            modelsUsed := ["m"], data := "{}" } 1,
        .archiveExecution "exec_1" 2]).Answers plainFields someOrder
      { tag := some "t", model := some "m" } :=
  (query_eq_scan_iff plainFields someOrder (.inMemory _) _).mpr fun h => nomatch h.1

def unrequested : ExecutionRecord String :=
  { executionId := "exec_1", workflowId := "wf", requestId := some "", data := "{}" }

theorem overlooks_unrequested :
    ((InMemoryRepository.empty : InMemoryRepository String).step plainCodec
      (.appendExecution unrequested 0)).Overlooks plainFields { requestId := some "" } := by
  refine ⟨rfl, unrequested, ?_, by decide⟩
  have hGet : ((InMemoryRepository.empty : InMemoryRepository String).step plainCodec
      (.appendExecution unrequested 0)).executions.get? "exec_1" = some unrequested := by decide
  exact mem_values_iff.mpr ⟨_, hGet⟩

/-- An execution whose request id is empty is not found by that request id. -/
theorem empty_request_overlooked :
    ¬ ∀ (calls : List (RepositoryCall String)) (filt : ExperienceFilter String),
      (exec (InMemoryRepository.step plainCodec) .empty calls).Answers plainFields someOrder
        filt := by
  intro h
  have hAnswers := h [.appendExecution unrequested 0] { requestId := some "" }
  have hIndexed : ((InMemoryRepository.empty : InMemoryRepository String).step plainCodec
      (.appendExecution unrequested 0)).Indexed :=
    InMemoryRepository.indexed_step _ InMemoryRepository.indexed_empty
  exact hIndexed.answers_iff_overlooks.mp hAnswers overlooks_unrequested

end Neuroswarm.Experience
