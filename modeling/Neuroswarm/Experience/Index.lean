import Mathlib.Algebra.Order.Ring.Rat
import Mathlib.Data.Finset.Basic
import Mathlib.Data.Finset.Dedup
import Mathlib.Data.List.Sort
import Mathlib.Tactic.Common
import Neuroswarm.Lib.Replay

/-!
# Experience store — secondary indexes

The sets of ids under the keys of a record are one relation here: which execution is
under which key of which family. A set that has become empty leaves no trace in it.
-/

/-!
## Records, envelopes and their lines

A record has the typed fields that the index reads, which come back from JSON as they
are, and its remaining data, which may hold values of any type. How such data is
written and read back is a parameter, `Codec`; a line is a record whose data is text.
-/

namespace Neuroswarm.Experience

inductive RecordLifecycle where
  | recorded
  | archived
  | exported
deriving DecidableEq

structure ExecutionRecord (D : Type) where
  executionId : String
  workflowId : String
  requestId : Option String := none
  /-- the agent ids of `agent_assignments` -/
  agents : List String := []
  modelsUsed : List String := []
  backendsUsed : List String := []
  success : Bool := true
  tags : List String := []
  latency : ℚ := 0
  estimatedCost : ℚ := 0
  qualityScore : ℚ := 0
  timestamp : ℚ := 0
  data : D
deriving DecidableEq

structure RecordEnvelope (D : Type) where
  executionId : String
  lifecycle : RecordLifecycle := .recorded
  recordedAt : Int
  archivedAt : Option Int := none
  exportedAt : Option Int := none
  metadata : D
deriving DecidableEq

structure WorkflowRecord (D : Type) where
  workflowId : String
  data : D
deriving DecidableEq

/-- Writing data as JSON text and reading it back; either may raise. Records and envelopes are
dumped by their models and validated again, snapshots are dumped as they are. -/
structure Codec (D : Type) where
  dump : D → Option String
  load : String → Option D
  dumpSnapshot : D → Option String
  loadSnapshot : String → Option D
  /-- no metadata -/
  empty : D
  load_empty : (dump empty).bind load = some empty

variable {D E : Type}

def ExecutionRecord.withData (r : ExecutionRecord D) (data : E) : ExecutionRecord E :=
  { r with data }

def RecordEnvelope.withMetadata (env : RecordEnvelope D) (metadata : E) : RecordEnvelope E :=
  { env with metadata }

def WorkflowRecord.withData (w : WorkflowRecord D) (data : E) : WorkflowRecord E :=
  { w with data }

namespace Codec

variable (c : Codec D)

def ReadsBack (d : D) : Prop := (c.dump d).bind c.load = some d

/-- The payload of a snapshot is written and comes back as it was. -/
def SnapshotReadsBack (d : D) : Prop := (c.dumpSnapshot d).bind c.loadSnapshot = some d

instance [DecidableEq D] : DecidablePred c.ReadsBack := fun _ => inferInstanceAs (Decidable (_ = _))

instance [DecidableEq D] : DecidablePred c.SnapshotReadsBack :=
  fun _ => inferInstanceAs (Decidable (_ = _))

def dumpRecord (r : ExecutionRecord D) : Option (ExecutionRecord String) :=
  (c.dump r.data).map r.withData

def loadRecord (line : ExecutionRecord String) : Option (ExecutionRecord D) :=
  (c.load line.data).map line.withData

def dumpEnvelope (env : RecordEnvelope D) : Option (RecordEnvelope String) :=
  (c.dump env.metadata).map env.withMetadata

def loadEnvelope (line : RecordEnvelope String) : Option (RecordEnvelope D) :=
  (c.load line.metadata).map line.withMetadata

def dumpWorkflow (w : WorkflowRecord D) : Option (WorkflowRecord String) :=
  (c.dump w.data).map w.withData

def loadWorkflow (line : WorkflowRecord String) : Option (WorkflowRecord D) :=
  (c.load line.data).map line.withData

variable {c} {r : ExecutionRecord D} {env : RecordEnvelope D}

theorem executionId_of_load {line : ExecutionRecord String} (h : c.loadRecord line = some r) :
    r.executionId = line.executionId := by
  obtain ⟨_, _, rfl⟩ := Option.map_eq_some_iff.mp h
  rfl

theorem executionId_of_loadEnvelope {line : RecordEnvelope String}
    (h : c.loadEnvelope line = some env) : env.executionId = line.executionId := by
  obtain ⟨_, _, rfl⟩ := Option.map_eq_some_iff.mp h
  rfl

theorem executionId_of_dump {line : ExecutionRecord String} (h : c.dumpRecord r = some line) :
    line.executionId = r.executionId := by
  obtain ⟨_, _, rfl⟩ := Option.map_eq_some_iff.mp h
  rfl

theorem executionId_of_dumpEnvelope {line : RecordEnvelope String}
    (h : c.dumpEnvelope env = some line) : line.executionId = env.executionId := by
  obtain ⟨_, _, rfl⟩ := Option.map_eq_some_iff.mp h
  rfl

theorem loadRecord_iff :
    (c.dumpRecord r).bind c.loadRecord = some r ↔ c.ReadsBack r.data := by
  unfold dumpRecord loadRecord ReadsBack
  cases hDump : c.dump r.data with
  | none => simp
  | some text =>
    show (c.load text).map (r.withData text).withData = some r ↔ c.load text = some r.data
    rw [Option.map_eq_some_iff]
    constructor
    · rintro ⟨d, hLoad, hSame⟩
      rw [hLoad, ← hSame]
      rfl
    · exact fun hLoad => ⟨r.data, hLoad, rfl⟩

theorem loadEnvelope_iff :
    (c.dumpEnvelope env).bind c.loadEnvelope = some env ↔ c.ReadsBack env.metadata := by
  unfold dumpEnvelope loadEnvelope ReadsBack
  cases hDump : c.dump env.metadata with
  | none => simp
  | some text =>
    show (c.load text).map (env.withMetadata text).withMetadata = some env ↔
      c.load text = some env.metadata
    rw [Option.map_eq_some_iff]
    constructor
    · rintro ⟨d, hLoad, hSame⟩
      rw [hLoad, ← hSame]
      rfl
    · exact fun hLoad => ⟨env.metadata, hLoad, rfl⟩

end Codec

end Neuroswarm.Experience

/-! ## Secondary indexes -/

namespace Neuroswarm.Experience

open Dict

/-- The families of keys. -/
inductive Facet where
  | workflow
  | request
  | agent
  | model
  | backend
  | success
  | tag
deriving DecidableEq

/-- The sorted lists for range filters. -/
inductive RangeField where
  | latency
  | cost
  | quality
  | timestamp
deriving DecidableEq

namespace ExecutionRecord

variable {D : Type}

/-- The keys a record is found under. -/
def facets (r : ExecutionRecord D) : List (Facet × String) :=
  (.workflow, r.workflowId) ::
    ((r.requestId.filter (· ≠ "")).toList.map fun id => (.request, id)) ++
    r.agents.map (fun id => (.agent, id)) ++
    r.modelsUsed.map (fun model => (.model, model)) ++
    r.backendsUsed.map (fun backend => (.backend, backend)) ++
    (.success, toString r.success) :: r.tags.map (fun tag => (.tag, tag))

def value (r : ExecutionRecord D) : RangeField → ℚ
  | .latency => r.latency
  | .cost => r.estimatedCost
  | .quality => r.qualityScore
  | .timestamp => r.timestamp

def postings (r : ExecutionRecord D) : Finset ((Facet × String) × String) :=
  (r.facets.map fun key => (key, r.executionId)).toFinset

theorem mem_postings {r : ExecutionRecord D} {key : Facet × String} {id : String} :
    (key, id) ∈ r.postings ↔ id = r.executionId ∧ key ∈ r.facets := by
  rw [postings, List.mem_toFinset, List.mem_map]
  constructor
  · rintro ⟨key', hMem, hEq⟩
    cases hEq
    exact ⟨rfl, hMem⟩
  · rintro ⟨rfl, hMem⟩
    exact ⟨key, hMem, rfl⟩

end ExecutionRecord

structure ExperienceIndex (D : Type) where
  byExecution : Dict String (ExecutionRecord D)
  postings : Finset ((Facet × String) × String)
  entries : RangeField → List (ℚ × String)

namespace ExperienceIndex

variable {D : Type}

def empty : ExperienceIndex D := ⟨Dict.empty, ∅, fun _ => []⟩

def add (idx : ExperienceIndex D) (r : ExecutionRecord D) : ExperienceIndex D :=
  if idx.byExecution.contains r.executionId then idx
  else
    { byExecution := idx.byExecution.set r.executionId r
      postings := idx.postings ∪ r.postings
      entries := fun f => idx.entries f ++ [(r.value f, r.executionId)] }

/-- The archive path. -/
def removeFromActive (idx : ExperienceIndex D) (executionId : String) : ExperienceIndex D :=
  match idx.byExecution.get? executionId with
  | none => idx
  | some r =>
    { byExecution := idx.byExecution.erase executionId
      postings := idx.postings \ r.postings
      entries := fun f => (idx.entries f).filter fun e => e.2 ≠ executionId }

def compact (idx : ExperienceIndex D) : ExperienceIndex D :=
  { idx with entries := fun f => (idx.entries f).insertionSort fun a b => a.1 ≤ b.1 }

def rebuild (records : List (ExecutionRecord D)) : ExperienceIndex D :=
  (records.foldl add empty).compact

/-- The index is over exactly these executions. -/
structure Over (idx : ExperienceIndex D) (executions : Dict String (ExecutionRecord D)) : Prop where
  byExecution : ∀ id, idx.byExecution.get? id = executions.get? id
  postings : ∀ key id, (key, id) ∈ idx.postings ↔
    ∃ r, executions.get? id = some r ∧ key ∈ r.facets
  entries : ∀ f, (idx.entries f).Perm (executions.entries.map fun e => (e.2.value f, e.1))

variable {idx : ExperienceIndex D} {executions : Dict String (ExecutionRecord D)}

theorem over_empty : (empty : ExperienceIndex D).Over Dict.empty :=
  ⟨fun _ => rfl, fun key id => by simp [empty], fun _ => List.Perm.nil⟩

theorem Over.add (h : idx.Over executions) {r : ExecutionRecord D}
    (hNew : executions.get? r.executionId = none) :
    (idx.add r).Over (executions.set r.executionId r) := by
  have hAbsent : idx.byExecution.contains r.executionId = false := by
    rw [Dict.contains, h.byExecution, hNew]
    rfl
  have hAdd : idx.add r =
      { byExecution := idx.byExecution.set r.executionId r
        postings := idx.postings ∪ r.postings
        entries := fun f => idx.entries f ++ [(r.value f, r.executionId)] } :=
    if_neg (by simp [hAbsent])
  rw [hAdd]
  refine ⟨fun id => ?_, fun key id => ?_, fun f => ?_⟩
  · rw [get?_set, get?_set, h.byExecution]
  · rw [Finset.mem_union, h.postings, ExecutionRecord.mem_postings, get?_set]
    by_cases hId : id = r.executionId
    · simp [hId, hNew]
    · simp [hId]
  · rw [entries_set_of_none hNew, List.map_append]
    exact (h.entries f).append_right _

theorem Over.removeFromActive (h : idx.Over executions) {id : String} {r : ExecutionRecord D}
    (hGet : executions.get? id = some r) (hKey : r.executionId = id) :
    (idx.removeFromActive id).Over (executions.erase id) := by
  have hRemove : idx.removeFromActive id =
      { byExecution := idx.byExecution.erase id
        postings := idx.postings \ r.postings
        entries := fun f => (idx.entries f).filter fun e => e.2 ≠ id } := by
    unfold ExperienceIndex.removeFromActive
    rw [h.byExecution, hGet]
  rw [hRemove]
  refine ⟨fun id' => ?_, fun key id' => ?_, fun f => ?_⟩
  · rw [get?_erase, get?_erase, h.byExecution]
  · rw [Finset.mem_sdiff, h.postings, ExecutionRecord.mem_postings, get?_erase, hKey]
    by_cases hId : id' = id
    · simp [hId, hGet]
    · simp [hId]
  · have hFilter := (h.entries f).filter fun e => e.2 ≠ id
    rw [List.filter_map] at hFilter
    exact hFilter

theorem Over.compact (h : idx.Over executions) : idx.compact.Over executions :=
  ⟨h.byExecution, h.postings, fun f => (List.perm_insertionSort _ _).trans (h.entries f)⟩

theorem Over.foldl_add (after : List (String × ExecutionRecord D)) (h : idx.Over executions)
    (hNodup : ((executions.entries ++ after).map Prod.fst).Nodup)
    (hKeys : ∀ e ∈ after, e.2.executionId = e.1) :
    ((after.map Prod.snd).foldl ExperienceIndex.add idx).Over
      (after.foldl (fun d e => d.set e.1 e.2) executions) := by
  induction after generalizing idx executions with
  | nil => exact h
  | cons e after ih =>
    obtain ⟨hKey, hRest⟩ := List.forall_mem_cons.mp hKeys
    have hNew : executions.get? e.1 = none := by
      rw [List.map_append, List.nodup_append] at hNodup
      by_contra hSome
      have hMem : e.1 ∈ executions.keys := mem_keys_iff.mpr (Option.isSome_iff_ne_none.mpr hSome)
      exact hNodup.2.2 e.1 hMem e.1 (by simp) rfl
    have hAdd := h.add (r := e.2) (hKey.symm ▸ hNew)
    rw [hKey] at hAdd
    refine ih hAdd ?_ hRest
    rw [entries_set_of_none hNew]
    simpa using hNodup

theorem over_rebuild (hKeyed : ∀ id r, executions.get? id = some r → r.executionId = id) :
    (rebuild executions.values).Over executions := by
  have hKeys : ∀ e ∈ executions.entries, e.2.executionId = e.1 :=
    (forall_mem_entries_iff (P := fun id (r : ExecutionRecord D) => r.executionId = id)).mpr hKeyed
  have hFold := over_empty.foldl_add executions.entries executions.nodup hKeys
  have hReplay : executions.entries.foldl (fun d e => d.set e.1 e.2) Dict.empty = executions :=
    replay_entries executions
  rw [hReplay] at hFold
  exact hFold.compact

end ExperienceIndex

end Neuroswarm.Experience
