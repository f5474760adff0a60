import Neuroswarm.Experience.Index
import Neuroswarm.Lib.Run

/-!
# Experience store — repositories

The in-memory repository, and the JSONL repository that appends a line for what it
stores. A call that raises may have changed the memory already: the in-memory part of
a call comes first, and each line is dumped and appended after it.
-/

namespace Neuroswarm.Experience

open Dict

variable {D : Type}

structure InMemoryRepository (D : Type) where
  executions : Dict String (ExecutionRecord D)
  workflows : Dict String (WorkflowRecord D)
  /-- the payloads under the ids in their handles -/
  snapshots : Dict String D
  envelopes : Dict String (RecordEnvelope D)
  archived : Dict String (ExecutionRecord D)
  index : ExperienceIndex D

namespace InMemoryRepository

def listExecutions (m : InMemoryRepository D) : List (ExecutionRecord D) := m.executions.values

/-- The id is taken by an active or an archived execution. -/
def IsExecution (m : InMemoryRepository D) (id : String) : Prop :=
  (m.executions.get? id).isSome ∨ (m.archived.get? id).isSome

instance (m : InMemoryRepository D) : DecidablePred m.IsExecution :=
  fun _ => inferInstanceAs (Decidable (_ ∨ _))

/-- A duplicate id raises. -/
def appendExecution (m : InMemoryRepository D) (record : ExecutionRecord D)
    (env : RecordEnvelope D) : Option (InMemoryRepository D) :=
  if m.IsExecution record.executionId then none
  else some
    { m with
      executions := m.executions.set record.executionId record
      envelopes := m.envelopes.set record.executionId env
      index := m.index.add record }

def appendWorkflow (m : InMemoryRepository D) (record : WorkflowRecord D) :
    Option (InMemoryRepository D) :=
  if (m.workflows.get? record.workflowId).isSome then none
  else some { m with workflows := m.workflows.set record.workflowId record }

def storeSnapshot (m : InMemoryRepository D) (sid : String) (payload : D) : InMemoryRepository D :=
  { m with snapshots := m.snapshots.set sid payload }

def archiveExecution (m : InMemoryRepository D) (executionId : String) (empty : D) (now : Int) :
    Option (ExecutionRecord D × RecordEnvelope D × InMemoryRepository D) :=
  match m.executions.get? executionId with
  | some record =>
    let env := (m.envelopes.get? executionId).getD
      { executionId, recordedAt := now, metadata := empty }
    let updated := { env with executionId, lifecycle := .archived, archivedAt := some now }
    some (record, updated,
      { m with
        executions := m.executions.erase executionId
        archived := m.archived.set executionId record
        index := m.index.removeFromActive executionId
        envelopes := m.envelopes.set executionId updated })
  | none =>
    match m.archived.get? executionId, m.envelopes.get? executionId with
    | some record, some env => some (record, env, m)
    | _, _ => none

def setEnvelope (m : InMemoryRepository D) (env : RecordEnvelope D) : InMemoryRepository D :=
  { m with envelopes := m.envelopes.set env.executionId env }

end InMemoryRepository

/-- The files of a repository: the lines of each that are not blank, and the snapshots. -/
structure Directory where
  executions : List (ExecutionRecord String) := []
  archived : List (ExecutionRecord String) := []
  workflows : List (WorkflowRecord String) := []
  envelopes : List (RecordEnvelope String) := []
  snapshots : List (String × String) := []

/-- What the files read as. -/
structure Contents (D : Type) where
  executions : List (ExecutionRecord D)
  archived : List (ExecutionRecord D)
  workflows : List (WorkflowRecord D)
  envelopes : List (RecordEnvelope D)
  snapshots : List (String × D)

def loadSnapshotFile (c : Codec D) (file : String × String) : Option (String × D) :=
  (c.loadSnapshot file.2).map fun payload => (file.1, payload)

/-- Every line is read; one that cannot be raises. -/
def Directory.read (c : Codec D) (dir : Directory) : Option (Contents D) := do
  let executions ← dir.executions.mapM c.loadRecord
  let archived ← dir.archived.mapM c.loadRecord
  let workflows ← dir.workflows.mapM c.loadWorkflow
  let envelopes ← dir.envelopes.mapM c.loadEnvelope
  let snapshots ← dir.snapshots.mapM (loadSnapshotFile c)
  some { executions, archived, workflows, envelopes, snapshots }

def ExecutionRecord.entry (r : ExecutionRecord D) : String × ExecutionRecord D :=
  (r.executionId, r)

def RecordEnvelope.entry (env : RecordEnvelope D) : String × RecordEnvelope D :=
  (env.executionId, env)

def recordedEnvelope (c : Codec D) (executionId : String) (now : Int) : RecordEnvelope D :=
  { executionId, recordedAt := now, metadata := c.empty }

theorem executionId_recordedEnvelope (c : Codec D) (executionId : String) (now : Int) :
    (recordedEnvelope c executionId now).executionId = executionId := rfl

namespace Contents

/-- Envelopes that `_load_executions` makes, for one record after the other. -/
def defaultEnvelopes (c : Codec D) (k : Contents D) (now : Int) : Dict String (RecordEnvelope D) :=
  k.executions.foldl
    (fun d r =>
      if d.contains r.executionId then d
      else d.set r.executionId (recordedEnvelope c r.executionId now))
    Dict.empty

/-- `_load` -/
def memory (c : Codec D) (k : Contents D) (now : Int) : InMemoryRepository D :=
  let executions := replay (k.executions.map (·.entry))
  { executions
    archived := replay (k.archived.map (·.entry))
    workflows := replay (k.workflows.map fun w => (w.workflowId, w))
    envelopes := (k.envelopes.map (·.entry)).foldl (fun d e => d.set e.1 e.2)
      (k.defaultEnvelopes c now)
    snapshots := replay k.snapshots
    index := .rebuild executions.values }

end Contents

structure JsonlRepository (D : Type) where
  memory : InMemoryRepository D
  dir : Directory

inductive RepositoryCall (D : Type) where
  | appendExecution (record : ExecutionRecord D) (now : Int)
  | appendWorkflow (record : WorkflowRecord D)
  | archiveExecution (executionId : String) (now : Int)
  | setEnvelope (env : RecordEnvelope D)
  | storeSnapshot (sid : String) (payload : D)

namespace JsonlRepository

/-- `JsonlRepository(root)` -/
def opened (c : Codec D) (dir : Directory) (now : Int) : Option (JsonlRepository D) :=
  (dir.read c).map fun k => { memory := k.memory c now, dir }

def writeEnvelope (c : Codec D) (dir : Directory) (env : RecordEnvelope D) : Directory :=
  match c.dumpEnvelope env with
  | some line => { dir with envelopes := dir.envelopes ++ [line] }
  | none => dir

def appendExecution (c : Codec D) (s : JsonlRepository D) (record : ExecutionRecord D)
    (now : Int) : JsonlRepository D :=
  let env := recordedEnvelope c record.executionId now
  match s.memory.appendExecution record env with
  | none => s
  | some memory =>
    match c.dumpRecord record with
    | none => { s with memory }
    | some line =>
      { memory
        dir := writeEnvelope c { s.dir with executions := s.dir.executions ++ [line] } env }

def appendWorkflow (c : Codec D) (s : JsonlRepository D) (record : WorkflowRecord D) :
    JsonlRepository D :=
  match s.memory.appendWorkflow record with
  | none => s
  | some memory =>
    match c.dumpWorkflow record with
    | none => { s with memory }
    | some line => { memory, dir := { s.dir with workflows := s.dir.workflows ++ [line] } }

def archiveExecution (c : Codec D) (s : JsonlRepository D) (executionId : String) (now : Int) :
    JsonlRepository D :=
  match s.memory.archiveExecution executionId c.empty now with
  | none => s
  | some (record, env, memory) =>
    match c.dumpRecord record with
    | none => { s with memory }
    | some line =>
      { memory
        dir := writeEnvelope c { s.dir with archived := s.dir.archived ++ [line] } env }

/-- Inherited: no line is written. -/
def setEnvelope (s : JsonlRepository D) (env : RecordEnvelope D) : JsonlRepository D :=
  { s with memory := s.memory.setEnvelope env }

/-- The id of a snapshot is new. -/
def storeSnapshot (c : Codec D) (s : JsonlRepository D) (sid : String) (payload : D) :
    JsonlRepository D :=
  if (s.memory.snapshots.get? sid).isSome then s
  else
    let memory := s.memory.storeSnapshot sid payload
    match c.dumpSnapshot payload with
    | none => { s with memory }
    | some text => { memory, dir := { s.dir with snapshots := s.dir.snapshots ++ [(sid, text)] } }

def step (c : Codec D) (s : JsonlRepository D) : RepositoryCall D → JsonlRepository D
  | .appendExecution record now => s.appendExecution c record now
  | .appendWorkflow record => s.appendWorkflow c record
  | .archiveExecution executionId now => s.archiveExecution c executionId now
  | .setEnvelope env => s.setEnvelope env
  | .storeSnapshot sid payload => s.storeSnapshot c sid payload

end JsonlRepository

-- ------ Reading files

variable {c : Codec D} {dir : Directory} {k : Contents D}

/-- What the files read as, file by file. -/
structure Directory.Reads (c : Codec D) (dir : Directory) (k : Contents D) : Prop where
  executions : dir.executions.mapM c.loadRecord = some k.executions
  archived : dir.archived.mapM c.loadRecord = some k.archived
  workflows : dir.workflows.mapM c.loadWorkflow = some k.workflows
  envelopes : dir.envelopes.mapM c.loadEnvelope = some k.envelopes
  snapshots : dir.snapshots.mapM (loadSnapshotFile c) = some k.snapshots

theorem Directory.read_eq_some : dir.read c = some k ↔ dir.Reads c k := by
  unfold Directory.read
  simp only [Option.bind_eq_bind, Option.bind_eq_some_iff, Option.some.injEq]
  constructor
  · rintro ⟨_, hExecutions, _, hArchived, _, hWorkflows, _, hEnvelopes, _, hSnapshots, rfl⟩
    exact ⟨hExecutions, hArchived, hWorkflows, hEnvelopes, hSnapshots⟩
  · intro h
    exact ⟨_, h.executions, _, h.archived, _, h.workflows, _, h.envelopes, _, h.snapshots, rfl⟩

namespace Directory.Reads

variable {k' : Contents D}

theorem eq_of (h : dir.Reads c k) (h' : dir.Reads c k') : k' = k :=
  Option.some.inj ((read_eq_some.mpr h').symm.trans (read_eq_some.mpr h))

/-- A file that grew by a line reads as what was read, with what the line loads as. -/
theorem iff_of_loads {α : Type*} {dir' : Directory} {loaded : Option α} {grown : α → Contents D}
    (hRead : ∀ r, loaded = some r → dir'.Reads c (grown r))
    (hLoads : dir'.Reads c k' → ∃ r, loaded = some r) :
    dir'.Reads c k' ↔ ∃ r, loaded = some r ∧ k' = grown r := by
  constructor
  · intro h'
    obtain ⟨r, hLoad⟩ := hLoads h'
    exact ⟨r, hLoad, (hRead r hLoad).eq_of h'⟩
  · rintro ⟨r, hLoad, rfl⟩
    exact hRead r hLoad

theorem concat_executions (h : dir.Reads c k) {line : ExecutionRecord String} :
    ({ dir with executions := dir.executions ++ [line] }).Reads c k' ↔
      ∃ r, c.loadRecord line = some r ∧ k' = { k with executions := k.executions ++ [r] } :=
  iff_of_loads
    (fun r hLoad => { h with executions := (Option.mapM_concat_iff h.executions).mpr ⟨r, hLoad, rfl⟩ })
    fun h' => ((Option.mapM_concat_iff h.executions).mp h'.executions).imp fun _ => And.left

theorem concat_archived (h : dir.Reads c k) {line : ExecutionRecord String} :
    ({ dir with archived := dir.archived ++ [line] }).Reads c k' ↔
      ∃ r, c.loadRecord line = some r ∧ k' = { k with archived := k.archived ++ [r] } :=
  iff_of_loads
    (fun r hLoad => { h with archived := (Option.mapM_concat_iff h.archived).mpr ⟨r, hLoad, rfl⟩ })
    fun h' => ((Option.mapM_concat_iff h.archived).mp h'.archived).imp fun _ => And.left

theorem concat_workflows (h : dir.Reads c k) {line : WorkflowRecord String} :
    ({ dir with workflows := dir.workflows ++ [line] }).Reads c k' ↔
      ∃ w, c.loadWorkflow line = some w ∧ k' = { k with workflows := k.workflows ++ [w] } :=
  iff_of_loads
    (fun w hLoad => { h with workflows := (Option.mapM_concat_iff h.workflows).mpr ⟨w, hLoad, rfl⟩ })
    fun h' => ((Option.mapM_concat_iff h.workflows).mp h'.workflows).imp fun _ => And.left

theorem concat_envelopes (h : dir.Reads c k) {line : RecordEnvelope String} :
    ({ dir with envelopes := dir.envelopes ++ [line] }).Reads c k' ↔
      ∃ env, c.loadEnvelope line = some env ∧ k' = { k with envelopes := k.envelopes ++ [env] } :=
  iff_of_loads
    (fun env hLoad => { h with envelopes := (Option.mapM_concat_iff h.envelopes).mpr ⟨env, hLoad, rfl⟩ })
    fun h' => ((Option.mapM_concat_iff h.envelopes).mp h'.envelopes).imp fun _ => And.left

theorem concat_snapshots (h : dir.Reads c k) {file : String × String} :
    ({ dir with snapshots := dir.snapshots ++ [file] }).Reads c k' ↔
      ∃ e, loadSnapshotFile c file = some e ∧ k' = { k with snapshots := k.snapshots ++ [e] } :=
  iff_of_loads
    (fun e hLoad => { h with snapshots := (Option.mapM_concat_iff h.snapshots).mpr ⟨e, hLoad, rfl⟩ })
    fun h' => ((Option.mapM_concat_iff h.snapshots).mp h'.snapshots).imp fun _ => And.left

end Directory.Reads

namespace Contents

theorem get?_defaultEnvelopes (k : Contents D) (now : Int) (id : String) :
    (k.defaultEnvelopes c now).get? id =
      if id ∈ k.executions.map (·.executionId) then some (recordedEnvelope c id now) else none := by
  unfold defaultEnvelopes
  induction k.executions using List.reverseRecOn with
  | nil => simp
  | append_singleton l r ih =>
    rw [List.foldl_append, List.map_append]
    simp only [List.foldl_cons, List.foldl_nil, List.map_cons, List.map_nil, List.mem_append,
      List.mem_singleton]
    split
    · next hKnown =>
      rw [Dict.contains, Option.isSome_iff_exists] at hKnown
      obtain ⟨env, hEnv⟩ := hKnown
      rw [ih]
      by_cases hId : id = r.executionId
      · -- an id that is known has its envelope already
        subst hId
        rw [ih] at hEnv
        split at hEnv
        · next hMem => simp [hMem]
        · cases hEnv
      · simp [hId]
    · rw [get?_set, ih]
      by_cases hId : id = r.executionId
      · simp [hId]
      · simp [hId]

theorem get?_envelopes (k : Contents D) (now : Int) (id : String) :
    (k.memory c now).envelopes.get? id =
      ((replay (k.envelopes.map (·.entry))).get? id).or ((k.defaultEnvelopes c now).get? id) :=
  get?_foldl_set_replay _ _ _

theorem keyed_replay {records : List (ExecutionRecord D)} {id : String} {r : ExecutionRecord D}
    (h : (replay (records.map (·.entry))).get? id = some r) : r.executionId = id := by
  obtain ⟨r', _, hEntry⟩ := List.mem_map.mp (mem_of_get?_replay h)
  cases hEntry
  rfl

theorem isSome_executions {records : List (ExecutionRecord D)} {id : String} :
    ((replay (records.map (·.entry))).get? id).isSome ↔ id ∈ records.map (·.executionId) := by
  rw [isSome_get?_replay, List.map_map]
  rfl

theorem over_memory (k : Contents D) (now : Int) :
    (k.memory c now).index.Over (k.memory c now).executions :=
  ExperienceIndex.over_rebuild fun _ _ => keyed_replay

end Contents

end Neuroswarm.Experience
