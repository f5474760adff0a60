import Neuroswarm.Experience.Repository

/-!
# Experience store — which calls survive a restart

For each call of the repository: if the files keep up with it, the memory mirrors their
contents again; if the repository survives it, the files have kept up. An active
execution that is archived comes back with the next start, because its first line stays
where it is; an envelope that is set for an execution is gone, because no line is
written.
-/

/-!
## What a restart brings back

A repository survives a restart when a new one over its files, opened at any time, has
its active executions, its archived records, its latest envelopes, its snapshots and an
index over its active executions. `Mirrors` says the same of the contents of the files;
`along_survives_iff` says which calls keep it.
-/

namespace Neuroswarm.Experience

open Dict Run

variable {D : Type}

/-- The new repository `m'` has what the old one `m` had. -/
structure Same (m m' : InMemoryRepository D) : Prop where
  executions : m'.listExecutions = m.listExecutions
  archived : m'.archived.values = m.archived.values
  envelopes : ∀ id, m.IsExecution id → m'.envelopes.get? id = m.envelopes.get? id
  snapshots : ∀ sid, m'.snapshots.get? sid = m.snapshots.get? sid
  index : m.index.Over m.executions ∧ m'.index.Over m.executions

def Survives (c : Codec D) (s : JsonlRepository D) : Prop :=
  ∀ now, ∃ s', JsonlRepository.opened c s.dir now = some s' ∧ Same s.memory s'.memory

/-- Every line of an execution has one of an envelope, as `append_execution` writes them. -/
def Complete (dir : Directory) : Prop :=
  ∀ id ∈ dir.executions.map (·.executionId), id ∈ dir.envelopes.map (·.executionId)

def Keeps (c : Codec D) (s : JsonlRepository D) : RepositoryCall D → Prop
  | .appendExecution record _ =>
    s.memory.IsExecution record.executionId ∨ c.ReadsBack record.data
  | .appendWorkflow record =>
    (s.memory.workflows.get? record.workflowId).isSome ∨
      ∀ text ∈ c.dump record.data, (c.load text).isSome
  | .archiveExecution executionId _ =>
    s.memory.executions.get? executionId = none ∧
      ∀ record ∈ s.memory.archived.get? executionId,
        ∀ env ∈ s.memory.envelopes.get? executionId,
          c.dump record.data = none ∨
            c.ReadsBack record.data ∧ (c.dump env.metadata = none ∨ c.ReadsBack env.metadata)
  | .setEnvelope env =>
    s.memory.IsExecution env.executionId → s.memory.envelopes.get? env.executionId = some env
  | .storeSnapshot sid payload =>
    (s.memory.snapshots.get? sid).isSome ∨ c.SnapshotReadsBack payload

instance [DecidableEq D] (c : Codec D) (s : JsonlRepository D) : DecidablePred (Keeps c s)
  | .appendExecution .. => inferInstanceAs (Decidable (_ ∨ _))
  | .appendWorkflow record =>
    inferInstanceAs (Decidable (_ ∨ ∀ text ∈ c.dump record.data, (c.load text).isSome))
  | .archiveExecution executionId _ =>
    inferInstanceAs (Decidable (_ ∧ ∀ record ∈ s.memory.archived.get? executionId,
      ∀ env ∈ s.memory.envelopes.get? executionId, _ ∨ _ ∧ (_ ∨ _)))
  | .setEnvelope _ => inferInstanceAs (Decidable (_ → _))
  | .storeSnapshot .. => inferInstanceAs (Decidable (_ ∨ _))

/-- The memory is what the contents of the files give, envelopes of executions included. -/
structure Mirrors (c : Codec D) (s : JsonlRepository D) (k : Contents D) : Prop where
  reads : s.dir.Reads c k
  executions : s.memory.executions = replay (k.executions.map (·.entry))
  archived : s.memory.archived = replay (k.archived.map (·.entry))
  envelopes : ∀ id, s.memory.IsExecution id →
    s.memory.envelopes.get? id = (replay (k.envelopes.map (·.entry))).get? id
  complete : ∀ id ∈ k.executions.map (·.executionId), id ∈ k.envelopes.map (·.executionId)
  snapshots : s.memory.snapshots = replay k.snapshots
  index : s.memory.index.Over s.memory.executions

variable {c : Codec D} {s s' : JsonlRepository D} {k : Contents D}

theorem mem_envelopes {k : Contents D} {id : String} :
    id ∈ k.envelopes.map (·.executionId) ↔
      ((replay (k.envelopes.map (·.entry))).get? id).isSome := by
  rw [isSome_get?_replay, List.map_map]
  rfl

theorem survives_iff_reads :
    Survives c s ↔ ∃ k, s.dir.Reads c k ∧ ∀ now, Same s.memory (k.memory c now) := by
  unfold Survives JsonlRepository.opened
  constructor
  · intro h
    obtain ⟨s', hOpened, _⟩ := h 0
    obtain ⟨k, hRead, _⟩ := Option.map_eq_some_iff.mp hOpened
    refine ⟨k, Directory.read_eq_some.mp hRead, fun now => ?_⟩
    obtain ⟨s', hOpened, hSame⟩ := h now
    rw [hRead] at hOpened
    cases hOpened
    exact hSame
  · rintro ⟨k, hReads, hSame⟩ now
    exact ⟨⟨k.memory c now, s.dir⟩, by rw [Directory.read_eq_some.mpr hReads]; rfl, hSame now⟩

theorem get?_envelopes_of_complete {k : Contents D}
    (h : ∀ id ∈ k.executions.map (·.executionId), id ∈ k.envelopes.map (·.executionId))
    (now : Int) (id : String) :
    (k.memory c now).envelopes.get? id = (replay (k.envelopes.map (·.entry))).get? id := by
  rw [Contents.get?_envelopes, Contents.get?_defaultEnvelopes]
  split
  · next hMem =>
    obtain ⟨env, hEnv⟩ := Option.isSome_iff_exists.mp (mem_envelopes.mp (h id hMem))
    rw [hEnv]
    rfl
  · exact Option.or_none

theorem Mirrors.survives (h : Mirrors c s k) : Survives c s := by
  refine survives_iff_reads.mpr ⟨k, h.reads, fun now => ?_⟩
  have hExecutions : (k.memory c now).executions = s.memory.executions := h.executions.symm
  refine ⟨?_, ?_, fun id hId => ?_, fun sid => ?_, h.index, ?_⟩
  · rw [InMemoryRepository.listExecutions, hExecutions]
    rfl
  · exact congrArg Dict.values h.archived.symm
  · rw [get?_envelopes_of_complete h.complete, h.envelopes id hId]
  · rw [h.snapshots]
    rfl
  · rw [← hExecutions]
    exact k.over_memory now

-- ------ Opening

variable {dir : Directory}

theorem ids_executions (h : dir.Reads c k) :
    k.executions.map (·.executionId) = dir.executions.map (·.executionId) :=
  Option.map_of_mapM (fun _ _ hLoad => Codec.executionId_of_load hLoad) h.executions

theorem ids_envelopes (h : dir.Reads c k) :
    k.envelopes.map (·.executionId) = dir.envelopes.map (·.executionId) :=
  Option.map_of_mapM (fun _ _ hLoad => Codec.executionId_of_loadEnvelope hLoad) h.envelopes

theorem complete_iff (h : dir.Reads c k) :
    Complete dir ↔
      ∀ id ∈ k.executions.map (·.executionId), id ∈ k.envelopes.map (·.executionId) := by
  rw [Complete, ids_executions h, ids_envelopes h]

theorem opened_eq {now : Int} (h : JsonlRepository.opened c dir now = some s) :
    ∃ k, dir.Reads c k ∧ s = ⟨k.memory c now, dir⟩ := by
  obtain ⟨k, hRead, rfl⟩ := Option.map_eq_some_iff.mp h
  exact ⟨k, Directory.read_eq_some.mp hRead, rfl⟩

theorem mirrors_opened {now : Int} (hReads : dir.Reads c k) (hComplete : Complete dir) :
    Mirrors c ⟨k.memory c now, dir⟩ k where
  reads := hReads
  executions := rfl
  archived := rfl
  envelopes id _ := get?_envelopes_of_complete ((complete_iff hReads).mp hComplete) now id
  complete := (complete_iff hReads).mp hComplete
  snapshots := rfl
  index := k.over_memory now

theorem complete_of_survives {now : Int} (hReads : dir.Reads c k)
    (h : Survives c ⟨k.memory c now, dir⟩) : Complete dir := by
  obtain ⟨k', hReads', hSame⟩ := survives_iff_reads.mp h
  have hRead : some k' = some k :=
    (Directory.read_eq_some.mpr hReads').symm.trans (Directory.read_eq_some.mpr hReads)
  cases hRead
  rw [complete_iff hReads]
  intro id hId
  rw [mem_envelopes]
  by_contra hNone
  have hActive : (k.memory c now).IsExecution id := .inl (Contents.isSome_executions.mpr hId)
  have hEnvelope := (hSame (now + 1)).envelopes id hActive
  rw [Contents.get?_envelopes, Contents.get?_envelopes, Option.not_isSome_iff_eq_none.mp hNone,
    Option.none_or, Option.none_or, Contents.get?_defaultEnvelopes,
    Contents.get?_defaultEnvelopes, if_pos hId, if_pos hId] at hEnvelope
  have hTime : now + 1 = now := congrArg RecordEnvelope.recordedAt (Option.some.inj hEnvelope)
  omega

end Neuroswarm.Experience

/-! ## Which calls survive a restart -/

namespace Neuroswarm.Experience

open Dict Run JsonlRepository

variable {D : Type} {c : Codec D} {s : JsonlRepository D} {k k' : Contents D}

namespace Mirrors

theorem same_of_survives {s' : JsonlRepository D} (h : Survives c s')
    (hReads : s'.dir.Reads c k') (now : Int) : Same s'.memory (k'.memory c now) := by
  obtain ⟨k'', hReads', hSame⟩ := survives_iff_reads.mp h
  cases hReads.eq_of hReads'
  exact hSame now

variable {id : String}

theorem keyed_archived (h : Mirrors c s k) {r : ExecutionRecord D}
    (hGet : s.memory.archived.get? id = some r) : r.executionId = id :=
  Contents.keyed_replay (h.archived ▸ hGet)

theorem replay_concat_record (records : List (ExecutionRecord D)) (r : ExecutionRecord D) :
    replay ((records ++ [r]).map (·.entry)) = (replay (records.map (·.entry))).set r.executionId r := by
  rw [List.map_append, List.map_singleton, replay_concat]
  rfl

theorem replay_concat_envelope (envs : List (RecordEnvelope D)) (env : RecordEnvelope D) :
    replay ((envs ++ [env]).map (·.entry)) =
      (replay (envs.map (·.entry))).set env.executionId env := by
  rw [List.map_append, List.map_singleton, replay_concat]
  rfl

variable {env : RecordEnvelope D}

theorem keyed_envelopes (h : Mirrors c s k) (hId : s.memory.IsExecution id)
    (hGet : s.memory.envelopes.get? id = some env) :
    env.executionId = id := by
  rw [h.envelopes id hId] at hGet
  obtain ⟨env', _, hEntry⟩ := List.mem_map.mp (mem_of_get?_replay hGet)
  cases hEntry
  rfl

-- ------ Envelopes and workflows

theorem setEnvelope (h : Mirrors c s k) (hKeeps : Keeps c s (.setEnvelope env)) :
    Mirrors c (s.setEnvelope env) k := by
  refine { h with envelopes := fun id hId => ?_ }
  show (s.memory.envelopes.set env.executionId env).get? id = _
  rw [get?_set, ← h.envelopes id hId]
  split
  · next hEq =>
    subst hEq
    exact (hKeeps hId).symm
  · rfl

theorem keeps_setEnvelope (h : Mirrors c s k) (hSurvives : Survives c (s.setEnvelope env)) :
    Keeps c s (.setEnvelope env) := by
  intro hId
  have hSame := (same_of_survives hSurvives h.reads 0).envelopes
    env.executionId hId
  rw [get?_envelopes_of_complete h.complete, ← h.envelopes _ hId] at hSame
  exact hSame.trans (get?_set_self _ _ _)

theorem appendWorkflow (h : Mirrors c s k) {w : WorkflowRecord D}
    (hKeeps : Keeps c s (.appendWorkflow w)) : ∃ k', Mirrors c (s.appendWorkflow c w) k' := by
  unfold JsonlRepository.appendWorkflow InMemoryRepository.appendWorkflow
  by_cases hKnown : (s.memory.workflows.get? w.workflowId).isSome
  · rw [if_pos hKnown]
    exact ⟨k, h⟩
  · rw [if_neg hKnown]
    cases hDump : c.dump w.data with
    | none =>
      rw [Codec.dumpWorkflow, hDump]
      exact ⟨k, { h with }⟩
    | some text =>
      obtain ⟨d, hLoad⟩ := Option.isSome_iff_exists.mp ((hKeeps.resolve_left hKnown) text hDump)
      rw [Codec.dumpWorkflow, hDump]
      have hLine : c.loadWorkflow (w.withData text) = some (w.withData d) := by
        show (c.load text).map _ = _
        rw [hLoad]
        rfl
      exact ⟨_, { h with reads := h.reads.concat_workflows.mpr ⟨_, hLine, rfl⟩ }⟩

theorem keeps_appendWorkflow {w : WorkflowRecord D} (h : Mirrors c s k)
    (hSurvives : Survives c (s.appendWorkflow c w)) : Keeps c s (.appendWorkflow w) := by
  by_cases hKnown : (s.memory.workflows.get? w.workflowId).isSome
  · exact .inl hKnown
  · refine .inr fun text hDump => ?_
    have hStep : (s.appendWorkflow c w).dir =
        { s.dir with workflows := s.dir.workflows ++ [w.withData text] } := by
      unfold JsonlRepository.appendWorkflow InMemoryRepository.appendWorkflow
      rw [if_neg hKnown, Codec.dumpWorkflow, show c.dump w.data = some text from hDump]
      rfl
    obtain ⟨k', hReads, _⟩ := survives_iff_reads.mp hSurvives
    rw [hStep] at hReads
    obtain ⟨_, hLoad, _⟩ := h.reads.concat_workflows.mp hReads
    obtain ⟨d, hData, _⟩ := Option.map_eq_some_iff.mp hLoad
    exact Option.isSome_of_mem hData

-- ------ Snapshots

theorem storeSnapshot (h : Mirrors c s k) {sid : String} {payload : D}
    (hKeeps : Keeps c s (.storeSnapshot sid payload)) :
    ∃ k', Mirrors c (s.storeSnapshot c sid payload) k' := by
  unfold JsonlRepository.storeSnapshot
  by_cases hKnown : (s.memory.snapshots.get? sid).isSome
  · rw [if_pos hKnown]
    exact ⟨k, h⟩
  · rw [if_neg hKnown]
    obtain ⟨text, hDump, hLoad⟩ := Option.bind_eq_some_iff.mp (hKeeps.resolve_left hKnown)
    have hFile : loadSnapshotFile c (sid, text) = some (sid, payload) := by
      show (c.loadSnapshot text).map _ = _
      rw [hLoad]
      rfl
    simp only [hDump]
    refine ⟨_, { h with
      reads := h.reads.concat_snapshots.mpr ⟨_, hFile, rfl⟩
      snapshots := ?_ }⟩
    rw [replay_concat, ← h.snapshots]
    rfl

theorem keeps_storeSnapshot (h : Mirrors c s k) {sid : String} {payload : D}
    (hSurvives : Survives c (s.storeSnapshot c sid payload)) :
    Keeps c s (.storeSnapshot sid payload) := by
  by_cases hKnown : (s.memory.snapshots.get? sid).isSome
  · exact .inl hKnown
  · right
    unfold JsonlRepository.storeSnapshot at hSurvives
    rw [if_neg hKnown] at hSurvives
    obtain ⟨k', hReads, hSame⟩ := survives_iff_reads.mp hSurvives
    cases hDump : c.dumpSnapshot payload with
    | none =>
      -- nothing was written: the new repository has no such snapshot
      simp only [hDump] at hReads hSame
      cases h.reads.eq_of hReads
      have hSid := (hSame 0).snapshots sid
      rw [show (k.memory c 0).snapshots = s.memory.snapshots from h.snapshots.symm,
        Option.not_isSome_iff_eq_none.mp hKnown] at hSid
      exact absurd hSid.symm (by simp [InMemoryRepository.storeSnapshot])
    | some text =>
      simp only [hDump] at hReads hSame
      obtain ⟨e, hLoad, rfl⟩ := h.reads.concat_snapshots.mp hReads
      obtain ⟨payload', hPayload, rfl⟩ := Option.map_eq_some_iff.mp hLoad
      have hSid := (hSame 0).snapshots sid
      simp only [Contents.memory, replay_concat, InMemoryRepository.storeSnapshot,
        get?_set_self, Option.some.injEq] at hSid
      rw [Codec.SnapshotReadsBack, hDump, ← hSid]
      exact hPayload

-- ------ New executions

theorem loadEnvelope_recorded (c : Codec D) (executionId : String) (now : Int) :
    ∃ line, c.dumpEnvelope (recordedEnvelope c executionId now) = some line ∧
      c.loadEnvelope line = some (recordedEnvelope c executionId now) :=
  Option.bind_eq_some_iff.mp (Codec.loadEnvelope_iff.mpr c.load_empty)

variable {record : ExecutionRecord D}

theorem executions_of_new (h : Mirrors c s k) (env : RecordEnvelope D)
    (hNew : ¬ s.memory.IsExecution record.executionId) :
    s.memory.appendExecution record env = some
        { s.memory with
          executions := s.memory.executions.set record.executionId record
          envelopes := s.memory.envelopes.set record.executionId env
          index := s.memory.index.add record } ∧
      s.memory.executions.get? record.executionId = none ∧
      (s.memory.index.add record).Over (s.memory.executions.set record.executionId record) := by
  have hNone : s.memory.executions.get? record.executionId = none :=
    Option.not_isSome_iff_eq_none.mp fun hSome => hNew (.inl hSome)
  exact ⟨if_neg hNew, hNone, h.index.add hNone⟩

variable {now : Int}

theorem appendExecution (h : Mirrors c s k) (hKeeps : Keeps c s (.appendExecution record now)) :
    ∃ k', Mirrors c (s.appendExecution c record now) k' := by
  by_cases hKnown : s.memory.IsExecution record.executionId
  · refine ⟨k, ?_⟩
    have hDuplicate : s.memory.appendExecution record
        (recordedEnvelope c record.executionId now) = none := if_pos hKnown
    unfold JsonlRepository.appendExecution
    simpa only [hDuplicate] using h
  · obtain ⟨hAppend, -, hIndex⟩ :=
      executions_of_new h (recordedEnvelope c record.executionId now) hKnown
    obtain ⟨line, hDump, hLoad⟩ :=
      Option.bind_eq_some_iff.mp (Codec.loadRecord_iff.mpr (hKeeps.resolve_left hKnown))
    obtain ⟨envLine, hEnvDump, hEnvLoad⟩ := loadEnvelope_recorded c record.executionId now
    have hRecords := h.reads.concat_executions.mpr ⟨record, hLoad, rfl⟩
    have hReads := hRecords.concat_envelopes.mpr ⟨_, hEnvLoad, rfl⟩
    unfold JsonlRepository.appendExecution
    simp only [hAppend, hDump, writeEnvelope, hEnvDump]
    refine ⟨_, hReads, ?_, h.archived, fun id hId => ?_, fun id hId => ?_, h.snapshots, hIndex⟩
    · rw [replay_concat_record, ← h.executions]
    · rw [replay_concat_envelope, get?_set, get?_set, executionId_recordedEnvelope]
      by_cases hEq : id = record.executionId
      · rw [if_pos hEq, if_pos hEq]
      · rw [if_neg hEq, if_neg hEq]
        -- another execution, that was there before
        refine h.envelopes id (hId.imp_left fun hSome => ?_)
        rwa [get?_set, if_neg hEq] at hSome
    · simp only [List.map_append, List.map_singleton, List.mem_append, List.mem_singleton] at hId ⊢
      exact hId.imp (h.complete id) fun hEq => hEq

theorem keeps_appendExecution (h : Mirrors c s k)
    (hSurvives : Survives c (s.appendExecution c record now)) :
    Keeps c s (.appendExecution record now) := by
  by_cases hKnown : s.memory.IsExecution record.executionId
  · exact .inl hKnown
  · right
    obtain ⟨hAppend, hNone, -⟩ :=
      executions_of_new h (recordedEnvelope c record.executionId now) hKnown
    unfold JsonlRepository.appendExecution at hSurvives
    cases hDump : c.dumpRecord record with
    | none =>
      -- nothing was written: the new repository has an execution less
      simp only [hAppend, hDump] at hSurvives
      have hList := (same_of_survives hSurvives h.reads 0).executions
      have hOld : (k.memory c 0).listExecutions = s.memory.executions.values :=
        congrArg Dict.values h.executions.symm
      rw [hOld, InMemoryRepository.listExecutions, values_set_of_none hNone] at hList
      simp at hList
    | some line =>
      obtain ⟨envLine, hEnvDump, hEnvLoad⟩ := loadEnvelope_recorded c record.executionId now
      simp only [hAppend, hDump, writeEnvelope, hEnvDump] at hSurvives
      obtain ⟨k', hReads, hSame⟩ := survives_iff_reads.mp hSurvives
      -- what the new line reads as
      have hLine : ∃ r, c.loadRecord line = some r ∧ k'.executions = k.executions ++ [r] :=
        (Option.mapM_concat_iff h.reads.executions).mp hReads.executions
      obtain ⟨r, hLoad, hRecords⟩ := hLine
      have hId : r.executionId = record.executionId :=
        (Codec.executionId_of_load hLoad).trans (Codec.executionId_of_dump hDump)
      have hList := (hSame 0).executions
      simp only [InMemoryRepository.listExecutions, Contents.memory, hRecords,
        replay_concat_record, ← h.executions, hId, values_set_of_none hNone] at hList
      have hEq : r = record := by simpa using hList
      rw [← Codec.loadRecord_iff, hDump, Option.bind_some, hLoad, hEq]

-- ------ The archive

theorem executions_writeEnvelope (dir : Directory) (env : RecordEnvelope D) :
    (writeEnvelope c dir env).executions = dir.executions ∧
      (writeEnvelope c dir env).archived = dir.archived := by
  unfold writeEnvelope
  split
  · exact ⟨rfl, rfl⟩
  · exact ⟨rfl, rfl⟩

theorem length_values_erase {V : Type} {d : Dict String V} {v : V} (h : d.get? id = some v) :
    d.values.length = (d.erase id).values.length + 1 := by
  have hPerm := (perm_entries_erase h).length_eq
  simpa [values] using hPerm

theorem not_survives_archive (h : Mirrors c s k) (hGet : s.memory.executions.get? id = some record)
    :
    ¬ Survives c (s.archiveExecution c id now) := by
  intro hSurvives
  have hStep : (s.archiveExecution c id now).dir.executions = s.dir.executions ∧
      (s.archiveExecution c id now).memory.executions = s.memory.executions.erase id := by
    unfold JsonlRepository.archiveExecution InMemoryRepository.archiveExecution
    simp only [hGet]
    split
    · exact ⟨rfl, rfl⟩
    · exact ⟨(executions_writeEnvelope _ _).1, rfl⟩
  obtain ⟨k', hReads, hSame⟩ := survives_iff_reads.mp hSurvives
  have hSameLines : k'.executions = k.executions := by
    have hRead := hReads.executions
    rw [hStep.1, h.reads.executions] at hRead
    exact (Option.some.inj hRead).symm
  have hList := congrArg List.length (hSame 0).executions
  simp only [InMemoryRepository.listExecutions, Contents.memory, hSameLines, ← h.executions,
    hStep.2] at hList
  have hShorter := length_values_erase hGet
  omega

theorem archive_of_archived (hNone : s.memory.executions.get? id = none)
    (hGet : s.memory.archived.get? id = some record) (hEnv : s.memory.envelopes.get? id = some env)
    :
    s.archiveExecution c id now =
      match c.dumpRecord record with
      | none => s
      | some line =>
        { s with dir := writeEnvelope c { s.dir with archived := s.dir.archived ++ [line] } env } := by
  unfold JsonlRepository.archiveExecution InMemoryRepository.archiveExecution
  cases hLine : c.dumpRecord record with
  | none => simp [hNone, hGet, hEnv, hLine]
  | some line => simp [hNone, hGet, hEnv, hLine]

theorem archive_of_unknown (hNone : s.memory.executions.get? id = none)
    (hMissing : s.memory.archived.get? id = none ∨ s.memory.envelopes.get? id = none) :
    s.archiveExecution c id now = s := by
  unfold JsonlRepository.archiveExecution InMemoryRepository.archiveExecution
  rcases hMissing with hMissing | hMissing
  · simp only [hNone, hMissing]
  · cases hArchived : s.memory.archived.get? id with
    | none => simp only [hNone]
    | some record => simp only [hNone, hMissing]

theorem archiveLine (h : Mirrors c s k) {line : ExecutionRecord String}
    (hGet : s.memory.archived.get? record.executionId = some record)
    (hLoad : c.loadRecord line = some record) :
    Mirrors c { s with dir := { s.dir with archived := s.dir.archived ++ [line] } }
      { k with archived := k.archived ++ [record] } := by
  refine { h with
    reads := h.reads.concat_archived.mpr ⟨record, hLoad, rfl⟩
    archived := ?_ }
  rw [replay_concat_record, ← h.archived, set_of_get? hGet]

theorem envelopeLine (h : Mirrors c s k) (hEnv : s.memory.envelopes.get? env.executionId = some env)
    (hKeeps : c.dump env.metadata = none ∨ c.ReadsBack env.metadata) :
    ∃ k', Mirrors c { s with dir := writeEnvelope c s.dir env } k' := by
  unfold writeEnvelope
  rcases hKeeps with hDump | hReads
  · rw [Codec.dumpEnvelope, hDump]
    exact ⟨k, h⟩
  · obtain ⟨line, hDump, hLoad⟩ := Option.bind_eq_some_iff.mp (Codec.loadEnvelope_iff.mpr hReads)
    rw [hDump]
    refine ⟨{ k with envelopes := k.envelopes ++ [env] }, { h with
      reads := h.reads.concat_envelopes.mpr ⟨env, hLoad, rfl⟩
      envelopes := fun id hId => ?_
      complete := fun id hId => ?_ }⟩
    · show s.memory.envelopes.get? id = _
      rw [replay_concat_envelope, get?_set, ← h.envelopes id hId]
      split
      · next hEq => rw [hEq, hEnv]
      · rfl
    · rw [List.map_append]
      exact List.mem_append_left _ (h.complete id hId)

theorem archiveExecution (h : Mirrors c s k) (hKeeps : Keeps c s (.archiveExecution id now)) :
    ∃ k', Mirrors c (s.archiveExecution c id now) k' := by
  obtain ⟨hNone, hArchived⟩ := hKeeps
  cases hGet : s.memory.archived.get? id with
  | none =>
    rw [archive_of_unknown hNone (.inl hGet)]
    exact ⟨k, h⟩
  | some record =>
    cases hEnv : s.memory.envelopes.get? id with
    | none =>
      rw [archive_of_unknown hNone (.inr hEnv)]
      exact ⟨k, h⟩
    | some env =>
      have hExecution : s.memory.IsExecution id := .inr (Option.isSome_of_mem hGet)
      have hRecordId : record.executionId = id := h.keyed_archived hGet
      have hEnvId : env.executionId = id := h.keyed_envelopes hExecution hEnv
      rw [archive_of_archived hNone hGet hEnv]
      rcases hArchived record hGet env hEnv with hDump | ⟨hReads, hEnvelope⟩
      · rw [Codec.dumpRecord, hDump]
        exact ⟨k, h⟩
      · obtain ⟨line, hDump, hLoad⟩ := Option.bind_eq_some_iff.mp (Codec.loadRecord_iff.mpr hReads)
        rw [hDump]
        exact (h.archiveLine (hRecordId ▸ hGet) hLoad).envelopeLine (hEnvId ▸ hEnv) hEnvelope

theorem keeps_archiveExecution (h : Mirrors c s k)
    (hSurvives : Survives c (s.archiveExecution c id now)) :
    Keeps c s (.archiveExecution id now) := by
  have hNone : s.memory.executions.get? id = none := by
    cases hGet : s.memory.executions.get? id with
    | none => rfl
    | some record => exact absurd hSurvives (h.not_survives_archive hGet)
  refine ⟨hNone, fun record hGet env hEnv => ?_⟩
  have hExecution : s.memory.IsExecution id := .inr (Option.isSome_of_mem hGet)
  have hRecordId : record.executionId = id := h.keyed_archived hGet
  have hEnvId : env.executionId = id := h.keyed_envelopes hExecution hEnv
  cases hDump : c.dump record.data with
  | none => exact .inl rfl
  | some text =>
    right
    have hLine : c.dumpRecord record = some (record.withData text) := by
      rw [Codec.dumpRecord, hDump]
      rfl
    rw [archive_of_archived hNone hGet hEnv, hLine] at hSurvives
    obtain ⟨k', hReads, hSame⟩ := survives_iff_reads.mp hSurvives
    -- the line of the record
    have hArchive := hReads.archived
    rw [(executions_writeEnvelope _ _).2] at hArchive
    obtain ⟨r, hLoad, hRecords⟩ := (Option.mapM_concat_iff h.reads.archived).mp hArchive
    have hId : r.executionId = id :=
      (Codec.executionId_of_load hLoad).trans ((Codec.executionId_of_dump hLine).trans hRecordId)
    have hValues := (hSame 0).archived
    simp only [Contents.memory, hRecords, replay_concat_record, ← h.archived, hId] at hValues
    have hEq : r = record := (values_set_eq_iff hGet r).mp hValues
    refine ⟨?_, ?_⟩
    · rw [← Codec.loadRecord_iff, hLine, Option.bind_some, hLoad, hEq]
    · cases hEnvDump : c.dump env.metadata with
      | none => exact .inl rfl
      | some envText =>
        right
        have hEnvLine : c.dumpEnvelope env = some (env.withMetadata envText) := by
          rw [Codec.dumpEnvelope, hEnvDump]
          rfl
        have hEnvelopes := hReads.envelopes
        simp only [writeEnvelope, hEnvLine] at hEnvelopes
        obtain ⟨env', hEnvLoad, hEnvs⟩ :=
          (Option.mapM_concat_iff h.reads.envelopes).mp hEnvelopes
        have hEnvId' : env'.executionId = id := (Codec.executionId_of_loadEnvelope hEnvLoad).trans
          ((Codec.executionId_of_dumpEnvelope hEnvLine).trans hEnvId)
        -- the new repository has the envelope that was read last
        have hLatest := (hSame 0).envelopes id hExecution
        rw [Contents.get?_envelopes, hEnvs, replay_concat_envelope, hEnvId', get?_set_self,
          Option.some_or] at hLatest
        have hEnvEq : env' = env := Option.some.inj (hLatest.trans hEnv)
        rw [← Codec.loadEnvelope_iff, hEnvLine, Option.bind_some, hEnvLoad, hEnvEq]

end Mirrors

-- ------ Runs

theorem mirrors_step {call : RepositoryCall D} (h : Mirrors c s k) (hKeeps : Keeps c s call) :
    ∃ k', Mirrors c (s.step c call) k' := by
  cases call with
  | appendExecution record now => exact h.appendExecution hKeeps
  | appendWorkflow w => exact h.appendWorkflow hKeeps
  | archiveExecution id now => exact h.archiveExecution hKeeps
  | setEnvelope env => exact ⟨k, h.setEnvelope hKeeps⟩
  | storeSnapshot sid payload => exact h.storeSnapshot hKeeps

theorem keeps_of_survives {call : RepositoryCall D} (h : Mirrors c s k)
    (hSurvives : Survives c (s.step c call)) : Keeps c s call := by
  cases call with
  | appendExecution record now => exact h.keeps_appendExecution hSurvives
  | appendWorkflow w => exact h.keeps_appendWorkflow hSurvives
  | archiveExecution id now => exact h.keeps_archiveExecution hSurvives
  | setEnvelope env => exact h.keeps_setEnvelope hSurvives
  | storeSnapshot sid payload => exact h.keeps_storeSnapshot hSurvives

/-- **When the store survives restarts.** A repository opened on any files survives a restart
at every point of a run iff the files were complete and keep up with every call. -/
theorem along_survives_iff {dir : Directory} {now : Int} (hOpen : opened c dir now = some s)
    (calls : List (RepositoryCall D)) :
    Along (step c) (Survives c) s calls ↔ Complete dir ∧ Every (step c) (Keeps c) s calls := by
  obtain ⟨k, hReads, rfl⟩ := opened_eq hOpen
  by_cases hComplete : Complete dir
  · rw [and_iff_right hComplete]
    refine along_iff_every (I := fun s => ∃ k, Mirrors c s k) (fun s ⟨_, h⟩ => h.survives) ?_ ?_
      ⟨k, mirrors_opened hReads hComplete⟩ calls
    · rintro s call ⟨k, h⟩ hKeeps
      exact mirrors_step h hKeeps
    · rintro s call ⟨k, h⟩ hBreaks hSurvives
      exact hBreaks (keeps_of_survives h hSurvives)
  · refine iff_of_false (fun h => hComplete ?_) fun h => hComplete h.1
    exact complete_of_survives hReads (along_iff_take.mp h 0)

/-- Data that is JSON text already. -/
def plainCodec : Codec String where
  dump := some
  load := some
  dumpSnapshot := some
  loadSnapshot := some
  empty := "{}"
  load_empty := rfl

def emptyStore : JsonlRepository String :=
  { memory := (⟨[], [], [], [], []⟩ : Contents String).memory plainCodec 0, dir := {} }

/-- Two executions are recorded, a third one with the id of the first is refused. -/
theorem along_survives_iff_recorded :
    Along (step plainCodec) (Survives plainCodec) emptyStore
      [.appendExecution { executionId := "exec_1", workflowId := "wf", data := "{}" } 0,
        .appendExecution { executionId := "exec_2", workflowId := "wf", data := "{}" } 1,
        .appendExecution { executionId := "exec_1", workflowId := "wf_2", data := "{}" } 2,
        .storeSnapshot "snap_1" "{}"] := by
  have hOpen : opened plainCodec {} 0 = some emptyStore := rfl
  have hComplete : Complete {} := fun _ h => nomatch h
  exact (along_survives_iff hOpen _).mpr ⟨hComplete, by decide⟩

/-- An archived execution is active again after a restart. -/
theorem archived_execution_returns :
    ¬ ∀ calls, Along (step plainCodec) (Survives plainCodec) emptyStore calls := by
  intro h
  obtain ⟨s', hOpen, hSame⟩ := (h
    [.appendExecution { executionId := "exec_1", workflowId := "wf", data := "{}" } 0,
      .archiveExecution "exec_1" 1]).exec 2
  cases hOpen
  exact absurd hSame.executions (by decide)

end Neuroswarm.Experience
