import Neuroswarm.Kv.Recovery
import Neuroswarm.Lib.Run

/-!
# KV memory runtime — the invariant of the runtime manager

`RuntimeInv sha g σ`: the block manager has the contents `g`, and so has every
checkpoint (`Saved`): its records carry the hashes of their contents, its
payload files are these contents, and its records name the ids of the blocks of
the saved session, one for each.

* `checkpoint_spec` — what a checkpoint that returns has saved.
* `restore_spec` — a restore from a saved checkpoint returns, and which tables
  it leaves.
* `step_runtimeInv`, `reachable_runtimeInv` — every call keeps the invariant.
* `readPayload_stable` — an id stands for the same bytes all along a run.
-/

namespace Neuroswarm.Kv

open FileCheckpointStore (sessionDir)
open KVRuntimeManager (gatherBlocks)

/-- What a checkpoint keeps is intact. -/
structure Saved (sha : Sha256) (g : StableId → Bytes) (next : Nat)
    (files : Dict (String × StableId) Bytes) (dir : String) (doc : CheckpointMeta) : Prop where
  record : ∀ r ∈ doc.physicalRecords, OwnRecord sha g next r.physicalId r
  unique : ∀ r ∈ doc.physicalRecords, ∀ s ∈ doc.physicalRecords,
    r.contentHash = s.contentHash → r.physicalId = s.physicalId
  /-- One record for each block of the session that has a physical one. -/
  blockIds : recordIds doc.physicalRecords =
    doc.session.blocks.values.filterMap Block.physicalId
  payloadIds : ∀ p, p ∈ doc.payloadIds ↔ p ∈ recordIds doc.physicalRecords
  hashes : ∀ p ∈ doc.payloadIds, ∀ want, doc.contentHashes.get? p = some want →
    want = contentHash sha (g p)
  files : ∀ p ∈ doc.payloadIds, files.get? (dir, p) = some (g p)

structure RuntimeInv (sha : Sha256) (g : StableId → Bytes) (σ : KVRuntimeManager) : Prop where
  contents : Contents sha g σ.blockManager
  saved : ∀ dir doc, σ.checkpoints.metas.get? dir = some doc →
    Saved sha g σ.blockManager.nextUuid σ.checkpoints.payloads dir doc

variable {sha : Sha256} {g g' : StableId → Bytes}

namespace Saved

variable {next next' : Nat} {files : Dict (String × StableId) Bytes} {dir : String}
  {doc : CheckpointMeta}

theorem idLt (h : Saved sha g next files dir doc) {p : StableId} (hp : p ∈ doc.payloadIds) :
    p.uuid < next := by
  obtain ⟨r, hr, rfl⟩ := List.mem_map.mp ((h.payloadIds p).mp hp)
  exact (h.record r hr).idLt

theorem mono (h : Saved sha g next files dir doc) (hg : ∀ p, p.uuid < next → g' p = g p)
    (hNext : next ≤ next') : Saved sha g' next' files dir doc where
  record r hr := (h.record r hr).mono hg hNext
  unique := h.unique
  blockIds := h.blockIds
  payloadIds := h.payloadIds
  hashes p hp want hw := by rw [hg p (h.idLt hp)]; exact h.hashes p hp want hw
  files p hp := by rw [hg p (h.idLt hp)]; exact h.files p hp

theorem rewritten (h : Saved sha g next files dir doc)
    {files' : Dict (String × StableId) Bytes}
    (hFiles : ∀ p, files'.get? (dir, p) = some (g p) ∨
      files'.get? (dir, p) = files.get? (dir, p)) : Saved sha g next files' dir doc where
  record := h.record
  unique := h.unique
  blockIds := h.blockIds
  payloadIds := h.payloadIds
  hashes := h.hashes
  files p hp := (hFiles p).elim id fun hSame => hSame.trans (h.files p hp)

theorem refsTo (h : Saved sha g next files dir doc) (p : StableId) :
    doc.session.refsTo p = (recordIds doc.physicalRecords).count p := by
  have hCount : ∀ l : List (StableId × Block),
      (l.map fun e => if e.2.physicalId = some p then 1 else 0).sum =
        ((l.map Prod.snd).filterMap Block.physicalId).count p := by
    intro l
    induction l with
    | nil => rfl
    | cons e rest ih =>
      rw [List.map_cons, List.map_cons, List.sum_cons, ih]
      cases hId : e.2.physicalId with
      | none => simp [hId]
      | some q => simp [hId, List.count_cons, Nat.add_comm]
  rw [h.blockIds]
  exact hCount doc.session.blocks.entries

end Saved

variable {σ : KVRuntimeManager}

theorem RuntimeInv.mono {τ : KVRuntimeManager} (h : RuntimeInv sha g σ)
    (hCheckpoints : τ.checkpoints = σ.checkpoints)
    (hEvolves : Evolves sha g σ.blockManager τ.blockManager) :
    σ.blockManager.nextUuid ≤ τ.blockManager.nextUuid ∧
      ∃ g', RuntimeInv sha g' τ ∧ ∀ p, p.uuid < σ.blockManager.nextUuid → g' p = g p := by
  obtain ⟨hNext, g', hCont, hSame⟩ := hEvolves
  refine ⟨hNext, g', ⟨hCont, fun dir doc hDoc => ?_⟩, hSame⟩
  rw [hCheckpoints] at hDoc ⊢
  exact (h.saved dir doc hDoc).mono hSame hNext

-- ------ Checkpoint

/-- What has been gathered from the blocks with physical ids `ids`. -/
structure Gathers (sha : Sha256) (g : StableId → Bytes) (m : KVBlockManager)
    (ids : List StableId) (out : Gathered) : Prop where
  payloads : ∀ p, out.payloads.get? p = if p ∈ ids then some (g p) else none
  hashes : ∀ p want, out.contentHashes.get? p = some want → want = contentHash sha (g p)
  recordIds : recordIds out.physicalRecords = ids
  record : ∀ r ∈ out.physicalRecords, OwnRecord sha g m.nextUuid r.physicalId r
  live : ∀ p ∈ ids, m.physical.get p ≠ none

theorem readPayload_get {m : KVBlockManager} (h : Contents sha g m) (p : StableId) (now : Time)
    (q : StableId) :
    (m.readPayload p now).2.physical.get q ≠ none ↔ m.physical.get q ≠ none := by
  rcases readPayload_cases h.store p now with ⟨-, hEq⟩ | ⟨r, data, hp, -, hEq⟩
  · rw [hEq]
  · have hId := PhysicalBlockTable.get_physicalId hp
    rw [hEq, PhysicalBlockTable.get_put]
    split
    · next hq => simp [show q = p from hq.trans hId, hp]
    · exact Iff.rfl

namespace Gathers

variable {m m₁ : KVBlockManager} {ids : List StableId} {out : Gathered}

theorem mem_keys (h : Gathers sha g m ids out) (p : StableId) :
    p ∈ out.payloads.keys ↔ p ∈ ids := by
  rw [Dict.mem_keys_iff, h.payloads p]
  split
  · next hp => simp [hp]
  · next hp => simp [hp]

theorem entries (h : Gathers sha g m ids out) : ∀ e ∈ out.payloads.entries, e.2 = g e.1 := by
  rintro ⟨p, data⟩ he
  have hGet := Dict.mem_entries_iff.mp he
  rw [h.payloads p] at hGet
  split at hGet
  · exact (Option.some.inj hGet).symm
  · exact absurd hGet (by simp)

theorem unique (h : Gathers sha g m ids out) (hCont : Contents sha g m)
    {r s : PhysicalBlockRecord} (hr : r ∈ out.physicalRecords) (hs : s ∈ out.physicalRecords)
    (hHash : r.contentHash = s.contentHash) : r.physicalId = s.physicalId := by
  have hLive : ∀ r ∈ out.physicalRecords, ∃ r', m.physical.get r.physicalId = some r' :=
    fun r hr => Option.ne_none_iff_exists'.mp
      (h.live r.physicalId (h.recordIds ▸ List.mem_map_of_mem hr))
  obtain ⟨r', hr'⟩ := hLive r hr
  obtain ⟨s', hs'⟩ := hLive s hs
  refine hCont.table.agree.unique hr' hs' ?_
  rw [(hCont.table.record _ _ hr').hash, (hCont.table.record _ _ hs').hash,
    ← (h.record r hr).hash, ← (h.record s hs).hash, hHash]

theorem read (h : Gathers sha g m ids out) (hCont : Contents sha g m₁)
    (hNext : m₁.nextUuid = m.nextUuid)
    (hGet : ∀ q, m₁.physical.get q ≠ none ↔ m.physical.get q ≠ none) {p : StableId}
    {r : PhysicalBlockRecord} (hr : m₁.physical.get p = some r) :
    Gathers sha g m₁ (ids ++ [p])
      { payloads := out.payloads.set p (g p)
        contentHashes := out.contentHashes.set p (contentHash sha (g p))
        physicalRecords := out.physicalRecords ++ [r] } where
  payloads q := by
    dsimp only
    rw [Dict.get?_set, h.payloads q]
    by_cases hq : q = p
    · simp [hq]
    · simp [hq]
  hashes q want hw := by
    dsimp only at hw
    rw [Dict.get?_set] at hw
    split at hw
    · next hq => rw [← Option.some.inj hw, hq]
    · exact h.hashes q want hw
  recordIds := by
    simp only [Kv.recordIds, List.map_append, List.map_cons, List.map_nil,
      PhysicalBlockTable.get_physicalId hr]
    exact congrArg (· ++ [p]) h.recordIds
  record s hs := by
    rcases List.mem_append.mp hs with hs | hs
    · rw [hNext]
      exact h.record s hs
    · rw [List.mem_singleton.mp hs, PhysicalBlockTable.get_physicalId hr]
      exact hCont.table.record p r hr
  live q hq := by
    rcases List.mem_append.mp hq with hq | hq
    · exact (hGet q).mpr (h.live q hq)
    · rw [List.mem_singleton.mp hq, hr]
      simp

theorem saved (h : Gathers sha g m ids out) (hCont : Contents sha g m) {session : SessionBlockTable}
    (hIds : session.blocks.values.filterMap Block.physicalId = ids)
    (logicalMap : Dict Nat StableId) (checkpointedAt : Time)
    {files : Dict (String × StableId) Bytes} {dir : String}
    (hFiles : ∀ p ∈ out.payloads.keys, files.get? (dir, p) = some (g p)) :
    Saved sha g m.nextUuid files dir
      { session, logicalMap, checkpointedAt
        physicalRecords := out.physicalRecords
        payloadIds := out.payloads.keys
        contentHashes := out.contentHashes } where
  record := h.record
  unique _ hr _ hs hHash := h.unique hCont hr hs hHash
  blockIds := h.recordIds.trans hIds.symm
  payloadIds p := by
    dsimp only
    rw [h.mem_keys, h.recordIds]
  hashes p _ want hw := h.hashes p want hw
  files := hFiles

end Gathers

theorem gatherBlocks_spec (now : Time) (blocks : List Block) {ids : List StableId}
    {out : Gathered} {m : KVBlockManager} (h : Contents sha g m) (hOut : Gathers sha g m ids out) :
    Contents sha g (gatherBlocks sha now blocks out m).2 ∧
      (gatherBlocks sha now blocks out m).2.nextUuid = m.nextUuid ∧
      ∀ out', (gatherBlocks sha now blocks out m).1 = .ok out' →
        Gathers sha g (gatherBlocks sha now blocks out m).2
          (ids ++ blocks.filterMap Block.physicalId) out' := by
  induction blocks generalizing ids out m with
  | nil =>
    refine ⟨h, rfl, fun out' hEq => ?_⟩
    obtain rfl := Except.ok.inj hEq
    rw [List.filterMap_nil, List.append_nil]
    exact hOut
  | cons b rest ih =>
    rw [gatherBlocks]
    cases hb : b.physicalId with
    | none =>
      rw [List.filterMap_cons_none hb]
      exact ih h hOut
    | some p =>
      obtain ⟨hCont, hNext⟩ := readPayload_contents h p now
      have hGet := readPayload_get h p now
      dsimp only
      cases hp : m.physical.get p with
      | none =>
        have hErr := Contents.readPayload_none hp now
        generalize m.readPayload p now = read at hErr hCont hNext
        obtain ⟨result, m₁⟩ := read
        obtain rfl : result = .error (.unknownBlock p) := hErr
        exact ⟨hCont, hNext, fun out' hEq => absurd hEq (by simp)⟩
      | some r =>
        have hOk := h.readPayload hp now
        have hLive := (hGet p).mpr (by rw [hp]; simp)
        generalize m.readPayload p now = read at hOk hCont hNext hGet hLive
        obtain ⟨result, m₁⟩ := read
        obtain rfl : result = .ok (g p) := hOk
        obtain ⟨r₁, hr₁⟩ := Option.ne_none_iff_exists'.mp hLive
        dsimp only at hCont hNext hr₁ hGet ⊢
        rw [hr₁, List.filterMap_cons_some hb,
          show ids ++ p :: rest.filterMap Block.physicalId =
            (ids ++ [p]) ++ rest.filterMap Block.physicalId by simp]
        have hOut₁ := hOut.read hCont hNext hGet hr₁
        obtain ⟨hCont', hNext', hAll⟩ := ih hCont hOut₁
        exact ⟨hCont', hNext'.trans hNext, hAll⟩

theorem foldl_savePayload (sessionId : String) (l : List (StableId × Bytes))
    (hl : ∀ e ∈ l, e.2 = g e.1) (store : FileCheckpointStore) :
    (l.foldl (fun store e => store.savePayload sessionId e.1 e.2) store).metas = store.metas ∧
      ∀ dir p, (l.foldl (fun store e => store.savePayload sessionId e.1 e.2) store).payloads.get?
          (dir, p) =
        if dir = sessionDir sessionId ∧ p ∈ l.map Prod.fst then some (g p)
        else store.payloads.get? (dir, p) := by
  induction l generalizing store with
  | nil => exact ⟨rfl, fun dir p => by simp⟩
  | cons e rest ih =>
    obtain ⟨hMetas, hFiles⟩ := ih (fun e he => hl e (List.mem_cons_of_mem _ he))
      (store.savePayload sessionId e.1 e.2)
    refine ⟨hMetas, fun dir p => ?_⟩
    have hData := hl e List.mem_cons_self
    rw [List.foldl_cons, hFiles, FileCheckpointStore.savePayload]
    dsimp only
    rw [Dict.get?_set, hData]
    by_cases hDir : dir = sessionDir sessionId <;> by_cases hRest : p ∈ rest.map Prod.fst <;>
      by_cases hp : p = e.1 <;> simp [hDir, hRest, hp]

/-- **A checkpoint** reads every block of the session. If it returns, the session
with its logical table is saved intact; if it raises, nothing is saved. -/
theorem checkpoint_spec (h : RuntimeInv sha g σ) (sessionId : String) (now : Time) :
    RuntimeInv sha g (σ.checkpoint sha sessionId now).2 ∧
      (σ.checkpoint sha sessionId now).2.blockManager.nextUuid = σ.blockManager.nextUuid ∧
      ((σ.checkpoint sha sessionId now).1.isOk = true →
        ∃ session logical doc, σ.blockManager.getSession sessionId = some session ∧
          σ.blockManager.logicalTables.get? sessionId = some logical ∧
          (σ.checkpoint sha sessionId now).2.checkpoints.metas.get? (sessionDir sessionId) =
            some doc ∧
          doc.session = session ∧ doc.logicalMap = logical.map) := by
  unfold KVRuntimeManager.checkpoint
  split
  · next session logical hSession hLogical =>
    have hStart : Gathers sha g σ.blockManager [] {} :=
      ⟨fun p => by simp, fun p want hw => by simp at hw, rfl, fun r hr => absurd hr (by simp),
        fun p hp => absurd hp (by simp)⟩
    obtain ⟨hCont, hNext, hAll⟩ := gatherBlocks_spec now session.blocks.values h.contents hStart
    generalize gatherBlocks sha now session.blocks.values {} σ.blockManager = gathered
      at hCont hNext hAll ⊢
    obtain ⟨result, m⟩ := gathered
    dsimp only at hCont hNext hAll
    cases result with
    | error e =>
      refine ⟨⟨hCont, fun dir doc hDoc => ?_⟩, hNext, fun hOk => absurd hOk Bool.false_ne_true⟩
      show Saved sha g m.nextUuid σ.checkpoints.payloads dir doc
      rw [hNext]
      exact h.saved dir doc hDoc
    | ok out =>
      have hOut := hAll out rfl
      rw [List.nil_append] at hOut
      obtain ⟨hMetas, hFiles⟩ := foldl_savePayload sessionId out.payloads.entries hOut.entries
        σ.checkpoints
      dsimp only
      refine ⟨⟨hCont, fun dir doc hDoc => ?_⟩, hNext, fun _ => ?_⟩
      · unfold FileCheckpointStore.checkpoint FileCheckpointStore.saveMeta at hDoc ⊢
        dsimp only at hDoc ⊢
        rw [Dict.get?_set, hMetas] at hDoc
        split at hDoc
        · -- the document that has just been written
          next hDir =>
          obtain rfl := Option.some.inj hDoc
          refine hOut.saved hCont rfl _ _ fun p hp => ?_
          rw [hFiles, if_pos ⟨hDir, hp⟩]
        · -- a document from before: files that were rewritten have the same content
          have hOld := h.saved dir doc hDoc
          rw [← hNext] at hOld
          refine hOld.rewritten fun p => ?_
          rw [hFiles]
          split
          · exact .inl rfl
          · exact .inr rfl
      · let doc : CheckpointMeta :=
          { session
            logicalMap := logical.map
            physicalRecords := out.physicalRecords
            payloadIds := out.payloads.keys
            contentHashes := out.contentHashes
            checkpointedAt := now }
        exact ⟨session, logical, doc, hSession, hLogical, Dict.get?_set_self .., rfl, rfl⟩
  · exact ⟨h, rfl, fun hOk => absurd hOk Bool.false_ne_true⟩

-- ------ Restore

theorem loadPayloads_spec (store : FileCheckpointStore) (sessionId : String)
    (ids : List StableId) (payloads : Dict StableId Bytes)
    (hFiles : ∀ p ∈ ids, store.payloads.get? (sessionDir sessionId, p) = some (g p)) :
    ∃ loaded, store.loadPayloads sessionId ids payloads = .ok loaded ∧
      ∀ p, loaded.get? p = if p ∈ ids then some (g p) else payloads.get? p := by
  induction ids generalizing payloads with
  | nil => exact ⟨payloads, rfl, fun p => by simp⟩
  | cons q rest ih =>
    obtain ⟨loaded, hEq, hGet⟩ := ih (payloads.set q (g q))
      fun p hp => hFiles p (List.mem_cons_of_mem _ hp)
    refine ⟨loaded, ?_, fun p => ?_⟩
    · rw [FileCheckpointStore.loadPayloads, FileCheckpointStore.loadPayload,
        hFiles q List.mem_cons_self]
      exact hEq
    · rw [hGet p, Dict.get?_set]
      by_cases hp : p = q <;> by_cases hRest : p ∈ rest <;> simp [hp, hRest]

/-- The tables a restore leaves: the saved session under its id, the ids that
the records made live, and the references of two rebuilds. -/
structure Restored (sha : Sha256) (g : StableId → Bytes) (sessionId : String)
    (doc : CheckpointMeta) (m m' : KVBlockManager) : Prop where
  nextUuid : m'.nextUuid = m.nextUuid
  session : m'.sessions = m.sessions.set sessionId doc.session
  logical : m'.logicalTables =
    m.logicalTables.set sessionId ⟨doc.session.sessionId, doc.logicalMap⟩
  live : ∀ p, m'.physical.get p ≠ none ↔ m.physical.get p ≠ none ∨
    (p ∈ recordIds doc.physicalRecords ∧
      m.physical.getByHash (contentHash sha (g p)) = none)
  refs : ∀ p, m'.physical.refs p =
    (doc.physicalRecords.foldl RecoveryEngine.mergeRecord
      (doc.physicalRecords.foldl RecoveryEngine.mergeRecord m.physical)).refs p
  /-- Without records the physical table stays as it is. -/
  nothing : doc.physicalRecords = [] → m'.physical = m.physical

/-- **A restore** from a saved checkpoint returns the saved session. -/
theorem restore_spec (h : RuntimeInv sha g σ) {sessionId : String} {doc : CheckpointMeta}
    (hDoc : σ.checkpoints.metas.get? (sessionDir sessionId) = some doc) :
    ∃ m', σ.restore sha sessionId = (.ok doc.session, { σ with blockManager := m' }) ∧
      Contents sha g m' ∧ Restored sha g sessionId doc σ.blockManager m' := by
  have hSaved := h.saved _ _ hDoc
  have hCont := h.contents
  obtain ⟨payloads, hLoad, hGet⟩ := loadPayloads_spec σ.checkpoints sessionId doc.payloadIds
    Dict.empty hSaved.files
  have hEntry : ∀ e ∈ payloads.entries, e.1 ∈ doc.payloadIds ∧ e.2 = g e.1 := by
    rintro ⟨p, data⟩ he
    have hp := Dict.mem_entries_iff.mp he
    rw [hGet p] at hp
    split at hp
    · next hIn => exact ⟨hIn, (Option.some.inj hp).symm⟩
    · exact absurd hp (by simp)
  have hKeys : ∀ p, p ∈ payloads.entries.map Prod.fst ↔ p ∈ recordIds doc.physicalRecords := by
    intro p
    rw [← hSaved.payloadIds p]
    show p ∈ payloads.keys ↔ _
    rw [Dict.mem_keys_iff, hGet p]
    split
    · next hIn => simp [hIn]
    · next hIn => simp [hIn]
  have hRestore : σ.checkpoints.restore sessionId = .ok (doc, payloads) := by
    unfold FileCheckpointStore.restore FileCheckpointStore.loadMeta
    rw [hDoc]
    dsimp only
    rw [hLoad]
  -- every payload has the hash the checkpoint names
  have hValid : RecoveryEngine.validatePayloads sha doc payloads = [] := by
    unfold RecoveryEngine.validatePayloads
    rw [List.map_eq_nil_iff, List.filter_eq_nil_iff]
    intro e he hBad
    obtain ⟨hIn, hData⟩ := hEntry e he
    cases hWant : doc.contentHashes.get? e.1 with
    | none => simp [hWant] at hBad
    | some want =>
      have hHash := hSaved.hashes e.1 hIn want hWant
      simp [hWant, hHash, hData] at hBad
  obtain ⟨l1, hL1, -⟩ := ProviderRegistry.online_iff.mp hCont.l1
  have hFor : σ.blockManager.providers.forTier .l1Ram = .ok l1 := by
    rw [ProviderRegistry.forTier, hL1]
  -- both rebuilds, and then the bytes
  have hOnce := hCont.table.foldl_mergeRecord hSaved.record
  have hTwice := hOnce.foldl_mergeRecord hSaved.record
  let rebuilt : KVBlockManager :=
    { σ.blockManager with
      physical := doc.physicalRecords.foldl RecoveryEngine.mergeRecord
        (doc.physicalRecords.foldl RecoveryEngine.mergeRecord σ.blockManager.physical) }
  have hRehydrating : Rehydrating sha g (payloads.entries.map Prod.fst) rebuilt := by
    refine ⟨hCont.l1, hCont.registered, hCont.contentLt, hTwice, fun p r hp hNot => ?_⟩
    have hOut : p ∉ recordIds doc.physicalRecords := fun hIn => hNot ((hKeys p).mpr hIn)
    obtain ⟨s, hs, hTier⟩ := (tier_foldl_mergeRecord hp).resolve_left hOut
    obtain ⟨s₀, hs₀, hTier₀⟩ := (tier_foldl_mergeRecord hs).resolve_left hOut
    rw [hTier, hTier₀]
    exact hCont.bytes p s₀ hs₀
  obtain ⟨m', hEq, hCont', hSame⟩ := rehydrate_spec (m := rebuilt) payloads.entries
    (fun e he => ⟨(hEntry e he).2, hSaved.idLt (hEntry e he).1⟩) hRehydrating
  refine ⟨{ m' with
    sessions := m'.sessions.set sessionId doc.session
    logicalTables := m'.logicalTables.set sessionId ⟨doc.session.sessionId, doc.logicalMap⟩ },
    ?_, hCont'.mono (fun _ _ => rfl) rfl rfl (Nat.le_refl _), ⟨hSame.nextUuid, ?_, ?_, ?_,
      hSame.refs, ?_⟩⟩
  · unfold KVRuntimeManager.restore
    rw [hRestore]
    dsimp only
    unfold RecoveryEngine.recoverFromCheckpoint
    rw [hValid]
    unfold RecoveryEngine.rebuildTables
    simp only [ne_eq, not_true_eq_false, if_false, Bool.true_eq_false]
    rw [hFor]
    dsimp only
    rw [hEq]
  · show m'.sessions.set _ _ = _
    rw [hSame.sessions]
  · show m'.logicalTables.set _ _ = _
    rw [hSame.logicalTables]
  · intro p
    show m'.physical.get p ≠ none ↔ _
    rw [hSame.get]
    show rebuilt.physical.get p ≠ none ↔ _
    rw [get_foldl_mergeRecord hOnce hSaved.record hSaved.unique,
      get_foldl_mergeRecord hCont.table hSaved.record hSaved.unique]
    -- the second rebuild finds the hash of every record indexed
    refine ⟨fun hLive => hLive.resolve_right ?_, Or.inl⟩
    rintro ⟨hIn, hMiss⟩
    obtain ⟨r, hr, rfl⟩ := List.mem_map.mp hIn
    have hAll := ((getByHash_foldl_mergeRecord hCont.table hSaved.record _).mp hMiss).2
    exact hAll r hr (hSaved.record r hr).hash.symm
  · intro hNone
    have hNil : payloads.entries = [] := by
      have hNoKey : ∀ e, e ∉ payloads.entries := by
        intro e he
        have hIn := (hKeys e.1).mp (List.mem_map_of_mem he)
        rw [hNone] at hIn
        exact absurd hIn (by simp [recordIds])
      exact List.eq_nil_iff_forall_not_mem.mpr hNoKey
    rw [hNil] at hEq
    obtain ⟨-, rfl⟩ := Prod.mk.inj hEq
    show doc.physicalRecords.foldl _ (doc.physicalRecords.foldl _ _) = _
    rw [hNone]
    rfl

theorem restore_of_none {sessionId : String}
    (hNone : σ.checkpoints.metas.get? (sessionDir sessionId) = none) :
    σ.restore sha sessionId = (.error (.unknownSession sessionId), σ) := by
  unfold KVRuntimeManager.restore FileCheckpointStore.restore FileCheckpointStore.loadMeta
  rw [hNone]

theorem restore_runtimeInv (h : RuntimeInv sha g σ) (sessionId : String) :
    RuntimeInv sha g (σ.restore sha sessionId).2 ∧
      (σ.restore sha sessionId).2.blockManager.nextUuid = σ.blockManager.nextUuid := by
  cases hDoc : σ.checkpoints.metas.get? (sessionDir sessionId) with
  | none =>
    rw [restore_of_none hDoc]
    exact ⟨h, rfl⟩
  | some doc =>
    obtain ⟨m', hEq, hCont, hRestored⟩ := restore_spec h hDoc
    rw [hEq]
    refine ⟨⟨hCont, fun dir doc' hDoc' => ?_⟩, hRestored.nextUuid⟩
    show Saved sha g m'.nextUuid σ.checkpoints.payloads dir doc'
    rw [hRestored.nextUuid]
    exact h.saved dir doc' hDoc'

-- ------ Runs

theorem share_contents (h : Contents sha g σ.blockManager) (pid : StableId)
    (consumerId sessionId : String) (token : Option String) (created : Bool) (now : Time) :
    Contents sha g (σ.share pid consumerId sessionId token created now).2.blockManager ∧
      (σ.share pid consumerId sessionId token created now).2.blockManager.nextUuid =
        σ.blockManager.nextUuid ∧
      (σ.share pid consumerId sessionId token created now).2.checkpoints = σ.checkpoints := by
  obtain ⟨hRead, hNext⟩ := readPayload_contents h pid now
  generalize hAuth : (if token.getD "" ≠ "" ∧ sessionId ≠ "" then
    σ.security.authorize (token.getD "") sessionId false true now
    else (true, σ.security)) = auth
  unfold KVRuntimeManager.share
  dsimp only
  rw [hAuth]
  generalize σ.blockManager.readPayload pid now = read at hRead hNext ⊢
  obtain ⟨result, m⟩ := read
  cases auth.1 with
  | false => exact ⟨h, rfl, rfl⟩
  | true =>
    rw [if_neg (by decide)]
    cases result with
    | error e => exact ⟨hRead, hNext, rfl⟩
    | ok data =>
      dsimp only
      split <;> exact ⟨hRead, hNext, rfl⟩

/-- **Every call keeps the invariant**, with the contents of the ids drawn before. -/
theorem step_runtimeInv (h : RuntimeInv sha g σ) (op : RuntimeOp) :
    σ.blockManager.nextUuid ≤ (σ.step sha op).blockManager.nextUuid ∧
      ∃ g', RuntimeInv sha g' (σ.step sha op) ∧
        ∀ p, p.uuid < σ.blockManager.nextUuid → g' p = g p := by
  have hBlocks : ∀ op : Op, op.KeepsBytes →
      σ.blockManager.nextUuid ≤ (σ.onBlocks sha op).blockManager.nextUuid ∧
        ∃ g', RuntimeInv sha g' (σ.onBlocks sha op) ∧
          ∀ p, p.uuid < σ.blockManager.nextUuid → g' p = g p :=
    fun op hOp => h.mono rfl (step_evolves h.contents hOp)
  -- calls that draw no id keep the contents as they are
  have hSame : ∀ τ : KVRuntimeManager, RuntimeInv sha g τ →
      τ.blockManager.nextUuid = σ.blockManager.nextUuid →
      σ.blockManager.nextUuid ≤ τ.blockManager.nextUuid ∧
        ∃ g', RuntimeInv sha g' τ ∧ ∀ p, p.uuid < σ.blockManager.nextUuid → g' p = g p :=
    fun τ hτ hNext => ⟨Nat.le_of_eq hNext.symm, g, hτ, fun _ _ => rfl⟩
  have hRestore := fun sessionId => restore_runtimeInv h sessionId
  cases op with
  | createSession sessionId agentId now => exact hBlocks _ trivial
  | allocate req now => exact hBlocks _ trivial
  | release sessionId => exact hBlocks _ trivial
  | migrate pid target now => exact hBlocks _ trivial
  | lookupPrefix blockPayloads => exact hBlocks _ trivial
  | reusePrefix sessionId result agentId now => exact hBlocks _ trivial
  | share pid consumerId sessionId token created now =>
    obtain ⟨hCont, hNext, hCheckpoints⟩ :=
      share_contents h.contents pid consumerId sessionId token created now
    exact h.mono hCheckpoints (hCont.evolves (Nat.le_of_eq hNext.symm))
  | releaseShare key consumerId => exact hSame _ ⟨h.contents, h.saved⟩ rfl
  | checkpoint sessionId now =>
    obtain ⟨hInv, hNext, -⟩ := checkpoint_spec h sessionId now
    exact hSame _ hInv hNext
  | restore sessionId => exact hSame _ (hRestore sessionId).1 (hRestore sessionId).2
  | resume sessionId =>
    have hCases : (σ.resume sha sessionId).2 = σ ∨
        (σ.resume sha sessionId).2 = (σ.restore sha sessionId).2 := by
      unfold KVRuntimeManager.resume
      split
      · exact Or.inl rfl
      · exact Or.inr rfl
    refine hSame (σ.resume sha sessionId).2 ?_ ?_ <;> rcases hCases with hEq | hEq <;> rw [hEq]
    · exact h
    · exact (hRestore sessionId).1
    · exact (hRestore sessionId).2
  | issue token sessionId agentId canWrite canShare now =>
    exact hSame _ ⟨h.contents, h.saved⟩ rfl
  | revoke token => exact hSame _ ⟨h.contents, h.saved⟩ rfl

theorem exec_runtimeInv (h : RuntimeInv sha g σ) (ops : List RuntimeOp) :
    σ.blockManager.nextUuid ≤
        (Run.exec (KVRuntimeManager.step sha) σ ops).blockManager.nextUuid ∧
      ∃ g', RuntimeInv sha g' (Run.exec (KVRuntimeManager.step sha) σ ops) ∧
        ∀ p, p.uuid < σ.blockManager.nextUuid → g' p = g p := by
  induction ops generalizing σ g with
  | nil => exact ⟨Nat.le_refl _, g, h, fun _ _ => rfl⟩
  | cons op ops ih =>
    obtain ⟨hNext₁, g₁, hInv₁, hSame₁⟩ := step_runtimeInv h op
    obtain ⟨hNext', g', hInv', hSame'⟩ := ih hInv₁
    refine ⟨Nat.le_trans hNext₁ hNext', g', hInv', fun p hp => ?_⟩
    rw [hSame' p (by omega), hSame₁ p hp]

theorem reachable_runtimeInv (sha : Sha256) (cfg : KvConfig) (sharing : SharingBackend)
    (ops : List RuntimeOp) :
    ∃ g, RuntimeInv sha g (Run.exec (KVRuntimeManager.step sha) (.new cfg sharing) ops) := by
  have hNew : RuntimeInv sha (fun _ => []) (.new cfg sharing) :=
    ⟨.new sha _ cfg, fun dir doc hDoc => absurd hDoc (by simp [KVRuntimeManager.new])⟩
  obtain ⟨-, g, hInv, -⟩ := exec_runtimeInv hNew ops
  exact ⟨g, hInv⟩

-- ------ What a block id stands for

/-- Reading the block gives `data`, or says that the block is unknown. -/
def Reads (p : StableId) (data : Bytes) (σ : KVRuntimeManager) : Prop :=
  ∀ now, (σ.blockManager.readPayload p now).1 = .ok data ∨
    (σ.blockManager.readPayload p now).1 = .error (.unknownBlock p)

theorem RuntimeInv.reads (h : RuntimeInv sha g σ) {p : StableId} {data : Bytes}
    (hData : p.uuid < σ.blockManager.nextUuid → data = g p) : Reads p data σ := by
  intro now
  rcases readPayload_cases h.contents.store p now with ⟨-, hEq⟩ | ⟨r, bytes, hp, hBytes, hEq⟩
  · exact .inr (by rw [hEq])
  · obtain ⟨hKey, -, -, hLt⟩ := h.contents.table.record p r hp
    rw [hKey, (h.contents.bytes p r hp).2] at hBytes
    rw [hEq, ← Option.some.inj hBytes, ← hData hLt]
    exact .inl rfl

theorem RuntimeInv.reads_along (h : RuntimeInv sha g σ) (p : StableId) (ops : List RuntimeOp) :
    ∃ data, (p.uuid < σ.blockManager.nextUuid → data = g p) ∧
      Run.Along (KVRuntimeManager.step sha) (Reads p data) σ ops := by
  induction ops generalizing σ g with
  | nil => exact ⟨g p, fun _ => rfl, h.reads fun _ => rfl⟩
  | cons op ops ih =>
    obtain ⟨hNext, g', h', hSame⟩ := step_runtimeInv h op
    obtain ⟨data, hData, hAlong⟩ := ih h'
    -- an id that is drawn already keeps its bytes
    have hOld : p.uuid < σ.blockManager.nextUuid → data = g p := fun hp =>
      (hData (by omega)).trans (hSame p hp)
    exact ⟨data, hOld, h.reads hOld, hAlong⟩

/-- **A block id stands for the same bytes throughout a run**: wherever the block is moved,
released and restored from a checkpoint, a read returns them or does not find the block. -/
theorem readPayload_stable (sha : Sha256) (cfg : KvConfig) (sharing : SharingBackend)
    (ops : List RuntimeOp) (p : StableId) :
    ∃ data, Run.Along (KVRuntimeManager.step sha) (Reads p data) (.new cfg sharing) ops := by
  obtain ⟨g, h⟩ := reachable_runtimeInv sha cfg sharing []
  obtain ⟨data, -, hAlong⟩ := h.reads_along p ops
  exact ⟨data, hAlong⟩

end Neuroswarm.Kv
