import Neuroswarm.Rollback.Manager

/-!
# Rollback manager — statuses in the repository

What the calls of the repository do to the status of an operation and of its metadata, and
with them the single steps of `execute` and `cancel`. `update_status` and `set_metadata`
write any status.

* `InMemoryRepository.Sound` — operations and metadata agree on every status, always.
* `InMemoryRepository.Writes` — a step that writes one status.
-/

namespace Neuroswarm.Rollback

-- ------ Statuses in the repository

namespace InMemoryRepository

variable {r r' : InMemoryRepository} {id : RollbackId} {t : RollbackStatus}

def statusOf (r : InMemoryRepository) (id : RollbackId) : Option RollbackStatus :=
  (r.ops.get? id).map (·.status)

def metaStatusOf (r : InMemoryRepository) (id : RollbackId) : Option RollbackStatus :=
  (r.metas.get? id).map (·.status)

/-- Operations and metadata stand under their ids and agree on the status. -/
structure Sound (r : InMemoryRepository) : Prop where
  opsKeyed : ∀ id op, r.ops.get? id = some op → op.rollbackId = id
  metasKeyed : ∀ id metadata, r.metas.get? id = some metadata → metadata.rollbackId = id
  agree : ∀ id, r.metaStatusOf id = r.statusOf id

/-- The status of one operation is written, and nothing else. -/
structure Writes (r : InMemoryRepository) (id : RollbackId) (t : RollbackStatus)
    (r' : InMemoryRepository) : Prop where
  sound : r.Sound → r'.Sound
  statusOf : ∀ id', r'.statusOf id' = if id' = id then some t else r.statusOf id'

theorem Writes.self (h : Writes r id t r') : r'.statusOf id = some t := by
  rw [h.statusOf, if_pos rfl]

theorem Writes.of_ne (h : Writes r id t r') {id' : RollbackId} (hNe : id' ≠ id) :
    r'.statusOf id' = r.statusOf id' := by
  rw [h.statusOf, if_neg hNe]

theorem writes_of_set {ops : Dict RollbackId RollbackOperation}
    {metas : Dict RollbackId RollbackExecutionMetadata} (op : RollbackOperation)
    (metadata : RollbackExecutionMetadata)
    (hOps : ∀ id', ops.get? id' = if id' = id then some op else r.ops.get? id')
    (hMetas : ∀ id', metas.get? id' = if id' = id then some metadata else r.metas.get? id')
    (hOpId : r.Sound → op.rollbackId = id) (hOpStatus : op.status = t)
    (hId : metadata.rollbackId = id) (hStatus : metadata.status = t) :
    Writes r id t { ops, metas } := by
  refine ⟨fun hSound => ⟨fun id' o ho => ?_, fun id' m hm => ?_, fun id' => ?_⟩, fun id' => ?_⟩
  · have ho' : ops.get? id' = some o := ho
    rw [hOps] at ho'
    split at ho'
    · next hEq =>
      cases ho'
      rw [hOpId hSound, hEq]
    · exact hSound.opsKeyed id' o ho'
  · have hm' : metas.get? id' = some m := hm
    rw [hMetas] at hm'
    split at hm'
    · next hEq =>
      cases hm'
      rw [hId, hEq]
    · exact hSound.metasKeyed id' m hm'
  · show (metas.get? id').map (·.status) = (ops.get? id').map (·.status)
    rw [hMetas, hOps]
    split
    · rw [Option.map_some, Option.map_some, hStatus, hOpStatus]
    · exact hSound.agree id'
  · show (ops.get? id').map (·.status) = _
    rw [hOps]
    split
    · rw [Option.map_some, hOpStatus]
    · rfl

theorem append_ok {op : RollbackOperation} {now : Timestamp} (h : r.append op now = .ok r') :
    r.statusOf op.rollbackId = none ∧ Writes r op.rollbackId op.status r' := by
  unfold append at h
  split at h
  · cases h
  · next hNew =>
    cases h
    have hNone : r.ops.get? op.rollbackId = none := by
      simpa [Dict.contains] using hNew
    refine ⟨?_, writes_of_set op _ (fun id' => Dict.get?_set _ _ _ _)
      (fun id' => Dict.get?_set _ _ _ _) (fun _ => rfl) rfl rfl rfl⟩
    rw [InMemoryRepository.statusOf, hNone]
    rfl

theorem setMetadata_writes {metadata : RollbackExecutionMetadata}
    (h : (r.statusOf metadata.rollbackId).isSome) :
    ∃ r', r.setMetadata metadata = .ok r' ∧ Writes r metadata.rollbackId metadata.status r' := by
  unfold setMetadata
  cases hOp : r.ops.get? metadata.rollbackId with
  | none =>
    rw [InMemoryRepository.statusOf, hOp] at h
    cases h
  | some op =>
    refine ⟨_, rfl, writes_of_set (op.withStatus metadata.status) metadata (fun id' => ?_)
      (fun id' => Dict.get?_set _ _ _ _) (fun hSound => hSound.opsKeyed _ op hOp) rfl rfl rfl⟩
    by_cases hSame : op.status = metadata.status
    · -- the operation has the status of the metadata already
      rw [if_neg (not_not.mpr hSame)]
      split
      · next hEq => rw [hEq, hOp, ← hSame]; rfl
      · rfl
    · rw [if_pos hSame, Dict.get?_set]

theorem updateStatus_writes (hSound : r.Sound) (h : (r.statusOf id).isSome) :
    ∃ updated r', r.updateStatus id t = .ok (updated, r') ∧ updated.rollbackId = id ∧
      Writes r id t r' := by
  obtain ⟨old, hOld⟩ := Option.isSome_iff_exists.mp h
  obtain ⟨op, hOp, -⟩ := Option.map_eq_some_iff.mp hOld
  obtain ⟨metadata, hMeta, -⟩ := Option.map_eq_some_iff.mp ((hSound.agree id).trans hOld)
  have hId : op.rollbackId = id := hSound.opsKeyed id op hOp
  unfold updateStatus get
  rw [hOp]
  refine ⟨_, _, rfl, hId, writes_of_set (op.withStatus t) { metadata with status := t }
    (fun id' => Dict.get?_set _ _ _ _) (fun id' => ?_) (fun _ => hId) rfl
    (hSound.metasKeyed id metadata hMeta) rfl⟩
  rw [Dict.get?_modify, hMeta]
  rfl

theorem getMetadata_of_status (hSound : r.Sound) (h : r.statusOf id = some t) :
    ∃ metadata, r.getMetadata id = .ok metadata ∧ metadata.rollbackId = id ∧
      metadata.status = t := by
  obtain ⟨metadata, hMeta, hStatus⟩ := Option.map_eq_some_iff.mp ((hSound.agree id).trans h)
  refine ⟨metadata, ?_, hSound.metasKeyed id metadata hMeta, hStatus⟩
  rw [getMetadata, hMeta]

theorem statusOf_of_get {op : RollbackOperation} (h : r.get id = .ok op) :
    r.statusOf id = some op.status := by
  unfold get at h
  split at h
  · next op' hOp =>
    cases h
    rw [InMemoryRepository.statusOf, hOp]
    rfl
  · cases h

theorem sound_empty : ({} : InMemoryRepository).Sound :=
  ⟨fun _ _ h => (nomatch h), fun _ _ h => (nomatch h), fun _ => rfl⟩

theorem sound_loaded (ops : List RollbackOperation) (now : Timestamp) : (loaded ops now).Sound := by
  refine List.foldlRecOn (motive := Sound) ops _ sound_empty fun r hSound op _ => ?_
  split
  · next r' hAppend => exact (append_ok hAppend).2.sound hSound
  · exact hSound

end InMemoryRepository

-- ------ Single steps

section Steps

variable {r : InMemoryRepository} {id : RollbackId} {t old : RollbackStatus} {now : Timestamp}

theorem readMetadata_eq (hSound : r.Sound) (h : r.statusOf id = some t)
    (next : RollbackExecutionMetadata → Call) :
    ∃ metadata, metadata.rollbackId = id ∧ metadata.status = t ∧
      readMetadata r id next = { repository := r, next := next metadata } := by
  obtain ⟨metadata, hGet, hId, hStatus⟩ := InMemoryRepository.getMetadata_of_status hSound h
  refine ⟨metadata, hId, hStatus, ?_⟩
  rw [readMetadata, hGet]

theorem writeStatus_eq (hSound : r.Sound) (h : r.statusOf id = some old)
    (next : RollbackOperation → Call) :
    ∃ updated r', updated.rollbackId = id ∧ r.Writes id t r' ∧
      writeStatus r id t next = { repository := r', next := next updated } := by
  obtain ⟨updated, r', hUpdate, hId, hWrites⟩ :=
    InMemoryRepository.updateStatus_writes (t := t) hSound (Option.isSome_of_mem h)
  refine ⟨updated, r', hId, hWrites, ?_⟩
  rw [writeStatus, hUpdate]

theorem writeStamped_of_not {metadata : RollbackExecutionMetadata}
    (h : ¬ canTransition metadata.status t) (durationMs : Option Int) (next : Call) :
    writeStamped r metadata t now durationMs next = { repository := r } := by
  rw [writeStamped, stampMetadata, transition_of_not h]

theorem writeStamped_eq {metadata : RollbackExecutionMetadata} (hId : metadata.rollbackId = id)
    (hCan : canTransition metadata.status t) (h : r.statusOf id = some old) (now : Timestamp)
    (durationMs : Option Int) (next : Call) :
    ∃ r', r.Writes id t r' ∧
      writeStamped r metadata t now durationMs next = { repository := r', next } := by
  subst hId
  unfold writeStamped stampMetadata
  rw [transition_of_can hCan]
  dsimp only
  have hStamped : (r.statusOf (metadata.stamped t now durationMs).rollbackId).isSome :=
    Option.isSome_of_mem h
  obtain ⟨r', hSet, hWrites⟩ := InMemoryRepository.setMetadata_writes hStamped
  refine ⟨r', hWrites, ?_⟩
  rw [hSet]

end Steps

end Neuroswarm.Rollback
