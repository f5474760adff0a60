import Neuroswarm.Checkpoints.Repository

/-!
# Checkpoint retention

`runtime/swarm/checkpoint/retention.py`: archive / expire / prune, no delete.

* `RetentionPolicy.apply` — one pass over the store.
* `Thins` — what a pass may do to the store: fewer active checkpoints, every lookup as
  before.
* `Thins.latestForExecution`, `Thins.latestForWorkflow` — the latest checkpoint
  stays the latest as long as it stays active.
-/

namespace Neuroswarm.Checkpoints

/-- When to archive / expire checkpoints and prune envelope metadata. -/
structure RetentionPolicy where
  maxAge : Option Int := none
  maxActivePerExecution : Option Int := none
  maxActiveTotal : Option Int := none
  pruneMetadataKeys : List String := []
  allowHardDelete : Bool := false
  expireArchivedAfter : Option Int := none

/-- The counts that `apply` returns. -/
structure RetentionResult where
  archived : List CheckpointId
  expired : List CheckpointId
  compacted : List CheckpointId
  prunedKeys : Nat
  deriving DecidableEq, Repr

namespace RetentionPolicy

open InMemoryRepository

variable {V : Type}

/-- `sorted(items, key=lambda c: c.timestamp)` -/
def byAge (items : List (Checkpoint V)) : List (Checkpoint V) :=
  items.insertionSort fun c d => c.timestamp ≤ d.timestamp

def archiveOverflow (limit : Int) (clock : CheckpointId → Timestamp)
    (archived : List CheckpointId) (items : List (Checkpoint V)) :
    RepositoryM V (List CheckpointId) :=
  if (items.length : Int) ≤ limit then
    pure archived
  else
    ((byAge items).take (items.length - limit).toNat).foldlM
      (fun archived c =>
        if c.checkpointId ∈ archived then
          pure archived
        else do
          let _ ← archive c.checkpointId (clock c.checkpointId)
          pure (archived ++ [c.checkpointId]))
      archived

def archiveByAge (policy : RetentionPolicy) (now : Timestamp)
    (clock : CheckpointId → Timestamp) (active : List (Checkpoint V)) :
    RepositoryM V (List CheckpointId) :=
  match policy.maxAge with
  | none => pure []
  | some maxAge =>
    active.foldlM
      (fun archived c =>
        if c.timestamp < now - maxAge then do
          let _ ← archive c.checkpointId (clock c.checkpointId)
          pure (archived ++ [c.checkpointId])
        else
          pure archived)
      []

/-- The active checkpoints of each execution, in the order of the first of each. -/
def groupByExecution (items : List (Checkpoint V)) : Dict String (List (Checkpoint V)) :=
  items.foldl
    (fun groups c => groups.set c.executionId ((groups.get? c.executionId).getD [] ++ [c]))
    .empty

def archivePerExecution (policy : RetentionPolicy) (clock : CheckpointId → Timestamp)
    (archived : List CheckpointId) : RepositoryM V (List CheckpointId) := do
  match policy.maxActivePerExecution with
  | none => pure archived
  | some limit =>
    let r ← MonadState.get
    (groupByExecution (r.listAll false)).values.foldlM (archiveOverflow limit clock) archived

def archiveTotal (policy : RetentionPolicy) (clock : CheckpointId → Timestamp)
    (archived : List CheckpointId) : RepositoryM V (List CheckpointId) := do
  match policy.maxActiveTotal with
  | none => pure archived
  | some limit =>
    let r ← MonadState.get
    archiveOverflow limit clock archived (r.listAll false)

def expireArchived (policy : RetentionPolicy) (now : Timestamp)
    (clock : CheckpointId → Timestamp) : RepositoryM V (List CheckpointId) := do
  match policy.expireArchivedAfter with
  | none => pure []
  | some expireAfter =>
    let r ← MonadState.get
    (r.listAll true).foldlM
      (fun expired c => do
        let env ← getEnvelope c.checkpointId
        if env.status = .archived ∧ env.archivedAt.getD env.recordedAt < now - expireAfter then
          let _ ← expire c.checkpointId (clock c.checkpointId)
          pure (expired ++ [c.checkpointId])
        else
          pure expired)
      []

def pruned (keys : List String) (metadata : Dict String V) : Dict String V × Nat :=
  keys.foldl
    (fun (metadata, n) key =>
      if metadata.contains key then (metadata.erase key, n + 1) else (metadata, n))
    (metadata, 0)

def pruneMetadata (policy : RetentionPolicy) : RepositoryM V (List CheckpointId × Nat) := do
  if policy.pruneMetadataKeys = [] then
    pure ([], 0)
  else
    let r ← MonadState.get
    (r.listAll true).foldlM
      (fun (compacted, n) c => do
        let env ← getEnvelope c.checkpointId
        let (metadata, removed) := pruned policy.pruneMetadataKeys env.metadata
        if removed = 0 then
          pure (compacted, n)
        else
          let _ ← setEnvelope { env with metadata }
          pure (compacted ++ [c.checkpointId], n + removed))
      ([], 0)

/-- One pass at the instant `now`; `clock` is what `utc_now()` reads when a checkpoint is
archived or expires. -/
def apply (policy : RetentionPolicy) (now : Timestamp) (clock : CheckpointId → Timestamp) :
    RepositoryM V RetentionResult := do
  if policy.allowHardDelete then
    throw (.retention ("hard delete disabled by default; set allow_hard_delete only via " ++
      "explicit future extension"))
  else
    let r ← MonadState.get
    let archived ← policy.archiveByAge now clock (r.listAll false)
    let archived ← policy.archivePerExecution clock archived
    let archived ← policy.archiveTotal clock archived
    let expired ← policy.expireArchived now clock
    let (compacted, prunedKeys) ← policy.pruneMetadata
    pure { archived, expired, compacted, prunedKeys }

end RetentionPolicy

-- ------ What a pass does to the store

/-- Some active checkpoints were archived, and nothing else. -/
def Thins {V : Type} (r r' : InMemoryRepository V) : Prop :=
  (∃ kept : CheckpointId → Bool,
    r'.active.entries = r.active.entries.filter fun e => kept e.1) ∧
  ∀ id, r'.lookup id = r.lookup id

namespace Thins

open InMemoryRepository RetentionPolicy EStateM

variable {V : Type} {r r' r'' : InMemoryRepository V}

theorem refl (r : InMemoryRepository V) : Thins r r :=
  ⟨⟨fun _ => true, by simp⟩, fun _ => rfl⟩

theorem trans (h : Thins r r') (h' : Thins r' r'') : Thins r r'' := by
  obtain ⟨⟨kept, hKept⟩, hLookup⟩ := h
  obtain ⟨⟨kept', hKept'⟩, hLookup'⟩ := h'
  refine ⟨⟨fun id => kept id && kept' id, ?_⟩, fun id => (hLookup' id).trans (hLookup id)⟩
  rw [hKept', hKept, List.filter_filter]
  exact List.filter_congr fun e _ => Bool.and_comm _ _

theorem shelve (r : InMemoryRepository V) (id : CheckpointId) : Thins r (r.shelve id) := by
  unfold InMemoryRepository.shelve
  split
  · next c hc =>
    refine ⟨⟨fun id' => id' ≠ id, rfl⟩, fun id' => ?_⟩
    unfold lookup
    rw [Dict.get?_erase, Dict.get?_set]
    by_cases hId : id' = id
    · simp only [hId, if_pos, hc]
    · simp only [if_neg hId]
  · exact refl r

theorem envelopes (h : Thins r r') (envelopes : Dict CheckpointId (CheckpointEnvelope V)) :
    Thins r { r' with envelopes } :=
  h

theorem keeps_getEnvelope (id : CheckpointId) : Keeps (Thins r) (getEnvelope id) := by
  refine keeps_get_bind fun s hs => ?_
  split
  · exact hs
  · exact hs

theorem keeps_setEnvelope (env : CheckpointEnvelope V) : Keeps (Thins r) (setEnvelope env) := by
  refine keeps_get_bind fun s hs => ?_
  split
  · exact hs.envelopes _
  · exact hs

theorem keeps_transitionTo (id : CheckpointId) (target : CheckpointStatus) (now : Timestamp) :
    Keeps (Thins r) (transitionTo (V := V) id target now) := by
  refine keeps_get_bind fun s hs => ?_
  split
  · exact hs
  · dsimp only
    split
    · exact hs
    · have hMoved : Thins r (if target = .active then s else s.shelve id) := by
        split
        · exact hs
        · exact hs.trans (shelve s id)
      exact hMoved.envelopes _

theorem keeps_archiveOverflow (limit : Int) (clock : CheckpointId → Timestamp)
    (archived : List CheckpointId) (items : List (Checkpoint V)) :
    Keeps (Thins r) (archiveOverflow limit clock archived items) := by
  unfold archiveOverflow
  split
  · exact keeps_pure _
  · refine keeps_foldlM _ (fun archived c _ => ?_) _
    split
    · exact keeps_pure _
    · exact keeps_bind (keeps_transitionTo _ _ _) fun _ => keeps_pure _

variable (policy : RetentionPolicy)

theorem keeps_archiveByAge (now : Timestamp) (clock : CheckpointId → Timestamp)
    (active : List (Checkpoint V)) :
    Keeps (Thins r) (policy.archiveByAge now clock active) := by
  unfold archiveByAge
  split
  · exact keeps_pure _
  · refine keeps_foldlM _ (fun archived c _ => ?_) _
    split
    · exact keeps_bind (keeps_transitionTo _ _ _) fun _ => keeps_pure _
    · exact keeps_pure _

theorem keeps_archivePerExecution (clock : CheckpointId → Timestamp) (archived : List CheckpointId)
    :
    Keeps (Thins r) (policy.archivePerExecution (V := V) clock archived) := by
  unfold archivePerExecution
  split
  · exact keeps_pure _
  · refine keeps_get_bind fun s hs => ?_
    exact keeps_foldlM _ (fun _ _ _ => keeps_archiveOverflow _ _ _ _) _ s hs

theorem keeps_archiveTotal (clock : CheckpointId → Timestamp) (archived : List CheckpointId) :
    Keeps (Thins r) (policy.archiveTotal (V := V) clock archived) := by
  unfold archiveTotal
  split
  · exact keeps_pure _
  · exact keeps_get_bind fun s hs => keeps_archiveOverflow _ _ _ _ s hs

theorem keeps_expireArchived (now : Timestamp) (clock : CheckpointId → Timestamp) :
    Keeps (Thins r) (policy.expireArchived (V := V) now clock) := by
  unfold expireArchived
  split
  · exact keeps_pure _
  · refine keeps_get_bind fun s hs => ?_
    refine keeps_foldlM _ (fun expired c _ => ?_) _ s hs
    refine keeps_bind (keeps_getEnvelope _) fun env => ?_
    split
    · exact keeps_bind (keeps_transitionTo _ _ _) fun _ => keeps_pure _
    · exact keeps_pure _

theorem keeps_pruneMetadata :
    Keeps (Thins r) (policy.pruneMetadata (V := V)) := by
  unfold pruneMetadata
  split
  · exact keeps_pure _
  · refine keeps_get_bind fun s hs => ?_
    refine keeps_foldlM _ (fun acc c _ => ?_) _ s hs
    refine keeps_bind (keeps_getEnvelope _) fun env => ?_
    rcases pruned policy.pruneMetadataKeys env.metadata with ⟨metadata, removed⟩
    dsimp only
    split
    · exact keeps_pure _
    · exact keeps_bind (keeps_setEnvelope _) fun _ => keeps_pure _

theorem keeps_apply (now : Timestamp) (clock : CheckpointId → Timestamp) :
    Keeps (Thins r) (policy.apply (V := V) now clock) := by
  unfold RetentionPolicy.apply
  split
  · exact keeps_throw _
  · refine keeps_get_bind fun s hs => ?_
    refine keeps_bind (keeps_archiveByAge _ _ _ _) (fun archived => ?_) s hs
    refine keeps_bind (keeps_archivePerExecution _ _ _) fun archived => ?_
    refine keeps_bind (keeps_archiveTotal _ _ _) fun archived => ?_
    refine keeps_bind (keeps_expireArchived _ _ _) fun expired => ?_
    exact keeps_bind (keeps_pruneMetadata _) fun _ => keeps_pure _

/-- **Retention thins the store out**, also where it raises half way. -/
theorem apply (now : Timestamp) (clock : CheckpointId → Timestamp) (r : InMemoryRepository V) :
    Thins r ((policy.apply now clock).after r) :=
  keeps_apply policy now clock r (refl r)

-- ------ The latest checkpoint

theorem values_active (h : Thins r r') : ∃ kept : CheckpointId → Bool,
    (∀ id, (r'.active.get? id).isSome → kept id) ∧
    r'.active.values = r.active.values.filter fun c => kept c.checkpointId := by
  obtain ⟨⟨kept, hKept⟩, -⟩ := h
  refine ⟨kept, fun id hId => ?_, ?_⟩
  · obtain ⟨c, hc⟩ := Option.isSome_iff_exists.mp hId
    have hMem := Dict.mem_entries_iff.mpr hc
    rw [hKept] at hMem
    exact (List.mem_filter.mp hMem).2
  · unfold Dict.values
    rw [hKept, List.filter_map]
    -- every checkpoint stands under its own id
    refine congrArg (List.map Prod.snd) (List.filter_congr fun e he => ?_)
    show kept e.1 = kept e.2.checkpointId
    rw [r.activeKeyed e.1 e.2 (Dict.mem_entries_iff.mp he)]

theorem argmax_active (h : Thins r r') {p : Checkpoint V → Bool} {c : Checkpoint V}
    (hc : (r.active.values.filter p).argmax Checkpoint.timestamp = some c)
    (hKept : (r'.active.get? c.checkpointId).isSome) :
    (r'.active.values.filter p).argmax Checkpoint.timestamp = some c := by
  obtain ⟨kept, hSome, hValues⟩ := h.values_active
  rw [hValues, List.filter_filter, List.filter_congr fun d _ => Bool.and_comm _ _,
    ← List.filter_filter]
  exact List.argmax_filter hc (hSome _ hKept)

end Thins

end Neuroswarm.Checkpoints
