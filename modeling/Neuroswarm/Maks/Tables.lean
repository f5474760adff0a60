import Mathlib.Data.List.Sort
import Neuroswarm.Maks.Types

/-!
# MAKS — the manager's tables

`registry.py`, `reference_counter.py`, `lifecycle.py`, `handles.py` and
`dedup.py`. A registry without a durable store behind it; with one, the store
is written through on every `upsert` and read only for ids the memory index
lacks, so from an empty store on it is a copy.

`KVRegistry` carries the proof that a record is filed under its own id. Each
table comes with its lookup lemmas; nothing above this module unfolds one.
-/

namespace Neuroswarm.Maks

open Neuroswarm.Kv (Bytes Time encode)

-- ------ The registry

/-- `MemoryRegistryStore._records`. -/
structure KVRegistry where
  records : Dict KvId KVRegistryRecord
  keyed : ∀ {k rec}, records.get? k = some rec → rec.kvId = k

namespace KVRegistry

def empty : KVRegistry := ⟨Dict.empty, by intro k rec h; cases h⟩

def get (reg : KVRegistry) (kvId : KvId) : Option KVRegistryRecord := reg.records.get? kvId

def upsert (reg : KVRegistry) (record : KVRegistryRecord) : KVRegistry :=
  ⟨reg.records.set record.kvId record, by
    intro k rec h
    rw [Dict.get?_set] at h
    split at h
    · next hk => rw [hk, ← Option.some.inj h]
    · exact reg.keyed h⟩

def delete (reg : KVRegistry) (kvId : KvId) : KVRegistry :=
  ⟨reg.records.erase kvId, by
    intro k rec h
    rw [Dict.get?_erase] at h
    split at h
    · cases h
    · exact reg.keyed h⟩

/-- `sorted(ids)`, by the spelling order `rank`. -/
def listIds (rank : KvId → Nat) (reg : KVRegistry) : List KvId :=
  reg.records.keys.insertionSort fun a b => rank a ≤ rank b

def allRecords (rank : KvId → Nat) (reg : KVRegistry) : List KVRegistryRecord :=
  (reg.listIds rank).filterMap reg.get

/-- `rec = get(kv_id)`, an update of its fields in place, `upsert(rec)`. -/
def modify (reg : KVRegistry) (kvId : KvId) (f : KVRegistryRecord → KVRegistryRecord) :
    KVRegistry :=
  match reg.get kvId with
  | none => reg
  | some rec => reg.upsert (f rec)

/-- What `touch(kv_id, hit=True)` counts. -/
def touched (rec : KVRegistryRecord) : KVRegistryRecord :=
  { rec with
    accessCount := rec.accessCount + 1
    metadata := { rec.metadata with
      hitCount := rec.metadata.hitCount + 1
      reuseCount := rec.metadata.reuseCount + 1 } }

def touch (reg : KVRegistry) (kvId : KvId) : KVRegistry := reg.modify kvId touched

/-- What `set_state` writes: `PINNED` pins the record and `RELEASED` unpins it. -/
def withState (rec : KVRegistryRecord) (state : KVState) : KVRegistryRecord :=
  { rec with
    state := state
    pinned := if state = .pinned then true else if state = .released then false else rec.pinned }

def setState (reg : KVRegistry) (kvId : KvId) (state : KVState) : KVRegistry :=
  reg.modify kvId (withState · state)

def setTier (reg : KVRegistry) (kvId : KvId) (tier : KVTier) : KVRegistry :=
  reg.modify kvId ({ · with tier := tier })

theorem kvId_of_get {reg : KVRegistry} {k : KvId} {rec : KVRegistryRecord}
    (h : reg.get k = some rec) : rec.kvId = k := reg.keyed h

@[simp] theorem get_empty (k : KvId) : empty.get k = none := rfl

variable (reg : KVRegistry)

theorem get_upsert (record : KVRegistryRecord) (k : KvId) :
    (reg.upsert record).get k = if k = record.kvId then some record else reg.get k :=
  Dict.get?_set _ _ _ _

theorem get_delete (kvId k : KvId) :
    (reg.delete kvId).get k = if k = kvId then none else reg.get k :=
  Dict.get?_erase _ _ _

theorem get_modify {reg : KVRegistry} {kvId : KvId} {f : KVRegistryRecord → KVRegistryRecord}
    (hf : ∀ rec, (f rec).kvId = rec.kvId) (k : KvId) :
    (reg.modify kvId f).get k = if k = kvId then (reg.get k).map f else reg.get k := by
  unfold modify
  cases h : reg.get kvId with
  | none =>
    dsimp only
    split
    · next hk => rw [hk, h]; rfl
    · rfl
  | some rec =>
    dsimp only
    rw [get_upsert, hf, kvId_of_get h]
    by_cases hk : k = kvId
    · rw [if_pos hk, if_pos hk, hk, h]; rfl
    · rw [if_neg hk, if_neg hk]

theorem get_touch (kvId k : KvId) :
    (reg.touch kvId).get k = if k = kvId then (reg.get k).map touched else reg.get k :=
  get_modify (f := touched) (fun _ => rfl) k

theorem get_setState (kvId : KvId) (state : KVState) (k : KvId) :
    (reg.setState kvId state).get k =
      if k = kvId then (reg.get k).map (withState · state) else reg.get k :=
  get_modify (f := (withState · state)) (fun _ => rfl) k

theorem get_setTier (kvId : KvId) (tier : KVTier) (k : KvId) :
    (reg.setTier kvId tier).get k =
      if k = kvId then (reg.get k).map ({ · with tier := tier }) else reg.get k :=
  get_modify (f := ({ · with tier := tier })) (fun _ => rfl) k

theorem mem_listIds {rank : KvId → Nat} {reg : KVRegistry} {k : KvId} :
    k ∈ reg.listIds rank ↔ (reg.get k).isSome := by
  unfold listIds
  rw [List.mem_insertionSort]
  exact Dict.mem_keys_iff

theorem mem_allRecords {rank : KvId → Nat} {reg : KVRegistry} {rec : KVRegistryRecord} :
    rec ∈ reg.allRecords rank ↔ reg.get rec.kvId = some rec := by
  unfold allRecords
  rw [List.mem_filterMap]
  constructor
  · rintro ⟨k, -, hk⟩
    rw [kvId_of_get hk, hk]
  · intro h
    exact ⟨rec.kvId, mem_listIds.mpr (by rw [h]; rfl), h⟩

end KVRegistry

-- ------ Reference counts

structure RefEntry where
  count : Nat := 0
  owners : List Name := []
  exclusiveOwner : Option Name := none
  deriving DecidableEq, Repr

/-- `ReferenceCounter._entries`. -/
abbrev ReferenceCounter := Dict KvId RefEntry

namespace ReferenceCounter

/-- `get(kv_id)`. -/
def count (rc : ReferenceCounter) (kvId : KvId) : Nat :=
  match rc.get? kvId with
  | none => 0
  | some ent => ent.count

/-- `increment(kv_id, owner, exclusive=...)`. The conflict between two
exclusive owners cannot arise: only a new id is taken exclusively. -/
def increment (rc : ReferenceCounter) (kvId : KvId) (owner : Name) (exclusive : Bool) :
    ReferenceCounter :=
  let ent := (rc.get? kvId).getD {}
  rc.set kvId
    { count := ent.count + 1
      owners := if owner = .empty ∨ owner ∈ ent.owners then ent.owners else ent.owners ++ [owner]
      exclusiveOwner :=
        if exclusive then some (owner.orElse ((ent.exclusiveOwner.getD .empty).orElse (.text "owner")))
        else ent.exclusiveOwner }

/-- `decrement(kv_id, owner)`: floored at zero, whoever calls. -/
def decrement (rc : ReferenceCounter) (kvId : KvId) (owner : Name) : ReferenceCounter :=
  match rc.get? kvId with
  | none => rc
  | some ent =>
    rc.set kvId
      { count := ent.count - 1
        owners := if owner = .empty then ent.owners else ent.owners.filter (· ≠ owner)
        exclusiveOwner := if ent.count - 1 = 0 then none else ent.exclusiveOwner }

def releaseAll (rc : ReferenceCounter) (kvId : KvId) : ReferenceCounter := rc.erase kvId

/-- `zombies(known_ids)`: counted ids the registry does not know. -/
def zombies (rc : ReferenceCounter) (known : List KvId) : List KvId :=
  rc.keys.filter (· ∉ known)

def cleanupZero (rc : ReferenceCounter) : ReferenceCounter :=
  (rc.keys.filter fun k => count rc k = 0).foldl Dict.erase rc

@[simp] theorem count_empty (k : KvId) : count Dict.empty k = 0 := rfl

variable (rc : ReferenceCounter)

theorem count_increment (kvId : KvId) (owner : Name) (exclusive : Bool) (k : KvId) :
    count (increment rc kvId owner exclusive) k =
      if k = kvId then count rc k + 1 else count rc k := by
  unfold count increment
  rw [Dict.get?_set]
  by_cases hk : k = kvId
  · subst hk
    cases h : rc.get? k <;> simp
  · simp [hk]

theorem count_decrement (kvId : KvId) (owner : Name) (k : KvId) :
    count (decrement rc kvId owner) k = if k = kvId then count rc k - 1 else count rc k := by
  unfold decrement
  cases h : rc.get? kvId with
  | none =>
    dsimp only
    split
    · next hk => simp [count, hk, h]
    · rfl
  | some ent =>
    unfold count
    rw [Dict.get?_set]
    by_cases hk : k = kvId
    · subst hk
      simp [h]
    · simp [hk]

theorem count_releaseAll (kvId k : KvId) :
    count (releaseAll rc kvId) k = if k = kvId then 0 else count rc k := by
  unfold count releaseAll
  rw [Dict.get?_erase]
  by_cases hk : k = kvId
  · simp [hk]
  · simp [hk]

theorem count_foldl_erase (ids : List KvId) (rc : ReferenceCounter) (k : KvId) :
    count (ids.foldl Dict.erase rc) k = if k ∈ ids then 0 else count rc k := by
  induction ids generalizing rc with
  | nil => simp
  | cons z ids ih =>
    rw [List.foldl_cons, ih]
    have hz := count_releaseAll rc z k
    unfold releaseAll at hz
    rw [hz]
    by_cases hk : k = z
    · simp [hk]
    · simp [hk]

theorem count_cleanupZero (k : KvId) :
    count (cleanupZero rc) k = count rc k := by
  unfold cleanupZero
  rw [count_foldl_erase]
  split
  · next hk =>
    have := (List.mem_filter.mp hk).2
    simp only [decide_eq_true_eq] at this
    exact this.symm
  · rfl

end ReferenceCounter

-- ------ Lifecycle states

/-- `LifecycleManager._states`. -/
abbrev LifecycleManager := Dict KvId KVState

namespace LifecycleManager

/-- `transition(kv_id, to)`: refused unless `_TRANSITIONS` allows it. -/
def transition (lc : LifecycleManager) (kvId : KvId) (target : KVState) : Option LifecycleManager :=
  match lc.get? kvId with
  | none => none
  | some cur => if target ∈ transitions cur then some (lc.set kvId target) else none

/-- `try_transition(kv_id, to)`: a refused transition is ignored. -/
def tryTransition (lc : LifecycleManager) (kvId : KvId) (target : KVState) : LifecycleManager :=
  (transition lc kvId target).getD lc

theorem get?_tryTransition_ne (lc : LifecycleManager) {kvId k : KvId} (target : KVState)
    (h : k ≠ kvId) : (tryTransition lc kvId target).get? k = lc.get? k := by
  unfold tryTransition transition
  cases lc.get? kvId with
  | none => rfl
  | some cur =>
    dsimp only
    split
    · exact Dict.get?_set_ne _ _ h
    · rfl

theorem get?_tryTransition_self {lc : LifecycleManager} {kvId : KvId} {cur : KVState}
    (h : lc.get? kvId = some cur) (target : KVState) :
    (tryTransition lc kvId target).get? kvId = some (if target ∈ transitions cur then target else cur) := by
  unfold tryTransition transition
  rw [h]
  dsimp only
  split
  · exact Dict.get?_set_self _ _ _
  · exact h

end LifecycleManager

-- ------ Handles

structure SessionBinding where
  sessionId : Name
  kvId : KvId
  agentId : Name
  identity : KVIdentity
  backendId : String
  createdAt : Time
  deriving DecidableEq, Repr

structure HandleRegistry where
  bySession : Dict Name KvId := Dict.empty
  byKv : Dict KvId SessionBinding := Dict.empty

namespace HandleRegistry

/-- `bind(...)`: a second binding of a session replaces the first. -/
def bind (reg : HandleRegistry) (kvId : KvId) (sessionId agentId : Name) (identity : KVIdentity)
    (backendId : String) (createdAt : Time) : HandleRegistry where
  bySession := if sessionId = .empty then reg.bySession else reg.bySession.set sessionId kvId
  byKv := reg.byKv.set kvId
    { sessionId := sessionId.orElse (.kv kvId), kvId, agentId, identity, backendId, createdAt }

def resolveSession (reg : HandleRegistry) (sessionId : Name) : Option KvId :=
  reg.bySession.get? sessionId

def get (reg : HandleRegistry) (kvId : KvId) : Option SessionBinding := reg.byKv.get? kvId

def unbind (reg : HandleRegistry) (kvId : KvId) : HandleRegistry where
  bySession :=
    match reg.byKv.get? kvId with
    | none => reg.bySession
    | some binding =>
      if reg.bySession.get? binding.sessionId = some kvId then
        reg.bySession.erase binding.sessionId
      else reg.bySession
  byKv := reg.byKv.erase kvId

end HandleRegistry

-- ------ Deduplication

structure DedupEntry where
  dedupKey : String
  kvId : KvId
  contentHash : String
  identityFp : String
  reuseCount : Nat := 0
  collisions : Nat := 0
  deriving DecidableEq, Repr

structure DedupStats where
  lookups : Nat := 0
  hits : Nat := 0
  misses : Nat := 0
  inserts : Nat := 0
  collisions : Nat := 0
  deriving DecidableEq, Repr

structure DeduplicationEngine where
  byKey : Dict String DedupEntry := Dict.empty
  contentToKey : Dict String String := Dict.empty
  stats : DedupStats := {}

namespace DeduplicationEngine

def makeKey (h : Hasher) (identity : KVIdentity) (promptPrefix : Bytes) (contentHash : String) :
    String :=
  let identHash := h.hashIdentity identity promptPrefix
  if contentHash = "" then identHash else identHash ++ ":" ++ contentHash

/-- `lookup(...)`: the entry as it is after the hit was counted. -/
def lookup (h : Hasher) (eng : DeduplicationEngine) (identity : KVIdentity)
    (promptPrefix : Bytes) (contentHash : String) : DeduplicationEngine × Option DedupEntry :=
  let key := makeKey h identity promptPrefix contentHash
  let stats := { eng.stats with lookups := eng.stats.lookups + 1 }
  match eng.byKey.get? key with
  | none => ({ eng with stats := { stats with misses := stats.misses + 1 } }, none)
  | some ent =>
    let ent := { ent with reuseCount := ent.reuseCount + 1 }
    ({ eng with byKey := eng.byKey.set key ent, stats := { stats with hits := stats.hits + 1 } },
      some ent)

/-- `register(kv_id, ...)`. An entry already filed under the key is returned as
it is, whatever id it names; two different content digests under one key are a
collision. -/
def register (h : Hasher) (eng : DeduplicationEngine) (kvId : KvId) (identity : KVIdentity)
    (promptPrefix : Bytes) (contentHash : String) :
    DeduplicationEngine × Except MAKSError DedupEntry :=
  let key := makeKey h identity promptPrefix contentHash
  match eng.byKey.get? key with
  | some ent =>
    if ent.contentHash ≠ "" ∧ contentHash ≠ "" ∧ ent.contentHash ≠ contentHash then
      ({ eng with
          byKey := eng.byKey.set key { ent with collisions := ent.collisions + 1 }
          stats := { eng.stats with collisions := eng.stats.collisions + 1 } },
        .error (.dedupCollision key))
    else
      let ent := { ent with reuseCount := ent.reuseCount + 1 }
      ({ eng with
          byKey := eng.byKey.set key ent
          stats := { eng.stats with hits := eng.stats.hits + 1 } }, .ok ent)
  | none =>
    let other := contentHash ≠ "" ∧ (eng.contentToKey.get? contentHash).any (· ≠ key)
    let ent : DedupEntry :=
      { dedupKey := key, kvId, contentHash, identityFp := identity.fingerprint }
    ({ byKey := eng.byKey.set key ent
       contentToKey :=
         if contentHash = "" then eng.contentToKey else eng.contentToKey.set contentHash key
       stats := { eng.stats with
         inserts := eng.stats.inserts + 1
         collisions := if other then eng.stats.collisions + 1 else eng.stats.collisions } },
      .ok ent)

def forget (eng : DeduplicationEngine) (dedupKey : String) : DeduplicationEngine :=
  match eng.byKey.get? dedupKey with
  | none => eng
  | some ent =>
    { eng with
      byKey := eng.byKey.erase dedupKey
      contentToKey :=
        if ent.contentHash = "" then eng.contentToKey else eng.contentToKey.erase ent.contentHash }

end DeduplicationEngine

end Neuroswarm.Maks
