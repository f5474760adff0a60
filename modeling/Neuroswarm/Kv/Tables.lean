import Neuroswarm.Kv.Types

/-!
# KV memory runtime — logical and physical block tables

`runtime/kv/block/tables.py` and the reference counter of
`runtime/kv/utils/locks.py`. The physical table keeps three dictionaries; the
count of a block stands both in its record and in its counter, and a record
stands under its own id. Both facts are fields of `PhysicalBlockTable`, so a
table in which they disagree cannot be built.

Each operation comes with what it does to `get`, `getByHash` and `refs`.
-/

namespace Neuroswarm.Kv

-- ------ Logical blocks

/-- Per-session mapping of logical indices to physical block ids. -/
structure LogicalBlockTable where
  sessionId : String
  map : Dict Nat StableId := Dict.empty

namespace LogicalBlockTable

/-- `map(logical_index, physical_id)`. -/
def mapIndex (t : LogicalBlockTable) (idx : Nat) (pid : StableId) : LogicalBlockTable :=
  { t with map := t.map.set idx pid }

def resolve (t : LogicalBlockTable) (idx : Nat) : Option StableId := t.map.get? idx

def len (t : LogicalBlockTable) : Nat := t.map.size

end LogicalBlockTable

-- ------ Reference counters

/-- The counter of a `RefCountedLock`. -/
structure RefCountedLock where
  count : Nat
  deriving DecidableEq, Repr

namespace RefCountedLock

def acquireRef (r : RefCountedLock) : RefCountedLock := ⟨r.count + 1⟩

/-- A counter at zero stays there. -/
def releaseRef (r : RefCountedLock) : RefCountedLock := ⟨r.count - 1⟩

end RefCountedLock

-- ------ Physical blocks

structure PhysicalBlockTable where
  blocks : Dict StableId PhysicalBlockRecord
  byHash : Dict String StableId
  refcounts : Dict StableId RefCountedLock
  /-- The counter of a block and the count in its record agree. -/
  synced : ∀ pid, refcounts.get? pid = (blocks.get? pid).map fun r => ⟨r.refcount⟩
  /-- A record stands under its own id. -/
  keyed : ∀ pid r, blocks.get? pid = some r → r.physicalId = pid

namespace PhysicalBlockTable

def empty : PhysicalBlockTable where
  blocks := Dict.empty
  byHash := Dict.empty
  refcounts := Dict.empty
  synced := by simp
  keyed := by simp

def get (t : PhysicalBlockTable) (pid : StableId) : Option PhysicalBlockRecord :=
  t.blocks.get? pid

def getByHash (t : PhysicalBlockTable) (h : String) : Option PhysicalBlockRecord :=
  match t.byHash.get? h with
  | some pid => t.blocks.get? pid
  | none => none

/-- The references counted for an id; none when it is not registered. -/
def refs (t : PhysicalBlockTable) (pid : StableId) : Nat :=
  ((t.get pid).map PhysicalBlockRecord.refcount).getD 0

/-- Overwrite the record of `rec.physicalId` and its counter. -/
def put (t : PhysicalBlockTable) (rec : PhysicalBlockRecord) : PhysicalBlockTable where
  blocks := t.blocks.set rec.physicalId rec
  byHash := t.byHash
  refcounts := t.refcounts.set rec.physicalId ⟨rec.refcount⟩
  synced pid := by
    rw [Dict.get?_set, Dict.get?_set, t.synced]
    split <;> rfl
  keyed pid r h := by
    rw [Dict.get?_set] at h
    split at h
    · next hpid => rw [hpid, ← Option.some.inj h]
    · exact t.keyed pid r h

def insert (t : PhysicalBlockTable) (rec : PhysicalBlockRecord) : PhysicalBlockTable :=
  { t.put rec with byHash := t.byHash.set rec.contentHash rec.physicalId }

/-- Register a record. A live record indexed under the same hash is acquired
and returned in its place. The caller always fills in `physical_id`. -/
def register (t : PhysicalBlockTable) (rec : PhysicalBlockRecord) :
    PhysicalBlockRecord × PhysicalBlockTable :=
  match t.getByHash rec.contentHash with
  | some existing =>
    let existing := { existing with
      refcount := (RefCountedLock.mk existing.refcount).acquireRef.count }
    (existing, t.put existing)
  | none => (rec, t.insert rec)

/-- Take a reference; `none` is the `KeyError` of an unknown id. -/
def acquire (t : PhysicalBlockTable) (pid : StableId) : Option (Nat × PhysicalBlockTable) :=
  match t.get pid with
  | some rec =>
    let count := (RefCountedLock.mk rec.refcount).acquireRef.count
    some (count, t.put { rec with refcount := count })
  | none => none

/-- Forget a block: its record, its counter and the index entry of its hash. -/
def remove (t : PhysicalBlockTable) (rec : PhysicalBlockRecord) : PhysicalBlockTable where
  blocks := t.blocks.erase rec.physicalId
  byHash := t.byHash.erase rec.contentHash
  refcounts := t.refcounts.erase rec.physicalId
  synced pid := by
    rw [Dict.get?_erase, Dict.get?_erase, t.synced]
    split <;> rfl
  keyed pid r h := by
    rw [Dict.get?_erase] at h
    split at h
    · exact absurd h (by simp)
    · exact t.keyed pid r h

/-- Drop a reference; the last one removes the block. An unknown id counts 0. -/
def release (t : PhysicalBlockTable) (pid : StableId) : Nat × PhysicalBlockTable :=
  match t.get pid with
  | none => (0, t)
  | some rec =>
    let count := (RefCountedLock.mk rec.refcount).releaseRef.count
    if count = 0 then (0, t.remove rec)
    else (count, t.put { rec with refcount := count })

/-- `update_tier`; `none` is the `KeyError` of an unknown id. -/
def updateTier (t : PhysicalBlockTable) (pid : StableId) (tier : StorageTier)
    (providerKey : StableId) : Option PhysicalBlockTable :=
  (t.get pid).map fun rec => t.put { rec with tier := tier, providerKey := providerKey }

/-- `touch`; `none` is the `KeyError` of an unknown id. -/
def touch (t : PhysicalBlockTable) (pid : StableId) (now : Time) : Option PhysicalBlockTable :=
  (t.get pid).map fun rec =>
    t.put { rec with lastAccess := now, accessCount := rec.accessCount + 1 }

def allRecords (t : PhysicalBlockTable) : List PhysicalBlockRecord := t.blocks.values

/-- All references counted in the table. -/
def totalRefs (t : PhysicalBlockTable) : Nat := t.blocks.total fun _ rec => rec.refcount

/-! ### Lookups after an operation -/

variable {pid : StableId} {rec : PhysicalBlockRecord}

theorem get_physicalId {t : PhysicalBlockTable} (h : t.get pid = some rec) :
    rec.physicalId = pid :=
  t.keyed pid rec h

@[simp] theorem get_empty (pid : StableId) : empty.get pid = none := rfl

@[simp] theorem getByHash_empty (h : String) : empty.getByHash h = none := rfl

theorem acquire_of_get {t : PhysicalBlockTable} (h : t.get pid = some rec) :
    t.acquire pid = some (rec.refcount + 1, t.put { rec with refcount := rec.refcount + 1 }) := by
  rw [acquire, h]
  rfl

theorem release_cases {t : PhysicalBlockTable} (h : t.get pid = some rec) (hPos : 0 < rec.refcount)
    :
    (rec.refcount = 1 ∧ t.release pid = (0, t.remove rec)) ∨
    (1 < rec.refcount ∧ t.release pid =
      (rec.refcount - 1, t.put { rec with refcount := rec.refcount - 1 })) := by
  rcases Nat.eq_or_lt_of_le hPos with hOne | hMore
  · refine Or.inl ⟨hOne.symm, ?_⟩
    simp [release, h, ← hOne, RefCountedLock.releaseRef]
  · refine Or.inr ⟨hMore, ?_⟩
    have hNe : rec.refcount - 1 ≠ 0 := by omega
    simp [release, h, hNe, RefCountedLock.releaseRef]

theorem register_of_none {t : PhysicalBlockTable} (h : t.getByHash rec.contentHash = none) :
    t.register rec = (rec, t.insert rec) := by
  rw [register, h]

theorem get_put (t : PhysicalBlockTable) (rec : PhysicalBlockRecord) (pid : StableId) :
    (t.put rec).get pid = if pid = rec.physicalId then some rec else t.get pid :=
  Dict.get?_set ..

theorem get_insert (t : PhysicalBlockTable) (rec : PhysicalBlockRecord) (pid : StableId) :
    (t.insert rec).get pid = if pid = rec.physicalId then some rec else t.get pid :=
  Dict.get?_set ..

theorem get_remove (t : PhysicalBlockTable) (rec : PhysicalBlockRecord) (pid : StableId) :
    (t.remove rec).get pid = if pid = rec.physicalId then none else t.get pid :=
  Dict.get?_erase ..

variable {r' : PhysicalBlockRecord}

theorem put_put {t : PhysicalBlockTable} {r : PhysicalBlockRecord}
    (h : r'.physicalId = r.physicalId) : (t.put r).put r' = t.put r' := by
  unfold put
  simp only [h, Dict.set_set]

theorem insert_put {t : PhysicalBlockTable} {r : PhysicalBlockRecord}
    (h : r'.physicalId = r.physicalId) (hHash : r'.contentHash = r.contentHash) :
    (t.insert r).put r' = t.insert r' := by
  unfold insert put
  simp only [h, hHash, Dict.set_set]

theorem refs_of_get {t : PhysicalBlockTable} (h : t.get pid = some rec) :
    t.refs pid = rec.refcount := by
  rw [refs, h]
  rfl

theorem refs_of_none {t : PhysicalBlockTable} (h : t.get pid = none) :
    t.refs pid = 0 := by
  rw [refs, h]
  rfl

theorem exists_of_refs_pos {t : PhysicalBlockTable} (h : 0 < t.refs pid) :
    ∃ rec, t.get pid = some rec := by
  cases hg : t.get pid with
  | none => rw [refs_of_none hg] at h; omega
  | some rec => exact ⟨rec, rfl⟩

theorem refs_put (t : PhysicalBlockTable) (rec : PhysicalBlockRecord) (pid : StableId) :
    (t.put rec).refs pid = if pid = rec.physicalId then rec.refcount else t.refs pid := by
  unfold refs
  rw [get_put]
  split <;> rfl

theorem refs_put_of_refcount {t : PhysicalBlockTable} {r : PhysicalBlockRecord}
    (h : t.get pid = some r) (hId : r'.physicalId = r.physicalId) (hRef : r'.refcount = r.refcount)
    (q : StableId) : (t.put r').refs q = t.refs q := by
  rw [refs_put, hId, get_physicalId h]
  split
  · next hq => rw [hRef, hq, refs_of_get h]
  · rfl

theorem refs_insert (t : PhysicalBlockTable) (rec : PhysicalBlockRecord) (pid : StableId) :
    (t.insert rec).refs pid = if pid = rec.physicalId then rec.refcount else t.refs pid := by
  unfold refs
  rw [get_insert]
  split <;> rfl

theorem refs_remove (t : PhysicalBlockTable) (rec : PhysicalBlockRecord) (pid : StableId) :
    (t.remove rec).refs pid = if pid = rec.physicalId then 0 else t.refs pid := by
  unfold refs
  rw [get_remove]
  split <;> rfl

theorem totalRefs_put {t : PhysicalBlockTable} {r : PhysicalBlockRecord}
    (h : t.get r'.physicalId = some r) :
    (t.put r').totalRefs + r.refcount = t.totalRefs + r'.refcount :=
  Dict.total_set_of_some h r' fun _ rec => rec.refcount

theorem totalRefs_insert {t : PhysicalBlockTable} {r : PhysicalBlockRecord}
    (h : t.get r.physicalId = none) :
    (t.insert r).totalRefs = t.totalRefs + r.refcount :=
  Dict.total_set_of_none h r fun _ rec => rec.refcount

theorem getByHash_eq_some {t : PhysicalBlockTable} {h : String} :
    t.getByHash h = some rec ↔
      t.byHash.get? h = some rec.physicalId ∧ t.get rec.physicalId = some rec := by
  unfold getByHash get
  constructor
  · intro hr
    split at hr
    · next pid hpid =>
      have hid := t.keyed pid rec hr
      exact ⟨hid ▸ hpid, hid ▸ hr⟩
    · exact absurd hr (by simp)
  · rintro ⟨hh, hb⟩
    rw [hh]
    exact hb

/-! ### The hash index -/

theorem getByHash_put_eq_none {t : PhysicalBlockTable} {r : PhysicalBlockRecord}
    (h : t.get r'.physicalId = some r) (hash : String) :
    (t.put r').getByHash hash = none ↔ t.getByHash hash = none := by
  unfold getByHash
  show (match t.byHash.get? hash with
    | some pid => (t.put r').get pid
    | none => none) = none ↔ _
  cases t.byHash.get? hash with
  | none => exact Iff.rfl
  | some pid =>
    show (t.put r').get pid = none ↔ t.get pid = none
    rw [get_put]
    split
    · next hpid => simp [hpid, h]
    · exact Iff.rfl

/-- A hash leads to `p` exactly when the record of `p` has that hash. -/
def HashesAgree (t : PhysicalBlockTable) : Prop :=
  ∀ h p, t.byHash.get? h = some p ↔ ∃ r, t.get p = some r ∧ r.contentHash = h

theorem hashesAgree_empty : HashesAgree empty := by
  intro h p
  simp [empty, get]

namespace HashesAgree

variable {t : PhysicalBlockTable} {p q : StableId} {r s : PhysicalBlockRecord}

theorem unique (h : t.HashesAgree) (hp : t.get p = some r) (hq : t.get q = some s)
    (hEq : r.contentHash = s.contentHash) : p = q := by
  have hpIdx := (h r.contentHash p).mpr ⟨r, hp, rfl⟩
  have hqIdx := (h r.contentHash q).mpr ⟨s, hq, hEq.symm⟩
  exact Option.some.inj (hpIdx.symm.trans hqIdx)

theorem getByHash_eq_some_iff (h : t.HashesAgree) {hash : String} :
    t.getByHash hash = some r ↔ t.get r.physicalId = some r ∧ r.contentHash = hash := by
  rw [PhysicalBlockTable.getByHash_eq_some]
  constructor
  · rintro ⟨hIdx, hr⟩
    obtain ⟨r', hr', hHash⟩ := (h _ _).mp hIdx
    obtain rfl := Option.some.inj (hr.symm.trans hr')
    exact ⟨hr, hHash⟩
  · rintro ⟨hr, hHash⟩
    exact ⟨(h _ _).mpr ⟨r, hr, hHash⟩, hr⟩

theorem getByHash_of_get (h : t.HashesAgree) (hp : t.get p = some r) :
    t.getByHash r.contentHash = some r :=
  h.getByHash_eq_some_iff.mpr ⟨(get_physicalId hp).symm ▸ hp, rfl⟩

theorem not_live_of_getByHash_none (h : t.HashesAgree) {hash : String}
    (hNone : t.getByHash hash = none) (hp : t.get p = some r) : r.contentHash ≠ hash := by
  rintro rfl
  have hSome := h.getByHash_of_get hp
  rw [hNone] at hSome
  exact absurd hSome (by simp)

theorem put (h : t.HashesAgree) (hp : t.get p = some r) (hId : s.physicalId = r.physicalId)
    (hHash : s.contentHash = r.contentHash) : (t.put s).HashesAgree := by
  have hpid : s.physicalId = p := by rw [hId, get_physicalId hp]
  intro hash q
  show t.byHash.get? hash = some q ↔ _
  rw [h hash q, get_put, hpid]
  by_cases hq : q = p
  · subst hq
    simp [hp, hHash]
  · rw [if_neg hq]

theorem insert (h : t.HashesAgree) (hNone : t.get r.physicalId = none)
    (hMiss : t.getByHash r.contentHash = none) : (t.insert r).HashesAgree := by
  intro hash q
  show (t.byHash.set r.contentHash r.physicalId).get? hash = some q ↔ _
  rw [Dict.get?_set, get_insert]
  by_cases hHash : hash = r.contentHash
  · rw [if_pos hHash]
    constructor
    · intro hEq
      obtain rfl := Option.some.inj hEq
      exact ⟨r, if_pos rfl, hHash.symm⟩
    · rintro ⟨s, hs, hsHash⟩
      split at hs
      · next hq => rw [hq]
      · exact absurd (hsHash.trans hHash) (h.not_live_of_getByHash_none hMiss hs)
  · rw [if_neg hHash, h hash q]
    by_cases hq : q = r.physicalId
    · subst hq
      simp [hNone, Ne.symm hHash]
    · rw [if_neg hq]

theorem getByHash_insert_eq_none (h : t.HashesAgree) (hNone : t.get r.physicalId = none)
    (hash : String) :
    (t.insert r).getByHash hash = none ↔ t.getByHash hash = none ∧ hash ≠ r.contentHash := by
  unfold getByHash
  show (match (t.byHash.set r.contentHash r.physicalId).get? hash with
    | some pid => (t.insert r).get pid
    | none => none) = none ↔ _
  rw [Dict.get?_set]
  by_cases hHash : hash = r.contentHash
  · simp [hHash, get_insert]
  · rw [if_neg hHash]
    cases hIdx : t.byHash.get? hash with
    | none => simp [hHash]
    | some pid =>
      obtain ⟨s, hs, -⟩ := (h hash pid).mp hIdx
      have hne : pid ≠ r.physicalId := by
        rintro rfl
        rw [hNone] at hs
        exact absurd hs (by simp)
      show (t.insert r).get pid = none ↔ t.get pid = none ∧ _
      rw [get_insert, if_neg hne, hs]
      simp

theorem remove (h : t.HashesAgree) (hp : t.get p = some r) : (t.remove r).HashesAgree := by
  have hId := get_physicalId hp
  intro hash q
  show (t.byHash.erase r.contentHash).get? hash = some q ↔ _
  rw [Dict.get?_erase, get_remove, hId]
  by_cases hHash : hash = r.contentHash
  · rw [if_pos hHash]
    constructor
    · intro hEq
      exact absurd hEq (by simp)
    · rintro ⟨s, hs, hsHash⟩
      split at hs
      · exact absurd hs (by simp)
      · next hne => exact absurd (h.unique hs hp (hsHash.trans hHash)) hne
  · rw [if_neg hHash, h hash q]
    by_cases hq : q = p
    · subst hq
      simp [hp, Ne.symm hHash]
    · rw [if_neg hq]

end HashesAgree

end PhysicalBlockTable

end Neuroswarm.Kv

/-!
## Prefix cache

`runtime/kv/manager/prefix.py`: an LRU-ordered dictionary from chained block
hashes to physical ids. A match walks the payloads, feeding each block's hash
into the next, and stops at the first hash that is not cached.
-/

namespace Neuroswarm.Kv

structure PrefixCacheEntry where
  blockHash : String
  physicalId : StableId
  tokenEnd : Int
  parentHash : String := ""
  deriving DecidableEq, Repr

structure PrefixMatchResult where
  matchedBlocks : List StableId := []
  matchedHashes : List String := []
  matchedTokens : Int := 0
  hit : Bool := false
  deriving DecidableEq, Repr

/-- Block-hash prefix cache. The capacity is never zero. -/
structure PrefixCacheEngine where
  capacity : Nat
  entries : Dict String PrefixCacheEntry
  hits : Nat
  misses : Nat
  capacity_pos : 0 < capacity

namespace PrefixCacheEngine

/-- `PrefixCacheEngine(capacity)`. -/
def new (capacity : Nat) : PrefixCacheEngine where
  capacity := max 1 capacity
  entries := Dict.empty
  hits := 0
  misses := 0
  capacity_pos := by omega

/-- Cache a block under `H(prefix_hash || payload)`. A hash that is already
cached keeps its entry and only becomes the most recent. -/
def insert (sha : Sha256) (c : PrefixCacheEngine) (prefixHash : String) (blockPayload : Bytes)
    (physicalId : StableId) (tokenEnd : Int) : String × PrefixCacheEngine :=
  let blockHash := prefixBlockHash sha prefixHash blockPayload
  if c.entries.contains blockHash then
    (blockHash, { c with entries := c.entries.moveToEnd blockHash })
  else
    let entry : PrefixCacheEntry :=
      { blockHash, physicalId, tokenEnd, parentHash := prefixHash }
    let entries := (c.entries.set blockHash entry).moveToEnd blockHash
    (blockHash, { c with entries := entries.trim c.capacity })

/-- The loop of `longest_prefix_match`, with the hash of the block before. -/
def matchLoop (sha : Sha256) : String → List Bytes → Dict String PrefixCacheEntry →
    PrefixMatchResult → PrefixMatchResult × Dict String PrefixCacheEntry
  | _, [], entries, result => (result, entries)
  | running, payload :: rest, entries, result =>
    let h := prefixBlockHash sha running payload
    match entries.get? h with
    | none => (result, entries)
    | some entry =>
      matchLoop sha h rest (entries.moveToEnd h)
        { result with
          matchedBlocks := result.matchedBlocks ++ [entry.physicalId]
          matchedHashes := result.matchedHashes ++ [h]
          matchedTokens := entry.tokenEnd }

def longestPrefixMatch (sha : Sha256) (c : PrefixCacheEngine) (blockPayloads : List Bytes) :
    PrefixMatchResult × PrefixCacheEngine :=
  let (result, entries) := matchLoop sha "" blockPayloads c.entries {}
  if result.matchedBlocks.isEmpty then
    (result, { c with entries := entries, misses := c.misses + 1 })
  else
    ({ result with hit := true }, { c with entries := entries, hits := c.hits + 1 })

def evict (c : PrefixCacheEngine) (blockHash : String) : PrefixCacheEngine :=
  { c with entries := c.entries.erase blockHash }

theorem get?_insert_of_some {sha : Sha256} {c : PrefixCacheEngine} {prefixHash : String}
    {payload : Bytes} {pid : StableId} {tokenEnd : Int} {h : String} {e : PrefixCacheEntry}
    (he : (c.insert sha prefixHash payload pid tokenEnd).2.entries.get? h = some e) :
    c.entries.get? h = some e ∨
      (h = prefixBlockHash sha prefixHash payload ∧ e.physicalId = pid) := by
  unfold insert at he
  dsimp only at he
  split at he
  · rw [Dict.get?_moveToEnd] at he
    exact Or.inl he
  · have hset := Dict.get?_trim_of_some he
    rw [Dict.get?_moveToEnd, Dict.get?_set] at hset
    split at hset
    · next hh => exact Or.inr ⟨hh, by rw [← Option.some.inj hset]⟩
    · exact Or.inl hset

theorem get?_matchLoop (sha : Sha256) (running : String) (payloads : List Bytes)
    (entries : Dict String PrefixCacheEntry) (result : PrefixMatchResult) (h : String) :
    (matchLoop sha running payloads entries result).2.get? h = entries.get? h := by
  induction payloads generalizing running entries result with
  | nil => rfl
  | cons payload rest ih =>
    rw [matchLoop]
    split
    · rfl
    · rw [ih, Dict.get?_moveToEnd]

theorem get?_longestPrefixMatch (sha : Sha256) (c : PrefixCacheEngine) (payloads : List Bytes)
    (h : String) : (c.longestPrefixMatch sha payloads).2.entries.get? h = c.entries.get? h := by
  unfold longestPrefixMatch
  dsimp only
  split <;> exact get?_matchLoop ..

end PrefixCacheEngine

end Neuroswarm.Kv
