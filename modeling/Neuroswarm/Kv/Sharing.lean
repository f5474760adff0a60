import Neuroswarm.Kv.Tables
import Mathlib.Data.Finset.Basic

/-!
# KV memory runtime — sharing backends

`runtime/kv/sharing/`: the shared-memory, memory-mapped and LMDB backends. Each
keeps, for a key, a payload, a reference count that starts at 1, and the set of
consumers the key was shared with. A key is a physical id, which the file
backend uses as a file name unchanged.

`SharingBackend.store_share`, `SharingBackend.release_shared` and the two frame
lemmas say of all three what a share and a release do to `load` and
`reference_count`.
-/

namespace Neuroswarm.Kv

/-- `f"share:{key}:{consumer_id}"`. -/
structure ShareToken where
  key : StableId
  consumerId : String
  deriving DecidableEq, Repr

-- ------ Memory-mapped files

/-- `MemoryMappedSharingBackend`: one file for each key. -/
structure MemoryMappedSharingBackend where
  files : Dict StableId Bytes := Dict.empty
  refs : Dict StableId RefCountedLock := Dict.empty
  consumers : Dict StableId (Finset String) := Dict.empty

namespace MemoryMappedSharingBackend

def store (b : MemoryMappedSharingBackend) (key : StableId) (data : Bytes) :
    MemoryMappedSharingBackend where
  files := b.files.set key data
  refs := b.refs.set key ⟨1⟩
  consumers := b.consumers.set key ∅

def load (b : MemoryMappedSharingBackend) (key : StableId) : Except KvError Bytes :=
  match b.files.get? key with
  | some data => .ok data
  | none => .error (.missingPayload key)

/-- `consumers.setdefault(key, set()).add(consumer_id)`. -/
def addConsumer (consumers : Dict StableId (Finset String)) (key : StableId)
    (consumerId : String) : Dict StableId (Finset String) :=
  consumers.set key (insert consumerId ((consumers.get? key).getD ∅))

/-- A key without a count whose file is there starts counting at 1. -/
def share (b : MemoryMappedSharingBackend) (key : StableId) (consumerId : String) :
    Except KvError (ShareToken × MemoryMappedSharingBackend) :=
  match b.refs.get? key with
  | some rc =>
    .ok (⟨key, consumerId⟩, { b with
      refs := b.refs.set key rc.acquireRef
      consumers := addConsumer b.consumers key consumerId })
  | none =>
    if b.files.contains key then
      .ok (⟨key, consumerId⟩, { b with
        refs := b.refs.set key (RefCountedLock.mk 1).acquireRef
        consumers := addConsumer b.consumers key consumerId })
    else .error (.missingPayload key)

/-- The count drops whether or not the consumer is registered. -/
def release (b : MemoryMappedSharingBackend) (key : StableId) (consumerId : String) :
    MemoryMappedSharingBackend :=
  match b.refs.get? key with
  | none => b
  | some rc =>
    let consumers := b.consumers.modify key fun s => s.erase consumerId
    if rc.releaseRef.count = 0 then
      { files := b.files.erase key, refs := b.refs.erase key, consumers := consumers.erase key }
    else { b with refs := b.refs.set key rc.releaseRef, consumers }

def referenceCount (b : MemoryMappedSharingBackend) (key : StableId) : Nat :=
  ((b.refs.get? key).map RefCountedLock.count).getD 0

end MemoryMappedSharingBackend

-- ------ Shared memory

/-- A `_meta` entry: the size of the payload, and its segment when one could be
created. -/
structure ShmMeta where
  size : Nat
  shm : Option Bytes

/-- `SharedMemoryBackend`: shared-memory segments, or process RAM. -/
structure SharedMemoryBackend where
  metas : Dict StableId ShmMeta := Dict.empty
  fallback : Dict StableId Bytes := Dict.empty
  refs : Dict StableId RefCountedLock := Dict.empty
  consumers : Dict StableId (Finset String) := Dict.empty

namespace SharedMemoryBackend

def cleanupKey (b : SharedMemoryBackend) (key : StableId) : SharedMemoryBackend where
  metas := b.metas.erase key
  fallback := b.fallback.erase key
  refs := b.refs.erase key
  consumers := b.consumers.erase key

/-- `created` tells whether the segment could be created; it has at least one byte. -/
def store (b : SharedMemoryBackend) (key : StableId) (data : Bytes) (created : Bool) :
    SharedMemoryBackend :=
  let b := b.cleanupKey key
  let b :=
    if created then
      let buf := data ++ List.replicate (max 1 data.length - data.length) 0
      { b with metas := b.metas.set key ⟨data.length, some buf⟩ }
    else
      { b with
        fallback := b.fallback.set key data
        metas := b.metas.set key ⟨data.length, none⟩ }
  { b with refs := b.refs.set key ⟨1⟩, consumers := b.consumers.set key ∅ }

def load (b : SharedMemoryBackend) (key : StableId) : Except KvError Bytes :=
  match b.metas.get? key with
  | none => .error (.missingPayload key)
  | some entry =>
    match entry.shm with
    | some buf => .ok (buf.take entry.size)
    | none =>
      match b.fallback.get? key with
      | some data => .ok data
      | none => .error (.missingPayload key)

def share (b : SharedMemoryBackend) (key : StableId) (consumerId : String) :
    Except KvError (ShareToken × SharedMemoryBackend) :=
  match b.refs.get? key with
  | none => .error (.missingPayload key)
  | some rc =>
    .ok (⟨key, consumerId⟩, { b with
      refs := b.refs.set key rc.acquireRef
      consumers := MemoryMappedSharingBackend.addConsumer b.consumers key consumerId })

def release (b : SharedMemoryBackend) (key : StableId) (consumerId : String) :
    SharedMemoryBackend :=
  match b.refs.get? key with
  | none => b
  | some rc =>
    let b := { b with
      refs := b.refs.set key rc.releaseRef
      consumers := b.consumers.modify key fun s => s.erase consumerId }
    if rc.releaseRef.count = 0 then b.cleanupKey key else b

def referenceCount (b : SharedMemoryBackend) (key : StableId) : Nat :=
  ((b.refs.get? key).map RefCountedLock.count).getD 0

end SharedMemoryBackend

-- ------ LMDB

/-- The JSON document under `meta:{key}`. -/
structure LmdbMeta where
  refcount : Nat
  consumers : List String

/-- `LMDBSharingBackend`: payloads under `data:{key}`, documents under `meta:{key}`. -/
structure LMDBSharingBackend where
  data : Dict StableId Bytes := Dict.empty
  metas : Dict StableId LmdbMeta := Dict.empty

namespace LMDBSharingBackend

def store (b : LMDBSharingBackend) (key : StableId) (data : Bytes) : LMDBSharingBackend where
  data := b.data.set key data
  metas := b.metas.set key ⟨1, []⟩

def load (b : LMDBSharingBackend) (key : StableId) : Except KvError Bytes :=
  match b.data.get? key with
  | some data => .ok data
  | none => .error (.missingPayload key)

def share (b : LMDBSharingBackend) (key : StableId) (consumerId : String) :
    Except KvError (ShareToken × LMDBSharingBackend) :=
  match b.metas.get? key with
  | none => .error (.missingPayload key)
  | some doc =>
    let consumers :=
      if consumerId ∈ doc.consumers then doc.consumers else doc.consumers ++ [consumerId]
    .ok (⟨key, consumerId⟩,
      { b with metas := b.metas.set key ⟨doc.refcount + 1, consumers⟩ })

def release (b : LMDBSharingBackend) (key : StableId) (consumerId : String) :
    LMDBSharingBackend :=
  match b.metas.get? key with
  | none => b
  | some doc =>
    let consumers := doc.consumers.filter (· ≠ consumerId)
    let refcount := doc.refcount - 1
    if refcount = 0 then { data := b.data.erase key, metas := b.metas.erase key }
    else { b with metas := b.metas.set key ⟨refcount, consumers⟩ }

def referenceCount (b : LMDBSharingBackend) (key : StableId) : Nat :=
  ((b.metas.get? key).map LmdbMeta.refcount).getD 0

end LMDBSharingBackend

-- ------ The backend of a runtime

/-- The backend that `build_sharing_backend` picks. -/
inductive SharingBackend where
  | shm (b : SharedMemoryBackend)
  | mmap (b : MemoryMappedSharingBackend)
  | lmdb (b : LMDBSharingBackend)

namespace SharingBackend

def store (b : SharingBackend) (key : StableId) (data : Bytes) (created : Bool) :
    SharingBackend :=
  match b with
  | .shm b => .shm (b.store key data created)
  | .mmap b => .mmap (b.store key data)
  | .lmdb b => .lmdb (b.store key data)

def load (b : SharingBackend) (key : StableId) : Except KvError Bytes :=
  match b with
  | .shm b => b.load key
  | .mmap b => b.load key
  | .lmdb b => b.load key

def share (b : SharingBackend) (key : StableId) (consumerId : String) :
    Except KvError (ShareToken × SharingBackend) :=
  match b with
  | .shm b => (b.share key consumerId).map fun (token, b) => (token, .shm b)
  | .mmap b => (b.share key consumerId).map fun (token, b) => (token, .mmap b)
  | .lmdb b => (b.share key consumerId).map fun (token, b) => (token, .lmdb b)

def release (b : SharingBackend) (key : StableId) (consumerId : String) : SharingBackend :=
  match b with
  | .shm b => .shm (b.release key consumerId)
  | .mmap b => .mmap (b.release key consumerId)
  | .lmdb b => .lmdb (b.release key consumerId)

def referenceCount (b : SharingBackend) (key : StableId) : Nat :=
  match b with
  | .shm b => b.referenceCount key
  | .mmap b => b.referenceCount key
  | .lmdb b => b.referenceCount key

/-- The two backends agree about a key. -/
def SameAt (b b' : SharingBackend) (key : StableId) : Prop :=
  b'.load key = b.load key ∧ b'.referenceCount key = b.referenceCount key

/-- **Storing and sharing a key.** Whatever was there, the payload is, with two
references; other keys stay as they are. -/
theorem store_share (b : SharingBackend) (key : StableId) (data : Bytes) (created : Bool)
    (consumerId : String) :
    ∃ b', (b.store key data created).share key consumerId = .ok (⟨key, consumerId⟩, b') ∧
      b'.load key = .ok data ∧ b'.referenceCount key = 2 ∧ ∀ q, q ≠ key → b.SameAt b' q := by
  cases b with
  | mmap b =>
    refine ⟨.mmap _, by simp [store, share, MemoryMappedSharingBackend.store,
      MemoryMappedSharingBackend.share, Except.map]; rfl, ?_, ?_, fun q hq => ⟨?_, ?_⟩⟩ <;>
    simp [load, referenceCount, MemoryMappedSharingBackend.load,
      MemoryMappedSharingBackend.referenceCount, RefCountedLock.acquireRef, Dict.get?_set_ne, *]
  | shm b =>
    -- a segment is at least one byte long, `size` cuts the payload out of it
    cases created <;>
    refine ⟨.shm _, by simp [store, share, SharedMemoryBackend.store,
      SharedMemoryBackend.share, Except.map]; rfl, ?_, ?_, fun q hq => ⟨?_, ?_⟩⟩ <;>
    simp [load, referenceCount, SharedMemoryBackend.load, SharedMemoryBackend.cleanupKey,
      SharedMemoryBackend.referenceCount, RefCountedLock.acquireRef, Dict.get?_set_ne,
      Dict.get?_erase_ne, *]
  | lmdb b =>
    refine ⟨.lmdb _, by simp [store, share, LMDBSharingBackend.store,
      LMDBSharingBackend.share, Except.map]; rfl, ?_, ?_, fun q hq => ⟨?_, ?_⟩⟩ <;>
    simp [load, referenceCount, LMDBSharingBackend.load,
      LMDBSharingBackend.referenceCount, Dict.get?_set_ne, *]

/-- **Releasing one of several references** keeps the payload, whoever releases. -/
theorem release_shared {b : SharingBackend} {key : StableId}
    (h : 2 ≤ b.referenceCount key) (consumerId : String) :
    (b.release key consumerId).load key = b.load key ∧
      (b.release key consumerId).referenceCount key + 1 = b.referenceCount key := by
  cases b with
  | mmap b =>
    simp only [referenceCount, MemoryMappedSharingBackend.referenceCount] at h
    cases hRef : b.refs.get? key with
    | none => simp [hRef] at h
    | some rc =>
      have hCount : 2 ≤ rc.count := by simpa [hRef] using h
      have hNe : rc.count - 1 ≠ 0 := by omega
      simp [release, load, referenceCount, MemoryMappedSharingBackend.release,
        MemoryMappedSharingBackend.load, MemoryMappedSharingBackend.referenceCount,
        RefCountedLock.releaseRef, hRef, hNe]
      omega
  | shm b =>
    simp only [referenceCount, SharedMemoryBackend.referenceCount] at h
    cases hRef : b.refs.get? key with
    | none => simp [hRef] at h
    | some rc =>
      have hCount : 2 ≤ rc.count := by simpa [hRef] using h
      have hNe : rc.count - 1 ≠ 0 := by omega
      simp [release, load, referenceCount, SharedMemoryBackend.release,
        SharedMemoryBackend.load, SharedMemoryBackend.referenceCount,
        RefCountedLock.releaseRef, hRef, hNe]
      omega
  | lmdb b =>
    simp only [referenceCount, LMDBSharingBackend.referenceCount] at h
    cases hRef : b.metas.get? key with
    | none => simp [hRef] at h
    | some doc =>
      have hCount : 2 ≤ doc.refcount := by simpa [hRef] using h
      have hNe : doc.refcount - 1 ≠ 0 := by omega
      simp [release, load, referenceCount, LMDBSharingBackend.release,
        LMDBSharingBackend.load, LMDBSharingBackend.referenceCount, hRef, hNe]
      omega

theorem release_ne (b : SharingBackend) {key q : StableId} (hq : q ≠ key)
    (consumerId : String) : b.SameAt (b.release key consumerId) q := by
  cases b with
  | mmap b =>
    unfold SameAt
    simp only [release, load, referenceCount, MemoryMappedSharingBackend.release]
    split
    · exact ⟨rfl, rfl⟩
    · split <;> simp [MemoryMappedSharingBackend.load,
        MemoryMappedSharingBackend.referenceCount, Dict.get?_erase_ne, Dict.get?_set_ne, hq]
  | shm b =>
    unfold SameAt
    simp only [release, load, referenceCount, SharedMemoryBackend.release]
    split
    · exact ⟨rfl, rfl⟩
    · split <;> simp [SharedMemoryBackend.load, SharedMemoryBackend.cleanupKey,
        SharedMemoryBackend.referenceCount, Dict.get?_erase_ne, Dict.get?_set_ne, hq]
  | lmdb b =>
    unfold SameAt
    simp only [release, load, referenceCount, LMDBSharingBackend.release]
    split
    · exact ⟨rfl, rfl⟩
    · split <;> simp [LMDBSharingBackend.load, LMDBSharingBackend.referenceCount,
        Dict.get?_erase_ne, Dict.get?_set_ne, hq]

end SharingBackend

end Neuroswarm.Kv
