import Neuroswarm.Kv.Types

/-!
# MAKS — domain models

The records of `runtime/maks/models.py` and `dedup.py`, the state machine table
of `lifecycle.py`, and the hashing and compression interfaces.

Representation choices:

* `new_kv_id()` is a uuid4, which never repeats: an id is the number of its
  draw. Ids are sorted by their spelling, which says nothing about the order of
  the draws; `Setup.rank` is that spelling order;
* a session or agent key is a `Name`: either some text or the spelling of a
  kv id, because `_find_by_session` accepts both;
* a location `f"{provider}://{kv_id}"` is the pair of its parts;
* the fields that only feed eviction scores, metrics and traces (access times,
  costs, NUMA nodes, latencies, migration history) are left out.
-/

namespace Neuroswarm.Maks

open Neuroswarm.Kv (Bytes Time encode)

-- ------ Enumerations

inductive KVState where
  | allocated
  | warmed
  | shared
  | pinned
  | migrated
  | released
  | evicted
  | destroyed
  deriving DecidableEq, Repr

inductive KVTier where
  | hot
  | warm
  | cold
  deriving DecidableEq, Repr

inductive ProviderName where
  | ram
  | mmap
  | redis
  | nvme
  | futureMte
  | futureCxl
  deriving DecidableEq, Repr

/-- `ProviderName(text)`. -/
def ProviderName.ofValue? : String → Option ProviderName
  | "ram" => some .ram
  | "mmap" => some .mmap
  | "redis" => some .redis
  | "nvme" => some .nvme
  | "future_mte" => some .futureMte
  | "future_cxl" => some .futureCxl
  | _ => none

-- ------ Names

/-- `new_kv_id()`, by the number of its draw. -/
structure KvId where
  draw : Nat
  deriving DecidableEq, Repr

/-- A session, agent or consumer key. -/
inductive Name where
  | kv (id : KvId)
  | text (s : String)
  deriving DecidableEq, Repr

namespace Name

def empty : Name := .text ""

/-- `a or b` on strings. -/
def orElse (a b : Name) : Name := if a = empty then b else a

end Name

structure Location where
  provider : ProviderName
  kvId : KvId
  deriving DecidableEq, Repr

-- ------ Records

/-- AQR-safe identity: different quant/RoPE/tokenizer cannot share blindly. -/
structure KVIdentity where
  modelId : String := ""
  quantization : String := ""
  tokenizerVersion : String := ""
  ropeConfig : String := ""
  contextWindow : Int := 0
  deriving DecidableEq, Repr

namespace KVIdentity

def fields (i : KVIdentity) : List String :=
  [i.modelId, i.quantization, i.tokenizerVersion, i.ropeConfig, toString i.contextWindow]

/-- `"|".join([...])`. -/
def fingerprint (i : KVIdentity) : String := "|".intercalate i.fields

def compatibleWith (i other : KVIdentity) : Bool := i.fingerprint == other.fingerprint

end KVIdentity

structure KVMetadata where
  kvSize : Nat := 0
  backend : ProviderName := .ram
  compression : String := "none"
  contentHash : String := ""
  promptHash : String := ""
  producer : Name := .empty
  consumers : List Name := []
  reuseCount : Nat := 0
  hitCount : Nat := 0
  migrationCount : Nat := 0
  deriving DecidableEq, Repr

structure KVRegistryRecord where
  kvId : KvId
  ownerAgent : Name := .empty
  readers : List Name := []
  identity : KVIdentity := {}
  promptHash : String := ""
  sessionId : Name := .empty
  createdAt : Time := 0
  ttlS : Int := 0
  refcount : Nat := 0
  provider : ProviderName := .ram
  location : Location
  tier : KVTier := .hot
  pinned : Bool := false
  dedupKey : String := ""
  state : KVState := .allocated
  metadata : KVMetadata := {}
  accessCount : Nat := 0
  priority : Int := 0
  deriving DecidableEq, Repr

structure KVHandle where
  kvId : KvId
  provider : ProviderName
  location : Location
  deriving DecidableEq, Repr

/-- The exceptions the manager raises, each with what its message names. -/
inductive MAKSError where
  /-- `KVNotFoundError(kv_id)`. -/
  | notFound (kvId : KvId)
  /-- `KVNotFoundError(f"provider {key}")`. -/
  | providerNotFound (provider : ProviderName)
  /-- `KVProviderUnavailableError`. -/
  | providerUnavailable (provider : ProviderName)
  /-- `KVProviderError` around whatever the backend raised. -/
  | providerError (provider : ProviderName)
  /-- What a codec raised, unwrapped. -/
  | codecError
  /-- `KeyError` of `self.providers[key]`. -/
  | providerKeyError (provider : ProviderName)
  /-- `ValueError` of `ProviderName(target)`. -/
  | notAProvider (target : String)
  /-- `KVPermissionError(f"backend {backend} does not support shared_kv")`. -/
  | sharingNotSupported (backend : String)
  /-- `KVDedupCollisionError(f"collision on dedup_key={key}")`. -/
  | dedupCollision (dedupKey : String)
  /-- `KVPinnedError(kv_id)`. -/
  | pinned (kvId : KvId)
  /-- `KVBudgetExceededError("ARMORA budget rejected allocation")`. -/
  | budgetExceeded
  deriving DecidableEq, Repr

-- ------ Hashing

/-- `IHasher`: a content digest, and the bytes `hash_identity` puts between the
fingerprint and the prompt prefix (one NUL; the rolling stub puts nothing).
A digest is hexadecimal text, so it never holds a colon. -/
structure Hasher where
  hash : Bytes → String
  separator : Bytes
  hash_noColon : ∀ data, ':' ∉ (hash data).toList

def Hasher.hashIdentity (h : Hasher) (identity : KVIdentity) (promptPrefix : Bytes) : String :=
  h.hash (encode identity.fingerprint ++ h.separator ++ promptPrefix)

/-- The digest that spells every byte as one letter from U+0100 on. -/
def Hasher.spelled : Hasher where
  hash := Kv.Sha256.spelled.hexdigest
  separator := [0]
  hash_noColon data := by
    unfold Kv.Sha256.spelled
    dsimp only
    rw [String.toList_ofList, List.mem_map]
    rintro ⟨b, -, hb⟩
    have hNat := congrArg Char.toNat hb
    have hLt := b.toNat_lt
    rw [Char.ofNat, dif_pos (Or.inl (by omega))] at hNat
    have hCode : b.toNat + 256 = 58 := hNat
    omega

-- ------ Compression

/-- What `compress` raises: `NotImplementedError` is caught by the manager,
anything else is not. -/
inductive CompressError where
  | notImplemented
  | failed
  deriving DecidableEq, Repr

/-- `ICompression`. -/
structure Codec where
  name : String
  compress : Bytes → Except CompressError Bytes
  decompress : Bytes → Option Bytes

namespace Codec

def none : Codec where
  name := "none"
  compress data := .ok data
  decompress data := some data

def Lossless (c : Codec) : Prop :=
  ∀ data, (∀ packed, c.compress data = .ok packed → c.decompress packed = some data) ∧
    (c.compress data = .error .notImplemented → c.decompress data = Option.none)

theorem none_lossless : Codec.none.Lossless := by
  intro data
  refine ⟨?_, ?_⟩
  · intro packed h
    cases h
    rfl
  · intro h
    cases h

end Codec

-- ------ Capabilities

/-- The two gates of `CapabilityFlags` the manager asks for. -/
structure CapabilityFlags where
  prefixReuse : Bool
  sharedKv : Bool
  deriving DecidableEq, Repr

-- ------ The state machine

def transitions : KVState → List KVState
  | .allocated => [.warmed, .shared, .pinned, .released, .destroyed]
  | .warmed => [.shared, .pinned, .migrated, .released, .evicted]
  | .shared => [.pinned, .migrated, .warmed, .released, .evicted]
  | .pinned => [.shared, .warmed, .migrated, .released]
  | .migrated => [.warmed, .shared, .pinned, .released, .evicted]
  | .released => [.evicted, .destroyed, .warmed]
  | .evicted => [.destroyed, .allocated]
  | .destroyed => []

end Neuroswarm.Maks
