import Neuroswarm.Lib.Dict

/-!
# KV memory runtime — data model

The value types of `runtime/kv/interfaces/types.py` and
`runtime/kv/block/models.py`, and the hashing helpers of
`runtime/kv/utils/hashing.py`.

Three representation choices:

* a Python `bytes` is a list of bytes; a `time.time()` stamp is a tick count —
  stamps are only stored, subtracted and compared;
* `stable_id(prefix)` is the prefix with a uuid4. A uuid4 never repeats; the
  model draws it from a counter kept in the state of the manager that calls it;
* SHA-256 is the parameter `Sha256`: nothing here depends on its values, and
  the results that need it to be collision free say so.
-/

namespace Neuroswarm.Kv

abbrev Bytes := List UInt8

/-- A clock reading. -/
abbrev Time := Nat

-- ------ Enumerations

/-- Storage tiers. `L3_NVME` is the warm disk peer of mmap; the two future
tiers exist in name only. -/
inductive StorageTier where
  | l1Ram
  | l2CompressedRam
  | l3MemoryMapped
  | l4Lmdb
  | l5Redis
  | l3Nvme
  | futureCxl
  | futureMte
  deriving DecidableEq, Repr

inductive BlockStatus where
  | free
  | allocated
  | shared
  | migrating
  | checkpointed
  | evicted
  | corrupt
  deriving DecidableEq, Repr

inductive BlockTemperature where
  | hot
  | warm
  | cold
  deriving DecidableEq, Repr

/-- The prefixes the runtime passes to `stable_id`. -/
inductive IdPrefix where
  | phys
  | log
  | shm
  deriving DecidableEq, Repr

/-- `stable_id(prefix)`: `f"{prefix}_{uuid4}"`. -/
structure StableId where
  idPrefix : IdPrefix
  uuid : Nat
  deriving DecidableEq, Repr

-- ------ Records

/-- Opaque tensor metadata for a KV block payload. -/
structure TensorMeta where
  dtype : String := "uint8"
  shape : List Nat := []
  nbytes : Nat := 0
  encoding : String := "raw"
  deriving DecidableEq, Repr

/-- Global physical block registry entry. -/
structure PhysicalBlockRecord where
  physicalId : StableId
  contentHash : String
  prefixHash : String
  tier : StorageTier
  providerKey : StableId
  refcount : Nat := 1
  numaNode : Nat := 0
  layer : Int := 0
  head : Int := 0
  tokenStart : Int := 0
  tokenEnd : Int := 0
  status : BlockStatus := .allocated
  temperature : BlockTemperature := .hot
  lastAccess : Time := 0
  accessCount : Nat := 0
  priority : Int := 0
  nbytes : Nat := 0
  compressed : Bool := false
  compression : String := "none"
  tensorMeta : TensorMeta := {}
  deriving DecidableEq, Repr

/-- Fixed-size logical KV block. -/
structure Block where
  id : StableId
  layer : Int
  head : Int
  tokenStart : Int
  tokenEnd : Int
  referenceCount : Nat := 1
  contentHash : String := ""
  prefixHash : String := ""
  storageTier : StorageTier := .l1Ram
  status : BlockStatus := .allocated
  temperature : BlockTemperature := .hot
  physicalId : Option StableId := none
  numaNode : Nat := 0
  lastAccess : Time := 0
  accessCount : Nat := 0
  priority : Int := 0
  tensorMeta : TensorMeta := {}
  deriving DecidableEq, Repr

structure SessionBlockTable where
  sessionId : String
  agentId : String := ""
  /-- Logical block ids in order. -/
  logical : List StableId := []
  blocks : Dict StableId Block := Dict.empty
  blockSizeTokens : Nat := 256
  createdAt : Time := 0
  updatedAt : Time := 0

/-- The exceptions the runtime raises, each with what its message names. -/
inductive KvError where
  /-- `KeyError(physical_id)`, `KeyError(f"unknown physical block: {physical_id}")`. -/
  | unknownBlock (physicalId : StableId)
  /-- `KeyError(key)` of a provider that holds nothing under the key. -/
  | missingPayload (key : StableId)
  /-- `KeyError(f"no provider for tier {tier}")`. -/
  | noProvider (tier : StorageTier)
  /-- `RuntimeError` of a provider that is offline. -/
  | providerUnavailable (tier : StorageTier)
  /-- `NotImplementedError(f"cannot migrate to future tier {target}")`. -/
  | futureTier (target : StorageTier)
  /-- `KeyError(session_id)`. -/
  | unknownSession (sessionId : String)
  /-- `KeyError(f"{session_id}/{block_id}")` of a missing payload file. -/
  | missingCheckpointPayload (sessionId : String) (blockId : StableId)
  /-- `ValueError(f"corrupt checkpoint for session {session_id}")`. -/
  | corruptCheckpoint (sessionId : String)
  /-- A failed `assert`. -/
  | assertionFailed
  /-- `PermissionError("share not authorized")`. -/
  | shareNotAuthorized
  deriving DecidableEq, Repr

-- ------ Hashing

/-- `hashlib.sha256(·).hexdigest()`. -/
structure Sha256 where
  hexdigest : Bytes → String

/-- A digest that spells every byte as one letter from U+0100 on: injective,
and cheap to evaluate, for runs on concrete payloads. -/
def Sha256.spelled : Sha256 where
  hexdigest data := String.ofList (data.map fun b => Char.ofNat (b.toNat + 256))

theorem Sha256.spelled_injective : Function.Injective Sha256.spelled.hexdigest := by
  have hToNat : ∀ b : UInt8, (Char.ofNat (b.toNat + 256)).toNat = b.toNat + 256 := by
    intro b
    have hLt := b.toNat_lt
    rw [Char.ofNat, dif_pos (Or.inl (by omega))]
    rfl
  intro x y h
  refine List.map_injective_iff.mpr ?_ (String.ofList_injective h)
  intro a b hab
  have hNat := congrArg Char.toNat hab
  rw [hToNat, hToNat] at hNat
  exact UInt8.toNat_inj.mp (by omega)

def encode (s : String) : Bytes := s.toUTF8.data.toList

def contentHash (sha : Sha256) (data : Bytes) : String := sha.hexdigest data

/-- `b"|"`. -/
def bar : UInt8 := 124

/-- `H(prefix_hash || "|" || payload)`. -/
def prefixBlockHash (sha : Sha256) (prefixHash : String) (payload : Bytes) : String :=
  sha.hexdigest (encode prefixHash ++ bar :: payload)

end Neuroswarm.Kv
