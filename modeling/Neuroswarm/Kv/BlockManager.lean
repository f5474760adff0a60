import Neuroswarm.Kv.Tables
import Neuroswarm.Kv.Providers

/-!
# KV memory runtime — the block manager

`runtime/kv/manager/block_manager.py`, with the deduplication engine
(`manager/dedup.py`), the copy-on-write engine (`block/cow.py`) and the tier
migration of `migration/__init__.py`, which work on the manager's own tables
and providers.

A method returns its value or the exception it raises together with the state
it leaves: what it did before the exception stays done. An object that Python
shares between a dictionary and a local variable is looked up again where its
later fields are used.
-/

namespace Neuroswarm.Kv

structure AllocateRequest where
  sessionId : String
  payload : Bytes
  layer : Int := 0
  head : Int := 0
  tokenStart : Int := 0
  tokenEnd : Int := 0
  priority : Int := 0
  agentId : String := ""
  prefixHash : String := ""
  tensorMeta : Option TensorMeta := none

structure DedupCounters where
  lookups : Nat := 0
  hits : Nat := 0
  deriving DecidableEq, Repr

structure DedupResult where
  physicalId : StableId
  reused : Bool
  contentHash : String
  deriving DecidableEq, Repr

/-- Manages logical/physical mapping, prefix reuse, dedup, and CoW. -/
structure KVBlockManager where
  providers : ProviderRegistry
  physical : PhysicalBlockTable
  prefixCache : PrefixCacheEngine
  /-- `numa_policy.choose_node()`. -/
  numaNode : Nat
  blockSizeTokens : Nat
  sessions : Dict String SessionBlockTable
  logicalTables : Dict String LogicalBlockTable
  dedup : DedupCounters
  /-- The next uuid4 to be drawn. -/
  nextUuid : Nat

/-- What the configuration and the host decide about a fresh manager. -/
structure KvConfig extends ProviderConfig where
  numaNode : Nat := 0
  blockSizeTokens : Nat := 256
  prefixCapacity : Nat := 100000

/-- A host with every backend and no codec, for runs on concrete inputs. -/
def KvConfig.plain : KvConfig :=
  { compression := NoneCompression, lmdbInstalled := true, redisAvailable := true }

/-- Age limits of `TieringPolicy`, in clock ticks. -/
structure TieringPolicy where
  hotAccessWindow : Time := 60
  warmAccessWindow : Time := 600

namespace TieringPolicy

def temperature (policy : TieringPolicy) (rec : PhysicalBlockRecord) (now : Time) :
    BlockTemperature :=
  let age := now - rec.lastAccess
  if age ≤ policy.hotAccessWindow ∧ 2 ≤ rec.accessCount then .hot
  else if age ≤ policy.warmAccessWindow then .warm
  else .cold

end TieringPolicy

namespace KVBlockManager

def new (cfg : KvConfig) : KVBlockManager where
  providers := buildDefaultProviders cfg.toProviderConfig
  physical := .empty
  prefixCache := .new cfg.prefixCapacity
  numaNode := cfg.numaNode
  blockSizeTokens := cfg.blockSizeTokens
  sessions := Dict.empty
  logicalTables := Dict.empty
  dedup := {}
  nextUuid := 0

def stableId (m : KVBlockManager) (idPrefix : IdPrefix) : StableId × KVBlockManager :=
  (⟨idPrefix, m.nextUuid⟩, { m with nextUuid := m.nextUuid + 1 })

-- ------ Sessions

def createSession (m : KVBlockManager) (sessionId agentId : String) (now : Time) :
    SessionBlockTable × KVBlockManager :=
  match m.sessions.get? sessionId with
  | some table => (table, m)
  | none =>
    let table : SessionBlockTable :=
      { sessionId, agentId, blockSizeTokens := m.blockSizeTokens,
        createdAt := now, updatedAt := now }
    (table, { m with
      sessions := m.sessions.set sessionId table
      logicalTables := m.logicalTables.set sessionId { sessionId } })

def getSession (m : KVBlockManager) (sessionId : String) : Option SessionBlockTable :=
  m.sessions.get? sessionId

/-- `_attach_logical` for the session found under `key`. `none` is the
`KeyError` of a session whose logical table is missing. -/
def attachLogical (m : KVBlockManager) (key : String) (physical : PhysicalBlockRecord)
    (layer head tokenStart tokenEnd : Int) (prefixHash : String) (now : Time)
    (priority : Int) : Option (Block × KVBlockManager) := do
  let session ← m.sessions.get? key
  let logical ← m.logicalTables.get? session.sessionId
  let idx := logical.len
  let (blockId, m) := m.stableId .log
  let block : Block :=
    { id := blockId, layer, head, tokenStart, tokenEnd
      referenceCount := physical.refcount
      contentHash := physical.contentHash
      prefixHash
      storageTier := physical.tier
      status := physical.status
      temperature := physical.temperature
      physicalId := some physical.physicalId
      numaNode := physical.numaNode
      lastAccess := now
      accessCount := 1
      priority
      tensorMeta := physical.tensorMeta }
  let session :=
    { session with
      blocks := session.blocks.set blockId block
      logical := session.logical ++ [blockId] }
  return (block, { m with
    sessions := m.sessions.set key session
    logicalTables :=
      m.logicalTables.set session.sessionId (logical.mapIndex idx physical.physicalId) })

-- ------ Deduplication

def find (sha : Sha256) (m : KVBlockManager) (payload : Bytes) :
    Option PhysicalBlockRecord × KVBlockManager :=
  match m.physical.getByHash (contentHash sha payload) with
  | some rec =>
    (some rec, { m with dedup := ⟨m.dedup.lookups + 1, m.dedup.hits + 1⟩ })
  | none => (none, { m with dedup := { m.dedup with lookups := m.dedup.lookups + 1 } })

def registerOrReuse (sha : Sha256) (m : KVBlockManager) (record : PhysicalBlockRecord)
    (payload : Bytes) : Option (DedupResult × KVBlockManager) :=
  let h := contentHash sha payload
  let record := { record with contentHash := h }
  match m.physical.getByHash h with
  | some existing =>
    (m.physical.acquire existing.physicalId).map fun (_, physical) =>
      (⟨existing.physicalId, true, h⟩,
        { m with physical, dedup := ⟨m.dedup.lookups + 1, m.dedup.hits + 1⟩ })
  | none =>
    let (registered, physical) := m.physical.register record
    some (⟨registered.physicalId, false, h⟩,
      { m with physical, dedup := { m.dedup with lookups := m.dedup.lookups + 1 } })

-- ------ Allocation

/-- `req.token_end or (req.token_start + block_size_tokens)`. -/
def requestTokenEnd (m : KVBlockManager) (req : AllocateRequest) : Int :=
  if req.tokenEnd = 0 then req.tokenStart + m.blockSizeTokens else req.tokenEnd

/-- `req.prefix_hash or existing.prefix_hash`. -/
def requestPrefix (req : AllocateRequest) (existing : PhysicalBlockRecord) : String :=
  if req.prefixHash = "" then existing.prefixHash else req.prefixHash

/-- The dedup hit of `allocate`: acquire the existing block and attach it. -/
def allocateHit (sha : Sha256) (m : KVBlockManager) (req : AllocateRequest)
    (existing : PhysicalBlockRecord) (now : Time) : Except KvError Block × KVBlockManager :=
  match m.physical.acquire existing.physicalId with
  | none => (.error (.unknownBlock existing.physicalId), m)
  | some (count, physical) =>
    let m := { m with physical }
    let tokenEnd := m.requestTokenEnd req
    let prefixHash := requestPrefix req existing
    match m.attachLogical req.sessionId { existing with refcount := count } req.layer req.head
        req.tokenStart tokenEnd prefixHash now req.priority with
    | none => (.error (.unknownSession req.sessionId), m)
    | some (block, m) =>
      let (_, prefixCache) := m.prefixCache.insert sha prefixHash req.payload
        existing.physicalId tokenEnd
      (.ok block, { m with prefixCache })

def allocateAttach (sha : Sha256) (m : KVBlockManager) (req : AllocateRequest)
    (record : PhysicalBlockRecord) (now : Time) : Except KvError Block × KVBlockManager :=
  let tokenEnd := m.requestTokenEnd req
  match m.attachLogical req.sessionId record req.layer req.head req.tokenStart tokenEnd
      req.prefixHash now req.priority with
  | none => (.error (.unknownSession req.sessionId), m)
  | some (block, m) =>
    let block := { block with
      prefixHash := req.prefixHash
      contentHash := prefixBlockHash sha req.prefixHash req.payload }
    let (_, prefixCache) := m.prefixCache.insert sha req.prefixHash req.payload
      record.physicalId tokenEnd
    (.ok block, { m with
      prefixCache
      sessions := m.sessions.modify req.sessionId fun session =>
        { session with blocks := session.blocks.set block.id block, updatedAt := now } })

def freshRecord (sha : Sha256) (m : KVBlockManager) (req : AllocateRequest)
    (physicalId : StableId) (now : Time) : PhysicalBlockRecord :=
  { physicalId
    contentHash := contentHash sha req.payload
    prefixHash := req.prefixHash
    tier := .l1Ram
    providerKey := physicalId
    refcount := 1
    numaNode := m.numaNode
    layer := req.layer
    head := req.head
    tokenStart := req.tokenStart
    tokenEnd := m.requestTokenEnd req
    status := .allocated
    temperature := .hot
    lastAccess := now
    accessCount := 1
    priority := req.priority
    nbytes := req.payload.length
    tensorMeta := req.tensorMeta.getD
      { nbytes := req.payload.length, shape := [req.payload.length] } }

/-- The miss of `allocate`: store the payload in L1, register, attach. -/
def allocateFresh (sha : Sha256) (m : KVBlockManager) (req : AllocateRequest) (now : Time) :
    Except KvError Block × KVBlockManager :=
  let (physicalId, m) := m.stableId .phys
  match m.providers.put .l1Ram physicalId req.payload with
  | .error e => (.error e, m)
  | .ok providers =>
    let m := { m with providers }
    let record := m.freshRecord sha req physicalId now
    match m.registerOrReuse sha record req.payload with
    | none => (.error (.unknownBlock physicalId), m)
    | some (result, m) =>
      if result.reused = true ∧ result.physicalId ≠ physicalId then
        match m.providers.delete .l1Ram physicalId with
        | .error e => (.error e, m)
        | .ok providers =>
          let m := { m with providers }
          match m.physical.get result.physicalId with
          | none => (.error .assertionFailed, m)
          | some record => m.allocateAttach sha req record now
      else m.allocateAttach sha req record now

def allocate (sha : Sha256) (m : KVBlockManager) (req : AllocateRequest) (now : Time) :
    Except KvError Block × KVBlockManager :=
  let (_, m) := m.createSession req.sessionId req.agentId now
  match m.find sha req.payload with
  | (some existing, m) => m.allocateHit sha req existing now
  | (none, m) => m.allocateFresh sha req now

-- ------ Release

/-- The tiers `release_session` tries, in its order. -/
def releaseTiers : List StorageTier :=
  [.l1Ram, .l2CompressedRam, .l3MemoryMapped, .l3Nvme, .l4Lmdb, .l5Redis]

/-- Best-effort delete: the first registered tier that has the key drops it; a
tier that raises is skipped. -/
def deleteFromTiers (key : StableId) : List StorageTier → ProviderRegistry → ProviderRegistry
  | [], reg => reg
  | tier :: rest, reg =>
    match reg.existsKey tier key with
    | .ok true =>
      match reg.delete tier key with
      | .ok reg' => reg'
      | .error _ => deleteFromTiers key rest reg
    | _ => deleteFromTiers key rest reg

/-- Drop one reference to a block and, with the last one, its bytes. -/
def releaseBlock (m : KVBlockManager) (pid : StableId) : KVBlockManager :=
  let (remaining, physical) := m.physical.release pid
  let m := { m with physical }
  if remaining = 0 then
    { m with providers := deleteFromTiers pid releaseTiers m.providers }
  else m

/-- The loop of `release_session` over the session's blocks, with the ids seen. -/
def releaseBlocks : List StableId → List Block → KVBlockManager → KVBlockManager
  | _, [], m => m
  | seen, block :: rest, m =>
    match block.physicalId with
    | none => releaseBlocks seen rest m
    | some pid =>
      if pid ∈ seen then releaseBlocks seen rest m
      else releaseBlocks (pid :: seen) rest (m.releaseBlock pid)

def releaseSession (m : KVBlockManager) (sessionId : String) : KVBlockManager :=
  let popped := { m with
    sessions := m.sessions.erase sessionId
    logicalTables := m.logicalTables.erase sessionId }
  match m.sessions.get? sessionId with
  | none => popped
  | some session => releaseBlocks [] session.blocks.values popped

-- ------ Reading and writing

def readPayload (m : KVBlockManager) (pid : StableId) (now : Time) :
    Except KvError Bytes × KVBlockManager :=
  match m.physical.get pid with
  | none => (.error (.unknownBlock pid), m)
  | some rec =>
    match m.providers.get rec.tier rec.providerKey with
    | .error e => (.error e, m)
    | .ok data =>
      match m.physical.touch pid now with
      | none => (.error (.unknownBlock pid), m)
      | some physical => (.ok data, { m with physical })

def needsCow (m : KVBlockManager) (pid : StableId) : Bool :=
  match m.physical.get pid with
  | some rec => decide (1 < rec.refcount)
  | none => false

/-- `cow.clone(physical_id, payload, provider_key=…)`: reuse a record with the
new content or register a copy of the source's. -/
def clone (sha : Sha256) (m : KVBlockManager) (pid : StableId) (payload : Bytes)
    (providerKey : StableId) : Except KvError PhysicalBlockRecord × KVBlockManager :=
  match m.physical.get pid with
  | none => (.error (.unknownBlock pid), m)
  | some src =>
    let newHash := contentHash sha payload
    match m.physical.getByHash newHash with
    | some existing =>
      match m.physical.acquire existing.physicalId with
      | none => (.error (.unknownBlock existing.physicalId), m)
      | some (count, physical) =>
        (.ok { existing with refcount := count }, { m with physical })
    | none =>
      let (cloneId, m) := m.stableId .phys
      let record : PhysicalBlockRecord :=
        { src with
          physicalId := cloneId
          contentHash := newHash
          providerKey := providerKey
          refcount := 1
          status := .allocated
          accessCount := 0
          nbytes := payload.length }
      let (registered, physical) := m.physical.register record
      (.ok registered, { m with physical })

/-- The in-place branch of `write_cow`: overwrite the bytes and restamp the record. -/
def writeInPlace (sha : Sha256) (m : KVBlockManager) (pid : StableId) (payload : Bytes) :
    Except KvError PhysicalBlockRecord × KVBlockManager :=
  match m.physical.get pid with
  | none => (.error (.unknownBlock pid), m)
  | some rec =>
    match m.providers.put rec.tier rec.providerKey payload with
    | .error e => (.error e, m)
    | .ok providers =>
      let written :=
        { rec with contentHash := contentHash sha payload, nbytes := payload.length }
      (.ok written, { m with providers, physical := m.physical.put written })

/-- The clone branch of `write_cow`: the clone's bytes always land in L1. -/
def writeClone (sha : Sha256) (m : KVBlockManager) (pid : StableId) (payload : Bytes) :
    Except KvError PhysicalBlockRecord × KVBlockManager :=
  match m.providers.forTier .l1Ram with
  | .error e => (.error e, m)
  | .ok _ =>
    let (providerKey, m) := m.stableId .phys
    match m.clone sha pid payload providerKey with
    | (.error e, m) => (.error e, m)
    | (.ok clone, m) =>
      match m.providers.put .l1Ram clone.providerKey payload with
      | .error e => (.error e, m)
      | .ok providers =>
        let m := { m with providers }
        match m.physical.updateTier clone.physicalId .l1Ram clone.providerKey with
        | none => (.error (.unknownBlock clone.physicalId), m)
        | some physical => (.ok { clone with tier := .l1Ram }, { m with physical })

def writeCow (sha : Sha256) (m : KVBlockManager) (pid : StableId) (payload : Bytes) :
    Except KvError PhysicalBlockRecord × KVBlockManager :=
  if m.needsCow pid then m.writeClone sha pid payload
  else m.writeInPlace sha pid payload

-- ------ Prefix reuse

def lookupPrefix (sha : Sha256) (m : KVBlockManager) (blockPayloads : List Bytes) :
    PrefixMatchResult × KVBlockManager :=
  let (result, prefixCache) := m.prefixCache.longestPrefixMatch sha blockPayloads
  (result, { m with prefixCache })

/-- The loop of `reuse_prefix`: it ends at the first id that is not registered. -/
def reuseLoop (key : String) (now : Time) :
    List StableId → List Block → KVBlockManager → Except KvError (List Block) × KVBlockManager
  | [], out, m => (.ok out, m)
  | pid :: rest, out, m =>
    match m.physical.get pid with
    | none => (.ok out, m)
    | some rec =>
      match m.physical.acquire pid with
      | none => (.error (.unknownBlock pid), m)
      | some (count, physical) =>
        let m := { m with physical }
        match m.attachLogical key { rec with refcount := count } rec.layer rec.head
            rec.tokenStart rec.tokenEnd rec.prefixHash now rec.priority with
        | none => (.error (.unknownSession key), m)
        | some (block, m) => reuseLoop key now rest (out ++ [block]) m

def reusePrefix (m : KVBlockManager) (sessionId : String) (result : PrefixMatchResult)
    (agentId : String) (now : Time) : Except KvError (List Block) × KVBlockManager :=
  let (_, m) := m.createSession sessionId agentId now
  reuseLoop sessionId now result.matchedBlocks [] m

-- ------ Tier migration

def finishMigration (policy : TieringPolicy) (physical : PhysicalBlockTable)
    (rec : PhysicalBlockRecord) (target : StorageTier) (now : Time) :
    Option PhysicalBlockTable :=
  (physical.get rec.physicalId).map fun rec =>
    physical.put { rec with
      temperature := policy.temperature rec now
      compressed := target ≠ .l1Ram
      tier := target }

/-- `KVTieringEngine.migrate_block`: copy, delete, then move the record. -/
def migrateBlock (policy : TieringPolicy) (m : KVBlockManager) (pid : StableId)
    (target : StorageTier) (now : Time) : Except KvError Bool × KVBlockManager :=
  match m.physical.get pid with
  | none => (.ok false, m)
  | some rec =>
    if rec.tier = target then (.ok false, m)
    else if target = .futureCxl ∨ target = .futureMte then (.error (.futureTier target), m)
    else if (m.providers.getTier rec.tier).isNone ∨ (m.providers.getTier target).isNone then
      (.ok false, m)
    else
      match m.providers.get rec.tier rec.providerKey with
      | .error e => (.error e, m)
      | .ok data =>
        match m.providers.put target rec.providerKey data with
        | .error e => (.error e, m)
        | .ok providers =>
          let m := { m with providers }
          match m.providers.delete rec.tier rec.providerKey with
          | .error e => (.error e, m)
          | .ok providers =>
            let m := { m with providers }
            match finishMigration policy m.physical rec target now with
            | none => (.error (.unknownBlock pid), m)
            | some physical => (.ok true, { m with physical })

end KVBlockManager

-- ------ Operations

/-- One call on the manager or on the tiering engine over its tables. -/
inductive Op where
  | createSession (sessionId agentId : String) (now : Time)
  | allocate (req : AllocateRequest) (now : Time)
  | reusePrefix (sessionId : String) (result : PrefixMatchResult) (agentId : String) (now : Time)
  | releaseSession (sessionId : String)
  | readPayload (pid : StableId) (now : Time)
  | writeCow (pid : StableId) (payload : Bytes)
  | lookupPrefix (blockPayloads : List Bytes)
  | migrateBlock (policy : TieringPolicy) (pid : StableId) (target : StorageTier) (now : Time)

/-- The state a call leaves, whether it returns or raises. -/
def step (sha : Sha256) (m : KVBlockManager) : Op → KVBlockManager
  | .createSession sessionId agentId now => (m.createSession sessionId agentId now).2
  | .allocate req now => (m.allocate sha req now).2
  | .reusePrefix sessionId result agentId now => (m.reusePrefix sessionId result agentId now).2
  | .releaseSession sessionId => m.releaseSession sessionId
  | .readPayload pid now => (m.readPayload pid now).2
  | .writeCow pid payload => (m.writeCow sha pid payload).2
  | .lookupPrefix blockPayloads => (m.lookupPrefix sha blockPayloads).2
  | .migrateBlock policy pid target now => (m.migrateBlock policy pid target now).2

end Neuroswarm.Kv
