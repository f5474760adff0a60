import Mathlib.Data.List.Dedup
import Neuroswarm.Maks.Backends

/-!
# MAKS — the KV manager

`manager.py` with `migration.py`, `pager.py` and `allocator.py`: the state of a
`KVManager` and its public operations, in the order of the source.

An operation returns the state it leaves and its result; the state of a call
that raises is kept, because several calls change something before they raise.
What the operation does not decide is an argument: `Env` holds the answers of
the ARMORA policy, the victims the eviction policy picked and the clock.

Metrics, gauges, share tokens, locality hints and the lock are left out. So is
the pager's checkpoint table, which only `rollback` reads, and rolling back is
one more `migrate`.
-/

namespace Neuroswarm.Maks

open Neuroswarm.Kv (Bytes Time encode)

structure KVManager where
  registry : KVRegistry := .empty
  lifecycle : LifecycleManager := Dict.empty
  refcount : ReferenceCounter := Dict.empty
  handles : HandleRegistry := {}
  pool : GlobalPagePool
  dedup : DeduplicationEngine := {}
  /-- `KVAllocator._allocated_bytes`. -/
  allocated : Nat := 0
  backends : Backends := {}
  /-- How many kv ids were drawn. -/
  drawn : Nat := 0

/-- What the surroundings of a call decide. -/
structure Env where
  /-- The answer of `armora.admit`, and of the second try after relieving. -/
  accepted : Bool := true
  acceptedAgain : Bool := false
  /-- What the eviction policy picks, before the evictable filter. -/
  victims : List KvId := []
  now : Time := 0

structure CreateRequest where
  payload : Bytes
  agentId : Name := .empty
  sessionId : Name := .empty
  identity : KVIdentity := {}
  promptHash : String := ""
  promptPrefix : Bytes := []
  priority : Int := 0
  ttlS : Option Int := none
  backendId : String := ""
  env : Env := {}

/-- A migration target: a `ProviderName`, or a string still to be read as one. -/
inductive Target where
  | name (p : ProviderName)
  | value (text : String)
  deriving DecidableEq, Repr

def Target.resolve : Target → Except MAKSError ProviderName
  | .name p => .ok p
  | .value text =>
    match ProviderName.ofValue? text with
    | some p => .ok p
    | none => .error (.notAProvider text)

namespace CreateRequest

variable (S : Setup) (req : CreateRequest)

/-- `backend_id or self.default_backend_id`. -/
def backend : String := if req.backendId = "" then S.defaultBackendId else req.backendId

/-- `config.enable_dedup and (caps.shared_kv or caps.prefix_reuse)`. -/
def canDedup : Bool :=
  S.enableDedup &&
    ((S.capabilities (req.backend S)).sharedKv || (S.capabilities (req.backend S)).prefixReuse)

def fullPromptHash : String :=
  if req.promptHash = "" ∧ req.promptPrefix ≠ [] then S.hasher.hash req.promptPrefix
  else req.promptHash

/-- `prompt_bytes or prompt_hash`, as `hash_identity` encodes it. -/
def dedupPrefix : Bytes :=
  if req.promptPrefix ≠ [] then req.promptPrefix else encode (req.fullPromptHash S)

def contentHash : String := S.hasher.hash req.payload

end CreateRequest

namespace KVManager

variable (S : Setup)

/-- `KVManager(...)`. -/
def init : KVManager := { pool := .build S.pageBytes }

/-- `lifecycle.try_transition(kv_id, to)` and `registry.set_state(kv_id, to)`:
the registry is written whether or not the transition was allowed. -/
def writeState (m : KVManager) (kvId : KvId) (state : KVState) : KVManager :=
  { m with
    lifecycle := LifecycleManager.tryTransition m.lifecycle kvId state
    registry := m.registry.setState kvId state }

-- ------ Migration

def getProvider (p : ProviderName) : Except MAKSError Unit :=
  match S.providers p with
  | none => .error (.providerNotFound p)
  | some be => if be.available then .ok () else .error (.providerUnavailable p)

/-- Load from `src`, store at `dst`, delete at `src`; a failed delete is ignored. -/
def transfer (b : Backends) (src dst : ProviderName) (kvId : KvId) :
    Backends × Except MAKSError Unit :=
  match b.load S src kvId with
  | (b, .error e) => (b, .error e)
  | (b, .ok data) =>
    match Backends.allocate S dst kvId with
    | .error e => (b, .error e)
    | .ok _ =>
      match b.store S dst kvId data with
      | (b, .error e) => (b, .error e)
      | (b, .ok ()) => ((b.delete S src kvId).1, .ok ())

def moved (rec : KVRegistryRecord) (target : ProviderName) : KVRegistryRecord :=
  { rec with
    provider := target
    location := ⟨target, rec.kvId⟩
    tier := providerTier target
    metadata := { rec.metadata with
      migrationCount := rec.metadata.migrationCount + 1
      backend := target } }

/-- `MigrationEngine.migrate(kv_id, target)`. -/
def engineMigrate (m : KVManager) (kvId : KvId) (target : Target) :
    KVManager × Except MAKSError Location :=
  match m.registry.get kvId with
  | none => (m, .error (.notFound kvId))
  | some rec =>
    match target.resolve with
    | .error e => (m, .error e)
    | .ok p =>
      if rec.provider = p then (m, .ok rec.location)
      else
        match getProvider S rec.provider, getProvider S p with
        | .error e, _ => (m, .error e)
        | .ok (), .error e => (m, .error e)
        | .ok (), .ok () =>
          match transfer S m.backends rec.provider p kvId with
          | (b, .error e) => ({ m with backends := b }, .error e)
          | (b, .ok ()) =>
            ({ m with backends := b, registry := m.registry.upsert (moved rec p) },
              .ok ⟨p, kvId⟩)

/-- The neighbour `_COOLER[idx + 1]` or `_COOLER[idx - 1]`. -/
def coolerNeighbour (cooler' : Bool) (p : ProviderName) : Option ProviderName :=
  if p ∈ cooler then
    if cooler' then cooler[cooler.idxOf p + 1]?
    else if cooler.idxOf p = 0 then none else cooler[cooler.idxOf p - 1]?
  else none

def demote (m : KVManager) (kvId : KvId) : KVManager × Except MAKSError (Option Location) :=
  match m.registry.get kvId with
  | none => (m, .ok none)
  | some rec =>
    if rec.pinned then (m, .ok none)
    else
      match coolerNeighbour true rec.provider with
      | none => (m, .ok none)
      | some p =>
        match engineMigrate S m kvId (.name p) with
        | (m, .error e) => (m, .error e)
        | (m, .ok loc) => (m, .ok (some loc))

def promote (m : KVManager) (kvId : KvId) : KVManager × Except MAKSError (Option Location) :=
  match m.registry.get kvId with
  | none => (m, .ok none)
  | some rec =>
    match coolerNeighbour false rec.provider with
    | none => (m, .ok none)
    | some p =>
      match engineMigrate S m kvId (.name p) with
      | (m, .error e) => (m, .error e)
      | (m, .ok loc) => (m, .ok (some loc))

def migrate (m : KVManager) (kvId : KvId) (target : Target) :
    KVManager × Except MAKSError Location :=
  match engineMigrate S m kvId target with
  | (m, .error e) => (m, .error e)
  | (m, .ok loc) =>
    match target.resolve with
    | .error e => (m, .error e)
    | .ok p =>
      let m := m.writeState kvId .migrated
      let pool := m.pool.setLocation kvId loc p
      ({ m with pool := pool.setTier kvId (TierManager.tierForProvider p) p }, .ok loc)

-- ------ Paging

/-- A page move to `nxt`: `migrate`, then the tier of the pages once more. -/
def pageTo (m : KVManager) (kvId : KvId) (nxt : Option ProviderName) :
    KVManager × Except MAKSError (Option Location) :=
  match nxt with
  | none => (m, .ok none)
  | some p =>
    match migrate S m kvId (.name p) with
    | (m, .error e) => (m, .error e)
    | (m, .ok loc) =>
      ({ m with pool := m.pool.setTier kvId (TierManager.tierForProvider p) p }, .ok (some loc))

def pageOut (m : KVManager) (kvId : KvId) : KVManager × Except MAKSError (Option Location) :=
  match m.registry.get kvId with
  | none => (m, .ok none)
  | some rec =>
    if rec.pinned then (m, .ok none)
    else pageTo S m kvId (TierManager.nextDemote S rec.provider)

def pageIn (m : KVManager) (kvId : KvId) : KVManager × Except MAKSError (Option Location) :=
  match m.registry.get kvId with
  | none => (m, .ok none)
  | some rec => pageTo S m kvId (TierManager.nextPromote S rec.provider)

-- ------ Deleting and relieving pressure

/-- What `delete` does once the block may go. -/
def destroy (m : KVManager) (rec : KVRegistryRecord) : KVManager :=
  { m with
    backends := (m.backends.delete S rec.provider rec.kvId).1
    dedup := if rec.dedupKey = "" then m.dedup else m.dedup.forget rec.dedupKey
    refcount := ReferenceCounter.releaseAll m.refcount rec.kvId
    allocated := m.allocated - rec.metadata.kvSize
    pool := m.pool.release rec.kvId
    handles := m.handles.unbind rec.kvId
    lifecycle := (LifecycleManager.tryTransition m.lifecycle rec.kvId .destroyed).erase rec.kvId
    registry := m.registry.delete rec.kvId }

def delete (m : KVManager) (kvId : KvId) (force : Bool) : KVManager × Except MAKSError Unit :=
  match m.registry.get kvId with
  | none => (m, .ok ())
  | some rec =>
    if rec.pinned = true ∧ force = false then (m, .error (.pinned kvId))
    else (destroy S m rec, .ok ())

/-- `r.refcount <= 1 and not r.pinned`. -/
def evictable (m : KVManager) (kvId : KvId) : Bool :=
  match m.registry.get kvId with
  | none => false
  | some rec => decide (rec.refcount ≤ 1) && !rec.pinned

/-- One victim of `relieve_pressure`: page it out, else demote it, else destroy it. -/
def relieveOne (m : KVManager) (kvId : KvId) : KVManager :=
  match m.registry.get kvId with
  | none => m
  | some rec =>
    if rec.pinned then m
    else if rec.provider = .nvme then (delete S m kvId false).1
    else
      match pageOut S m kvId with
      | (m, .ok _) => m
      | (m, .error _) =>
        match demote S m kvId with
        | (m, .ok _) => m
        | (m, .error _) => (delete S m kvId false).1

/-- `select_victims(...)`: distinct evictable ids, the policy's choice among them. -/
def selectVictims (m : KVManager) (picked : List KvId) : List KvId :=
  picked.dedup.filter m.evictable

def relievePressure (m : KVManager) (picked : List KvId) : KVManager :=
  (m.selectVictims picked).foldl (relieveOne S) m

-- ------ Creating

/-- `KVAllocator.choose_provider(size=...)`: mmap once the RAM budget is spent,
RAM when the wanted provider is not configured. -/
def chooseProvider (m : KVManager) (size : Nat) : Except MAKSError ProviderName :=
  let name :=
    if 0 < S.ramBudgetBytes ∧ S.ramBudgetBytes < m.allocated + size then .mmap
    else S.defaultProvider
  if (S.providers name).isSome then .ok name
  else if (S.providers .ram).isSome then .ok .ram
  else .error (.providerKeyError .ram)

/-- The bytes handed to the backend: compressed, or as they are when the
manager's codec is the identity or not implemented. -/
def packPayload (data : Bytes) : Except MAKSError Bytes :=
  if S.compression.name = "" ∨ S.compression.name = "none" then .ok data
  else
    match S.compression.compress data with
    | .ok packed => .ok packed
    | .error .notImplemented => .ok data
    | .error .failed => .error .codecError

def newRecord (req : CreateRequest) (kvId : KvId) (location : Location) (dedupKey : String) :
    KVRegistryRecord where
  kvId := kvId
  ownerAgent := req.agentId
  identity := req.identity
  promptHash := req.fullPromptHash S
  sessionId := req.sessionId
  createdAt := req.env.now
  ttlS := req.ttlS.getD S.defaultTtlS
  refcount := 1
  provider := location.provider
  location := location
  tier := .hot
  dedupKey := dedupKey
  state := .allocated
  metadata :=
    { kvSize := req.payload.length
      backend := location.provider
      compression := S.compression.name
      contentHash := req.contentHash S
      promptHash := req.fullPromptHash S
      producer := req.agentId }
  priority := req.priority

def pageRequest (req : CreateRequest) (kvId : KvId) (location : Location) : PageRequest where
  kvId := kvId
  sizeBytes := req.payload.length
  identity := req.identity
  provider := location.provider
  location := location
  contentHash := req.contentHash S
  prefixHash := req.fullPromptHash S
  compression := S.compression.name
  backendId := req.backend S

/-- The tables after a new block was stored: record, lifecycle, count, pages, handle. -/
def install (m : KVManager) (req : CreateRequest) (kvId : KvId) (location : Location)
    (dedupKey : String) : KVManager :=
  { m with
    registry := m.registry.upsert (newRecord S req kvId location dedupKey)
    lifecycle := m.lifecycle.set kvId .allocated
    refcount := ReferenceCounter.increment m.refcount kvId req.agentId true
    pool := m.pool.allocatePages (pageRequest S req kvId location)
    handles :=
      m.handles.bind kvId req.sessionId req.agentId req.identity (req.backend S) req.env.now }

/-- `dedup.register(...)` when the backend allows reuse. -/
def registerDedup (m : KVManager) (req : CreateRequest) (kvId : KvId) :
    DeduplicationEngine × Except MAKSError String :=
  if req.canDedup S then
    match m.dedup.register S.hasher kvId req.identity (req.dedupPrefix S) (req.contentHash S) with
    | (dedup, .error e) => (dedup, .error e)
    | (dedup, .ok ent) => (dedup, .ok ent.dedupKey)
  else (m.dedup, .ok "")

/-- The allocating half of `create`. The bytes are counted as soon as the
provider gave a location, before the payload is compressed, stored and indexed. -/
def allocateNew (m : KVManager) (req : CreateRequest) : KVManager × Except MAKSError KVHandle :=
  let kvId : KvId := ⟨m.drawn⟩
  let m := { m with drawn := m.drawn + 1 }
  match chooseProvider S m req.payload.length with
  | .error e => (m, .error e)
  | .ok p =>
    match Backends.allocate S p kvId with
    | .error e => (m, .error e)
    | .ok location =>
      let m := { m with allocated := m.allocated + req.payload.length }
      match packPayload S req.payload with
      | .error e => (m, .error e)
      | .ok stored =>
        match m.backends.store S p kvId stored with
        | (b, .error e) => ({ m with backends := b }, .error e)
        | (b, .ok ()) =>
          let m := { m with backends := b }
          match registerDedup S m req kvId with
          | (dedup, .error e) => ({ m with dedup := dedup }, .error e)
          | (dedup, .ok dedupKey) =>
            (install S { m with dedup := dedup } req kvId location dedupKey,
              .ok { kvId, provider := location.provider, location })

/-- A dedup hit: one more reference to the block that is already there. -/
def reuse (m : KVManager) (rec : KVRegistryRecord) (req : CreateRequest) : KVManager :=
  let refcount :=
    ReferenceCounter.increment m.refcount rec.kvId (req.agentId.orElse rec.ownerAgent) false
  { m with
    refcount := refcount
    registry :=
      (m.registry.upsert { rec with refcount := ReferenceCounter.count refcount rec.kvId }).touch
        rec.kvId
    pool := m.pool.incrementShare rec.kvId }

/-- The live record a dedup entry names, when its identity is compatible. -/
def reusable (m : KVManager) (req : CreateRequest) (found : Option DedupEntry) :
    Option KVRegistryRecord :=
  match found with
  | none => none
  | some ent => (m.registry.get ent.kvId).filter fun rec => req.identity.compatibleWith rec.identity

/-- `create` once ARMORA accepted the payload. -/
def place (m : KVManager) (req : CreateRequest) : KVManager × Except MAKSError KVHandle :=
  if req.canDedup S then
    match m.dedup.lookup S.hasher req.identity (req.dedupPrefix S) (req.contentHash S) with
    | (dedup, found) =>
      let m := { m with dedup := dedup }
      match m.reusable req found with
      | some rec =>
        (m.reuse rec req, .ok { kvId := rec.kvId, provider := rec.provider, location := rec.location })
      | none => allocateNew S m req
  else allocateNew S m req

def create (m : KVManager) (req : CreateRequest) : KVManager × Except MAKSError KVHandle :=
  if req.env.accepted then place S m req
  else
    let m := relievePressure S m req.env.victims
    if req.env.acceptedAgain then place S m req else (m, .error .budgetExceeded)

-- ------ Sharing and releasing

/-- The backend a block was bound to. -/
def backendOf (m : KVManager) (kvId : KvId) : String :=
  match m.handles.get kvId with
  | some binding => binding.backendId
  | none => S.defaultBackendId

/-- One more reader: count, record and pages. -/
def granted (m : KVManager) (b : Backends) (rec : KVRegistryRecord) (consumer : Name) :
    KVManager :=
  let refcount := ReferenceCounter.increment m.refcount rec.kvId consumer false
  { m with
    backends := b
    refcount := refcount
    registry := m.registry.upsert
      { rec with
        readers := if consumer ∈ rec.readers then rec.readers else rec.readers ++ [consumer]
        refcount := ReferenceCounter.count refcount rec.kvId
        metadata := { rec.metadata with
          consumers :=
            if consumer ∈ rec.metadata.consumers then rec.metadata.consumers
            else rec.metadata.consumers ++ [consumer] } }
    pool := m.pool.incrementShare rec.kvId }

def share (m : KVManager) (kvId : KvId) (consumer : Name) : KVManager × Except MAKSError Unit :=
  match m.registry.get kvId with
  | none => (m, .error (.notFound kvId))
  | some rec =>
    if (S.capabilities (m.backendOf S kvId)).sharedKv then
      match m.backends.share S rec.provider with
      | (b, .error e) => ({ m with backends := b }, .error e)
      | (b, .ok ()) =>
        let m := m.granted b rec consumer
        if m.lifecycle.get? kvId = some .allocated ∨ m.lifecycle.get? kvId = some .warmed then
          (m.writeState kvId .shared, .ok ())
        else (m, .ok ())
    else (m, .error (.sharingNotSupported (m.backendOf S kvId)))

/-- One reference less, whoever calls: count, record and pages. -/
def dropped (m : KVManager) (rec : KVRegistryRecord) (agent : Name) : KVManager :=
  let refcount := ReferenceCounter.decrement m.refcount rec.kvId agent
  { m with
    refcount := refcount
    registry := m.registry.upsert
      { rec with
        readers :=
          if agent ≠ .empty ∧ agent ∈ rec.readers then rec.readers.filter (· ≠ agent)
          else rec.readers
        refcount := ReferenceCounter.count refcount rec.kvId }
    pool := m.pool.decrementShare rec.kvId }

def release (m : KVManager) (kvId : KvId) (agent : Name) : KVManager :=
  match m.registry.get kvId with
  | none => m
  | some rec =>
    let m := m.dropped rec agent
    if ReferenceCounter.count m.refcount kvId = 0 ∧ rec.pinned = false then
      m.writeState kvId .released
    else m

-- ------ Pinning and tiers

def flagged (m : KVManager) (rec : KVRegistryRecord) (flag : Bool) : KVManager :=
  { m with
    registry := m.registry.upsert { rec with pinned := flag }
    pool := if flag then m.pool.pin rec.kvId else m.pool.unpin rec.kvId }

def pin (m : KVManager) (kvId : KvId) : KVManager × Except MAKSError Unit :=
  match m.registry.get kvId with
  | none => (m, .error (.notFound kvId))
  | some rec => ((m.flagged rec true).writeState kvId .pinned, .ok ())

/-- The state `unpin` returns a block to. -/
def unpinTarget (rec : KVRegistryRecord) : KVState := if rec.readers = [] then .warmed else .shared

def unpin (m : KVManager) (kvId : KvId) : KVManager × Except MAKSError Unit :=
  match m.registry.get kvId with
  | none => (m, .error (.notFound kvId))
  | some rec => ((m.flagged rec false).writeState kvId (unpinTarget rec), .ok ())

/-- `warm(kv_id)`: a failed promotion is ignored; one that moves the block goes
through the migration engine, past `migrate` and the page pool. -/
def warm (m : KVManager) (kvId : KvId) : KVManager × Except MAKSError Unit :=
  match m.registry.get kvId with
  | none => (m, .error (.notFound kvId))
  | some rec =>
    let m := if rec.provider = .ram then m else (promote S m kvId).1
    let m := m.writeState kvId .warmed
    ({ m with registry := m.registry.setTier kvId .hot }, .ok ())

def cold (m : KVManager) (kvId : KvId) : KVManager × Except MAKSError Unit :=
  match m.registry.get kvId with
  | none => (m, .error (.notFound kvId))
  | some rec =>
    if rec.pinned then (m, .ok ())
    else ({ m with registry := m.registry.setTier kvId .cold }, .ok ())

/-- `load_payload(kv_id)`: bytes that do not decompress are returned as they are. -/
def loadPayload (m : KVManager) (kvId : KvId) : KVManager × Except MAKSError Bytes :=
  match m.registry.get kvId with
  | none => (m, .error (.notFound kvId))
  | some rec =>
    match m.backends.load S rec.provider kvId with
    | (b, .error e) => ({ m with backends := b }, .error e)
    | (b, .ok data) =>
      ({ m with backends := b },
        if rec.metadata.compression ≠ "" ∧ rec.metadata.compression ≠ "none" then
          .ok ((S.compression.decompress data).getD data)
        else .ok data)

-- ------ Cleanup

def expired (now : Time) (rec : KVRegistryRecord) : Bool :=
  decide (0 < rec.ttlS) && decide (rec.ttlS < (now : Int) - rec.createdAt) && !rec.pinned

def reclaimable (rec : KVRegistryRecord) : Bool :=
  decide (rec.state = .released) && decide (rec.refcount = 0) && !rec.pinned

def sweepOne (now : Time) (m : KVManager) (rec : KVRegistryRecord) : KVManager :=
  if expired now rec ∨ reclaimable rec then (delete S m rec.kvId true).1 else m

/-- The end of `cleanup`: counts of unknown ids, then zero counts. -/
def sweepCounts (m : KVManager) : KVManager :=
  let zombies := ReferenceCounter.zombies m.refcount (m.registry.listIds S.rank)
  { m with refcount := ReferenceCounter.cleanupZero (zombies.foldl Dict.erase m.refcount) }

def cleanup (m : KVManager) (now : Time) : KVManager :=
  sweepCounts S ((m.registry.allRecords S.rank).foldl (sweepOne S now) m)

-- ------ The DIPA surface

/-- `_find_by_session(key)`: the bound block, else the first record by id order
whose session or id is the key. -/
def findBySession (m : KVManager) (key : Name) : Option KVRegistryRecord :=
  match (m.handles.resolveSession key).bind m.registry.get with
  | some rec => some rec
  | none =>
    (m.registry.allRecords S.rank).find? fun rec =>
      decide (rec.sessionId = key) || decide (Name.kv rec.kvId = key)

def resized (rec : KVRegistryRecord) (data : Bytes) : KVRegistryRecord :=
  { rec with metadata := { rec.metadata with kvSize := data.length } }

/-- `store(key, data)`: an existing block is overwritten in place. -/
def store (m : KVManager) (key : Name) (data : Bytes) (env : Env) :
    KVManager × Except MAKSError Unit :=
  match packPayload S data with
  | .error e => (m, .error e)
  | .ok stored =>
    match m.findBySession S key with
    | some rec =>
      match m.backends.store S rec.provider rec.kvId stored with
      | (b, .error e) => ({ m with backends := b }, .error e)
      | (b, .ok ()) =>
        ({ m with backends := b, registry := m.registry.upsert (resized rec data) }, .ok ())
    | none =>
      match create S m { payload := data, sessionId := key, agentId := key, env := env } with
      | (m, .error e) => (m, .error e)
      | (m, .ok _) => (m, .ok ())

-- ------ Operations

/-- A call of the manager. -/
inductive Op where
  | create (req : CreateRequest)
  | store (key : Name) (data : Bytes) (env : Env)
  | share (kvId : KvId) (consumer : Name)
  | release (kvId : KvId) (agent : Name)
  | migrate (kvId : KvId) (target : Target)
  | delete (kvId : KvId) (force : Bool)
  | pin (kvId : KvId)
  | unpin (kvId : KvId)
  | warm (kvId : KvId)
  | cold (kvId : KvId)
  | cleanup (now : Time)
  | relievePressure (picked : List KvId)
  | pageOut (kvId : KvId)
  | pageIn (kvId : KvId)

/-- The state a call leaves, whether it returns or raises. -/
def step (m : KVManager) : Op → KVManager
  | .create req => (create S m req).1
  | .store key data env => (store S m key data env).1
  | .share kvId consumer => (share S m kvId consumer).1
  | .release kvId agent => m.release kvId agent
  | .migrate kvId target => (migrate S m kvId target).1
  | .delete kvId force => (delete S m kvId force).1
  | .pin kvId => (m.pin kvId).1
  | .unpin kvId => (m.unpin kvId).1
  | .warm kvId => (warm S m kvId).1
  | .cold kvId => (m.cold kvId).1
  | .cleanup now => cleanup S m now
  | .relievePressure picked => relievePressure S m picked
  | .pageOut kvId => (pageOut S m kvId).1
  | .pageIn kvId => (pageIn S m kvId).1

end KVManager

end Neuroswarm.Maks
