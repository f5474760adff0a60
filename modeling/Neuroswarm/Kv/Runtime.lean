import Neuroswarm.Kv.BlockManager
import Neuroswarm.Kv.Sharing

/-!
# KV memory runtime — the runtime manager

`runtime/kv/manager/runtime.py` with the checkpoint store
(`checkpoint/__init__.py`), the recovery engine (`recovery/__init__.py`) and the
access policy (`security/__init__.py`). The runtime manager is the only way into
the block manager, and it never calls `write_cow`.

A checkpoint file is the record it was written from: reading a JSON document
back gives the values that were dumped, and nothing here depends on the order in
which its keys were sorted.
-/

namespace Neuroswarm.Kv

-- ------ Access policy

structure Capability where
  token : String
  sessionId : String
  agentId : String
  canRead : Bool := true
  canWrite : Bool := false
  canShare : Bool := false
  expiresAt : Time := 0

/-- Capability-token based access control for shared KV blocks. -/
structure AccessPolicy where
  ttl : Time := 3600
  caps : Dict String Capability := Dict.empty

namespace AccessPolicy

/-- `token` is the `secrets.token_urlsafe(24)` of the call. -/
def issue (policy : AccessPolicy) (token sessionId agentId : String)
    (canWrite canShare : Bool) (now : Time) : Capability × AccessPolicy :=
  let cap : Capability :=
    { token, sessionId, agentId, canWrite, canShare, expiresAt := now + policy.ttl }
  (cap, { policy with caps := policy.caps.set token cap })

def revoke (policy : AccessPolicy) (token : String) : AccessPolicy :=
  { policy with caps := policy.caps.erase token }

/-- An expired capability is dropped when it is presented. -/
def authorize (policy : AccessPolicy) (token sessionId : String) (write share : Bool)
    (now : Time) : Bool × AccessPolicy :=
  match policy.caps.get? token with
  | none => (false, policy)
  | some cap =>
    if cap.expiresAt ≠ 0 ∧ cap.expiresAt < now then (false, policy.revoke token)
    else if cap.sessionId ≠ sessionId then (false, policy)
    else if write = true ∧ cap.canWrite = false then (false, policy)
    else if share = true ∧ cap.canShare = false then (false, policy)
    else (true, policy)

end AccessPolicy

-- ------ Checkpoints

/-- `meta.json`: what a checkpoint keeps of a session besides the payloads. -/
structure CheckpointMeta where
  session : SessionBlockTable
  logicalMap : Dict Nat StableId
  /-- One record for each logical block that has a physical one. -/
  physicalRecords : List PhysicalBlockRecord
  payloadIds : List StableId
  contentHashes : Dict StableId String
  checkpointedAt : Time

/-- `FileCheckpointStore`: for each session directory its `meta.json`, and its
payload files. -/
structure FileCheckpointStore where
  metas : Dict String CheckpointMeta := Dict.empty
  payloads : Dict (String × StableId) Bytes := Dict.empty

namespace FileCheckpointStore

/-- `_session_dir`: the directory below the root. Path separators become
underscores, so two sessions can share one; `.` is the root itself. -/
def sessionDir (sessionId : String) : String :=
  let safe := sessionId.map fun c => if c = '/' ∨ c.toNat = 92 then '_' else c
  if safe = "." then "" else safe

def saveMeta (store : FileCheckpointStore) (sessionId : String) (doc : CheckpointMeta) :
    FileCheckpointStore :=
  { store with metas := store.metas.set (sessionDir sessionId) doc }

def loadMeta (store : FileCheckpointStore) (sessionId : String) :
    Except KvError CheckpointMeta :=
  match store.metas.get? (sessionDir sessionId) with
  | some doc => .ok doc
  | none => .error (.unknownSession sessionId)

def savePayload (store : FileCheckpointStore) (sessionId : String) (blockId : StableId)
    (data : Bytes) : FileCheckpointStore :=
  { store with payloads := store.payloads.set (sessionDir sessionId, blockId) data }

def loadPayload (store : FileCheckpointStore) (sessionId : String) (blockId : StableId) :
    Except KvError Bytes :=
  match store.payloads.get? (sessionDir sessionId, blockId) with
  | some data => .ok data
  | none => .error (.missingCheckpointPayload sessionId blockId)

/-- `CheckpointEngine.checkpoint`: the payloads first, the metadata last. -/
def checkpoint (store : FileCheckpointStore) (sessionId : String) (doc : CheckpointMeta)
    (payloads : Dict StableId Bytes) : FileCheckpointStore :=
  (payloads.entries.foldl
    (fun store e => store.savePayload sessionId e.1 e.2) store).saveMeta sessionId doc

/-- The loop of `CheckpointEngine.restore` over `payload_ids`. -/
def loadPayloads (store : FileCheckpointStore) (sessionId : String) :
    List StableId → Dict StableId Bytes → Except KvError (Dict StableId Bytes)
  | [], payloads => .ok payloads
  | blockId :: rest, payloads =>
    match store.loadPayload sessionId blockId with
    | .error e => .error e
    | .ok data => loadPayloads store sessionId rest (payloads.set blockId data)

def restore (store : FileCheckpointStore) (sessionId : String) :
    Except KvError (CheckpointMeta × Dict StableId Bytes) :=
  match store.loadMeta sessionId with
  | .error e => .error e
  | .ok doc =>
    match store.loadPayloads sessionId doc.payloadIds Dict.empty with
    | .error e => .error e
    | .ok payloads => .ok (doc, payloads)

end FileCheckpointStore

-- ------ Recovery

namespace RecoveryEngine

def validatePayloads (sha : Sha256) (doc : CheckpointMeta) (payloads : Dict StableId Bytes) :
    List StableId :=
  (payloads.entries.filter fun e =>
    match doc.contentHashes.get? e.1 with
    | some want => decide (want ≠ "" ∧ contentHash sha e.2 ≠ want)
    | none => false).map Prod.fst

def mergeRecord (physical : PhysicalBlockTable) (rec : PhysicalBlockRecord) :
    PhysicalBlockTable :=
  match physical.get rec.physicalId with
  | none => (physical.register rec).2
  | some _ => ((physical.acquire rec.physicalId).map Prod.snd).getD physical

def rebuildTables (doc : CheckpointMeta) (physical : PhysicalBlockTable) :
    SessionBlockTable × LogicalBlockTable × PhysicalBlockTable :=
  (doc.session, ⟨doc.session.sessionId, doc.logicalMap⟩,
    doc.physicalRecords.foldl mergeRecord physical)

/-- Whether the payloads are intact; if they are, the tables are rebuilt. -/
def recoverFromCheckpoint (sha : Sha256) (doc : CheckpointMeta)
    (payloads : Dict StableId Bytes) (physical : PhysicalBlockTable) :
    Bool × PhysicalBlockTable :=
  if validatePayloads sha doc payloads ≠ [] then (false, physical)
  else (true, (rebuildTables doc physical).2.2)

end RecoveryEngine

-- ------ The manager

/-- Sole public controller of the KV memory runtime. -/
structure KVRuntimeManager where
  blockManager : KVBlockManager
  policy : TieringPolicy
  sharing : SharingBackend
  checkpoints : FileCheckpointStore
  security : AccessPolicy

structure CheckpointResult where
  sessionId : String
  blocks : Nat
  deriving DecidableEq, Repr

/-- What `checkpoint` gathers while it walks the blocks of a session. -/
structure Gathered where
  payloads : Dict StableId Bytes := Dict.empty
  contentHashes : Dict StableId String := Dict.empty
  physicalRecords : List PhysicalBlockRecord := []

namespace KVRuntimeManager

/-- `build_kv_runtime` over an empty checkpoint directory. -/
def new (cfg : KvConfig) (sharing : SharingBackend) : KVRuntimeManager where
  blockManager := .new cfg
  policy := {}
  sharing := sharing
  checkpoints := {}
  security := {}

/-! ### Sharing -/

/-- `share`; `created` tells whether a shared-memory segment could be created. -/
def share (σ : KVRuntimeManager) (physicalId : StableId) (consumerId sessionId : String)
    (token : Option String) (created : Bool) (now : Time) :
    Except KvError ShareToken × KVRuntimeManager :=
  -- an empty token or session id skips the authorization
  let asked := token.getD ""
  let (granted, security) :=
    if asked ≠ "" ∧ sessionId ≠ "" then σ.security.authorize asked sessionId false true now
    else (true, σ.security)
  let σ := { σ with security }
  if granted = false then (.error .shareNotAuthorized, σ)
  else
    match σ.blockManager.readPayload physicalId now with
    | (.error e, blockManager) => (.error e, { σ with blockManager })
    | (.ok data, blockManager) =>
      let stored := σ.sharing.store physicalId data created
      match stored.share physicalId consumerId with
      | .error e => (.error e, { σ with blockManager, sharing := stored })
      | .ok (shareToken, sharing) => (.ok shareToken, { σ with blockManager, sharing })

/-! ### Checkpoint -/

/-- The loop of `checkpoint` over the session's blocks. -/
def gatherBlocks (sha : Sha256) (now : Time) :
    List Block → Gathered → KVBlockManager → Except KvError Gathered × KVBlockManager
  | [], out, m => (.ok out, m)
  | block :: rest, out, m =>
    match block.physicalId with
    | none => gatherBlocks sha now rest out m
    | some pid =>
      match m.readPayload pid now with
      | (.error e, m) => (.error e, m)
      | (.ok data, m) =>
        gatherBlocks sha now rest
          { payloads := out.payloads.set pid data
            contentHashes := out.contentHashes.set pid (contentHash sha data)
            physicalRecords := out.physicalRecords ++ (m.physical.get pid).toList } m

def checkpoint (sha : Sha256) (σ : KVRuntimeManager) (sessionId : String) (now : Time) :
    Except KvError CheckpointResult × KVRuntimeManager :=
  match σ.blockManager.getSession sessionId, σ.blockManager.logicalTables.get? sessionId with
  | some session, some logical =>
    match gatherBlocks sha now session.blocks.values {} σ.blockManager with
    | (.error e, blockManager) => (.error e, { σ with blockManager })
    | (.ok out, blockManager) =>
      let doc : CheckpointMeta :=
        { session
          logicalMap := logical.map
          physicalRecords := out.physicalRecords
          payloadIds := out.payloads.keys
          contentHashes := out.contentHashes
          checkpointedAt := now }
      (.ok ⟨sessionId, out.payloads.size⟩, { σ with
        blockManager
        checkpoints := σ.checkpoints.checkpoint sessionId doc out.payloads })
  | _, _ => (.error (.unknownSession sessionId), σ)

/-! ### Restore -/

/-- Write one payload back to L1, under the key of its record if it has one. -/
def rehydrateBlock (m : KVBlockManager) (pid : StableId) (data : Bytes) :
    Except KvError Unit × KVBlockManager :=
  match m.physical.get pid with
  | none =>
    match m.providers.put .l1Ram pid data with
    | .error e => (.error e, m)
    | .ok providers => (.ok (), { m with providers })
  | some rec =>
    match m.providers.put .l1Ram rec.providerKey data with
    | .error e => (.error e, m)
    | .ok providers =>
      let physical := (m.physical.updateTier pid .l1Ram rec.providerKey).getD m.physical
      (.ok (), { m with providers, physical })

/-- The loop that rehydrates payloads into L1. -/
def rehydrate : List (StableId × Bytes) → KVBlockManager → Except KvError Unit × KVBlockManager
  | [], m => (.ok (), m)
  | (pid, data) :: rest, m =>
    match rehydrateBlock m pid data with
    | (.error e, m) => (.error e, m)
    | (.ok (), m) => rehydrate rest m

/-- The tables are rebuilt twice, once by the recovery engine and once here. -/
def restore (sha : Sha256) (σ : KVRuntimeManager) (sessionId : String) :
    Except KvError SessionBlockTable × KVRuntimeManager :=
  match σ.checkpoints.restore sessionId with
  | .error e => (.error e, σ)
  | .ok (doc, payloads) =>
    let (ok, physical) := RecoveryEngine.recoverFromCheckpoint sha doc payloads
      σ.blockManager.physical
    if ok = false then (.error (.corruptCheckpoint sessionId), σ)
    else
      let (session, logical, physical) := RecoveryEngine.rebuildTables doc physical
      let m := { σ.blockManager with physical }
      match m.providers.forTier .l1Ram with
      | .error e => (.error e, { σ with blockManager := m })
      | .ok _ =>
        match rehydrate payloads.entries m with
        | (.error e, m) => (.error e, { σ with blockManager := m })
        | (.ok (), m) =>
          (.ok session, { σ with blockManager := { m with
            sessions := m.sessions.set sessionId session
            logicalTables := m.logicalTables.set sessionId logical } })

def resume (sha : Sha256) (σ : KVRuntimeManager) (sessionId : String) :
    Except KvError SessionBlockTable × KVRuntimeManager :=
  match σ.blockManager.getSession sessionId with
  | some existing => (.ok existing, σ)
  | none => σ.restore sha sessionId

def readPayload (σ : KVRuntimeManager) (pid : StableId) (now : Time) : Except KvError Bytes :=
  (σ.blockManager.readPayload pid now).1

end KVRuntimeManager

-- ------ Operations

/-- One call on the runtime manager, its access policy or its sharing backend.
Jobs of the migration scheduler are `migrate` calls. -/
inductive RuntimeOp where
  | createSession (sessionId agentId : String) (now : Time)
  | allocate (req : AllocateRequest) (now : Time)
  | release (sessionId : String)
  | migrate (physicalId : StableId) (target : StorageTier) (now : Time)
  | lookupPrefix (blockPayloads : List Bytes)
  | reusePrefix (sessionId : String) (result : PrefixMatchResult) (agentId : String) (now : Time)
  | share (physicalId : StableId) (consumerId sessionId : String) (token : Option String)
      (created : Bool) (now : Time)
  | releaseShare (key : StableId) (consumerId : String)
  | checkpoint (sessionId : String) (now : Time)
  | restore (sessionId : String)
  | resume (sessionId : String)
  | issue (token sessionId agentId : String) (canWrite canShare : Bool) (now : Time)
  | revoke (token : String)

namespace KVRuntimeManager

def onBlocks (sha : Sha256) (σ : KVRuntimeManager) (op : Op) : KVRuntimeManager :=
  { σ with blockManager := Kv.step sha σ.blockManager op }

/-- The state a call leaves, whether it returns or raises. -/
def step (sha : Sha256) (σ : KVRuntimeManager) : RuntimeOp → KVRuntimeManager
  | .createSession sessionId agentId now => σ.onBlocks sha (.createSession sessionId agentId now)
  | .allocate req now => σ.onBlocks sha (.allocate req now)
  | .release sessionId => σ.onBlocks sha (.releaseSession sessionId)
  | .migrate pid target now => σ.onBlocks sha (.migrateBlock σ.policy pid target now)
  | .lookupPrefix blockPayloads => σ.onBlocks sha (.lookupPrefix blockPayloads)
  | .reusePrefix sessionId result agentId now =>
    σ.onBlocks sha (.reusePrefix sessionId result agentId now)
  | .share pid consumerId sessionId token created now =>
    (σ.share pid consumerId sessionId token created now).2
  | .releaseShare key consumerId => { σ with sharing := σ.sharing.release key consumerId }
  | .checkpoint sessionId now => (σ.checkpoint sha sessionId now).2
  | .restore sessionId => (σ.restore sha sessionId).2
  | .resume sessionId => (σ.resume sha sessionId).2
  | .issue token sessionId agentId canWrite canShare now =>
    { σ with security := (σ.security.issue token sessionId agentId canWrite canShare now).2 }
  | .revoke token => { σ with security := σ.security.revoke token }

end KVRuntimeManager

end Neuroswarm.Kv
