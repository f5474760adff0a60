import Neuroswarm.Checkpoints.Planner
import Neuroswarm.Checkpoints.Retention
import Neuroswarm.Lib.Run

/-!
# Checkpoint manager

`runtime/swarm/checkpoint/validator.py`, `cache.py` and `manager.py`. No entry of the
cache reaches its time to live; ids and times that the program generates come with the
operation.

* `CheckpointManager.step` — create, checkpoint, get, restore, apply_retention and
  plan_recovery. A call that raises leaves what it had changed.
* `reads_back_iff` — what `get` and `restore` return after any calls.
-/

namespace Neuroswarm.Checkpoints

variable {V : Type}

-- ------ Validation

namespace CheckpointValidator

def snapshotsHashed (c : Checkpoint V) : Bool :=
  (c.executionSnapshot.all (·.contentHash.isSome)) ∧
  (c.contextSnapshot.all (·.contentHash.isSome)) ∧
  (c.budgetSnapshot.all (·.contentHash.isSome)) ∧
  (c.metricsSnapshot.all (·.contentHash.isSome)) ∧
  (c.graphSnapshot.all (·.contentHash.isSome))

def validateCheckpoint (hashes : Hashes V) (c : Checkpoint V) : Except CheckpointError Unit :=
  if c.checkpointId = "" then
    .error (.validation "checkpoint_id required" "checkpoint_id")
  else if c.workflowId = "" then
    .error (.validation "workflow_id required" "workflow_id")
  else if c.executionId = "" then
    .error (.validation "execution_id required" "execution_id")
  else if ¬ c.verifyChecksum hashes then
    .error (.checksumMismatch c.checkpointId)
  else if ¬ snapshotsHashed c then
    .error (.validation "snapshot missing content_hash" "snapshot")
  else
    .ok ()

theorem ids_of_valid {hashes : Hashes V} {c : Checkpoint V}
    (h : validateCheckpoint hashes c = .ok ()) : c.executionId ≠ "" ∧ c.workflowId ≠ "" := by
  unfold validateCheckpoint at h
  split at h
  · cases h
  · split at h
    · cases h
    · next hWorkflow =>
      split at h
      · cases h
      · next hExecution => exact ⟨hExecution, hWorkflow⟩

end CheckpointValidator

-- ------ The cache

/-- Bounded cache for hot restore / planning paths. -/
structure CheckpointCache (V : Type) where
  maxEntries : Nat := 1024
  latestExecution : Dict String (Checkpoint V) := .empty
  latestWorkflow : Dict String (Checkpoint V) := .empty
  byId : Dict CheckpointId (Checkpoint V) := .empty
  recoveryPlans : Dict String RecoveryPlan := .empty
  validation : Dict CheckpointId Bool := .empty

namespace CheckpointCache

/-- Only the ids are evicted, oldest first; the two latest maps grow. -/
def putCheckpoint (cache : CheckpointCache V) (c : Checkpoint V) : CheckpointCache V :=
  { cache with
    byId := (cache.byId.set c.checkpointId c).trim cache.maxEntries
    latestExecution := cache.latestExecution.set c.executionId c
    latestWorkflow := cache.latestWorkflow.set c.workflowId c }

def getCheckpoint (cache : CheckpointCache V) (checkpointId : CheckpointId) :
    Option (Checkpoint V) :=
  cache.byId.get? checkpointId

def latestForExecution (cache : CheckpointCache V) (executionId : String) :
    Option (Checkpoint V) :=
  cache.latestExecution.get? executionId

def latestForWorkflow (cache : CheckpointCache V) (workflowId : String) :
    Option (Checkpoint V) :=
  cache.latestWorkflow.get? workflowId

def putRecoveryPlan (cache : CheckpointCache V) (key : String) (plan : RecoveryPlan) :
    CheckpointCache V :=
  { cache with recoveryPlans := (cache.recoveryPlans.set key plan).trim cache.maxEntries }

def getRecoveryPlan (cache : CheckpointCache V) (key : String) : Option RecoveryPlan :=
  cache.recoveryPlans.get? key

def putValidation (cache : CheckpointCache V) (checkpointId : CheckpointId) (ok : Bool) :
    CheckpointCache V :=
  { cache with validation := (cache.validation.set checkpointId ok).trim cache.maxEntries }

end CheckpointCache

-- ------ The manager

/-- Coordinator metadata for a new checkpoint; a missing id is the empty text. -/
structure CreateMetadata (V : Type) where
  executionId : String := ""
  workflowId : String := ""
  completedNodes : List String := []
  failedNodes : List String := []
  skippedNodes : List String := []
  snapshotRef : Option String := none
  checkpointLevel : Option String := none
  rest : V

/-- What `restore` returns; the blob of `snapRef`, if it can be loaded, is laid over it. -/
structure RestorePayload where
  checkpointId : CheckpointId
  workflowId : String
  executionId : String
  completedNodes : List String
  experienceReference : Option String
  snapRef : Option String
  deriving DecidableEq, Repr

/-- Fault-tolerance kernel: observes execution, creates recovery points, plans recovery. -/
structure CheckpointManager (V : Type) where
  repository : InMemoryRepository V := {}
  cache : CheckpointCache V := {}

namespace CheckpointManager

/-- Validate, persist, cache. -/
def checkpoint (hashes : Hashes V) (m : CheckpointManager V) (c : Checkpoint V)
    (recordedAt : Timestamp) : Except CheckpointError (Checkpoint V) × CheckpointManager V :=
  match CheckpointValidator.validateCheckpoint hashes c with
  | .error e => (.error e, m)
  | .ok _ =>
    match m.repository.append c recordedAt with
    | .error e => (.error e, m)
    | .ok repository =>
      (.ok c, { repository, cache := (m.cache.putCheckpoint c).putValidation c.checkpointId true })

def validateCreateMetadata (data : CreateMetadata V) : Except CheckpointError Unit :=
  if data.executionId = "" then
    .error (.validation "execution_id required" "execution_id")
  else if data.workflowId = "" then
    .error (.validation "workflow_id required" "workflow_id")
  else
    .ok ()

/-- The checkpoint that `create` builds, with its checksum; its parent is the latest one of
the execution in the repository. -/
def built (hashes : Hashes V) (m : CheckpointManager V) (data : CreateMetadata V)
    (newId : CheckpointId) (now : Timestamp) : Checkpoint V :=
  let snapshot : ExecutionSnapshot :=
    { executionId := data.executionId
      workflowId := data.workflowId
      completedNodes := data.completedNodes
      failedNodes := data.failedNodes
      skippedNodes := data.skippedNodes
      experienceSnapshotRef := data.snapshotRef
      executionJsonRef := data.snapshotRef }
  let c : Checkpoint V :=
    { checkpointId := newId
      workflowId := data.workflowId
      executionId := data.executionId
      parentCheckpoint :=
        (m.repository.latestForExecution data.executionId).map Checkpoint.checkpointId
      checkpointLevel := (data.checkpointLevel.bind CheckpointLevel.parse).getD .automatic
      timestamp := now
      executionSnapshot := some { snapshot with contentHash := some (hashes.execution snapshot) }
      experienceReference := data.snapshotRef
      checksum := ""
      rest := data.rest }
  { c with checksum := c.computeChecksum hashes }

def create (hashes : Hashes V) (m : CheckpointManager V) (data : CreateMetadata V)
    (newId : CheckpointId) (now recordedAt : Timestamp) :
    Except CheckpointError CheckpointId × CheckpointManager V :=
  match validateCreateMetadata data with
  | .error e => (.error e, m)
  | .ok _ =>
    let (result, m) := m.checkpoint hashes (m.built hashes data newId now) recordedAt
    (result.map Checkpoint.checkpointId, m)

def get (m : CheckpointManager V) (checkpointId : CheckpointId) :
    Except CheckpointError (Checkpoint V) × CheckpointManager V :=
  match m.cache.getCheckpoint checkpointId with
  | some c => (.ok c, m)
  | none =>
    match m.repository.get checkpointId with
    | .error e => (.error e, m)
    | .ok c => (.ok c, { m with cache := m.cache.putCheckpoint c })

/-- `cached or self.repository.get(checkpoint_id)` -/
def find (m : CheckpointManager V) (checkpointId : CheckpointId) :
    Except CheckpointError (Checkpoint V) :=
  match m.cache.getCheckpoint checkpointId with
  | some c => .ok c
  | none => m.repository.get checkpointId

def payload (c : Checkpoint V) : RestorePayload :=
  { checkpointId := c.checkpointId
    workflowId := c.workflowId
    executionId := c.executionId
    completedNodes := (c.executionSnapshot.map (·.completedNodes)).getD []
    experienceReference := c.experienceReference
    snapRef :=
      match c.executionSnapshot.bind (·.executionJsonRef) with
      | some ref => if ref ≠ "" then some ref else c.experienceReference
      | none => c.experienceReference }

def restore (hashes : Hashes V) (m : CheckpointManager V) (checkpointId : CheckpointId) :
    Except CheckpointError RestorePayload × CheckpointManager V :=
  match m.find checkpointId with
  | .error e => (.error e, m)
  | .ok c =>
    match CheckpointValidator.validateCheckpoint hashes c with
    | .error e => (.error e, m)
    | .ok _ =>
      (.ok (payload c),
        { m with cache := (m.cache.putCheckpoint c).putValidation checkpointId true })

def latest (m : CheckpointManager V) (executionId workflowId : Option String) :
    Except CheckpointError (Option (Checkpoint V)) :=
  if truthy executionId then
    match m.cache.latestForExecution (executionId.getD "") with
    | some c => .ok (some c)
    | none => .ok (m.repository.latestForExecution (executionId.getD ""))
  else if truthy workflowId then
    match m.cache.latestForWorkflow (workflowId.getD "") with
    | some c => .ok (some c)
    | none => .ok (m.repository.latestForWorkflow (workflowId.getD ""))
  else
    .error (.validation "execution_id or workflow_id required" "id")

def applyRetention (m : CheckpointManager V) (policy : RetentionPolicy) (now : Timestamp)
    (clock : CheckpointId → Timestamp) : CheckpointManager V :=
  { m with repository := (policy.apply now clock).after m.repository }

def flagText (flag : Bool) : String := if flag then "True" else "False"

def planKey (failure : FailureContext) (preferNode preferSubgraph : Bool) : String :=
  failure.executionId ++ ":" ++ failure.reason ++ ":" ++ flagText preferNode ++ ":" ++
    flagText preferSubgraph

def planRecovery (m : CheckpointManager V) (failure : FailureContext)
    (preferNode preferSubgraph : Bool) (planId : String) (now : Timestamp) :
    Except CheckpointError RecoveryPlan × CheckpointManager V :=
  let cacheKey := planKey failure preferNode preferSubgraph
  match m.cache.getRecoveryPlan cacheKey with
  | some plan => (.ok plan, m)
  | none =>
    match RecoveryPlanner.plan failure (m.repository.listByExecution failure.executionId false)
        preferNode preferSubgraph planId now with
    | .error e => (.error e, m)
    | .ok plan => (.ok plan, { m with cache := m.cache.putRecoveryPlan cacheKey plan })

end CheckpointManager

/-- The calls that change the manager. -/
inductive ManagerOp (V : Type) where
  | create (data : CreateMetadata V) (newId : CheckpointId) (now recordedAt : Timestamp)
  | checkpoint (c : Checkpoint V) (recordedAt : Timestamp)
  | get (checkpointId : CheckpointId)
  | restore (checkpointId : CheckpointId)
  | applyRetention (policy : RetentionPolicy) (now : Timestamp) (clock : CheckpointId → Timestamp)
  | planRecovery (failure : FailureContext) (preferNode preferSubgraph : Bool) (planId : String)
      (now : Timestamp)

namespace CheckpointManager

def step (hashes : Hashes V) (m : CheckpointManager V) : ManagerOp V → CheckpointManager V
  | .create data newId now recordedAt => (m.create hashes data newId now recordedAt).2
  | .checkpoint c recordedAt => (m.checkpoint hashes c recordedAt).2
  | .get checkpointId => (m.get checkpointId).2
  | .restore checkpointId => (m.restore hashes checkpointId).2
  | .applyRetention policy now clock => m.applyRetention policy now clock
  | .planRecovery failure preferNode preferSubgraph planId now =>
    (m.planRecovery failure preferNode preferSubgraph planId now).2

-- ------ What a call does

/-- `checkpoint` takes the checkpoint: it is valid and its id is new. -/
def Accepts (hashes : Hashes V) (m : CheckpointManager V) (c : Checkpoint V) : Prop :=
  CheckpointValidator.validateCheckpoint hashes c = .ok () ∧
    m.repository.lookup c.checkpointId = none

/-- The checkpoint that a call hands to the repository. -/
def offered (hashes : Hashes V) (m : CheckpointManager V) : ManagerOp V → Option (Checkpoint V)
  | .create data newId now _ =>
    if data.executionId ≠ "" ∧ data.workflowId ≠ "" then some (m.built hashes data newId now)
    else none
  | .checkpoint c _ => some c
  | _ => none

/-- The stored checkpoint that a call puts into the cache again. -/
def recalled (hashes : Hashes V) (m : CheckpointManager V) : ManagerOp V → Option (Checkpoint V)
  | .get checkpointId =>
    match m.cache.getCheckpoint checkpointId with
    | some _ => none
    | none => m.repository.lookup checkpointId
  | .restore checkpointId =>
    match m.find checkpointId with
    | .ok c =>
      match CheckpointValidator.validateCheckpoint hashes c with
      | .ok _ => some c
      | .error _ => none
    | .error _ => none
  | _ => none

variable {hashes : Hashes V} {m : CheckpointManager V} {c : Checkpoint V}

theorem checkpoint_of_accepts (h : m.Accepts hashes c) (recordedAt : Timestamp) :
    m.checkpoint hashes c recordedAt =
      (.ok c, { repository := m.repository.insert c recordedAt,
                cache := (m.cache.putCheckpoint c).putValidation c.checkpointId true }) := by
  unfold checkpoint
  rw [h.1, InMemoryRepository.append_of_none h.2]

theorem checkpoint_of_not_accepts (h : ¬ m.Accepts hashes c) (recordedAt : Timestamp) :
    (m.checkpoint hashes c recordedAt).2 = m := by
  unfold checkpoint
  cases hValid : CheckpointValidator.validateCheckpoint hashes c with
  | error e => rfl
  | ok _ =>
    cases hLookup : m.repository.lookup c.checkpointId with
    | none => exact absurd ⟨hValid, hLookup⟩ h
    | some d => rw [InMemoryRepository.append_of_some hLookup]

/-- Nothing of the repository or of the latest maps changes. -/
structure Quiet (m m' : CheckpointManager V) : Prop where
  repository : m'.repository = m.repository
  latestExecution : m'.cache.latestExecution = m.cache.latestExecution
  latestWorkflow : m'.cache.latestWorkflow = m.cache.latestWorkflow

theorem Quiet.refl (m : CheckpointManager V) : Quiet m m := ⟨rfl, rfl, rfl⟩

/-- The checkpoint is written to both latest maps. -/
structure Puts (c : Checkpoint V) (m m' : CheckpointManager V) : Prop where
  latestExecution : m'.cache.latestExecution = m.cache.latestExecution.set c.executionId c
  latestWorkflow : m'.cache.latestWorkflow = m.cache.latestWorkflow.set c.workflowId c

/-- What one call does to the repository and the latest maps. -/
inductive Effect (hashes : Hashes V) (m : CheckpointManager V) (op : ManagerOp V) : Prop where
  | stored (c : Checkpoint V) (now : Timestamp) (hOffered : m.offered hashes op = some c)
      (hAccepts : m.Accepts hashes c)
      (hRepository : (m.step hashes op).repository = m.repository.insert c now)
      (hPuts : Puts c m (m.step hashes op)) (hRecalled : m.recalled hashes op = none)
  | recalled (c : Checkpoint V) (hRecalled : m.recalled hashes op = some c)
      (hRepository : (m.step hashes op).repository = m.repository)
      (hPuts : Puts c m (m.step hashes op)) (hOffered : m.offered hashes op = none)
  | retained (policy : RetentionPolicy) (now : Timestamp) (clock : CheckpointId → Timestamp)
      (hOp : op = .applyRetention policy now clock)
  | quiet (hQuiet : Quiet m (m.step hashes op))
      (hOffered : ∀ c, m.offered hashes op = some c → ¬ m.Accepts hashes c)
      (hRecalled : m.recalled hashes op = none)
      (hOp : ∀ policy now clock, op ≠ .applyRetention policy now clock)

theorem effect_of_offered {op : ManagerOp V} (hOffered : m.offered hashes op = some c)
    (recordedAt : Timestamp) (hStep : m.step hashes op = (m.checkpoint hashes c recordedAt).2)
    (hRecalled : m.recalled hashes op = none)
    (hOp : ∀ policy now clock, op ≠ .applyRetention policy now clock) : Effect hashes m op := by
  by_cases hAccepts : m.Accepts hashes c
  · rw [checkpoint_of_accepts hAccepts] at hStep
    exact .stored c recordedAt hOffered hAccepts (by rw [hStep])
      ⟨by rw [hStep]; rfl, by rw [hStep]; rfl⟩ hRecalled
  · rw [checkpoint_of_not_accepts hAccepts] at hStep
    refine .quiet (by rw [hStep]; exact .refl m) (fun d hd => ?_) hRecalled hOp
    rw [hOffered] at hd
    cases hd
    exact hAccepts

theorem effect_of_unchanged {op : ManagerOp V} (hStep : m.step hashes op = m)
    (hOffered : m.offered hashes op = none) (hRecalled : m.recalled hashes op = none)
    (hOp : ∀ policy now clock, op ≠ .applyRetention policy now clock) : Effect hashes m op := by
  refine .quiet ?_ (fun c hc => ?_) hRecalled hOp
  · rw [hStep]
    exact .refl m
  · rw [hOffered] at hc
    cases hc

theorem effect_create (hashes : Hashes V) (m : CheckpointManager V) (data : CreateMetadata V)
    (newId : CheckpointId) (now recordedAt : Timestamp) :
    Effect hashes m (.create data newId now recordedAt) := by
  by_cases hIds : data.executionId ≠ "" ∧ data.workflowId ≠ ""
  · refine effect_of_offered (if_pos hIds) recordedAt ?_ rfl fun _ _ _ h => nomatch h
    have hValid : validateCreateMetadata data = .ok () := by
      rw [validateCreateMetadata, if_neg hIds.1, if_neg hIds.2]
    simp only [step, create, hValid]
  · have hInvalid : ∃ e, validateCreateMetadata data = .error e := by
      unfold validateCreateMetadata
      by_cases hExecution : data.executionId = ""
      · exact ⟨_, if_pos hExecution⟩
      · rw [if_neg hExecution]
        exact ⟨_, if_pos (by_contra fun hWorkflow => hIds ⟨hExecution, hWorkflow⟩)⟩
    obtain ⟨e, he⟩ := hInvalid
    refine effect_of_unchanged ?_ (if_neg hIds) rfl fun _ _ _ h => nomatch h
    simp only [step, create, he]

theorem effect_get (hashes : Hashes V) (m : CheckpointManager V) (checkpointId : CheckpointId) :
    Effect hashes m (.get checkpointId) := by
  cases hCached : m.cache.getCheckpoint checkpointId with
  | some c =>
    refine effect_of_unchanged ?_ rfl ?_ fun _ _ _ h => nomatch h
    · simp only [step, get, hCached]
    · simp only [recalled, hCached]
  | none =>
    cases hLookup : m.repository.lookup checkpointId with
    | none =>
      refine effect_of_unchanged ?_ rfl ?_ fun _ _ _ h => nomatch h
      · simp only [step, get, hCached, InMemoryRepository.get, hLookup]
      · simp only [recalled, hCached, hLookup]
    | some c =>
      have hStep : m.step hashes (.get checkpointId) =
          { m with cache := m.cache.putCheckpoint c } := by
        simp only [step, get, hCached, InMemoryRepository.get, hLookup]
      refine .recalled c ?_ (by rw [hStep]) ⟨by rw [hStep]; rfl, by rw [hStep]; rfl⟩ rfl
      simp only [recalled, hCached, hLookup]

theorem effect_restore (hashes : Hashes V) (m : CheckpointManager V)
    (checkpointId : CheckpointId) : Effect hashes m (.restore checkpointId) := by
  cases hFind : m.find checkpointId with
  | error e =>
    refine effect_of_unchanged ?_ rfl ?_ fun _ _ _ h => nomatch h
    · simp only [step, restore, hFind]
    · simp only [recalled, hFind]
  | ok c =>
    cases hValid : CheckpointValidator.validateCheckpoint hashes c with
    | error e =>
      refine effect_of_unchanged ?_ rfl ?_ fun _ _ _ h => nomatch h
      · simp only [step, restore, hFind, hValid]
      · simp only [recalled, hFind, hValid]
    | ok _ =>
      refine .recalled c ?_ ?_ ⟨?_, ?_⟩ rfl
      · simp only [recalled, hFind, hValid]
      · simp only [step, restore, hFind, hValid]
      · simp only [step, restore, hFind, hValid]
        rfl
      · simp only [step, restore, hFind, hValid]
        rfl

theorem effect_planRecovery (hashes : Hashes V) (m : CheckpointManager V)
    (failure : FailureContext) (preferNode preferSubgraph : Bool) (planId : String)
    (now : Timestamp) :
    Effect hashes m (.planRecovery failure preferNode preferSubgraph planId now) := by
  refine .quiet ?_ (fun _ h => nomatch h) rfl fun _ _ _ h => nomatch h
  unfold step planRecovery
  dsimp only
  split
  · exact .refl m
  · split
    · exact .refl m
    · exact ⟨rfl, rfl, rfl⟩

theorem step_effect (hashes : Hashes V) (m : CheckpointManager V) (op : ManagerOp V) :
    Effect hashes m op := by
  cases op with
  | create data newId now recordedAt => exact m.effect_create hashes data newId now recordedAt
  | checkpoint c recordedAt =>
    exact effect_of_offered rfl recordedAt rfl rfl fun _ _ _ h => nomatch h
  | get checkpointId => exact m.effect_get hashes checkpointId
  | restore checkpointId => exact m.effect_restore hashes checkpointId
  | applyRetention policy now clock => exact .retained policy now clock rfl
  | planRecovery failure preferNode preferSubgraph planId now =>
    exact m.effect_planRecovery hashes failure preferNode preferSubgraph planId now

theorem lookup_step {id : CheckpointId} (h : m.repository.lookup id = some c) (op : ManagerOp V) :
    (m.step hashes op).repository.lookup id = some c := by
  cases m.step_effect hashes op with
  | stored d now hOffered hAccepts hRepository hPuts hRecalled =>
    rw [hRepository]
    exact InMemoryRepository.lookup_insert hAccepts.2 h
  | recalled d hRecalled hRepository hPuts hOffered => rw [hRepository, h]
  | retained policy now clock hOp =>
    subst hOp
    exact ((Thins.apply policy now clock m.repository).2 id).trans h
  | quiet hQuiet hOffered hRecalled hOp => rw [hQuiet.repository, h]

theorem recoveryPlans_step {op : ManagerOp V}
    (hOp : ∀ f preferNode preferSubgraph planId now,
      op ≠ .planRecovery f preferNode preferSubgraph planId now) :
    (m.step hashes op).cache.recoveryPlans = m.cache.recoveryPlans := by
  have hCheckpoint : ∀ c recordedAt,
      (m.checkpoint hashes c recordedAt).2.cache.recoveryPlans = m.cache.recoveryPlans := by
    intro c recordedAt
    by_cases hAccepts : m.Accepts hashes c
    · rw [checkpoint_of_accepts hAccepts]
      rfl
    · rw [checkpoint_of_not_accepts hAccepts]
  cases op with
  | create data newId now recordedAt =>
    unfold step create
    dsimp only
    split
    · rfl
    · exact hCheckpoint _ _
  | checkpoint c recordedAt => exact hCheckpoint c recordedAt
  | get checkpointId =>
    unfold step get
    dsimp only
    split
    · rfl
    · split
      · rfl
      · rfl
  | restore checkpointId =>
    unfold step restore
    dsimp only
    split
    · rfl
    · split
      · rfl
      · rfl
  | applyRetention policy now clock => rfl
  | planRecovery f preferNode preferSubgraph planId now => exact absurd rfl (hOp _ _ _ _ _)

-- ------ What can be read back

/-- Some call of a run from `m` handed the checkpoint to the repository, which took it. -/
def Took (hashes : Hashes V) (m : CheckpointManager V) (ops : List (ManagerOp V))
    (c : Checkpoint V) : Prop :=
  ∃ before op after, ops = before ++ op :: after ∧
    (Run.exec (step hashes) m before).offered hashes op = some c ∧
    (Run.exec (step hashes) m before).Accepts hashes c

/-- The cache holds nothing but checkpoints of the repository, and these carry their ids. -/
structure Filed (m : CheckpointManager V) : Prop where
  cached : ∀ id c, m.cache.getCheckpoint id = some c → m.repository.lookup id = some c
  keyed : ∀ id c, m.repository.lookup id = some c → c.checkpointId = id

theorem Filed.put (h : m.Filed) (hc : m.repository.lookup c.checkpointId = some c)
    {id : CheckpointId} {d : Checkpoint V}
    (hd : (m.cache.putCheckpoint c).getCheckpoint id = some d) :
    m.repository.lookup id = some d := by
  have hSet := Dict.get?_trim_of_some hd
  rw [Dict.get?_set] at hSet
  split at hSet
  · next hId =>
    cases hSet
    rw [hId, hc]
  · exact h.cached id d hSet

theorem Filed.find_eq (h : m.Filed) (id : CheckpointId) : m.find id = m.repository.get id := by
  unfold find
  cases hCached : m.cache.getCheckpoint id with
  | none => rfl
  | some c => rw [InMemoryRepository.get, h.cached id c hCached]

theorem Filed.fst_get (h : m.Filed) (id : CheckpointId) :
    (m.get id).1 = m.repository.get id := by
  rw [← h.find_eq]
  unfold get find
  cases m.cache.getCheckpoint id with
  | some c => rfl
  | none => cases m.repository.get id <;> rfl

theorem get_eq_ok_iff {r : InMemoryRepository V} {id : CheckpointId} :
    r.get id = .ok c ↔ r.lookup id = some c := by
  unfold InMemoryRepository.get
  cases r.lookup id with
  | none => exact iff_of_false (fun h => nomatch h) fun h => nomatch h
  | some d => rw [Except.ok.injEq, Option.some.injEq]

theorem lookup_insert_self (now : Timestamp) :
    (m.repository.insert c now).lookup c.checkpointId = some c :=
  InMemoryRepository.lookup_of_active (Dict.get?_set_self _ _ _)

theorem lookup_of_insert {now : Timestamp} {id : CheckpointId} {d : Checkpoint V}
    (hd : (m.repository.insert c now).lookup id = some d) :
    m.repository.lookup id = some d ∨ d = c ∧ c.checkpointId = id := by
  by_cases hId : id = c.checkpointId
  · rw [hId, lookup_insert_self] at hd
    cases hd
    exact .inr ⟨rfl, hId.symm⟩
  · unfold InMemoryRepository.lookup InMemoryRepository.insert at hd
    dsimp only at hd
    rw [Dict.get?_set_ne _ _ hId] at hd
    exact .inl hd

theorem lookup_of_step {op : ManagerOp V} {id : CheckpointId} {d : Checkpoint V}
    (hd : (m.step hashes op).repository.lookup id = some d) :
    m.repository.lookup id = some d ∨
      m.offered hashes op = some d ∧ m.Accepts hashes d ∧ d.checkpointId = id := by
  cases m.step_effect hashes op with
  | stored c now hOffered hAccepts hRepository hPuts hRecalled =>
    rw [hRepository] at hd
    obtain hd | ⟨rfl, hId⟩ := lookup_of_insert hd
    · exact .inl hd
    · exact .inr ⟨hOffered, hAccepts, hId⟩
  | recalled c hRecalled hRepository hPuts hOffered => exact .inl (hRepository ▸ hd)
  | retained policy now clock hOp =>
    subst hOp
    exact .inl (((Thins.apply policy now clock m.repository).2 id).symm.trans hd)
  | quiet hQuiet hOffered hRecalled hOp => exact .inl (hQuiet.repository ▸ hd)

theorem Filed.checkpoint (h : m.Filed) (hashes : Hashes V) (c : Checkpoint V)
    (recordedAt : Timestamp) : (m.checkpoint hashes c recordedAt).2.Filed := by
  by_cases hAccepts : m.Accepts hashes c
  · rw [checkpoint_of_accepts hAccepts]
    have hInsert : Filed { m with repository := m.repository.insert c recordedAt } :=
      { cached := fun id d hd => InMemoryRepository.lookup_insert hAccepts.2 (h.cached id d hd)
        keyed := fun id d hd => by
          obtain hd | ⟨rfl, hId⟩ := lookup_of_insert hd
          · exact h.keyed id d hd
          · exact hId }
    exact ⟨fun id d hd => hInsert.put (lookup_insert_self recordedAt) hd, hInsert.keyed⟩
  · rw [checkpoint_of_not_accepts hAccepts]
    exact h

theorem Filed.step (h : m.Filed) (hashes : Hashes V) (op : ManagerOp V) :
    (m.step hashes op).Filed := by
  cases op with
  | create data newId now recordedAt =>
    unfold CheckpointManager.step create
    dsimp only
    split
    · exact h
    · exact h.checkpoint hashes _ recordedAt
  | checkpoint c recordedAt => exact h.checkpoint hashes c recordedAt
  | get id =>
    unfold CheckpointManager.step CheckpointManager.get
    dsimp only
    split
    · exact h
    · split
      · exact h
      · next c hGet =>
        have hLookup := get_eq_ok_iff.mp hGet
        have hSelf := (h.keyed id c hLookup).symm ▸ hLookup
        exact ⟨fun _ _ => h.put hSelf, h.keyed⟩
  | restore id =>
    unfold CheckpointManager.step CheckpointManager.restore
    dsimp only
    split
    · exact h
    · next c hFind =>
      have hLookup := get_eq_ok_iff.mp (h.find_eq id ▸ hFind)
      have hSelf := (h.keyed id c hLookup).symm ▸ hLookup
      split
      · exact h
      · exact ⟨fun _ _ => h.put hSelf, h.keyed⟩
  | applyRetention policy now clock =>
    -- an archived checkpoint is still found
    have hLookup := (Thins.apply policy now clock m.repository).2
    exact ⟨fun id c hc => (hLookup id).trans (h.cached id c hc),
      fun id c hc => h.keyed id c ((hLookup id).symm.trans hc)⟩
  | planRecovery failure preferNode preferSubgraph planId now =>
    unfold CheckpointManager.step planRecovery
    dsimp only
    split
    · exact h
    · split
      · exact h
      · exact ⟨h.cached, h.keyed⟩

theorem filed_exec (hashes : Hashes V) (ops : List (ManagerOp V)) :
    (Run.exec (step hashes) ({} : CheckpointManager V) ops).Filed :=
  Run.exec_of_invariant (I := Filed) (fun _ op h => h.step hashes op)
    ⟨fun _ _ h => (by cases h), fun _ _ h => (by cases h)⟩ ops

theorem lookup_exec (hashes : Hashes V) (h : m.repository.lookup c.checkpointId = some c)
    (ops : List (ManagerOp V)) :
    (Run.exec (step hashes) m ops).repository.lookup c.checkpointId = some c :=
  Run.exec_of_invariant (I := fun m : CheckpointManager V => m.repository.lookup c.checkpointId = some c)
    (fun _ op hLookup => lookup_step hLookup op) h ops

theorem lookup_exec_iff (hashes : Hashes V) (ops : List (ManagerOp V)) {id : CheckpointId} :
    (Run.exec (step hashes) {} ops).repository.lookup id = some c ↔
      Took hashes {} ops c ∧ c.checkpointId = id := by
  constructor
  · induction ops using List.reverseRecOn with
    | nil => intro h; cases h
    | append_singleton ops op ih =>
      intro h
      rw [Run.exec_append] at h
      obtain h | ⟨hOffered, hAccepts, hId⟩ := lookup_of_step h
      · obtain ⟨⟨before, op', after, rfl, hTook⟩, hId⟩ := ih h
        exact ⟨⟨before, op', after ++ [op], by simp, hTook⟩, hId⟩
      · exact ⟨⟨ops, op, [], rfl, hOffered, hAccepts⟩, hId⟩
  · rintro ⟨⟨before, op, after, rfl, hOffered, hAccepts⟩, rfl⟩
    rw [Run.exec_append]
    refine lookup_exec hashes ?_ after
    cases step_effect hashes (Run.exec (step hashes) {} before) op with
    | stored d now hd _ hRepository _ _ =>
      cases hOffered.symm.trans hd
      rw [hRepository]
      exact lookup_insert_self now
    | recalled d _ _ _ hNone =>
      rw [hOffered] at hNone
      cases hNone
    | retained policy now clock hOp =>
      subst hOp
      cases hOffered
    | quiet _ hRefused _ _ => exact absurd hAccepts (hRefused c hOffered)

/-- What `get` and `restore` return after any calls, cached or not: the checkpoint taken under
the id, whatever retention has archived since. -/
theorem reads_back_iff (hashes : Hashes V) (ops : List (ManagerOp V)) (id : CheckpointId) :
    (∀ c, ((Run.exec (step hashes) {} ops).get id).1 = .ok c ↔
      Took hashes {} ops c ∧ c.checkpointId = id) ∧
    (∀ p, ((Run.exec (step hashes) {} ops).restore hashes id).1 = .ok p ↔
      ∃ c, (Took hashes {} ops c ∧ c.checkpointId = id) ∧ p = payload c) := by
  have hFiled := filed_exec hashes ops
  refine ⟨fun c => ?_, fun p => ?_⟩
  · rw [hFiled.fst_get, get_eq_ok_iff, lookup_exec_iff]
  · unfold restore
    rw [hFiled.find_eq]
    cases hGet : (Run.exec (step hashes) {} ops).repository.get id with
    | error e =>
      refine iff_of_false (fun h => nomatch h) ?_
      rintro ⟨c, hTook, -⟩
      rw [get_eq_ok_iff.mpr ((lookup_exec_iff hashes ops).mpr hTook)] at hGet
      cases hGet
    | ok c =>
      have hTook := (lookup_exec_iff hashes ops).mp (get_eq_ok_iff.mp hGet)
      have hValid : CheckpointValidator.validateCheckpoint hashes c = .ok () := by
        obtain ⟨⟨_, _, _, _, _, hAccepts⟩, _⟩ := hTook
        exact hAccepts.1
      simp only [hValid, Except.ok.injEq]
      constructor
      · rintro rfl
        exact ⟨c, hTook, rfl⟩
      · rintro ⟨d, hTook', rfl⟩
        have hd := get_eq_ok_iff.mpr ((lookup_exec_iff hashes ops).mpr hTook')
        cases hGet.symm.trans hd
        rfl

end CheckpointManager

end Neuroswarm.Checkpoints
