import Mathlib.Algebra.Order.Ring.Rat
import Mathlib.Data.List.DropRight
import Mathlib.Tactic.Common
import Neuroswarm.Armcascade.Types

/-!
# Agent registry — agent records and their validation

An agent record has the fields that the registry, the selector and the scoring read.
Two validations exist: the one of the model, run when a record is built from plain
data (`modelValidate`), and the one of the registry (`validateAgent`). A copy of a
record is not validated.
-/

/-!
## Lifecycle states and legal transitions
-/

namespace Neuroswarm.Agents

inductive LifecycleState where
  | created
  | registered
  | loaded
  | ready
  | busy
  | paused
  | disabled
  | failed
  | restarting
  | retired
deriving DecidableEq, Repr

namespace LifecycleState

def value : LifecycleState → String
  | created => "created"
  | registered => "registered"
  | loaded => "loaded"
  | ready => "ready"
  | busy => "busy"
  | paused => "paused"
  | disabled => "disabled"
  | failed => "failed"
  | restarting => "restarting"
  | retired => "retired"

def transitions : LifecycleState → List LifecycleState
  | created => [registered, retired]
  | registered => [loaded, disabled, retired, failed]
  | loaded => [ready, disabled, failed, retired]
  | ready => [busy, paused, disabled, failed, retired]
  | busy => [ready, paused, failed, disabled]
  | paused => [ready, disabled, retired, failed]
  | disabled => [ready, loaded, retired, restarting]
  | failed => [restarting, disabled, retired]
  | restarting => [loaded, ready, failed, retired]
  | retired => []

def CanTransition (current target : LifecycleState) : Prop :=
  current = target ∨ target ∈ current.transitions

instance (current target : LifecycleState) : Decidable (CanTransition current target) :=
  inferInstanceAs (Decidable (_ ∨ _))

/-- Whether an agent may be considered by the selector. -/
def isSelectable (state : LifecycleState) : Bool :=
  state = ready || state = busy

/-- The status under which `register` stores an agent. -/
def onRegister (status : LifecycleState) (autoReady : Bool) : LifecycleState :=
  if autoReady && (status = created || status = registered || status = loaded) then ready
  else if status = created then registered
  else status

@[simp] theorem CanTransition.refl (state : LifecycleState) : CanTransition state state :=
  .inl rfl

theorem eq_of_canTransition_retired {target : LifecycleState} (h : CanTransition retired target) :
    target = retired := by
  rcases h with hEq | hMem
  · exact hEq.symm
  · simp [transitions] at hMem

end LifecycleState

end Neuroswarm.Agents

/-!
## Health records

Scores, rates and averages are rationals; the timestamps are left out.
-/

namespace Neuroswarm.Agents

def clamp (value lo hi : ℚ) : ℚ := max lo (min hi value)

structure HealthRecord where
  score : ℚ := 1
  availability : ℚ := 1
  failureCount : Nat := 0
  successCount : Nat := 0
  successRate : ℚ := 1
  averageLatencyMs : ℚ := 0
  averageCostUsd : ℚ := 0
  consecutiveFailures : Nat := 0
  statusMessage : String := "ok"
deriving DecidableEq

/-- `_ema`, with the smoothing factor of the callers. -/
def ema (prev sample : ℚ) (n : Nat) : ℚ :=
  if n ≤ 1 then sample
  else
    let a : ℚ := 2 / (n + 1)
    (1 - a) * prev + a * sample

namespace HealthRecord

def recordSuccess (h : HealthRecord) (latencyMs costUsd : ℚ) : HealthRecord :=
  let sc := h.successCount + 1
  let total := sc + h.failureCount
  let rate : ℚ := if total ≠ 0 then sc / total else 1
  { h with
    successCount := sc
    successRate := rate
    averageLatencyMs := ema h.averageLatencyMs latencyMs sc
    averageCostUsd := ema h.averageCostUsd costUsd sc
    consecutiveFailures := 0
    score := clamp (1 / 2 * rate + 1 / 2 * h.availability) 0 1
    statusMessage := "ok" }

def recordFailure (h : HealthRecord) (message : String) : HealthRecord :=
  let fc := h.failureCount + 1
  let total := h.successCount + fc
  let rate : ℚ := if total ≠ 0 then h.successCount / total else 0
  let avail := clamp (h.availability * (95 / 100)) 0 1
  { h with
    failureCount := fc
    successRate := rate
    consecutiveFailures := h.consecutiveFailures + 1
    availability := avail
    score := clamp (1 / 2 * rate + 1 / 2 * avail) 0 1
    statusMessage := message }

def touchHeartbeat (h : HealthRecord) : HealthRecord :=
  let avail := clamp (min 1 (h.availability + 5 / 100)) 0 1
  { h with
    availability := avail
    score := clamp (1 / 2 * h.successRate + 1 / 2 * avail) 0 1 }

def validated (h : HealthRecord) : HealthRecord :=
  { h with
    score := clamp h.score 0 1
    availability := clamp h.availability 0 1
    successRate := clamp h.successRate 0 1 }

def counts (h : HealthRecord) : Nat × Nat := (h.successCount, h.failureCount)

@[simp] theorem counts_validated (h : HealthRecord) : h.validated.counts = h.counts := rfl

end HealthRecord

end Neuroswarm.Agents

/-! ## Agent records and their validation -/

namespace Neuroswarm.Agents

open Armcascade (isSpace)

def strip (s : String) : String :=
  .ofList ((s.toList.dropWhile isSpace).rdropWhile isSpace)

/-- `s.lower()`, on ASCII text. -/
def lower (s : String) : String := s.toLower

inductive RegistryError where
  | validation (field : String)
  | duplicate (field : String)
  | notFound (key : String)
  | frozen (agentId : String)
  | lifecycle (agentId : String) (current target : LifecycleState)
  | plugin
  /-- the model rejects plain data -/
  | model
deriving DecidableEq

structure AgentCapability where
  supportedTasks : List String := []
  supportedTools : List String := []
  supportedModels : List String := []
  supportedBackends : List String := []
  supportedQuantizations : List String := []
  maxContext : Int := 8192
  maxTokens : Int := 4096
  preferredModels : List String := []
  preferredTools : List String := []
deriving DecidableEq

structure Agent where
  id : String
  name : String
  nameSpace : String := "nexus.agents"
  version : String := "1.0.0"
  agentType : String := "generic"
  category : String := "general"
  status : LifecycleState := .created
  priority : Int := 50
  tags : List String := []
  /-- the items, each value as printed -/
  configuration : List (String × String) := []
  /-- `resource_requirements.memory_bytes` -/
  memoryBytes : Int := 0
  capabilities : AgentCapability := {}
  supportedTasks : List String := []
  supportedTools : List String := []
  supportedModels : List String := []
  supportedBackends : List String := []
  supportedQuantizations : List String := []
  estimatedLatency : ℚ := 0
  estimatedCost : ℚ := 0
  estimatedTokens : ℚ := 0
  estimatedMemory : Int := 0
  confidenceScore : ℚ := 8 / 10
  health : HealthRecord := {}
  frozen : Bool := false
deriving DecidableEq

inductive Field where
  | id (v : String)
  | name (v : String)
  | nameSpace (v : String)
  | version (v : String)
  | agentType (v : String)
  | category (v : String)
  | status (v : LifecycleState)
  | priority (v : Int)
  | tags (v : List String)
  | configuration (v : List (String × String))
  | memoryBytes (v : Int)
  | capabilities (v : AgentCapability)
  | supportedTasks (v : List String)
  | supportedTools (v : List String)
  | supportedModels (v : List String)
  | supportedBackends (v : List String)
  | supportedQuantizations (v : List String)
  | estimatedLatency (v : ℚ)
  | estimatedCost (v : ℚ)
  | estimatedTokens (v : ℚ)
  | estimatedMemory (v : Int)
  | confidenceScore (v : ℚ)
  | health (v : HealthRecord)
  | frozen (v : Bool)

def Field.isHealth : Field → Bool
  | .health _ => true
  | _ => false

/-- `supported or capabilities.supported` -/
def orElse (supported fallback : List String) : List String :=
  if supported = [] then fallback else supported

namespace Agent

def effectiveTasks (a : Agent) : List String :=
  orElse a.supportedTasks a.capabilities.supportedTasks

def effectiveTools (a : Agent) : List String :=
  orElse a.supportedTools a.capabilities.supportedTools

def effectiveModels (a : Agent) : List String :=
  orElse a.supportedModels a.capabilities.supportedModels

def effectiveBackends (a : Agent) : List String :=
  orElse a.supportedBackends a.capabilities.supportedBackends

def effectiveQuants (a : Agent) : List String :=
  orElse a.supportedQuantizations a.capabilities.supportedQuantizations

def freeze (a : Agent) : Agent := { a with frozen := true }

def withStatus (a : Agent) (status : LifecycleState) : Agent := { a with status }

/-- `model_copy(update={"health": health})` -/
def withHealth (a : Agent) (health : HealthRecord) : Agent := { a with health }

/-- One entry of `data.update(fields)`. -/
def setField (a : Agent) : Field → Agent
  | .id v => { a with id := v }
  | .name v => { a with name := v }
  | .nameSpace v => { a with nameSpace := v }
  | .version v => { a with version := v }
  | .agentType v => { a with agentType := v }
  | .category v => { a with category := v }
  | .status v => { a with status := v }
  | .priority v => { a with priority := v }
  | .tags v => { a with tags := v }
  | .configuration v => { a with configuration := v }
  | .memoryBytes v => { a with memoryBytes := v }
  | .capabilities v => { a with capabilities := v }
  | .supportedTasks v => { a with supportedTasks := v }
  | .supportedTools v => { a with supportedTools := v }
  | .supportedModels v => { a with supportedModels := v }
  | .supportedBackends v => { a with supportedBackends := v }
  | .supportedQuantizations v => { a with supportedQuantizations := v }
  | .estimatedLatency v => { a with estimatedLatency := v }
  | .estimatedCost v => { a with estimatedCost := v }
  | .estimatedTokens v => { a with estimatedTokens := v }
  | .estimatedMemory v => { a with estimatedMemory := v }
  | .confidenceScore v => { a with confidenceScore := v }
  | .health v => { a with health := v }
  | .frozen v => { a with frozen := v }

/-- `data.update(fields); data["id"] = agent_id` -/
def withFields (a : Agent) (fields : List Field) (agentId : String) : Agent :=
  { fields.foldl setField a with id := agentId }

/-- Everything but the health record. -/
def core (a : Agent) : Agent := { a with health := {} }

end Agent

def normalizeTags (tags : List String) : List String :=
  ((tags.map fun t => lower (strip t)).filter (· ≠ "")).eraseDups

/-- The field validators that reject. -/
def modelAccepts (a : Agent) : Bool :=
  strip a.name ≠ "" &&
    decide (0 ≤ a.priority) && decide (a.priority ≤ 100) &&
    decide (0 ≤ a.confidenceScore) && decide (a.confidenceScore ≤ 1) &&
    decide (0 ≤ a.estimatedLatency) && decide (0 ≤ a.estimatedCost) &&
    decide (0 ≤ a.estimatedTokens) && decide (0 ≤ a.estimatedMemory) &&
    decide (0 ≤ a.memoryBytes) &&
    decide (1 ≤ a.capabilities.maxContext) && decide (1 ≤ a.capabilities.maxTokens)

/-- What the validators make of the fields they accept; empty lists of supported names are
filled from the capabilities. -/
def normalized (a : Agent) : Agent :=
  { a with
    name := strip a.name
    tags := normalizeTags a.tags
    supportedTasks := a.effectiveTasks
    supportedTools := a.effectiveTools
    supportedModels := a.effectiveModels
    supportedBackends := a.effectiveBackends
    supportedQuantizations := a.effectiveQuants
    health := a.health.validated }

def modelValidate (a : Agent) : Except RegistryError Agent :=
  if modelAccepts a then .ok (normalized a) else .error .model

-- ------ Validation by the registry

def knownBackends : List String :=
  ["llama.cpp", "llamacpp", "vllm", "sglang", "executorch", "onnx", "torch", "mock", "cascade"]

def knownQuantizations : List String :=
  ["q4_0", "q4_k_m", "q5_0", "q5_k_m", "q8_0", "fp8", "fp16", "bf16", "int8", "int4", "none"]

/-- `_VERSION_RE`: digits, then any number of alphanumeric parts after a dot or a dash. (A part
of digits after a dot is such a part, so the group for at most two of them adds nothing.) -/
def versionMatches (version : String) : Bool :=
  match version.toList.splitOnP fun c => c = '.' || c = '-' with
  | [] => false
  | major :: parts =>
    major ≠ [] && major.all Char.isDigit &&
      parts.all fun part => part ≠ [] && part.all Char.isAlphanum

/-- `preferred` is given beside `supported` and is not part of it. -/
def strays (preferred supported : List String) : Bool :=
  preferred ≠ [] && supported ≠ [] && preferred.any fun p => p ∉ supported

def validateAgent (allowUnknownBackend allowUnknownQuant : Bool) (agent : Agent) :
    Except RegistryError Unit :=
  let caps := agent.capabilities
  if strip agent.id = "" then .error (.validation "id")
  else if strip agent.name = "" then .error (.validation "name")
  else if strip agent.nameSpace = "" then .error (.validation "namespace")
  else if agent.version = "" || !versionMatches (strip agent.version) then
    .error (.validation "version")
  else if !allowUnknownBackend &&
      agent.effectiveBackends.any (fun b => lower b ∉ knownBackends) then
    .error (.validation "supported_backends")
  else if !allowUnknownQuant &&
      agent.effectiveQuants.any (fun q => lower q ∉ knownQuantizations) then
    .error (.validation "supported_quantizations")
  else if caps.maxTokens < 1 ∨ caps.maxContext < 1 then .error (.validation "capabilities")
  else if strays caps.preferredModels caps.supportedModels then
    .error (.validation "preferred_models")
  else if strays caps.preferredTools caps.supportedTools then
    .error (.validation "preferred_tools")
  else .ok ()

def assertNotFrozen (agent : Agent) : Except RegistryError Unit :=
  if agent.frozen then .error (.frozen agent.id) else .ok ()

theorem assertNotFrozen_ok {agent : Agent} {u : Unit} :
    assertNotFrozen agent = .ok u ↔ agent.frozen = false := by
  unfold assertNotFrozen
  cases agent.frozen <;> simp

theorem modelValidate_ok {a a' : Agent} :
    modelValidate a = .ok a' ↔ modelAccepts a = true ∧ normalized a = a' := by
  unfold modelValidate
  split <;> simp_all

namespace Agent

@[simp] theorem withStatus_status (a : Agent) (status : LifecycleState) :
    (a.withStatus status).status = status := rfl

theorem withFields_health {a : Agent} {fields : List Field} (agentId : String)
    (h : ∀ f ∈ fields, f.isHealth = false) : (a.withFields fields agentId).health = a.health := by
  have hFold : (fields.foldl setField a).health = a.health := by
    induction fields generalizing a with
    | nil => rfl
    | cons f fields ih =>
      obtain ⟨hHead, hTail⟩ := List.forall_mem_cons.mp h
      have hSet : (a.setField f).health = a.health := by
        cases f with
        | health v => simp [Field.isHealth] at hHead
        | _ => rfl
      rw [List.foldl_cons, ih hTail, hSet]
  exact hFold

end Agent

end Neuroswarm.Agents
