import Mathlib.Algebra.Order.Field.Rat
import Mathlib.Tactic.Simps.Basic
import Neuroswarm.Armcascade.Types
import Neuroswarm.Lib.Dict

/-!
# Runtime model resilience — domain models

`runtime/resilience/models.py`, `execution.py`, `exceptions.py`, `fallback.py` and
`ResiliencePolicy` of `policy.py`. Floats are rationals. Generated ids, times, free
metadata and the reason text of a candidate are left out.
-/

namespace Neuroswarm.Resilience

inductive HealthState where
  | healthy
  | degraded
  | unhealthy
  | unknown
  | unavailable
  deriving DecidableEq, Repr

inductive FallbackDimension where
  | modelTier
  | backend
  | quantization
  | contextLength
  | threadCount
  | reasoningBudget
  | toolUsage
  | cascade
  deriving DecidableEq, Repr

inductive CascadeStrategy where
  | sequential
  | parallelScore
  | leastDegradation
  deriving DecidableEq, Repr

inductive DecisionKind where
  | «continue»
  | transition
  | degradeNotify
  deriving DecidableEq, Repr

/-- What a call of the engine raises. -/
inductive ResilienceError where
  | validation (message field : String)
  | policy (message : String)
  /-- `int(p)` refuses a preference. -/
  | value (literal : String)
  deriving DecidableEq, Repr

/-- Model capability / cost / health profile. -/
structure ModelProfile where
  modelId : String
  contextLength : Int := 8192
  parameterCount : ℚ := 0
  quantizations : List String := ["Q5_K_M"]
  supportedBackends : List String := ["llama_cpp"]
  estimatedLatency : ℚ := 100
  estimatedCost : ℚ := 1 / 1000
  estimatedMemory : ℚ := 4
  health : HealthState := .unknown
  availability : ℚ := 1
  priority : ℚ := 1

structure FallbackDimensionConfig where
  dimension : FallbackDimension
  enabled : Bool := true
  preferences : List String := []
  maxSteps : Int := 4

structure ScoreWeights where
  quality : ℚ := 1 / 4
  latency : ℚ := 3 / 20
  cost : ℚ := 1 / 10
  memory : ℚ := 1 / 10
  policyPriority : ℚ := 3 / 20
  health : ℚ := 1 / 10
  availability : ℚ := 1 / 20
  backendCompat : ℚ := 1 / 20
  budgetFit : ℚ := 3 / 100
  contextCompat : ℚ := 1 / 50

/-- Live runtime observations. -/
structure RuntimeSignals where
  modelAvailable : Bool := true
  backendAvailable : Bool := true
  memoryPressure : ℚ := 0
  queueDepth : ℚ := 0
  latencyP99Ms : ℚ := 0
  budgetRemainingUsd : Option ℚ := none
  budgetRemainingRatio : ℚ := 1
  threadAvailable : Nat := 8
  historicalFailures : Nat := 0
  contextTokensNeeded : Nat := 0
  toolsRequired : Bool := false
  reasoningTokensNeeded : Nat := 0
  latencySloMs : ℚ := 4000
  maxMemoryGb : ℚ := 16
  maxCostUsd : Option ℚ := none
  backendHealth : Dict String ℚ := .empty
  modelHealth : Dict String ℚ := .empty

/-- The active execution configuration. -/
structure ExecutionSnapshot where
  executionId : String := ""
  model : String := "tier2"
  backend : String := "llama_cpp"
  quant : String := "Q5_K_M"
  contextLength : Int := 8192
  threadCount : Int := 8
  reasoningBudget : Int := 512
  toolsEnabled : Bool := true
  cascadeStrategy : CascadeStrategy := .sequential
  fallbacks : List String := []

/-- One alternative execution configuration. -/
structure FallbackCandidate where
  modelId : String
  backend : String := "llama_cpp"
  quant : String := "Q5_K_M"
  contextLength : Int := 8192
  threadCount : Int := 8
  reasoningBudget : Int := 512
  toolsEnabled : Bool := true
  cascadeStrategy : CascadeStrategy := .sequential
  dimensionsChanged : List FallbackDimension := []
  qualityDelta : ℚ := 0
  latencyDelta : ℚ := 0
  costDelta : ℚ := 0
  memoryDelta : ℚ := 0

structure ResiliencePolicy where
  policyId : String
  preferredModels : List String := []
  fallbackChains : Dict String (List String) := .empty
  backendPreferences : List String := []
  quantizationPreferences : List String := []
  contextPreferences : List String := []
  threadPreferences : List String := []
  reasoningPreferences : List String := []
  cascadeStrategy : CascadeStrategy := .sequential
  dimensions : List FallbackDimensionConfig := []
  maxBudgetUsd : Option ℚ := none
  maxLatencyMs : ℚ := 4000
  minContextLength : Int := 0
  maxMemoryGb : ℚ := 16
  failureThreshold : Int := 2
  minHealthScore : ℚ := 11 / 20
  allowToolDisable : Bool := true
  scoreWeights : ScoreWeights := {}
  priority : ℚ := 1

structure ScoreFactors where
  quality : ℚ
  latency : ℚ
  cost : ℚ
  memory : ℚ
  policyPriority : ℚ
  health : ℚ
  availability : ℚ
  backendCompat : ℚ
  budgetFit : ℚ
  contextCompat : ℚ

structure ScoredCandidate where
  candidate : FallbackCandidate
  score : ℚ
  factors : ScoreFactors

structure AlternativeExecutionPlan where
  executionId : String
  model : String
  backend : String
  quant : String
  contextLength : Int
  threadCount : Int
  reasoningBudget : Int
  toolsEnabled : Bool
  cascadeStrategy : CascadeStrategy
  previousModel : String
  previousBackend : String
  previousQuant : String
  qualityDelta : ℚ
  latencyDelta : ℚ
  costDelta : ℚ
  budgetDelta : ℚ
  reason : String
  dimensionsChanged : List FallbackDimension
  score : ℚ
  fallbacks : List String

/-- Engine output: continue, transition, or degrade-notify. -/
structure ResilienceDecision where
  kind : DecisionKind
  policyId : Option String := none
  healthScore : ℚ := 0
  alternative : Option AlternativeExecutionPlan := none
  scored : Option ScoredCandidate := none
  reasons : List String := []

def clamp01 (value : ℚ) : ℚ := if value < 0 then 0 else if value > 1 then 1 else value

-- ------ Configurations

/-- The fields by which candidates are told apart. -/
structure Config where
  model : String
  backend : String
  quant : String
  contextLength : Int
  threadCount : Int
  reasoningBudget : Int
  toolsEnabled : Bool
  cascadeStrategy : CascadeStrategy
  deriving DecidableEq, Repr

@[simps]
def FallbackCandidate.config (c : FallbackCandidate) : Config :=
  { model := c.modelId
    backend := c.backend
    quant := c.quant
    contextLength := c.contextLength
    threadCount := c.threadCount
    reasoningBudget := c.reasoningBudget
    toolsEnabled := c.toolsEnabled
    cascadeStrategy := c.cascadeStrategy }

@[simps]
def ExecutionSnapshot.config (plan : ExecutionSnapshot) : Config :=
  { model := plan.model
    backend := plan.backend
    quant := plan.quant
    contextLength := plan.contextLength
    threadCount := plan.threadCount
    reasoningBudget := plan.reasoningBudget
    toolsEnabled := plan.toolsEnabled
    cascadeStrategy := plan.cascadeStrategy }

@[simps]
def AlternativeExecutionPlan.config (alt : AlternativeExecutionPlan) : Config :=
  { model := alt.model
    backend := alt.backend
    quant := alt.quant
    contextLength := alt.contextLength
    threadCount := alt.threadCount
    reasoningBudget := alt.reasoningBudget
    toolsEnabled := alt.toolsEnabled
    cascadeStrategy := alt.cascadeStrategy }

-- ------ Fallback dimensions

def defaultDimensions : List FallbackDimension :=
  [.modelTier, .backend, .quantization, .contextLength, .threadCount, .reasoningBudget, .toolUsage,
    .cascade]

def defaultDimensionConfigs : List FallbackDimensionConfig :=
  defaultDimensions.map fun dimension => { dimension }

def enabledDimensions (configs : List FallbackDimensionConfig) : List FallbackDimension :=
  if configs.isEmpty then defaultDimensions else (configs.filter (·.enabled)).map (·.dimension)

def configFor (configs : List FallbackDimensionConfig) (dimension : FallbackDimension) :
    Option FallbackDimensionConfig :=
  configs.find? (·.dimension = dimension)

def preferencesFor (configs : List FallbackDimensionConfig) (dimension : FallbackDimension)
    (policyPreferences : List String) : List String :=
  match configFor configs dimension with
  | some cfg => if cfg.preferences.isEmpty then policyPreferences else cfg.preferences
  | none => policyPreferences

def CascadeStrategy.all : List CascadeStrategy := [.sequential, .parallelScore, .leastDegradation]

end Neuroswarm.Resilience
