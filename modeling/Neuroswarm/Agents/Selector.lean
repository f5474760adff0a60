import Mathlib.Data.List.Sort
import Neuroswarm.Agents.Agent
import Neuroswarm.Lib.Rounding

/-!
# Agent registry — scoring and selection

Hard filters, weighted scores and the ranking, for one list of agents. The hash of a
request is a parameter.
-/

namespace Neuroswarm.Agents

-- ------ Requests and results

structure BudgetConstraints where
  maxCostUsd : Option ℚ := none
  maxLatencyMs : Option ℚ := none
  maxTokens : Option ℚ := none
  maxMemoryBytes : Option Int := none
deriving DecidableEq

structure SelectionRequest where
  task : String := ""
  taskTags : List String := []
  requiredTools : List String := []
  requiredModels : List String := []
  requiredBackends : List String := []
  requiredQuantizations : List String := []
  preferredAgents : List String := []
  budget : BudgetConstraints := {}
  minHealth : ℚ := 0
  minConfidence : ℚ := 0
  limit : Nat := 5
  includeBusy : Bool := true
  /-- the execution plan and the metadata, which only the hash reads -/
  annotations : String := ""
deriving DecidableEq

structure ScoreBreakdown where
  capability : ℚ
  tools : ℚ
  models : ℚ
  backendQuant : ℚ
  latency : ℚ
  cost : ℚ
  health : ℚ
  priority : ℚ
  confidence : ℚ
  resources : ℚ
deriving DecidableEq

structure ScoredAgent where
  agentId : String
  name : String
  score : ℚ
  breakdown : ScoreBreakdown
  reasons : List String
deriving DecidableEq

structure Rejection where
  agentId : String
  name : String
  reason : String
deriving DecidableEq

structure SelectionResult (K : Type) where
  requestHash : K
  agents : List ScoredAgent
  rejected : List Rejection
  eligible : Nat
  total : Nat
deriving DecidableEq

structure ScoringWeights where
  capability : ℚ := 25 / 100
  tools : ℚ := 15 / 100
  models : ℚ := 10 / 100
  backendQuant : ℚ := 10 / 100
  latency : ℚ := 10 / 100
  cost : ℚ := 10 / 100
  health : ℚ := 10 / 100
  priority : ℚ := 5 / 100
  confidence : ℚ := 5 / 100
  resources : ℚ := 0

def ScoringWeights.normalized (w : ScoringWeights) : ScoringWeights :=
  let total := w.capability + w.tools + w.models + w.backendQuant + w.latency + w.cost + w.health +
    w.priority + w.confidence + w.resources
  if total ≤ 0 then w
  else
    { capability := w.capability / total
      tools := w.tools / total
      models := w.models / total
      backendQuant := w.backendQuant / total
      latency := w.latency / total
      cost := w.cost / total
      health := w.health / total
      priority := w.priority / total
      confidence := w.confidence / total
      resources := w.resources / total }

-- ------ Scoring

def overlap (required supported : List String) : ℚ :=
  if required = [] then 1
  else if supported = [] then 0
  else
    let req := required.eraseDups
    (req.filter (· ∈ supported)).length / req.length

/-- `_latency_score` and `_cost_score`: `slope` is the weight of an estimate without a budget. -/
def budgetScore (estimate slope : ℚ) (budget : Option ℚ) : ℚ :=
  if estimate ≤ 0 then 1
  else
    match budget with
    | none => clamp (1 / (1 + estimate * slope)) 0 1
    | some limit => if limit < estimate then 0 else clamp (1 - estimate / limit) 0 1

def latencyScore (agent : Agent) (req : SelectionRequest) : ℚ :=
  budgetScore agent.estimatedLatency (1 / 1000) req.budget.maxLatencyMs

def costScore (agent : Agent) (req : SelectionRequest) : ℚ :=
  budgetScore agent.estimatedCost 10 req.budget.maxCostUsd

def capabilityScore (agent : Agent) (req : SelectionRequest) : ℚ :=
  let tasks := if req.task ≠ "" then req.task :: req.taskTags else req.taskTags
  if tasks = [] then 1
  else
    let supported :=
      (agent.effectiveTasks ++ agent.agentType :: agent.category :: agent.tags).map lower
    (tasks.countP fun t => lower t ∈ supported) / tasks.length

/-- `estimated_memory or resource_requirements.memory_bytes` -/
def Agent.memory (agent : Agent) : Int :=
  if agent.estimatedMemory ≠ 0 then agent.estimatedMemory else agent.memoryBytes

def resourceScore (agent : Agent) (req : SelectionRequest) : ℚ :=
  match req.budget.maxMemoryBytes with
  | none => 1
  | some maxMem =>
    if agent.memory ≤ 0 then 1
    else if maxMem < agent.memory then 0
    else clamp (1 - agent.memory / maxMem) 0 1

def priorityScore (agent : Agent) : ℚ := clamp (agent.priority / 100) 0 1

/-- A figure of the unit interval with two decimals. -/
def fixed2 (x : ℚ) : String :=
  let n := (Rounding.halfEven (100 * x)).toNat
  toString (n / 100) ++ "." ++ toString (n / 10 % 10) ++ toString (n % 10)

def breakdown (agent : Agent) (req : SelectionRequest) : ScoreBreakdown where
  capability := capabilityScore agent req
  tools := overlap req.requiredTools agent.effectiveTools
  models := overlap req.requiredModels agent.effectiveModels
  backendQuant :=
    if req.requiredBackends ≠ [] ∨ req.requiredQuantizations ≠ [] then
      1 / 2 * overlap req.requiredBackends agent.effectiveBackends +
        1 / 2 * overlap req.requiredQuantizations agent.effectiveQuants
    else 1
  latency := latencyScore agent req
  cost := costScore agent req
  health := clamp agent.health.score 0 1
  priority := priorityScore agent
  confidence := clamp agent.confidenceScore 0 1
  resources := resourceScore agent req

def scoreAgent (agent : Agent) (req : SelectionRequest) (weights : ScoringWeights) : ScoredAgent :=
  let w := weights.normalized
  let b := breakdown agent req
  let total := w.capability * b.capability + w.tools * b.tools + w.models * b.models +
    w.backendQuant * b.backendQuant + w.latency * b.latency + w.cost * b.cost +
    w.health * b.health + w.priority * b.priority + w.confidence * b.confidence +
    w.resources * b.resources
  let preferred := agent.id ∈ req.preferredAgents ∨ agent.name ∈ req.preferredAgents
  { agentId := agent.id
    name := agent.name
    score := clamp (if preferred then clamp (total + 5 / 100) 0 1 else total) 0 1
    breakdown := b
    reasons :=
      (if preferred then ["preferred"] else []) ++
        ["capability=" ++ fixed2 b.capability, "tools=" ++ fixed2 b.tools,
          "health=" ++ fixed2 b.health] }

-- ------ Selection

/-- The names of `required` that are not there, as a reason. -/
def missing (label : String) (required supported : List String) (fold : String → String) :
    Option String :=
  match required.filter fun name => fold name ∉ supported.map fold with
  | [] => none
  | names => some (label ++ ":" ++ ",".intercalate names)

def overBudget {α : Type} [LT α] [DecidableLT α] (label : String) (estimate : α)
    (limit : Option α) : Option String :=
  limit.bind fun l => if l < estimate then some label else none

/-- `_hard_filter`: the first reason to reject the agent. -/
def hardFilter (agent : Agent) (request : SelectionRequest) : Option String :=
  let status := agent.status
  if status = .disabled then some "disabled"
  else if status = .retired then some "retired"
  else if status = .failed then some "failed"
  else if status = .created then some "not_registered"
  else if request.includeBusy = false ∧ status = .busy then some "busy"
  else if status ≠ .ready ∧ status ≠ .busy then some ("lifecycle:" ++ status.value)
  else if agent.health.score < request.minHealth then some "health_below_min"
  else if agent.confidenceScore < request.minConfidence then some "confidence_below_min"
  else
    missing "missing_tools" request.requiredTools agent.effectiveTools id
    <|> missing "missing_models" request.requiredModels agent.effectiveModels id
    <|> missing "missing_backends" request.requiredBackends agent.effectiveBackends lower
    <|> missing "missing_quants" request.requiredQuantizations agent.effectiveQuants lower
    <|> overBudget "cost_over_budget" agent.estimatedCost request.budget.maxCostUsd
    <|> overBudget "latency_over_budget" agent.estimatedLatency request.budget.maxLatencyMs
    <|> overBudget "tokens_over_budget" agent.estimatedTokens request.budget.maxTokens
    <|> overBudget "memory_over_budget" agent.memory request.budget.maxMemoryBytes

/-- `(-score, name, agent_id)` -/
def ScoredAgent.before (s t : ScoredAgent) : Bool :=
  t.score < s.score ||
    s.score = t.score && (s.name < t.name || s.name = t.name && decide (s.agentId ≤ t.agentId))

structure AgentSelector (K : Type) where
  weights : ScoringWeights
  requestHash : SelectionRequest → K

/-- `select` without the cache. -/
def AgentSelector.uncached {K : Type} (selector : AgentSelector K) (agents : List Agent)
    (request : SelectionRequest) : SelectionResult K :=
  let eligible := agents.filter fun agent => hardFilter agent request = none
  let scored := eligible.map fun agent => scoreAgent agent request selector.weights.normalized
  { requestHash := selector.requestHash request
    agents := (scored.insertionSort fun s t => s.before t).take request.limit
    rejected := agents.filterMap fun agent =>
      (hardFilter agent request).map fun reason => ⟨agent.id, agent.name, reason⟩
    eligible := eligible.length
    total := agents.length }

end Neuroswarm.Agents
