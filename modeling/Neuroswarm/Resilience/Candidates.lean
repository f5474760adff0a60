import Mathlib.Data.List.Sort
import Neuroswarm.Resilience.Types

/-!
# Candidates

Where candidates come from, how they are scored, and which of them are possible at all.
-/

/-!
## Candidate generation

`runtime/resilience/candidates.py` with the helpers of the dimensions (`backend.py`,
`quantization.py`, `context.py`, `threads.py`, `reasoning.py`). For every model of the
fallback chain there is a base candidate, and each dimension adds variants of the base that
differ from it in that dimension only.

* `generate` — the candidates for a plan, without duplicates.
-/

namespace Neuroswarm.Resilience

open Armcascade (sliceTo)

-- ------ Preferences that are numbers

/-- `s.isdigit()`, for a text of ASCII characters. -/
def isDigits (s : List Char) : Bool := !s.isEmpty && s.all Char.isDigit

def digitsValue (s : List Char) : Nat := s.foldl (fun n c => 10 * n + (c.toNat - '0'.toNat)) 0

/-- `int(s)`, for a text of digits and minus signs. -/
def int (s : String) : Except ResilienceError Int :=
  match s.toList with
  | '-' :: digits =>
    if isDigits digits ∧ digits.length ≤ 4300 then .ok (-digitsValue digits) else .error (.value s)
  | digits =>
    if isDigits digits ∧ digits.length ≤ 4300 then .ok (digitsValue digits) else .error (.value s)

def numberPreferences (accepts : List Char → Bool) (preferences : List String) :
    Except ResilienceError (List Int) := do
  let numbers ← (preferences.filter fun p => accepts p.toList).mapM int
  pure (numbers.insertionSort (· ≥ ·))

/-- `str(p).lstrip("-").isdigit()` -/
def isSignedDigits (s : List Char) : Bool := isDigits (s.dropWhile (· = '-'))

-- ------ Dimensions

def preferred (preferences supported remaining : List String) : List String :=
  let ordered := (preferences.filter (· ∈ supported)).eraseDups
  ordered ++ (remaining.filter (· ∉ ordered)).eraseDups

def compatibleBackends (profile : ModelProfile) (preferences : List String) : List String :=
  if preferences.isEmpty then
    profile.supportedBackends
  else
    preferred preferences profile.supportedBackends profile.supportedBackends

/-- `QUALITY_ORDER`, best first. -/
def qualityOrder : List String :=
  ["F16", "Q8_0", "Q6_K", "Q5_K_M", "Q5_K_S", "Q4_K_M", "Q4_K_S", "Q4_0", "Q3_K_M", "Q2_K"]

def qualityRank (quant : String) : Nat := qualityOrder.idxOf quant.toUpper

def sortedQuants (quants : List String) : List String :=
  quants.insertionSort fun a b => qualityRank a ≤ qualityRank b

def compatibleQuants (profile : ModelProfile) (preferences : List String) : List String :=
  if preferences.isEmpty then
    sortedQuants profile.quantizations
  else
    preferred preferences profile.quantizations (sortedQuants profile.quantizations)

def qualityDeltaForQuant (fromQuant toQuant : String) : ℚ :=
  ((qualityRank fromQuant : ℚ) - qualityRank toQuant) * (-1 / 20)

def suggestContext (profile : ModelProfile) (tokensNeeded : Int) (preferences : List String) :
    Except ResilienceError Int := do
  let prefs ← numberPreferences isDigits preferences
  match prefs.find? fun p => p ≤ profile.contextLength ∧ p ≥ tokensNeeded with
  | some p => pure p
  | none =>
    if tokensNeeded ≤ profile.contextLength then
      pure (max tokensNeeded (min profile.contextLength (max tokensNeeded 2048)))
    else
      pure profile.contextLength

def suggestThreads (available current : Int) (preferences : List String) :
    Except ResilienceError Int := do
  let cap := if available > 0 then max 1 available else 1
  let prefs ← numberPreferences isSignedDigits preferences
  match prefs.find? fun p => 1 ≤ p ∧ p ≤ cap with
  | some p => pure p
  | none => if current > 0 then pure (min current cap) else pure cap

/-- Reduce reasoning budget under pressure while meeting minimum need. -/
def suggestReasoningBudget (current needed : Int) (preferences : List String) :
    Except ResilienceError Int := do
  let floor := max 0 needed
  let prefs ← numberPreferences isSignedDigits preferences
  match prefs.find? fun p => p ≥ floor with
  | some p => pure p
  | none =>
    if current ≥ floor then
      pure (max floor (min current (max floor (if current > floor * 2 then current / 2 else current))))
    else
      pure floor

def FallbackCandidate.changing (c : FallbackCandidate) (dimension : FallbackDimension) :
    List FallbackDimension :=
  if dimension ∈ c.dimensionsChanged then c.dimensionsChanged
  else c.dimensionsChanged ++ [dimension]

def withBackend (c : FallbackCandidate) (backend : String) : FallbackCandidate :=
  { c with backend, dimensionsChanged := c.changing .backend }

def withQuant (c : FallbackCandidate) (quant fromQuant : String) : FallbackCandidate :=
  { c with
    quant
    dimensionsChanged := c.changing .quantization
    qualityDelta := c.qualityDelta + qualityDeltaForQuant fromQuant quant }

def withContext (c : FallbackCandidate) (contextLength : Int) : FallbackCandidate :=
  { c with contextLength, dimensionsChanged := c.changing .contextLength }

def withThreads (c : FallbackCandidate) (threadCount : Int) : FallbackCandidate :=
  { c with threadCount, dimensionsChanged := c.changing .threadCount }

def withReasoning (c : FallbackCandidate) (reasoningBudget : Int) : FallbackCandidate :=
  { c with
    reasoningBudget
    dimensionsChanged := c.changing .reasoningBudget
    costDelta := c.costDelta + ((reasoningBudget - c.reasoningBudget : Int) : ℚ) * (1 / 10000) }

def withoutTools (c : FallbackCandidate) : FallbackCandidate :=
  { c with
    toolsEnabled := false
    dimensionsChanged := c.changing .toolUsage
    qualityDelta := c.qualityDelta - 1 / 20 }

def withCascade (c : FallbackCandidate) (cascadeStrategy : CascadeStrategy) : FallbackCandidate :=
  { c with cascadeStrategy, dimensionsChanged := c.changing .cascade }

-- ------ Generation

section

variable (plan : ExecutionSnapshot) (signals : RuntimeSignals) (policy : ResiliencePolicy)

def modelChain (catalog : Dict String ModelProfile) : List String :=
  if .modelTier ∉ enabledDimensions policy.dimensions then
    if catalog.contains plan.model then [plan.model] else catalog.keys.take 1
  else
    let chain := (policy.fallbackChains.get? plan.model).getD []
    let chain :=
      if chain.isEmpty then
        if plan.model ∈ policy.preferredModels then
          policy.preferredModels.drop (policy.preferredModels.idxOf plan.model + 1)
        else
          policy.preferredModels.filter (· ≠ plan.model)
      else
        chain
    (plan.model :: chain.filter (· ≠ plan.model)).filter catalog.contains

variable (profile : ModelProfile)

def baseCandidate : FallbackCandidate :=
  let same := profile.modelId = plan.model
  let parameterDelta := min 0 ((profile.parameterCount - 8) / 10)
  { modelId := profile.modelId
    backend := ((compatibleBackends profile policy.backendPreferences).head?).getD plan.backend
    quant := ((compatibleQuants profile policy.quantizationPreferences).head?).getD plan.quant
    contextLength := min profile.contextLength plan.contextLength
    threadCount := plan.threadCount
    reasoningBudget := plan.reasoningBudget
    toolsEnabled := plan.toolsEnabled
    cascadeStrategy := policy.cascadeStrategy
    dimensionsChanged :=
      if ¬ same ∧ .modelTier ∈ enabledDimensions policy.dimensions then [.modelTier] else []
    qualityDelta :=
      if same then 0
      else if profile.priority < 1 then parameterDelta - (1 - profile.priority) * (1 / 10)
      else parameterDelta
    latencyDelta := profile.estimatedLatency - if same then profile.estimatedLatency else 100
    costDelta := profile.estimatedCost - 1 / 1000
    memoryDelta := profile.estimatedMemory - 4 }

/-- The first alternatives of a dimension that is tried in steps: `options[:max_steps]` without the
present one, and under SEQUENTIAL only the first of them. -/
def steps (dimension : FallbackDimension) (options : List String) (present : String) :
    List String :=
  let maxSteps := ((configFor policy.dimensions dimension).map (·.maxSteps)).getD 4
  let extras := (sliceTo options maxSteps).filter (· ≠ present)
  if policy.cascadeStrategy = .sequential then extras.take 1 else extras

/-- The backends that are tried beside that of the base. -/
def otherBackends : List String :=
  steps policy .backend
    (compatibleBackends profile
      (preferencesFor policy.dimensions .backend policy.backendPreferences))
    (baseCandidate plan policy profile).backend

/-- The quantizations that are tried beside that of the base. -/
def otherQuants : List String :=
  steps policy .quantization
    (compatibleQuants profile
      (preferencesFor policy.dimensions .quantization policy.quantizationPreferences))
    (baseCandidate plan policy profile).quant

def suggestedContext : Except ResilienceError Int :=
  suggestContext profile signals.contextTokensNeeded
    (preferencesFor policy.dimensions .contextLength policy.contextPreferences)

def suggestedThreads : Except ResilienceError Int :=
  suggestThreads signals.threadAvailable plan.threadCount
    (preferencesFor policy.dimensions .threadCount policy.threadPreferences)

def suggestedReasoning : Except ResilienceError Int :=
  suggestReasoningBudget plan.reasoningBudget signals.reasoningTokensNeeded
    (preferencesFor policy.dimensions .reasoningBudget policy.reasoningPreferences)

def suggested (dimension : FallbackDimension) (suggestion : Except ResilienceError Int)
    (present : Int) : Except ResilienceError (List Int) :=
  if dimension ∈ enabledDimensions policy.dimensions then
    suggestion.map fun value => if value ≠ present then [value] else []
  else
    .ok []

def variants (contexts threads reasonings : List Int) : List FallbackCandidate :=
  let dims := enabledDimensions policy.dimensions
  let base := baseCandidate plan policy profile
  [base] ++
    (if .backend ∈ dims then (otherBackends plan policy profile).map (withBackend base) else []) ++
    (if .quantization ∈ dims then
      (otherQuants plan policy profile).map fun q => withQuant base q plan.quant else []) ++
    contexts.map (withContext base) ++
    threads.map (withThreads base) ++
    reasonings.map (withReasoning base) ++
    (if .toolUsage ∈ dims ∧ policy.allowToolDisable ∧ plan.toolsEnabled ∧ ¬ signals.toolsRequired
      then [withoutTools base] else []) ++
    (if .cascade ∈ dims then
      ((CascadeStrategy.all.filter (· ≠ policy.cascadeStrategy)).take 1).map (withCascade base)
    else [])

/-- `_expand_dimensions(base, ...)`, for the base candidate of the profile. -/
def expandDimensions : Except ResilienceError (List FallbackCandidate) := do
  let contexts ← suggested policy .contextLength (suggestedContext signals policy profile)
    (baseCandidate plan policy profile).contextLength
  let threads ← suggested policy .threadCount (suggestedThreads plan signals policy)
    (baseCandidate plan policy profile).threadCount
  let reasonings ← suggested policy .reasoningBudget (suggestedReasoning plan signals policy)
    (baseCandidate plan policy profile).reasoningBudget
  pure (variants plan signals policy profile contexts threads reasonings)

def deduplicate (candidates : List FallbackCandidate) : List FallbackCandidate :=
  candidates.foldl
    (fun unique c => if unique.any (·.config = c.config) then unique else unique ++ [c]) []

def generate (catalog : Dict String ModelProfile) :
    Except ResilienceError (List FallbackCandidate) := do
  let profiles := (modelChain plan policy catalog).filterMap catalog.get?
  let expanded ← profiles.mapM (expandDimensions plan signals policy)
  pure (deduplicate expanded.flatten)

end

end Neuroswarm.Resilience

/-!
## Health and scores

`runtime/resilience/health.py`, as far as the score goes, and `scoring.py`: the factors of a
candidate, their weighted sum, and the ranking by it.
-/

namespace Neuroswarm.Resilience

variable (plan : ExecutionSnapshot) (signals : RuntimeSignals) (catalog : Dict String ModelProfile)

-- ------ Health

/-- `factors["model_availability"]` -/
def modelAvailability : ℚ :=
  let observed := (signals.modelHealth.get? plan.model).map clamp01
  let available := observed.getD (if signals.modelAvailable then 1 else 0)
  match catalog.get? plan.model with
  | none => available
  | some profile =>
    let available := min available (clamp01 profile.availability)
    match profile.health with
    | .unavailable => 0
    | .unhealthy => min available (3 / 10)
    | _ => available

/-- `factors["backend_availability"]` -/
def backendAvailability : ℚ :=
  ((signals.backendHealth.get? plan.backend).map clamp01).getD
    (if signals.backendAvailable then 1 else 0)

/-- `factors["budget"]` -/
def budgetHealth : ℚ :=
  match signals.budgetRemainingUsd with
  | some remaining => if remaining ≤ 0 then 0 else clamp01 signals.budgetRemainingRatio
  | none => clamp01 signals.budgetRemainingRatio

/-- `factors["threads"]` -/
def threadHealth : ℚ :=
  if signals.threadAvailable < plan.threadCount then
    clamp01 (signals.threadAvailable / (max plan.threadCount 1 : Int))
  else if signals.threadAvailable > 0 then 1 else 0

/-- `factors["context"]` -/
def contextHealth : ℚ :=
  let tooSmall : ℚ := if signals.contextTokensNeeded > plan.contextLength then 2 / 5 else 1
  match catalog.get? plan.model with
  | some profile => if signals.contextTokensNeeded > profile.contextLength then 0 else tooSmall
  | none => tooSmall

/-- `HealthEngine.evaluate(...).health_score` -/
def healthScore : ℚ :=
  let modelAvail := modelAvailability plan signals catalog
  let backendAvail := backendAvailability plan signals
  let slo := max signals.latencySloMs 1
  let score := clamp01
    (modelAvail * (1 / 5) + backendAvail * (3 / 20) +
      clamp01 (1 - signals.memoryPressure) * (3 / 25) +
      clamp01 (1 - signals.queueDepth / 16) * (2 / 25) +
      clamp01 (1 - signals.latencyP99Ms / (slo * (3 / 2))) * (3 / 20) +
      budgetHealth signals * (1 / 10) + threadHealth plan signals * (1 / 20) +
      clamp01 (1 - signals.historicalFailures / 5) * (1 / 10) +
      contextHealth plan signals catalog * (1 / 20))
  if modelAvail ≤ 0 ∨ backendAvail ≤ 0 then min score (17 / 50) else score

-- ------ Scores

variable (policy : ResiliencePolicy)

/-- `a or b` for optional numbers. -/
def orElse (a : Option ℚ) (b : ℚ) : ℚ :=
  match a with
  | some a => if a = 0 then b else a
  | none => b

def policyPriority (model : String) : ℚ :=
  let prefs := policy.preferredModels
  if model ∈ prefs then clamp01 (1 - prefs.idxOf model / (max prefs.length 1 : Nat))
  else if model = plan.model then 9 / 10
  else 1 / 2

def factors (health : ℚ) (cand : FallbackCandidate) : ScoreFactors :=
  let profile := catalog.get? cand.modelId
  let quality := clamp01 (1 + cand.qualityDelta)
  let costEstimate := (profile.map (·.estimatedCost)).getD (1 / 1000)
  let maxCost := orElse policy.maxBudgetUsd (orElse signals.maxCostUsd (1 / 20))
  let down := ¬ signals.modelAvailable ∧ cand.modelId = plan.model
  let availability := (profile.map (·.availability)).getD (1 / 2)
  let modelHealth := (signals.modelHealth.get? cand.modelId).getD availability
  let backendHealth :=
    if ¬ signals.backendAvailable ∧ cand.backend = plan.backend then 0
    else (signals.backendHealth.get? cand.backend).getD 1
  { quality :=
      match profile with
      | some profile => clamp01 (quality * (1 / 2 + 1 / 2 * min profile.priority 2 / 2))
      | none => quality
    latency := clamp01
      (1 - (profile.map (·.estimatedLatency)).getD 100 / max signals.latencySloMs 1)
    cost := clamp01 (1 - costEstimate / max maxCost (1 / 1000000000))
    memory := clamp01
      (1 - (profile.map (·.estimatedMemory)).getD 4 /
        max (max signals.maxMemoryGb policy.maxMemoryGb) 1)
    policyPriority := policyPriority plan policy cand.modelId
    health := clamp01
      (1 / 2 * health + 1 / 4 * (if down then 0 else modelHealth) + 1 / 4 * backendHealth)
    availability := clamp01 (if down then 0 else availability)
    backendCompat :=
      match profile with
      | some profile => if cand.backend ∈ profile.supportedBackends then 1 else 0
      | none => 1
    budgetFit :=
      match signals.budgetRemainingUsd with
      | some remaining =>
        if remaining < costEstimate then 0 else clamp01 signals.budgetRemainingRatio
      | none => clamp01 signals.budgetRemainingRatio
    contextCompat :=
      match profile with
      | some profile =>
        if signals.contextTokensNeeded > cand.contextLength ∨
            signals.contextTokensNeeded > profile.contextLength then 0 else 1
      | none => 1 }

def weighted (f : ScoreFactors) (w : ScoreWeights) : ℚ :=
  let sum := w.quality + w.latency + w.cost + w.memory + w.policyPriority + w.health +
    w.availability + w.backendCompat + w.budgetFit + w.contextCompat
  let total := if sum = 0 then 1 else sum
  f.quality * (w.quality / total) + f.latency * (w.latency / total) + f.cost * (w.cost / total) +
    f.memory * (w.memory / total) + f.policyPriority * (w.policyPriority / total) +
    f.health * (w.health / total) + f.availability * (w.availability / total) +
    f.backendCompat * (w.backendCompat / total) + f.budgetFit * (w.budgetFit / total) +
    f.contextCompat * (w.contextCompat / total)

def scored (health : ℚ) (cand : FallbackCandidate) : ScoredCandidate :=
  let f := factors plan signals catalog policy health cand
  { candidate := cand, score := weighted f policy.scoreWeights, factors := f }

/-- The order of the sort key `(-score, model_id, backend, quant)`. -/
def ScoredCandidate.before (a b : ScoredCandidate) : Bool :=
  if a.score ≠ b.score then b.score < a.score
  else if a.candidate.modelId ≠ b.candidate.modelId then
    a.candidate.modelId < b.candidate.modelId
  else if a.candidate.backend ≠ b.candidate.backend then
    a.candidate.backend < b.candidate.backend
  else
    ¬ b.candidate.quant < a.candidate.quant

def rank (health : ℚ) (candidates : List FallbackCandidate) : List ScoredCandidate :=
  (candidates.map (scored plan signals catalog policy health)).insertionSort (·.before ·)

theorem mem_rank {health : ℚ} {candidates : List FallbackCandidate} {s : ScoredCandidate} :
    s ∈ rank plan signals catalog policy health candidates ↔
      ∃ c ∈ candidates, scored plan signals catalog policy health c = s := by
  rw [rank, List.mem_insertionSort, List.mem_map]

end Neuroswarm.Resilience

/-!
## Constraint solver

`runtime/resilience/constraints.py`: the checks a candidate has to pass, in their order, with
the constraint each violation names.
-/

namespace Neuroswarm.Resilience

/-- The constraint a violation names. -/
inductive Constraint where
  | model
  | backend
  | quantization
  | context
  | memory
  | latency
  | budget
  | tools
  | threads
  deriving DecidableEq, Repr

def backendCompatible (profile : ModelProfile) (backend : String) : Bool :=
  backend ∈ profile.supportedBackends

def quantSupported (profile : ModelProfile) (quant : String) : Bool :=
  quant ∈ profile.quantizations

variable (signals : RuntimeSignals) (policy : ResiliencePolicy)
  (catalog : Dict String ModelProfile)

def neededContext : Int := max signals.contextTokensNeeded policy.minContextLength

def maxBudget : Option ℚ :=
  match policy.maxBudgetUsd with
  | some budget => some budget
  | none => signals.maxCostUsd

/-- `cost > budget`, if there is a budget. -/
def exceeds (cost : ℚ) (budget : Option ℚ) : Bool :=
  match budget with
  | some budget => budget < cost
  | none => false

/-- `_check(candidate, ...)`: the constraint that is violated first. -/
def check (candidate : FallbackCandidate) : Except Constraint Unit :=
  match catalog.get? candidate.modelId with
  | none => .error .model
  | some profile =>
    if ¬ backendCompatible profile candidate.backend then .error .backend
    else if ¬ quantSupported profile candidate.quant then .error .quantization
    else if candidate.contextLength < neededContext signals policy then .error .context
    else if candidate.contextLength > profile.contextLength then .error .context
    else if profile.estimatedMemory > min signals.maxMemoryGb policy.maxMemoryGb then .error .memory
    else if profile.estimatedLatency > policy.maxLatencyMs * (3 / 2) then .error .latency
    else if exceeds profile.estimatedCost (maxBudget signals policy) then .error .budget
    else if exceeds profile.estimatedCost signals.budgetRemainingUsd then .error .budget
    else if signals.toolsRequired ∧ ¬ candidate.toolsEnabled then .error .tools
    else if candidate.threadCount > signals.threadAvailable ∧ signals.threadAvailable > 0 then
      .error .threads
    else .ok ()

def validate (candidate : FallbackCandidate) : Bool :=
  (check signals policy catalog candidate).isOk

/-- `ConstraintSolver.filter` -/
def filterCandidates (candidates : List FallbackCandidate) : List FallbackCandidate :=
  candidates.filter (validate signals policy catalog)

-- ------ What a candidate that passes satisfies

structure FitsBounds (profile : ModelProfile) : Prop where
  memory : profile.estimatedMemory ≤ signals.maxMemoryGb ∧
    profile.estimatedMemory ≤ policy.maxMemoryGb
  latency : profile.estimatedLatency ≤ policy.maxLatencyMs * (3 / 2)
  budget : ∀ budget, maxBudget signals policy = some budget → profile.estimatedCost ≤ budget
  remaining : ∀ remaining, signals.budgetRemainingUsd = some remaining →
    profile.estimatedCost ≤ remaining

structure FitsProfile (profile : ModelProfile) (config : Config) : Prop where
  backend : config.backend ∈ profile.supportedBackends
  quant : config.quant ∈ profile.quantizations
  enough : signals.contextTokensNeeded ≤ config.contextLength ∧
    policy.minContextLength ≤ config.contextLength
  context : config.contextLength ≤ profile.contextLength
  tools : signals.toolsRequired = true → config.toolsEnabled = true
  threads : 0 < signals.threadAvailable → config.threadCount ≤ signals.threadAvailable

def Config.Satisfies (config : Config) : Prop :=
  ∃ profile, catalog.get? config.model = some profile ∧ FitsBounds signals policy profile ∧
    FitsProfile signals policy profile config

theorem exceeds_eq_false {cost : ℚ} {budget : Option ℚ} :
    exceeds cost budget = false ↔ ∀ b, budget = some b → cost ≤ b := by
  cases budget with
  | none => simp [exceeds]
  | some b => simp [exceeds]

theorem isOk_guard {c : Prop} [Decidable c] {e : Constraint} {rest : Except Constraint Unit} :
    (if c then .error e else rest).isOk = true ↔ ¬ c ∧ rest.isOk = true := by
  by_cases hc : c
  · rw [if_pos hc]
    exact iff_of_false (fun h => nomatch h) fun h => h.1 hc
  · rw [if_neg hc]
    exact (and_iff_right hc).symm

/-- **The checks, all at once.** -/
theorem validate_iff {candidate : FallbackCandidate} :
    validate signals policy catalog candidate = true ↔
      candidate.config.Satisfies signals policy catalog := by
  unfold validate check Config.Satisfies
  rw [show candidate.config.model = candidate.modelId from rfl]
  cases catalog.get? candidate.modelId with
  | none => exact iff_of_false (fun h => nomatch h) (by simp)
  | some profile =>
    simp only [isOk_guard, not_lt, Bool.not_eq_true, exceeds_eq_false]
    constructor
    · rintro ⟨hBackend, hQuant, hEnough, hContext, hMemory, hLatency, hBudget, hRemaining, hTools,
        hThreads, -⟩
      refine ⟨profile, rfl, ⟨le_min_iff.mp hMemory, hLatency, hBudget, hRemaining⟩, ?_⟩
      refine ⟨by simpa [backendCompatible] using hBackend, by simpa [quantSupported] using hQuant,
        max_le_iff.mp hEnough, hContext, fun hRequired => ?_, fun hSome => ?_⟩
      · by_contra hOff
        exact hTools ⟨hRequired, by simpa using hOff⟩
      · by_contra hMany
        exact hThreads ⟨not_le.mp hMany, hSome⟩
    · rintro ⟨profile', hProfile, hBounds, hFits⟩
      cases hProfile
      refine ⟨by simpa [backendCompatible] using hFits.backend,
        by simpa [quantSupported] using hFits.quant, max_le_iff.mpr hFits.enough, hFits.context,
        le_min_iff.mpr hBounds.memory, hBounds.latency, hBounds.budget, hBounds.remaining, ?_, ?_,
        rfl⟩
      · rintro ⟨hRequired, hOff⟩
        exact absurd (hFits.tools hRequired) (by simpa using hOff)
      · rintro ⟨hMany, hSome⟩
        exact absurd (hFits.threads hSome) (not_le.mpr hMany)

end Neuroswarm.Resilience
