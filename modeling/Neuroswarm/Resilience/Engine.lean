import Neuroswarm.Lib.Fallible
import Neuroswarm.Resilience.Candidates

/-!
# Resilience engine

`runtime/resilience/engine.py` with `evaluator.py`, `planner.py`, the checks of
`validators.py` it makes and `PolicyEngine.match`. Events, metrics and the recovery history,
which no decision reads, are left out.

* `evaluate` — the decision for an active plan.
* `evaluate_transition` — what a TRANSITION is sure of.
-/

namespace Neuroswarm.Resilience

open Armcascade (isBlank)

-- ------ Policies

structure ResilienceEngine where
  policies : List ResiliencePolicy := []
  defaultPolicy : ResiliencePolicy
  catalog : Dict String ModelProfile := .empty
  /-- `external.evaluate_predicate`, for the id of a policy. -/
  external : Option (String → Except String Bool) := none

def ResiliencePolicy.known (policy : ResiliencePolicy) : List String :=
  policy.preferredModels ++ policy.fallbackChains.keys ++ policy.fallbackChains.values.flatten

/-- `_matches(policy, plan, signals, context)`, without the external predicate. -/
def ResiliencePolicy.covers (policy : ResiliencePolicy) (plan : ExecutionSnapshot)
    (signals : RuntimeSignals) : Bool :=
  (policy.preferredModels.isEmpty && policy.fallbackChains.entries.isEmpty) ||
    policy.known.contains plan.model || signals.historicalFailures ≥ policy.failureThreshold

namespace ResilienceEngine

variable (e : ResilienceEngine) (plan : ExecutionSnapshot) (signals : RuntimeSignals)

/-- `_matches` -/
def policyMatches (policy : ResiliencePolicy) : Except ResilienceError Bool :=
  match e.external with
  | none => .ok (policy.covers plan signals)
  | some evaluatePredicate =>
    match evaluatePredicate ("resilience.policy." ++ policy.policyId) with
    | .error message => .error (.policy ("external policy predicate failed: " ++ message))
    | .ok true => .ok (policy.covers plan signals)
    | .ok false => .ok false

/-- `PolicyEngine.match`, or the policy of the engine. -/
def matchedPolicy : Except ResilienceError ResiliencePolicy := do
  let matched ← e.policies.filterM (e.policyMatches plan signals)
  let sorted := matched.insertionSort fun a b =>
    b.priority < a.priority ∨ (a.priority = b.priority ∧ ¬ b.policyId < a.policyId)
  pure (sorted.head?.getD e.defaultPolicy)

end ResilienceEngine

-- ------ Evaluation

/-- `should_transition(plan, signals, health, policy)`: the reasons to leave the plan. -/
def transitionReasons (plan : ExecutionSnapshot) (signals : RuntimeSignals) (health : ℚ)
    (policy : ResiliencePolicy) : List String :=
  (if signals.modelAvailable then [] else ["model_unavailable"]) ++
  (if signals.backendAvailable then [] else ["backend_unavailable"]) ++
  (if health < policy.minHealthScore then ["health_below_threshold"] else []) ++
  (if signals.historicalFailures ≥ policy.failureThreshold then ["failure_threshold"] else []) ++
  (if signals.budgetRemainingRatio ≤ 0 then ["budget_exhausted"] else []) ++
  (if signals.memoryPressure ≥ 19 / 20 then ["critical_memory"] else []) ++
  (if signals.latencyP99Ms > policy.maxLatencyMs ∧ signals.historicalFailures > 0 then
    ["latency_and_failures"] else []) ++
  (if signals.contextTokensNeeded > plan.contextLength then ["context_overflow"] else [])

def validateSnapshot (plan : ExecutionSnapshot) : Except ResilienceError Unit :=
  if isBlank plan.model.toList then .error (.validation "model required" "model")
  else if isBlank plan.backend.toList then .error (.validation "backend required" "backend")
  else if plan.contextLength ≤ 0 then
    .error (.validation "context_length must be > 0" "context_length")
  else if plan.threadCount ≤ 0 then .error (.validation "thread_count must be > 0" "thread_count")
  else .ok ()

/-- `validate_alternative(alt)`; a generated plan id is never blank. -/
def validateAlternative (alt : AlternativeExecutionPlan) : Except ResilienceError Unit :=
  if isBlank alt.model.toList then .error (.validation "model required" "model")
  else if isBlank alt.backend.toList then .error (.validation "backend required" "backend")
  else .ok ()

/-- `to_alternative_plan(scored, plan, ...)`; there is always a reason. -/
def toAlternativePlan (winner : ScoredCandidate) (plan : ExecutionSnapshot) (reason : String)
    (remainingFallbacks : List String) : AlternativeExecutionPlan :=
  let cand := winner.candidate
  { executionId := plan.executionId
    model := cand.modelId
    backend := cand.backend
    quant := cand.quant
    contextLength := cand.contextLength
    threadCount := cand.threadCount
    reasoningBudget := cand.reasoningBudget
    toolsEnabled := cand.toolsEnabled
    cascadeStrategy := cand.cascadeStrategy
    previousModel := plan.model
    previousBackend := plan.backend
    previousQuant := plan.quant
    qualityDelta := cand.qualityDelta
    latencyDelta := cand.latencyDelta
    costDelta := cand.costDelta
    budgetDelta := cand.costDelta
    reason
    dimensionsChanged := cand.dimensionsChanged
    score := winner.score
    fallbacks := if remainingFallbacks.isEmpty then plan.fallbacks else remainingFallbacks }

/-- What the engine drops of the generated candidates: the current configuration, and the model or
the backend that is down. -/
def usable (plan : ExecutionSnapshot) (signals : RuntimeSignals)
    (candidates : List FallbackCandidate) : List FallbackCandidate :=
  let other := candidates.filter fun c => c.config ≠ plan.config
  let other := if signals.modelAvailable then other else other.filter (·.modelId ≠ plan.model)
  if signals.backendAvailable then other else other.filter (·.backend ≠ plan.backend)

namespace ResilienceEngine

variable (e : ResilienceEngine) (plan : ExecutionSnapshot) (signals : RuntimeSignals)

def fallback (policy : ResiliencePolicy) (health : ℚ) (reasons : List String) :
    Except ResilienceError ResilienceDecision := do
  let generated ← generate plan signals policy e.catalog
  let filtered := filterCandidates signals policy e.catalog (usable plan signals generated)
  match rank plan signals e.catalog policy health filtered with
  | [] =>
    pure
      { kind := .degradeNotify
        policyId := some policy.policyId
        healthScore := health
        reasons := reasons ++ ["no_valid_candidate"] }
  | winner :: others =>
    let alternative := toAlternativePlan winner plan (";".intercalate reasons)
      (others.map (·.candidate.modelId))
    validateAlternative alternative
    pure
      { kind := .transition
        policyId := some policy.policyId
        healthScore := health
        alternative := some alternative
        scored := some winner
        reasons }

def evaluate : Except ResilienceError ResilienceDecision := do
  validateSnapshot plan
  let health := healthScore plan signals e.catalog
  let policy ← e.matchedPolicy plan signals
  let reasons := transitionReasons plan signals health policy
  if reasons.isEmpty then
    pure
      { kind := .«continue»
        policyId := some policy.policyId
        healthScore := health
        reasons := ["healthy"] }
  else
    e.fallback plan signals policy health reasons

end ResilienceEngine

-- ------ Safe alternatives

/-- A configuration that may replace the plan: it satisfies every check, differs from the plan,
and leaves alone the model and the backend that are down. -/
structure Config.Acceptable (config : Config) (plan : ExecutionSnapshot) (signals : RuntimeSignals)
    (policy : ResiliencePolicy) (catalog : Dict String ModelProfile) : Prop where
  satisfies : config.Satisfies signals policy catalog
  differs : config ≠ plan.config
  model : signals.modelAvailable = false → config.model ≠ plan.model
  backend : signals.backendAvailable = false → config.backend ≠ plan.backend

variable {plan : ExecutionSnapshot} {signals : RuntimeSignals} {policy : ResiliencePolicy}
  {catalog : Dict String ModelProfile}

theorem mem_usable {candidates : List FallbackCandidate} {c : FallbackCandidate} :
    c ∈ usable plan signals candidates ↔ c ∈ candidates ∧ c.config ≠ plan.config ∧
      (signals.modelAvailable = false → c.modelId ≠ plan.model) ∧
      (signals.backendAvailable = false → c.backend ≠ plan.backend) := by
  unfold usable
  cases signals.modelAvailable <;> cases signals.backendAvailable <;> simp <;> tauto

theorem mem_filtered {candidates : List FallbackCandidate} {c : FallbackCandidate} :
    c ∈ filterCandidates signals policy catalog (usable plan signals candidates) ↔
      c ∈ candidates ∧ c.config.Acceptable plan signals policy catalog := by
  rw [filterCandidates, List.mem_filter, mem_usable, validate_iff]
  constructor
  · rintro ⟨⟨hMem, hDiffers, hModel, hBackend⟩, hSatisfies⟩
    exact ⟨hMem, hSatisfies, hDiffers, hModel, hBackend⟩
  · rintro ⟨hMem, hSatisfies, hDiffers, hModel, hBackend⟩
    exact ⟨⟨hMem, hDiffers, hModel, hBackend⟩, hSatisfies⟩

namespace ResilienceEngine

variable {e : ResilienceEngine} {health : ℚ} {reasons : List String} {d : ResilienceDecision}

theorem fallback_cases (h : e.fallback plan signals policy health reasons = .ok d) :
    ∃ generated, generate plan signals policy e.catalog = .ok generated ∧
      ((d.kind = .degradeNotify ∧
          ∀ c ∈ generated, ¬ c.config.Acceptable plan signals policy e.catalog) ∨
        (d.kind = .transition ∧ ∃ alt, d.alternative = some alt ∧
          ∃ c ∈ generated, c.config = alt.config ∧
            c.config.Acceptable plan signals policy e.catalog)) := by
  obtain ⟨generated, hGenerated, h⟩ := Except.bind_eq_ok.mp h
  refine ⟨generated, hGenerated, ?_⟩
  dsimp only at h
  split at h
  · next hRanked =>
    cases h
    refine .inl ⟨rfl, fun c hc hAcceptable => ?_⟩
    have hRank := (@mem_rank plan signals e.catalog policy health _ _).mpr
      ⟨c, mem_filtered.mpr ⟨hc, hAcceptable⟩, rfl⟩
    rw [hRanked] at hRank
    exact List.not_mem_nil hRank
  · next winner others hRanked =>
    obtain ⟨⟨⟩, -, h⟩ := Except.bind_eq_ok.mp h
    cases h
    refine .inr ⟨rfl, _, rfl, ?_⟩
    have hWinner : winner ∈ rank plan signals e.catalog policy health
        (filterCandidates signals policy e.catalog (usable plan signals generated)) := by
      rw [hRanked]
      exact List.mem_cons_self
    obtain ⟨c, hc, rfl⟩ := (mem_rank plan signals e.catalog policy).mp hWinner
    obtain ⟨hMem, hAcceptable⟩ := mem_filtered.mp hc
    exact ⟨c, hMem, rfl, hAcceptable⟩

theorem fallback_of_empty {generated : List FallbackCandidate}
    (hGenerated : generate plan signals policy e.catalog = .ok generated)
    (hEmpty : filterCandidates signals policy e.catalog (usable plan signals generated) = []) :
    e.fallback plan signals policy health reasons = .ok
      { kind := .degradeNotify
        policyId := some policy.policyId
        healthScore := health
        reasons := reasons ++ ["no_valid_candidate"] } := by
  have hRank : rank plan signals e.catalog policy health
      (filterCandidates signals policy e.catalog (usable plan signals generated)) = [] := by
    rw [hEmpty]
    rfl
  unfold fallback
  rw [hGenerated]
  show (match rank plan signals e.catalog policy health
      (filterCandidates signals policy e.catalog (usable plan signals generated)) with
    | [] => _
    | winner :: others => _) = _
  rw [hRank]
  rfl

theorem evaluate_cases (h : e.evaluate plan signals = .ok d) :
    ∃ policy, e.matchedPolicy plan signals = .ok policy ∧
      (d.kind = .«continue» ∨
        e.fallback plan signals policy (healthScore plan signals e.catalog)
          (transitionReasons plan signals (healthScore plan signals e.catalog) policy) = .ok d) := by
  obtain ⟨⟨⟩, -, h⟩ := Except.bind_eq_ok.mp h
  obtain ⟨policy, hPolicy, h⟩ := Except.bind_eq_ok.mp h
  refine ⟨policy, hPolicy, ?_⟩
  dsimp only at h
  split at h
  · cases h
    exact .inl rfl
  · exact .inr h

/-- **A transition is safe**: whatever the plan, the signals, the policies and the catalog, the
alternative passes every check, differs from the plan and leaves alone what is down. -/
theorem evaluate_transition (h : e.evaluate plan signals = .ok d) (hKind : d.kind = .transition) :
    ∃ policy alt, e.matchedPolicy plan signals = .ok policy ∧ d.alternative = some alt ∧
      alt.config.Acceptable plan signals policy e.catalog := by
  obtain ⟨policy, hPolicy, hContinue | hFallback⟩ := evaluate_cases h
  · rw [hContinue] at hKind
    cases hKind
  · obtain ⟨generated, -, ⟨hDegrade, -⟩ | ⟨-, alt, hAlt, c, -, hConfig, hAcceptable⟩⟩ :=
      fallback_cases hFallback
    · rw [hDegrade] at hKind
      cases hKind
    · exact ⟨policy, alt, hPolicy, hAlt, hConfig ▸ hAcceptable⟩

def twoModels : ResilienceEngine where
  defaultPolicy := { policyId := "default", preferredModels := ["a", "b"] }
  catalog := (Dict.empty.set "a" { modelId := "a" }).set "b" { modelId := "b" }

/-- When the first model is down, the engine goes over to the second one, safely. -/
theorem evaluate_transition_modelDown :
    ∃ d policy alt, twoModels.evaluate { model := "a" } { modelAvailable := false } = .ok d ∧
      d.kind = .transition ∧ d.alternative = some alt ∧
      alt.config.Acceptable { model := "a" } { modelAvailable := false } policy
        twoModels.catalog := by
  have hKind : ((twoModels.evaluate { model := "a" } { modelAvailable := false }).map (·.kind)) =
      .ok .transition := by decide +kernel
  obtain ⟨d, hEvaluate, hTransition⟩ := Except.map_eq_ok.mp hKind
  obtain ⟨policy, alt, -, hAlt, hAcceptable⟩ := evaluate_transition hEvaluate hTransition
  exact ⟨d, policy, alt, hEvaluate, hTransition, hAlt, hAcceptable⟩

end ResilienceEngine

end Neuroswarm.Resilience
