import Mathlib.Algebra.Order.Field.Rat
import Mathlib.Data.List.Infix
import Neuroswarm.Lib.Dict
import Neuroswarm.Lib.Rounding

/-!
# Reasoning token governor — policies

`runtime/rtg/policy/__init__.py`: the hard constraints (L0), the streaming detectors
(L1), the bandit thresholds (L2) and the PPO scaffold (L3), of which the first to
decide counts. Which threshold the bandit draws depends on its history of rewards;
it is an argument here. Messages and metadata of a decision that no budget depends
on are kept where they are constants.
-/

/-!
## Models

`runtime/rtg/models.py` and the settings of `runtime/rtg/config.py` that the
policies and the budgets read. Numbers that Python keeps as floats are exact.
-/

namespace Neuroswarm.Rtg

inductive GovernorAction where
  | continue
  | pause
  | stopEarly
  | increaseBudget
  | decreaseBudget
  | escalateTier
  | downgradeTier
  | invokeTool
  | skipReasoning
  | earlyCommit
  | switchQuant
  | switchBackend
  deriving DecidableEq, Repr

inductive SessionPhase where
  | admitted
  | allocate
  | streaming
  | finalize
  | done
  deriving DecidableEq, Repr

structure BudgetEnvelope where
  initialTokens : ℤ := 4096
  remainingTokens : ℤ := 4096
  minTokens : ℤ := 64
  maxTokens : ℤ := 8192
  costSpentUsd : ℚ := 0
  energyJoulesBudget : ℚ := 50
  latencySloMs : ℚ := 4000
  latencySpentMs : ℚ := 0
  chunkSize : ℤ := 64
  deriving DecidableEq, Repr

namespace BudgetEnvelope

def consume (budget : BudgetEnvelope) (tokens : ℤ) (latencyMs costUsd : ℚ) : BudgetEnvelope :=
  { budget with
    remainingTokens := max 0 (budget.remainingTokens - max 0 tokens)
    latencySpentMs := budget.latencySpentMs + max 0 latencyMs
    costSpentUsd := budget.costSpentUsd + max 0 costUsd }

def applyDelta (budget : BudgetEnvelope) (delta : ℤ) : BudgetEnvelope :=
  let remaining := max budget.minTokens (min budget.maxTokens (budget.remainingTokens + delta))
  { budget with
    remainingTokens := remaining
    initialTokens := max budget.initialTokens remaining }

end BudgetEnvelope

/-- Unified observation snapshot for one control tick, as far as a decision reads it. -/
structure TelemetryFrame where
  agentPriority : ℚ := 1 / 2
  thinkingTokensSoFar : ℤ := 0
  chunkText : String := ""
  toolConfidenceTop1 : ℚ := 0
  modelConfidence : ℚ := 0
  selfConsistencyScore : ℚ := 0
  answerStability : ℚ := 0
  tokenEntropy : ℚ := 1
  confidenceEma : ℚ := 0
  plateauScore : ℚ := 0
  complexityScore : ℚ := 1 / 2
  reasoningRoi : ℚ := 1
  kvPressure : ℚ := 0
  kvHitRate : ℚ := 0
  kvMigrationLatencyMs : ℚ := 0
  memoryPressure : ℚ := 0
  sloRemainingMs : ℚ := 4000
  costSoFarUsd : ℚ := 0
  energySoFarJoules : ℚ := 0
  cascadeTier : ℤ := 1
  deriving DecidableEq, Repr

structure Decision where
  action : GovernorAction := .continue
  reason : String := ""
  budgetDelta : ℤ := 0
  newBudget : Option ℤ := none
  escalateToTier : Option ℤ := none
  quantHint : Option String := none
  governorAccuracyDemand : ℚ := 0
  forceClose : Bool := false
  confidence : ℚ := 0
  policyLayer : String := "L1"
  deriving DecidableEq, Repr

def Decision.terminal (d : Decision) : Bool :=
  d.action ∈ [GovernorAction.stopEarly, .earlyCommit, .invokeTool, .skipReasoning]

structure SessionState where
  phase : SessionPhase := .admitted
  budget : BudgetEnvelope := {}
  frame : TelemetryFrame := {}
  decisions : List Decision := []
  lastAction : GovernorAction := .continue
  deriving DecidableEq

structure RTGRuntimeConfig where
  baseBudget : ℤ := 4096
  minBudget : ℤ := 64
  maxBudget : ℤ := 8192
  chunkSize : ℤ := 64
  toolConfidenceCommit : ℚ := 85 / 100
  selfConsistencyCommit : ℚ := 90 / 100
  kvPressureSoft : ℚ := 70 / 100
  kvPressureHard : ℚ := 90 / 100
  memoryPressureHard : ℚ := 85 / 100
  sloSoftMs : ℚ := 4000
  entropyStop : ℚ := 35 / 100
  roiStop : ℚ := 5 / 100
  costPer1kTokens : ℚ := 6 / 10000
  energyJoulesBudget : ℚ := 50
  banditEnabled : Bool := true
  ppoEnabled : Bool := false
  swarmEnabled : Bool := true
  swarmGlobalTokens : ℤ := 65536
  /-- `policy["layers"]`, with the defaults of the lookups. -/
  l0HardConstraints : Bool := true
  l1StreamingDetectors : Bool := true
  l2BanditThresholds : Bool := true
  l3PpoScaffold : Bool := false
  /-- `policy["escalation"]["low_confidence"]` -/
  lowConfidence : ℚ := 45 / 100
  /-- `policy["cost_alpha_tool"]` -/
  costAlphaTool : ℚ := 75 / 100
  /-- Whether the streaming controller was built with a swarm manager. -/
  swarm : Bool := true

end Neuroswarm.Rtg

/-! ## Policies -/

namespace Neuroswarm.Rtg

open Rounding

variable (cfg : RTGRuntimeConfig)

/-- L0 hard constraints. -/
def heuristicPolicy (frame : TelemetryFrame) (state : SessionState) : Option Decision :=
  let rem := state.budget.remainingTokens
  if cfg.toolConfidenceCommit ≤ frame.toolConfidenceTop1 ∧ 256 < rem then
    some {
      action := if frame.thinkingTokensSoFar < 8 then .skipReasoning else .earlyCommit
      reason := "tool_confidence_high"
      forceClose := true
      confidence := frame.toolConfidenceTop1
      policyLayer := "L0"
      newBudget := some (min rem 256) }
  else if cfg.kvPressureHard ≤ frame.kvPressure then
    some {
      action := .stopEarly
      reason := "kv_pressure_hard"
      forceClose := true
      policyLayer := "L0"
      governorAccuracyDemand := 3 / 10 }
  else if cfg.memoryPressureHard ≤ frame.memoryPressure then
    some {
      action := .decreaseBudget
      reason := "memory_pressure"
      budgetDelta := -max 64 (rem / 2)
      policyLayer := "L0" }
  else if cfg.kvPressureSoft ≤ frame.kvPressure ∧ 512 < rem then
    some {
      action := .decreaseBudget
      reason := "kv_pressure_soft"
      budgetDelta := -(rem - 512)
      newBudget := some 512
      policyLayer := "L0" }
  else if frame.sloRemainingMs < cfg.sloSoftMs ∧ 256 < rem then
    let soft := truncate (256 + 4 * frame.toolConfidenceTop1 * 1024)
    some {
      action := .decreaseBudget
      reason := "slo_soft"
      newBudget := some (min rem soft)
      budgetDelta := min 0 (soft - rem)
      policyLayer := "L0" }
  else if state.budget.energyJoulesBudget ≤ frame.energySoFarJoules then
    some { action := .stopEarly, reason := "energy_budget", forceClose := true, policyLayer := "L0" }
  else if rem ≤ 0 then
    some {
      action := .stopEarly
      reason := "budget_exhausted"
      forceClose := true
      policyLayer := "L0" }
  else
    none

/-- Thought-transition markers, none of which a letter outside ASCII turns into. -/
def thoughtTransitions : List String := ["wait,", "alternatively", "let me reconsider"]

/-- L1 early exit, entropy and plateau. -/
def streamingDetectorPolicy (frame : TelemetryFrame) (state : SessionState) : Option Decision :=
  if cfg.selfConsistencyCommit ≤ frame.selfConsistencyScore then
    some {
      action := .earlyCommit
      reason := "self_consistency"
      forceClose := true
      confidence := frame.selfConsistencyScore
      newBudget := some (min state.budget.remainingTokens 128) }
  else if frame.tokenEntropy ≤ cfg.entropyStop ∧ 7 / 10 ≤ frame.answerStability ∧
      cfg.chunkSize ≤ frame.thinkingTokensSoFar then
    some {
      action := .earlyCommit
      reason := "entropy_stop"
      forceClose := true
      confidence := frame.modelConfidence }
  else if 95 / 100 ≤ frame.plateauScore ∧ 2 * cfg.chunkSize ≤ frame.thinkingTokensSoFar then
    if frame.modelConfidence < cfg.lowConfidence then
      some {
        action := .escalateTier
        reason := "plateau_low_conf"
        escalateToTier := some (min 3 (frame.cascadeTier + 1))
        governorAccuracyDemand := 85 / 100 }
    else
      some {
        action := .earlyCommit
        reason := "reasoning_plateau"
        forceClose := true
        confidence := frame.confidenceEma }
  else if frame.reasoningRoi < cfg.roiStop ∧ 2 * cfg.chunkSize ≤ frame.thinkingTokensSoFar then
    some { action := .stopEarly, reason := "low_roi", forceClose := true }
  else if (∃ tok ∈ thoughtTransitions, tok.toList <:+: frame.chunkText.toLower.toList) ∧
      8 / 10 ≤ frame.modelConfidence then
    some {
      action := .earlyCommit
      reason := "deer_transition_high_conf"
      forceClose := true
      confidence := frame.modelConfidence }
  else
    none

/-- `frame.confidence_ema or frame.model_confidence` -/
def TelemetryFrame.conf (frame : TelemetryFrame) : ℚ :=
  if frame.confidenceEma ≠ 0 then frame.confidenceEma else frame.modelConfidence

/-- L2 contextual bandit over stop thresholds, with the threshold it draws; the reason goes on
with the threshold. -/
def banditThresholdPolicy (threshold : ℚ) (frame : TelemetryFrame) : Option Decision :=
  if !cfg.banditEnabled then
    none
  else if frame.thinkingTokensSoFar < cfg.chunkSize then
    none
  else if threshold ≤ frame.conf ∧ 55 / 100 ≤ frame.answerStability then
    some {
      action := .earlyCommit
      reason := "bandit_threshold"
      forceClose := true
      confidence := frame.conf
      policyLayer := "L2" }
  else
    none

def ppoPolicyScaffold (frame : TelemetryFrame) (state : SessionState) : Option Decision :=
  let quality := frame.modelConfidence
  let latency := 1 - min 1 (frame.sloRemainingMs / max 1 state.budget.latencySloMs)
  let energy := frame.energySoFarJoules / max 1 state.budget.energyJoulesBudget
  let score := quality - 4 / 10 * frame.costSoFarUsd * 100 - 3 / 10 * latency - 2 / 10 * energy
  if !cfg.ppoEnabled then
    none
  else if score < 2 / 10 ∧ frame.cascadeTier < 3 ∧ 6 / 10 < frame.complexityScore then
    some {
      action := .escalateTier
      reason := "ppo_escalate"
      escalateToTier := some (frame.cascadeTier + 1)
      governorAccuracyDemand := 9 / 10
      policyLayer := "L3" }
  else if 85 / 100 < score ∧ 7 / 10 < frame.toolConfidenceTop1 then
    some {
      action := .invokeTool
      reason := "ppo_invoke_tool"
      forceClose := true
      policyLayer := "L3" }
  else if frame.complexityScore < 25 / 100 ∧ 1 / 2 < quality then
    some {
      action := .switchQuant
      reason := "ppo_downgrade_quant"
      quantHint := some "Q4_0"
      governorAccuracyDemand := 4 / 10
      policyLayer := "L3" }
  else
    none

/-- `PolicyEngine.decide`: the first layer that decides. -/
def policyDecide (threshold : ℚ) (frame : TelemetryFrame) (state : SessionState) : Decision :=
  let layers :=
    [if cfg.l0HardConstraints then heuristicPolicy cfg frame state else none,
     if cfg.l1StreamingDetectors then streamingDetectorPolicy cfg frame state else none,
     if cfg.l2BanditThresholds then banditThresholdPolicy cfg threshold frame else none,
     if cfg.l3PpoScaffold ∨ cfg.ppoEnabled then ppoPolicyScaffold cfg frame state else none]
  (layers.findSome? id).getD { action := .continue, reason := "default", policyLayer := "none" }

-- ------ What the decisions do to a budget

/-- The decision sets or changes the remaining tokens. -/
def Decision.Rebudgets (d : Decision) : Prop := d.newBudget ≠ none ∨ d.budgetDelta ≠ 0

instance (d : Decision) : Decidable d.Rebudgets := inferInstanceAs (Decidable (_ ∨ _))

/-- A decision of the governor never asks for more than remains: it names a budget within it, or
a negative change, or neither and then leaves the budget alone. -/
def Decision.Lowers (d : Decision) (rem : ℤ) : Prop :=
  d.action ≠ .increaseBudget ∧
    ((∃ v, d.newBudget = some v ∧ v ≤ rem) ∨
     (d.newBudget = none ∧ d.budgetDelta < 0) ∨
     (¬ d.Rebudgets ∧ d.action ≠ .decreaseBudget))

variable {cfg}

variable {frame : TelemetryFrame}

variable {d : Decision}

theorem heuristicPolicy_lowers {state : SessionState} (h : heuristicPolicy cfg frame state = some d)
    : d.Lowers state.budget.remainingTokens := by
  simp only [heuristicPolicy] at h
  split at h
  · cases h
    refine ⟨?_, .inl ⟨_, rfl, min_le_left _ _⟩⟩
    dsimp only
    split
    · simp
    · simp
  split at h
  · cases h
    exact ⟨by simp, .inr (.inr ⟨by simp [Decision.Rebudgets], by simp⟩)⟩
  split at h
  · cases h
    exact ⟨by simp, .inr (.inl ⟨rfl, by dsimp only; omega⟩)⟩
  split at h
  · next hSoft =>
    cases h
    exact ⟨by simp, .inl ⟨_, rfl, by omega⟩⟩
  split at h
  · cases h
    exact ⟨by simp, .inl ⟨_, rfl, min_le_left _ _⟩⟩
  split at h
  · cases h
    exact ⟨by simp, .inr (.inr ⟨by simp [Decision.Rebudgets], by simp⟩)⟩
  split at h
  · cases h
    exact ⟨by simp, .inr (.inr ⟨by simp [Decision.Rebudgets], by simp⟩)⟩
  · exact nomatch h

theorem lowers_of_silent (hBudget : d.newBudget = none) (hDelta : d.budgetDelta = 0)
    (hAction : d.action ≠ .increaseBudget ∧ d.action ≠ .decreaseBudget) (rem : ℤ) :
    d.Lowers rem :=
  ⟨hAction.1, .inr (.inr ⟨by simp [Decision.Rebudgets, hBudget, hDelta], hAction.2⟩)⟩

theorem streamingDetectorPolicy_lowers {state : SessionState}
    (h : streamingDetectorPolicy cfg frame state = some d) :
    d.Lowers state.budget.remainingTokens := by
  simp only [streamingDetectorPolicy] at h
  split at h
  · cases h
    exact ⟨by simp, .inl ⟨_, rfl, min_le_left _ _⟩⟩
  split at h
  · cases h
    exact lowers_of_silent rfl rfl (by simp) _
  split at h
  · split at h
    · cases h
      exact lowers_of_silent rfl rfl (by simp) _
    · cases h
      exact lowers_of_silent rfl rfl (by simp) _
  split at h
  · cases h
    exact lowers_of_silent rfl rfl (by simp) _
  split at h
  · cases h
    exact lowers_of_silent rfl rfl (by simp) _
  · exact nomatch h

theorem banditThresholdPolicy_lowers {threshold : ℚ}
    (h : banditThresholdPolicy cfg threshold frame = some d) (rem : ℤ) : d.Lowers rem := by
  simp only [banditThresholdPolicy] at h
  split at h
  · exact nomatch h
  split at h
  · exact nomatch h
  split at h
  · cases h
    exact lowers_of_silent rfl rfl (by simp) _
  · exact nomatch h

theorem ppoPolicyScaffold_lowers {state : SessionState}
    (h : ppoPolicyScaffold cfg frame state = some d) (rem : ℤ) : d.Lowers rem := by
  simp only [ppoPolicyScaffold] at h
  split at h
  · exact nomatch h
  split at h
  · cases h
    exact lowers_of_silent rfl rfl (by simp) _
  split at h
  · cases h
    exact lowers_of_silent rfl rfl (by simp) _
  split at h
  · cases h
    exact lowers_of_silent rfl rfl (by simp) _
  · exact nomatch h

/-- **Every decision of the engine lowers the budget or leaves it alone.** -/
theorem policyDecide_lowers (threshold : ℚ) (frame : TelemetryFrame) (state : SessionState) :
    (policyDecide cfg threshold frame state).Lowers state.budget.remainingTokens := by
  unfold policyDecide
  dsimp only
  cases hFound : List.findSome? id _ with
  | none => exact lowers_of_silent rfl rfl (by simp) _
  | some d =>
    obtain ⟨layer, hMem, hLayer⟩ := List.exists_of_findSome?_eq_some hFound
    simp only [id] at hLayer
    subst hLayer
    simp only [List.mem_cons, List.not_mem_nil, or_false, eq_comm (a := some d),
      ite_eq_iff, reduceCtorEq, and_false, or_false] at hMem
    rcases hMem with ⟨-, h⟩ | ⟨-, h⟩ | ⟨-, h⟩ | ⟨-, h⟩
    · exact heuristicPolicy_lowers h
    · exact streamingDetectorPolicy_lowers h
    · exact banditThresholdPolicy_lowers h _
    · exact ppoPolicyScaffold_lowers h _

end Neuroswarm.Rtg
