import Mathlib.Algebra.BigOperators.Ring.Finset
import Mathlib.Algebra.Order.BigOperators.Group.List
import Mathlib.Tactic.Positivity
import Neuroswarm.Rtg.Policy

/-!
# Reasoning token governor — control plane

`runtime/rtg/control/__init__.py` and the budget predictor of
`runtime/rtg/estimators/__init__.py`: allocation, reallocation after a decision,
rebalancing across the swarm, and the three calls of the streaming controller.

The sensors and the callers may set any field of a frame, so the frame that a call
ends up with is part of the call. The swarm manager registers and forgets a session
together with the controller: one dictionary stands for both.
-/

namespace Neuroswarm.Rtg

open Rounding

variable (cfg : RTGRuntimeConfig)

def predictTokens (frame : TelemetryFrame) : ℤ :=
  let complexity := if frame.complexityScore ≠ 0 then frame.complexityScore else 1 / 2
  let raw := cfg.baseBudget * max (15 / 100) complexity *
    (1 - cfg.costAlphaTool * frame.toolConfidenceTop1)
  max cfg.minBudget (min cfg.maxBudget (halfEven raw))

/-- `BudgetAllocator.initial_budget`. A frame has no `latency_spent_ms`, so the cut for a short
remaining latency is never made. -/
def initialBudget (frame : TelemetryFrame) : BudgetEnvelope :=
  let tokens := predictTokens cfg frame
  let tokens := if cfg.kvPressureSoft < frame.kvPressure then min tokens 512 else tokens
  let tokens := if cfg.memoryPressureHard < frame.memoryPressure then min tokens 256 else tokens
  let tokens :=
    if cfg.toolConfidenceCommit < frame.toolConfidenceTop1 then min tokens 256 else tokens
  let tokens :=
    if cfg.selfConsistencyCommit < frame.selfConsistencyScore then min tokens 128 else tokens
  let tokens :=
    if frame.kvHitRate < 20 / 100 ∧ 1 / 2 < frame.kvPressure then min tokens 384 else tokens
  let tokens := if 50 < frame.kvMigrationLatencyMs then min tokens 512 else tokens
  let tokens := max cfg.minBudget (min cfg.maxBudget tokens)
  { initialTokens := tokens
    remainingTokens := tokens
    minTokens := cfg.minBudget
    maxTokens := cfg.maxBudget
    energyJoulesBudget := cfg.energyJoulesBudget
    latencySloMs := if frame.sloRemainingMs ≠ 0 then frame.sloRemainingMs else cfg.sloSoftMs
    chunkSize := cfg.chunkSize }

/-- `BudgetReallocator.apply`. -/
def applyDecision (budget : BudgetEnvelope) (decision : Decision) : BudgetEnvelope :=
  let budget :=
    match decision.newBudget with
    | some v => { budget with remainingTokens := max budget.minTokens (min budget.maxTokens v) }
    | none => if decision.budgetDelta ≠ 0 then budget.applyDelta decision.budgetDelta else budget
  let budget :=
    if decision.action = .increaseBudget ∧ decision.budgetDelta = 0 then
      budget.applyDelta budget.chunkSize
    else budget
  if decision.action = .decreaseBudget ∧ decision.budgetDelta = 0 ∧ decision.newBudget = none then
    budget.applyDelta (-budget.chunkSize)
  else budget

-- ------ The swarm

def weight (st : SessionState) : ℚ :=
  let need := max (5 / 100) (1 - st.frame.conf)
  let cost := max (1 / 10 ^ 6) (st.budget.costSpentUsd + 1 / 10 ^ 4)
  max (1 / 100) (st.frame.agentPriority * need / cost)

def pool (sessions : Dict String SessionState) : ℤ :=
  min cfg.swarmGlobalTokens (sessions.values.map fun st => st.budget.remainingTokens).sum

/-- The tokens that a session is allotted. -/
def share (sessions : Dict String SessionState) (st : SessionState) : ℤ :=
  let total := (sessions.values.map weight).sum
  truncate (pool cfg sessions * (weight st / if total ≠ 0 then total else 1))

def reallot (budget : BudgetEnvelope) (tokens : ℤ) : BudgetEnvelope :=
  { budget with
    remainingTokens :=
      min budget.initialTokens (min budget.maxTokens (max budget.minTokens tokens)) }

def rebalance (sessions : Dict String SessionState) : Dict String SessionState :=
  if !cfg.swarmEnabled ∨ sessions.size < 2 then sessions
  else sessions.mapValues fun _ st =>
    { st with budget := reallot st.budget (share cfg sessions st) }

-- ------ The streaming controller

/-- `on_admit`, with the id and the frame that the sensors leave. -/
def onAdmit (sessions : Dict String SessionState) (sid : String) (frame : TelemetryFrame) :
    Dict String SessionState :=
  let state : SessionState := { phase := .streaming, budget := initialBudget cfg frame, frame }
  let sessions := sessions.set sid state
  if cfg.swarm then rebalance cfg sessions else sessions

/-- What a call of `on_chunk` brings: the arguments, the frame that decides, the threshold that
the bandit draws, and what admits the session if it is unknown. -/
structure Chunk where
  tokens : ℤ
  latencyMs : ℚ := 0
  frame : TelemetryFrame
  threshold : ℚ := 0
  admitSid : String
  admitFrame : TelemetryFrame

def consumeChunk (state : SessionState) (chunk : Chunk) : SessionState :=
  { state with
    budget := state.budget.consume chunk.tokens chunk.latencyMs
      (chunk.tokens / 1000 * cfg.costPer1kTokens)
    frame := chunk.frame }

/-- `DecisionEngine.decide`, and the phase that a terminal decision ends in. -/
def decideChunk (state : SessionState) (threshold : ℚ) : Decision × SessionState :=
  let decision := policyDecide cfg threshold state.frame state
  (decision,
    { state with
      budget := applyDecision state.budget decision
      decisions := state.decisions ++ [decision]
      lastAction := decision.action
      phase := if decision.terminal then .finalize else state.phase })

/-- The id that `on_chunk` works on, and the sessions with it admitted. -/
def ensureSession (sessions : Dict String SessionState) (sid : String) (chunk : Chunk) :
    String × Dict String SessionState :=
  if sessions.contains sid then (sid, sessions)
  else (chunk.admitSid, onAdmit cfg sessions chunk.admitSid chunk.admitFrame)

def onChunk (sessions : Dict String SessionState) (sid : String) (chunk : Chunk) :
    Dict String SessionState :=
  let (sid, sessions) := ensureSession cfg sessions sid chunk
  sessions.modify sid fun state => (decideChunk cfg (consumeChunk cfg state chunk) chunk.threshold).2

def onComplete (sessions : Dict String SessionState) (sid : String) : Dict String SessionState :=
  sessions.erase sid

-- ------ What is left

def BudgetEnvelope.left (budget : BudgetEnvelope) : ℤ := max 0 budget.remainingTokens

theorem left_nonneg (budget : BudgetEnvelope) : 0 ≤ budget.left := le_max_left _ _

def totalLeft (sessions : Dict String SessionState) : ℤ :=
  (sessions.values.map fun st => st.budget.left).sum

@[simp] theorem applyDelta_remaining (budget : BudgetEnvelope) (delta : ℤ) :
    (budget.applyDelta delta).remainingTokens =
      max budget.minTokens (min budget.maxTokens (budget.remainingTokens + delta)) := rfl

theorem left_applyDecision_le {budget : BudgetEnvelope} {d : Decision}
    (hLowers : d.Lowers budget.remainingTokens)
    (hMin : d.Rebudgets → budget.minTokens ≤ budget.left) :
    (applyDecision budget d).left ≤ budget.left := by
  obtain ⟨hAction, hCases⟩ := hLowers
  unfold applyDecision BudgetEnvelope.left at *
  rcases hCases with ⟨v, hNew, hLe⟩ | ⟨hNew, hDelta⟩ | ⟨hSilent, hAction'⟩
  · have := hMin (.inl (by simp [hNew]))
    simp only [hNew, hAction, false_and, if_false, reduceCtorEq, and_false]
    omega
  · have := hMin (.inr (by omega))
    have hne : d.budgetDelta ≠ 0 := by omega
    simp only [hNew, hAction, hne, ne_eq, not_false_eq_true, if_true, false_and, if_false, and_false,
      applyDelta_remaining]
    omega
  · unfold Decision.Rebudgets at hSilent
    rw [not_or, not_not, not_not] at hSilent
    simp [hSilent.1, hSilent.2, hAction, hAction']

-- ------ Shares

end Neuroswarm.Rtg
