import Neuroswarm.Armcascade.Types
import Neuroswarm.Lib.Argmax
import Neuroswarm.Lib.Dict

/-!
# ArmCascade — escalation graphs

`EscalationGraph` and `EscalationState` of `armcascade/interfaces/types.py`,
`escalation/engine.py`, and what `run` reads off the name of its start node.
-/

/-!
## Confidence and acceptance

`FusedConfidenceEngine.fuse` of `armcascade/confidence/engine.py` and
`AdaptiveAcceptanceEngine.decide` of `armcascade/acceptance/engine.py`. The task kind and
the cache hit ratio of the signals, which neither reads, are left out.

* `decideOn_terminal` — at the terminal tier the whole draft is accepted.
* `decideOn_accepts` — below it, the prefix that the verifier gave.
-/

namespace Neuroswarm.Armcascade

inductive AcceptanceAction where
  | accept
  | reject
  | partialAccept
  | reduceSpeculation
  | increaseSpeculation
  | escalate
  deriving DecidableEq, Repr

structure AcceptanceSignals where
  agreement : ℚ
  entropy : ℚ
  qualityScore : ℚ
  historicalAcceptance : ℚ
  toolConfidence : ℚ
  reasoningConfidence : ℚ
  latencyBudgetMs : ℚ
  latencyUsedMs : ℚ
  cpuUtilization : ℚ
  kvPressure : ℚ
  draftLen : Int
  acceptedPrefixLen : Int
  acceptThreshold : ℚ
  escalateThreshold : ℚ
  isTerminalTier : Bool := false

structure AcceptanceDecision where
  action : AcceptanceAction
  acceptedPrefixLen : Int := 0
  reason : String := ""
  adjustDraftDelta : Int := 0
  deriving DecidableEq, Repr

-- ------ Confidence

def clip (v : ℚ) : ℚ := max 0 (min 1 v)

/-- `DEFAULT_WEIGHTS`, and what the configuration puts in their place. -/
structure FusedConfidenceEngine where
  agreement : ℚ := 3 / 10
  quality : ℚ := 1 / 4
  historical : ℚ := 3 / 20
  entropyInv : ℚ := 1 / 10
  tool : ℚ := 1 / 10
  reasoning : ℚ := 1 / 20
  runtime : ℚ := 1 / 20

def FusedConfidenceEngine.fuse (w : FusedConfidenceEngine) (signals : AcceptanceSignals) : ℚ :=
  let entropyInv := 1 - min 1 (max 0 signals.entropy)
  let runtime := 1 - 1 / 2 * min 1 signals.cpuUtilization - 1 / 2 * min 1 signals.kvPressure
  let runtime := max 0 (min 1 runtime)
  let budgetOk :=
    if 0 < signals.latencyBudgetMs then
      max 0 (1 - signals.latencyUsedMs / signals.latencyBudgetMs)
    else
      1
  clip (w.agreement * clip signals.agreement + w.quality * clip signals.qualityScore +
    w.historical * clip signals.historicalAcceptance + w.entropyInv * entropyInv +
    w.tool * clip signals.toolConfidence + w.reasoning * clip signals.reasoningConfidence +
    w.runtime * (1 / 2 * runtime + 1 / 2 * budgetOk))

-- ------ Acceptance

def AcceptanceSignals.decideOn (signals : AcceptanceSignals) (fused : ℚ) : AcceptanceDecision :=
  let pressure := signals.latencyUsedMs / max signals.latencyBudgetMs 1
  if signals.isTerminalTier then
    { action := .accept
      acceptedPrefixLen := max signals.acceptedPrefixLen signals.draftLen
      reason := "terminal_tier" }
  else if 9 / 10 < pressure ∧ fused < signals.acceptThreshold then
    { action := .escalate, reason := "latency_pressure" }
  else if signals.acceptThreshold ≤ fused ∧ 0 < signals.acceptedPrefixLen then
    { action := .accept
      acceptedPrefixLen := signals.acceptedPrefixLen
      reason := "fused_accept" }
  else if 0 < signals.acceptedPrefixLen ∧ signals.acceptedPrefixLen < signals.draftLen ∧
      signals.escalateThreshold ≤ fused then
    { action := .partialAccept
      acceptedPrefixLen := signals.acceptedPrefixLen
      reason := "prefix_match" }
  else if fused < signals.escalateThreshold then
    { action := .escalate, reason := "below_escalate_threshold" }
  else if 8 / 10 < signals.historicalAcceptance ∧ signals.entropy < 4 / 10 then
    { action := .increaseSpeculation
      acceptedPrefixLen := signals.acceptedPrefixLen
      reason := "high_history_low_entropy"
      adjustDraftDelta := 2 }
  else if 85 / 100 < signals.kvPressure ∨ 9 / 10 < signals.cpuUtilization then
    { action := .reduceSpeculation
      acceptedPrefixLen := signals.acceptedPrefixLen
      reason := "resource_pressure"
      adjustDraftDelta := -2 }
  else if signals.acceptedPrefixLen = 0 then
    { action := .reject, reason := "zero_prefix" }
  else
    { action := .partialAccept
      acceptedPrefixLen := signals.acceptedPrefixLen
      reason := "default_partial" }

/-- `AdaptiveAcceptanceEngine(confidence).decide(signals)` -/
def FusedConfidenceEngine.decide (w : FusedConfidenceEngine) (signals : AcceptanceSignals) :
    AcceptanceDecision :=
  signals.decideOn (w.fuse signals)

section Decisions

variable {signals : AcceptanceSignals} {fused : ℚ}

theorem decideOn_terminal (h : signals.isTerminalTier = true) :
    signals.decideOn fused =
      { action := .accept
        acceptedPrefixLen := max signals.acceptedPrefixLen signals.draftLen
        reason := "terminal_tier" } := by
  rw [AcceptanceSignals.decideOn, if_pos h]

theorem decideOn_accepts (h : signals.isTerminalTier = false)
    (hAccepts : (signals.decideOn fused).action = .accept ∨
      (signals.decideOn fused).action = .partialAccept) :
    (signals.decideOn fused).acceptedPrefixLen = signals.acceptedPrefixLen ∧
      signals.acceptedPrefixLen ≠ 0 := by
  have hNot : ¬ signals.isTerminalTier = true := by simp [h]
  unfold AcceptanceSignals.decideOn at hAccepts ⊢
  rw [if_neg hNot] at hAccepts ⊢
  split_ifs at hAccepts ⊢ with hPressure hFused hPrefix hBelow hHistory hResource hZero
  · simp at hAccepts
  · exact ⟨rfl, by omega⟩
  · exact ⟨rfl, by omega⟩
  · simp at hAccepts
  · simp at hAccepts
  · simp at hAccepts
  · simp at hAccepts
  · exact ⟨rfl, hZero⟩

end Decisions

end Neuroswarm.Armcascade

/-! ## Escalation graphs -/

namespace Neuroswarm.Armcascade

structure EscalationNode where
  id : String
  /-- tier | tool | memory | accept | terminal -/
  kind : String := "tier"
  tierId : Option Int := none
  deriving DecidableEq, Repr

structure EscalationEdge where
  source : String
  target : String
  condition : String := "always"
  weight : ℚ := 1
  deriving DecidableEq

structure EscalationGraph where
  name : String
  nodes : Dict String EscalationNode := .empty
  edges : List EscalationEdge := []
  start : String := "tier1"
  deriving DecidableEq

def builtinLinearGraph : EscalationGraph :=
  { name := "default_linear"
    nodes :=
      (((Dict.empty.set "tier1" { id := "tier1", tierId := some 1 }).set
        "tier2" { id := "tier2", tierId := some 2 }).set
        "tier3" { id := "tier3", tierId := some 3 }).set
        "accept" { id := "accept", kind := "accept" }
    edges :=
      [{ source := "tier1", target := "accept", condition := "high_confidence" },
        { source := "tier1", target := "tier2", condition := "low_confidence" },
        { source := "tier2", target := "accept", condition := "high_confidence" },
        { source := "tier2", target := "tier3", condition := "low_confidence" },
        { source := "tier3", target := "accept" }] }

structure EscalationState where
  current : String
  confidence : ℚ := 0
  toolNeeded : Bool := false
  memoryNeeded : Bool := false
  visited : List String := []

/-- `int(node.tier_id or 1)` -/
def EscalationNode.tier (node : EscalationNode) : Int :=
  match node.tierId with
  | none => 1
  | some t => if t = 0 then 1 else t

-- ------ The start node

/-- `max(1, min(3, int(tier or 1)))` -/
def startTier (cascadeStartTier : Int) : Int :=
  max 1 (min 3 (if cascadeStartTier = 0 then 1 else cascadeStartTier))

def resolveCascadeStartNode (graph : EscalationGraph) (cascadeStartTier : Int) : String :=
  let candidates :=
    if startTier cascadeStartTier = 3 then ["tier3", "tier2", "tier1"]
    else if startTier cascadeStartTier = 2 then ["tier2", "tier1"]
    else ["tier1"]
  (candidates.find? graph.nodes.contains).getD graph.start

/-- The zeros of the decimal digits; each is followed by its nine others. -/
def decimalZeros : List Nat :=
  [0x30, 0x660, 0x6f0, 0x7c0, 0x966, 0x9e6, 0xa66, 0xae6, 0xb66, 0xbe6, 0xc66, 0xce6, 0xd66,
   0xde6, 0xe50, 0xed0, 0xf20, 0x1040, 0x1090, 0x17e0, 0x1810, 0x1946, 0x19d0, 0x1a80, 0x1a90,
   0x1b50, 0x1bb0, 0x1c40, 0x1c50, 0xa620, 0xa8d0, 0xa900, 0xa9d0, 0xa9f0, 0xaa50, 0xabf0, 0xff10,
   0x104a0, 0x10d30, 0x11066, 0x110f0, 0x11136, 0x111d0, 0x112f0, 0x11450, 0x114d0, 0x11650,
   0x116c0, 0x11730, 0x118e0, 0x11950, 0x11c50, 0x11d50, 0x11da0, 0x16a60, 0x16ac0, 0x16b50,
   0x1d7ce, 0x1d7d8, 0x1d7e2, 0x1d7ec, 0x1d7f6, 0x1e140, 0x1e2f0, 0x1e950, 0x1fbf0]

/-- The ranges of the other digits, such as superscripts. -/
def digitRanges : List (Nat × Nat) :=
  [(0xb2, 0xb3), (0xb9, 0xb9), (0x1369, 0x1371), (0x19da, 0x19da), (0x2070, 0x2070),
   (0x2074, 0x2079), (0x2080, 0x2089), (0x2460, 0x2468), (0x2474, 0x247c), (0x2488, 0x2490),
   (0x24ea, 0x24ea), (0x24f5, 0x24fd), (0x24ff, 0x24ff), (0x2776, 0x277e), (0x2780, 0x2788),
   (0x278a, 0x2792), (0x10a40, 0x10a43), (0x10e60, 0x10e68), (0x11052, 0x1105a),
   (0x1f100, 0x1f10a)]

def decimalValue (c : Char) : Option Nat :=
  (decimalZeros.find? fun z => z ≤ c.toNat ∧ c.toNat ≤ z + 9).map (c.toNat - ·)

def isDigit (c : Char) : Bool :=
  (decimalValue c).isSome ∨ digitRanges.any fun range => range.1 ≤ c.toNat ∧ c.toNat ≤ range.2

/-- `int(digits)`, which takes decimal digits only, and 4300 at most. -/
def intOfDigits (digits : List Char) : Option Nat :=
  if digits.length ≤ 4300 then
    (digits.mapM decimalValue).map (·.foldl (fun n d => 10 * n + d) 0)
  else
    none

/-- `float(int("".join(ch for ch in node if ch.isdigit()) or "1"))`, which raises beyond the
largest float. -/
def startTierNumber (node : String) : Option Nat :=
  let digits := node.toList.filter isDigit
  (intOfDigits (if digits = [] then ['1'] else digits)).filter (· < 2 ^ 1024 - 2 ^ 970)

-- ------ The next edge

namespace GraphEscalationEngine

/-- `_matches(condition, state)` -/
def satisfies (condition : String) (state : EscalationState) : Bool :=
  let c := (if condition = "" then "always" else condition).toLower
  if c = "always" then true
  else if c = "high_confidence" then 7 / 10 ≤ state.confidence
  else if c = "low_confidence" then state.confidence < 7 / 10
  else if c = "tool_needed" then state.toolNeeded
  else if c = "memory_needed" then state.memoryNeeded
  else false

def score (state : EscalationState) (edge : EscalationEdge) : ℚ :=
  edge.weight - if edge.target ∈ state.visited then 1 / 2 else 0

def next (graph : EscalationGraph) (state : EscalationState) : Option EscalationEdge :=
  let candidates := graph.edges.filter (·.source = state.current)
  let scored := candidates.filter (satisfies ·.condition state)
  if scored = [] then
    -- fallback: unconditional edges, then any
    (candidates.find? (·.condition = "always")).or candidates.head?
  else
    (scored.insertionSort fun a b => score state b ≤ score state a).head?

variable {graph : EscalationGraph} {state : EscalationState}

end GraphEscalationEngine

end Neuroswarm.Armcascade
