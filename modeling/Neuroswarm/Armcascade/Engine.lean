import Mathlib.Data.List.DropRight
import Neuroswarm.Lib.Loop
import Neuroswarm.Armcascade.Escalation

/-!
# ArmCascade — the engine

`ASCREngine.run` of `armcascade/engine.py`. The classifier, the policy engine, the cost model
and the arm adapter have answered when the loop begins (`CascadeTask`); what the proposer, the
verifier, the thresholds and the backends answer in a round is that round's `RoundInput`.

* `ASCREngine.round` — one pass of the loop.
* `ASCREngine.run` — the whole request.

Left out, since nothing here reads it: what is passed to proposer, verifier and backends, the
thresholds that only they are told, the memory connector's answer, traces and metrics. The
backends that the policy names are registered. Integers that `float` is applied to are within
its range, but for the number in the name of the start node.
-/

namespace Neuroswarm.Armcascade

-- ------ Requests and answers

structure ThresholdSet where
  acceptThreshold : ℚ := 7 / 10
  escalateThreshold : ℚ := 4 / 10
  qualityAcceptThreshold : ℚ := 55 / 100

structure PolicyDecision where
  proposalStrategy : String := "draft_model"
  graphName : String := "default_linear"
  draftBackend : String := "tier1"
  verifyBackend : String := "tier2"
  escalateBackend : String := "tier3"
  qualityCascadeFallback : Bool := true
  tier3Speculative : Bool := false

structure ExecutionPlan where
  speculation : Bool := true
  selfSpeculation : Bool := false
  cascadeStartTier : Int := 1
  tier3Speculative : Bool := false

/-- A request with the classification, policy and plan made for it. `toolNeeded` and
`memoryNeeded` are what the escalation state begins with; the telemetry is read once. -/
structure CascadeTask where
  plan : ExecutionPlan := {}
  policy : PolicyDecision := {}
  maxTokens : Int := 1024
  stream : Bool := false
  toolNeeded : Bool := false
  memoryNeeded : Bool := false
  toolConfidence : ℚ := 0
  reasoningConfidence : ℚ := 1
  latencyBudgetMs : ℚ := 4000
  cpuUtilization : ℚ := 1 / 2
  kvPressure : ℚ := 0
  maxRounds : Nat := 4

structure VerifyResult where
  acceptedPrefixLen : Int := 0
  agreement : ℚ := 0
  entropy : ℚ := 1 / 2
  text : Text := []
  logitsAvailable : Bool := false
  qualityScore : ℚ := 0
  backend : String := ""
  model : String := ""

structure Generated where
  text : Text
  backend : String := ""
  model : String := ""

/-- What a round is answered; `none` where the call raises. `prepared` says that the proposer
and the verifier took the backend they were given, and `streamed` is used where the answer is
streamed. -/
structure RoundInput (M : Type*) where
  thresholds : ThresholdSet := {}
  latencyUsedMs : ℚ := 0
  prepared : Bool := true
  proposal : Option (Proposal M) := none
  verified : Option VerifyResult := none
  generated : Generated
  streamed : Option Generated := none

/-- What a whole request is answered: whether the strategies could be initialized and bound,
the rounds by their number, and the final generation. -/
structure Answers (M : Type*) where
  bound : Bool := true
  round : Nat → RoundInput M
  final : Text

inductive RunMode where
  | speculative
  | textAgree
  | qualityCascade
  deriving DecidableEq, Repr

/-- The local variables of the loop. -/
structure LoopState where
  rounds : Nat := 0
  escState : EscalationState
  mode : RunMode := .speculative
  useQuality : Bool := false
  committed : Text := []
  lastVerifyText : Text := []
  lastBackend : String
  lastModel : String
  tierUsed : Int
  lastConfidence : ℚ := 0
  sawLogits : Bool := false
  generatedTokens : Int := 0
  acceptedTokens : Int := 0
  rejectedTokens : Int := 0
  draftTokens : Int := 0
  verifierCalls : Nat := 0
  escalations : Nat := 0

structure GenerateResult where
  text : Text
  completionTokens : Nat
  backend : String
  model : String
  tierUsed : Int
  confidence : ℚ
  mode : RunMode
  rounds : Nat
  logitsAvailable : Bool
  escalated : Bool
  draftTokens : Int
  acceptedTokens : Int
  rejectedTokens : Int
  startTier : Nat

inductive RunError where
  | noGraph
  | strategy
  | slotId
  | recordVerifyRound
  | stream
  | startTier
  deriving DecidableEq, Repr

def prefixText (text : Text) (nTokens : Int) : Text :=
  if nTokens ≤ 0 ∨ isBlank text then [] else unwords ((split text).take nTokens.toNat)

/-- An engine over proposals with metadata in `M` and slot ids in `V`. -/
structure ASCREngine (M V : Type*) where
  graphs : Dict String EscalationGraph
  confidence : FusedConfidenceEngine := {}
  historyAccept : ℚ := 7 / 10
  /-- `text_agree_accept` -/
  textAgreeAccept : Bool := true
  /-- `quality_early_accept_floor`, of the configuration or the environment -/
  earlyFloor : Option ℚ := none
  /-- `NSA_ASCR_TIER1_ACCEPT` -/
  tier1Accept : ℚ := 78 / 100
  textQualityScore : Text → ℚ
  /-- `metadata.get("slot_id") or metadata.get("id_slot")` -/
  slotId : M → Option V
  /-- `int(sid)` -/
  toInt : V → Option Int
  /-- there is a `dipa_runtime`, and the backend has `decode` -/
  streams : String → Bool := fun _ => false
  /-- There is a method `_record_verify_round`; the class has none. What it may do to the
  counters is left out. -/
  recordsRounds : Bool := false

namespace ASCREngine

variable {M V : Type*} (e : ASCREngine M V) (t : CascadeTask)

-- ------ Rounds

abbrev Round := Loop.Flow RunError LoopState

def backendForTier (tierId : Int) : String :=
  if tierId ≤ 1 then t.policy.draftBackend
  else if tierId = 2 then t.policy.verifyBackend
  else t.policy.escalateBackend

def escalate (s : LoopState) (edge : EscalationEdge) : LoopState :=
  { s with
    escState :=
      { s.escState with
        visited := s.escState.visited ++ [s.escState.current]
        current := edge.target }
    escalations := s.escalations + 1 }

/-- A tool or memory node. -/
def hop (graph : EscalationGraph) (s : LoopState) : Round :=
  match GraphEscalationEngine.next graph s.escState with
  | none => .stop s
  | some edge => .next (escalate s edge)

def shouldEarlyAcceptQuality (conf : ℚ) (tierId : Int) (threshold : ℚ) : Bool :=
  threshold ≤ conf ∨ tierId ≤ 2 ∧ e.earlyFloor.getD threshold ≤ conf

/-- `_quality_cascade_tier_stream` or `_quality_cascade_tier` -/
def qualityAnswer (input : RoundInput M) (tierId : Int) : Option Generated :=
  if 3 ≤ tierId ∧ t.stream ∧ e.streams (backendForTier t tierId) then input.streamed
  else some input.generated

def qualityRound (graph : EscalationGraph) (input : RoundInput M) (tierId : Int)
    (s : LoopState) : Round :=
  match e.qualityAnswer t input tierId with
  | none => .raised .stream
  | some result =>
    let backendName := backendForTier t tierId
    let conf := e.textQualityScore result.text
    let s :=
      { s with
        committed := result.text
        lastVerifyText := result.text
        lastBackend := if result.backend = "" then backendName else result.backend
        lastModel := if result.model = "" then backendName else result.model
        escState := { s.escState with confidence := conf }
        lastConfidence := conf }
    if e.shouldEarlyAcceptQuality conf tierId input.thresholds.qualityAcceptThreshold ∨
        3 ≤ tierId then
      .stop
        { s with
          acceptedTokens := s.acceptedTokens + approxTokens s.committed
          mode := .qualityCascade }
    else
      match GraphEscalationEngine.next graph s.escState with
      | none => .stop s
      | some edge => .next { escalate s edge with mode := .qualityCascade }

/-- `committed + " " + prefix`, stripped, or the prefix alone. -/
def extend (committed piece : Text) : Text :=
  if committed = [] then piece
  else ((committed ++ ' ' :: piece).dropWhile isSpace).rdropWhile isSpace

/-- What follows the decision on a draft. -/
def commit (graph : EscalationGraph) (proposal : Proposal M) (vres : VerifyResult)
    (decision : AcceptanceDecision) (s : LoopState) : Round :=
  let words := prefixText proposal.text decision.acceptedPrefixLen
  match decision.action with
  | .accept =>
    let piece := if words = [] then s.lastVerifyText else words
    let tokens :=
      if decision.acceptedPrefixLen = 0 then (approxTokens piece : Int)
      else decision.acceptedPrefixLen
    .stop
      { s with
        committed := extend s.committed piece
        generatedTokens := s.generatedTokens + tokens
        acceptedTokens := s.acceptedTokens + tokens }
  | .partialAccept =>
    let s :=
      if words = [] then s
      else
        { s with
          committed := extend s.committed words
          generatedTokens := s.generatedTokens + decision.acceptedPrefixLen
          acceptedTokens := s.acceptedTokens + decision.acceptedPrefixLen }
    let current := if graph.nodes.contains "tier2" then "tier2" else s.escState.current
    .next { s with useQuality := true, escState := { s.escState with current } }
  | .increaseSpeculation | .reduceSpeculation => .next s
  | .reject | .escalate =>
    let s :=
      { s with
        rejectedTokens :=
          s.rejectedTokens + max 0 (proposal.draftLen - vres.acceptedPrefixLen) }
    let fallback :=
      if s.committed ≠ [] then s.committed
      else if s.lastVerifyText ≠ [] then s.lastVerifyText
      else proposal.text
    match GraphEscalationEngine.next graph s.escState with
    | none => .stop { s with committed := fallback }
    | some edge =>
      if edge.target = "accept" then .stop { escalate s edge with committed := fallback }
      else .next (escalate s edge)

/-- `int(proposal.draft_len or approx_tokens(proposal.text))` -/
def roundDraftTokens (proposal : Proposal M) : Int :=
  if proposal.draftLen = 0 then approxTokens proposal.text else proposal.draftLen

def signals (input : RoundInput M) (tierId : Int) (proposal : Proposal M)
    (vres : VerifyResult) : AcceptanceSignals :=
  { agreement := vres.agreement
    entropy := vres.entropy
    qualityScore := vres.qualityScore
    historicalAcceptance := e.historyAccept
    toolConfidence := t.toolConfidence
    reasoningConfidence := t.reasoningConfidence
    latencyBudgetMs := t.latencyBudgetMs
    latencyUsedMs := input.latencyUsedMs
    cpuUtilization := t.cpuUtilization
    kvPressure := t.kvPressure
    draftLen := roundDraftTokens proposal
    acceptedPrefixLen := vres.acceptedPrefixLen
    acceptThreshold :=
      if t.policy.proposalStrategy = "speculative_from_tier1" then e.tier1Accept
      else input.thresholds.acceptThreshold
    escalateThreshold := input.thresholds.escalateThreshold
    isTerminalTier := 3 ≤ tierId }

def modeAfter (vres : VerifyResult) (mode : RunMode) : RunMode :=
  if ¬ vres.logitsAvailable ∧ t.policy.qualityCascadeFallback then
    if e.textAgreeAccept ∨ vres.agreement < 2 / 10 then
      if 2 / 10 ≤ vres.agreement then .textAgree else .qualityCascade
    else mode
  else if vres.logitsAvailable then .speculative
  else mode

/-- The bookkeeping of a verification. -/
def verified (proposal : Proposal M) (vres : VerifyResult) (fused : ℚ) (s : LoopState) :
    LoopState :=
  { s with
    escState := { s.escState with confidence := fused }
    lastConfidence := fused
    verifierCalls := s.verifierCalls + 1
    lastVerifyText := if vres.text = [] then proposal.text else vres.text
    lastBackend := if vres.backend = "" then s.lastBackend else vres.backend
    lastModel := if vres.model = "" then s.lastModel else vres.model
    sawLogits := s.sawLogits ∨ vres.logitsAvailable
    mode := e.modeAfter t vres s.mode }

def judge (graph : EscalationGraph) (input : RoundInput M) (tierId : Int)
    (proposal : Proposal M) (vres : VerifyResult) (s : LoopState) : Round :=
  let signals := e.signals t input tierId proposal vres
  if e.recordsRounds then
    commit graph proposal vres (e.confidence.decide signals)
      (e.verified t proposal vres (e.confidence.fuse signals) s)
  else
    .raised .recordVerifyRound

/-- `int(sid)` raises. -/
def refusesSlot (proposal : Proposal M) : Bool :=
  (e.slotId proposal.metadata).any fun sid => (e.toInt sid).isNone

/-- A round of proposing and verifying. -/
def speculativeRound (graph : EscalationGraph) (input : RoundInput M) (tierId : Int)
    (s : LoopState) : Round :=
  if input.prepared = false then
    .raised .strategy
  else
    match input.proposal with
    | none => .next { s with mode := .qualityCascade, useQuality := true }
    | some proposal =>
      if e.refusesSlot proposal then
        .raised .slotId
      else
        let s := { s with draftTokens := s.draftTokens + proposal.draftLen }
        if isBlank proposal.text then
          .next { s with useQuality := true }
        else
          match input.verified with
          | none => .next { s with useQuality := true }
          | some vres => e.judge t graph input tierId proposal vres s

def round (graph : EscalationGraph) (input : RoundInput M) (s : LoopState) : Round :=
  if max 1 t.maxTokens ≤ s.generatedTokens then
    .stop s
  else
    let s := { s with rounds := s.rounds + 1 }
    match graph.nodes.get? s.escState.current with
    | none => .stop s
    | some node =>
      if node.kind = "accept" then .stop s
      else if node.kind = "tool" ∨ node.kind = "memory" then hop graph s
      else
        let s := { s with tierUsed := node.tier }
        if s.useQuality ∨ s.mode = .qualityCascade then e.qualityRound t graph input node.tier s
        else e.speculativeRound t graph input node.tier s

-- ------ The whole request

/-- The graph of the policy, or `default_linear`; the latter also when the planned tier is in
it and not in the former. -/
def graph? : Option EscalationGraph :=
  let linear := e.graphs.get? "default_linear"
  let chosen := (e.graphs.get? t.policy.graphName).or linear
  let planned := if t.plan.cascadeStartTier = 0 then 1 else t.plan.cascadeStartTier
  let want := "tier" ++ toString planned
  if 2 ≤ planned ∧ linear.any (·.nodes.contains want) ∧
      chosen.any (fun graph => graph.nodes.contains want = false) then
    linear
  else
    chosen

def startsInQuality : Bool :=
  2 ≤ startTier t.plan.cascadeStartTier ∧
    ¬ (t.policy.proposalStrategy = "speculative_from_tier1" ∨ t.plan.tier3Speculative ∨
      t.policy.tier3Speculative) ∧
    ¬ (t.plan.speculation ∧
      t.policy.proposalStrategy ∈ ["draft_model", "speculative_from_tier1"])

def start (graph : EscalationGraph) : LoopState :=
  { escState :=
      { current := resolveCascadeStartNode graph t.plan.cascadeStartTier
        toolNeeded := t.toolNeeded
        memoryNeeded := t.memoryNeeded }
    mode := if startsInQuality t then .qualityCascade else .speculative
    useQuality :=
      startsInQuality t ∨
        (¬ t.plan.speculation ∧ ¬ t.plan.selfSpeculation ∧
          t.policy.proposalStrategy ∉ ["self_speculation", "ngram", "suffix"] ∧
          t.policy.qualityCascadeFallback)
    lastBackend := t.policy.draftBackend
    lastModel := t.policy.draftBackend
    tierUsed := startTier t.plan.cascadeStartTier }

def passes (graph : EscalationGraph) (answers : Answers M) (s : LoopState) : Round :=
  e.round t graph (answers.round s.rounds) s

def finish (graph : EscalationGraph) (answers : Answers M) (s : LoopState) :
    Except RunError GenerateResult :=
  let s :=
    if s.committed = [] then
      { s with
        committed := answers.final
        lastBackend := t.policy.escalateBackend
        tierUsed := 3
        mode := if s.sawLogits then s.mode else .qualityCascade }
    else s
  let mode := if s.sawLogits ∧ s.mode ≠ .qualityCascade then .speculative else s.mode
  match startTierNumber (resolveCascadeStartNode graph t.plan.cascadeStartTier) with
  | none => .error .startTier
  | some startTier =>
    .ok
      { text := s.committed
        completionTokens := approxTokens s.committed
        backend := s.lastBackend
        model := s.lastModel
        tierUsed := s.tierUsed
        confidence := s.lastConfidence
        mode
        rounds := s.rounds
        logitsAvailable := s.sawLogits
        escalated := s.escalations ≠ 0
        draftTokens := s.draftTokens
        acceptedTokens := s.acceptedTokens
        rejectedTokens := s.rejectedTokens
        startTier }

def run (answers : Answers M) : Except RunError GenerateResult :=
  match e.graph? t with
  | none => .error .noGraph
  | some graph =>
    if answers.bound then
      match Loop.exec (e.passes t graph answers) t.maxRounds (start t graph) with
      | .error error => .error error
      | .ok s => finish t graph answers s
    else
      .error .strategy

end ASCREngine

end Neuroswarm.Armcascade
