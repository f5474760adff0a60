import Neuroswarm.Budget.Tracker
import Neuroswarm.Budget.Envelope

/-!
# Budget envelope — admission

`armora/budget/validator.py` (the two checks of a projected need),
`armora/budget/optimizer.py` (the degrade ladder) and
`BudgetLifecycle.create_and_freeze` of `armora/budget/lifecycle.py`. Telemetry
is left out; the estimator is whatever the optimizer was given.
-/

namespace Neuroswarm.Budget

open Rounding

-- ------ The validator

inductive AdmitMessage where
  /-- "{name}: projected={need} > limit={limit}" -/
  | overLimit (name : String) (need limit : ℚ)
  /-- "{name}: projected={need} > remaining={remaining}" -/
  | overRemaining (name : String) (need remaining : ℚ)
  /-- "optimizer abort" -/
  | optimizerAbort
  /-- "optimizer exhausted" -/
  | optimizerExhausted
  deriving DecidableEq, Repr

structure AdmitDecision where
  accepted : Bool
  softWarnings : List AdmitMessage := []
  hardFailures : List AdmitMessage := []
  optimized : Bool := false
  degradeActions : List String := []
  deriving DecidableEq, Repr

def Within (need bound : ℚ) : Prop := need ≤ bound + tolerance

instance (need bound : ℚ) : Decidable (Within need bound) :=
  inferInstanceAs (Decidable (_ ≤ _))

def judge (categories : Dict String BudgetCategory) (need : String → BudgetCategory → ℚ)
    (bound : BudgetCategory → ℚ) (msg : String → ℚ → ℚ → AdmitMessage) : AdmitDecision :=
  let beyond := categories.entries.filter fun e => ¬ Within (need e.1 e.2) (bound e.2)
  let report := fun e : String × BudgetCategory => msg e.1 (need e.1 e.2) (bound e.2)
  let hard := (beyond.filter fun e => e.2.hardness = .hard).map report
  { accepted := hard.isEmpty
    softWarnings := (beyond.filter fun e => e.2.hardness ≠ .hard).map report
    hardFailures := hard }

/-- `proj.get(name, cat.projected or cat.estimated or 0.0)`. -/
def envelopeNeed (projected : Amounts) (name : String) (cat : BudgetCategory) : ℚ :=
  (projected.get? name).getD
    (if cat.projected ≠ 0 then cat.projected else if cat.estimated ≠ 0 then cat.estimated else 0)

def validateEnvelope (envelope : BudgetEnvelope) (projected : Amounts) : AdmitDecision :=
  judge envelope.categories (envelopeNeed projected) BudgetCategory.limit .overLimit

/-- `proj.get(name, cat.projected or 0.0)`. -/
def stateNeed (projected : Amounts) (name : String) (cat : BudgetCategory) : ℚ :=
  (projected.get? name).getD (if cat.projected ≠ 0 then cat.projected else 0)

/-- The violation marks that `validate_state` leaves. -/
def markViolations (state : BudgetRuntimeState) (projected : Amounts) : BudgetRuntimeState :=
  { state with
    categories := state.categories.mapValues fun name cat =>
      if Within (stateNeed projected name cat) cat.remaining then cat.refreshViolation
      else { cat with violation := if cat.hardness = .hard then .breached else .warning } }

def validateState (state : BudgetRuntimeState) (projected : Amounts) :
    AdmitDecision × BudgetRuntimeState :=
  (judge state.categories (stateNeed projected) BudgetCategory.remaining .overRemaining,
    markViolations state projected)

-- ------ The plan

/-- The execution plan that the ladder cheapens. -/
structure Plan where
  tier : ℤ
  quantization : String
  reasoningTokens : ℤ
  promptTokens : ℤ
  allowSpeculation : Bool
  toolCalls : ℤ
  retries : ℤ
  deriving DecidableEq, Repr

/-- `int(envelope.categories[name].limit)`; every envelope of a template has the category. -/
def BudgetEnvelope.intLimit (envelope : BudgetEnvelope) (name : String) : ℤ :=
  ((envelope.categories.get? name).map fun cat => truncate cat.limit).getD 0

/-- The defaults that `optimize` plans with. -/
def Plan.initial (envelope : BudgetEnvelope) : Plan :=
  { tier :=
      if envelope.preferences.preferredModelTier ≠ 0 then envelope.preferences.preferredModelTier
      else 1
    quantization :=
      if envelope.preferences.preferredQuantization ≠ "" then
        envelope.preferences.preferredQuantization
      else "q4"
    reasoningTokens := envelope.intLimit "reasoning_tokens"
    promptTokens := envelope.intLimit "prompt_tokens"
    allowSpeculation := envelope.preferences.allowSpeculation
    toolCalls := envelope.intLimit "tool_calls"
    retries := envelope.intLimit "retries" }

structure ResourceProjection where
  p50 : Amounts
  p90 : Amounts

def ResourceProjection.pick (proj : ResourceProjection) (percentile : String) : Amounts :=
  if percentile = "p90" then proj.p90 else proj.p50

/-- What `project_action` answers for a model tier, at each of its calls. -/
abbrev Estimator := ℕ → ℤ → ResourceProjection

def Plan.needs (plan : Plan) : Amounts :=
  ⟨[("reasoning_tokens", plan.reasoningTokens), ("prompt_tokens", plan.promptTokens),
    ("tool_calls", plan.toolCalls), ("retries", plan.retries)], by
      simp only [List.map_cons, List.map_nil]
      decide⟩

/-- `_project_from_plan(plan)`, as the estimator's `call`-th projection. -/
def projectFromPlan (cfg : BudgetRuntimeConfig) (estimator : Option Estimator) (call : ℕ)
    (plan : Plan) : Amounts :=
  match estimator with
  | none => plan.needs
  | some project => ((project call plan.tier).pick cfg.reservePercentile).update plan.needs

-- ------ The degrade actions

/-- `{name: value}` where the state has the category, else `{}`. -/
def adjustment (state : BudgetRuntimeState) (name : String) (value : BudgetCategory → ℚ) :
    Amounts :=
  match state.categories.get? name with
  | some cat => ⟨[(name, value cat)], by simp⟩
  | none => Dict.empty

def lowerTier (_ : BudgetRuntimeState) (plan : Plan) : Plan × Amounts :=
  ({ plan with tier := max 1 (plan.tier - 1) }, Dict.empty)

/-- The quantizations from the costliest to the cheapest. -/
def quantizationOrder : List String := ["fp16", "q8", "q5", "q4", "q3"]

/-- Of the letters in these names, each is the lower case of itself and of its capital only. -/
def lowerQuant (state : BudgetRuntimeState) (plan : Plan) : Plan × Amounts :=
  let cur := plan.quantization.toLower
  if cur ∉ quantizationOrder then
    ({ plan with quantization := "q4" }, Dict.empty)
  else
    match quantizationOrder[quantizationOrder.idxOf cur + 1]? with
    | none => (plan, Dict.empty)
    | some next =>
      ({ plan with quantization := next },
        adjustment state "memory_bytes" fun cat => cat.limit * (85 / 100))

def cutReasoning (state : BudgetRuntimeState) (plan : Plan) : Plan × Amounts :=
  let nxt := max 0 (plan.reasoningTokens / 2)
  ({ plan with reasoningTokens := nxt }, adjustment state "reasoning_tokens" fun _ => nxt)

def trimContext (state : BudgetRuntimeState) (plan : Plan) : Plan × Amounts :=
  let nxt := max 256 (truncate (plan.promptTokens * (75 / 100)))
  ({ plan with promptTokens := nxt }, adjustment state "prompt_tokens" fun _ => nxt)

def disableSpeculation (_ : BudgetRuntimeState) (plan : Plan) : Plan × Amounts :=
  ({ plan with allowSpeculation := false }, Dict.empty)

def dropTools (state : BudgetRuntimeState) (plan : Plan) : Plan × Amounts :=
  let nxt := max 0 (plan.toolCalls - 1)
  ({ plan with toolCalls := nxt }, adjustment state "tool_calls" fun _ => nxt)

def cutRetries (state : BudgetRuntimeState) (plan : Plan) : Plan × Amounts :=
  let nxt := max 0 (plan.retries - 1)
  ({ plan with retries := nxt }, adjustment state "retries" fun _ => nxt)

def abort (_ : BudgetRuntimeState) (plan : Plan) : Plan × Amounts := (plan, Dict.empty)

def handlers : List (String × (BudgetRuntimeState → Plan → Plan × Amounts)) :=
  [("lower_tier", lowerTier), ("lower_quant", lowerQuant), ("cut_reasoning", cutReasoning),
   ("trim_context", trimContext), ("disable_speculation", disableSpeculation),
   ("drop_tools", dropTools), ("cut_retries", cutRetries), ("abort", abort)]

structure Draft where
  state : BudgetRuntimeState
  plan : Plan
  actions : List String
  deriving DecidableEq

/-- One step of the ladder before its check: whether it counts as taken, and what it leaves. -/
def degrade (d : Draft) (step : String) : Bool × Draft :=
  match handlers.lookup step with
  | none => (false, d)
  | some handler =>
    let (plan, adjustments) := handler d.state d.plan
    if adjustments.entries = [] then
      (false, { d with plan })
    else
      (true,
        { plan
          actions := d.actions ++ [step]
          state := { d.state with
            categories := d.state.categories.modifyEach adjustments fun _ value cat =>
              { cat with limit := min cat.limit value }.refreshViolation
            degradeActions := d.state.degradeActions ++ [step] } })

-- ------ The ladder

section

variable (cfg : BudgetRuntimeConfig) (estimator : Option Estimator)

def Draft.projection (d : Draft) : Amounts :=
  projectFromPlan cfg estimator d.actions.length d.plan

/-- The steps of the ladder, until one is followed by a check that accepts. -/
def climb : List String → Draft → AdmitDecision → AdmitDecision × Draft
  | [], d, decision =>
    ({ accepted := false
       softWarnings := decision.softWarnings
       hardFailures :=
        if decision.hardFailures = [] then [.optimizerExhausted] else decision.hardFailures
       optimized := true
       degradeActions := d.actions }, d)
  | step :: ladder, d, decision =>
    if step = "abort" then
      ({ accepted := false
         hardFailures := [.optimizerAbort]
         softWarnings := decision.softWarnings
         optimized := true
         degradeActions := d.actions ++ [step] }, { d with actions := d.actions ++ [step] })
    else
      match degrade d step with
      | (false, d) => climb ladder d decision
      | (true, d) =>
        let (decision, state) := validateState d.state (d.projection cfg estimator)
        if decision.accepted then
          ({ accepted := true
             softWarnings := decision.softWarnings
             optimized := true
             degradeActions := d.actions }, { d with state })
        else
          climb ladder { d with state } decision

def optimize (envelope : BudgetEnvelope) (state : BudgetRuntimeState) (projected : Amounts) :
    AdmitDecision × Draft :=
  let (decision, state) := validateState state projected
  let d : Draft := { state, plan := Plan.initial envelope, actions := [] }
  if decision.accepted ∧ decision.softWarnings = [] then (decision, d)
  else climb cfg estimator cfg.degradeLadder d decision

-- ------ The lifecycle

/-- The temporary state for the optimizer before the freeze. -/
def draftState (envelope : BudgetEnvelope) (projected : Amounts) : BudgetRuntimeState :=
  { phase := .validate
    categories := envelope.categories.modifyEach projected fun _ need cat =>
      { cat with projected := need } }

/-- The adjusted limits go back onto the envelope. -/
def BudgetEnvelope.withLimits (envelope : BudgetEnvelope) (draft : BudgetRuntimeState) :
    BudgetEnvelope :=
  { envelope with
    categories := envelope.categories.mapValues fun name cat =>
      { cat with limit := ((draft.categories.get? name).map BudgetCategory.limit).getD cat.limit } }

structure Admission where
  envelope : BudgetEnvelope
  state : BudgetRuntimeState
  decision : AdmitDecision

/-- The end of `create_and_freeze`: a rejected artifact, or the frozen envelope and its state. -/
def conclude (envelope : BudgetEnvelope) (decision : AdmitDecision) (actions : List String) :
    Admission :=
  if !decision.accepted then
    { envelope
      state := { phase := .rejected, categories := envelope.categories }
      decision }
  else
    let frozen := envelope.freeze
    { envelope := frozen
      state := { BudgetRuntimeState.register frozen.categories with degradeActions := actions }
      decision }

/-- `create_and_freeze`, with the template that the policy engine compiled. -/
def createAndFreeze (template : EnvelopeTemplate) (projected : Amounts) : Admission :=
  let envelope := buildEnvelopeFromTemplate template cfg Dict.empty
  let decision := validateEnvelope envelope projected
  if decision.accepted ∧ decision.softWarnings = [] then
    conclude envelope decision []
  else
    let (decision, d) := optimize cfg estimator envelope (draftState envelope projected) projected
    conclude (envelope.withLimits d.state) decision d.actions

end

end Neuroswarm.Budget
