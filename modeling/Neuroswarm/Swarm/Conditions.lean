import Mathlib.Algebra.Order.Ring.Rat
import Neuroswarm.Swarm.Types

/-!
# Task graph — evaluation of conditions

`evaluate` of every constructor in `conditions.py`. The context map is what a
condition can read of it (`Environment`): values looked up by key, the budget
mapping, the tool and model sets, and what a registered predicate does when it is
called on the context.
-/

namespace Neuroswarm.Swarm

/-- `NodeStatus.value`; a status in a context map is compared by it. -/
def NodeStatus.value : NodeStatus → String
  | .pending => "pending"
  | .queued => "queued"
  | .ready => "ready"
  | .running => "running"
  | .waiting => "waiting"
  | .succeeded => "succeeded"
  | .failed => "failed"
  | .cancelled => "cancelled"
  | .skipped => "skipped"
  | .timedOut => "timed_out"
  | .retrying => "retrying"
  | .checkpointed => "checkpointed"

/-- What `run` tells apart among the exceptions that reach it: `CancellationError`,
the graph's own `TimeoutError`, and everything else. -/
inductive GraphException where
  | cancellation
  | timeout (text : String)
  | other (text : String)
  deriving DecidableEq, Repr

/-- A value of a context map, as `float()` sees it. -/
inductive Reading where
  | missing
  | null
  | number (q : ℚ)
  | notANumber (text : String)
  deriving DecidableEq, Repr

/-- `float(value)`, a missing value being `dflt`. -/
def Reading.toFloat (dflt : ℚ) : Reading → Except GraphException ℚ
  | .missing => .ok dflt
  | .null => .error (.other "float() argument must be a string or a real number, not 'NoneType'")
  | .number q => .ok q
  | .notANumber text => .error (.other text)

/-- What a condition reads of its context. -/
structure Environment where
  value : String → Reading := fun _ => .missing
  budget : String → Reading := fun _ => .missing
  availableTools : Except String (List String) := .ok []
  availableModels : Except String (List String) := .ok []
  custom : String → Option (Except GraphException Bool) := fun _ => none

namespace Environment

/-- `all(t in available for t in wanted)`; building the set may raise. -/
def containsAll (available : Except String (List String)) (wanted : List String) :
    Except GraphException Bool :=
  match available with
  | .error text => .error (.other text)
  | .ok names => .ok (wanted.all (· ∈ names))

/-- `latency_ms_used`, from the context or else from its budget. -/
def latencyMsUsed (env : Environment) : Except GraphException ℚ :=
  match env.value "latency_ms_used" with
  | .missing | .null => (env.budget "latency_ms_used").toFloat 0
  | used => used.toFloat 0

end Environment

/-- The statuses that `Failure` counts. -/
def failureStatuses : List NodeStatus := [.failed, .timedOut, .cancelled]

namespace Condition

mutual

/-- `evaluate(ctx)`; `statuses` is `ctx["node_statuses"]`, by value. -/
def evaluate (env : Environment) (statuses : NodeId → Option String) :
    Condition → Except GraphException Bool
  | .always => .ok true
  | .never => .ok false
  | .success nodeIds =>
    .ok (nodeIds.all fun nid => (statuses nid).any (· ∈ successStatuses.map NodeStatus.value))
  | .failure nodeIds =>
    .ok (nodeIds.any fun nid => (statuses nid).any (· ∈ failureStatuses.map NodeStatus.value))
  | .confidenceThreshold threshold key =>
    match env.value key with
    | .missing | .null => .ok false
    | val => (val.toFloat 0).map fun q => decide (threshold ≤ q)
  | .budgetThreshold maxCostUsd =>
    ((env.budget "cost_usd_used").toFloat 0).map fun used => decide (used ≤ maxCostUsd)
  | .latencyThreshold maxLatencyMs =>
    env.latencyMsUsed.map fun used => decide (used ≤ maxLatencyMs)
  | .memoryThreshold maxPressure =>
    ((env.value "memory_pressure").toFloat 0).map fun pressure => decide (pressure ≤ maxPressure)
  | .toolAvailability tools => Environment.containsAll env.availableTools tools
  | .modelAvailability models => Environment.containsAll env.availableModels models
  | .custom name =>
    match env.custom name with
    | none => .error (.other s!"custom condition not registered: {name}")
    | some called => called
  | .and children => evaluateAll env statuses children
  | .or children => evaluateAny env statuses children
  | .not child => (child.evaluate env statuses).map (!·)

/-- `all(c.evaluate(ctx) for c in children)`, which stops at the first false one. -/
def evaluateAll (env : Environment) (statuses : NodeId → Option String) :
    List Condition → Except GraphException Bool
  | [] => .ok true
  | c :: cs =>
    match c.evaluate env statuses with
    | .ok true => evaluateAll env statuses cs
    | res => res

/-- `any(c.evaluate(ctx) for c in children)`, which stops at the first true one. -/
def evaluateAny (env : Environment) (statuses : NodeId → Option String) :
    List Condition → Except GraphException Bool
  | [] => .ok false
  | c :: cs =>
    match c.evaluate env statuses with
    | .ok false => evaluateAny env statuses cs
    | res => res

end

end Condition

/-- `evaluate_condition(condition, ctx)`; the dict is parsed again. -/
def evaluateCondition (env : Environment) (statuses : NodeId → Option String) :
    Option RawCondition → Except GraphException Bool
  | none => .ok true
  | some (.error text) => .error (.other text)
  | some (.ok c) => c.evaluate env statuses

end Neuroswarm.Swarm
