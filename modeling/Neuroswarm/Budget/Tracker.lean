import Mathlib.Algebra.Order.Field.Rat
import Mathlib.Tactic.Linarith
import Neuroswarm.Lib.Dict
import Neuroswarm.Lib.Rounding

/-!
# Budget envelope — the tracker

`armora/budget/tracker.py`: the estimate / reserve / reconcile ledger of one
envelope. `get_state` finds the state of an envelope under the tracker's lock;
`reserve` and `reconcile` run to their end under that lock, `consume` takes it
twice, once for each of them.
-/

/-!
## Categories

`armora/budget/categories.py` and the enumerations of `armora/budget/schemas.py`.
Amounts are exact numbers; a unit, a confidence and the metadata of a category
are read by nothing modelled here and left out.
-/

namespace Neuroswarm.Budget

inductive Hardness where
  | soft
  | hard
  deriving DecidableEq, Repr

inductive ViolationState where
  | none
  | warning
  | breached
  deriving DecidableEq, Repr

inductive LifecyclePhase where
  | create
  | validate
  | optimize
  | freeze
  | execute
  | consume
  | check
  | report
  | persist
  | done
  | rejected
  | aborted
  deriving DecidableEq, Repr

abbrev Amounts := Dict String ℚ

/-- `amounts.get(name, 0.0)`. -/
def Amounts.of (amounts : Amounts) (name : String) : ℚ := (amounts.get? name).getD 0

/-- What every comparison with a limit allows for rounding. -/
def tolerance : ℚ := 1 / 10 ^ 12

/-- Base runtime category with shared accounting fields. -/
structure BudgetCategory where
  name : String
  limit : ℚ := 0
  consumed : ℚ := 0
  reserved : ℚ := 0
  estimated : ℚ := 0
  projected : ℚ := 0
  hardness : Hardness := .hard
  violation : ViolationState := .none
  deriving DecidableEq, Repr

namespace BudgetCategory

def remaining (cat : BudgetCategory) : ℚ := max 0 (cat.limit - cat.consumed - cat.reserved)

def refreshViolation (cat : BudgetCategory) : BudgetCategory :=
  let used := cat.consumed + cat.reserved
  if cat.limit + tolerance < used then
    { cat with violation := if cat.hardness = .hard then .breached else .warning }
  else if cat.limit + tolerance < cat.projected then
    { cat with violation := .warning }
  else
    { cat with violation := .none }

def applyConsume (cat : BudgetCategory) (amount : ℚ) : BudgetCategory :=
  { cat with consumed := max 0 (cat.consumed + amount) }.refreshViolation

def applyReserve (cat : BudgetCategory) (amount : ℚ) : BudgetCategory :=
  { cat with reserved := max 0 (cat.reserved + amount) }.refreshViolation

def releaseReserve (cat : BudgetCategory) (amount : ℚ) : BudgetCategory :=
  { cat with reserved := max 0 (cat.reserved - amount) }.refreshViolation

variable (cat : BudgetCategory)

theorem refreshViolation_eq :
    ∃ violation, cat.refreshViolation = { cat with violation } := by
  unfold refreshViolation
  dsimp only
  split
  · exact ⟨_, rfl⟩
  · split
    · exact ⟨_, rfl⟩
    · exact ⟨_, rfl⟩

@[simp] theorem refreshViolation_limit :
    cat.refreshViolation.limit = cat.limit := by
  obtain ⟨v, h⟩ := cat.refreshViolation_eq
  rw [h]

@[simp] theorem refreshViolation_consumed :
    cat.refreshViolation.consumed = cat.consumed := by
  obtain ⟨v, h⟩ := cat.refreshViolation_eq
  rw [h]

@[simp] theorem refreshViolation_reserved :
    cat.refreshViolation.reserved = cat.reserved := by
  obtain ⟨v, h⟩ := cat.refreshViolation_eq
  rw [h]

@[simp] theorem refreshViolation_projected :
    cat.refreshViolation.projected = cat.projected := by
  obtain ⟨v, h⟩ := cat.refreshViolation_eq
  rw [h]

@[simp] theorem refreshViolation_hardness :
    cat.refreshViolation.hardness = cat.hardness := by
  obtain ⟨v, h⟩ := cat.refreshViolation_eq
  rw [h]

@[simp] theorem applyConsume_limit (amount : ℚ) :
    (cat.applyConsume amount).limit = cat.limit := by
  simp [applyConsume]

@[simp] theorem applyConsume_reserved (amount : ℚ) :
    (cat.applyConsume amount).reserved = cat.reserved := by
  simp [applyConsume]

@[simp] theorem applyConsume_hardness (amount : ℚ) :
    (cat.applyConsume amount).hardness = cat.hardness := by
  simp [applyConsume]

theorem applyConsume_consumed {cat : BudgetCategory} {amount : ℚ} (h0 : 0 ≤ cat.consumed)
    (h : 0 ≤ amount) : (cat.applyConsume amount).consumed = cat.consumed + amount := by
  have : 0 ≤ cat.consumed + amount := by linarith
  simp [applyConsume, this]

@[simp] theorem applyReserve_limit (amount : ℚ) :
    (cat.applyReserve amount).limit = cat.limit := by
  simp [applyReserve]

@[simp] theorem applyReserve_consumed (amount : ℚ) :
    (cat.applyReserve amount).consumed = cat.consumed := by
  simp [applyReserve]

@[simp] theorem applyReserve_hardness (amount : ℚ) :
    (cat.applyReserve amount).hardness = cat.hardness := by
  simp [applyReserve]

theorem applyReserve_reserved {cat : BudgetCategory} {amount : ℚ} (h0 : 0 ≤ cat.reserved)
    (h : 0 ≤ amount) : (cat.applyReserve amount).reserved = cat.reserved + amount := by
  have : 0 ≤ cat.reserved + amount := by linarith
  simp [applyReserve, this]

@[simp] theorem releaseReserve_limit (amount : ℚ) :
    (cat.releaseReserve amount).limit = cat.limit := by
  simp [releaseReserve]

@[simp] theorem releaseReserve_consumed (amount : ℚ) :
    (cat.releaseReserve amount).consumed = cat.consumed := by
  simp [releaseReserve]

@[simp] theorem releaseReserve_hardness (amount : ℚ) :
    (cat.releaseReserve amount).hardness = cat.hardness := by
  simp [releaseReserve]

theorem releaseReserve_reserved {cat : BudgetCategory} {amount : ℚ} (h : amount ≤ cat.reserved) :
    (cat.releaseReserve amount).reserved = cat.reserved - amount := by
  have : 0 ≤ cat.reserved - amount := by linarith
  simp [releaseReserve, this]

theorem remaining_eq {cat : BudgetCategory} (h : cat.consumed + cat.reserved ≤ cat.limit) :
    cat.remaining = cat.limit - cat.consumed - cat.reserved :=
  max_eq_right (by linarith)

end BudgetCategory

def buildCategory (name : String) (limit : ℚ) (hardness : Hardness) : BudgetCategory :=
  { name, limit, hardness }

end Neuroswarm.Budget

/-!
## Execution accounting

`armora/budget/accounting.py`: what a request has used, counted by dimension.
-/

namespace Neuroswarm.Budget

open Rounding

structure ExecutionAccounting where
  promptTokens : ℤ := 0
  completionTokens : ℤ := 0
  reasoningTokens : ℤ := 0
  uncachedInTokens : ℤ := 0
  cacheWriteTokens : ℤ := 0
  cacheReadTokens : ℤ := 0
  cpuSeconds : ℚ := 0
  wallClockMs : ℚ := 0
  queueWaitMs : ℚ := 0
  executionTimeMs : ℚ := 0
  streamingTimeMs : ℚ := 0
  memoryBytes : ℚ := 0
  peakMemoryBytes : ℚ := 0
  averageMemoryBytes : ℚ := 0
  memorySamples : ℕ := 0
  kvCacheBytes : ℚ := 0
  toolCalls : ℤ := 0
  retries : ℤ := 0
  estimatedCostUsd : ℚ := 0
  estimatedEnergyJoules : ℚ := 0
  plannerOverheadUsd : ℚ := 0
  deriving DecidableEq, Repr

/-- The keyword arguments of `record_tokens`. -/
structure TokenRecord where
  prompt : ℤ := 0
  completion : ℤ := 0
  reasoning : ℤ := 0
  uncachedIn : ℤ := 0
  cacheWrite : ℤ := 0
  cacheRead : ℤ := 0

/-- The keyword arguments of `record_timing`. -/
structure TimingRecord where
  wallMs : ℚ := 0
  queueMs : ℚ := 0
  execMs : ℚ := 0
  streamMs : ℚ := 0
  cpuS : ℚ := 0

namespace ExecutionAccounting

def totalTokens (acc : ExecutionAccounting) : ℤ :=
  acc.promptTokens + acc.completionTokens + acc.reasoningTokens

def recordTokens (acc : ExecutionAccounting) (r : TokenRecord) : ExecutionAccounting :=
  { acc with
    promptTokens := acc.promptTokens + max 0 r.prompt
    completionTokens := acc.completionTokens + max 0 r.completion
    reasoningTokens := acc.reasoningTokens + max 0 r.reasoning
    uncachedInTokens := acc.uncachedInTokens + max 0 r.uncachedIn
    cacheWriteTokens := acc.cacheWriteTokens + max 0 r.cacheWrite
    cacheReadTokens := acc.cacheReadTokens + max 0 r.cacheRead }

def recordMemory (acc : ExecutionAccounting) (bytesUsed : ℚ) : ExecutionAccounting :=
  let b := max 0 bytesUsed
  let n := acc.memorySamples + 1
  { acc with
    memoryBytes := b
    peakMemoryBytes := max acc.peakMemoryBytes b
    averageMemoryBytes := (acc.averageMemoryBytes * acc.memorySamples + b) / n
    memorySamples := n }

def recordTiming (acc : ExecutionAccounting) (r : TimingRecord) : ExecutionAccounting :=
  { acc with
    wallClockMs := acc.wallClockMs + max 0 r.wallMs
    queueWaitMs := acc.queueWaitMs + max 0 r.queueMs
    executionTimeMs := acc.executionTimeMs + max 0 r.execMs
    streamingTimeMs := acc.streamingTimeMs + max 0 r.streamMs
    cpuSeconds := acc.cpuSeconds + max 0 r.cpuS }

def recordKv (acc : ExecutionAccounting) (bytesUsed : ℚ) : ExecutionAccounting :=
  { acc with kvCacheBytes := max acc.kvCacheBytes (max 0 bytesUsed) }

def recordTool (acc : ExecutionAccounting) (n : ℤ) : ExecutionAccounting :=
  { acc with toolCalls := acc.toolCalls + max 0 n }

def recordRetry (acc : ExecutionAccounting) (n : ℤ) : ExecutionAccounting :=
  { acc with retries := acc.retries + max 0 n }

def recordCost (acc : ExecutionAccounting) (usd : ℚ) : ExecutionAccounting :=
  { acc with estimatedCostUsd := acc.estimatedCostUsd + max 0 usd }

def recordEnergy (acc : ExecutionAccounting) (joules : ℚ) : ExecutionAccounting :=
  { acc with estimatedEnergyJoules := acc.estimatedEnergyJoules + max 0 joules }

def asDimensionDelta (acc : ExecutionAccounting) : List (String × ℚ) :=
  [("prompt_tokens", acc.promptTokens),
   ("completion_tokens", acc.completionTokens),
   ("reasoning_tokens", acc.reasoningTokens),
   ("tokens_total", acc.totalTokens),
   ("cost_usd", acc.estimatedCostUsd + acc.plannerOverheadUsd),
   ("energy_joules", acc.estimatedEnergyJoules),
   ("memory_bytes", acc.peakMemoryBytes),
   ("kv_bytes", acc.kvCacheBytes),
   ("tool_calls", acc.toolCalls),
   ("retries", acc.retries),
   ("cpu_seconds", acc.cpuSeconds),
   ("latency_ms", acc.wallClockMs),
   ("streaming_ms", acc.streamingTimeMs)]

/-- The dimensions that `reconcile` mirrors, in its order, with what it records for each. -/
def mirrors : List (String × (ExecutionAccounting → ℚ → ExecutionAccounting)) :=
  [("prompt_tokens", fun acc x => acc.recordTokens { prompt := truncate x }),
   ("completion_tokens", fun acc x => acc.recordTokens { completion := truncate x }),
   ("reasoning_tokens", fun acc x => acc.recordTokens { reasoning := truncate x }),
   ("cost_usd", recordCost),
   ("energy_joules", recordEnergy),
   ("memory_bytes", recordMemory),
   ("kv_bytes", recordKv),
   ("tool_calls", fun acc x => acc.recordTool (truncate x)),
   ("retries", fun acc x => acc.recordRetry (truncate x)),
   ("cpu_seconds", fun acc x => acc.recordTiming { cpuS := x }),
   ("latency_ms", fun acc x => acc.recordTiming { wallMs := x }),
   ("streaming_ms", fun acc x => acc.recordTiming { streamMs := x })]

def mirror (acc : ExecutionAccounting) (actual : Amounts) : ExecutionAccounting :=
  mirrors.foldl (fun acc m => (actual.get? m.1).elim acc (m.2 acc)) acc

end ExecutionAccounting

end Neuroswarm.Budget

/-! ## The tracker -/

namespace Neuroswarm.Budget

structure BudgetRuntimeState where
  phase : LifecyclePhase := .create
  categories : Dict String BudgetCategory := Dict.empty
  accounting : ExecutionAccounting := {}
  estimateErrors : Amounts := Dict.empty
  degradeActions : List String := []
  aborted : Bool := false
  rejectReason : String := ""
  deriving DecidableEq

namespace BudgetRuntimeState

/-- `BudgetTracker.register`: the state of a frozen envelope with these categories. -/
def register (envelope : Dict String BudgetCategory) : BudgetRuntimeState :=
  { phase := .execute
    categories := envelope.mapValues fun name cat => buildCategory name cat.limit cat.hardness }

/-- Every hard dimension has the amount left, up to the tolerance. -/
def hasRoom (state : BudgetRuntimeState) (amounts : Amounts) : Bool :=
  amounts.entries.all fun e =>
    match state.categories.get? e.1 with
    | none => true
    | some cat => !(cat.hardness = .hard ∧ cat.remaining + tolerance < e.2 : Bool)

def reserve (state : BudgetRuntimeState) (amounts : Amounts) : Bool × BudgetRuntimeState :=
  if state.aborted then
    (false, state)
  else if !state.hasRoom amounts then
    (false, state)
  else
    (true, { state with
      categories := state.categories.modifyEach amounts fun _ amount cat => cat.applyReserve amount
      phase := .consume })

/-- What `reconcile` does to the category of one dimension. -/
def settle (res act : ℚ) (cat : BudgetCategory) : BudgetCategory :=
  (if res ≠ 0 then cat.releaseReserve res else cat).applyConsume act

/-- `dict(reserved or actual)`. -/
def reservedMap (actual : Amounts) : Option Amounts → Amounts
  | none => actual
  | some reserved => if reserved.entries = [] then actual else reserved

/-- `state.estimate_errors[name] = act - (cat.estimated or res)` for the known dimensions. -/
def recordErrors (state : BudgetRuntimeState) (actual reserved : Amounts) : Amounts :=
  actual.entries.foldl
    (fun errors e =>
      match state.categories.get? e.1 with
      | none => errors
      | some cat =>
        errors.set e.1 (e.2 - if cat.estimated ≠ 0 then cat.estimated else reserved.of e.1))
    state.estimateErrors

def reconcile (state : BudgetRuntimeState) (actual : Amounts) (reserved : Option Amounts) :
    BudgetRuntimeState :=
  let reserved := reservedMap actual reserved
  { state with
    categories := state.categories.modifyEach actual fun name act cat =>
      settle (reserved.of name) act cat
    estimateErrors := state.recordErrors actual reserved
    accounting := state.accounting.mirror actual
    phase := .check }

/-- `BudgetTracker.consume`, when nothing else gets the lock between its two parts. -/
def consume (state : BudgetRuntimeState) (amounts : Amounts) : Bool × BudgetRuntimeState :=
  match state.reserve amounts with
  | (false, state) => (false, state)
  | (true, state) => (true, state.reconcile amounts (some amounts))

theorem get?_register (envelope : Dict String BudgetCategory) (name : String) :
    (register envelope).categories.get? name =
      (envelope.get? name).map fun cat => buildCategory name cat.limit cat.hardness :=
  Dict.get?_mapValues envelope _ name

def Refuses (state : BudgetRuntimeState) (amounts : Amounts) : Prop :=
  ∃ name cat amount, state.categories.get? name = some cat ∧ amounts.get? name = some amount ∧
    cat.hardness = .hard ∧ cat.remaining + tolerance < amount

theorem hasRoom_iff {state : BudgetRuntimeState} {amounts : Amounts} :
    state.hasRoom amounts = true ↔ ¬ state.Refuses amounts := by
  unfold hasRoom Refuses
  rw [List.all_eq_true]
  constructor
  · rintro hAll ⟨name, cat, amount, hCat, hAmount, hHard, hOver⟩
    have := hAll (name, amount) (Dict.mem_entries_iff.mpr hAmount)
    simp [hCat, hHard, hOver] at this
  · rintro hNone ⟨name, amount⟩ hMem
    dsimp only
    split
    · rfl
    · next cat hCat =>
      rw [Bool.not_eq_true', decide_eq_false_iff_not]
      rintro ⟨hHard, hOver⟩
      exact hNone ⟨name, cat, amount, hCat, Dict.mem_entries_iff.mp hMem, hHard, hOver⟩

theorem reserve_cases (state : BudgetRuntimeState) (amounts : Amounts) :
    ((state.aborted = true ∨ state.Refuses amounts) ∧ state.reserve amounts = (false, state)) ∨
    (state.aborted = false ∧ ¬ state.Refuses amounts ∧
      ∃ state', state.reserve amounts = (true, state') ∧ state'.aborted = false ∧
        state'.accounting = state.accounting ∧
        ∀ name, state'.categories.get? name = (state.categories.get? name).map fun cat =>
          (amounts.get? name).elim cat cat.applyReserve) := by
  unfold reserve
  by_cases hAborted : state.aborted = true
  · left
    exact ⟨.inl hAborted, by rw [if_pos hAborted]⟩
  rw [if_neg hAborted]
  rw [Bool.not_eq_true] at hAborted
  by_cases hRefuses : state.Refuses amounts
  · left
    have hRoom : state.hasRoom amounts = false := by
      rw [← Bool.not_eq_true, hasRoom_iff, not_not]
      exact hRefuses
    exact ⟨.inr hRefuses, by rw [hRoom]; rfl⟩
  · right
    rw [hasRoom_iff.mpr hRefuses]
    exact ⟨hAborted, hRefuses, _, rfl, hAborted, rfl, fun name => Dict.get?_modifyEach _ _ _ name⟩

theorem get?_reconcile (state : BudgetRuntimeState) (actual : Amounts) (reserved : Option Amounts)
    (name : String) :
    (state.reconcile actual reserved).categories.get? name =
      (state.categories.get? name).map fun cat => (actual.get? name).elim cat fun act =>
        settle ((reservedMap actual reserved).of name) act cat :=
  Dict.get?_modifyEach _ _ _ name

@[simp] theorem reconcile_accounting (state : BudgetRuntimeState) (actual : Amounts)
    (reserved : Option Amounts) :
    (state.reconcile actual reserved).accounting = state.accounting.mirror actual := rfl

@[simp] theorem settle_limit (res act : ℚ) (cat : BudgetCategory) :
    (settle res act cat).limit = cat.limit := by
  unfold settle
  split
  · simp
  · simp

@[simp] theorem settle_hardness (res act : ℚ) (cat : BudgetCategory) :
    (settle res act cat).hardness = cat.hardness := by
  unfold settle
  split
  · simp
  · simp

theorem settle_consumed {res act : ℚ} {cat : BudgetCategory} (h0 : 0 ≤ cat.consumed)
    (h : 0 ≤ act) : (settle res act cat).consumed = cat.consumed + act := by
  unfold settle
  split
  · rw [BudgetCategory.applyConsume_consumed (by simpa using h0) h,
      BudgetCategory.releaseReserve_consumed]
  · rw [BudgetCategory.applyConsume_consumed h0 h]

theorem settle_reserved {res act : ℚ} {cat : BudgetCategory} (h : res ≤ cat.reserved) :
    (settle res act cat).reserved = cat.reserved - res := by
  unfold settle
  split
  · rw [BudgetCategory.applyConsume_reserved, BudgetCategory.releaseReserve_reserved h]
  · next hZero =>
    rw [not_not] at hZero
    rw [BudgetCategory.applyConsume_reserved, hZero, sub_zero]

end BudgetRuntimeState

end Neuroswarm.Budget
