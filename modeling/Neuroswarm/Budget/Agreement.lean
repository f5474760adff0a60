import Mathlib.Tactic.Ring
import Neuroswarm.Lib.Run
import Neuroswarm.Budget.Tracker
import Neuroswarm.Budget.Envelope

/-!
# Budget envelope — the ledger and the accounting

What is spent is recorded twice: in the categories, each under the name its caller
gave, and in the accounting object, whose total of tokens is derived from its parts.
For every dimension but the total the two stay equal whatever the callers report
(`dimension_mirror`). The category `tokens_total` is charged only with what a caller
reports under that very name, so it keeps step exactly when every report carries the
total of its parts (`agrees_iff`).
-/

namespace Neuroswarm.Budget

open Run Rounding ExecutionAccounting BudgetRuntimeState

def agreedDimensions : List String :=
  ["prompt_tokens", "completion_tokens", "reasoning_tokens", "tokens_total", "cost_usd",
   "tool_calls", "retries", "cpu_seconds"]

def countedDimensions : List String :=
  ["prompt_tokens", "completion_tokens", "reasoning_tokens", "tokens_total", "tool_calls", "retries"]

/-- An amount a caller can report for a dimension. -/
def IsAmount (name : String) (x : ℚ) : Prop := 0 ≤ x ∧ (name ∈ countedDimensions → x.den = 1)

instance (name : String) (x : ℚ) : Decidable (IsAmount name x) :=
  inferInstanceAs (Decidable (_ ∧ _))

def dimension (acc : ExecutionAccounting) (name : String) : ℚ :=
  (acc.asDimensionDelta.lookup name).getD 0

def tokenParts : List String := ["prompt_tokens", "completion_tokens", "reasoning_tokens"]

/-- Whether what is reported for `part` counts towards `name`. -/
def countsFor (name part : String) : Bool :=
  if name = "tokens_total" then part ∈ tokenParts else part = name

variable {name : String}

theorem truncate_of_isAmount {x : ℚ} (h : IsAmount name x) (hName : name ∈ countedDimensions) :
    (truncate x : ℚ) = x := by
  have hx : (x.num : ℚ) = x := Rat.den_eq_one_iff x |>.mp (h.2 hName)
  rw [← hx, truncate_intCast]

section

variable (acc : ExecutionAccounting)

end

-- ------ The mirror

@[simp] theorem dimension_promptTokens : dimension acc "prompt_tokens" = acc.promptTokens := rfl

@[simp] theorem dimension_completionTokens :
    dimension acc "completion_tokens" = acc.completionTokens := rfl

@[simp] theorem dimension_reasoningTokens :
    dimension acc "reasoning_tokens" = acc.reasoningTokens := rfl

@[simp] theorem dimension_tokensTotal : dimension acc "tokens_total" = acc.totalTokens := rfl

@[simp] theorem dimension_costUsd :
    dimension acc "cost_usd" = acc.estimatedCostUsd + acc.plannerOverheadUsd := rfl

@[simp] theorem dimension_toolCalls : dimension acc "tool_calls" = acc.toolCalls := rfl

@[simp] theorem dimension_retries : dimension acc "retries" = acc.retries := rfl

@[simp] theorem dimension_cpuSeconds : dimension acc "cpu_seconds" = acc.cpuSeconds := rfl

theorem dimension_record (hName : name ∈ agreedDimensions)
    {m : String × (ExecutionAccounting → ℚ → ExecutionAccounting)} (hm : m ∈ mirrors)
    (acc : ExecutionAccounting) {x : ℚ} (hx : IsAmount m.1 x) :
    dimension (m.2 acc x) name = dimension acc name + if countsFor name m.1 then x else 0 := by
  have hMax : max 0 x = x := max_eq_right hx.1
  have hTruncate := truncate_of_isAmount hx
  simp only [agreedDimensions, List.mem_cons, List.not_mem_nil, or_false] at hName
  simp only [mirrors, List.mem_cons, List.not_mem_nil, or_false] at hm
  rcases hm with rfl | rfl | rfl | rfl | rfl | rfl | rfl | rfl | rfl | rfl | rfl | rfl <;>
    simp only [countedDimensions, List.mem_cons, List.not_mem_nil, String.reduceEq, or_true,
      true_or, or_self, forall_const, IsEmpty.forall_iff] at hTruncate <;>
    rcases hName with rfl | rfl | rfl | rfl | rfl | rfl | rfl | rfl <;>
    simp [recordTokens, recordCost, recordEnergy, recordMemory, recordKv, recordTool, recordRetry,
      recordTiming, totalTokens, countsFor, tokenParts, hMax, hTruncate]
  -- the parts of a sum, in another order
  all_goals ring

/-- What a report raises the accounting of a dimension by. -/
def increase (name : String) (actual : Amounts) : ℚ :=
  if name = "tokens_total" then
    actual.of "prompt_tokens" + actual.of "completion_tokens" + actual.of "reasoning_tokens"
  else
    actual.of name

/-- Every amount of the report is one its dimension can have. -/
def Reported (actual : Amounts) : Prop :=
  ∀ name x, actual.get? name = some x → IsAmount name x

instance (actual : Amounts) : Decidable (Reported actual) :=
  decidable_of_iff (∀ e ∈ actual.entries, IsAmount e.1 e.2) Dict.forall_mem_entries_iff

variable {actual : Amounts}

theorem Reported.nonneg (h : Reported actual) {x : ℚ} (hGet : actual.get? name = some x) :
    0 ≤ x :=
  (h name x hGet).1

theorem foldl_mirrors (hName : name ∈ agreedDimensions) (hActual : Reported actual)
    {ms : List (String × (ExecutionAccounting → ℚ → ExecutionAccounting))} (hms : ms ⊆ mirrors)
    (acc : ExecutionAccounting) :
    dimension (ms.foldl (fun acc m => (actual.get? m.1).elim acc (m.2 acc)) acc) name =
      dimension acc name + (ms.map fun m => if countsFor name m.1 then actual.of m.1 else 0).sum := by
  induction ms generalizing acc with
  | nil => simp
  | cons m ms ih =>
    have hm : m ∈ mirrors := hms List.mem_cons_self
    have hStep : dimension ((actual.get? m.1).elim acc (m.2 acc)) name =
        dimension acc name + if countsFor name m.1 then actual.of m.1 else 0 := by
      unfold Amounts.of
      cases hGet : actual.get? m.1 with
      | none => simp
      | some x => exact dimension_record hName hm acc (hActual m.1 x hGet)
    rw [List.foldl_cons, ih (fun m' h => hms (List.mem_cons_of_mem m h)), hStep, List.map_cons,
      List.sum_cons, add_assoc]

/-- **What the mirror does to the dimensions.** -/
theorem dimension_mirror (hName : name ∈ agreedDimensions) (hActual : Reported actual)
    (acc : ExecutionAccounting) :
    dimension (acc.mirror actual) name = dimension acc name + increase name actual := by
  rw [mirror, foldl_mirrors hName hActual (List.Subset.refl _)]
  congr 1
  simp only [agreedDimensions, List.mem_cons, List.not_mem_nil, or_false] at hName
  rcases hName with rfl | rfl | rfl | rfl | rfl | rfl | rfl | rfl <;>
    simp [mirrors, countsFor, tokenParts, increase, add_assoc]

-- ------ Calls

inductive TrackerCall where
  | reserve (amounts : Amounts)
  | reconcile (actual : Amounts) (reserved : Option Amounts)
  | consume (amounts : Amounts)

namespace TrackerCall

def step (state : BudgetRuntimeState) : TrackerCall → BudgetRuntimeState
  | .reserve amounts => (state.reserve amounts).2
  | .reconcile actual reserved => state.reconcile actual reserved
  | .consume amounts => (state.consume amounts).2

def Valid (_ : BudgetRuntimeState) : TrackerCall → Prop
  | .reserve amounts => Reported amounts
  | .reconcile actual _ => Reported actual
  | .consume amounts => Reported amounts

instance (state : BudgetRuntimeState) : DecidablePred (Valid state)
  | .reserve amounts => inferInstanceAs (Decidable (Reported amounts))
  | .reconcile actual _ => inferInstanceAs (Decidable (Reported actual))
  | .consume amounts => inferInstanceAs (Decidable (Reported amounts))

def NamesTotal (actual : Amounts) : Prop :=
  actual.of "tokens_total" = increase "tokens_total" actual

/-- Whatever is recorded carries the total of its token parts. -/
def TotalNamed (state : BudgetRuntimeState) : TrackerCall → Prop
  | .reserve _ => True
  | .reconcile actual _ => NamesTotal actual
  | .consume amounts => state.Refuses amounts ∨ NamesTotal amounts

end TrackerCall

def Agrees (state : BudgetRuntimeState) : Prop :=
  ∀ name ∈ agreedDimensions, ∃ cat, state.categories.get? name = some cat ∧
    cat.consumed = dimension state.accounting name

/-- What carries the agreement from call to call. -/
structure AgreementInv (state : BudgetRuntimeState) : Prop where
  agrees : Agrees state
  consumed_nonneg : ∀ name cat, state.categories.get? name = some cat → 0 ≤ cat.consumed
  running : state.aborted = false

variable {state : BudgetRuntimeState}

theorem AgreementInv.reserve (h : AgreementInv state) (amounts : Amounts) :
    AgreementInv (state.reserve amounts).2 := by
  rcases state.reserve_cases amounts with ⟨-, hEq⟩ | ⟨-, -, state', hEq, hRun, hAcc, hCats⟩
  · rw [hEq]
    exact h
  rw [hEq]
  refine ⟨fun name hName => ?_, fun name cat hCat => ?_, hRun⟩
  · obtain ⟨cat, hCat, hConsumed⟩ := h.agrees name hName
    refine ⟨(amounts.get? name).elim cat cat.applyReserve, ?_, ?_⟩
    · rw [hCats, hCat]
      rfl
    · rw [hAcc, ← hConsumed]
      cases amounts.get? name with
      | none => rfl
      | some amount => exact BudgetCategory.applyReserve_consumed cat amount
  · rw [hCats, Option.map_eq_some_iff] at hCat
    obtain ⟨old, hOld, rfl⟩ := hCat
    cases amounts.get? name with
    | none => exact h.consumed_nonneg name old hOld
    | some amount =>
      rw [Option.elim_some, BudgetCategory.applyReserve_consumed]
      exact h.consumed_nonneg name old hOld

theorem consumed_reconcile (h : AgreementInv state) (hActual : Reported actual)
    (reserved : Option Amounts) {old : BudgetCategory}
    (hOld : state.categories.get? name = some old) :
    ∃ cat, (state.reconcile actual reserved).categories.get? name = some cat ∧
      cat.consumed = old.consumed + actual.of name := by
  rw [get?_reconcile, hOld, Option.map_some]
  refine ⟨_, rfl, ?_⟩
  unfold Amounts.of
  cases hGet : actual.get? name with
  | none => exact (add_zero _).symm
  | some act => exact settle_consumed (h.consumed_nonneg name old hOld) (hActual.nonneg hGet)

theorem agrees_reconcile_iff (h : AgreementInv state) (hActual : Reported actual)
    (reserved : Option Amounts) :
    Agrees (state.reconcile actual reserved) ↔ TrackerCall.NamesTotal actual := by
  -- before the report both sides are equal, so the two increases decide
  have hIff : ∀ name ∈ agreedDimensions,
      ((∃ cat, (state.reconcile actual reserved).categories.get? name = some cat ∧
        cat.consumed = dimension (state.reconcile actual reserved).accounting name) ↔
      actual.of name = increase name actual) := by
    intro name hName
    obtain ⟨old, hOld, hBefore⟩ := h.agrees name hName
    obtain ⟨cat, hCat, hConsumed⟩ := consumed_reconcile h hActual reserved hOld
    rw [reconcile_accounting, dimension_mirror hName hActual, ← hBefore, hCat]
    constructor
    · rintro ⟨cat', hEq, hSum⟩
      cases hEq
      rw [hConsumed] at hSum
      exact add_left_cancel hSum
    · intro hEq
      exact ⟨cat, rfl, by rw [hConsumed, hEq]⟩
  constructor
  · intro hAgrees
    have hTotal : "tokens_total" ∈ agreedDimensions := by decide
    exact (hIff _ hTotal).mp (hAgrees _ hTotal)
  · intro hTotal name hName
    rw [hIff name hName]
    by_cases hEq : name = "tokens_total"
    · rw [hEq]
      exact hTotal
    · rw [increase, if_neg hEq]

theorem AgreementInv.reconcile (h : AgreementInv state) (hActual : Reported actual)
    (hTotal : TrackerCall.NamesTotal actual) (reserved : Option Amounts) :
    AgreementInv (state.reconcile actual reserved) := by
  refine ⟨(agrees_reconcile_iff h hActual reserved).mpr hTotal, fun name cat hCat => ?_, h.running⟩
  obtain ⟨old, hOld⟩ : ∃ old, state.categories.get? name = some old := by
    rw [get?_reconcile, Option.map_eq_some_iff] at hCat
    obtain ⟨old, hOld, -⟩ := hCat
    exact ⟨old, hOld⟩
  obtain ⟨cat', hCat', hConsumed⟩ := consumed_reconcile h hActual reserved hOld
  rw [hCat, Option.some.injEq] at hCat'
  subst hCat'
  have hNonneg : 0 ≤ actual.of name := by
    unfold Amounts.of
    cases hGet : actual.get? name with
    | none => exact le_refl 0
    | some act => exact hActual.nonneg hGet
  have := h.consumed_nonneg name old hOld
  linarith

theorem consume_cases (h : AgreementInv state) (amounts : Amounts) :
    (state.Refuses amounts ∧ (state.consume amounts).2 = state) ∨
    (¬ state.Refuses amounts ∧ ∃ state', AgreementInv state' ∧
      (state.consume amounts).2 = state'.reconcile amounts (some amounts)) := by
  have hInv := h.reserve amounts
  unfold consume
  rcases state.reserve_cases amounts with ⟨hWhy, hEq⟩ | ⟨-, hNot, state', hEq, -⟩
  · left
    have hRefuses : state.Refuses amounts := hWhy.resolve_left (by simp [h.running])
    exact ⟨hRefuses, by rw [hEq]⟩
  · right
    rw [hEq] at hInv
    exact ⟨hNot, state', hInv, by rw [hEq]⟩

theorem AgreementInv.step {call : TrackerCall} (h : AgreementInv state) (hValid : call.Valid state)
    (hTotal : call.TotalNamed state) : AgreementInv (call.step state) := by
  cases call with
  | reserve amounts => exact h.reserve amounts
  | reconcile actual reserved => exact h.reconcile hValid hTotal reserved
  | consume amounts =>
    show AgreementInv (state.consume amounts).2
    rcases consume_cases h amounts with ⟨-, hEq⟩ | ⟨hNot, state', hInv, hEq⟩
    · rw [hEq]
      exact h
    · rw [hEq]
      exact hInv.reconcile hValid (hTotal.resolve_left hNot) _

theorem AgreementInv.breaks {call : TrackerCall} (h : AgreementInv state)
    (hValid : call.Valid state) (hNot : ¬ call.TotalNamed state) :
    ¬ Agrees (call.step state) := by
  cases call with
  | reserve amounts => exact absurd trivial hNot
  | reconcile actual reserved =>
    exact fun hAgrees => hNot ((agrees_reconcile_iff h hValid reserved).mp hAgrees)
  | consume amounts =>
    show ¬ Agrees (state.consume amounts).2
    have hBoth := not_or.mp hNot
    rcases consume_cases h amounts with ⟨hRefuses, -⟩ | ⟨-, state', hInv, hEq⟩
    · exact absurd hRefuses hBoth.1
    · rw [hEq]
      exact fun hAgrees => hBoth.2 ((agrees_reconcile_iff hInv hValid _).mp hAgrees)

def registered (template : EnvelopeTemplate) (cfg : BudgetRuntimeConfig)
    (extraCategories : Dict String BudgetCategory) : BudgetRuntimeState :=
  register (buildEnvelopeFromTemplate template cfg extraCategories).freeze.categories

theorem agreementInv_registered (template : EnvelopeTemplate) (cfg : BudgetRuntimeConfig)
    (extraCategories : Dict String BudgetCategory) :
    AgreementInv (registered template cfg extraCategories) := by
  have hFresh : ∀ name cat, (registered template cfg extraCategories).categories.get? name =
      some cat → cat.consumed = 0 := by
    intro name cat hCat
    rw [registered, get?_register, Option.map_eq_some_iff] at hCat
    obtain ⟨old, -, rfl⟩ := hCat
    rfl
  refine ⟨fun name hName => ?_, fun name cat hCat => le_of_eq (hFresh name cat hCat).symm, rfl⟩
  have hTemplate : ∀ name ∈ agreedDimensions, name ∈ templateDimensions := by decide
  have hZero : ∀ name ∈ agreedDimensions, dimension {} name = 0 := by decide +kernel
  obtain ⟨cat, hCat⟩ := exists_category template cfg extraCategories (hTemplate name hName)
  obtain ⟨f, -, hFreeze⟩ :=
    get?_freeze (buildEnvelopeFromTemplate template cfg extraCategories) name
  have hGet : (registered template cfg extraCategories).categories.get? name =
      some (buildCategory name (f cat).limit (f cat).hardness) := by
    rw [registered, get?_register, hFreeze, hCat]
    rfl
  exact ⟨_, hGet, (hZero name hName).symm⟩

/-- **The ledger agrees with the accounting exactly when the totals are named.** -/
theorem agrees_iff {template : EnvelopeTemplate} {cfg : BudgetRuntimeConfig}
    {extraCategories : Dict String BudgetCategory} {calls : List TrackerCall}
    (hValid : Every TrackerCall.step TrackerCall.Valid
      (registered template cfg extraCategories) calls) :
    Along TrackerCall.step Agrees (registered template cfg extraCategories) calls ↔
      Every TrackerCall.step TrackerCall.TotalNamed (registered template cfg extraCategories)
        calls :=
  along_iff_every_of (fun _ h => h.agrees) (fun _ _ h => h.step) (fun _ _ h => h.breaks)
    (agreementInv_registered template cfg extraCategories) hValid

def totalNamed : List TrackerCall :=
  [.consume ⟨[("prompt_tokens", 100), ("completion_tokens", 20), ("tokens_total", 120)], by decide⟩]

theorem agrees_iff_totalNamed :
    Every TrackerCall.step TrackerCall.Valid (registered {} {} Dict.empty) totalNamed ∧
    (Along TrackerCall.step Agrees (registered {} {} Dict.empty) totalNamed ↔
      Every TrackerCall.step TrackerCall.TotalNamed (registered {} {} Dict.empty) totalNamed) := by
  have hValid : Every TrackerCall.step TrackerCall.Valid (registered {} {} Dict.empty)
      totalNamed := by
    decide +kernel
  exact ⟨hValid, agrees_iff hValid⟩

/-- The operation names the tokens it used by their kind only. -/
def partsNamed : List TrackerCall :=
  [.consume ⟨[("prompt_tokens", 100), ("completion_tokens", 20)], by decide⟩]

theorem partsNamed_uncharged :
    Every TrackerCall.step TrackerCall.Valid (registered {} {} Dict.empty) partsNamed ∧
    ((exec TrackerCall.step (registered {} {} Dict.empty) partsNamed).categories.get?
      "tokens_total").map BudgetCategory.consumed = some 0 ∧
    dimension (exec TrackerCall.step (registered {} {} Dict.empty) partsNamed).accounting
      "tokens_total" = 120 ∧
    ¬ Along TrackerCall.step Agrees (registered {} {} Dict.empty) partsNamed := by
  have hUncharged : ((exec TrackerCall.step (registered {} {} Dict.empty)
      partsNamed).categories.get? "tokens_total").map BudgetCategory.consumed = some 0 := by
    decide +kernel
  have hTotal : dimension (exec TrackerCall.step (registered {} {} Dict.empty)
      partsNamed).accounting "tokens_total" = 120 := by
    decide +kernel
  refine ⟨by decide +kernel, hUncharged, hTotal, fun hAlong => ?_⟩
  obtain ⟨cat, hCat, hConsumed⟩ := hAlong.exec "tokens_total" (by decide)
  rw [hCat, Option.map_some, Option.some.injEq, hConsumed, hTotal] at hUncharged
  norm_num at hUncharged

end Neuroswarm.Budget
