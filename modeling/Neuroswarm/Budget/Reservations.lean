import Mathlib.Algebra.Order.BigOperators.Group.List
import Neuroswarm.Lib.Run
import Neuroswarm.Budget.Tracker

/-!
# Budget envelope — reservations over overlapping operations

Any number of operations work on one envelope: each reserves its amounts and,
if they are granted, reconciles once with what it really used, at most what it
reserved. A `consume` is such an operation that uses all it reserved; between
its two parts others may run.

Reservations are conserved when the reserved amount of every category is the sum
over the operations still to reconcile and no hard category is charged beyond its
limit. Two kinds of steps break this. A reconciliation walks the actual amounts, so
a dimension that was reserved and not reported stays reserved for good; and a
reservation may exceed what is left by the rounding tolerance, which is measured
from a remainder that is never negative.
-/

namespace Neuroswarm.Budget

open Run

variable {Op : Type} [DecidableEq Op]

/-- The state of an envelope, with the operations that hold a reservation. -/
structure Ledger (Op : Type) where
  state : BudgetRuntimeState
  outstanding : Dict Op Amounts

inductive LedgerEvent (Op : Type) where
  | reserve (op : Op) (amounts : Amounts)
  | reconcile (op : Op) (actual : Amounts)

namespace Ledger

def start (envelope : Dict String BudgetCategory) : Ledger Op :=
  { state := .register envelope, outstanding := Dict.empty }

def step (l : Ledger Op) : LedgerEvent Op → Ledger Op
  | .reserve op amounts =>
    match l.state.reserve amounts with
    | (true, state) => { state, outstanding := l.outstanding.set op amounts }
    | (false, state) => { l with state }
  | .reconcile op actual =>
    match l.outstanding.get? op with
    | none => l
    | some reserved =>
      { state := l.state.reconcile actual (some reserved), outstanding := l.outstanding.erase op }

def held (l : Ledger Op) (name : String) : ℚ :=
  (l.outstanding.entries.map fun e => e.2.of name).sum

/-- Every operation reserves non-negative amounts and later reconciles once, with at most
what it reserved. -/
def Orderly (l : Ledger Op) : LedgerEvent Op → Prop
  | .reserve op amounts =>
    l.outstanding.get? op = none ∧ ∀ name amount, amounts.get? name = some amount → 0 ≤ amount
  | .reconcile op actual =>
    ∃ reserved, l.outstanding.get? op = some reserved ∧
      ∀ name act, actual.get? name = some act → 0 ≤ act ∧ act ≤ reserved.of name

structure Conserved (l : Ledger Op) : Prop where
  reserved_eq : ∀ name cat, l.state.categories.get? name = some cat → cat.reserved = l.held name
  settled : l.outstanding.entries = [] →
    ∀ name cat, l.state.categories.get? name = some cat → cat.reserved = 0
  hard_le : ∀ name cat, l.state.categories.get? name = some cat → cat.hardness = .hard →
    cat.consumed + cat.reserved ≤ cat.limit

/-- The steps that conserve: a reservation is refused or fits into what is left without the
tolerance, a reconciliation names every category of which something was reserved. -/
def Exact (l : Ledger Op) : LedgerEvent Op → Prop
  | .reserve _ amounts =>
    l.state.Refuses amounts ∨
      ∀ name cat amount, l.state.categories.get? name = some cat →
        amounts.get? name = some amount → cat.hardness = .hard → amount ≤ cat.remaining
  | .reconcile op actual =>
    ∀ reserved, l.outstanding.get? op = some reserved →
      ∀ name cat, l.state.categories.get? name = some cat → reserved.of name ≠ 0 →
        (actual.get? name).isSome

/-- What carries conservation from step to step. -/
structure Inv (l : Ledger Op) : Prop where
  conserved : Conserved l
  running : l.state.aborted = false
  consumed_nonneg : ∀ name cat, l.state.categories.get? name = some cat → 0 ≤ cat.consumed
  held_nonneg : ∀ op amounts, l.outstanding.get? op = some amounts → ∀ name, 0 ≤ amounts.of name

instance (l : Ledger Op) : DecidablePred (Orderly l)
  | .reserve op amounts =>
    decidable_of_iff (l.outstanding.get? op = none ∧ ∀ e ∈ amounts.entries, 0 ≤ e.2)
      (and_congr_right fun _ => Dict.forall_mem_entries_iff (P := fun _ amount => 0 ≤ amount))
  | .reconcile op actual =>
    match hOp : l.outstanding.get? op with
    | none => .isFalse fun ⟨_, h, _⟩ => nomatch hOp.symm.trans h
    | some reserved =>
      decidable_of_iff (∀ e ∈ actual.entries, 0 ≤ e.2 ∧ e.2 ≤ reserved.of e.1)
        (Iff.trans
          (Dict.forall_mem_entries_iff (P := fun name act => 0 ≤ act ∧ act ≤ reserved.of name))
          (by simp [Orderly, hOp]))

variable {amounts : Amounts}

theorem of_nonneg (h : ∀ name amount, amounts.get? name = some amount → 0 ≤ amount) (name : String)
    :
    0 ≤ amounts.of name := by
  unfold Amounts.of
  cases hGet : amounts.get? name with
  | none => exact le_refl 0
  | some amount => exact h name amount hGet

-- ------ What is held

variable {op : Op}

theorem held_set {outstanding : Dict Op Amounts} (h : outstanding.get? op = none)
    (state state' : BudgetRuntimeState) (amounts : Amounts) (name : String) :
    held ⟨state, outstanding.set op amounts⟩ name =
      held ⟨state', outstanding⟩ name + amounts.of name := by
  unfold held
  simp only [Dict.entries_set_of_none h, List.map_append, List.sum_append]
  simp

theorem held_erase {outstanding : Dict Op Amounts} (h : outstanding.get? op = some amounts)
    (state state' : BudgetRuntimeState) (name : String) :
    held ⟨state, outstanding⟩ name =
      amounts.of name + held ⟨state', outstanding.erase op⟩ name := by
  unfold held
  dsimp only
  rw [((Dict.perm_entries_erase h).map _).sum_eq, List.map_cons, List.sum_cons]

variable {l : Ledger Op}

theorem Inv.held_nonneg' (h : Inv l) (name : String) : 0 ≤ l.held name := by
  refine List.sum_nonneg fun x hx => ?_
  obtain ⟨⟨op, amounts⟩, hMem, rfl⟩ := List.mem_map.mp hx
  exact h.held_nonneg op amounts (Dict.mem_entries_iff.mp hMem) name

theorem Inv.of_le_reserved (h : Inv l) (hOp : l.outstanding.get? op = some amounts) {name : String}
    {cat : BudgetCategory} (hCat : l.state.categories.get? name = some cat) :
    amounts.of name ≤ cat.reserved := by
  rw [h.conserved.reserved_eq name cat hCat]
  refine List.single_le_sum (fun x hx => ?_) _ (List.mem_map.mpr ⟨_, Dict.mem_entries_iff.mpr hOp, rfl⟩)
  obtain ⟨⟨op', amounts'⟩, hMem, rfl⟩ := List.mem_map.mp hx
  exact h.held_nonneg op' amounts' (Dict.mem_entries_iff.mp hMem) name

omit [DecidableEq Op] in
theorem conserved_of
    (hReserved : ∀ name cat, l.state.categories.get? name = some cat → cat.reserved = l.held name)
    (hHard : ∀ name cat, l.state.categories.get? name = some cat → cat.hardness = .hard →
      cat.consumed + cat.reserved ≤ cat.limit) : Conserved l := by
  refine ⟨hReserved, fun hNone name cat hCat => ?_, hHard⟩
  rw [hReserved name cat hCat, held, hNone]
  rfl

-- ------ A reservation

theorem step_reserve (hRun : l.state.aborted = false) (op : Op) (amounts : Amounts) :
    (l.state.Refuses amounts ∧ l.step (.reserve op amounts) = l) ∨
    (¬ l.state.Refuses amounts ∧
      ∃ state, l.step (.reserve op amounts) = ⟨state, l.outstanding.set op amounts⟩ ∧
        state.aborted = false ∧
        ∀ name, state.categories.get? name = (l.state.categories.get? name).map fun cat =>
          (amounts.get? name).elim cat cat.applyReserve) := by
  unfold step
  dsimp only
  rcases l.state.reserve_cases amounts with ⟨hWhy, hEq⟩ | ⟨-, hNot, state, hEq, hRun', -, hCats⟩
  · left
    have hRefuses : l.state.Refuses amounts := by
      rcases hWhy with h | h
      · rw [hRun] at h
        exact absurd h Bool.false_ne_true
      · exact h
    exact ⟨hRefuses, by rw [hEq]⟩
  · right
    exact ⟨hNot, state, by rw [hEq], hRun', hCats⟩

theorem elim_applyReserve_reserved {cat : BudgetCategory} (h0 : 0 ≤ cat.reserved)
    (hAmounts : ∀ name amount, amounts.get? name = some amount → 0 ≤ amount) (name : String) :
    ((amounts.get? name).elim cat cat.applyReserve).reserved = cat.reserved + amounts.of name := by
  unfold Amounts.of
  cases hGet : amounts.get? name with
  | none => exact (add_zero _).symm
  | some amount => exact BudgetCategory.applyReserve_reserved h0 (hAmounts name amount hGet)

theorem Inv.step_reserve (h : Inv l) (hOrderly : Orderly l (.reserve op amounts))
    (hExact : Exact l (.reserve op amounts)) :
    Inv (l.step (.reserve op amounts)) := by
  obtain ⟨hFresh, hNonneg⟩ := hOrderly
  rcases Ledger.step_reserve h.running op amounts with ⟨-, hEq⟩ | ⟨hNot, state, hEq, hRun, hCats⟩
  · rw [hEq]
    exact h
  have hFits := hExact.resolve_left hNot
  rw [hEq]
  -- every category of the new state comes from one of the old state
  have hOld : ∀ name cat, state.categories.get? name = some cat →
      ∃ old, l.state.categories.get? name = some old ∧
        cat = (amounts.get? name).elim old old.applyReserve := by
    intro name cat hCat
    rw [hCats, Option.map_eq_some_iff] at hCat
    obtain ⟨old, hOld, rfl⟩ := hCat
    exact ⟨old, hOld, rfl⟩
  have hReserved0 : ∀ name old, l.state.categories.get? name = some old → 0 ≤ old.reserved := by
    intro name old hOld
    rw [h.conserved.reserved_eq name old hOld]
    exact h.held_nonneg' name
  refine ⟨conserved_of (fun name cat hCat => ?_) fun name cat hCat hHard => ?_, hRun,
    fun name cat hCat => ?_, fun op' amounts' hOp name => ?_⟩
  · obtain ⟨old, hGet, rfl⟩ := hOld name cat hCat
    rw [elim_applyReserve_reserved (hReserved0 name old hGet) hNonneg,
      h.conserved.reserved_eq name old hGet, held_set hFresh state l.state]
  · obtain ⟨old, hGet, rfl⟩ := hOld name cat hCat
    cases hAmount : amounts.get? name with
    | none =>
      rw [hAmount] at hHard
      exact h.conserved.hard_le name old hGet hHard
    | some amount =>
      rw [hAmount] at hHard
      simp only [Option.elim_some, BudgetCategory.applyReserve_hardness] at hHard
      have hOldLe := h.conserved.hard_le name old hGet hHard
      have hLe := hFits name old amount hGet hAmount hHard
      rw [BudgetCategory.remaining_eq hOldLe] at hLe
      simp only [Option.elim_some, BudgetCategory.applyReserve_consumed,
        BudgetCategory.applyReserve_limit,
        BudgetCategory.applyReserve_reserved (hReserved0 name old hGet) (hNonneg name amount hAmount)]
      linarith
  · obtain ⟨old, hGet, rfl⟩ := hOld name cat hCat
    cases hAmount : amounts.get? name with
    | none => exact h.consumed_nonneg name old hGet
    | some amount =>
      simp only [Option.elim_some, BudgetCategory.applyReserve_consumed]
      exact h.consumed_nonneg name old hGet
  · rw [Dict.get?_set] at hOp
    split at hOp
    · cases hOp
      exact of_nonneg hNonneg name
    · exact h.held_nonneg op' amounts' hOp name

theorem Inv.reserve_breaks (h : Inv l) (hOrderly : Orderly l (.reserve op amounts))
    (hNot : ¬ Exact l (.reserve op amounts)) :
    ¬ Conserved (l.step (.reserve op amounts)) := by
  intro hAfter
  unfold Exact at hNot
  push Not at hNot
  obtain ⟨hGranted, name, cat, amount, hCat, hAmount, hHard, hOver⟩ := hNot
  rcases Ledger.step_reserve h.running op amounts with ⟨hRefuses, -⟩ | ⟨-, state, hEq, -, hCats⟩
  · exact hGranted hRefuses
  rw [hEq] at hAfter
  have hNew : state.categories.get? name = some (cat.applyReserve amount) := by
    rw [hCats, hCat, hAmount]
    rfl
  have hReserved0 : 0 ≤ cat.reserved := by
    rw [h.conserved.reserved_eq name cat hCat]
    exact h.held_nonneg' name
  have hLe := hAfter.hard_le name _ hNew (by simpa using hHard)
  rw [BudgetCategory.applyReserve_consumed, BudgetCategory.applyReserve_limit,
    BudgetCategory.applyReserve_reserved hReserved0 (hOrderly.2 name amount hAmount)] at hLe
  rw [BudgetCategory.remaining_eq (h.conserved.hard_le name cat hCat hHard)] at hOver
  linarith

-- ------ A reconciliation

theorem reservedMap_of {reserved actual : Amounts}
    (hLe : ∀ name act, actual.get? name = some act → 0 ≤ act ∧ act ≤ reserved.of name)
    {name : String} {act : ℚ} (hAct : actual.get? name = some act) :
    (BudgetRuntimeState.reservedMap actual (some reserved)).of name = reserved.of name := by
  unfold BudgetRuntimeState.reservedMap
  dsimp only
  split
  · next hEmpty =>
    have hNone : reserved.get? name = none := by
      unfold Dict.get?
      rw [hEmpty]
      rfl
    have hZero : reserved.of name = 0 := by
      rw [Amounts.of, hNone]
      rfl
    have := hLe name act hAct
    rw [hZero] at this
    have hActZero : act = 0 := le_antisymm this.2 this.1
    rw [hZero, Amounts.of, hAct, hActZero]
    rfl
  · rfl

theorem step_reconcile {reserved : Amounts} (hOp : l.outstanding.get? op = some reserved)
    (actual : Amounts) :
    l.step (.reconcile op actual) =
      ⟨l.state.reconcile actual (some reserved), l.outstanding.erase op⟩ := by
  show (match l.outstanding.get? op with
    | none => l
    | some reserved => (⟨l.state.reconcile actual (some reserved), l.outstanding.erase op⟩ : Ledger Op))
    = _
  rw [hOp]

theorem Inv.step_reconcile (h : Inv l) {actual : Amounts}
    (hOrderly : Orderly l (.reconcile op actual)) (hExact : Exact l (.reconcile op actual)) :
    Inv (l.step (.reconcile op actual)) := by
  obtain ⟨reserved, hOp, hLe⟩ := hOrderly
  rw [Ledger.step_reconcile hOp]
  -- a category either is reported and gives its share back, or had no share
  have hOld : ∀ name cat,
      (l.state.reconcile actual (some reserved)).categories.get? name = some cat →
      ∃ old act, l.state.categories.get? name = some old ∧ 0 ≤ act ∧ act ≤ reserved.of name ∧
        cat.limit = old.limit ∧ cat.hardness = old.hardness ∧
        cat.consumed = old.consumed + act ∧ cat.reserved = old.reserved - reserved.of name := by
    intro name cat hCat
    rw [BudgetRuntimeState.get?_reconcile, Option.map_eq_some_iff] at hCat
    obtain ⟨old, hGet, rfl⟩ := hCat
    cases hAct : actual.get? name with
    | none =>
      have hZero : reserved.of name = 0 := by
        by_contra hne
        have := hExact reserved hOp name old hGet hne
        rw [hAct] at this
        exact Bool.false_ne_true this
      refine ⟨old, 0, hGet, le_refl 0, le_of_eq hZero.symm, rfl, rfl, ?_, ?_⟩
      · exact (add_zero _).symm
      · rw [hZero, sub_zero]
        rfl
    | some act =>
      obtain ⟨h0, hActLe⟩ := hLe name act hAct
      refine ⟨old, act, hGet, h0, hActLe, ?_, ?_, ?_, ?_⟩
      · simp
      · simp
      · exact BudgetRuntimeState.settle_consumed (h.consumed_nonneg name old hGet) h0
      · rw [Option.elim_some, reservedMap_of hLe hAct,
          BudgetRuntimeState.settle_reserved (h.of_le_reserved hOp hGet)]
  refine ⟨conserved_of (fun name cat hCat => ?_) fun name cat hCat hHard => ?_, h.running,
    fun name cat hCat => ?_, fun op' amounts' hOp' name => ?_⟩
  · obtain ⟨old, act, hGet, -, -, -, -, -, hReserved⟩ := hOld name cat hCat
    have hHeld := held_erase hOp l.state (l.state.reconcile actual (some reserved)) name
    have hBefore : old.reserved = held ⟨l.state, l.outstanding⟩ name :=
      h.conserved.reserved_eq name old hGet
    rw [hReserved, hBefore, hHeld, add_sub_cancel_left]
  · obtain ⟨old, act, hGet, -, hActLe, hLimit, hSame, hConsumed, hReserved⟩ := hOld name cat hCat
    have := h.conserved.hard_le name old hGet (hSame ▸ hHard)
    rw [hLimit, hConsumed, hReserved]
    linarith
  · obtain ⟨old, act, hGet, h0, -, -, -, hConsumed, -⟩ := hOld name cat hCat
    have := h.consumed_nonneg name old hGet
    rw [hConsumed]
    linarith
  · exact h.held_nonneg op' amounts' (Dict.get?_erase_eq_some.mp hOp').2 name

theorem Inv.reconcile_breaks (h : Inv l) {actual : Amounts}
    (hNot : ¬ Exact l (.reconcile op actual)) : ¬ Conserved (l.step (.reconcile op actual)) := by
  intro hAfter
  unfold Exact at hNot
  push Not at hNot
  obtain ⟨reserved, hOp, name, cat, hCat, hne, hSilent⟩ := hNot
  have hNone : actual.get? name = none := by simpa using hSilent
  rw [Ledger.step_reconcile hOp] at hAfter
  have hSame : (l.state.reconcile actual (some reserved)).categories.get? name = some cat := by
    rw [BudgetRuntimeState.get?_reconcile, hCat, hNone]
    rfl
  have hReserved := hAfter.reserved_eq name cat hSame
  have hBefore : cat.reserved = held ⟨l.state, l.outstanding⟩ name :=
    h.conserved.reserved_eq name cat hCat
  have hHeld := held_erase hOp l.state (l.state.reconcile actual (some reserved)) name
  rw [hBefore, hHeld] at hReserved
  exact hne (by linarith)

-- ------ Whole runs

omit [DecidableEq Op] in
theorem start_get? {envelope : Dict String BudgetCategory} {name : String} {cat : BudgetCategory}
    (hCat : (start envelope : Ledger Op).state.categories.get? name = some cat) :
    ∃ old, envelope.get? name = some old ∧ cat = buildCategory name old.limit old.hardness := by
  rw [start, BudgetRuntimeState.get?_register, Option.map_eq_some_iff] at hCat
  obtain ⟨old, hGet, rfl⟩ := hCat
  exact ⟨old, hGet, rfl⟩

theorem inv_start {envelope : Dict String BudgetCategory}
    (h : ∀ name cat, envelope.get? name = some cat → cat.hardness = .hard → 0 ≤ cat.limit) :
    Inv (start envelope : Ledger Op) := by
  refine ⟨conserved_of (fun name cat hCat => ?_) fun name cat hCat hHard => ?_, rfl,
    fun name cat hCat => ?_, fun op amounts hOp => ?_⟩
  · obtain ⟨old, -, rfl⟩ := start_get? hCat
    rfl
  · obtain ⟨old, hGet, rfl⟩ := start_get? hCat
    simpa [buildCategory] using h name old hGet hHard
  · obtain ⟨old, -, rfl⟩ := start_get? hCat
    exact le_refl 0
  · rw [start, Dict.get?_empty] at hOp
    exact nomatch hOp

theorem Inv.step {event : LedgerEvent Op} (h : Inv l) (hOrderly : Orderly l event)
    (hExact : Exact l event) : Inv (l.step event) := by
  cases event with
  | reserve op amounts => exact h.step_reserve hOrderly hExact
  | reconcile op actual => exact h.step_reconcile hOrderly hExact

theorem Inv.breaks {event : LedgerEvent Op} (h : Inv l) (hOrderly : Orderly l event)
    (hNot : ¬ Exact l event) : ¬ Conserved (l.step event) := by
  cases event with
  | reserve op amounts => exact h.reserve_breaks hOrderly hNot
  | reconcile op actual => exact h.reconcile_breaks hNot

/-- **Reservations are conserved exactly along exact runs.** -/
theorem conserved_iff {envelope : Dict String BudgetCategory} {events : List (LedgerEvent Op)}
    (hOrderly : Every step Orderly (start envelope) events) :
    Along step Conserved (start envelope) events ↔
      (∀ name cat, envelope.get? name = some cat → cat.hardness = .hard → 0 ≤ cat.limit) ∧
        Every step Exact (start envelope) events := by
  by_cases hLimits : ∀ name cat, envelope.get? name = some cat → cat.hardness = .hard → 0 ≤ cat.limit
  · rw [and_iff_right hLimits]
    exact along_iff_every_of (fun _ h => h.conserved) (fun _ _ h => h.step) (fun _ _ h => h.breaks)
      (inv_start hLimits) hOrderly
  · refine iff_of_false (fun hAlong => hLimits fun name cat hGet hHard => ?_) fun h => hLimits h.1
    have hStart : Conserved (start envelope : Ledger Op) := by
      cases events with
      | nil => exact hAlong
      | cons event events => exact hAlong.1
    have hNew : (start envelope : Ledger Op).state.categories.get? name =
        some (buildCategory name cat.limit cat.hardness) := by
      rw [start, BudgetRuntimeState.get?_register, hGet]
      rfl
    simpa [buildCategory] using hStart.hard_le name _ hNew hHard

def exampleEnvelope : Dict String BudgetCategory :=
  ⟨[("cost_usd", buildCategory "cost_usd" 1 .hard),
    ("prompt_tokens", buildCategory "prompt_tokens" 100 .hard)], by decide⟩

def reported : List (LedgerEvent ℕ) :=
  [.reserve 0 ⟨[("prompt_tokens", 10), ("cost_usd", 1 / 100)], by decide⟩,
   .reconcile 0 ⟨[("prompt_tokens", 8), ("cost_usd", 1 / 200)], by decide⟩]

theorem conserved_iff_reported :
    Every step Orderly (start exampleEnvelope) reported ∧
    (Along step Conserved (start exampleEnvelope) reported ↔
      (∀ name cat, exampleEnvelope.get? name = some cat → cat.hardness = .hard → 0 ≤ cat.limit) ∧
        Every step Exact (start exampleEnvelope) reported) := by
  have hOrderly : Every step Orderly (start exampleEnvelope) reported := by decide +kernel
  exact ⟨hOrderly, conserved_iff hOrderly⟩

/-- The operation used no money, and says so by not naming it. -/
def unreported : List (LedgerEvent ℕ) :=
  [.reserve 0 ⟨[("prompt_tokens", 10), ("cost_usd", 1 / 100)], by decide⟩,
   .reconcile 0 ⟨[("prompt_tokens", 8)], by decide⟩]

theorem unreported_stays_reserved :
    Every step Orderly (start exampleEnvelope) unreported ∧
    (exec step (start exampleEnvelope) unreported).outstanding.entries = [] ∧
    ((exec step (start exampleEnvelope) unreported).state.categories.get? "cost_usd").map
      BudgetCategory.reserved = some (1 / 100) ∧
    ¬ Along step Conserved (start exampleEnvelope) unreported := by
  have hNone : (exec step (start exampleEnvelope) unreported).outstanding.entries = [] := by
    decide +kernel
  have hLeft : ((exec step (start exampleEnvelope) unreported).state.categories.get?
      "cost_usd").map BudgetCategory.reserved = some (1 / 100) := by
    decide +kernel
  refine ⟨by decide +kernel, hNone, hLeft, fun hAlong => ?_⟩
  obtain ⟨cat, hCat, hReserved⟩ := Option.map_eq_some_iff.mp hLeft
  have hZero := hAlong.exec.settled hNone "cost_usd" cat hCat
  rw [hReserved] at hZero
  norm_num at hZero

end Ledger

end Neuroswarm.Budget
