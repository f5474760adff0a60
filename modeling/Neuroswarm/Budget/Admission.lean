import Neuroswarm.Budget.Optimizer

/-!
# Budget envelope — what admission promises

A request that `create_and_freeze` accepts should fit: in every hard category that
no degrade action reduced, the need projected by the caller is within the frozen
limit, and no limit exceeds the compiled one. The second half always holds, since
the ladder takes minima.

The first half can fail in three ways. A check allows for the tolerance; the check
on the draft measures a remainder that is never negative, where a limit can be; and
after a step was taken, the needs of the plan and of the estimator stand in the place
of the caller's. `respects_iff` says that a request is respected exactly when, at the
check that lets it through, none of the three hides an overrun.
-/

namespace Neuroswarm.Budget

-- ------ The checks

/-- A decision that ends the search: accepted, and nothing to warn of. -/
def AdmitDecision.Clean (decision : AdmitDecision) : Prop :=
  decision.accepted = true ∧ decision.softWarnings = []

instance (decision : AdmitDecision) : Decidable decision.Clean :=
  inferInstanceAs (Decidable (_ ∧ _))

theorem judge_accepted_iff {categories : Dict String BudgetCategory}
    {need : String → BudgetCategory → ℚ} {bound : BudgetCategory → ℚ}
    {msg : String → ℚ → ℚ → AdmitMessage} :
    (judge categories need bound msg).accepted = true ↔
      ∀ name cat, categories.get? name = some cat → cat.hardness = .hard →
        Within (need name cat) (bound cat) := by
  unfold judge
  dsimp only
  rw [List.isEmpty_iff, List.map_eq_nil_iff, List.filter_eq_nil_iff]
  constructor
  · intro hNone name cat hCat hHard
    by_contra hOver
    exact hNone (name, cat) (List.mem_filter.mpr ⟨Dict.mem_entries_iff.mpr hCat, by simpa using hOver⟩)
      (by simpa using hHard)
  · rintro hAll ⟨name, cat⟩ hMem hHard
    obtain ⟨hGet, hOver⟩ := List.mem_filter.mp hMem
    exact of_decide_eq_true hOver
      (hAll name cat (Dict.mem_entries_iff.mp hGet) (of_decide_eq_true hHard))

-- ------ What the ladder does to the limits

/-- The category whose demand a degrade action reduces. -/
def reducedBy : String → Option String
  | "lower_quant" => some "memory_bytes"
  | "cut_reasoning" => some "reasoning_tokens"
  | "trim_context" => some "prompt_tokens"
  | "drop_tools" => some "tool_calls"
  | "cut_retries" => some "retries"
  | _ => none

def Reduced (actions : List String) (name : String) : Prop :=
  ∃ action ∈ actions, reducedBy action = some name

instance (actions : List String) (name : String) : Decidable (Reduced actions name) :=
  inferInstanceAs (Decidable (∃ action ∈ actions, _))

theorem reduced_append {actions actions' : List String} {name : String} :
    Reduced (actions ++ actions') name ↔ Reduced actions name ∨ Reduced actions' name := by
  unfold Reduced
  simp only [List.mem_append, or_and_right, exists_or]

theorem not_reduced_nil (name : String) : ¬ Reduced [] name := by
  simp [Reduced]

/-- Only the limit has moved, downwards and not at all where it is `fixed`. -/
structure Lowered (fixed : Prop) (cat cat' : BudgetCategory) : Prop where
  hardness : cat'.hardness = cat.hardness
  consumed : cat'.consumed = cat.consumed
  reserved : cat'.reserved = cat.reserved
  projected : cat'.projected = cat.projected
  limit_le : cat'.limit ≤ cat.limit
  limit_eq : fixed → cat'.limit = cat.limit

def LoweredBy (actions : List String) (s s' : BudgetRuntimeState) : Prop :=
  ∀ name, ∃ f : BudgetCategory → BudgetCategory,
    s'.categories.get? name = (s.categories.get? name).map f ∧
      ∀ cat, Lowered (¬ Reduced actions name) cat (f cat)

theorem LoweredBy.trans {actions actions' : List String} {s s' s'' : BudgetRuntimeState}
    (h : LoweredBy actions s s') (h' : LoweredBy actions' s' s'') :
    LoweredBy (actions ++ actions') s s'' := by
  intro name
  obtain ⟨f, hGet, hLow⟩ := h name
  obtain ⟨f', hGet', hLow'⟩ := h' name
  refine ⟨f' ∘ f, by rw [hGet', hGet, Option.map_map], fun cat => ?_⟩
  have h1 := hLow cat
  have h2 := hLow' (f cat)
  refine ⟨h2.hardness.trans h1.hardness, h2.consumed.trans h1.consumed,
    h2.reserved.trans h1.reserved, h2.projected.trans h1.projected, h2.limit_le.trans h1.limit_le,
    fun hFixed => ?_⟩
  rw [reduced_append, not_or] at hFixed
  exact (h2.limit_eq hFixed.2).trans (h1.limit_eq hFixed.1)

theorem loweredBy_markViolations (s : BudgetRuntimeState) (projected : Amounts) :
    LoweredBy [] s (markViolations s projected) := by
  intro name
  refine ⟨_, Dict.get?_mapValues _ _ name, fun cat => ?_⟩
  split
  · exact ⟨by simp, by simp, by simp, by simp, by simp, by simp⟩
  · exact ⟨rfl, rfl, rfl, rfl, le_refl _, fun _ => rfl⟩

theorem get?_adjustment {state : BudgetRuntimeState} {name name' : String}
    {value : BudgetCategory → ℚ} {v : ℚ}
    (h : (adjustment state name value).get? name' = some v) : name' = name := by
  unfold adjustment at h
  split at h
  · have := Dict.mem_entries_iff.mpr h
    simp only [List.mem_singleton, Prod.mk.injEq] at this
    exact this.1
  · exact nomatch h

theorem reducedBy_of_adjusted {e : String × (BudgetRuntimeState → Plan → Plan × Amounts)}
    (he : e ∈ handlers) {state : BudgetRuntimeState} {plan : Plan} {name : String} {v : ℚ}
    (h : (e.2 state plan).2.get? name = some v) : reducedBy e.1 = some name := by
  simp only [handlers, List.mem_cons, List.not_mem_nil, or_false] at he
  rcases he with rfl | rfl | rfl | rfl | rfl | rfl | rfl | rfl
  · exact nomatch h
  · -- the quantization may be unknown or the last one
    simp only [lowerQuant] at h
    split at h
    · exact nomatch h
    · split at h
      · exact nomatch h
      · rw [get?_adjustment h]
        rfl
  · rw [get?_adjustment h]
    rfl
  · rw [get?_adjustment h]
    rfl
  · exact nomatch h
  · rw [get?_adjustment h]
    rfl
  · rw [get?_adjustment h]
    rfl
  · exact nomatch h

theorem degrade_cases (d : Draft) (step : String) :
    (∃ plan, degrade d step = (false, { d with plan })) ∨
    (∃ d', degrade d step = (true, d') ∧ d'.actions = d.actions ++ [step] ∧
      LoweredBy [step] d.state d'.state) := by
  unfold degrade
  cases hHandler : handlers.lookup step with
  | none => exact .inl ⟨d.plan, rfl⟩
  | some handler =>
    have hMem : (step, handler) ∈ handlers := 
      (Dict.lookup_eq_some_iff (by simp only [handlers, List.map_cons, List.map_nil]; decide)).mp
        hHandler
    dsimp only
    split
    · exact .inl ⟨_, rfl⟩
    · refine .inr ⟨_, rfl, rfl, fun name => ⟨_, Dict.get?_modifyEach _ _ _ name, fun cat => ?_⟩⟩
      cases hAdjust : (handler d.state d.plan).2.get? name with
      | none => exact ⟨rfl, rfl, rfl, rfl, le_refl _, fun _ => rfl⟩
      | some value =>
        have hReduced : Reduced [step] name :=
          ⟨step, List.mem_singleton_self _, reducedBy_of_adjusted hMem hAdjust⟩
        exact ⟨by simp, by simp, by simp, by simp, by simp, fun h => absurd hReduced h⟩

-- ------ The step that lets a draft through

section

variable (cfg : BudgetRuntimeConfig) (estimator : Option Estimator)

def advance (d : Draft) (step : String) : Draft :=
  match degrade d step with
  | (false, d) => d
  | (true, d) => { d with state := markViolations d.state (d.projection cfg estimator) }

def passesAfter (d : Draft) (step : String) : Bool :=
  match degrade d step with
  | (false, _) => false
  | (true, d) => (validateState d.state (d.projection cfg estimator)).1.accepted

def checkedDraft (d : Draft) (before : List String) (step : String) : Draft :=
  (degrade (before.foldl (advance cfg estimator) d) step).2

/-- The check after `step` is the first one on the ladder that accepts. -/
structure LetThrough (ladder : List String) (d : Draft) (before : List String) (step : String) :
    Prop where
  isPrefix : before ++ [step] <+: ladder
  notAborted : "abort" ∉ before ++ [step]
  passes : passesAfter cfg estimator (before.foldl (advance cfg estimator) d) step = true
  first : ∀ b s, b ++ [s] <+: before →
    passesAfter cfg estimator (b.foldl (advance cfg estimator) d) s = false

variable {cfg estimator}

variable {ladder : List String} {d : Draft}

variable {step : String}

theorem letThrough_nil {step' : String} :
    LetThrough cfg estimator (step' :: ladder) d [] step ↔
      step = step' ∧ step ≠ "abort" ∧ passesAfter cfg estimator d step = true := by
  constructor
  · rintro ⟨hPrefix, hAbort, hPasses, -⟩
    obtain ⟨hStep, -⟩ := List.cons_prefix_cons.mp hPrefix
    refine ⟨hStep, fun h => hAbort ?_, hPasses⟩
    rw [h]
    exact List.mem_singleton_self _
  · rintro ⟨rfl, hAbort, hPasses⟩
    refine ⟨List.cons_prefix_cons.mpr ⟨rfl, List.nil_prefix⟩, ?_, hPasses, fun b s h => ?_⟩
    · simpa using hAbort.symm
    · have := List.prefix_nil.mp h
      simp at this

theorem letThrough_cons {s s' : String} {before : List String} :
    LetThrough cfg estimator (s' :: ladder) d (s :: before) step ↔
      s = s' ∧ s ≠ "abort" ∧ passesAfter cfg estimator d s = false ∧
        LetThrough cfg estimator ladder (advance cfg estimator d s) before step := by
  constructor
  · rintro ⟨hPrefix, hAbort, hPasses, hFirst⟩
    obtain ⟨hStep, hRest⟩ := List.cons_prefix_cons.mp hPrefix
    rw [List.cons_append, List.mem_cons, not_or] at hAbort
    refine ⟨hStep, Ne.symm hAbort.1, hFirst [] s (by simp), hRest, hAbort.2, hPasses, fun b t h => ?_⟩
    exact hFirst (s :: b) t (List.cons_prefix_cons.mpr ⟨rfl, h⟩)
  · rintro ⟨rfl, hAbort, hNot, hPrefix, hAborted, hPasses, hFirst⟩
    refine ⟨List.cons_prefix_cons.mpr ⟨rfl, hPrefix⟩, ?_, hPasses, fun b t h => ?_⟩
    · rw [List.cons_append, List.mem_cons, not_or]
      exact ⟨hAbort.symm, hAborted⟩
    · cases b with
      | nil =>
        obtain ⟨rfl, -⟩ := List.cons_prefix_cons.mp h
        exact hNot
      | cons s' b =>
        obtain ⟨rfl, hRest⟩ := List.cons_prefix_cons.mp h
        exact hFirst b t hRest

/-- One step of `climb`. -/
theorem climb_cons (hAbort : step ≠ "abort") (ladder : List String) (d : Draft)
    (decision : AdmitDecision) :
    (passesAfter cfg estimator d step = true ∧
      (climb cfg estimator (step :: ladder) d decision).1.accepted = true ∧
      (climb cfg estimator (step :: ladder) d decision).2 = advance cfg estimator d step) ∨
    (passesAfter cfg estimator d step = false ∧
      ∃ decision', climb cfg estimator (step :: ladder) d decision =
        climb cfg estimator ladder (advance cfg estimator d step) decision') := by
  rw [climb, if_neg hAbort]
  unfold passesAfter advance
  rcases hDegrade : degrade d step with ⟨taken, d'⟩
  cases taken with
  | false => exact .inr ⟨rfl, decision, rfl⟩
  | true =>
    dsimp only [validateState]
    split
    · next hAccepted => exact .inl ⟨hAccepted, rfl, rfl⟩
    · next hRefused => exact .inr ⟨by simpa using hRefused, _, rfl⟩

/-- **The ladder accepts exactly when some step lets the draft through.** -/
theorem climb_accepted_iff {decision : AdmitDecision} :
    (climb cfg estimator ladder d decision).1.accepted = true ↔
      ∃ before step, LetThrough cfg estimator ladder d before step := by
  induction ladder generalizing d decision with
  | nil =>
    refine iff_of_false (by simp [climb]) ?_
    rintro ⟨before, step, h⟩
    have := List.prefix_nil.mp h.isPrefix
    simp at this
  | cons s ladder ih =>
    by_cases hAbort : s = "abort"
    · refine iff_of_false (by simp [climb, hAbort]) ?_
      rintro ⟨before, step, h⟩
      cases before with
      | nil =>
        obtain ⟨rfl, hNot, -⟩ := letThrough_nil.mp h
        exact hNot hAbort
      | cons b before =>
        obtain ⟨rfl, hNot, -⟩ := letThrough_cons.mp h
        exact hNot hAbort
    rcases climb_cons hAbort ladder d decision with ⟨hPasses, hAccepted, -⟩ | ⟨hNot, decision', hEq⟩
    · exact iff_of_true hAccepted ⟨[], s, letThrough_nil.mpr ⟨rfl, hAbort, hPasses⟩⟩
    · rw [hEq, ih]
      constructor
      · rintro ⟨before, step, h⟩
        exact ⟨s :: before, step, letThrough_cons.mpr ⟨rfl, hAbort, hNot, h⟩⟩
      · rintro ⟨before, step, h⟩
        cases before with
        | nil =>
          obtain ⟨rfl, -, hPasses⟩ := letThrough_nil.mp h
          rw [hNot] at hPasses
          exact absurd hPasses Bool.false_ne_true
        | cons b before =>
          obtain ⟨rfl, -, -, hRest⟩ := letThrough_cons.mp h
          exact ⟨before, step, hRest⟩

theorem climb_draft {before : List String} {decision : AdmitDecision}
    (h : LetThrough cfg estimator ladder d before step) :
    (climb cfg estimator ladder d decision).2 =
      advance cfg estimator (before.foldl (advance cfg estimator) d) step := by
  induction before generalizing ladder d decision with
  | nil =>
    cases ladder with
    | nil =>
      have := List.prefix_nil.mp h.isPrefix
      simp at this
    | cons s ladder =>
      obtain ⟨rfl, hAbort, hPasses⟩ := letThrough_nil.mp h
      rcases climb_cons hAbort ladder d decision with ⟨-, -, hEq⟩ | ⟨hNot, -⟩
      · exact hEq
      · rw [hNot] at hPasses
        exact absurd hPasses Bool.false_ne_true
  | cons b before ih =>
    cases ladder with
    | nil =>
      have := List.prefix_nil.mp h.isPrefix
      simp at this
    | cons s ladder =>
      obtain ⟨rfl, hAbort, hNot, hRest⟩ := letThrough_cons.mp h
      rcases climb_cons hAbort ladder d decision with ⟨hPasses, -⟩ | ⟨-, decision', hEq⟩
      · rw [hNot] at hPasses
        exact absurd hPasses Bool.false_ne_true
      · rw [hEq, ih hRest]
        rfl

theorem loweredBy_foldl {s : BudgetRuntimeState} (steps : List String)
    (h : LoweredBy d.actions s d.state) :
    LoweredBy (steps.foldl (advance cfg estimator) d).actions s
      (steps.foldl (advance cfg estimator) d).state := by
  induction steps generalizing d with
  | nil => exact h
  | cons step steps ih =>
    refine ih ?_
    unfold advance
    rcases degrade_cases d step with ⟨plan, hEq⟩ | ⟨d', hEq, hActions, hLow⟩
    · rw [hEq]
      exact h
    · rw [hEq]
      have := (h.trans hLow).trans
        (loweredBy_markViolations d'.state (d'.projection cfg estimator))
      rwa [List.append_nil, ← hActions] at this

theorem passesAfter_iff :
    passesAfter cfg estimator d step = true ↔ (degrade d step).1 = true ∧
      (validateState (degrade d step).2.state
        ((degrade d step).2.projection cfg estimator)).1.accepted = true := by
  unfold passesAfter
  rcases degrade d step with ⟨taken, d'⟩
  cases taken with
  | false => simp
  | true => simp

theorem advance_actions (d : Draft) (step : String) :
    (advance cfg estimator d step).actions = (degrade d step).2.actions := by
  unfold advance
  rcases degrade d step with ⟨taken, d'⟩
  cases taken with
  | false => rfl
  | true => rfl

theorem loweredBy_degrade {s : BudgetRuntimeState} (h : LoweredBy d.actions s d.state)
    (step : String) : LoweredBy (degrade d step).2.actions s (degrade d step).2.state := by
  rcases degrade_cases d step with ⟨plan, hEq⟩ | ⟨d', hEq, hActions, hLow⟩
  · rw [hEq]
    exact h
  · rw [hEq, hActions]
    exact h.trans hLow

end

-- ------ Requests

section

variable (cfg : BudgetRuntimeConfig) (estimator : Option Estimator) (template : EnvelopeTemplate)
  (projected : Amounts)

def compiled : BudgetEnvelope := buildEnvelopeFromTemplate template cfg Dict.empty

def firstCheck : AdmitDecision := validateEnvelope (compiled cfg template) projected

def secondCheck : AdmitDecision :=
  (validateState (draftState (compiled cfg template) projected) projected).1

/-- The draft that the ladder starts from. -/
def firstDraft : Draft :=
  { state := markViolations (draftState (compiled cfg template) projected) projected
    plan := Plan.initial (compiled cfg template)
    actions := [] }

/-- An accepted request fits: the caller's need is within the frozen limit of every hard category
whose demand no taken action reduced, and no limit was raised. -/
def Respects : Prop :=
  let admission := createAndFreeze cfg estimator template projected
  admission.decision.accepted = true →
    (∀ name cat need, admission.envelope.categories.get? name = some cat →
      cat.hardness = .hard → ¬ Reduced admission.state.degradeActions name →
      projected.get? name = some need → need ≤ cat.limit) ∧
    ∀ name cat cat', admission.envelope.categories.get? name = some cat →
      (compiled cfg template).categories.get? name = some cat' → cat.limit ≤ cat'.limit

/-- The caller projects more for a hard category than its compiled limit. -/
structure Overrun (name : String) (cat : BudgetCategory) (need : ℚ) : Prop where
  category : (compiled cfg template).categories.get? name = some cat
  hard : cat.hardness = .hard
  need_eq : projected.get? name = some need
  exceeds : cat.limit < need

/-- No overrun is hidden from the check that lets the request through: not by the tolerance, not
by the floor of the remainder, and not, for a category that no action reduced, by a need of the
plan or the estimator in the place of the caller's. -/
def NothingHidden : Prop :=
  ∀ name cat need, Overrun cfg template projected name cat need →
    ((firstCheck cfg template projected).Clean → ¬ Within need cat.limit) ∧
    (¬ (firstCheck cfg template projected).Clean → (secondCheck cfg template projected).Clean →
      ¬ Within need (max 0 cat.limit)) ∧
    (¬ (firstCheck cfg template projected).Clean → ¬ (secondCheck cfg template projected).Clean →
      ∀ before step,
        LetThrough cfg estimator cfg.degradeLadder (firstDraft cfg template projected) before step →
        let d := checkedDraft cfg estimator (firstDraft cfg template projected) before step
        ¬ Reduced d.actions name →
          (d.projection cfg estimator).get? name = none ∧ ¬ Within need (max 0 cat.limit))

variable {cfg estimator template projected}

variable {cat : BudgetCategory}

variable {name : String}

theorem compiled_category (h : (compiled cfg template).categories.get? name = some cat) :
    cat.consumed = 0 ∧ cat.reserved = 0 := by
  rw [compiled, buildEnvelopeFromTemplate, Dict.get?_update, Dict.get?_empty, Option.none_or,
    Dict.get?_mapValues, Option.map_eq_some_iff] at h
  obtain ⟨limit, -, rfl⟩ := h
  exact ⟨rfl, rfl⟩

theorem get?_draftState {need : ℚ} (hCat : (compiled cfg template).categories.get? name = some cat)
    (hNeed : projected.get? name = some need) :
    (draftState (compiled cfg template) projected).categories.get? name =
      some { cat with projected := need } := by
  rw [draftState, Dict.get?_modifyEach, hCat, hNeed]
  rfl

/-- The categories of a frozen envelope, against those it was compiled with. -/
def FrozenFrom (actions : List String) (envelope frozen : BudgetEnvelope) : Prop :=
  ∀ name, ∃ f : BudgetCategory → BudgetCategory,
    frozen.categories.get? name = (envelope.categories.get? name).map f ∧
    ∀ cat, envelope.categories.get? name = some cat → (f cat).hardness = cat.hardness ∧
      (f cat).limit ≤ cat.limit ∧ (¬ Reduced actions name → (f cat).limit = cat.limit)

theorem frozenFrom_freeze (envelope : BudgetEnvelope) : FrozenFrom [] envelope envelope.freeze := by
  intro name
  obtain ⟨f, hKeeps, hGet⟩ := get?_freeze envelope name
  refine ⟨f, hGet, fun cat _ => ⟨(hKeeps cat).2, le_of_eq (hKeeps cat).1, fun _ => (hKeeps cat).1⟩⟩

theorem frozenFrom_withLimits {envelope : BudgetEnvelope} {actions : List String}
    {s : BudgetRuntimeState} (h : LoweredBy actions (draftState envelope projected) s) :
    FrozenFrom actions envelope (envelope.withLimits s).freeze := by
  intro name
  obtain ⟨f, hKeeps, hGet⟩ := get?_freeze (envelope.withLimits s) name
  obtain ⟨g, hDraft, hLow⟩ := h name
  rw [BudgetEnvelope.withLimits, Dict.get?_mapValues, Option.map_map] at hGet
  refine ⟨_, hGet, fun cat hCat => ?_⟩
  -- the draft's category is the compiled one with another projected need
  have hFrom : ∃ start : BudgetCategory, start.limit = cat.limit ∧
      s.categories.get? name = some (g start) := by
    rw [draftState, Dict.get?_modifyEach, hCat, Option.map_some] at hDraft
    refine ⟨_, ?_, hDraft⟩
    cases projected.get? name with
    | none => rfl
    | some need => rfl
  obtain ⟨start, hStart, hState⟩ := hFrom
  simp only [Function.comp_apply, hState, Option.map_some, Option.getD_some]
  rw [(hKeeps _).1, (hKeeps _).2, ← hStart]
  exact ⟨rfl, (hLow start).limit_le, (hLow start).limit_eq⟩

theorem respects_iff_reduced {envelope : BudgetEnvelope} {decision : AdmitDecision}
    {actions : List String}
    (hCreate : createAndFreeze cfg estimator template projected =
      conclude envelope decision actions)
    (hAccepted : decision.accepted = true)
    (hFrozen : FrozenFrom actions (compiled cfg template) envelope.freeze) :
    Respects cfg estimator template projected ↔
      ∀ name cat need, Overrun cfg template projected name cat need → Reduced actions name := by
  unfold Respects
  simp only [hCreate, conclude, hAccepted, Bool.not_true, Bool.false_eq_true, if_false,
    forall_const]
  constructor
  · rintro ⟨hFits, -⟩ name cat need hOver
    by_contra hNot
    obtain ⟨f, hGet, hKeeps⟩ := hFrozen name
    rw [hOver.category] at hGet
    obtain ⟨hHard, -, hLimit⟩ := hKeeps cat hOver.category
    have := hFits name (f cat) need hGet (hHard.trans hOver.hard) hNot hOver.need_eq
    rw [hLimit hNot] at this
    exact absurd hOver.exceeds (not_lt.mpr this)
  · intro hReduced
    refine ⟨fun name cat need hCat hHard hNot hNeed => ?_, fun name cat cat' hCat hCompiled => ?_⟩
    · obtain ⟨f, hGet, hKeeps⟩ := hFrozen name
      rw [hCat, eq_comm, Option.map_eq_some_iff] at hGet
      obtain ⟨cat', hCompiled, rfl⟩ := hGet
      obtain ⟨hSame, -, hLimit⟩ := hKeeps cat' hCompiled
      rw [hLimit hNot]
      by_contra hOver
      exact hNot (hReduced name cat' need
        ⟨hCompiled, hSame.symm.trans hHard, hNeed, not_le.mp hOver⟩)
    · obtain ⟨f, hGet, hKeeps⟩ := hFrozen name
      rw [hCat, hCompiled, Option.map_some, Option.some.injEq] at hGet
      rw [hGet]
      exact (hKeeps cat' hCompiled).2.1

-- ------ The three ways in

theorem within_of_firstCheck (h : (firstCheck cfg template projected).Clean) {need : ℚ}
    (hOver : Overrun cfg template projected name cat need) :
    Within need cat.limit := by
  have := judge_accepted_iff.mp h.1 name cat hOver.category hOver.hard
  rwa [envelopeNeed, hOver.need_eq, Option.getD_some] at this

theorem within_of_secondCheck (h : (secondCheck cfg template projected).Clean) {need : ℚ}
    (hOver : Overrun cfg template projected name cat need) :
    Within need (max 0 cat.limit) := by
  have := judge_accepted_iff.mp h.1 name _ (get?_draftState hOver.category hOver.need_eq) hOver.hard
  obtain ⟨hConsumed, hReserved⟩ := compiled_category hOver.category
  rwa [stateNeed, hOver.need_eq, Option.getD_some, BudgetCategory.remaining, hConsumed, hReserved,
    sub_zero, sub_zero] at this

theorem loweredBy_firstDraft : LoweredBy (firstDraft cfg template projected).actions
    (draftState (compiled cfg template) projected) (firstDraft cfg template projected).state :=
  loweredBy_markViolations _ _

theorem loweredBy_checkedDraft (before : List String) (step : String) :
    LoweredBy (checkedDraft cfg estimator (firstDraft cfg template projected) before step).actions
      (draftState (compiled cfg template) projected)
      (checkedDraft cfg estimator (firstDraft cfg template projected) before step).state :=
  loweredBy_degrade (loweredBy_foldl before loweredBy_firstDraft) step

/-- A passing check after a step sees every unreduced need that nothing replaces. -/
theorem within_of_letThrough {ladder before : List String} {step : String}
    (h : LetThrough cfg estimator ladder (firstDraft cfg template projected) before step) {need : ℚ}
    (hOver : Overrun cfg template projected name cat need)
    (hNot : ¬ Reduced (checkedDraft cfg estimator (firstDraft cfg template projected) before
      step).actions name)
    (hNone : ((checkedDraft cfg estimator (firstDraft cfg template projected) before
      step).projection cfg estimator).get? name = none) :
    Within need (max 0 cat.limit) := by
  obtain ⟨f, hGet, hKeeps⟩ := loweredBy_checkedDraft before step name
  rw [get?_draftState hOver.category hOver.need_eq, Option.map_some] at hGet
  have hKept := hKeeps { cat with projected := need }
  have hPasses := judge_accepted_iff.mp (passesAfter_iff.mp h.passes).2 name _ hGet
    (hKept.hardness.trans hOver.hard)
  have hNeed : stateNeed ((checkedDraft cfg estimator (firstDraft cfg template projected) before
      step).projection cfg estimator) name (f { cat with projected := need }) = need := by
    rw [stateNeed, hNone, Option.getD_none, hKept.projected]
    split
    · rfl
    · next hZero => exact (not_not.mp hZero).symm
  obtain ⟨hConsumed, hReserved⟩ := compiled_category hOver.category
  have hRemaining : (f { cat with projected := need }).remaining = max 0 cat.limit := by
    rw [BudgetCategory.remaining, hKept.limit_eq hNot, hKept.consumed, hKept.reserved, hConsumed,
      hReserved, sub_zero, sub_zero]
  rw [← hNeed, ← hRemaining]
  exact hPasses

theorem respects_iff_of_first (h : (firstCheck cfg template projected).Clean) :
    Respects cfg estimator template projected ↔ NothingHidden cfg estimator template projected := by
  have hCreate : createAndFreeze cfg estimator template projected =
      conclude (compiled cfg template) (firstCheck cfg template projected) [] :=
    if_pos h
  rw [respects_iff_reduced hCreate h.1 (frozenFrom_freeze _)]
  constructor
  · intro hReduced name cat need hOver
    exact absurd (hReduced name cat need hOver) (not_reduced_nil name)
  · intro hSeen name cat need hOver
    exact absurd (within_of_firstCheck h hOver) ((hSeen name cat need hOver).1 h)

theorem create_of_not_first (h : ¬ (firstCheck cfg template projected).Clean)
    {decision : AdmitDecision} {d : Draft}
    (hOptimize : optimize cfg estimator (compiled cfg template)
      (draftState (compiled cfg template) projected) projected = (decision, d)) :
    createAndFreeze cfg estimator template projected =
      conclude ((compiled cfg template).withLimits d.state) decision d.actions := by
  have hNot : ¬ ((validateEnvelope (compiled cfg template) projected).accepted = true ∧
    (validateEnvelope (compiled cfg template) projected).softWarnings = []) := h
  unfold compiled at hNot hOptimize
  unfold createAndFreeze
  dsimp only
  rw [if_neg hNot, hOptimize]
  rfl

theorem respects_iff_of_second (h : ¬ (firstCheck cfg template projected).Clean)
    (h' : (secondCheck cfg template projected).Clean) :
    Respects cfg estimator template projected ↔ NothingHidden cfg estimator template projected := by
  have hOptimize : optimize cfg estimator (compiled cfg template)
      (draftState (compiled cfg template) projected) projected =
      (secondCheck cfg template projected, firstDraft cfg template projected) :=
    if_pos h'
  rw [respects_iff_reduced (create_of_not_first h hOptimize) h'.1
    (frozenFrom_withLimits loweredBy_firstDraft)]
  constructor
  · intro hReduced name cat need hOver
    exact absurd (hReduced name cat need hOver) (not_reduced_nil name)
  · intro hSeen name cat need hOver
    exact absurd (within_of_secondCheck h' hOver) ((hSeen name cat need hOver).2.1 h h')

theorem respects_iff_of_ladder (h : ¬ (firstCheck cfg template projected).Clean)
    (h' : ¬ (secondCheck cfg template projected).Clean) :
    Respects cfg estimator template projected ↔ NothingHidden cfg estimator template projected := by
  have hOptimize : optimize cfg estimator (compiled cfg template)
      (draftState (compiled cfg template) projected) projected =
      climb cfg estimator cfg.degradeLadder (firstDraft cfg template projected)
        (secondCheck cfg template projected) :=
    if_neg h'
  have hCreate := create_of_not_first h hOptimize
  have hIff : (climb cfg estimator cfg.degradeLadder (firstDraft cfg template projected)
        (secondCheck cfg template projected)).1.accepted = true ↔ ∃ before step,
      LetThrough cfg estimator cfg.degradeLadder (firstDraft cfg template projected) before step :=
    climb_accepted_iff
  by_cases hAccepted : (climb cfg estimator cfg.degradeLadder (firstDraft cfg template projected)
      (secondCheck cfg template projected)).1.accepted = true
  · -- the draft is the same whichever step is said to let it through
    have hDraft : ∀ before step,
        LetThrough cfg estimator cfg.degradeLadder (firstDraft cfg template projected) before step →
        (climb cfg estimator cfg.degradeLadder (firstDraft cfg template projected)
          (secondCheck cfg template projected)).2.actions =
        (checkedDraft cfg estimator (firstDraft cfg template projected) before step).actions := by
      intro before step hLet
      rw [climb_draft hLet, advance_actions]
      rfl
    obtain ⟨before, step, hLet⟩ := hIff.mp hAccepted
    have hLow : LoweredBy (climb cfg estimator cfg.degradeLadder (firstDraft cfg template projected)
        (secondCheck cfg template projected)).2.actions
        (draftState (compiled cfg template) projected)
        (climb cfg estimator cfg.degradeLadder (firstDraft cfg template projected)
          (secondCheck cfg template projected)).2.state := by
      rw [climb_draft hLet]
      exact loweredBy_foldl [step] (loweredBy_foldl before loweredBy_firstDraft)
    rw [respects_iff_reduced hCreate hAccepted (frozenFrom_withLimits hLow)]
    constructor
    · intro hReduced name cat need hOver
      refine ⟨fun hFirst => absurd hFirst h, fun _ hSecond => absurd hSecond h', ?_⟩
      intro _ _ before step hLet d hNot
      have := hReduced name cat need hOver
      rw [hDraft before step hLet] at this
      exact absurd this hNot
    · intro hSeen name cat need hOver
      rw [hDraft before step hLet]
      by_contra hNot
      obtain ⟨hNone, hBeyond⟩ := (hSeen name cat need hOver).2.2 h h' before step hLet hNot
      exact hBeyond (within_of_letThrough hLet hOver hNot hNone)
  · refine iff_of_true (fun hTrue => ?_) fun name cat need hOver => ?_
    · rw [Bool.not_eq_true] at hAccepted
      simp [hCreate, conclude, hAccepted] at hTrue
    · refine ⟨fun hFirst => absurd hFirst h, fun _ hSecond => absurd hSecond h', ?_⟩
      intro _ _ before step hLet
      exact absurd (hIff.mpr ⟨before, step, hLet⟩) hAccepted

/-- **An accepted request fits exactly when nothing is hidden from its check.** -/
theorem respects_iff (cfg : BudgetRuntimeConfig) (estimator : Option Estimator)
    (template : EnvelopeTemplate) (projected : Amounts) :
    Respects cfg estimator template projected ↔ NothingHidden cfg estimator template projected := by
  by_cases h : (firstCheck cfg template projected).Clean
  · exact respects_iff_of_first h
  · by_cases h' : (secondCheck cfg template projected).Clean
    · exact respects_iff_of_second h h'
    · exact respects_iff_of_ladder h h'

def cheapEstimator : Estimator := fun _ _ =>
  { p50 := ⟨[("cost_usd", 1 / 10000)], by simp⟩, p90 := ⟨[("cost_usd", 1 / 10000)], by simp⟩ }

/-- A request that needs twenty times the compiled cost limit. -/
def expensive : Amounts := ⟨[("cost_usd", 1)], by simp⟩

/-- A first step of the ladder is taken, and from then on the estimator's cost is checked. -/
theorem expensive_admitted :
    (createAndFreeze {} (some cheapEstimator) {} expensive).decision.accepted = true ∧
    (createAndFreeze {} (some cheapEstimator) {} expensive).state.degradeActions =
      ["lower_quant"] ∧
    ((createAndFreeze {} (some cheapEstimator) {} expensive).envelope.categories.get?
      "cost_usd").map (fun cat => (cat.hardness, cat.limit)) = some (.hard, 5 / 100) ∧
    ¬ Respects {} (some cheapEstimator) {} expensive := by
  have hAccepted : (createAndFreeze {} (some cheapEstimator) {} expensive).decision.accepted =
      true := by
    decide +kernel
  have hActions : (createAndFreeze {} (some cheapEstimator) {} expensive).state.degradeActions =
      ["lower_quant"] := by
    decide +kernel
  have hLimit : ((createAndFreeze {} (some cheapEstimator) {} expensive).envelope.categories.get?
      "cost_usd").map (fun cat => (cat.hardness, cat.limit)) = some (.hard, 5 / 100) := by
    decide +kernel
  refine ⟨hAccepted, hActions, hLimit, fun hRespects => ?_⟩
  obtain ⟨cat, hCat, hPair⟩ := Option.map_eq_some_iff.mp hLimit
  rw [Prod.mk.injEq] at hPair
  have := (hRespects hAccepted).1 "cost_usd" cat 1 hCat hPair.1 (by rw [hActions]; decide +kernel)
    (by decide +kernel)
  rw [hPair.2] at this
  norm_num at this

end

end Neuroswarm.Budget
