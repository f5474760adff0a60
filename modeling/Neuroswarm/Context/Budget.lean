import Mathlib.Algebra.Order.Ring.Rat
import Mathlib.Data.NNRat.Lemmas
import Neuroswarm.Lib.Overlay

/-!
# Swarm context — budgets

`BudgetUsage` and `BudgetContext` of `budget.py`, the conflict policies, and what
`merge.py` does with dictionaries and budgets. Amounts and limits are non-negative
by their type, as the field validators demand; floats are rationals. `metadata` is
left out.

* `applyUsage_ok` — what consuming does to every dimension.
* `get_mergeUsed` — a merge adds a dimension or takes the larger amount.
-/

namespace Neuroswarm.Context

/-- How merge resolves overlapping fields. -/
inductive ConflictPolicy where
  | preferParent
  | preferChild
  | union
  | sumUsage
  | raise
  deriving DecidableEq, Repr

inductive ContextError where
  /-- `BudgetError(text, field=field)` -/
  | budget (text field : String)
  /-- `MergeConflictError("dict conflict on {field}: {keys}", field=field)` -/
  | dictConflict (field : String) (keys : List String)
  /-- `MergeConflictError(text, field=field)` -/
  | mergeConflict (text field : String)
  deriving DecidableEq, Repr

-- ------ Helpers of `merge.py`

def unionList {α : Type*} [DecidableEq α] (a b : List α) : List α :=
  (a ++ b).foldl (fun out item => if item ∈ out then out else out ++ [item]) []

def mergeDict {α : Type*} [DecidableEq α] (parent child : Dict String α) (policy : ConflictPolicy)
    (field : String) : Except ContextError (Dict String α) :=
  match policy with
  | .preferParent => .ok (child.update parent)
  | .raise =>
    let real := parent.keys.filter fun k =>
      (child.get? k).isSome ∧ parent.get? k ≠ child.get? k
    if real ≠ [] then .error (.dictConflict field real) else .ok (parent.update child)
  | .preferChild | .union | .sumUsage => .ok (parent.update child)

/-- `a or b` of two strings. -/
def orText (a b : String) : String := if a = "" then b else a

/-- `a or b` of two optional strings. -/
def orOptional (a b : Option String) : Option String :=
  match a with
  | none | some "" => b
  | some s => some s

theorem mem_foldl_appendNew {α : Type*} [DecidableEq α] {l out : List α} {v : α} :
    v ∈ l.foldl (fun out item => if item ∈ out then out else out ++ [item]) out ↔
      v ∈ out ∨ v ∈ l := by
  induction l generalizing out with
  | nil => simp
  | cons item l ih =>
    rw [List.foldl_cons, ih, List.mem_cons]
    by_cases hIn : item ∈ out
    · rw [if_pos hIn]
      constructor
      · exact fun h => h.imp_right .inr
      · rintro (h | rfl | h)
        · exact .inl h
        · exact .inl hIn
        · exact .inr h
    · rw [if_neg hIn, List.mem_append, List.mem_singleton, or_assoc]

@[simp] theorem mem_unionList {α : Type*} [DecidableEq α] {a b : List α} {v : α} :
    v ∈ unionList a b ↔ v ∈ a ∨ v ∈ b := by
  unfold unionList
  rw [mem_foldl_appendNew, List.mem_append]
  simp

variable {policy : ConflictPolicy}

theorem mergeDict_ok {α : Type*} [DecidableEq α] (h : policy ≠ .raise)
    (parent child : Dict String α) (field : String) :
    ∃ merged, mergeDict parent child policy field = .ok merged := by
  cases policy with
  | raise => exact absurd rfl h
  | preferParent => exact ⟨_, rfl⟩
  | preferChild => exact ⟨_, rfl⟩
  | union => exact ⟨_, rfl⟩
  | sumUsage => exact ⟨_, rfl⟩

-- ------ `BudgetUsage`, `BudgetContext`

/-- Consumed amounts across budget dimensions. -/
structure BudgetUsage where
  costUsd : ℚ≥0 := 0
  tokens : ℚ≥0 := 0
  latencyMs : ℚ≥0 := 0
  energyJ : ℚ≥0 := 0
  memoryBytes : ℕ := 0
  cpuCoresS : ℚ≥0 := 0
  reasoningTokens : ℚ≥0 := 0
  deriving DecidableEq

/-- Limits + used counters visible to every agent / condition. -/
structure BudgetContext where
  costUsdLimit : Option ℚ≥0 := none
  tokensLimit : Option ℚ≥0 := none
  latencyMsLimit : Option ℚ≥0 := none
  energyJLimit : Option ℚ≥0 := none
  memoryBytesLimit : Option ℕ := none
  cpuCoresSLimit : Option ℚ≥0 := none
  reasoningTokensLimit : Option ℚ≥0 := none
  used : BudgetUsage := {}
  costUsdUsed : ℚ≥0 := 0
  tokensUsed : ℚ≥0 := 0
  latencyMsUsed : ℚ≥0 := 0
  energyJUsed : ℚ≥0 := 0
  memoryBytesUsed : ℕ := 0
  reasoningTokensUsed : ℚ≥0 := 0
  envelopeId : Option String := none
  frozen : Bool := false
  energyEstimateJ : Option ℚ≥0 := none

/-- The keyword arguments of `apply_usage`. -/
structure UsageDelta where
  costUsd : ℚ := 0
  tokens : ℚ := 0
  latencyMs : ℚ := 0
  energyJ : ℚ := 0
  memoryBytes : ℤ := 0
  cpuCoresS : ℚ := 0
  reasoningTokens : ℚ := 0

namespace BudgetContext

/-- The flat aliases take over the nested counters. -/
def withUsed (b : BudgetContext) (used : BudgetUsage) : BudgetContext :=
  { b with
    used := used
    costUsdUsed := used.costUsd
    tokensUsed := used.tokens
    latencyMsUsed := used.latencyMs
    energyJUsed := used.energyJ
    memoryBytesUsed := used.memoryBytes
    reasoningTokensUsed := used.reasoningTokens }

/-- `_sync_used_aliases`, which runs after a construction. -/
def syncUsedAliases (b : BudgetContext) : BudgetContext :=
  let u := b.used
  b.withUsed
    { u with
      costUsd := if b.costUsdUsed ≠ 0 ∧ u.costUsd = 0 then b.costUsdUsed else u.costUsd
      tokens := if b.tokensUsed ≠ 0 ∧ u.tokens = 0 then b.tokensUsed else u.tokens
      latencyMs := if b.latencyMsUsed ≠ 0 ∧ u.latencyMs = 0 then b.latencyMsUsed else u.latencyMs
      energyJ := if b.energyJUsed ≠ 0 ∧ u.energyJ = 0 then b.energyJUsed else u.energyJ
      memoryBytes :=
        if b.memoryBytesUsed ≠ 0 ∧ u.memoryBytes = 0 then b.memoryBytesUsed else u.memoryBytes
      reasoningTokens :=
        if b.reasoningTokensUsed ≠ 0 ∧ u.reasoningTokens = 0 then b.reasoningTokensUsed
        else u.reasoningTokens }

def applyUsage (b : BudgetContext) (d : UsageDelta) : Except ContextError BudgetContext :=
  if d.costUsd < 0 ∨ d.tokens < 0 ∨ d.latencyMs < 0 ∨ d.energyJ < 0 ∨ d.memoryBytes < 0 ∨
      d.cpuCoresS < 0 ∨ d.reasoningTokens < 0 then
    .error (.budget "usage deltas must be >= 0" "used")
  else
    .ok (b.withUsed
      { costUsd := b.used.costUsd + d.costUsd.toNNRat
        tokens := b.used.tokens + d.tokens.toNNRat
        latencyMs := b.used.latencyMs + d.latencyMs.toNNRat
        energyJ := b.used.energyJ + d.energyJ.toNNRat
        memoryBytes := b.used.memoryBytes + d.memoryBytes.toNat
        cpuCoresS := b.used.cpuCoresS + d.cpuCoresS.toNNRat
        reasoningTokens := b.used.reasoningTokens + d.reasoningTokens.toNNRat })

/-- `propagate()`: a deep copy. -/
def propagate (b : BudgetContext) : BudgetContext := b

end BudgetContext

-- ------ `merge_budget`

/-- The `used` that `merge_budget` builds. -/
def mergeUsed (policy : ConflictPolicy) (parent child : BudgetUsage) : BudgetUsage where
  costUsd :=
    if policy = .sumUsage then parent.costUsd + child.costUsd else max parent.costUsd child.costUsd
  tokens :=
    if policy = .sumUsage then parent.tokens + child.tokens else max parent.tokens child.tokens
  latencyMs := max parent.latencyMs child.latencyMs
  energyJ :=
    if policy = .sumUsage then parent.energyJ + child.energyJ else max parent.energyJ child.energyJ
  memoryBytes := max parent.memoryBytes child.memoryBytes
  cpuCoresS :=
    if policy = .sumUsage then parent.cpuCoresS + child.cpuCoresS
    else max parent.cpuCoresS child.cpuCoresS
  reasoningTokens :=
    if policy = .sumUsage then parent.reasoningTokens + child.reasoningTokens
    else max parent.reasoningTokens child.reasoningTokens

/-- `parent.envelope_id and child.envelope_id and parent.envelope_id != child.envelope_id`. -/
def envelopeConflict (parent child : Option String) : Bool :=
  orOptional parent none ≠ none ∧ orOptional child none ≠ none ∧ parent ≠ child

def mergeBudget (parent child : BudgetContext) (policy : ConflictPolicy) :
    Except ContextError BudgetContext :=
  if policy = .preferParent then .ok parent
  else if policy = .preferChild then .ok child
  else if policy = .raise ∧ envelopeConflict parent.envelopeId child.envelopeId then
    .error (.mergeConflict "budget envelope_id conflict" "envelope_id")
  else
    let used := mergeUsed policy parent.used child.used
    .ok (BudgetContext.syncUsedAliases
      { costUsdLimit := parent.costUsdLimit.or child.costUsdLimit
        tokensLimit := parent.tokensLimit.or child.tokensLimit
        latencyMsLimit := parent.latencyMsLimit.or child.latencyMsLimit
        energyJLimit := parent.energyJLimit.or child.energyJLimit
        memoryBytesLimit := parent.memoryBytesLimit.or child.memoryBytesLimit
        cpuCoresSLimit := parent.cpuCoresSLimit.or child.cpuCoresSLimit
        reasoningTokensLimit := parent.reasoningTokensLimit.or child.reasoningTokensLimit
        used := used
        costUsdUsed := used.costUsd
        tokensUsed := used.tokens
        latencyMsUsed := used.latencyMs
        energyJUsed := used.energyJ
        memoryBytesUsed := used.memoryBytes
        reasoningTokensUsed := used.reasoningTokens
        envelopeId := orOptional parent.envelopeId child.envelopeId
        frozen := parent.frozen || child.frozen
        -- an estimate of zero counts as none
        energyEstimateJ :=
          if parent.energyEstimateJ = some 0 then child.energyEstimateJ
          else parent.energyEstimateJ.or child.energyEstimateJ })

-- ------ Dimensions

inductive Dimension where
  | costUsd
  | tokens
  | latencyMs
  | energyJ
  | memoryBytes
  | cpuCoresS
  | reasoningTokens
  deriving DecidableEq, Repr

/-- A merge adds these under SUM_USAGE; of time and memory it takes the larger amount. -/
def Dimension.summed : Dimension → Bool
  | .latencyMs | .memoryBytes => false
  | _ => true

def BudgetUsage.get (u : BudgetUsage) : Dimension → ℚ
  | .costUsd => u.costUsd
  | .tokens => u.tokens
  | .latencyMs => u.latencyMs
  | .energyJ => u.energyJ
  | .memoryBytes => u.memoryBytes
  | .cpuCoresS => u.cpuCoresS
  | .reasoningTokens => u.reasoningTokens

/-- The flat alias of a dimension; `cpu_cores_s` has none. -/
def BudgetContext.alias (b : BudgetContext) : Dimension → ℚ
  | .costUsd => b.costUsdUsed
  | .tokens => b.tokensUsed
  | .latencyMs => b.latencyMsUsed
  | .energyJ => b.energyJUsed
  | .memoryBytes => b.memoryBytesUsed
  | .cpuCoresS => b.used.cpuCoresS
  | .reasoningTokens => b.reasoningTokensUsed

def UsageDelta.get (d : UsageDelta) : Dimension → ℚ
  | .costUsd => d.costUsd
  | .tokens => d.tokens
  | .latencyMs => d.latencyMs
  | .energyJ => d.energyJ
  | .memoryBytes => d.memoryBytes
  | .cpuCoresS => d.cpuCoresS
  | .reasoningTokens => d.reasoningTokens

@[simp] theorem BudgetContext.alias_withUsed (b : BudgetContext) (used : BudgetUsage)
    (dim : Dimension) : (b.withUsed used).alias dim = used.get dim := by
  cases dim with
  | _ => rfl

theorem BudgetContext.used_syncUsedAliases {b : BudgetContext}
    (h : ∀ dim, b.alias dim = b.used.get dim) : b.syncUsedAliases.used = b.used := by
  have hSame : ∀ a u : ℚ≥0, (a : ℚ) = u → (if a ≠ 0 ∧ u = 0 then a else u) = u := by
    intro a u hEq
    have hEq : a = u := NNRat.coe_injective hEq
    rw [hEq, ite_self]
  have hMemory : b.memoryBytesUsed = b.used.memoryBytes := Nat.cast_injective (h .memoryBytes)
  unfold syncUsedAliases withUsed
  dsimp only
  rw [hSame _ _ (h .costUsd), hSame _ _ (h .tokens), hSame _ _ (h .latencyMs),
    hSame _ _ (h .energyJ), hSame _ _ (h .reasoningTokens), hMemory, ite_self]

theorem applyUsage_ok {b b' : BudgetContext} {d : UsageDelta} (h : b.applyUsage d = .ok b')
    (dim : Dimension) :
    0 ≤ d.get dim ∧ b'.used.get dim = b.used.get dim + d.get dim ∧ b'.alias dim = b'.used.get dim := by
  unfold BudgetContext.applyUsage at h
  split at h
  · cases h
  · next hNot =>
    simp only [not_or, not_lt] at hNot
    obtain ⟨h₁, h₂, h₃, h₄, h₅, h₆, h₇⟩ := hNot
    cases h
    have hAdd : ∀ (u : ℚ≥0) {q : ℚ}, 0 ≤ q → ((u + q.toNNRat : ℚ≥0) : ℚ) = u + q := by
      intro u q hq
      rw [NNRat.coe_add, Rat.coe_toNNRat q hq]
    cases dim with
    | costUsd => exact ⟨h₁, hAdd _ h₁, rfl⟩
    | tokens => exact ⟨h₂, hAdd _ h₂, rfl⟩
    | latencyMs => exact ⟨h₃, hAdd _ h₃, rfl⟩
    | energyJ => exact ⟨h₄, hAdd _ h₄, rfl⟩
    | memoryBytes =>
      have hCast : (0 : ℚ) ≤ d.memoryBytes := by exact_mod_cast h₅
      refine ⟨hCast, ?_, rfl⟩
      dsimp only [BudgetUsage.get, UsageDelta.get, BudgetContext.withUsed]
      rw [Nat.cast_add, ← Int.cast_natCast d.memoryBytes.toNat, Int.toNat_of_nonneg h₅]
    | cpuCoresS => exact ⟨h₆, hAdd _ h₆, rfl⟩
    | reasoningTokens => exact ⟨h₇, hAdd _ h₇, rfl⟩

theorem get_mergeUsed (policy : ConflictPolicy) (parent child : BudgetUsage) (dim : Dimension) :
    (mergeUsed policy parent child).get dim =
      if policy = .sumUsage ∧ dim.summed = true then parent.get dim + child.get dim
      else max (parent.get dim) (child.get dim) := by
  have hFloat : ∀ a b : ℚ≥0,
      ((if policy = .sumUsage then a + b else max a b : ℚ≥0) : ℚ) =
        if policy = .sumUsage ∧ (true = true) then (a : ℚ) + b else max (a : ℚ) b := by
    intro a b
    by_cases hSum : policy = .sumUsage
    · rw [if_pos hSum, if_pos ⟨hSum, rfl⟩, NNRat.coe_add]
    · rw [if_neg hSum, if_neg fun h => hSum h.1, NNRat.coe_max]
  cases dim with
  | costUsd => exact hFloat ..
  | tokens => exact hFloat ..
  | latencyMs =>
    rw [if_neg fun h => by cases h.2]
    exact NNRat.coe_max ..
  | energyJ => exact hFloat ..
  | memoryBytes =>
    rw [if_neg fun h => by cases h.2]
    exact Nat.cast_max ..
  | cpuCoresS => exact hFloat ..
  | reasoningTokens => exact hFloat ..

theorem mergeBudget_used {parent child merged : BudgetContext} (hParent : policy ≠ .preferParent)
    (hChild : policy ≠ .preferChild) (h : mergeBudget parent child policy = .ok merged) :
    merged.used = mergeUsed policy parent.used child.used ∧
      ∀ dim, merged.alias dim = merged.used.get dim := by
  have hBuilt : ∀ b : BudgetContext, (∀ dim, b.alias dim = b.used.get dim) →
      b.syncUsedAliases.used = b.used ∧
        ∀ dim, b.syncUsedAliases.alias dim = b.syncUsedAliases.used.get dim :=
    fun b hAlias => ⟨b.used_syncUsedAliases hAlias, fun dim => b.alias_withUsed _ dim⟩
  unfold mergeBudget at h
  rw [if_neg hParent, if_neg hChild] at h
  split at h
  · cases h
  · cases h
    refine hBuilt _ fun dim => ?_
    cases dim with
    | _ => rfl

theorem mergeBudget_ok (h : policy ≠ .raise) (parent child : BudgetContext) :
    ∃ merged, mergeBudget parent child policy = .ok merged := by
  unfold mergeBudget
  split
  · exact ⟨_, rfl⟩
  · split
    · exact ⟨_, rfl⟩
    · exact ⟨_, if_neg fun hRaise => h hRaise.1⟩

end Neuroswarm.Context
