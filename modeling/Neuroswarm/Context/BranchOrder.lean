import Mathlib.Tactic.NormNum
import Mathlib.Tactic.Ring
import Neuroswarm.Context.SwarmContext

/-!
# Swarm context — the order of branches

A child carries the statuses and results of its parent along, and a merge lets all
that the child has count: an entry that one branch has made anew is overwritten by
the old one of a branch that is merged later. Only what the parent does not know
yet is safe.

* `fansIn_iff` — the order of the branches matters exactly if there are several and
  one of them changes an entry of the parent.
-/

/-!
## The budget of a fan-in

Every child starts with the counters of its parent, and a merge takes whole
counters: what the parent had used is counted once more for each child. Of time and
memory a merge takes the larger amount, so there only the child that used most
counts.

* `used_mergeAll` — the counters after a fan-out and a fan-in.
-/

namespace Neuroswarm.Context

section

variable {α : Type*} [DecidableEq α]

/-- `child` was made by `child_context` from `parent` and has used `d` since. -/
def Consumes (parent : SwarmContext α) (d : UsageDelta) (child : SwarmContext α) : Prop :=
  ∃ s, (childContext parent s).budget.applyUsage d = .ok child.budget

omit [DecidableEq α] in
theorem Consumes.get {parent child : SwarmContext α} {d : UsageDelta} (h : Consumes parent d child)
    (dim : Dimension) :
    0 ≤ d.get dim ∧ child.budget.used.get dim = parent.budget.used.get dim + d.get dim := by
  obtain ⟨s, hUsage⟩ := h
  obtain ⟨hNonneg, hUsed, -⟩ := applyUsage_ok hUsage dim
  exact ⟨hNonneg, hUsed⟩

variable {merged : SwarmContext α}

theorem used_mergeContexts {parent child : SwarmContext α}
    (h : mergeContexts parent child .union .sumUsage = .ok merged) (dim : Dimension) :
    merged.budget.alias dim = merged.budget.used.get dim ∧
      merged.budget.used.get dim =
        if dim.summed then parent.budget.used.get dim + child.budget.used.get dim
        else max (parent.budget.used.get dim) (child.budget.used.get dim) := by
  obtain ⟨hUsed, hAlias⟩ :=
    mergeBudget_used (by decide) (by decide) (mergeContexts_parts h).1
  refine ⟨hAlias dim, ?_⟩
  rw [hUsed, get_mergeUsed]
  simp only [true_and]

variable {base : SwarmContext α} {children : List (SwarmContext α)}

theorem used_of_summed {parent : SwarmContext α} {ds : List UsageDelta}
    (hChildren : List.Forall₂ (Consumes parent) ds children)
    (h : mergeAll .union .sumUsage base children = .ok merged) {dim : Dimension}
    (hSummed : dim.summed = true) :
    merged.budget.used.get dim = base.budget.used.get dim +
      (ds.length * parent.budget.used.get dim + (ds.map fun d => d.get dim).sum) := by
  induction hChildren generalizing base with
  | nil =>
    cases h
    simp
  | @cons d child ds children hChild _ ih =>
    obtain ⟨next, hNext, hRest⟩ := mergeAll_cons h
    have hUsed := (used_mergeContexts hNext dim).2
    rw [if_pos hSummed, (hChild.get dim).2] at hUsed
    rw [ih hRest, hUsed, List.length_cons, List.map_cons, List.sum_cons, Nat.cast_succ]
    ring

theorem used_of_not_summed {parent : SwarmContext α} {ds : List UsageDelta}
    (hChildren : List.Forall₂ (Consumes parent) ds children)
    (h : mergeAll .union .sumUsage base children = .ok merged) {dim : Dimension}
    (hLarger : dim.summed = false) :
    merged.budget.used.get dim =
      (ds.map fun d => parent.budget.used.get dim + d.get dim).foldl max
        (base.budget.used.get dim) := by
  induction hChildren generalizing base with
  | nil =>
    cases h
    rfl
  | @cons d child ds children hChild _ ih =>
    obtain ⟨next, hNext, hRest⟩ := mergeAll_cons h
    have hUsed := (used_mergeContexts hNext dim).2
    rw [if_neg (by rw [hLarger]; simp), (hChild.get dim).2] at hUsed
    rw [ih hRest, hUsed]
    rfl

omit [DecidableEq α] in
theorem foldl_max_add (ds : List UsageDelta) (dim : Dimension) (u a : ℚ) :
    (ds.map fun d => u + d.get dim).foldl max (u + a) =
      u + (ds.map fun d => d.get dim).foldl max a := by
  induction ds generalizing a with
  | nil => rfl
  | cons d ds ih =>
    rw [List.map_cons, List.map_cons, List.foldl_cons, List.foldl_cons, max_add_add_left]
    exact ih (max a (d.get dim))

theorem alias_mergeAll (h : mergeAll .union .sumUsage base children = .ok merged)
    (hSome : children ≠ []) (dim : Dimension) :
    merged.budget.alias dim = merged.budget.used.get dim := by
  induction children generalizing base with
  | nil => exact absurd rfl hSome
  | cons child children ih =>
    obtain ⟨next, hNext, hRest⟩ := mergeAll_cons h
    cases children with
    | nil =>
      cases hRest
      exact (used_mergeContexts hNext dim).1
    | cons child' children => exact ih hRest (List.cons_ne_nil _ _)

/-- **Fan-out, fan-in.** With the default budget rule, `n` children of one parent merged back into
it leave `n + 1` times what the parent had used plus what they used themselves; of time and memory
what the parent had used plus the most that one of them used. -/
theorem used_mergeAll {parent : SwarmContext α} {ds : List UsageDelta}
    {children : List (SwarmContext α)} (hChildren : List.Forall₂ (Consumes parent) ds children) :
    ∃ merged, mergeAll .union .sumUsage parent children = .ok merged ∧
      (children ≠ [] → ∀ dim, merged.budget.alias dim = merged.budget.used.get dim) ∧
      ∀ dim, merged.budget.used.get dim =
        if dim.summed then
          (ds.length + 1) * parent.budget.used.get dim + (ds.map fun d => d.get dim).sum
        else parent.budget.used.get dim + (ds.map fun d => d.get dim).foldl max 0 := by
  have hRuns : ∃ merged, mergeAll .union .sumUsage parent children = .ok merged :=
    mergeAll_ok (by decide) (by decide) parent children
  obtain ⟨merged, hMerged⟩ := hRuns
  refine ⟨merged, hMerged, fun hSome => alias_mergeAll hMerged hSome, fun dim => ?_⟩
  cases hSummed : dim.summed with
  | true =>
    rw [used_of_summed hChildren hMerged hSummed, if_pos rfl]
    ring
  | false =>
    have hMax := foldl_max_add ds dim (parent.budget.used.get dim) 0
    rw [add_zero] at hMax
    rw [used_of_not_summed hChildren hMerged hSummed, hMax, if_neg (by simp)]

end

-- ------ Two branches

def spent : SwarmContext Unit where
  budget := BudgetContext.withUsed {} { costUsd := 1 }

/-- A child of it that has used `cost` in all. -/
def spentBranch (cost : ℚ≥0) : SwarmContext Unit :=
  { childContext spent {} with budget := spent.budget.withUsed { costUsd := cost } }

def twoCosts : List UsageDelta := [{ costUsd := 1 / 5 }, { costUsd := 3 / 10 }]

theorem spentBranch_consumes {cost : ℚ≥0} {q : ℚ} (hq : 0 ≤ q) (hCost : (cost : ℚ) = 1 + q) :
    Consumes spent { costUsd := q } (spentBranch cost) := by
  refine ⟨{}, ?_⟩
  have hSum : (1 : ℚ≥0) + q.toNNRat = cost := by
    refine NNRat.coe_injective ?_
    rw [NNRat.coe_add, Rat.coe_toNNRat q hq, hCost]
    rfl
  unfold BudgetContext.applyUsage
  rw [if_neg (by simp [hq])]
  dsimp only [spentBranch, spent, budget_childContext, BudgetContext.withUsed]
  rw [hSum]
  simp

theorem twoCosts_consumed :
    List.Forall₂ (Consumes spent) twoCosts [spentBranch (6 / 5), spentBranch (13 / 10)] :=
  .cons (spentBranch_consumes (by norm_num) (by norm_num))
    (.cons (spentBranch_consumes (by norm_num) (by norm_num)) .nil)

theorem used_mergeAll_twoCosts :
    ∃ merged, mergeAll .union .sumUsage spent [spentBranch (6 / 5), spentBranch (13 / 10)] =
        .ok merged ∧
      ([spentBranch (6 / 5), spentBranch (13 / 10)] ≠ [] →
        ∀ dim, merged.budget.alias dim = merged.budget.used.get dim) ∧
      ∀ dim, merged.budget.used.get dim =
        if dim.summed then
          (twoCosts.length + 1) * spent.budget.used.get dim + (twoCosts.map fun d => d.get dim).sum
        else spent.budget.used.get dim + (twoCosts.map fun d => d.get dim).foldl max 0 :=
  used_mergeAll twoCosts_consumed

/-- 1 USD was used before, 0.2 and 0.3 USD by the branches; 3.5 USD are counted, not 1.5. -/
theorem not_used_conserved :
    List.Forall₂ (Consumes spent) twoCosts [spentBranch (6 / 5), spentBranch (13 / 10)] ∧
      ¬ ∃ merged, mergeAll .union .sumUsage spent [spentBranch (6 / 5), spentBranch (13 / 10)] =
          .ok merged ∧
        ∀ dim, merged.budget.used.get dim =
          spent.budget.used.get dim + (twoCosts.map fun d => d.get dim).sum := by
  refine ⟨twoCosts_consumed, ?_⟩
  rintro ⟨merged, hMerged, hConserved⟩
  have hUsed := used_of_summed twoCosts_consumed hMerged
    (show Dimension.costUsd.summed = true from rfl)
  rw [hConserved .costUsd] at hUsed
  norm_num [twoCosts, spent, BudgetContext.withUsed, BudgetUsage.get, UsageDelta.get] at hUsed

end Neuroswarm.Context

/-! ## The order of branches -/

namespace Neuroswarm.Context

open Swarm

/-- A context that was made by `child_context` and in which some nodes were marked since. -/
structure Branch {α : Type*} (parent : SwarmContext α) where
  spawn : Spawn
  marks : List (Mark α)
  context : SwarmContext α
  execution_eq : context.execution = (childContext parent spawn).execution.marks marks

namespace Branch

variable {α : Type*} {parent : SwarmContext α} (b : Branch parent)

/-- The nodes that the branch completes or fails. -/
def nodes : List NodeId := b.marks.map Mark.nodeId

variable {b}

theorem mem_completedNodes {m : Mark α} (hMark : m ∈ b.marks) (hCompletion : m.isCompletion = true) :
    m.nodeId ∈ b.context.execution.completedNodes := by
  rw [b.execution_eq, ExecutionContext.mem_completedNodes_marks]
  exact .inr ⟨m, hMark, hCompletion, rfl⟩

end Branch

-- ------ Books that children carry along

section

variable {α V : Type*} [DecidableEq α] {policy budgetPolicy : ConflictPolicy}

/-- Entries about nodes: a branch keeps its parent's and writes about its own nodes only, and of a
fan-in the last entry there is counts. -/
structure Carried (policy budgetPolicy : ConflictPolicy)
    (book : SwarmContext α → NodeId → Option V) : Prop where
  untouched : ∀ {parent : SwarmContext α} (b : Branch parent) {n : NodeId}, n ∉ b.nodes →
    book b.context n = book parent n
  kept : ∀ {parent : SwarmContext α} (b : Branch parent) {n : NodeId}, book parent n ≠ none →
    book b.context n ≠ none
  merged : ∀ {parent merged : SwarmContext α} {children : List (SwarmContext α)},
    mergeAll policy budgetPolicy parent children = .ok merged → ∀ n,
      book merged n = overlay (book parent n) (children.map fun child => book child n)

theorem carried_statuses (policy budgetPolicy : ConflictPolicy) :
    Carried policy budgetPolicy fun (ctx : SwarmContext α) n =>
      ctx.execution.nodeStatuses.get? n where
  untouched {parent} b n h := by
    rw [b.execution_eq, ExecutionContext.nodeStatuses_marks_of_notMem _ h,
      (execution_childContext parent b.spawn).1]
  kept {parent} b n h := by
    rw [← (execution_childContext parent b.spawn).1] at h
    rw [b.execution_eq]
    exact ExecutionContext.nodeStatuses_marks_ne_none _ _ h
  merged h n := (mergeAll_execution h n).2.1

theorem carried_results (policy budgetPolicy : ConflictPolicy) :
    Carried policy budgetPolicy fun (ctx : SwarmContext α) n =>
      ctx.execution.nodeResults.get? n where
  untouched {parent} b n h := by
    rw [b.execution_eq, ExecutionContext.nodeResults_marks_of_notMem _ h,
      (execution_childContext parent b.spawn).2.1]
  kept {parent} b n h := by
    rw [← (execution_childContext parent b.spawn).2.1] at h
    rw [b.execution_eq]
    exact ExecutionContext.nodeResults_marks_ne_none _ _ h
  merged h n := (mergeAll_execution h n).2.2

/-- The branches mark different nodes. -/
def Apart {parent : SwarmContext α} (branches : List (Branch parent)) : Prop :=
  branches.Pairwise fun b b' => b.nodes.Disjoint b'.nodes

def Mergeable (policy budgetPolicy : ConflictPolicy) {parent : SwarmContext α}
    (branches : List (Branch parent)) : Prop :=
  ∀ order : List (Branch parent), order.Perm branches →
    ∃ merged, mergeAll policy budgetPolicy parent (order.map Branch.context) = .ok merged

namespace Carried

variable {book : SwarmContext α → NodeId → Option V} {parent : SwarmContext α}
  {branches : List (Branch parent)}

theorem merged_order (h : Carried policy budgetPolicy book) {order : List (Branch parent)}
    {merged : SwarmContext α}
    (hMerged : mergeAll policy budgetPolicy parent (order.map Branch.context) = .ok merged)
    (n : NodeId) :
    book merged n = overlay (book parent n) (order.map fun b => book b.context n) := by
  rw [h.merged hMerged n, List.map_map]
  rfl

theorem order_iff (h : Carried policy budgetPolicy book) (hApart : Apart branches)
    (hMerges : Mergeable policy budgetPolicy branches) :
    (∀ order : List (Branch parent), order.Perm branches → ∀ merged merged',
        mergeAll policy budgetPolicy parent (order.map Branch.context) = .ok merged →
        mergeAll policy budgetPolicy parent (branches.map Branch.context) = .ok merged' →
          book merged = book merged') ↔
      branches.length ≤ 1 ∨
        ∀ b ∈ branches, ∀ n, book parent n = none ∨ book b.context n = book parent n := by
  have hPerm := fun n => overlay_perm_iff (x := book parent n) (f := fun b => book b.context n)
    (l := branches) (fun b _ hBase => h.kept b hBase) (hApart.imp fun {b b'} hDisjoint => by
      by_cases hIn : n ∈ b.nodes
      · exact .inr (h.untouched b' (hDisjoint hIn))
      · exact .inl (h.untouched b hIn))
  constructor
  · intro hSame
    refine or_iff_not_imp_left.mpr fun hLen b hb n => ?_
    refine ((hPerm n).mp fun order hOrder => ?_).resolve_left hLen b hb
    obtain ⟨merged, hMerged⟩ := hMerges order hOrder
    obtain ⟨merged', hMerged'⟩ := hMerges branches (.refl _)
    rw [← h.merged_order hMerged n, ← h.merged_order hMerged' n,
      hSame order hOrder merged merged' hMerged hMerged']
  · intro hAlone order hOrder merged merged' hMerged hMerged'
    funext n
    rw [h.merged_order hMerged n, h.merged_order hMerged' n]
    exact (hPerm n).mpr (hAlone.imp_right fun hNew b hb => hNew b hb n) order hOrder

/-- Then what a branch wrote about its nodes is found. -/
theorem keeps (h : Carried policy budgetPolicy book) (hApart : Apart branches)
    (hAlone : branches.length ≤ 1 ∨
      ∀ b ∈ branches, ∀ n, book parent n = none ∨ book b.context n = book parent n)
    {merged : SwarmContext α}
    (hMerged : mergeAll policy budgetPolicy parent (branches.map Branch.context) = .ok merged)
    {b : Branch parent} (hb : b ∈ branches) {n : NodeId} (hn : n ∈ b.nodes) :
    book merged n = book b.context n := by
  rw [h.merged_order hMerged n]
  refine overlay_eq (fun b _ hBase => h.kept b hBase)
    (hAlone.imp_right fun hNew b hb => hNew b hb n) hb fun b' hb' => ?_
  -- the other branches do not write about `n`
  obtain ⟨s, t, rfl⟩ := List.append_of_mem hb
  have hPair := (List.perm_middle.pairwise_iff fun h => List.disjoint_symm h).mp hApart
  rcases List.mem_cons.mp (List.perm_middle.mem_iff.mp hb') with rfl | hRest
  · exact .inr rfl
  · exact .inl (h.untouched b' ((List.pairwise_cons.mp hPair).1 b' hRest hn))

end Carried

end

-- ------ A fan-in

section

variable {α : Type*}

structure SameBooks (ctx ctx' : SwarmContext α) : Prop where
  statuses : ctx.execution.nodeStatuses.get? = ctx'.execution.nodeStatuses.get?
  results : ctx.execution.nodeResults.get? = ctx'.execution.nodeResults.get?

structure Keeps {parent : SwarmContext α} (b : Branch parent) (merged : SwarmContext α) : Prop where
  completed : ∀ m ∈ b.marks, m.isCompletion = true → m.nodeId ∈ merged.execution.completedNodes
  statuses : ∀ n ∈ b.nodes,
    merged.execution.nodeStatuses.get? n = b.context.execution.nodeStatuses.get? n
  results : ∀ n ∈ b.nodes,
    merged.execution.nodeResults.get? n = b.context.execution.nodeResults.get? n

def AddsOnly {parent : SwarmContext α} (b : Branch parent) : Prop :=
  ∀ n, (parent.execution.nodeStatuses.get? n = none ∨
      b.context.execution.nodeStatuses.get? n = parent.execution.nodeStatuses.get? n) ∧
    (parent.execution.nodeResults.get? n = none ∨
      b.context.execution.nodeResults.get? n = parent.execution.nodeResults.get? n)

variable [DecidableEq α] {parent : SwarmContext α}

/-- Every order gives the same books, and every branch finds its work in them. -/
structure FansIn (policy budgetPolicy : ConflictPolicy) (branches : List (Branch parent)) : Prop where
  order : ∀ order : List (Branch parent), order.Perm branches → ∀ merged merged',
    mergeAll policy budgetPolicy parent (order.map Branch.context) = .ok merged →
    mergeAll policy budgetPolicy parent (branches.map Branch.context) = .ok merged' →
      SameBooks merged merged'
  keeps : ∀ order : List (Branch parent), order.Perm branches → ∀ merged,
    mergeAll policy budgetPolicy parent (order.map Branch.context) = .ok merged →
      ∀ b ∈ branches, Keeps b merged

/-- **Fan-in.** Under every policy, branches that mark different nodes fan in if and only if there
is one branch at most, or no branch changes an entry of the parent. -/
theorem fansIn_iff {policy budgetPolicy : ConflictPolicy} {branches : List (Branch parent)}
    (hApart : Apart branches) (hMerges : Mergeable policy budgetPolicy branches) :
    FansIn policy budgetPolicy branches ↔ branches.length ≤ 1 ∨ ∀ b ∈ branches, AddsOnly b := by
  have hStatuses := carried_statuses (α := α) policy budgetPolicy
  have hResults := carried_results (α := α) policy budgetPolicy
  -- the condition is one about the statuses and one about the results
  have hSplit : (branches.length ≤ 1 ∨ ∀ b ∈ branches, AddsOnly b) ↔
      (branches.length ≤ 1 ∨ ∀ b ∈ branches, ∀ n, parent.execution.nodeStatuses.get? n = none ∨
        b.context.execution.nodeStatuses.get? n = parent.execution.nodeStatuses.get? n) ∧
      (branches.length ≤ 1 ∨ ∀ b ∈ branches, ∀ n, parent.execution.nodeResults.get? n = none ∨
        b.context.execution.nodeResults.get? n = parent.execution.nodeResults.get? n) := by
    rw [← or_and_left]
    refine or_congr_right ⟨fun h => ⟨fun b hb n => (h b hb n).1, fun b hb n => (h b hb n).2⟩, ?_⟩
    rintro ⟨h, h'⟩ b hb n
    exact ⟨h b hb n, h' b hb n⟩
  rw [hSplit]
  constructor
  · intro h
    refine ⟨(hStatuses.order_iff hApart hMerges).mp ?_, (hResults.order_iff hApart hMerges).mp ?_⟩
    · intro order hOrder merged merged' hMerged hMerged'
      exact (h.order order hOrder merged merged' hMerged hMerged').statuses
    · intro order hOrder merged merged' hMerged hMerged'
      exact (h.order order hOrder merged merged' hMerged hMerged').results
  · rintro ⟨hAlone, hAlone'⟩
    have hOrder := (hStatuses.order_iff hApart hMerges).mpr hAlone
    have hOrder' := (hResults.order_iff hApart hMerges).mpr hAlone'
    obtain ⟨merged₀, hMerged₀⟩ := hMerges branches (.refl _)
    -- what every order keeps is read off the merge in the order given
    refine ⟨fun order hPerm merged merged' hMerged hMerged' =>
      ⟨hOrder order hPerm merged merged' hMerged hMerged',
        hOrder' order hPerm merged merged' hMerged hMerged'⟩, ?_⟩
    intro order hPerm merged hMerged b hb
    constructor
    · intro m hm hCompletion
      refine ((mergeAll_execution hMerged m.nodeId).1).mpr (.inr ⟨b.context, ?_, ?_⟩)
      · exact List.mem_map_of_mem (hPerm.mem_iff.mpr hb)
      · exact Branch.mem_completedNodes hm hCompletion
    · intro n hn
      have hSame := congrFun (hOrder order hPerm merged merged₀ hMerged hMerged₀) n
      exact hSame.trans (hStatuses.keeps hApart hAlone hMerged₀ hb hn)
    · intro n hn
      have hSame := congrFun (hOrder' order hPerm merged merged₀ hMerged hMerged₀) n
      exact hSame.trans (hResults.keeps hApart hAlone' hMerged₀ hb hn)

theorem mergeable_of_ne_raise {policy budgetPolicy : ConflictPolicy} (hPolicy : policy ≠ .raise)
    (hBudget : budgetPolicy ≠ .raise) (branches : List (Branch parent)) :
    Mergeable policy budgetPolicy branches :=
  fun _ _ => mergeAll_ok hPolicy hBudget _ _

end

-- ------ A node that failed before the fan-out

/-- A branch in which nothing but `ms` happens. -/
def branchOf {α : Type*} (parent : SwarmContext α) (ms : List (Mark α)) : Branch parent where
  spawn := {}
  marks := ms
  context :=
    { childContext parent {} with execution := (childContext parent {}).execution.marks ms }
  execution_eq := rfl

/-- `a` failed once. -/
def failedOnce : SwarmContext Unit where
  execution := ({} : ExecutionContext Unit).marks [.failed "a" "boom"]

/-- One branch completes `a`, the other one `b`. -/
def secondTry : List (Branch failedOnce) :=
  [branchOf failedOnce [.completed "a"], branchOf failedOnce [.completed "b"]]

theorem secondTry_apart : Apart secondTry := by
  refine List.pairwise_pair.mpr fun n hn hn' => ?_
  rw [List.mem_singleton.mp hn] at hn'
  exact absurd (List.mem_singleton.mp hn') (by decide)

theorem fansIn_iff_secondTry :
    FansIn .union .sumUsage secondTry ↔ secondTry.length ≤ 1 ∨ ∀ b ∈ secondTry, AddsOnly b :=
  fansIn_iff secondTry_apart (mergeable_of_ne_raise (by decide) (by decide) secondTry)

/-- Merged last, the branch that completed `b` makes `a` FAILED again. -/
theorem not_fansIn_secondTry : ¬ FansIn .union .sumUsage secondTry := by
  intro h
  have hMerges : Mergeable .union .sumUsage secondTry :=
    mergeable_of_ne_raise (by decide) (by decide) secondTry
  have hOrder := ((carried_statuses .union .sumUsage).order_iff secondTry_apart hMerges).mp
    fun order hPerm merged merged' hMerged hMerged' =>
      (h.order order hPerm merged merged' hMerged hMerged').statuses
  rcases hOrder with hLen | hNew
  · exact absurd hLen (by decide)
  · have hSame := hNew _ (List.mem_cons_self ..) "a"
    revert hSame
    decide

end Neuroswarm.Context
