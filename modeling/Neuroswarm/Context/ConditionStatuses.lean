import Neuroswarm.Context.SwarmContext

/-!
# Swarm context — marks and conditions

`as_condition_map` hands the statuses of the marks to conditions as they are. The
marks spell them in capital letters, the conditions compare with the values of
`NodeStatus`, which are in small letters.

* `speaksTrue_iff` — when `Success` and `Failure` tell the last marks.
-/

namespace Neuroswarm.Context

open Swarm

/-- The values for which `Success` holds. -/
def successValues : List String := successStatuses.map NodeStatus.value

/-- The values for which `Failure` holds. -/
def failureValues : List String := failureStatuses.map NodeStatus.value

/-- A condition that looks up statuses, evaluated on the map; what has no `get` raises. -/
def ContextMap.evaluate (map : ContextMap) (c : Condition) : Except GraphException Bool :=
  match map.nodeStatuses with
  | .error text => .error (.other text)
  | .ok statuses => c.evaluate map.environment statuses

section

variable {α : Type*} (view : Views α) (custom : String → Option (Except GraphException Bool))

/-- After the marks `ms` on `ctx`, `Success(n)` is true exactly for the nodes whose last mark was
`mark_completed`, and `Failure(n)` for those whose last mark was `mark_failed`. -/
structure SpeaksTrue (ctx : SwarmContext α) (ms : List (Mark α)) : Prop where
  success : ∀ n,
    (({ ctx with execution := ctx.execution.marks ms } : SwarmContext α).asConditionMap view
        custom).evaluate (.success [n]) = .ok true ↔
      ∃ m, lastMark ms n = some m ∧ m.isCompletion = true
  failure : ∀ n,
    (({ ctx with execution := ctx.execution.marks ms } : SwarmContext α).asConditionMap view
        custom).evaluate (.failure [n]) = .ok true ↔
      ∃ m, lastMark ms n = some m ∧ m.isCompletion = false

/-- What is said about the nodes has to be in the words of the conditions. Without `node_statuses`
in `extra` the marks speak, and before them the statuses that were there; with it, it alone does. -/
def InTheirWords (ctx : SwarmContext α) (ms : List (Mark α)) : Prop :=
  match ctx.extra.get? "node_statuses" with
  | none =>
    (∀ n m, lastMark ms n = some m → m.isCompletion = true ∧ m.status ∈ successValues) ∧
      ∀ n, lastMark ms n = none → ∀ s, ctx.execution.nodeStatuses.get? n = some s →
        s ∉ successValues ∧ s ∉ failureValues
  | some v =>
    match view.get v with
    | .error _ => ms = []
    | .ok get => ∀ n,
      ((∃ s ∈ (get n).bind view.status, s ∈ successValues) ↔
        ∃ m, lastMark ms n = some m ∧ m.isCompletion = true) ∧
      ((∃ s ∈ (get n).bind view.status, s ∈ failureValues) ↔
        ∃ m, lastMark ms n = some m ∧ m.isCompletion = false)

end

theorem any_eq_true_iff {o : Option String} {values : List String} :
    o.any (· ∈ values) = true ↔ ∃ s ∈ o, s ∈ values := by
  cases o with
  | none => simp
  | some s => simp

theorem evaluate_status (map : ContextMap) {statuses : NodeId → Option String}
    (h : map.nodeStatuses = .ok statuses) (n : NodeId) :
    (map.evaluate (.success [n]) = .ok true ↔ ∃ s ∈ statuses n, s ∈ successValues) ∧
      (map.evaluate (.failure [n]) = .ok true ↔ ∃ s ∈ statuses n, s ∈ failureValues) := by
  unfold ContextMap.evaluate
  rw [h]
  dsimp only
  unfold Condition.evaluate
  rw [List.all_cons, List.all_nil, Bool.and_true, List.any_cons, List.any_nil, Bool.or_false,
    Except.ok.injEq, Except.ok.injEq]
  exact ⟨any_eq_true_iff, any_eq_true_iff⟩

theorem evaluate_error {map : ContextMap} {text : String} (h : map.nodeStatuses = .error text)
    (c : Condition) : map.evaluate c ≠ .ok true := by
  unfold ContextMap.evaluate
  rw [h]
  exact fun hEq => by cases hEq

theorem notMem_failureValues {s : String} (h : s ∈ successValues) : s ∉ failureValues := by
  revert s
  decide

theorem status_of_not_completion {α : Type*} {m : Mark α} (h : m.isCompletion = false) :
    m.status ∉ successValues ∧ m.status ∉ failureValues := by
  cases m with
  | completed nodeId now result status => cases h
  | failed nodeId error now attempt =>
    dsimp only [Mark.status]
    exact ⟨by decide, by decide⟩

theorem exists_lastMark {α : Type*} {ms : List (Mark α)} (h : ms ≠ []) :
    ∃ n m, lastMark ms n = some m := by
  induction ms using List.reverseRecOn with
  | nil => exact absurd rfl h
  | append_singleton ms m => exact ⟨m.nodeId, m, by rw [lastMark_concat, if_pos rfl]⟩

section

variable {α : Type*} {view : Views α} {custom : String → Option (Except GraphException Bool)}
  {ctx : SwarmContext α} {ms : List (Mark α)}

theorem speaksTrue_iff_of_ok {statuses : NodeId → Option String}
    (h : ({ ctx with execution := ctx.execution.marks ms } : SwarmContext α).statusesOf view =
      .ok statuses) :
    SpeaksTrue view custom ctx ms ↔ ∀ n,
      ((∃ s ∈ statuses n, s ∈ successValues) ↔
        ∃ m, lastMark ms n = some m ∧ m.isCompletion = true) ∧
      ((∃ s ∈ statuses n, s ∈ failureValues) ↔
        ∃ m, lastMark ms n = some m ∧ m.isCompletion = false) := by
  have hEval := evaluate_status (({ ctx with
    execution := ctx.execution.marks ms } : SwarmContext α).asConditionMap view custom) h
  constructor
  · intro hTrue n
    exact ⟨(hEval n).1.symm.trans (hTrue.success n), (hEval n).2.symm.trans (hTrue.failure n)⟩
  · intro hWords
    exact ⟨fun n => (hEval n).1.trans (hWords n).1, fun n => (hEval n).2.trans (hWords n).2⟩

theorem speaksTrue_iff_of_error {text : String}
    (h : ({ ctx with execution := ctx.execution.marks ms } : SwarmContext α).statusesOf view =
      .error text) : SpeaksTrue view custom ctx ms ↔ ms = [] := by
  constructor
  · intro hTrue
    by_contra hSome
    obtain ⟨n, m, hLast⟩ := exists_lastMark hSome
    cases hKind : m.isCompletion with
    | true => exact evaluate_error h _ ((hTrue.success n).mpr ⟨m, hLast, hKind⟩)
    | false => exact evaluate_error h _ ((hTrue.failure n).mpr ⟨m, hLast, hKind⟩)
  · rintro rfl
    refine ⟨fun n => ⟨fun hEq => absurd hEq (evaluate_error h _), ?_⟩,
      fun n => ⟨fun hEq => absurd hEq (evaluate_error h _), ?_⟩⟩
    · rintro ⟨m, hLast, -⟩
      cases hLast
    · rintro ⟨m, hLast, -⟩
      cases hLast

/-- The statuses that the marks leave are right exactly if every last mark is a completion in the
words of `Success`, and no other node has a word that counts. -/
theorem marks_speak_iff {initial : NodeId → Option String} :
    (∀ n, ((∃ s ∈ ((lastMark ms n).map Mark.status).or (initial n), s ∈ successValues) ↔
          ∃ m, lastMark ms n = some m ∧ m.isCompletion = true) ∧
        ((∃ s ∈ ((lastMark ms n).map Mark.status).or (initial n), s ∈ failureValues) ↔
          ∃ m, lastMark ms n = some m ∧ m.isCompletion = false)) ↔
      (∀ n m, lastMark ms n = some m → m.isCompletion = true ∧ m.status ∈ successValues) ∧
        ∀ n, lastMark ms n = none → ∀ s, initial n = some s →
          s ∉ successValues ∧ s ∉ failureValues := by
  constructor
  · intro h
    refine ⟨fun n m hLast => ?_, fun n hNone s hInitial => ?_⟩
    · obtain ⟨hSuccess, hFailure⟩ := h n
      rw [hLast] at hSuccess hFailure
      cases hKind : m.isCompletion with
      | true =>
        obtain ⟨s, hs, hIn⟩ := hSuccess.mpr ⟨m, rfl, hKind⟩
        cases hs
        exact ⟨rfl, hIn⟩
      -- a stage writes neither a success nor a failure
      | false =>
        obtain ⟨s, hs, hIn⟩ := hFailure.mpr ⟨m, rfl, hKind⟩
        cases hs
        exact absurd hIn (status_of_not_completion hKind).2
    · obtain ⟨hSuccess, hFailure⟩ := h n
      rw [hNone, hInitial] at hSuccess hFailure
      constructor
      · intro hIn
        obtain ⟨m, hm, -⟩ := hSuccess.mp ⟨s, rfl, hIn⟩
        cases hm
      · intro hIn
        obtain ⟨m, hm, -⟩ := hFailure.mp ⟨s, rfl, hIn⟩
        cases hm
  · rintro ⟨hMarked, hOthers⟩ n
    cases hLast : lastMark ms n with
    | some m =>
      obtain ⟨hKind, hIn⟩ := hMarked n m hLast
      refine ⟨iff_of_true ⟨_, rfl, hIn⟩ ⟨m, rfl, hKind⟩, iff_of_false ?_ ?_⟩
      · rintro ⟨s, hs, hFail⟩
        cases hs
        exact notMem_failureValues hIn hFail
      · rintro ⟨m', hm', hKind'⟩
        cases hm'
        rw [hKind] at hKind'
        cases hKind'
    -- never marked: what the graph started with is all a condition reads
    | none =>
      refine ⟨iff_of_false ?_ ?_, iff_of_false ?_ ?_⟩
      · rintro ⟨s, hs, hIn⟩
        exact (hOthers n hLast s hs).1 hIn
      · rintro ⟨m, hm, -⟩
        cases hm
      · rintro ⟨s, hs, hIn⟩
        exact (hOthers n hLast s hs).2 hIn
      · rintro ⟨m, hm, -⟩
        cases hm

end

/-- **Statuses and conditions.** `Success` and `Failure` tell the last marks of all nodes if and only
if these are spelled as the conditions read them. -/
theorem speaksTrue_iff {α : Type*} (view : Views α)
    (custom : String → Option (Except GraphException Bool)) (ctx : SwarmContext α)
    (ms : List (Mark α)) : SpeaksTrue view custom ctx ms ↔ InTheirWords view ctx ms := by
  unfold InTheirWords
  cases hExtra : ctx.extra.get? "node_statuses" with
  | none =>
    have hStatuses : ({ ctx with execution := ctx.execution.marks ms } : SwarmContext α).statusesOf
        view = .ok fun n => ((lastMark ms n).map Mark.status).or
          (ctx.execution.nodeStatuses.get? n) := by
      unfold SwarmContext.statusesOf
      dsimp only
      rw [hExtra]
      exact congrArg _ (funext (ctx.execution.nodeStatuses_marks ms))
    exact (speaksTrue_iff_of_ok hStatuses).trans marks_speak_iff
  | some v =>
    have hOverride : ({ ctx with execution := ctx.execution.marks ms } : SwarmContext α).statusesOf
        view = (view.get v).map fun get n => (get n).bind view.status := by
      unfold SwarmContext.statusesOf
      dsimp only
      rw [hExtra]
    cases hGet : view.get v with
    | error text =>
      rw [hGet] at hOverride
      dsimp only
      rw [hGet]
      exact speaksTrue_iff_of_error hOverride
    | ok get =>
      rw [hGet] at hOverride
      dsimp only
      rw [hGet]
      exact speaksTrue_iff_of_ok hOverride

def noneViews : Views Unit where
  toFloat _ := .null
  get _ := .error "'NoneType' object has no attribute 'get'"
  status _ := none
  names _ := .error "'NoneType' object is not iterable"

/-- `a` is completed, and `Success(a)` is false. -/
theorem not_speaksTrue_completed :
    ¬ SpeaksTrue noneViews (fun _ => none) {} [.completed "a"] := by
  intro h
  have hTrue := (h.success "a").mpr ⟨.completed "a", rfl, rfl⟩
  revert hTrue
  decide

end Neuroswarm.Context
