import Mathlib.Data.List.MinMax
import Mathlib.Tactic.Linarith
import Neuroswarm.Haoe.DependencyGraph
import Neuroswarm.Haoe.QueueManager
import Neuroswarm.Lib.Run

/-!
# HAOE — the priority scheduler

`priority_scheduler.py` of `haoe/scheduling`: admission with a score, ageing of the
overflow queue, polling. A lower score is more urgent. What the queues do not read of a
task, its cost estimate and its deadline, is part of its payload. Readings of the clock
are parameters, times and scores are rationals.

* `inOrder_exec` — the overflow queues are in order of score and arrival after every run.
* `servesMostUrgent_along` — a worker without tasks of its own gets the most urgent one.
* `harmless_iff` — when ageing a pool hurts no task.
-/

namespace Neuroswarm.Haoe

/-- `ResourceEstimate` with the cost model inputs that only `score` reads. -/
structure ScoredEstimate extends ResourceEstimate where
  kvPressure : ℚ := 0
  taskWeight : ℚ := 1
  agentWeight : ℚ := 1
  modelWarmness : ℚ := 1 / 2

def ScoredEstimate.score (e : ScoredEstimate) : ℚ :=
  e.cpuCost * e.taskWeight * e.agentWeight + e.kvPressure * 2 + e.expectedLatencyMs / 1000 +
    (1 - e.modelWarmness)

structure Work (P : Type*) where
  payload : P
  estimate : ScoredEstimate := {}
  deadlineMonotonic : Option ℚ := none

abbrev Task (P : Type*) := QueuedTask (Work P)

/-- Admission control: score task → place onto least-loaded worker or overflow. -/
structure PriorityScheduler (P : Type*) where
  queues : QueueManager (Work P) := {}
  stealer : WorkStealingScheduler := {}
  agingEnabled : Bool := true
  agingStep : ℚ := 1 / 10
  submitted : Nat := 0

/-- The arguments of `submit`. -/
structure Submission (P : Type*) where
  taskId : String
  priority : PriorityClass := .normal
  pool : PoolKind := .background
  estimate : ScoredEstimate := {}
  localityTag : String := ""
  payload : P
  deadlineS : Option ℚ := none
  latencyBudgetMs : Option ℚ := none

/-- `pick_least_loaded`: the first of the workers with the shortest queue. -/
def QueueManager.pickLeastLoaded {P : Type*} (m : QueueManager P) (pool : PoolKind) :
    Option WorkerId :=
  (m.pools pool).keys.argmin (m.load pool)

namespace PriorityScheduler

variable {P : Type*}

def score (task : Task P) (now : ℚ) : ℚ :=
  let base : ℚ := task.priority.toNat
  let cost := task.payload.estimate.score * (1 / 100)
  let base := if task.priority.toNat ≤ PriorityClass.high.toNat then base - min (1 / 2) cost else base
  match task.payload.deadlineMonotonic with
  | none => base
  | some deadline => if deadline - now < 1 then base - 1 else base

/-- The task that `submit` builds, with its score. -/
def admitted (r : Submission P) (deadlineFrom enqueuedAt now : ℚ) : Task P :=
  let estimate := match r.latencyBudgetMs with
    | none => r.estimate
    | some ms => { r.estimate with expectedLatencyMs := ms }
  let task : Task P := {
    taskId := r.taskId
    priority := r.priority
    payload := {
      payload := r.payload
      estimate := estimate
      deadlineMonotonic := r.deadlineS.map (deadlineFrom + ·) }
    enqueuedAt := enqueuedAt
    localityTag := r.localityTag }
  { task with effectivePriority := score task now }

/-- `submit`; the clock is read for the deadline, for the arrival and for the score. -/
def submit (s : PriorityScheduler P) (r : Submission P) (deadlineFrom enqueuedAt now : ℚ) :
    PriorityScheduler P :=
  let task := admitted r deadlineFrom enqueuedAt now
  let queues := match s.queues.pickLeastLoaded r.pool with
    | none => s.queues.pushOverflow r.pool task
    | some victim => s.queues.pushPrivate r.pool victim task
  { s with queues := queues, submitted := s.submitted + 1 }

def Due (now : ℚ) (t : Task P) : Prop := ∃ deadline ∈ t.payload.deadlineMonotonic, deadline ≤ now

instance (now : ℚ) : DecidablePred (Due (P := P) now) := fun t =>
  inferInstanceAs (Decidable (∃ deadline ∈ t.payload.deadlineMonotonic, deadline ≤ now))

/-- The body of the loop of `age_pool`. -/
def aged (step now : ℚ) (t : Task P) : Task P :=
  let waited := now - t.enqueuedAt
  let t := { t with effectivePriority := max 0 ((t.priority.toNat : ℚ) - waited * step) }
  if Due now t then { t with effectivePriority := (PriorityClass.critical.toNat : ℚ) - 1 } else t

/-- `age_pool`: the overflow queue is scored anew and sorted. -/
def agePool (s : PriorityScheduler P) (pool : PoolKind) (now : ℚ) : PriorityScheduler P :=
  if !s.agingEnabled then s
  else
    let items := (s.queues.overflow pool).items.map (aged s.agingStep now)
    { s with queues := s.queues.setOverflow pool ⟨items.insertionSort OverflowQueue.Before⟩ }

def poll (s : PriorityScheduler P) (workerId : WorkerId) (pool : PoolKind) (now : ℚ) :
    Option (Task P) × PriorityScheduler P :=
  let s := s.agePool pool now
  let (task, stealer, queues) := s.stealer.take s.queues workerId pool ""
  (task, { s with stealer := stealer, queues := queues })

end PriorityScheduler

-- ------ The order of the overflow queues

namespace OverflowQueue

variable {P : Type*}

theorem before_total (a b : QueuedTask P) : Before a b ∨ Before b a := by
  unfold Before
  rcases lt_trichotomy a.effectivePriority b.effectivePriority with h | h | h
  · exact .inl (.inl h)
  · rcases le_total a.enqueuedAt b.enqueuedAt with hLe | hLe
    · exact .inl (.inr ⟨h, hLe⟩)
    · exact .inr (.inr ⟨h.symm, hLe⟩)
  · exact .inr (.inl h)

theorem Before.trans {a b c : QueuedTask P} (h : Before a b) (h' : Before b c) : Before a c := by
  unfold Before at *
  rcases h with h | ⟨h, hLe⟩ <;> rcases h' with h' | ⟨h', hLe'⟩
  · exact .inl (h.trans h')
  · exact .inl (h' ▸ h)
  · exact .inl (h ▸ h')
  · exact .inr ⟨h.trans h', hLe.trans hLe'⟩

/-- Most urgent first, and in the order of arrival where scores are equal. -/
def InOrder (q : OverflowQueue P) : Prop := q.items.Pairwise Before

theorem inOrder_sorted (l : List (QueuedTask P)) : InOrder ⟨l.insertionSort Before⟩ := by
  have hTotal : Std.Total (Before (P := P)) := ⟨before_total⟩
  have hTrans : IsTrans (QueuedTask P) Before := ⟨fun _ _ _ => Before.trans⟩
  exact List.pairwise_insertionSort _ l

theorem InOrder.pop {q : OverflowQueue P} (h : q.InOrder) : q.pop.2.InOrder := by
  unfold OverflowQueue.pop
  split
  · exact h
  · next task rest hItems =>
    have hCons : (task :: rest).Pairwise Before := hItems ▸ h
    exact (List.pairwise_cons.mp hCons).2

end OverflowQueue

namespace QueueManager

variable {P : Type*} {m : QueueManager P}

def InOrder (m : QueueManager P) : Prop := ∀ pool, (m.overflow pool).InOrder

theorem InOrder.setOverflow (h : m.InOrder) {q : OverflowQueue P} (hq : q.InOrder)
    (pool : PoolKind) : (m.setOverflow pool q).InOrder := by
  intro p
  show (Function.update m.overflow pool q p).InOrder
  by_cases hp : p = pool
  · subst hp
    rwa [Function.update_self]
  · rw [Function.update_of_ne hp]
    exact h p

theorem InOrder.pushOverflow (h : m.InOrder) (pool : PoolKind) (task : QueuedTask P) :
    (m.pushOverflow pool task).InOrder :=
  h.setOverflow (OverflowQueue.inOrder_sorted _) pool

theorem InOrder.pushPrivate (h : m.InOrder) (pool : PoolKind) (wid : WorkerId)
    (task : QueuedTask P) : (m.pushPrivate pool wid task).InOrder := by
  unfold QueueManager.pushPrivate
  split
  · exact h.pushOverflow pool task
  · exact h

theorem overflow_popPrivate (pool : PoolKind) (wid : WorkerId) :
    (m.popPrivate pool wid).2.overflow = m.overflow := by
  unfold popPrivate
  split <;> rfl

theorem overflow_stealFrom (pool : PoolKind) (vids : List WorkerId) :
    (m.stealFrom pool vids).2.overflow = m.overflow := by
  induction vids with
  | nil => rfl
  | cons vid rest ih =>
    unfold stealFrom
    split
    · exact ih
    · split
      · rfl
      · exact ih

theorem overflow_stealLoop (pool : PoolKind) (wid : WorkerId) (tag : String) (n : Nat)
    (s : WorkStealingScheduler) :
    (WorkStealingScheduler.stealLoop pool wid tag n s m).2.2.overflow = m.overflow := by
  cases n with
  | zero => rfl
  | succ n =>
    have hSteal : (m.steal pool wid).2.overflow = m.overflow := overflow_stealFrom pool _
    rw [WorkStealingScheduler.stealLoop]
    rcases hResult : m.steal pool wid with ⟨_ | stolen, m'⟩
    · rw [hResult] at hSteal
      exact hSteal
    · rw [hResult] at hSteal
      simp only
      split <;> exact hSteal

theorem InOrder.take (h : m.InOrder) (s : WorkStealingScheduler) (wid : WorkerId)
    (pool : PoolKind) (tag : String) : (s.take m wid pool tag).2.2.InOrder := by
  have hPrivate : (m.popPrivate pool wid).2.InOrder := by
    intro p
    rw [overflow_popPrivate]
    exact h p
  unfold WorkStealingScheduler.take
  split
  · next task m₁ hPop =>
    rw [hPop] at hPrivate
    exact hPrivate
  · next m₁ hPop =>
    rw [hPop] at hPrivate
    have hOverflow : (m₁.popOverflow pool).2.InOrder :=
      hPrivate.setOverflow (hPrivate pool).pop pool
    split
    · next task m₂ hPop₂ =>
      rw [hPop₂] at hOverflow
      exact hOverflow
    · next m₂ hPop₂ =>
      rw [hPop₂] at hOverflow
      intro p
      rw [overflow_stealLoop]
      exact hOverflow p

end QueueManager

namespace PriorityScheduler

variable {P : Type*}

/-- The calls of a scheduler, each with its readings of the clock. -/
inductive Call (P : Type*) where
  | submit (r : Submission P) (deadlineFrom enqueuedAt now : ℚ)
  | poll (workerId : WorkerId) (pool : PoolKind) (now : ℚ)
  | steal (thiefId : WorkerId) (pool : PoolKind)
  | agePool (pool : PoolKind) (now : ℚ)

def step (s : PriorityScheduler P) : Call P → PriorityScheduler P
  | .submit r deadlineFrom enqueuedAt now => s.submit r deadlineFrom enqueuedAt now
  | .poll workerId pool now => (s.poll workerId pool now).2
  | .steal thiefId pool => { s with queues := (s.queues.steal pool thiefId).2 }
  | .agePool pool now => s.agePool pool now

theorem inOrder_agePool {s : PriorityScheduler P} (h : s.queues.InOrder) (pool : PoolKind)
    (now : ℚ) : (s.agePool pool now).queues.InOrder := by
  unfold agePool
  split
  · exact h
  · exact h.setOverflow (OverflowQueue.inOrder_sorted _) pool

theorem inOrder_step (s : PriorityScheduler P) (call : Call P) (h : s.queues.InOrder) :
    (s.step call).queues.InOrder := by
  cases call with
  | submit r deadlineFrom enqueuedAt now =>
    simp only [step, submit]
    split
    · exact h.pushOverflow _ _
    · exact h.pushPrivate _ _ _
  | poll workerId pool now => exact (inOrder_agePool h pool now).take _ _ _ _
  | steal thiefId pool =>
    intro p
    show ((s.queues.stealFrom pool _).2.overflow p).InOrder
    rw [QueueManager.overflow_stealFrom]
    exact h p
  | agePool pool now => exact inOrder_agePool h pool now

/-- **The overflow queues stay in order**, whatever is called and whenever. -/
theorem inOrder_exec {s : PriorityScheduler P} (h : s.queues.InOrder) (calls : List (Call P)) :
    (Run.exec step s calls).queues.InOrder :=
  Run.exec_of_invariant inOrder_step h calls

/-- A worker that has nothing of its own is given the most urgent task that waits for anybody,
by the scores of `now`. -/
def ServesMostUrgent (s : PriorityScheduler P) (workerId : WorkerId) (pool : PoolKind) (now : ℚ) :
    Prop :=
  s.queues.tasksOf pool workerId = [] → ((s.agePool pool now).queues.overflow pool).items ≠ [] →
    ∃ task ∈ ((s.agePool pool now).queues.overflow pool).items,
      (s.poll workerId pool now).1 = some task ∧
        ∀ other ∈ ((s.agePool pool now).queues.overflow pool).items,
          OverflowQueue.Before task other

theorem servesMostUrgent_of_inOrder {s : PriorityScheduler P} (h : s.queues.InOrder)
    (workerId : WorkerId) (pool : PoolKind) (now : ℚ) :
    s.ServesMostUrgent workerId pool now := by
  intro hOwn hWaiting
  have hPools : (s.agePool pool now).queues.tasksOf pool workerId = [] := by
    unfold agePool
    split <;> exact hOwn
  have hOrder := inOrder_agePool h pool now pool
  unfold poll
  dsimp only
  generalize (s.agePool pool now).queues = m at hWaiting hPools hOrder ⊢
  have hNone : m.popPrivate pool workerId = (none, (m.popPrivate pool workerId).2) := by
    unfold QueueManager.tasksOf at hPools
    unfold QueueManager.popPrivate
    split
    · rfl
    · next q hq =>
      rw [hq] at hPools
      simp [WorkerQueue.pop, show q.dq = [] from hPools]
  obtain ⟨task, rest, hItems⟩ := List.exists_cons_of_ne_nil hWaiting
  have hOverflow : ((m.popPrivate pool workerId).2.popOverflow pool).1 = some task := by
    rw [QueueManager.popOverflow, QueueManager.overflow_popPrivate]
    simp [OverflowQueue.pop, hItems]
  refine ⟨task, hItems ▸ List.mem_cons_self, ?_, ?_⟩
  · unfold WorkStealingScheduler.take
    rw [hNone]
    dsimp only
    rcases hPop : (m.popPrivate pool workerId).2.popOverflow pool with ⟨_ | other, m'⟩
    · rw [hPop] at hOverflow
      cases hOverflow
    · rw [hPop] at hOverflow
      exact hOverflow
  · intro other hOther
    rw [hItems] at hOther
    have hCons : (task :: rest).Pairwise OverflowQueue.Before := hItems ▸ hOrder
    rcases List.mem_cons.mp hOther with rfl | hOther
    · exact .inr ⟨rfl, le_refl _⟩
    · exact (List.pairwise_cons.mp hCons).1 other hOther

/-- **Nobody waits behind a less urgent task**: after any calls of a scheduler, with any workers,
whose overflow queues were empty at first. -/
theorem servesMostUrgent_along (s : PriorityScheduler P) (calls : List (Call P)) :
    Run.Along step (fun s => ∀ workerId pool now, s.ServesMostUrgent workerId pool now)
      { s with queues := { s.queues with overflow := fun _ => {} } } calls :=
  Run.along_iff_take.mpr fun n workerId pool now =>
    servesMostUrgent_of_inOrder (inOrder_exec
      (s := { s with queues := { s.queues with overflow := fun _ => {} } })
      (fun _ => List.Pairwise.nil) (calls.take n)) workerId pool now

-- ------ Scores

section

variable {step now : ℚ} {t u : Task P}

theorem aged_eq : aged step now t = { t with
    effectivePriority :=
      if Due now t then -1 else max 0 (t.priority.toNat - (now - t.enqueuedAt) * step) } := by
  have hDue : ∀ x : ℚ, Due now { t with effectivePriority := x } ↔ Due now t := fun _ => Iff.rfl
  by_cases h : Due now t
  · simp [aged, hDue, h, PriorityClass.toNat]
  · simp [aged, hDue, h]

theorem aged_effectivePriority : (aged step now t).effectivePriority =
    if Due now t then -1 else max 0 (t.priority.toNat - (now - t.enqueuedAt) * step) := by
  rw [aged_eq]

@[simp] theorem aged_enqueuedAt : (aged step now t).enqueuedAt = t.enqueuedAt := by
  rw [aged_eq]

/-- The score is not ahead of what the class and the waiting of the task give it. -/
def NotAhead (step now : ℚ) (t : Task P) : Prop :=
  if Due now t then -1 ≤ t.effectivePriority
  else 0 ≤ t.effectivePriority ∧
    t.priority.toNat - t.effectivePriority ≤ (now - t.enqueuedAt) * step

theorem aged_le_iff :
    (aged step now t).effectivePriority ≤ t.effectivePriority ↔ NotAhead step now t := by
  rw [aged_effectivePriority, NotAhead]
  split
  · rfl
  · rw [max_le_iff]
    refine and_congr_right fun _ => ?_
    constructor <;> intro h <;> linarith

/-- Of tasks with equal scores, the one that arrived first: its deadline has passed, or that
of the other has not and its class is not behind by more than its longer waiting makes up. -/
def KeepsPlace (step now : ℚ) (t u : Task P) : Prop :=
  Due now t ∨ ¬ Due now u ∧ (t.priority.toNat ≤ (now - t.enqueuedAt) * step ∨
    (t.priority.toNat : ℚ) - u.priority.toNat ≤ (u.enqueuedAt - t.enqueuedAt) * step)

theorem aged_le_aged_iff :
    (aged step now t).effectivePriority ≤ (aged step now u).effectivePriority ↔
      KeepsPlace step now t u := by
  rw [aged_effectivePriority, aged_effectivePriority, KeepsPlace]
  have hNonneg : ∀ x : ℚ, -1 ≤ max 0 x := fun x => le_trans (by norm_num) (le_max_left 0 x)
  by_cases hT : Due now t
  · rw [if_pos hT]
    refine iff_of_true ?_ (.inl hT)
    split
    · exact le_refl (-1)
    · exact hNonneg _
  · by_cases hU : Due now u
    · rw [if_neg hT, if_pos hU]
      refine iff_of_false (not_le.mpr ?_) (by simp [hT, hU])
      exact lt_of_lt_of_le (by norm_num) (le_max_left 0 _)
    · rw [if_neg hT, if_neg hU, or_iff_right hT, and_iff_right hU, max_le_iff,
        and_iff_right (le_max_left _ _), le_max_iff]
      refine or_congr ?_ ?_
      · constructor <;> intro h <;> linarith
      · constructor <;> intro h <;> nlinarith

end

-- ------ Places

theorem pair_sublist {α : Type*} {R : α → α → Prop} {l : List α} {a b : α}
    (hSorted : l.Pairwise R) (ha : a ∈ l) (hb : b ∈ l) (hNe : a ≠ b) (hNot : ¬ R b a) :
    [a, b].Sublist l := by
  induction l with
  | nil => simp at ha
  | cons x l ih =>
    obtain ⟨hHead, hTail⟩ := List.pairwise_cons.mp hSorted
    rcases List.mem_cons.mp ha with rfl | haTail
    · have hbTail : b ∈ l := (List.mem_cons.mp hb).resolve_left hNe.symm
      exact (List.singleton_sublist.mpr hbTail).cons_cons a
    · rcases List.mem_cons.mp hb with rfl | hbTail
      · exact absurd (hHead a haTail) hNot
      · exact (ih hTail haTail hbTail).cons x

/-- `a` stands in front of `b` somewhere in the queue. -/
def InFront (q : OverflowQueue P) (a b : QueuedTask P) : Prop := [a, b].Sublist q.items

/-- A task of the overflow queue after `age_pool`. -/
def rescored (s : PriorityScheduler P) (now : ℚ) (t : Task P) : Task P :=
  if s.agingEnabled then aged s.agingStep now t else t

theorem perm_agePool (s : PriorityScheduler P) (pool : PoolKind) (now : ℚ) :
    ((s.agePool pool now).queues.overflow pool).items.Perm
      ((s.queues.overflow pool).items.map (s.rescored now)) := by
  by_cases hAging : s.agingEnabled = true
  · have hRescored : s.rescored now = aged s.agingStep now := by
      funext t
      exact if_pos hAging
    rw [agePool, if_neg (by simp [hAging]), hRescored]
    simp only [QueueManager.setOverflow, Function.update_self]
    exact List.perm_insertionSort _ _
  · have hRescored : s.rescored now = id := by
      funext t
      exact if_neg hAging
    rw [hRescored, List.map_id]
    simp [agePool, hAging]

/-- `age_pool` hurts no waiting task. -/
structure Harmless (s : PriorityScheduler P) (pool : PoolKind) (now : ℚ) : Prop where
  ownQueues : (s.agePool pool now).queues.pools = s.queues.pools
  urgent : ∀ t ∈ (s.queues.overflow pool).items,
    (s.rescored now t).effectivePriority ≤ t.effectivePriority
  places : ∀ t ∈ (s.queues.overflow pool).items, ∀ u ∈ (s.queues.overflow pool).items,
    t.effectivePriority = u.effectivePriority → t.enqueuedAt < u.enqueuedAt →
      ¬ InFront ((s.agePool pool now).queues.overflow pool) (s.rescored now u) (s.rescored now t)

/-- No score is ahead of class and waiting, and who arrived first keeps its place. -/
structure Ripe (s : PriorityScheduler P) (pool : PoolKind) (now : ℚ) : Prop where
  scores : ∀ t ∈ (s.queues.overflow pool).items, NotAhead s.agingStep now t
  pairs : ∀ t ∈ (s.queues.overflow pool).items, ∀ u ∈ (s.queues.overflow pool).items,
    t.effectivePriority = u.effectivePriority → t.enqueuedAt < u.enqueuedAt →
      KeepsPlace s.agingStep now t u

theorem agePool_pools (s : PriorityScheduler P) (pool : PoolKind) (now : ℚ) :
    (s.agePool pool now).queues.pools = s.queues.pools := by
  unfold agePool
  split <;> rfl

section

variable {s : PriorityScheduler P} {pool : PoolKind} {now : ℚ}

theorem not_inFront_iff {q : OverflowQueue (Work P)} (hOrder : q.InOrder) {t u : Task P}
    (ht : t ∈ q.items) (hu : u ∈ q.items) (hArrived : t.enqueuedAt < u.enqueuedAt) :
    ¬ InFront q u t ↔ t.effectivePriority ≤ u.effectivePriority := by
  constructor
  · intro hNot
    by_contra hWorse
    rw [not_le] at hWorse
    refine hNot (pair_sublist hOrder hu ht ?_ ?_)
    · rintro rfl
      exact lt_irrefl _ hArrived
    · rintro (hLt | ⟨hEq, -⟩)
      · exact lt_asymm hLt hWorse
      · exact hWorse.ne' hEq
  · intro hLe hFront
    have hBefore : OverflowQueue.Before u t := List.pairwise_iff_forall_sublist.mp hOrder hFront
    rcases hBefore with hLt | ⟨-, hFirst⟩
    · exact hLt.not_ge hLe
    · exact hArrived.not_ge hFirst

/-- **Ageing hurts no waiting task** iff it is off, or every score is one that class and
waiting justify and whoever arrived first keeps its place. -/
theorem harmless_iff (hOrder : (s.queues.overflow pool).InOrder) :
    s.Harmless pool now ↔ (s.agingEnabled = true → s.Ripe pool now) := by
  have hAfter : ((s.agePool pool now).queues.overflow pool).InOrder := by
    unfold agePool
    split
    · exact hOrder
    · simp only [QueueManager.setOverflow, Function.update_self]
      exact OverflowQueue.inOrder_sorted _
  have hMem : ∀ t ∈ (s.queues.overflow pool).items,
      s.rescored now t ∈ ((s.agePool pool now).queues.overflow pool).items := fun t ht =>
    (s.perm_agePool pool now).symm.subset (List.mem_map_of_mem ht)
  have hArrival : ∀ t, (s.rescored now t).enqueuedAt = t.enqueuedAt := by
    intro t
    unfold rescored
    split
    · exact aged_enqueuedAt
    · rfl
  have hPlaces : ∀ t ∈ (s.queues.overflow pool).items, ∀ u ∈ (s.queues.overflow pool).items,
      t.enqueuedAt < u.enqueuedAt →
        (¬ InFront ((s.agePool pool now).queues.overflow pool) (s.rescored now u)
          (s.rescored now t) ↔
        (s.rescored now t).effectivePriority ≤ (s.rescored now u).effectivePriority) := by
    intro t ht u hu hArrived
    refine not_inFront_iff hAfter (hMem t ht) (hMem u hu) ?_
    rwa [hArrival, hArrival]
  by_cases hAging : s.agingEnabled = true
  · have hRescored : s.rescored now = aged s.agingStep now := by
      funext t
      exact if_pos hAging
    rw [hRescored] at hPlaces
    rw [forall_prop_of_true hAging]
    constructor
    · rintro ⟨-, hUrgent, hStay⟩
      rw [hRescored] at hUrgent hStay
      refine ⟨fun t ht => aged_le_iff.mp (hUrgent t ht), fun t ht u hu hEq hArrived => ?_⟩
      exact aged_le_aged_iff.mp
        ((hPlaces t ht u hu hArrived).mp (hStay t ht u hu hEq hArrived))
    · rintro ⟨hScores, hPairs⟩
      refine ⟨s.agePool_pools pool now, fun t ht => ?_, fun t ht u hu hEq hArrived => ?_⟩
      · rw [hRescored]
        exact aged_le_iff.mpr (hScores t ht)
      · rw [hRescored]
        exact (hPlaces t ht u hu hArrived).mpr
          (aged_le_aged_iff.mpr (hPairs t ht u hu hEq hArrived))
  · have hRescored : s.rescored now = id := by
      funext t
      exact if_neg hAging
    refine iff_of_true ⟨s.agePool_pools pool now, fun t _ => ?_, fun t ht u hu hEq hArrived => ?_⟩
      fun h => absurd h hAging
    · rw [hRescored]
      exact le_rfl
    · refine (hPlaces t ht u hu hArrived).mpr ?_
      rw [hRescored]
      exact hEq.le

end

-- ------ A critical task

/-- A scheduler without workers, with one critical task of the default cost. -/
def critical : PriorityScheduler Unit :=
  submit {} { taskId := "t", priority := .critical, payload := () } 0 0 0

theorem harmless_iff_critical :
    critical.Harmless .background 1 ↔
      (critical.agingEnabled = true → critical.Ripe .background 1) :=
  harmless_iff (inOrder_exec (s := {}) (fun _ => List.Pairwise.nil)
    [.submit { taskId := "t", priority := .critical, payload := () } 0 0 0] .background)

/-- Its score falls behind: from -0.015 to 0. -/
theorem not_harmless_critical : ¬ critical.Harmless .background 1 := by
  intro h
  have hMem : admitted { taskId := "t", priority := .critical, payload := () } 0 0 0 ∈
      (critical.queues.overflow .background).items := List.mem_singleton_self _
  exact absurd (h.urgent _ hMem) (by decide +kernel)

end PriorityScheduler

end Neuroswarm.Haoe
