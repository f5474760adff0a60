import Mathlib.Algebra.Order.BigOperators.Group.Finset
import Neuroswarm.Haoe.QueueManager
import Neuroswarm.Lib.Run

/-!
# HAOE — queues neither lose nor duplicate tasks

Runs of queue operations, with what was pushed and what was returned so far. Tasks
move between the queues and their takers one by one; only a worker that is registered
anew or removed takes its queue along.

* `keepsTasks_along_iff` — a run keeps all tasks iff only empty queues are replaced or
  removed.
-/

namespace Neuroswarm.Haoe

/-- The operations of `QueueManager`, and `WorkStealingScheduler.take`. -/
inductive QueueOp (P : Type*) where
  | registerWorker (pool : PoolKind) (workerId : Option WorkerId) (generated : WorkerId)
  | unregisterWorker (pool : PoolKind) (workerId : WorkerId)
  | pushPrivate (pool : PoolKind) (workerId : WorkerId) (task : QueuedTask P)
  | pushOverflow (pool : PoolKind) (task : QueuedTask P)
  | popPrivate (pool : PoolKind) (workerId : WorkerId)
  | popOverflow (pool : PoolKind)
  | steal (pool : PoolKind) (thiefId : WorkerId)
  | take (workerId : WorkerId) (pool : PoolKind) (localityTag : String)

/-- One of the queues. -/
inductive Place where
  | worker (pool : PoolKind) (workerId : WorkerId)
  | overflow (pool : PoolKind)
  deriving DecidableEq

structure QueueHistory (P : Type*) where
  queues : QueueManager P := {}
  stealer : WorkStealingScheduler := {}
  pushed : List (QueuedTask P) := []
  returned : List (QueuedTask P) := []

namespace QueueHistory

variable {P : Type*}

/-- Take over the queues after a pop or a steal, and note what it returned. -/
def collect (h : QueueHistory P) (result : Option (QueuedTask P) × QueueManager P) :
    QueueHistory P :=
  { h with queues := result.2, returned := h.returned ++ result.1.toList }

def step (h : QueueHistory P) : QueueOp P → QueueHistory P
  | .registerWorker pool workerId generated =>
    { h with queues := h.queues.registerWorker pool workerId generated }
  | .unregisterWorker pool workerId =>
    { h with queues := h.queues.unregisterWorker pool workerId }
  | .pushPrivate pool workerId task =>
    { h with queues := h.queues.pushPrivate pool workerId task, pushed := h.pushed ++ [task] }
  | .pushOverflow pool task =>
    { h with queues := h.queues.pushOverflow pool task, pushed := h.pushed ++ [task] }
  | .popPrivate pool workerId => h.collect (h.queues.popPrivate pool workerId)
  | .popOverflow pool => h.collect (h.queues.popOverflow pool)
  | .steal pool thiefId => h.collect (h.queues.steal pool thiefId)
  | .take workerId pool localityTag =>
    let result := h.stealer.take h.queues workerId pool localityTag
    { h.collect (result.1, result.2.2) with stealer := result.2.1 }

/-- The tasks whose queue an operation throws away. -/
def lost (h : QueueHistory P) : QueueOp P → List (QueuedTask P)
  | .registerWorker pool workerId generated =>
    h.queues.tasksOf pool (QueueManager.workerIdFor workerId generated)
  | .unregisterWorker pool workerId => h.queues.tasksOf pool workerId
  | _ => []

def Lossless (h : QueueHistory P) : QueueOp P → Prop
  | .registerWorker pool workerId generated =>
    h.queues.tasksOf pool (QueueManager.workerIdFor workerId generated) = []
  | .unregisterWorker pool workerId => h.queues.tasksOf pool workerId = []
  | _ => True

theorem lossless_iff {h : QueueHistory P} {op : QueueOp P} : h.Lossless op ↔ h.lost op = [] := by
  cases op <;> simp [Lossless, lost]

end QueueHistory

namespace QueueManager

variable {P : Type*}

def held (m : QueueManager P) : Place → List (QueuedTask P)
  | .worker pool workerId => m.tasksOf pool workerId
  | .overflow pool => (m.overflow pool).items

end QueueManager

namespace QueueHistory

variable {P : Type*} [DecidableEq P]

def ExactlyOnce (h : QueueHistory P) : Prop :=
  (∀ t ∈ h.pushed, t ∉ h.returned → ∃ place, (h.queues.held place).count t = 1 ∧
    ∀ place', t ∈ h.queues.held place' → place' = place) ∧
  h.returned.Nodup

/-- No task is lost and none duplicated. A task that is pushed repeatedly is counted. -/
structure KeepsTasks (h : QueueHistory P) : Prop where
  accounted : ∀ t, h.queues.count t + h.returned.count t = h.pushed.count t
  exactlyOnce : h.pushed.Nodup → h.ExactlyOnce

end QueueHistory

-- ------ Counting the places of a task

def Place.pool : Place → PoolKind
  | .worker pool _ => pool
  | .overflow pool => pool

namespace QueueManager

variable {P : Type*} [DecidableEq P] {m : QueueManager P} {t : QueuedTask P}

theorem count_tasksOf_le (pool : PoolKind) (wid : WorkerId) :
    (m.tasksOf pool wid).count t ≤ (m.pools pool).total fun _ q => q.dq.count t := by
  unfold tasksOf
  cases hq : (m.pools pool).get? wid with
  | none => exact Nat.zero_le _
  | some q => exact Dict.le_total hq fun _ q => q.dq.count t

theorem count_held_le (place : Place) : (m.held place).count t ≤ m.poolCount t place.pool := by
  cases place with
  | worker pool wid =>
    have := m.count_tasksOf_le (t := t) pool wid
    show (m.tasksOf pool wid).count t ≤ (m.pools pool).total (fun _ q => q.dq.count t) + _
    omega
  | overflow pool => exact Nat.le_add_left _ _

theorem count_held_add_le_poolCount {place place' : Place} (hNe : place ≠ place')
    (hPool : place.pool = place'.pool) :
    (m.held place).count t + (m.held place').count t ≤ m.poolCount t place.pool := by
  cases place with
  | worker pool wid =>
    cases place' with
    | worker pool' wid' =>
      obtain rfl : pool = pool' := hPool
      have hWid : wid ≠ wid' := fun h => hNe (by rw [h])
      have hTotal : (m.tasksOf pool wid).count t + (m.tasksOf pool wid').count t ≤
          (m.pools pool).total fun _ q => q.dq.count t := by
        have hLe := m.count_tasksOf_le (t := t) pool wid
        have hLe' := m.count_tasksOf_le (t := t) pool wid'
        unfold tasksOf at *
        cases hq : (m.pools pool).get? wid with
        | none => simpa [hq] using hLe'
        | some q =>
          cases hq' : (m.pools pool).get? wid' with
          | none => simpa [hq] using hLe
          | some q' => exact Dict.add_le_total hWid hq hq' fun _ q => q.dq.count t
      show (m.tasksOf pool wid).count t + (m.tasksOf pool wid').count t ≤
        (m.pools pool).total (fun _ q => q.dq.count t) + _
      omega
    | overflow pool' =>
      obtain rfl : pool = pool' := hPool
      exact Nat.add_le_add_right (m.count_tasksOf_le pool wid) _
  | overflow pool =>
    cases place' with
    | worker pool' wid' =>
      obtain rfl : pool = pool' := hPool
      have := m.count_tasksOf_le (t := t) pool wid'
      show (m.overflow pool).items.count t + (m.tasksOf pool wid').count t ≤
        (m.pools pool).total (fun _ q => q.dq.count t) + (m.overflow pool).items.count t
      omega
    | overflow pool' => exact absurd (congrArg Place.overflow hPool) hNe

theorem count_held_add_le {place place' : Place} (hNe : place ≠ place') :
    (m.held place).count t + (m.held place').count t ≤ m.count t := by
  unfold count
  by_cases hPool : place.pool = place'.pool
  · exact (count_held_add_le_poolCount hNe hPool).trans
      (Finset.single_le_sum (fun _ _ => Nat.zero_le _) (Finset.mem_univ _))
  · rw [← Finset.add_sum_erase _ _ (Finset.mem_univ place.pool)]
    refine Nat.add_le_add (count_held_le place) ((count_held_le place').trans ?_)
    exact Finset.single_le_sum (fun _ _ => Nat.zero_le _)
      (Finset.mem_erase.mpr ⟨Ne.symm hPool, Finset.mem_univ _⟩)

theorem count_held_le_count (place : Place) : (m.held place).count t ≤ m.count t :=
  (count_held_le place).trans
    (Finset.single_le_sum (fun _ _ => Nat.zero_le _) (Finset.mem_univ _))

theorem exists_held {t : QueuedTask P} (h : 0 < m.count t) : ∃ place, t ∈ m.held place := by
  obtain ⟨pool, -, hPool⟩ := Finset.exists_ne_zero_of_sum_ne_zero (Nat.pos_iff_ne_zero.mp h)
  by_cases hOverflow : t ∈ (m.overflow pool).items
  · exact ⟨.overflow pool, hOverflow⟩
  · have hZero : (m.overflow pool).items.count t = 0 := List.count_eq_zero.mpr hOverflow
    unfold poolCount at hPool
    obtain ⟨wid, q, hq, hCount⟩ := Dict.exists_of_total_pos (d := m.pools pool)
      (w := fun _ q => q.dq.count t) (by omega)
    refine ⟨.worker pool wid, ?_⟩
    show t ∈ m.tasksOf pool wid
    rw [tasksOf, hq]
    exact List.count_pos_iff.mp hCount

end QueueManager

namespace QueueHistory

variable {P : Type*} [DecidableEq P]

theorem exactlyOnce_of_accounted {h : QueueHistory P}
    (hCount : ∀ t, h.queues.count t + h.returned.count t = h.pushed.count t)
    (hDistinct : h.pushed.Nodup) : h.ExactlyOnce := by
  constructor
  · intro t hPushed hNot
    have hOne : h.pushed.count t = 1 := List.count_eq_one_of_mem hDistinct hPushed
    have hZero : h.returned.count t = 0 := List.count_eq_zero.mpr hNot
    have hTotal := hCount t
    obtain ⟨place, hPlace⟩ := QueueManager.exists_held (m := h.queues) (t := t) (by omega)
    have hPos : 0 < (h.queues.held place).count t := List.count_pos_iff.mpr hPlace
    have hLe := QueueManager.count_held_le_count (m := h.queues) (t := t) place
    refine ⟨place, by omega, fun place' hPlace' => ?_⟩
    have hPos' : 0 < (h.queues.held place').count t := List.count_pos_iff.mpr hPlace'
    by_contra hNe
    have := QueueManager.count_held_add_le (m := h.queues) (t := t) hNe
    omega
  · refine List.nodup_iff_count_le_one.mpr fun t => ?_
    have hLe := List.nodup_iff_count_le_one.mp hDistinct t
    have hTotal := hCount t
    omega

theorem keepsTasks_iff {h : QueueHistory P} :
    h.KeepsTasks ↔ ∀ t, h.queues.count t + h.returned.count t = h.pushed.count t :=
  ⟨KeepsTasks.accounted, fun hCount => ⟨hCount, exactlyOnce_of_accounted hCount⟩⟩

-- ------ Steps and runs

theorem step_count (h : QueueHistory P) (op : QueueOp P) (t : QueuedTask P) :
    (h.step op).queues.count t + (h.step op).returned.count t + (h.lost op).count t +
        h.pushed.count t =
      h.queues.count t + h.returned.count t + (h.step op).pushed.count t := by
  cases op with
  | registerWorker pool workerId generated =>
    have := h.queues.registerWorker_moves pool workerId generated t
    simp only [step, lost, List.count_nil] at this ⊢
    omega
  | unregisterWorker pool workerId =>
    have := h.queues.unregisterWorker_moves pool workerId t
    simp only [step, lost, List.count_nil] at this ⊢
    omega
  | pushPrivate pool workerId task =>
    have := h.queues.pushPrivate_moves pool workerId task t
    simp only [step, lost, List.count_nil, List.count_append] at this ⊢
    omega
  | pushOverflow pool task =>
    have := h.queues.pushOverflow_moves pool task t
    simp only [step, lost, List.count_nil, List.count_append] at this ⊢
    omega
  | popPrivate pool workerId =>
    have := h.queues.popPrivate_moves pool workerId t
    simp only [step, collect, lost, List.count_nil, List.count_append] at this ⊢
    omega
  | popOverflow pool =>
    have := h.queues.popOverflow_moves pool t
    simp only [step, collect, lost, List.count_nil, List.count_append] at this ⊢
    omega
  | steal pool thiefId =>
    have := h.queues.stealFrom_moves pool (h.queues.victims pool thiefId) t
    simp only [step, collect, QueueManager.steal, lost, List.count_nil, List.count_append] at this ⊢
    omega
  | take workerId pool localityTag =>
    have := h.queues.take_moves pool h.stealer workerId localityTag t
    simp only [step, collect, lost, List.count_nil, List.count_append] at this ⊢
    omega

/-- **HAOE queues neither lose nor duplicate tasks** as long as no worker with queued tasks is
removed or registered again, and only then. -/
theorem keepsTasks_along_iff (stealer : WorkStealingScheduler) (ops : List (QueueOp P)) :
    Run.Along step KeepsTasks { stealer } ops ↔ Run.Every step Lossless { stealer } ops := by
  refine Run.along_iff_every (I := KeepsTasks) (fun _ h => h) ?_ ?_ ?_ ops
  · intro h op hKeeps hLossless
    rw [keepsTasks_iff] at hKeeps ⊢
    intro t
    have hStep := h.step_count op t
    rw [lossless_iff.mp hLossless, List.count_nil] at hStep
    have := hKeeps t
    omega
  · -- a task that is lost is missing from the account
    intro h op hKeeps hLossy hStepKeeps
    obtain ⟨t, ht⟩ := List.exists_mem_of_ne_nil _ fun hNil => hLossy (lossless_iff.mpr hNil)
    have hPos : 0 < (h.lost op).count t := List.count_pos_iff.mpr ht
    have hStep := h.step_count op t
    have hBefore := hKeeps.accounted t
    have hAfter := hStepKeeps.accounted t
    omega
  · rw [keepsTasks_iff]
    intro t
    show ∑ pool, QueueManager.poolCount {} t pool + 0 = 0
    rw [Nat.add_zero]
    exact Finset.sum_eq_zero fun pool _ => rfl

/-- A worker is removed with a task in its queue. -/
theorem not_keepsTasks_unregistered :
    ¬ Run.Along step (KeepsTasks (P := Unit)) {}
      [.registerWorker .background (some "w1") "background-0",
        .pushPrivate .background "w1" { taskId := "t", payload := (), enqueuedAt := 0 },
        .unregisterWorker .background "w1"] := by
  intro h
  have hCount := h.exec.accounted { taskId := "t", payload := (), enqueuedAt := 0 }
  revert hCount
  decide

end QueueHistory

end Neuroswarm.Haoe
