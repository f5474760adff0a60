import Mathlib.Algebra.BigOperators.Group.Finset.Basic
import Mathlib.Algebra.Order.Ring.Rat
import Mathlib.Data.List.Sort
import Mathlib.Data.Fintype.Defs
import Neuroswarm.Lib.Dict

/-!
# HAOE — worker queues, overflow and stealing

`queue_manager.py` and `work_stealing.py` of `haoe/scheduling`. The dequeue end of a
worker's queue is the head of its list, thieves take from the other end. An id that
`register_worker` makes up is a parameter.

Of a queued task the fields that the queues read are modelled, and the payload; times
and priorities are rationals. `depth`, `pick_least_loaded` and the locks are left out.

* `Moves` — what goes into the queues and what comes out of them.
-/

namespace Neuroswarm.Haoe

/-- Independently scalable worker pool kinds. -/
inductive PoolKind where
  | inference
  | memory
  | embedding
  | tool
  | planner
  | background
  | telemetry
  | maintenance
  deriving DecidableEq, Repr

instance : Fintype PoolKind where
  elems := {.inference, .memory, .embedding, .tool, .planner, .background, .telemetry, .maintenance}
  complete pool := by cases pool <;> decide

/-- Scheduler priority bands. -/
inductive PriorityClass where
  | critical
  | high
  | normal
  | background
  deriving DecidableEq, Repr

/-- `int(priority)`. -/
def PriorityClass.toNat : PriorityClass → Nat
  | .critical => 0
  | .high => 1
  | .normal => 2
  | .background => 3

abbrev WorkerId := String

/-- Unit of work sitting in a worker or overflow queue, with a payload in `P`. -/
structure QueuedTask (P : Type*) where
  taskId : String
  priority : PriorityClass := .normal
  payload : P
  enqueuedAt : ℚ
  effectivePriority : ℚ := priority.toNat
  localityTag : String := ""
  deriving DecidableEq

structure WorkerQueue (P : Type*) where
  workerId : WorkerId
  dq : List (QueuedTask P) := []
  deriving DecidableEq

namespace WorkerQueue

variable {P : Type*}

def push (q : WorkerQueue P) (task : QueuedTask P) : WorkerQueue P := { q with dq := task :: q.dq }

def pop (q : WorkerQueue P) : Option (QueuedTask P) × WorkerQueue P :=
  match q.dq with
  | [] => (none, q)
  | task :: rest => (some task, { q with dq := rest })

def stealOldest (q : WorkerQueue P) : Option (QueuedTask P) × WorkerQueue P :=
  match q.dq.getLast? with
  | none => (none, q)
  | some task => (some task, { q with dq := q.dq.dropLast })

end WorkerQueue

/-- Global overflow of a pool, most urgent first. -/
structure OverflowQueue (P : Type*) where
  items : List (QueuedTask P) := []
  deriving DecidableEq

namespace OverflowQueue

variable {P : Type*}

/-- The order of the keys `(effective_priority, enqueued_at)`. -/
def Before (a b : QueuedTask P) : Prop :=
  a.effectivePriority < b.effectivePriority ∨
    a.effectivePriority = b.effectivePriority ∧ a.enqueuedAt ≤ b.enqueuedAt

instance : DecidableRel (Before (P := P)) := fun a b =>
  inferInstanceAs (Decidable (a.effectivePriority < b.effectivePriority ∨
    a.effectivePriority = b.effectivePriority ∧ a.enqueuedAt ≤ b.enqueuedAt))

def push (q : OverflowQueue P) (task : QueuedTask P) : OverflowQueue P :=
  ⟨(q.items ++ [task]).insertionSort Before⟩

def pop (q : OverflowQueue P) : Option (QueuedTask P) × OverflowQueue P :=
  match q.items with
  | [] => (none, q)
  | task :: rest => (some task, ⟨rest⟩)

end OverflowQueue

structure QueueManager (P : Type*) where
  pools : PoolKind → Dict WorkerId (WorkerQueue P) := fun _ => .empty
  overflow : PoolKind → OverflowQueue P := fun _ => {}

namespace QueueManager

variable {P : Type*}

/-- Put `d` in the place of a pool's worker queues. -/
def setPool (m : QueueManager P) (pool : PoolKind) (d : Dict WorkerId (WorkerQueue P)) :
    QueueManager P :=
  { m with pools := Function.update m.pools pool d }

def setOverflow (m : QueueManager P) (pool : PoolKind) (q : OverflowQueue P) : QueueManager P :=
  { m with overflow := Function.update m.overflow pool q }

/-- `worker_id or f"{pool.value}-{uuid4().hex[:8]}"`. -/
def workerIdFor (workerId : Option WorkerId) (generated : WorkerId) : WorkerId :=
  match workerId with
  | none | some "" => generated
  | some wid => wid

/-- `register_worker(pool, worker_id)`: an empty queue, whatever stood under the id. -/
def registerWorker (m : QueueManager P) (pool : PoolKind) (workerId : Option WorkerId)
    (generated : WorkerId) : QueueManager P :=
  let wid := workerIdFor workerId generated
  m.setPool pool ((m.pools pool).set wid { workerId := wid })

def unregisterWorker (m : QueueManager P) (pool : PoolKind) (workerId : WorkerId) :
    QueueManager P :=
  m.setPool pool ((m.pools pool).erase workerId)

def pushOverflow (m : QueueManager P) (pool : PoolKind) (task : QueuedTask P) : QueueManager P :=
  m.setOverflow pool ((m.overflow pool).push task)

def pushPrivate (m : QueueManager P) (pool : PoolKind) (workerId : WorkerId)
    (task : QueuedTask P) : QueueManager P :=
  match (m.pools pool).get? workerId with
  | none => m.pushOverflow pool task
  | some q => m.setPool pool ((m.pools pool).set workerId (q.push task))

def popPrivate (m : QueueManager P) (pool : PoolKind) (workerId : WorkerId) :
    Option (QueuedTask P) × QueueManager P :=
  match (m.pools pool).get? workerId with
  | none => (none, m)
  | some q => (q.pop.1, m.setPool pool ((m.pools pool).set workerId q.pop.2))

def popOverflow (m : QueueManager P) (pool : PoolKind) : Option (QueuedTask P) × QueueManager P :=
  ((m.overflow pool).pop.1, m.setOverflow pool (m.overflow pool).pop.2)

def load (m : QueueManager P) (pool : PoolKind) (workerId : WorkerId) : Nat :=
  ((m.pools pool).get? workerId).elim 0 fun q => q.dq.length

def victims (m : QueueManager P) (pool : PoolKind) (thiefId : WorkerId) : List WorkerId :=
  ((m.pools pool).keys.filter fun wid => wid ≠ thiefId).insertionSort fun a b =>
    m.load pool b ≤ m.load pool a

/-- The loop of `steal` over its victims. -/
def stealFrom (m : QueueManager P) (pool : PoolKind) :
    List WorkerId → Option (QueuedTask P) × QueueManager P
  | [] => (none, m)
  | vid :: rest =>
    match (m.pools pool).get? vid with
    | none => m.stealFrom pool rest
    | some q =>
      match q.stealOldest with
      | (some task, q') => (some task, m.setPool pool ((m.pools pool).set vid q'))
      | (none, _) => m.stealFrom pool rest

def steal (m : QueueManager P) (pool : PoolKind) (thiefId : WorkerId) :
    Option (QueuedTask P) × QueueManager P :=
  m.stealFrom pool (m.victims pool thiefId)

end QueueManager

/-- The counters of `WorkStealingScheduler`; at least one attempt. -/
structure WorkStealingScheduler where
  attempts : Nat := 3
  stealCount : Nat := 0
  localityHits : Nat := 0
  deriving DecidableEq, Repr

namespace WorkStealingScheduler

variable {P : Type*}

/-- The attempts to steal; the first success returns. -/
def stealLoop (pool : PoolKind) (workerId : WorkerId) (localityTag : String) :
    Nat → WorkStealingScheduler → QueueManager P →
      Option (QueuedTask P) × WorkStealingScheduler × QueueManager P
  | 0, s, m => (none, s, m)
  | _ + 1, s, m =>
    match m.steal pool workerId with
    | (none, m') => (none, s, m')
    | (some stolen, m') =>
      let s := { s with stealCount := s.stealCount + 1 }
      if localityTag ≠ "" ∧ stolen.localityTag = localityTag then
        (some stolen, { s with localityHits := s.localityHits + 1 }, m')
      else
        (some stolen, s, m')

/-- `take(worker_id, pool, locality_tag=...)`: own queue, overflow, then the others. -/
def take (s : WorkStealingScheduler) (m : QueueManager P) (workerId : WorkerId) (pool : PoolKind)
    (localityTag : String) : Option (QueuedTask P) × WorkStealingScheduler × QueueManager P :=
  match m.popPrivate pool workerId with
  | (some task, m) => (some task, s, m)
  | (none, m) =>
    match m.popOverflow pool with
    | (some task, m) => (some task, s, m)
    | (none, m) => stealLoop pool workerId localityTag (max 1 s.attempts) s m

end WorkStealingScheduler

-- ------ Where the tasks are

namespace QueueManager

variable {P : Type*}

def tasksOf (m : QueueManager P) (pool : PoolKind) (workerId : WorkerId) : List (QueuedTask P) :=
  ((m.pools pool).get? workerId).elim [] WorkerQueue.dq

variable [DecidableEq P]

/-- How often `t` is queued in one pool. -/
def poolCount (m : QueueManager P) (t : QueuedTask P) (pool : PoolKind) : Nat :=
  (m.pools pool).total (fun _ q => q.dq.count t) + (m.overflow pool).items.count t

/-- How often `t` is queued, over all queues. -/
def count (m : QueueManager P) (t : QueuedTask P) : Nat := ∑ pool, m.poolCount t pool

/-- From `m` to `m'` the tasks `ins` went into the queues and `outs` came out. -/
def Moves (m m' : QueueManager P) (ins outs : List (QueuedTask P)) : Prop :=
  ∀ t, m'.count t + outs.count t = m.count t + ins.count t

theorem Moves.refl (m : QueueManager P) : m.Moves m [] [] := fun _ => rfl

variable {ins outs : List (QueuedTask P)}

theorem Moves.trans {m m' m'' : QueueManager P} {outs' : List (QueuedTask P)}
    (h : m.Moves m' ins outs) (h' : m'.Moves m'' [] outs') :
    m.Moves m'' ins (outs ++ outs') := by
  intro t
  have h := h t
  have h' := h' t
  rw [List.count_nil] at h'
  rw [List.count_append]
  omega

theorem moves_of_pool {m m' : QueueManager P} (pool : PoolKind)
    (hOther : ∀ p ≠ pool, m'.pools p = m.pools p ∧ m'.overflow p = m.overflow p)
    (hPool : ∀ t, m'.poolCount t pool + outs.count t = m.poolCount t pool + ins.count t) :
    m.Moves m' ins outs := by
  intro t
  unfold count
  rw [← Finset.add_sum_erase _ _ (Finset.mem_univ pool),
    ← Finset.add_sum_erase Finset.univ (m.poolCount t) (Finset.mem_univ pool)]
  have hRest : ∑ p ∈ Finset.univ.erase pool, m'.poolCount t p =
      ∑ p ∈ Finset.univ.erase pool, m.poolCount t p := by
    refine Finset.sum_congr rfl fun p hp => ?_
    obtain ⟨hPools, hOverflow⟩ := hOther p (Finset.ne_of_mem_erase hp)
    rw [poolCount, poolCount, hPools, hOverflow]
  have := hPool t
  omega

theorem setPool_moves {m : QueueManager P} {pool : PoolKind} {d : Dict WorkerId (WorkerQueue P)}
    (h : ∀ t, d.total (fun _ q => q.dq.count t) + outs.count t =
      (m.pools pool).total (fun _ q => q.dq.count t) + ins.count t) :
    m.Moves (m.setPool pool d) ins outs := by
  refine moves_of_pool pool (fun p hp => ⟨Function.update_of_ne hp _ _, rfl⟩) fun t => ?_
  have := h t
  simp only [poolCount, setPool, Function.update_self]
  omega

theorem setOverflow_moves {m : QueueManager P} {pool : PoolKind} {q : OverflowQueue P}
    (h : ∀ t, q.items.count t + outs.count t = (m.overflow pool).items.count t + ins.count t) :
    m.Moves (m.setOverflow pool q) ins outs := by
  refine moves_of_pool pool (fun p hp => ⟨rfl, Function.update_of_ne hp _ _⟩) fun t => ?_
  have := h t
  simp only [poolCount, setOverflow, Function.update_self]
  omega

theorem set_moves {m : QueueManager P} {pool : PoolKind} {wid : WorkerId} {q q' : WorkerQueue P}
    (hq : (m.pools pool).get? wid = some q)
    (h : ∀ t, q'.dq.count t + outs.count t = q.dq.count t + ins.count t) :
    m.Moves (m.setPool pool ((m.pools pool).set wid q')) ins outs := by
  refine setPool_moves fun t => ?_
  have hSet : ((m.pools pool).set wid q').total (fun _ q => q.dq.count t) + q.dq.count t =
      (m.pools pool).total (fun _ q => q.dq.count t) + q'.dq.count t :=
    Dict.total_set_of_some hq q' fun _ q => q.dq.count t
  have := h t
  omega

-- ------ The operations

variable (m : QueueManager P) (pool : PoolKind)

theorem pushOverflow_moves (task : QueuedTask P) :
    m.Moves (m.pushOverflow pool task) [task] [] := by
  refine setOverflow_moves fun t => ?_
  show ((_ ++ [task]).insertionSort _).count t + 0 = _
  rw [(List.perm_insertionSort _ _).count_eq, List.count_append, Nat.add_zero]

theorem pushPrivate_moves (wid : WorkerId) (task : QueuedTask P) :
    m.Moves (m.pushPrivate pool wid task) [task] [] := by
  unfold pushPrivate
  split
  · exact m.pushOverflow_moves pool task
  · next q hq =>
    refine set_moves hq fun t => ?_
    show (task :: q.dq).count t + 0 = _
    rw [← List.singleton_append, List.count_append]
    omega

theorem popPrivate_moves (wid : WorkerId) :
    m.Moves (m.popPrivate pool wid).2 [] (m.popPrivate pool wid).1.toList := by
  unfold popPrivate
  split
  · exact .refl m
  · next q hq =>
    refine set_moves hq fun t => ?_
    unfold WorkerQueue.pop
    split
    · rfl
    · next task rest hDq =>
      show rest.count t + [task].count t = _
      rw [hDq, List.count_cons, List.count_cons, List.count_nil]
      omega

theorem popOverflow_moves : m.Moves (m.popOverflow pool).2 [] (m.popOverflow pool).1.toList := by
  refine setOverflow_moves fun t => ?_
  unfold popOverflow OverflowQueue.pop
  split
  · rfl
  · next task rest hItems =>
    show rest.count t + [task].count t = _
    rw [hItems, List.count_cons, List.count_cons, List.count_nil]
    omega

theorem stealFrom_moves (vids : List WorkerId) :
    m.Moves (m.stealFrom pool vids).2 [] (m.stealFrom pool vids).1.toList := by
  induction vids with
  | nil => exact .refl m
  | cons vid rest ih =>
    unfold stealFrom
    split
    · exact ih
    · next q hq =>
      split
      · next task q' hSteal =>
        refine set_moves hq fun t => ?_
        unfold WorkerQueue.stealOldest at hSteal
        split at hSteal
        · cases hSteal
        · next last hLast =>
          cases hSteal
          -- the stolen task is the last one, the rest stays
          have hSplit : q.dq.dropLast ++ [task] = q.dq := List.dropLast_append_getLast? task hLast
          show q.dq.dropLast.count t + [task].count t = _
          rw [← List.count_append, hSplit, List.count_nil]
          omega
      · exact ih

theorem stealLoop_moves (s : WorkStealingScheduler) (wid : WorkerId) (tag : String) (n : Nat) :
    m.Moves (WorkStealingScheduler.stealLoop pool wid tag n s m).2.2 []
      (WorkStealingScheduler.stealLoop pool wid tag n s m).1.toList := by
  cases n with
  | zero => exact .refl m
  | succ n =>
    have hSteal : m.Moves (m.steal pool wid).2 [] (m.steal pool wid).1.toList :=
      m.stealFrom_moves pool (m.victims pool wid)
    rw [WorkStealingScheduler.stealLoop]
    rcases hResult : m.steal pool wid with ⟨_ | stolen, m'⟩
    · rw [hResult] at hSteal
      exact hSteal
    · rw [hResult] at hSteal
      simp only
      split <;> exact hSteal

theorem take_moves (s : WorkStealingScheduler) (wid : WorkerId) (tag : String) :
    m.Moves (s.take m wid pool tag).2.2 [] (s.take m wid pool tag).1.toList := by
  have hPrivate := m.popPrivate_moves pool wid
  unfold WorkStealingScheduler.take
  split
  · next task m₁ hPop =>
    rw [hPop] at hPrivate
    exact hPrivate
  · next m₁ hPop =>
    rw [hPop] at hPrivate
    have hOverflow := m₁.popOverflow_moves pool
    split
    · next task m₂ hPop₂ =>
      rw [hPop₂] at hOverflow
      exact hPrivate.trans hOverflow
    · next m₂ hPop₂ =>
      rw [hPop₂] at hOverflow
      exact (hPrivate.trans hOverflow).trans (m₂.stealLoop_moves pool s wid tag _)

theorem registerWorker_moves (workerId : Option WorkerId) (generated : WorkerId) :
    m.Moves (m.registerWorker pool workerId generated) []
      (m.tasksOf pool (workerIdFor workerId generated)) := by
  unfold registerWorker tasksOf
  cases hq : (m.pools pool).get? (workerIdFor workerId generated) with
  | none =>
    refine setPool_moves fun t => ?_
    rw [Dict.total_set_of_none hq]
    rfl
  | some q => exact set_moves hq fun t => by simp

theorem unregisterWorker_moves (wid : WorkerId) :
    m.Moves (m.unregisterWorker pool wid) [] (m.tasksOf pool wid) := by
  unfold unregisterWorker tasksOf
  refine setPool_moves fun t => ?_
  cases hq : (m.pools pool).get? wid with
  | none =>
    rw [Dict.erase_of_none hq]
    rfl
  | some q => exact Dict.total_erase hq fun _ q => q.dq.count t

end QueueManager

end Neuroswarm.Haoe
