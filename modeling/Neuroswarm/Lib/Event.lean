import Mathlib.Tactic.Common

/-!
# Events of a cooperative scheduler

A flag with the coroutines that are inside its `wait()`. Setting the flag marks
every waiter as woken; a woken waiter goes on when the scheduler picks it, also
when the flag has been cleared since. A waiter is *pending* until it is woken.
-/

/-- A coroutine inside `wait()`, with what it goes on with. -/
structure Waiter (T : Type*) where
  task : T
  woken : Bool
  deriving Repr, DecidableEq

structure Event (T : Type*) where
  isSet : Bool := false
  waiters : List (Waiter T) := []
  deriving Repr, DecidableEq

namespace Event

variable {T : Type*} (e : Event T)

def set : Event T := ⟨true, e.waiters.map fun w => { w with woken := true }⟩

def clear : Event T := { e with isSet := false }

/-- A scheduling point also when the flag is set: the waiter is then woken at once. -/
def wait (task : T) : Event T := { e with waiters := e.waiters ++ [⟨task, e.isSet⟩] }

/-- The `wait()` of the waiter at `i` is over. -/
def leave (i : ℕ) : Event T := { e with waiters := e.waiters.eraseIdx i }

/-- The task of the waiter at `i`, if the scheduler may pick it. -/
def woken? (i : ℕ) : Option T := (e.waiters[i]?.filter (·.woken)).map (·.task)

def Pending : Prop := ∃ w ∈ e.waiters, w.woken = false

instance : Decidable e.Pending := inferInstanceAs (Decidable (∃ w ∈ _, _))

variable {e}

theorem not_pending_set : ¬ e.set.Pending := by
  rintro ⟨w, hw, hPending⟩
  obtain ⟨w', -, rfl⟩ := List.mem_map.mp hw
  exact Bool.noConfusion hPending

theorem Pending.of_leave {i : ℕ} (h : (e.leave i).Pending) : e.Pending := by
  obtain ⟨w, hw, hPending⟩ := h
  exact ⟨w, List.mem_of_mem_eraseIdx hw, hPending⟩

end Event
