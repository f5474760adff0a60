import Mathlib.Data.Int.Notation
import Neuroswarm.Lib.Event
import Neuroswarm.Lib.Run

/-!
# The stream buffer

Writers and a reader on one `StreamBuffer`. A coroutine runs alone from one `await`
to the next, so a step of the channel is a coroutine's turn: it ends where the
coroutine returns, raises or waits on `_space` or `_data`. Each waiting `write` is a
waiter of `_space` with its chunk; the reader is a waiter of `_data`.

* `StreamBuffer.Balanced` — who waits, and how full the queue then is.
* `Channel.Inv` — what holds between two turns; `Inv.step` — every turn keeps it.
* `boundedFifo_along` — so the buffer is a bounded FIFO channel in every run.
-/

namespace Neuroswarm.Dipa

variable {Chunk : Type}

structure StreamBuffer (Chunk : Type) where
  highWatermark : ℤ := 200
  lowWatermark : ℤ := 50
  queue : List Chunk := []
  closed : Bool := false
  pressure : Bool := false
  space : Event Chunk := {}
  data : Event Unit := {}
  deriving Repr, DecidableEq

/-- Where a turn of a coroutine ends. -/
inductive Turn (α : Type) where
  | returned (value : α)
  | raised (message : String)
  | waits
  deriving Repr, DecidableEq

-- ------ The buffer

namespace StreamBuffer

variable (b : StreamBuffer Chunk) (chunk : Chunk)

/-- The constructor, with `__post_init__`. -/
def make (highWatermark lowWatermark : ℤ) : Except String (StreamBuffer Chunk) :=
  if highWatermark < lowWatermark then .error "low_watermark must be <= high_watermark"
  else
    let b : StreamBuffer Chunk := { highWatermark, lowWatermark }
    .ok { b with space := b.space.set }

/-- Enqueue without waiting: `false` when the high watermark is hit. -/
def writeNowait : Except String (Bool × StreamBuffer Chunk) :=
  if b.closed then .error "stream buffer is closed"
  else if b.highWatermark ≤ b.queue.length then
    .ok (false, { b with pressure := true, space := b.space.clear })
  else
    let b := { b with queue := b.queue ++ [chunk], data := b.data.set }
    .ok (true, if b.highWatermark ≤ b.queue.length then
      { b with pressure := true, space := b.space.clear } else b)

/-- A turn of `write`, from its start or from its `_space.wait()`. -/
def write : Turn Unit × StreamBuffer Chunk :=
  match b.writeNowait chunk with
  | .error e => (.raised e, b)
  | .ok (true, b) => (.returned (), b)
  | .ok (false, b) => (.waits, { b with space := b.space.wait chunk })

def relieve : StreamBuffer Chunk :=
  if b.queue.length ≤ b.lowWatermark then { b with pressure := false, space := b.space.set } else b

def settle : StreamBuffer Chunk :=
  if b.queue.isEmpty then { b with data := b.data.clear } else b

def readNowait : Option Chunk × StreamBuffer Chunk :=
  match b.queue with
  | [] => if b.closed then (none, b) else (none, { b with data := b.data.clear })
  | chunk :: queue => (some chunk, { b with queue }.relieve.settle)

/-- A turn of `read`, from its start or from its `_data.wait()`. -/
def read : Turn (Option Chunk) × StreamBuffer Chunk :=
  match b.readNowait with
  | (some chunk, b) => (.returned (some chunk), b)
  | (none, b) => if b.closed then (.returned none, b)
    else (.waits, { b with data := b.data.wait () })

def close : StreamBuffer Chunk :=
  { b with closed := true, space := b.space.set, data := b.data.set }

end StreamBuffer

-- ------ The channel

structure Channel (Chunk : Type) where
  buffer : StreamBuffer Chunk
  written : List Chunk := []
  received : List Chunk := []
  deriving Repr, DecidableEq

/-- What the scheduler picks: a call starts, or a waiter goes on or is cancelled. -/
inductive Action (Chunk : Type) where
  | write (chunk : Chunk)
  | writeNowait (chunk : Chunk)
  | resumeWriter (i : ℕ)
  | cancelWriter (i : ℕ)
  | read
  | readNowait
  | resumeReader
  | cancelReader
  | close
  deriving Repr, DecidableEq

namespace Channel

variable (c : Channel Chunk) (chunk : Chunk)

/-- A writer's turn with `chunk`. -/
def write : Channel Chunk :=
  match c.buffer.write chunk with
  | (.returned (), buffer) => { c with buffer, written := c.written ++ [chunk] }
  | (_, buffer) => { c with buffer }

def writeNowait : Channel Chunk :=
  match c.buffer.writeNowait chunk with
  | .ok (true, buffer) => { c with buffer, written := c.written ++ [chunk] }
  | .ok (false, buffer) => { c with buffer }
  | .error _ => c

/-- A turn of the reader inside `read`. -/
def read : Channel Chunk :=
  match c.buffer.read with
  | (.returned (some chunk), buffer) => { c with buffer, received := c.received ++ [chunk] }
  | (_, buffer) => { c with buffer }

def readNowait : Channel Chunk :=
  match c.buffer.readNowait with
  | (some chunk, buffer) => { c with buffer, received := c.received ++ [chunk] }
  | (none, buffer) => { c with buffer }

/-- The writer at `i` leaves `_space.wait()`. -/
def leaveSpace (i : ℕ) : Channel Chunk :=
  { c with buffer := { c.buffer with space := c.buffer.space.leave i } }

/-- The reader leaves `_data.wait()`. -/
def leaveData : Channel Chunk :=
  { c with buffer := { c.buffer with data := c.buffer.data.leave 0 } }

/-- There is one reader: it calls nothing while it waits. -/
def Reading : Prop := c.buffer.data.waiters ≠ []

instance : Decidable c.Reading := inferInstanceAs (Decidable (_ ≠ _))

def step : Action Chunk → Channel Chunk
  | .write chunk => c.write chunk
  | .writeNowait chunk => c.writeNowait chunk
  | .resumeWriter i => match c.buffer.space.woken? i with
    | some chunk => (c.leaveSpace i).write chunk
    | none => c
  | .cancelWriter i => c.leaveSpace i
  | .read => if c.Reading then c else c.read
  | .readNowait => if c.Reading then c else c.readNowait
  | .resumeReader => match c.buffer.data.woken? 0 with
    | some () => c.leaveData.read
    | none => c
  | .cancelReader => c.leaveData
  | .close => { c with buffer := c.buffer.close }

structure BoundedFifo (high : ℤ) (c : Channel Chunk) : Prop where
  fifo : c.received ++ c.buffer.queue = c.written
  bounded : c.buffer.queue.length ≤ high
  noMutualWaiting : ¬ (c.buffer.space.Pending ∧ c.buffer.data.Pending)

end Channel

-- ------ What a turn does to the buffer

namespace StreamBuffer

/-- A writer waits only above the low watermark, the reader only on an empty queue. -/
structure Balanced (high low : ℤ) (b : StreamBuffer Chunk) : Prop where
  highWatermark : b.highWatermark = high
  lowWatermark : b.lowWatermark = low
  bounded : b.queue.length ≤ high
  writers : b.space.Pending → low < b.queue.length
  reader : b.data.Pending → b.queue = []

variable {high low : ℤ} {b : StreamBuffer Chunk}

theorem Balanced.writeNowait (h : b.Balanced high low) (hHigh : low < high) (chunk : Chunk) :
    match b.writeNowait chunk with
    | .error _ => True
    | .ok (true, b') => b'.Balanced high low ∧ b'.queue = b.queue ++ [chunk]
    | .ok (false, b') => b'.Balanced high low ∧ b'.queue = b.queue ∧ low < b'.queue.length := by
  have hWatermark := h.highWatermark
  unfold StreamBuffer.writeNowait
  by_cases hClosed : b.closed
  · rw [if_pos hClosed]
    trivial
  rw [if_neg hClosed]
  by_cases hFull : b.highWatermark ≤ b.queue.length
  · rw [if_pos hFull]
    have hAbove : low < b.queue.length := by omega
    exact ⟨⟨hWatermark, h.lowWatermark, h.bounded, fun _ => hAbove, h.reader⟩, rfl, hAbove⟩
  · rw [if_neg hFull]
    have hLength : ((b.queue ++ [chunk]).length : ℤ) = b.queue.length + 1 := by simp
    have hBound : ((b.queue ++ [chunk]).length : ℤ) ≤ high := by omega
    have hWriters : b.space.Pending → low < ((b.queue ++ [chunk]).length : ℤ) := by
      intro hPending
      have := h.writers hPending
      omega
    have hReader : b.data.set.Pending → b.queue ++ [chunk] = [] :=
      fun hSet => absurd hSet Event.not_pending_set
    dsimp only
    split
    · exact ⟨⟨hWatermark, h.lowWatermark, hBound, hWriters, hReader⟩, rfl⟩
    · exact ⟨⟨hWatermark, h.lowWatermark, hBound, hWriters, hReader⟩, rfl⟩

theorem Balanced.write (h : b.Balanced high low) (hHigh : low < high) (chunk : Chunk) :
    match b.write chunk with
    | (.returned (), b') => b'.Balanced high low ∧ b'.queue = b.queue ++ [chunk]
    | (_, b') => b'.Balanced high low ∧ b'.queue = b.queue := by
  have hTry := h.writeNowait hHigh chunk
  unfold StreamBuffer.write
  revert hTry
  cases b.writeNowait chunk with
  | error e => exact fun _ => ⟨h, rfl⟩
  | ok answer =>
    obtain ⟨written, b'⟩ := answer
    cases written with
    | true => exact id
    | false =>
      rintro ⟨h', hQueue, hAbove⟩
      exact ⟨{ h' with writers := fun _ => hAbove }, hQueue⟩

theorem settle_queue : b.settle.queue = b.queue := by
  unfold settle
  split
  · rfl
  · rfl

theorem relieve_queue : b.relieve.queue = b.queue := by
  unfold relieve
  split
  · rfl
  · rfl

theorem Balanced.settle (h : b.Balanced high low) : b.settle.Balanced high low := by
  unfold StreamBuffer.settle
  split
  · exact ⟨h.highWatermark, h.lowWatermark, h.bounded, h.writers, h.reader⟩
  · exact h

theorem Balanced.relieve (hHigh : b.highWatermark = high) (hLow : b.lowWatermark = low)
    (hBounded : b.queue.length ≤ high) (hReader : b.data.Pending → b.queue = []) :
    b.relieve.Balanced high low := by
  unfold StreamBuffer.relieve
  split
  · exact ⟨hHigh, hLow, hBounded, fun hSet => absurd hSet Event.not_pending_set, hReader⟩
  · exact ⟨hHigh, hLow, hBounded, fun _ => by omega, hReader⟩

theorem Balanced.readNowait (h : b.Balanced high low) :
    b.readNowait.2.Balanced high low ∧
      b.queue = b.readNowait.1.toList ++ b.readNowait.2.queue ∧
      (b.readNowait.1 = none → b.queue = []) := by
  obtain ⟨hHigh, hLow, hBounded, hWriters, hReader⟩ := h
  unfold StreamBuffer.readNowait
  split
  · next hQueue =>
    split
    · exact ⟨⟨hHigh, hLow, hBounded, hWriters, hReader⟩, rfl, fun _ => hQueue⟩
    · exact ⟨⟨hHigh, hLow, hBounded, hWriters, hReader⟩, rfl, fun _ => hQueue⟩
  · next chunk queue hQueue =>
    have hLength : (b.queue.length : ℤ) = queue.length + 1 := by simp [hQueue]
    have hBound : (queue.length : ℤ) ≤ high := by omega
    have hIdle : b.data.Pending → queue = [] := by
      intro hPending
      exact absurd (hQueue.symm.trans (hReader hPending)) (List.cons_ne_nil _ _)
    have hRelieved : ({ b with queue }.relieve).Balanced high low :=
      .relieve hHigh hLow hBound hIdle
    refine ⟨hRelieved.settle, ?_, fun hNone => nomatch hNone⟩
    rw [hQueue, settle_queue, relieve_queue]
    rfl

theorem Balanced.read (h : b.Balanced high low) :
    match b.read with
    | (.returned (some chunk), b') => b'.Balanced high low ∧ b.queue = chunk :: b'.queue
    | (_, b') => b'.Balanced high low ∧ b.queue = b'.queue := by
  have hTry := h.readNowait
  unfold StreamBuffer.read
  revert hTry
  obtain ⟨answer, b'⟩ := b.readNowait
  rintro ⟨h', hQueue, hEmpty⟩
  cases answer with
  | some chunk => exact ⟨h', hQueue⟩
  | none =>
    by_cases hClosed : b'.closed
    · simp only [if_pos hClosed]
      exact ⟨h', hQueue⟩
    · simp only [if_neg hClosed]
      have hSame : b.queue = b'.queue := hQueue
      exact ⟨{ h' with reader := fun _ => hSame.symm.trans (hEmpty rfl) }, hSame⟩

theorem Balanced.close (h : b.Balanced high low) : b.close.Balanced high low where
  highWatermark := h.highWatermark
  lowWatermark := h.lowWatermark
  bounded := h.bounded
  writers hSet := absurd hSet Event.not_pending_set
  reader hSet := absurd hSet Event.not_pending_set

end StreamBuffer

-- ------ The invariant of the channel

namespace Channel

/-- What holds between two turns. -/
structure Inv (high low : ℤ) (c : Channel Chunk) : Prop where
  balanced : c.buffer.Balanced high low
  fifo : c.received ++ c.buffer.queue = c.written

variable {high low : ℤ} {c : Channel Chunk}

theorem Inv.boundedFifo (h : c.Inv high low) (hLow : 0 ≤ low) : c.BoundedFifo high where
  fifo := h.fifo
  bounded := h.balanced.bounded
  noMutualWaiting := by
    rintro ⟨hWriter, hReader⟩
    have hAbove := h.balanced.writers hWriter
    rw [h.balanced.reader hReader] at hAbove
    exact absurd hAbove (Int.not_lt.mpr hLow)

theorem Inv.leaveSpace (h : c.Inv high low) (i : ℕ) : (c.leaveSpace i).Inv high low where
  balanced := { h.balanced with writers := fun hPending => h.balanced.writers hPending.of_leave }
  fifo := h.fifo

theorem Inv.leaveData (h : c.Inv high low) : c.leaveData.Inv high low where
  balanced := { h.balanced with reader := fun hPending => h.balanced.reader hPending.of_leave }
  fifo := h.fifo

theorem Inv.append (h : c.Inv high low) {b : StreamBuffer Chunk} {chunk : Chunk}
    (hTurn : b.Balanced high low ∧ b.queue = c.buffer.queue ++ [chunk]) :
    Inv high low { c with buffer := b, written := c.written ++ [chunk] } := by
  refine ⟨hTurn.1, ?_⟩
  show c.received ++ b.queue = c.written ++ [chunk]
  rw [hTurn.2, ← List.append_assoc, h.fifo]

theorem Inv.popleft (h : c.Inv high low) {b : StreamBuffer Chunk} {chunk : Chunk}
    (hTurn : b.Balanced high low ∧ c.buffer.queue = chunk :: b.queue) :
    Inv high low { c with buffer := b, received := c.received ++ [chunk] } := by
  refine ⟨hTurn.1, ?_⟩
  show c.received ++ [chunk] ++ b.queue = c.written
  rw [← h.fifo, hTurn.2, List.append_assoc, List.singleton_append]

theorem Inv.idle (h : c.Inv high low) {b : StreamBuffer Chunk}
    (hTurn : b.Balanced high low ∧ c.buffer.queue = b.queue) :
    Inv high low { c with buffer := b } :=
  ⟨hTurn.1, hTurn.2 ▸ h.fifo⟩

theorem Inv.write (h : c.Inv high low) (hHigh : low < high) (chunk : Chunk) :
    (c.write chunk).Inv high low := by
  have hTurn := h.balanced.write hHigh chunk
  unfold Channel.write
  revert hTurn
  obtain ⟨turn, b⟩ := c.buffer.write chunk
  intro hTurn
  cases turn with
  | returned => exact h.append hTurn
  | raised => exact h.idle ⟨hTurn.1, hTurn.2.symm⟩
  | waits => exact h.idle ⟨hTurn.1, hTurn.2.symm⟩

theorem Inv.writeNowait (h : c.Inv high low) (hHigh : low < high) (chunk : Chunk) :
    (c.writeNowait chunk).Inv high low := by
  have hTurn := h.balanced.writeNowait hHigh chunk
  unfold Channel.writeNowait
  revert hTurn
  cases c.buffer.writeNowait chunk with
  | error e => exact fun _ => h
  | ok answer =>
    obtain ⟨accepted, b⟩ := answer
    intro hTurn
    cases accepted with
    | true => exact h.append hTurn
    | false => exact h.idle ⟨hTurn.1, hTurn.2.1.symm⟩

theorem Inv.read (h : c.Inv high low) : c.read.Inv high low := by
  have hTurn := h.balanced.read
  unfold Channel.read
  revert hTurn
  obtain ⟨turn, b⟩ := c.buffer.read
  intro hTurn
  cases turn with
  | returned chunk =>
    cases chunk with
    | none => exact h.idle hTurn
    | some chunk => exact h.popleft hTurn
  | raised => exact h.idle hTurn
  | waits => exact h.idle hTurn

theorem Inv.readNowait (h : c.Inv high low) : c.readNowait.Inv high low := by
  have hTurn := h.balanced.readNowait
  unfold Channel.readNowait
  revert hTurn
  obtain ⟨chunk, b⟩ := c.buffer.readNowait
  rintro ⟨hBalanced, hQueue, -⟩
  cases chunk with
  | none => exact h.idle ⟨hBalanced, hQueue⟩
  | some chunk => exact h.popleft ⟨hBalanced, hQueue⟩

/-- **A turn.** Whatever the scheduler picks, the channel stays in balance. -/
theorem Inv.step (h : c.Inv high low) (hHigh : low < high) (action : Action Chunk) :
    (c.step action).Inv high low := by
  cases action with
  | write chunk => exact h.write hHigh chunk
  | writeNowait chunk => exact h.writeNowait hHigh chunk
  | resumeWriter i =>
    show Inv high low (match c.buffer.space.woken? i with
      | some chunk => (c.leaveSpace i).write chunk
      | none => c)
    split
    · exact (h.leaveSpace i).write hHigh _
    · exact h
  | cancelWriter i => exact h.leaveSpace i
  | read =>
    show Inv high low (if c.Reading then c else c.read)
    split
    · exact h
    · exact h.read
  | readNowait =>
    show Inv high low (if c.Reading then c else c.readNowait)
    split
    · exact h
    · exact h.readNowait
  | resumeReader =>
    show Inv high low (match c.buffer.data.woken? 0 with
      | some () => c.leaveData.read
      | none => c)
    split
    · exact h.leaveData.read
    · exact h
  | cancelReader => exact h.leaveData
  | close => exact ⟨h.balanced.close, h.fifo⟩

theorem Inv.start {buffer : StreamBuffer Chunk} (hBound : 0 ≤ high)
    (hMake : StreamBuffer.make high low = .ok buffer) : Inv high low { buffer } := by
  unfold StreamBuffer.make at hMake
  split at hMake
  · cases hMake
  · obtain rfl := Except.ok.inj hMake
    exact ⟨⟨rfl, rfl, hBound, fun hSet => absurd hSet Event.not_pending_set, nofun⟩, rfl⟩

/-- **Bounded FIFO channel.** With watermarks `0 ≤ low < high`, whatever the writers and the reader
do and in whatever order the scheduler takes their turns, the chunks received are those written so
far without those in the queue, in that order, the queue is within the high watermark, and no writer
waits while the reader does. -/
theorem boundedFifo_along (hLow : 0 ≤ low) (hHigh : low < high) :
    ∃ buffer : StreamBuffer Chunk, StreamBuffer.make high low = .ok buffer ∧
      ∀ actions, Run.Along step (BoundedFifo high) { buffer } actions := by
  have hMake : (StreamBuffer.make high low : Except String (StreamBuffer Chunk)) = .ok _ :=
    if_neg (by omega)
  refine ⟨_, hMake, fun actions => Run.along_iff_take.mpr fun n => ?_⟩
  have hInv : Inv high low (Run.exec step _ (actions.take n)) :=
    Run.exec_of_invariant (fun _ action h => h.step hHigh action) (.start (by omega) hMake) _
  exact hInv.boundedFifo hLow

/-- Two writers and the reader, with room for one chunk. -/
theorem boundedFifo_along_narrow :
    ∃ buffer : StreamBuffer ℕ, StreamBuffer.make 1 0 = .ok buffer ∧
      Run.Along step (BoundedFifo 1) { buffer }
        [.write 7, .write 8, .write 9, .read, .resumeWriter 1, .resumeWriter 0, .read] := by
  obtain ⟨buffer, hMake, hAlong⟩ := @boundedFifo_along ℕ 1 0 (by decide) (by decide)
  exact ⟨buffer, hMake, hAlong _⟩

/-- Writes complete in the order in which the woken writers are picked. -/
example : (Run.exec step
    ({ buffer := { highWatermark := 1, lowWatermark := 0, space := ⟨true, []⟩ } } : Channel ℕ)
    [.write 7, .write 8, .write 9, .read, .resumeWriter 1, .resumeWriter 0, .read]).received =
      [7, 9] := by decide

end Channel

end Neuroswarm.Dipa
