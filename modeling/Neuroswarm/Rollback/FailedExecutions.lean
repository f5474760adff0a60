import Neuroswarm.Lib.Run
import Neuroswarm.Rollback.Executor

/-!
# Executions that raise

`execute` has no handler: what it has written when a port or the executor raises stays,
and FAILED is never written.

* `execute_leaves` — where a call of `execute` leaves its operation, however it ends.
* `Recorded` — a failure in the history is a cancellation, after every run of calls.
* `not_recordedAsFailed` — no call that raises is recorded as failed.
-/

namespace Neuroswarm.Rollback

open EStateM

variable {ports : Ports} {s s' s₀ : ManagerState} {id : RollbackId} {t : RollbackStatus}

-- ------ Ports change nothing

/-- Repository and history are those of an earlier state. -/
def Untouched (s₀ s : ManagerState) : Prop :=
  s.repository = s₀.repository ∧ s.history = s₀.history

section PortPrograms

variable {α : Type}

theorem keeps_ask (answer : Answer α) : Keeps (Untouched s₀) (ask answer) := by
  intro s hs
  unfold after EStateM.run ask
  split
  · exact hs
  · exact hs

theorem keeps_emit (event : EventType) (rollbackId : RollbackId) :
    Keeps (Untouched s₀) (ports.emit event rollbackId) :=
  keeps_ask _

theorem keeps_askAbout (reference : Option String) (query : Option (String → Answer α))
    (skipped : α) : Keeps (Untouched s₀) (askAbout reference query skipped) := by
  unfold askAbout
  split
  · split
    · exact keeps_ask _
    · exact keeps_pure _
  · exact keeps_pure _

theorem keeps_askIfWired (answer : Option (Answer α)) (skipped : α) :
    Keeps (Untouched s₀) (askIfWired answer skipped) := by
  unfold askIfWired
  split
  · exact keeps_ask _
  · exact keeps_pure _

theorem keeps_consistencyCheck (data : ValidationTarget) :
    Keeps (Untouched s₀) (ports.consistencyCheck data) := by
  unfold Ports.consistencyCheck
  exact keeps_bind (keeps_askAbout _ _ _) fun _ => keeps_bind (keeps_askAbout _ _ _) fun _ =>
    keeps_bind (keeps_askIfWired _ _) fun _ => keeps_bind (keeps_askAbout _ _ _) fun _ =>
      keeps_pure _

theorem keeps_prepare (plan : RollbackPlan) : Keeps (Untouched s₀) (ports.prepare plan) :=
  keeps_bind (keeps_emit _ _) fun _ => keeps_pure _

theorem keeps_materialize (plan : RollbackPlan) :
    Keeps (Untouched s₀) (ports.materialize plan) := by
  have hCheckpoint : Keeps (Untouched s₀) (ports.materializeCheckpoint plan) := by
    unfold Ports.materializeCheckpoint
    split
    · split
      · refine keeps_bind (keeps_ask _) fun found => ?_
        split
        · exact keeps_bind (keeps_ask _) fun _ => keeps_pure _
        · exact keeps_throw _
      · exact keeps_pure _
    · exact keeps_pure _
  have hContext : Keeps (Untouched s₀) (ports.materializeContext plan) := by
    unfold Ports.materializeContext
    split
    · exact keeps_pure _
    · split
      · exact keeps_pure _
      · split
        · exact keeps_pure _
        · exact keeps_bind (keeps_ask _) fun _ => keeps_pure _
  have hBudget : Keeps (Untouched s₀) (ports.materializeBudget plan) := by
    unfold Ports.materializeBudget
    split
    · exact keeps_pure _
    · split
      · exact keeps_pure _
      · split
        · exact keeps_pure _
        · exact keeps_bind (keeps_ask _) fun _ => keeps_bind (keeps_ask _) fun _ =>
            keeps_bind (keeps_ask _) fun _ => keeps_pure _
  exact keeps_bind hCheckpoint fun _ => keeps_bind hContext fun _ => keeps_bind hBudget fun _ =>
    keeps_pure _

theorem keeps_applyPlan (plan : RollbackPlan) (recovery : RecoveryExecutionMetadata)
    (started : Timestamp) : Keeps (Untouched s₀) (ports.applyPlan plan recovery started) := by
  unfold Ports.applyPlan
  exact keeps_bind (keeps_materialize plan) fun _ => keeps_bind (keeps_ask _) fun _ =>
    keeps_bind (keeps_askIfWired _ _) fun _ => keeps_bind (keeps_emit _ _) fun _ =>
      keeps_bind (keeps_emit _ _) fun _ => keeps_pure _

theorem keeps_port {m : PortProgram α} (h : Keeps (Untouched s₀) m) :
    Keeps (Untouched s₀) (port m) :=
  keeps_adaptExcept h _

theorem keeps_executorExecute (plan : RollbackPlan) (recovery : RecoveryExecutionMetadata) :
    Keeps (Untouched s₀) (ports.executorExecute plan recovery) := by
  unfold Ports.executorExecute
  refine keeps_bind (keeps_port (keeps_ask _)) fun started =>
    keeps_bind (keeps_port (keeps_emit _ _)) fun _ => ?_
  intro s hs
  have hApplied : Untouched s₀ ((ports.applyPlan plan recovery started).after s) :=
    keeps_applyPlan plan recovery started s hs
  unfold after EStateM.run at hApplied ⊢
  dsimp only
  cases hRun : ports.applyPlan plan recovery started s with
  | ok result s' =>
    rw [hRun] at hApplied
    exact hApplied
  | error message s' =>
    rw [hRun] at hApplied
    have hEmit : Keeps (Untouched s₀) (ports.emit (.rollbackFailed message) plan.rollbackId) :=
      keeps_emit _ _
    have hEmitted := keeps_port hEmit s' hApplied
    unfold after EStateM.run at hEmitted
    dsimp only
    cases hEmit : port (ports.emit (.rollbackFailed message) plan.rollbackId) s' with
    | ok _ s'' =>
      rw [hEmit] at hEmitted
      exact hEmitted
    | error e s'' =>
      rw [hEmit] at hEmitted
      exact hEmitted

theorem keeps_validate (data : ValidationTarget) : Keeps (Untouched s₀) (ports.validate data) := by
  unfold Ports.validate Ports.validateRequiredFields Ports.validateRefs
  refine keeps_bind ?_ fun _ => keeps_bind ?_ fun _ =>
    keeps_bind (keeps_port (keeps_consistencyCheck data)) fun _ => ?_
  · split
    · exact keeps_throw _
    · split
      · exact keeps_throw _
      · exact keeps_pure _
  · split
    · exact keeps_throw _
    · refine keeps_bind (keeps_port (keeps_askAbout _ _ _)) fun _ => ?_
      split
      · refine keeps_bind (keeps_port (keeps_askAbout _ _ _)) fun _ => ?_
        split
        · exact keeps_pure _
        · exact keeps_throw _
      · exact keeps_throw _
  · split
    · exact keeps_throw _
    · show Keeps _ (if (if data.rollbackId ≠ "" then data.rollbackId else data.planId) ≠ "" then
        port (ports.emit .rollbackValidated _) else pure ())
      by_cases hId : (if data.rollbackId ≠ "" then data.rollbackId else data.planId) ≠ ""
      · rw [if_pos hId]
        exact keeps_port (keeps_emit _ _)
      · rw [if_neg hId]
        exact keeps_pure _

end PortPrograms

-- ------ What an execution leaves

/-- One operation stands at a status; nothing else has changed. -/
structure Stands (s₀ : ManagerState) (id : RollbackId) (t : RollbackStatus) (s : ManagerState) :
    Prop where
  sound : s.repository.Sound
  writes : s₀.repository.Writes id t s.repository
  history : s.history = s₀.history

/-- The operation is not entered, or it is and stands at a status that is neither FAILED nor
CANCELLED. -/
inductive Left (s₀ : ManagerState) (id : RollbackId) (s : ManagerState) : Prop where
  | untouched (h : Untouched s₀ s)
  | entered (t : RollbackStatus) (hStatus : t ∈ [.validated, .prepared, .completed])
      (new : s₀.repository.statusOf id = none)
      (writes : s₀.repository.Writes id t s.repository)
      (history : s.history = s₀.history ∨
        ∃ entry : HistoryEntry, entry.success = true ∧ s.history = s₀.history ++ [entry])

theorem Stands.rewritten {r : InMemoryRepository} {t' : RollbackStatus}
    (h : Stands s₀ id t s) (hWrites : s.repository.Writes id t' r) :
    Stands s₀ id t' { s with repository := r } where
  sound := hWrites.sound h.sound
  writes :=
    { sound := fun hSound => hWrites.sound (h.writes.sound hSound)
      statusOf := fun id' => by
        rw [hWrites.statusOf, h.writes.statusOf]
        split
        · rfl
        · rfl }
  history := h.history

theorem stands_self (hSound : s.repository.Sound) (h : s.repository.statusOf id = some t) :
    Stands s id t s where
  sound := hSound
  writes :=
    { sound := fun hSound => hSound
      statusOf := fun id' => by
        split
        · next hEq => rw [hEq, h]
        · rfl }
  history := rfl

theorem Stands.ends_program {α : Type} {m : Program α} (h : Stands s₀ id t s)
    (hm : Keeps (Untouched s) m) : Ends m s (fun _ => Stands s₀ id t) fun _ => Stands s₀ id t := by
  refine (hm.ends ⟨rfl, rfl⟩).mono (fun _ s' hs' => ?_) fun _ s' hs' => ?_
  all_goals
    obtain ⟨hRepository, hHistory⟩ := hs'
    exact ⟨hRepository ▸ h.sound, hRepository ▸ h.writes, hHistory.trans h.history⟩

theorem ends_onRepository {α : Type} {Q : α → ManagerState → Prop}
    {E : Raised → ManagerState → Prop}
    {call : InMemoryRepository → Except RollbackError (α × InMemoryRepository)}
    (hOk : ∀ a r, call s.repository = .ok (a, r) → Q a { s with repository := r })
    (hError : ∀ e, call s.repository = .error e → E (.manager e) s) :
    Ends (onRepository call) s Q E := by
  unfold Ends EStateM.run onRepository
  cases hCall : call s.repository with
  | ok result => exact hOk result.1 result.2 hCall
  | error e => exact hError e hCall

theorem ends_append (hSound : s₀.repository.Sound) (h : Untouched s₀ s) (op : RollbackOperation)
    (now : Timestamp) :
    Ends (repositoryAppend op now) s
      (fun _ s' => s₀.repository.statusOf op.rollbackId = none ∧
        Stands s₀ op.rollbackId op.status s')
      fun _ => Untouched s₀ := by
  obtain ⟨hRepository, hHistory⟩ := h
  refine ends_onRepository (fun _ r hAppend => ?_) fun _ _ => ⟨hRepository, hHistory⟩
  cases hRun : s.repository.append op now with
  | error e =>
    rw [hRun] at hAppend
    cases hAppend
  | ok r' =>
    rw [hRun] at hAppend
    cases hAppend
    rw [hRepository] at hRun
    obtain ⟨hNew, hWrites⟩ := InMemoryRepository.append_ok hRun
    exact ⟨hNew, hWrites.sound hSound, hWrites, hHistory⟩

theorem Stands.ends_updateStatus (h : Stands s₀ id t s) (t' : RollbackStatus) :
    Ends (repositoryUpdateStatus id t') s
      (fun updated s' => updated.rollbackId = id ∧ Stands s₀ id t' s') fun _ _ => False := by
  obtain ⟨updated, r, hUpdate, hId, hWrites⟩ :=
    InMemoryRepository.updateStatus_writes (t := t') h.sound (Option.isSome_of_mem h.writes.self)
  refine ends_onRepository (fun _ r' hRun => ?_) fun _ hRun => nomatch hUpdate.symm.trans hRun
  cases hUpdate.symm.trans hRun
  exact ⟨hId, h.rewritten hWrites⟩

theorem Stands.ends_stamp (h : Stands s₀ id t s) (t' : RollbackStatus) (durationMs : Option Int) :
    Ends (ports.stamp id t' durationMs) s (fun _ => Stands s₀ id t')
      fun _ => Stands s₀ id t := by
  unfold Ports.stamp
  obtain ⟨metadata, hGet, hId, -⟩ :=
    InMemoryRepository.getMetadata_of_status h.sound h.writes.self
  have hRead : Ends (repositoryGetMetadata id) s
      (fun read s' => read = metadata ∧ s' = s) fun _ => Stands s₀ id t := by
    refine ends_onRepository (fun read r hRun => ?_) fun _ _ => h
    rw [hGet] at hRun
    cases hRun
    exact ⟨rfl, rfl⟩
  refine ends_bind hRead fun read s' hRead' => ?_
  obtain ⟨rfl, rfl⟩ := hRead'
  refine ends_bind (h.ends_program (keeps_port (keeps_ask _))) fun now s' hs' => ?_
  split
  · exact ends_throw hs'
  · next stamped hStamp =>
    have hStamped : stamped = read.stamped t' now durationMs := by
      unfold stampMetadata at hStamp
      split at hStamp
      · cases hStamp
      · exact (Except.ok.inj hStamp).symm
    have hStands : (s'.repository.statusOf stamped.rollbackId).isSome := by
      rw [hStamped]
      exact Option.isSome_of_mem (hId ▸ hs'.writes.self)
    obtain ⟨r, hSet, hWrites⟩ := InMemoryRepository.setMetadata_writes hStands
    have hWrites' : s'.repository.Writes id t' r := by
      rw [hStamped] at hWrites
      exact hId ▸ hWrites
    refine ends_onRepository (fun _ r' hRun => ?_) fun _ _ => hs'
    rw [hSet] at hRun
    cases hRun
    exact hs'.rewritten hWrites'

/-- **Where an execution leaves its operation**, whether it returns or raises. -/
theorem execute_leaves (hSound : s₀.repository.Sound) (newId : RollbackId) (plan : RollbackPlan) :
    Ends (ports.execute newId plan) s₀ (fun _ => Left s₀ (plan.operationId newId))
      fun _ => Left s₀ (plan.operationId newId) := by
  have hNone : ∀ _e : Raised, ∀ s, Untouched s₀ s → Left s₀ (plan.operationId newId) s :=
    fun _ _ => .untouched
  unfold Ports.execute
  refine ends_bind (((keeps_validate _).ends ⟨rfl, rfl⟩).raising hNone) fun _ s₁ h₁ => ?_
  refine ends_bind (((keeps_port (keeps_ask _)).ends h₁).raising hNone) fun now s₂ h₂ => ?_
  refine ends_bind ((ends_append hSound h₂ _ now).raising hNone) fun _ s₃ h₃ => ?_
  obtain ⟨hNew, h₃⟩ := h₃
  -- from here on the operation is entered, and a raise leaves it where it stands
  have hLeft : ∀ t ∈ [RollbackStatus.validated, .prepared, .completed], ∀ _e : Raised, ∀ s,
      Stands s₀ (plan.operationId newId) t s → Left s₀ (plan.operationId newId) s :=
    fun t ht _ s h => .entered t ht hNew h.writes (.inl h.history)
  have hValidated := hLeft .validated (by decide)
  have hPrepared := hLeft .prepared (by decide)
  have hCompleted := hLeft .completed (by decide)
  refine ends_bind ((h₃.ends_stamp .validated none).raising hValidated) fun _ s₄ h₄ => ?_
  refine ends_bind ((h₄.ends_program (keeps_port (keeps_prepare plan))).raising hValidated)
    fun recovery s₅ h₅ => ?_
  refine ends_bind ((h₅.ends_stamp .prepared none).raising hValidated) fun _ s₆ h₆ => ?_
  refine ends_bind ((h₆.ends_updateStatus .prepared).raising fun _ _ h => h.elim) fun _ s₇ h₇ => ?_
  refine ends_bind ((h₇.2.ends_program (keeps_executorExecute plan recovery)).raising hPrepared)
    fun result s₈ h₈ => ?_
  refine ends_bind ((h₈.ends_updateStatus .completed).raising fun _ _ h => h.elim) fun _ s₉ h₉ => ?_
  refine ends_bind ((h₉.2.ends_stamp .completed (some result.durationMs)).raising hCompleted)
    fun _ s₁₀ h₁₀ => ?_
  -- the success is in the history before the experience port is asked
  have hRecorded : ∀ s, Untouched { s₁₀ with history := s₁₀.history ++ [completedEntry plan] } s →
      Left s₀ (plan.operationId newId) s := by
    rintro s ⟨hRepository, hHistory⟩
    refine .entered .completed (by decide) hNew (hRepository ▸ h₁₀.writes)
      (.inr ⟨completedEntry plan, rfl, ?_⟩)
    rw [hHistory, h₁₀.history]
  have hRecord : Ends (record (completedEntry plan)) s₁₀
      (fun _ => Untouched { s₁₀ with history := s₁₀.history ++ [completedEntry plan] })
      fun _ => Left s₀ (plan.operationId newId) := ⟨rfl, rfl⟩
  refine ends_bind hRecord fun _ s₁₁ h₁₁ => ?_
  refine ends_bind (((keeps_port (keeps_askIfWired _ _)).ends h₁₁).raising fun _ s h => hRecorded s h)
    fun _ s₁₂ h₁₂ => ?_
  exact ends_pure (hRecorded s₁₂ h₁₂)

/-- What a cancellation leaves. -/
inductive Cancelled (s₀ : ManagerState) (id : RollbackId) (s : ManagerState) : Prop where
  | untouched (h : Untouched s₀ s)
  | cancelled (writes : s₀.repository.Writes id .cancelled s.repository)
      (history : s.history = s₀.history ∨
        ∃ entry : HistoryEntry, entry.rollbackId = id ∧ s.history = s₀.history ++ [entry])

theorem cancel_leaves (hSound : s₀.repository.Sound) :
    Ends (ports.cancel id) s₀ (fun _ => Cancelled s₀ id) fun _ => Cancelled s₀ id := by
  unfold Ports.cancel
  have hGet : Ends (repositoryGet id) s₀
      (fun op s => s = s₀ ∧ s₀.repository.statusOf id = some op.status)
      fun _ => Cancelled s₀ id := by
    refine ends_onRepository (fun op r hRun => ?_) fun _ _ => .untouched ⟨rfl, rfl⟩
    cases hFound : s₀.repository.get id with
    | error e =>
      rw [hFound] at hRun
      cases hRun
    | ok op' =>
      rw [hFound] at hRun
      cases hRun
      exact ⟨rfl, InMemoryRepository.statusOf_of_get hFound⟩
  refine ends_bind hGet fun op s h => ?_
  obtain ⟨rfl, hStatus⟩ := h
  split
  · have hStands : ∀ _e : Raised, ∀ s', Stands s id .cancelled s' → Cancelled s id s' :=
      fun _ _ h => .cancelled h.writes (.inl h.history)
    have hUpdated := (stands_self hSound hStatus).ends_updateStatus .cancelled
    refine ends_bind (hUpdated.raising fun _ _ h => h.elim) fun updated s₁ h₁ => ?_
    refine ends_bind ((h₁.2.ends_stamp .cancelled none).raising hStands) fun _ s₂ h₂ => ?_
    refine ends_bind ((h₂.ends_program (keeps_port (keeps_emit _ _))).raising hStands)
      fun _ s₃ h₃ => ?_
    have hRecorded : Cancelled s id { s₃ with history := s₃.history ++ [cancelledEntry updated] } :=
      .cancelled h₃.writes (.inr ⟨cancelledEntry updated, h₁.1, by rw [h₃.history]⟩)
    have hRecord : Ends (record (cancelledEntry updated)) s₃ (fun _ => Cancelled s id)
        fun _ => Cancelled s id := hRecorded
    exact ends_bind hRecord fun _ _ h => ends_pure h
  · exact ends_throw (.untouched ⟨rfl, rfl⟩)

theorem register_leaves (hSound : s₀.repository.Sound) (op : RollbackOperation) :
    Ends (ports.register op) s₀
      (fun _ s => s₀.repository.statusOf op.rollbackId = none ∧
        Stands s₀ op.rollbackId op.status s)
      fun _ => Untouched s₀ := by
  unfold Ports.register
  refine ends_bind ((keeps_validate _).ends ⟨rfl, rfl⟩) fun _ s₁ h₁ => ?_
  refine ends_bind ((keeps_port (keeps_ask _)).ends h₁) fun now s₂ h₂ => ?_
  exact ends_bind (ends_append hSound h₂ op now) fun _ _ h => ends_pure h

-- ------ Runs

/-- A failure in the history is a cancellation, and its operation still stands as cancelled. -/
structure ManagerState.Recorded (s : ManagerState) : Prop where
  sound : s.repository.Sound
  cancelled : ∀ entry ∈ s.history, entry.success = false →
    s.repository.statusOf entry.rollbackId = some .cancelled

theorem Untouched.recorded (h : Untouched s₀ s) (hs : s₀.Recorded) : s.Recorded where
  sound := h.1 ▸ hs.sound
  cancelled := by
    rw [h.1, h.2]
    exact hs.cancelled

theorem Recorded.of_new (hs : s₀.Recorded) (hNew : s₀.repository.statusOf id = none)
    (hWrites : s₀.repository.Writes id t s.repository) {entry : HistoryEntry}
    (hEntry : entry ∈ s₀.history) (hFailure : entry.success = false) :
    s.repository.statusOf entry.rollbackId = some .cancelled := by
  have hCancelled := hs.cancelled entry hEntry hFailure
  have hNe : entry.rollbackId ≠ id := by
    intro hEq
    rw [hEq, hNew] at hCancelled
    cases hCancelled
  rw [hWrites.of_ne hNe]
  exact hCancelled

theorem Left.recorded (h : Left s₀ id s) (hs : s₀.Recorded) : s.Recorded := by
  cases h with
  | untouched h => exact h.recorded hs
  | entered t hStatus hNew hWrites hHistory =>
    refine ⟨hWrites.sound hs.sound, fun entry hEntry hFailure => ?_⟩
    rcases hHistory with hSame | ⟨success, hSuccess, hAdded⟩
    · rw [hSame] at hEntry
      exact Recorded.of_new hs hNew hWrites hEntry hFailure
    · rw [hAdded, List.mem_append, List.mem_singleton] at hEntry
      rcases hEntry with hOld | rfl
      · exact Recorded.of_new hs hNew hWrites hOld hFailure
      · rw [hSuccess] at hFailure
        cases hFailure

theorem Cancelled.recorded (h : Cancelled s₀ id s) (hs : s₀.Recorded) : s.Recorded := by
  cases h with
  | untouched h => exact h.recorded hs
  | cancelled hWrites hHistory =>
    refine ⟨hWrites.sound hs.sound, fun entry hEntry hFailure => ?_⟩
    have hOld : entry ∈ s₀.history → s.repository.statusOf entry.rollbackId = some .cancelled := by
      intro hMem
      rw [hWrites.statusOf]
      split
      · rfl
      · exact hs.cancelled entry hMem hFailure
    rcases hHistory with hSame | ⟨added, hId, hAdded⟩
    · exact hOld (hSame ▸ hEntry)
    · rw [hAdded, List.mem_append, List.mem_singleton] at hEntry
      rcases hEntry with hMem | rfl
      · exact hOld hMem
      · rw [hId, hWrites.self]

theorem recorded_step (s : ManagerState) (call : ManagerCall) (hs : s.Recorded) :
    (call.step s).Recorded := by
  cases call with
  | execute ports newId plan =>
    exact (execute_leaves hs.sound newId plan).after.recorded hs
  | cancel ports rollbackId => exact (cancel_leaves hs.sound).after.recorded hs
  | register ports op =>
    have hLeaves := @register_leaves ports _ hs.sound op
    have hRecorded : Ends (ports.register op) s (fun _ => ManagerState.Recorded)
        fun _ => ManagerState.Recorded := by
      refine hLeaves.mono (fun _ s' h => ?_) fun _ s' h => h.recorded hs
      refine ⟨h.2.sound, fun entry hEntry hFailure => ?_⟩
      rw [h.2.history] at hEntry
      exact Recorded.of_new hs h.1 h.2.writes hEntry hFailure
    exact hRecorded.after

/-- The operation is absent or FAILED, the history has its failure, and the plan can be executed
again. -/
def RecordedAsFailed (s : ManagerState) (plan : RollbackPlan) (id : RollbackId) : Prop :=
  (s.repository.statusOf id = none ∨ s.repository.statusOf id = some .failed) ∧
  (∃ entry ∈ s.history, entry.rollbackId = id ∧ entry.success = false) ∧
  ∀ (ports : Ports) (newId : RollbackId) (rejected : RollbackId) (s' : ManagerState),
    s.repository.statusOf newId = none →
    (ports.execute newId plan).run s ≠ .error (.manager (.duplicateRollback rejected)) s'

/-- **No execution that raises is recorded as failed**, in whatever state earlier calls have left
the manager. -/
theorem not_recordedAsFailed {r : InMemoryRepository} (hSound : r.Sound) (calls : List ManagerCall)
    {ports : Ports} {newId : RollbackId} {plan : RollbackPlan} {e : Raised} {s : ManagerState}
    (hRaise : (ports.execute newId plan).run (Run.exec ManagerCall.step { repository := r } calls) =
      .error e s) :
    ¬ RecordedAsFailed s plan (plan.operationId newId) := by
  have hRecorded : (Run.exec ManagerCall.step { repository := r } calls).Recorded :=
    Run.exec_of_invariant recorded_step ⟨hSound, by simp⟩ calls
  have hLeft := (execute_leaves hRecorded.sound newId plan).error hRaise
  rintro ⟨hStatus, ⟨entry, hEntry, hId, hFailure⟩, -⟩
  -- a failure in the history is a cancellation, and a cancelled operation stays
  have hCancelled := (hLeft.recorded hRecorded).cancelled entry hEntry hFailure
  rw [hId] at hCancelled
  rcases hStatus with hNone | hFailed
  · exact nomatch hCancelled.symm.trans hNone
  · exact nomatch hCancelled.symm.trans hFailed

/-- The sample of the performance monitor cannot be taken. -/
def brokenSample : Ports where
  recordRollbackSample := some fun _ _ _ _ => .error "no sample"

def samplePlan : RollbackPlan :=
  { planId := "p", rollbackId := "rb", workflowId := "w", executionId := "e", createdAt := 0 }

/-- The executor raises over a plan that is valid: the operation stays PREPARED, nothing is in
the history, and the plan is rejected as a duplicate from then on. -/
theorem not_recordedAsFailed_brokenSample :
    ∃ s, (brokenSample.execute "" samplePlan).run {} = .error (.executor "no sample") s ∧
      s.repository.statusOf "rb" = some .prepared ∧ s.history = [] ∧
      (∃ s', (({} : Ports).execute "" samplePlan).run s =
        .error (.manager (.duplicateRollback "rb")) s') ∧
      ¬ RecordedAsFailed s samplePlan "rb" := by
  refine ⟨_, rfl, rfl, rfl, ⟨_, rfl⟩, ?_⟩
  rintro ⟨hStatus, -⟩
  exact absurd hStatus (by decide)

/-- The general statement at that execution. -/
theorem not_recordedAsFailed_first :
    ¬ RecordedAsFailed ((brokenSample.execute "" samplePlan).after {}) samplePlan
      (samplePlan.operationId "") := by
  have hRaise : (brokenSample.execute "" samplePlan).run
      (Run.exec ManagerCall.step { repository := {} } []) =
      .error (.executor "no sample") ((brokenSample.execute "" samplePlan).after {}) := rfl
  exact not_recordedAsFailed InMemoryRepository.sound_empty [] hRaise

end Neuroswarm.Rollback
