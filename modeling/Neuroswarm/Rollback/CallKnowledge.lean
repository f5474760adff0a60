import Neuroswarm.Rollback.Statuses

/-!
# Rollback manager — what a caller knows

The lifecycle is checked against metadata that was read a step earlier, and by `cancel`
before it writes. What a caller knows about the status of its rollback at every point
(`Call.Knows`) is kept by the steps of all callers, as long as nobody writes over a
cancellation or a completion.

* `Call.Knows.of_moves` — the steps of the others do not surprise a caller.
* `Call.advance_keeps` — an orderly step keeps what its caller knows.
* `Outcome.Keeps.final` — it leaves final statuses alone.
-/

namespace Neuroswarm.Rollback

-- ------ What a caller knows

def ExecutePoint.Knows (id : RollbackId) (s : Option RollbackStatus) : ExecutePoint → Prop
  | .append => True
  | .readValidated => s = some .validated ∨ s = some .cancelled
  | .writeValidated metadata => metadata.rollbackId = id ∧
      (s = some .validated ∧ metadata.status = .validated ∨
        s = some .cancelled ∧ (metadata.status = .validated ∨ metadata.status = .cancelled))
  | .prepare => s = some .validated ∨ s = some .cancelled
  | .readPrepared => s = some .validated ∨ s = some .cancelled
  | .writePrepared metadata => metadata.rollbackId = id ∧
      (s = some .validated ∧ metadata.status = .validated ∨
        s = some .cancelled ∧ (metadata.status = .validated ∨ metadata.status = .cancelled))
  | .updatePrepared => s = some .prepared ∨ s = some .cancelled
  | .apply => s = some .prepared ∨ s = some .cancelled
  | .updateCompleted _ => s = some .prepared ∨ s = some .cancelled
  | .readCompleted _ => s = some .completed
  | .writeCompleted _ metadata =>
    metadata.rollbackId = id ∧ metadata.status = .completed ∧ s = some .completed
  | .record => s = some .completed

def CancelPoint.Knows (id : RollbackId) (s : Option RollbackStatus) : CancelPoint → Prop
  | .check => True
  | .update => ∃ t, s = some t ∧ t ≠ .failed
  | .read updated => updated.rollbackId = id ∧ s = some .cancelled
  | .write updated metadata => updated.rollbackId = id ∧
    metadata.rollbackId = id ∧ metadata.status = .cancelled ∧ s = some .cancelled
  | .record updated => updated.rollbackId = id ∧ s = some .cancelled

def ExecutePoint.Orderly (plan : RollbackPlan) (s : Option RollbackStatus)
    (recorded : List RollbackId) : ExecutePoint → Prop
  | .writeValidated metadata => canTransition metadata.status .validated → s ≠ some .cancelled
  | .writePrepared metadata => canTransition metadata.status .prepared → s ≠ some .cancelled
  | .updatePrepared => s ≠ some .cancelled
  | .updateCompleted _ => s ≠ some .cancelled
  | .record => plan.rollbackId = "" → "" ∉ recorded
  | _ => True

def CancelPoint.Orderly (s : Option RollbackStatus) (recorded : List RollbackId) :
    CancelPoint → Prop
  | .update => s ≠ some .completed
  | .record updated => updated.rollbackId ∉ recorded
  | _ => True

def RollbackPlan.Names (plan : RollbackPlan) (id : RollbackId) : Prop :=
  plan.rollbackId ≠ "" → plan.rollbackId = id

namespace Call

@[simp] def Knows (r : InMemoryRepository) : Call → Prop
  | .execute plan id point => plan.Names id ∧ point.Knows id (r.statusOf id)
  | .cancel id point => point.Knows id (r.statusOf id)
  | _ => True

def Orderly (r : InMemoryRepository) (recorded : List RollbackId) : Call → Prop
  | .execute plan id point => point.Orderly plan (r.statusOf id) recorded
  | .cancel id point => point.Orderly (r.statusOf id) recorded
  | _ => True

def executing : Call → Option RollbackId
  | .execute _ _ .append => none
  | .execute _ id _ => some id
  | _ => none

theorem eq_of_executing {plan : RollbackPlan} {id id' : RollbackId} {point : ExecutePoint}
    (h : (Call.execute plan id point).executing = some id') : id = id' := by
  cases point with
  | append => cases h
  | _ => exact Option.some.inj h

def cancelling : Call → Option RollbackId
  | .cancel id _ => some id
  | _ => none

end Call

def ByCancel (s s' : Option RollbackStatus) : Prop :=
  s' = some .cancelled ∧ ∃ old, s = some old ∧ canTransition old .cancelled

def ByExecute (s s' : Option RollbackStatus) : Prop :=
  ∃ old new, s = some old ∧ s' = some new ∧ canTransition old new ∧ old ≠ .cancelled ∧ new ≠ .failed

/-- What a step of a call may do to the statuses. -/
def Call.Moves (call : Call) (r r' : InMemoryRepository) : Prop :=
  ∀ id, r'.statusOf id = r.statusOf id ∨ r.statusOf id = none ∨
    call.executing = some id ∧ ByExecute (r.statusOf id) (r'.statusOf id) ∨
    call.cancelling = some id ∧ ByCancel (r.statusOf id) (r'.statusOf id)

section Stability

variable {r r' : InMemoryRepository} {call other : Call}

variable {s s' : Option RollbackStatus}

theorem ExecutePoint.Knows.of_byCancel {id : RollbackId} {point : ExecutePoint}
    (h : point.Knows id s) (hMove : ByCancel s s') : point.Knows id s' := by
  obtain ⟨rfl, old, rfl, hCan⟩ := hMove
  cases point with
  | append => trivial
  | readValidated | prepare | readPrepared | updatePrepared | apply | updateCompleted =>
    exact .inr rfl
  | writeValidated metadata | writePrepared metadata =>
    obtain ⟨hId, ⟨-, hStatus⟩ | ⟨-, hStatus⟩⟩ := h
    · exact ⟨hId, .inr ⟨rfl, .inl hStatus⟩⟩
    · exact ⟨hId, .inr ⟨rfl, hStatus⟩⟩
  | readCompleted durationMs =>
    -- a completion is never cancelled
    cases h
    exact absurd hCan (by decide)
  | writeCompleted durationMs metadata =>
    obtain ⟨-, -, hStatus⟩ := h
    cases hStatus
    exact absurd hCan (by decide)
  | record =>
    cases h
    exact absurd hCan (by decide)

theorem CancelPoint.Knows.of_byCancel {id : RollbackId} {point : CancelPoint} (h : point.Knows id s)
    (hMove : ByCancel s s') : point.Knows id s' := by
  obtain ⟨rfl, -⟩ := hMove
  cases point with
  | check => trivial
  | update => exact ⟨.cancelled, rfl, by decide⟩
  | read updated => exact ⟨h.1, rfl⟩
  | write updated metadata => exact ⟨h.1, h.2.1, h.2.2.1, rfl⟩
  | record updated => exact ⟨h.1, rfl⟩

theorem CancelPoint.Knows.of_byExecute {id : RollbackId} {point : CancelPoint}
    (h : point.Knows id s) (hMove : ByExecute s s') : point.Knows id s' := by
  obtain ⟨old, new, rfl, rfl, -, hOld, hNew⟩ := hMove
  cases point with
  | check => trivial
  | update => exact ⟨new, rfl, hNew⟩
  | read updated => exact absurd (Option.some.inj h.2) hOld
  | write updated metadata => exact absurd (Option.some.inj h.2.2.2) hOld
  | record updated => exact absurd (Option.some.inj h.2) hOld

theorem ExecutePoint.Knows.isSome {id : RollbackId} {point : ExecutePoint} (h : point.Knows id s)
    (hBegun : point ≠ .append) : s.isSome := by
  cases point with
  | append => exact absurd rfl hBegun
  | readValidated | prepare | readPrepared | updatePrepared | apply | updateCompleted =>
    obtain hStatus | hStatus := h
    · exact Option.isSome_of_mem hStatus
    · exact Option.isSome_of_mem hStatus
  | writeValidated metadata | writePrepared metadata =>
    obtain ⟨-, ⟨hStatus, -⟩ | ⟨hStatus, -⟩⟩ := h
    · exact Option.isSome_of_mem hStatus
    · exact Option.isSome_of_mem hStatus
  | readCompleted durationMs => exact Option.isSome_of_mem h
  | writeCompleted durationMs metadata => exact Option.isSome_of_mem h.2.2
  | record => exact Option.isSome_of_mem h

theorem Call.Knows.isSome {id : RollbackId} (h : call.Knows r)
    (hExecuting : call.executing = some id) : (r.statusOf id).isSome := by
  cases call with
  | execute plan id' point =>
    have hBegun : point ≠ .append := by
      rintro rfl
      cases hExecuting
    obtain rfl := Call.eq_of_executing hExecuting
    exact ExecutePoint.Knows.isSome h.2 hBegun
  | _ => cases hExecuting

theorem Call.Knows.of_moves (h : other.Knows r) (hMoves : call.Moves r r')
    (hApart : ∀ id, call.executing = some id → other.executing ≠ some id) : other.Knows r' := by
  cases other with
  | execute plan id point =>
    refine ⟨h.1, ?_⟩
    obtain hSame | hNone | ⟨hExecuting, -⟩ | ⟨-, hCancel⟩ := hMoves id
    · rw [hSame]
      exact h.2
    · -- without a status nothing is known but at the start
      by_cases hBegun : point = .append
      · rw [hBegun]
        trivial
      · have hSome : (r.statusOf id).isSome := ExecutePoint.Knows.isSome h.2 hBegun
        rw [hNone] at hSome
        cases hSome
    · have hStart := hApart id hExecuting
      cases point with
      | append => trivial
      | _ => exact absurd rfl hStart
    · exact ExecutePoint.Knows.of_byCancel h.2 hCancel
  | cancel id point =>
    obtain hSame | hNone | ⟨-, hExecute⟩ | ⟨-, hCancel⟩ := hMoves id
    · show point.Knows id (r'.statusOf id)
      rw [hSame]
      exact h
    · have hKnows : point.Knows id none := by
        rw [← hNone]
        exact h
      cases point with
      | check => trivial
      | update =>
        obtain ⟨t, ht, -⟩ := hKnows
        cases ht
      | read updated => cases hKnows.2
      | write updated metadata => cases hKnows.2.2.2
      | record updated => cases hKnows.2
    · exact CancelPoint.Knows.of_byExecute h hExecute
    · exact CancelPoint.Knows.of_byCancel h hCancel
  | _ => trivial

end Stability

-- ------ What an orderly step keeps

structure Outcome.Keeps (r : InMemoryRepository) (call : Call) (o : Outcome) : Prop where
  sound : o.repository.Sound
  knows : o.next.Knows o.repository
  moves : call.Moves r o.repository
  executing : ∀ id, o.next.executing = some id →
    call.executing = some id ∨ r.statusOf id = none

section Keeps

variable {r r' : InMemoryRepository} {call next : Call} {plan : RollbackPlan} {id : RollbackId}
  {now : Timestamp} {result : Option Int}

theorem Outcome.Keeps.unwritten {entry : Option HistoryEntry} (hSound : r.Sound)
    (hKnows : next.Knows r)
    (hExecuting : ∀ id, next.executing = some id → call.executing = some id) :
    Outcome.Keeps r call { repository := r, entry, next } :=
  ⟨hSound, hKnows, fun _ => .inl rfl, fun id h => .inl (hExecuting id h)⟩

theorem Outcome.Keeps.ended {entry : Option HistoryEntry} (hSound : r.Sound) :
    Outcome.Keeps r call { repository := r, entry } :=
  .unwritten hSound trivial fun _ h => (nomatch h)

variable {old : RollbackStatus}

theorem Outcome.Keeps.executed {new : RollbackStatus} {point : ExecutePoint} (hSound : r.Sound)
    (hCall : call.executing = some id) (hNames : plan.Names id) (hWrites : r.Writes id new r')
    (hOld : r.statusOf id = some old) (hCan : canTransition old new) (hAlive : old ≠ .cancelled)
    (hNew : new ≠ .failed) (hKnows : point.Knows id (some new)) :
    Outcome.Keeps r call { repository := r', next := .execute plan id point } := by
  refine ⟨hWrites.sound hSound, ⟨hNames, ?_⟩, fun id' => ?_, fun id' hId' => .inl ?_⟩
  · dsimp only
    rw [hWrites.self]
    exact hKnows
  · by_cases hEq : id' = id
    · subst hEq
      exact .inr (.inr (.inl ⟨hCall, old, new, hOld, hWrites.self, hCan, hAlive, hNew⟩))
    · exact .inl (hWrites.of_ne hEq)
  · obtain rfl := Call.eq_of_executing hId'
    exact hCall

theorem Outcome.Keeps.cancelled {point : CancelPoint} (hSound : r.Sound)
    (hCall : call.cancelling = some id) (hWrites : r.Writes id .cancelled r')
    (hOld : r.statusOf id = some old) (hCan : canTransition old .cancelled)
    (hKnows : point.Knows id (some .cancelled)) :
    Outcome.Keeps r call { repository := r', next := .cancel id point } := by
  refine ⟨hWrites.sound hSound, ?_, fun id' => ?_, fun id' hId' => ?_⟩
  · show point.Knows id (r'.statusOf id)
    rw [hWrites.self]
    exact hKnows
  · by_cases hEq : id' = id
    · subst hEq
      exact .inr (.inr (.inr ⟨hCall, hWrites.self, old, hOld, hCan⟩))
    · exact .inl (hWrites.of_ne hEq)
  · cases hId'

theorem Outcome.Keeps.appended {op : RollbackOperation} (hSound : r.Sound)
    (hAppend : r.append op now = .ok r') (hKnows : next.Knows r')
    (hExecuting : ∀ id, next.executing = some id → id = op.rollbackId) :
    Outcome.Keeps r call { repository := r', next } := by
  obtain ⟨hNew, hWrites⟩ := InMemoryRepository.append_ok hAppend
  refine ⟨hWrites.sound hSound, hKnows, fun id' => ?_, fun id' hId' => .inr ?_⟩
  · by_cases hEq : id' = op.rollbackId
    · rw [hEq]
      exact .inr (.inl hNew)
    · exact .inl (hWrites.of_ne hEq)
  · rw [hExecuting id' hId']
    exact hNew

/-- A status that an execution may stamp from `old` to `new`; the cancelled one is refused or
left alone. -/
theorem keeps_writeStamped {metadata : RollbackExecutionMetadata} {new : RollbackStatus}
    {point : ExecutePoint} {durationMs : Option Int} (hSound : r.Sound)
    (hCall : call.executing = some id) (hNames : plan.Names id) (hId : metadata.rollbackId = id)
    (hKnown : r.statusOf id = some old ∧ metadata.status = old ∨
      r.statusOf id = some .cancelled ∧ (metadata.status = old ∨ metadata.status = .cancelled))
    (hOrderly : canTransition metadata.status new → r.statusOf id ≠ some .cancelled)
    (hCan : canTransition old new) (hAlive : old ≠ .cancelled) (hNew : new ≠ .failed)
    (hKnows : point.Knows id (some new)) :
    (writeStamped r metadata new now durationMs (.execute plan id point)).Keeps r call := by
  obtain ⟨hStatus, hMeta⟩ | ⟨hStatus, hMeta⟩ := hKnown
  · rw [← hMeta] at hCan
    obtain ⟨r', hWrites, hEq⟩ := writeStamped_eq hId hCan hStatus now durationMs
      (.execute plan id point)
    rw [hEq]
    exact .executed hSound hCall hNames hWrites hStatus (hMeta ▸ hCan) hAlive hNew hKnows
  · -- cancelled meanwhile: orderly only if the metadata shows it
    have hNot : ¬ canTransition metadata.status new := fun h => hOrderly h hStatus
    rw [writeStamped_of_not hNot]
    exact .ended hSound

theorem keeps_readMetadata {s : RollbackStatus} {next : RollbackExecutionMetadata → Call}
    (hSound : r.Sound) (hStatus : r.statusOf id = some s)
    (hKnows : ∀ metadata, metadata.rollbackId = id → metadata.status = s →
      (next metadata).Knows r)
    (hExecuting : ∀ metadata id', (next metadata).executing = some id' →
      call.executing = some id') :
    (readMetadata r id next).Keeps r call := by
  obtain ⟨metadata, hId, hMeta, hEq⟩ := readMetadata_eq hSound hStatus next
  rw [hEq]
  exact .unwritten hSound (hKnows metadata hId hMeta) (hExecuting metadata)

theorem keeps_writeStatus {new : RollbackStatus} {point : ExecutePoint} (hSound : r.Sound)
    (hCall : call.executing = some id) (hNames : plan.Names id) (hStatus : r.statusOf id = some old)
    (hCan : canTransition old new) (hAlive : old ≠ .cancelled) (hNew : new ≠ .failed)
    (hKnows : point.Knows id (some new)) :
    (writeStatus r id new fun _ => .execute plan id point).Keeps r call := by
  obtain ⟨updated, r', -, hWrites, hEq⟩ := writeStatus_eq (t := new) hSound hStatus
    fun _ => .execute plan id point
  rw [hEq]
  exact .executed hSound hCall hNames hWrites hStatus hCan hAlive hNew hKnows

theorem keeps_readWritten {point : RollbackExecutionMetadata → ExecutePoint} {s : RollbackStatus}
    (hSound : r.Sound) (hCall : call.executing = some id) (hNames : plan.Names id)
    (hStatus : r.statusOf id = some s ∨ r.statusOf id = some .cancelled)
    (hPoint : ∀ metadata, metadata.rollbackId = id ∧
      (r.statusOf id = some s ∧ metadata.status = s ∨
        r.statusOf id = some .cancelled ∧
          (metadata.status = s ∨ metadata.status = .cancelled)) →
      (point metadata).Knows id (r.statusOf id)) :
    (readMetadata r id fun metadata => .execute plan id (point metadata)).Keeps r call := by
  have hExecuting : ∀ metadata id',
      (Call.execute plan id (point metadata)).executing = some id' →
        call.executing = some id' := by
    intro metadata id' h
    obtain rfl := Call.eq_of_executing h
    exact hCall
  obtain hStatus | hStatus := hStatus
  · refine keeps_readMetadata hSound hStatus (fun metadata hId hMeta => ?_) hExecuting
    exact ⟨hNames, hPoint metadata ⟨hId, .inl ⟨hStatus, hMeta⟩⟩⟩
  · refine keeps_readMetadata hSound hStatus (fun metadata hId hMeta => ?_) hExecuting
    exact ⟨hNames, hPoint metadata ⟨hId, .inr ⟨hStatus, .inr hMeta⟩⟩⟩

variable {recorded : List RollbackId}

theorem ExecutePoint.advance_keeps (hSound : r.Sound) (point : ExecutePoint)
    (hNames : plan.Names id) (hKnows : point.Knows id (r.statusOf id))
    (hOrderly : point.Orderly plan (r.statusOf id) recorded) :
    (point.advance r plan id now result).Keeps r (.execute plan id point) := by
  cases point with
  | append =>
    rw [ExecutePoint.advance]
    split
    · exact .ended hSound
    · next r' hAppend =>
      have hSelf : r'.statusOf id = some .validated := (InMemoryRepository.append_ok hAppend).2.self
      refine .appended hSound hAppend ⟨hNames, .inl hSelf⟩ fun id' hId' => ?_
      cases hId'
      rfl
  | readValidated | readPrepared =>
    exact keeps_readWritten hSound rfl hNames hKnows fun _ h => h
  | prepare => exact .unwritten hSound ⟨hNames, hKnows⟩ fun _ h => h
  | writeValidated metadata | writePrepared metadata =>
    exact keeps_writeStamped hSound rfl hNames hKnows.1 hKnows.2 hOrderly rfl (by decide)
      (by decide) (.inl rfl)
  | updatePrepared =>
    have hStatus := hKnows.resolve_right hOrderly
    exact keeps_writeStatus hSound rfl hNames hStatus rfl (by decide) (by decide) (.inl rfl)
  | apply =>
    cases result with
    | none => exact .ended hSound
    | some durationMs => exact .unwritten hSound ⟨hNames, hKnows⟩ fun _ h => h
  | updateCompleted durationMs =>
    have hStatus := hKnows.resolve_right hOrderly
    exact keeps_writeStatus hSound rfl hNames hStatus rfl (by decide) (by decide) rfl
  | readCompleted durationMs =>
    refine keeps_readMetadata hSound hKnows (fun metadata hId hMeta => ?_) fun _ _ h => h
    exact ⟨hNames, hId, hMeta, hKnows⟩
  | writeCompleted durationMs metadata =>
    obtain ⟨hId, hMeta, hStatus⟩ := hKnows
    refine keeps_writeStamped hSound rfl hNames hId (.inl ⟨hStatus, hMeta⟩) (fun _ h => ?_) rfl
      (by decide) (by decide) rfl
    rw [hStatus] at h
    cases h
  | record => exact .ended hSound

theorem CancelPoint.advance_keeps (hSound : r.Sound) (point : CancelPoint)
    (hKnows : point.Knows id (r.statusOf id)) (hOrderly : point.Orderly (r.statusOf id) recorded) :
    (point.advance r id now).Keeps r (.cancel id point) := by
  cases point with
  | check =>
    rw [CancelPoint.advance]
    split
    · exact .ended hSound
    · next op hGet =>
      split
      · next hCan =>
        have hNotFailed : op.status ≠ .failed := by
          intro h
          rw [h] at hCan
          cases hCan
        refine .unwritten hSound ?_ fun _ h => (nomatch h)
        exact ⟨op.status, InMemoryRepository.statusOf_of_get hGet, hNotFailed⟩
      · exact .ended hSound
  | update =>
    obtain ⟨old, hStatus, hNotFailed⟩ := hKnows
    have hCan : canTransition old .cancelled := by
      cases old with
      | completed => exact absurd hStatus hOrderly
      | failed => exact absurd rfl hNotFailed
      | _ => rfl
    obtain ⟨updated, r', hId, hWrites, hEq⟩ := writeStatus_eq (t := .cancelled) hSound hStatus
      fun updated => .cancel id (.read updated)
    show (writeStatus r id .cancelled _).Keeps r _
    rw [hEq]
    exact .cancelled hSound rfl hWrites hStatus hCan ⟨hId, rfl⟩
  | read updated =>
    obtain ⟨hUpdated, hStatus⟩ := hKnows
    refine keeps_readMetadata hSound hStatus (fun metadata hId hMeta => ?_) fun _ _ h =>
      (nomatch h)
    exact ⟨hUpdated, hId, hMeta, hStatus⟩
  | write updated metadata =>
    obtain ⟨hUpdated, hId, hMeta, hStatus⟩ := hKnows
    have hCan : canTransition metadata.status .cancelled := by
      rw [hMeta]
      rfl
    obtain ⟨r', hWrites, hEq⟩ := writeStamped_eq hId hCan hStatus now none
      (.cancel id (.record updated))
    show (writeStamped r metadata .cancelled now none _).Keeps r _
    rw [hEq]
    exact .cancelled hSound rfl hWrites hStatus rfl ⟨hUpdated, rfl⟩
  | record updated => exact .ended hSound

theorem Call.advance_keeps (hSound : r.Sound) (hKnows : call.Knows r)
    (hOrderly : call.Orderly r recorded) (now : Timestamp) (result : Option Int) :
    (call.advance r now result).Keeps r call := by
  cases call with
  | idle => exact .ended hSound
  | execute plan id point => exact point.advance_keeps hSound hKnows.1 hKnows.2 hOrderly
  | cancel id point => exact point.advance_keeps hSound hKnows hOrderly
  | register op =>
    rw [Call.advance]
    split
    · exact .ended hSound
    · next r' hAppend => exact .appended hSound hAppend trivial fun _ h => (nomatch h)

end Keeps

-- ------ Final statuses

def RollbackStatus.Final (t : RollbackStatus) : Prop :=
  t = .cancelled ∨ t = .failed ∨ t = .completed

theorem eq_of_canTransition {old new : RollbackStatus} (hFinal : old.Final)
    (hCan : canTransition old new) : new = old := by
  obtain rfl | rfl | rfl := hFinal <;> cases new <;> first | rfl | cases hCan

theorem Outcome.Keeps.permitted {r : InMemoryRepository} {call : Call} {o : Outcome}
    (h : o.Keeps r call) {id : RollbackId} {old : RollbackStatus}
    (hOld : r.statusOf id = some old) :
    ∃ new, o.repository.statusOf id = some new ∧ (new ≠ old → canTransition old new) := by
  obtain hSame | hNone | ⟨-, old', new, hOld', hNew, hCan, -, -⟩ |
    ⟨-, hNew, old', hOld', hCan⟩ := h.moves id
  · exact ⟨old, hSame.trans hOld, fun hNe => absurd rfl hNe⟩
  · rw [hNone] at hOld
    cases hOld
  · cases hOld'.symm.trans hOld
    exact ⟨new, hNew, fun _ => hCan⟩
  · cases hOld'.symm.trans hOld
    exact ⟨.cancelled, hNew, fun _ => hCan⟩

theorem Outcome.Keeps.final {r : InMemoryRepository} {call : Call} {o : Outcome}
    (h : o.Keeps r call) {id : RollbackId} {t : RollbackStatus} (hFinal : t.Final)
    (ht : r.statusOf id = some t) : o.repository.statusOf id = some t := by
  obtain ⟨new, hNew, hCan⟩ := h.permitted ht
  by_cases hEq : new = t
  · rw [hNew, hEq]
  · exact absurd (eq_of_canTransition hFinal (hCan hEq)) hEq

end Neuroswarm.Rollback
