import Neuroswarm.Lib.Run
import Neuroswarm.Rollback.CallKnowledge

/-!
# Rollback manager — statuses under interleaving

Any number of callers, in any order of their steps. `update_status` does not check the
lifecycle, so a step that is not orderly writes over a final status; and only `cancel`, or
an execution of a plan without an id, can record a rollback that is in the history.

* `Call.not_orderly` — what a step does that is not orderly.
* `Consistent.step` — an orderly step follows the lifecycle.
* `followsLifecycle_every_iff` — a run follows the lifecycle iff all its steps are orderly.
-/

namespace Neuroswarm.Rollback

-- ------ What a step that is not orderly does

section Disorderly

variable {r : InMemoryRepository} {call next : Call} {plan : RollbackPlan} {id : RollbackId}
  {now : Timestamp} {result : Option Int} {recorded : List RollbackId} {entry : HistoryEntry}

def Overwrites (r r' : InMemoryRepository) : Prop :=
  ∃ id old new, old.Final ∧ r.statusOf id = some old ∧ new ≠ old ∧ r.Writes id new r'

theorem writeStamped_overwrites {metadata : RollbackExecutionMetadata} {new : RollbackStatus}
    {durationMs : Option Int} (hId : metadata.rollbackId = id)
    (hCan : canTransition metadata.status new) (hStatus : r.statusOf id = some .cancelled)
    (hNe : new ≠ .cancelled) :
    Overwrites r (writeStamped r metadata new now durationMs next).repository := by
  obtain ⟨r', hWrites, hEq⟩ := writeStamped_eq hId hCan hStatus now durationMs next
  rw [hEq]
  exact ⟨id, .cancelled, new, .inl rfl, hStatus, hNe, hWrites⟩

theorem writeStatus_overwrites {old new : RollbackStatus} {next : RollbackOperation → Call}
    (hSound : r.Sound) (hFinal : old.Final) (hStatus : r.statusOf id = some old)
    (hNe : new ≠ old) : Overwrites r (writeStatus r id new next).repository := by
  obtain ⟨updated, r', -, hWrites, hEq⟩ := writeStatus_eq (t := new) hSound hStatus next
  rw [hEq]
  exact ⟨id, old, new, hFinal, hStatus, hNe, hWrites⟩

theorem ExecutePoint.not_orderly {point : ExecutePoint} (hSound : r.Sound)
    (hKnows : point.Knows id (r.statusOf id))
    (hOrderly : ¬ point.Orderly plan (r.statusOf id) recorded) :
    Overwrites r (point.advance r plan id now result).repository ∨
      ∃ entry, (point.advance r plan id now result).entry = some entry ∧
        entry.rollbackId ∈ recorded := by
  cases point with
  | writeValidated metadata | writePrepared metadata =>
    obtain ⟨hCan, hStatus⟩ := Classical.not_imp.mp hOrderly
    exact .inl (writeStamped_overwrites hKnows.1 hCan (not_not.mp hStatus) (by decide))
  | updatePrepared | updateCompleted =>
    exact .inl (writeStatus_overwrites hSound (.inl rfl) (not_not.mp hOrderly) (by decide))
  | record =>
    obtain ⟨hNoId, hMem⟩ := Classical.not_imp.mp hOrderly
    refine .inr ⟨completedEntry plan, rfl, ?_⟩
    show plan.rollbackId ∈ recorded
    rw [hNoId]
    exact not_not.mp hMem
  | _ => exact absurd trivial hOrderly

theorem CancelPoint.not_orderly {point : CancelPoint} (hSound : r.Sound)
    (hOrderly : ¬ point.Orderly (r.statusOf id) recorded) :
    Overwrites r (point.advance r id now).repository ∨
      ∃ entry, (point.advance r id now).entry = some entry ∧ entry.rollbackId ∈ recorded := by
  cases point with
  | update =>
    exact .inl
      (writeStatus_overwrites hSound (.inr (.inr rfl)) (not_not.mp hOrderly) (by decide))
  | record updated => exact .inr ⟨cancelledEntry updated, rfl, not_not.mp hOrderly⟩
  | _ => exact absurd trivial hOrderly

theorem Call.not_orderly (hSound : r.Sound) (hKnows : call.Knows r)
    (hOrderly : ¬ call.Orderly r recorded) (now : Timestamp) (result : Option Int) :
    Overwrites r (call.advance r now result).repository ∨
      ∃ entry, (call.advance r now result).entry = some entry ∧ entry.rollbackId ∈ recorded := by
  cases call with
  | execute plan id point => exact ExecutePoint.not_orderly hSound hKnows.2 hOrderly
  | cancel id point => exact CancelPoint.not_orderly hSound hOrderly
  | _ => exact absurd trivial hOrderly

theorem writeStamped_entry (metadata : RollbackExecutionMetadata) (t : RollbackStatus)
    (durationMs : Option Int) :
    (writeStamped r metadata t now durationMs next).entry = none := by
  unfold writeStamped
  split
  · rfl
  · split <;> rfl

theorem readMetadata_entry (next : RollbackExecutionMetadata → Call) :
    (readMetadata r id next).entry = none := by
  unfold readMetadata
  split <;> rfl

theorem writeStatus_entry (t : RollbackStatus) (next : RollbackOperation → Call) :
    (writeStatus r id t next).entry = none := by
  unfold writeStatus
  split <;> rfl

theorem ExecutePoint.advance_entry {point : ExecutePoint}
    (h : (point.advance r plan id now result).entry = some entry) :
    point = .record ∧ entry = completedEntry plan := by
  cases point with
  | append =>
    rw [ExecutePoint.advance] at h
    split at h <;> cases h
  | readValidated | readPrepared | readCompleted =>
    rw [ExecutePoint.advance, readMetadata_entry] at h
    cases h
  | writeValidated | writePrepared | writeCompleted =>
    rw [ExecutePoint.advance, writeStamped_entry] at h
    cases h
  | updatePrepared | updateCompleted =>
    rw [ExecutePoint.advance, writeStatus_entry] at h
    cases h
  | apply => cases result <;> cases h
  | prepare => cases h
  | record =>
    cases h
    exact ⟨rfl, rfl⟩

theorem CancelPoint.advance_entry {point : CancelPoint}
    (h : (point.advance r id now).entry = some entry) :
    ∃ updated, point = .record updated ∧ entry = cancelledEntry updated := by
  cases point with
  | check =>
    rw [CancelPoint.advance] at h
    split at h
    · cases h
    · split at h <;> cases h
  | update =>
    rw [CancelPoint.advance, writeStatus_entry] at h
    cases h
  | read updated =>
    rw [CancelPoint.advance, readMetadata_entry] at h
    cases h
  | write updated metadata =>
    rw [CancelPoint.advance, writeStamped_entry] at h
    cases h
  | record updated =>
    cases h
    exact ⟨updated, rfl, rfl⟩

theorem Call.advance_entry (h : (call.advance r now result).entry = some entry) :
    (∃ plan id, call = .execute plan id .record ∧ entry = completedEntry plan) ∨
      ∃ id updated, call = .cancel id (.record updated) ∧ entry = cancelledEntry updated := by
  cases call with
  | idle => cases h
  | execute plan id point =>
    obtain ⟨hPoint, hEntry⟩ := ExecutePoint.advance_entry h
    exact .inl ⟨plan, id, by rw [hPoint], hEntry⟩
  | cancel id point =>
    obtain ⟨updated, hPoint, hEntry⟩ := CancelPoint.advance_entry h
    exact .inr ⟨id, updated, by rw [hPoint], hEntry⟩
  | register op =>
    rw [Call.advance] at h
    split at h <;> cases h

end Disorderly

-- ------ Runs

namespace RollbackSystem

variable {s : RollbackSystem} {event : RollbackEvent}

def recorded (s : RollbackSystem) : List RollbackId := s.history.map (·.rollbackId)

/-- A step changes a status as the lifecycle table permits, leaves a final one alone, keeps
operation and metadata in agreement and every id at most once in the history. -/
structure FollowsLifecycle (s : RollbackSystem) (event : RollbackEvent) : Prop where
  permitted : ∀ id old, s.repository.statusOf id = some old →
    ∃ new, (s.step event).repository.statusOf id = some new ∧
      (new ≠ old → canTransition old new)
  final : ∀ id t, t.Final → s.repository.statusOf id = some t →
    (s.step event).repository.statusOf id = some t
  agree : ∀ id,
    (s.step event).repository.metaStatusOf id = (s.step event).repository.statusOf id
  once : (s.step event).recorded.Nodup

/-- No execution writes VALIDATED, PREPARED or COMPLETED over a cancellation, no
cancellation is written over a completion, none is recorded twice, and at most one execution
of a plan without an id is recorded. -/
def Orderly (s : RollbackSystem) : RollbackEvent → Prop
  | .advance caller _ _ => (s.calls caller).Orderly s.repository s.recorded
  | _ => True

/-- What orderly steps keep. -/
structure Consistent (s : RollbackSystem) : Prop where
  sound : s.repository.Sound
  knows : ∀ caller, (s.calls caller).Knows s.repository
  apart : ∀ i j id, (s.calls i).executing = some id → (s.calls j).executing = some id → i = j
  once : s.recorded.Nodup
  /-- What is in the history was cancelled, or completed by an execution that is over. -/
  settled : ∀ id ∈ s.recorded, id ≠ "" → s.repository.statusOf id = some .cancelled ∨
    s.repository.statusOf id = some .completed ∧ ∀ caller, (s.calls caller).executing ≠ some id

theorem consistent_loaded (ops : List RollbackOperation) (now : Timestamp) :
    ({ repository := .loaded ops now } : RollbackSystem).Consistent where
  sound := InMemoryRepository.sound_loaded ops now
  knows := fun _ => trivial
  apart := fun _ _ _ h => (nomatch h)
  once := List.nodup_nil
  settled := fun _ h => (nomatch h)

theorem Consistent.begin (h : s.Consistent) (caller : Nat) {call : Call}
    (hKnows : call.Knows s.repository) (hExecuting : call.executing = none) :
    ({ s with calls := Function.update s.calls caller call } : RollbackSystem).Consistent := by
  have hOld : ∀ k id, (Function.update s.calls caller call k).executing = some id →
      (s.calls k).executing = some id := by
    intro k id hk
    obtain rfl | hNe := eq_or_ne k caller
    · rw [Function.update_self, hExecuting] at hk
      cases hk
    · rwa [Function.update_of_ne hNe] at hk
  refine ⟨h.sound, fun i => ?_, fun i j id hi hj => ?_, h.once, fun id hMem hId => ?_⟩
  · dsimp only
    obtain rfl | hNe := eq_or_ne i caller
    · rw [Function.update_self]
      exact hKnows
    · rw [Function.update_of_ne hNe]
      exact h.knows i
  · exact h.apart i j id (hOld i id hi) (hOld j id hj)
  · refine (h.settled id hMem hId).imp_right fun ⟨hCompleted, hOver⟩ => ⟨hCompleted, ?_⟩
    exact fun k hk => hOver k (hOld k id hk)

theorem start_spec (h : s.Consistent) (caller : Nat) {call : Call}
    (hKnows : call.Knows s.repository) (hExecuting : call.executing = none) :
    (s.start caller call).Consistent ∧ (s.start caller call).repository = s.repository ∧
      (s.start caller call).recorded = s.recorded := by
  unfold start
  split
  · exact ⟨h.begin caller hKnows hExecuting, rfl, rfl⟩
  · exact ⟨h, rfl, rfl⟩

theorem followsLifecycle_of_same (h : s.Consistent)
    (hRepository : (s.step event).repository = s.repository)
    (hRecorded : (s.step event).recorded = s.recorded) : s.FollowsLifecycle event where
  permitted := fun id old hOld => ⟨old, by rw [hRepository, hOld], fun hNe => absurd rfl hNe⟩
  final := fun id t _ ht => by rw [hRepository, ht]
  agree := fun id => by rw [hRepository, h.sound.agree]
  once := by
    rw [hRecorded]
    exact h.once

variable {caller : Nat}

theorem Consistent.record_notMem (h : s.Consistent) {plan : RollbackPlan} {id : RollbackId}
    (hCall : s.calls caller = .execute plan id .record) (hPlan : plan.rollbackId ≠ "") :
    plan.rollbackId ∉ s.recorded := by
  intro hMem
  have hKnows := h.knows caller
  rw [hCall] at hKnows
  obtain ⟨hNames, hCompleted⟩ := hKnows
  have hExecuting : (s.calls caller).executing = some plan.rollbackId := by
    rw [hCall, hNames hPlan]
    rfl
  obtain hCancelled | ⟨-, hOver⟩ := h.settled _ hMem hPlan
  · rw [hNames hPlan, hCompleted] at hCancelled
    cases hCancelled
  · exact hOver caller hExecuting

theorem entry_notMem (h : s.Consistent) {now : Timestamp} {result : Option Int}
    (hOrderly : s.Orderly (.advance caller now result)) {entry : HistoryEntry}
    (hEntry : ((s.calls caller).advance s.repository now result).entry = some entry) :
    entry.rollbackId ∉ s.recorded := by
  change (s.calls caller).Orderly s.repository s.recorded at hOrderly
  obtain ⟨plan, id, hCall, rfl⟩ | ⟨id, updated, hCall, rfl⟩ := Call.advance_entry hEntry
  · rw [hCall] at hOrderly
    show plan.rollbackId ∉ s.recorded
    by_cases hPlan : plan.rollbackId = ""
    · rw [hPlan]
      exact hOrderly hPlan
    · exact h.record_notMem hCall hPlan
  · rw [hCall] at hOrderly
    exact hOrderly

theorem nodup_recorded (h : s.Consistent) {now : Timestamp} {result : Option Int}
    (hOrderly : s.Orderly (.advance caller now result)) :
    (s.step (.advance caller now result)).recorded.Nodup := by
  show ((s.history ++ _).map (·.rollbackId)).Nodup
  rw [List.map_append]
  cases hEntry : ((s.calls caller).advance s.repository now result).entry with
  | none =>
    rw [Option.toList_none, List.map_nil, List.append_nil]
    exact h.once
  | some entry =>
    refine h.once.append (List.nodup_singleton _) ?_
    exact List.disjoint_singleton.mpr (entry_notMem h hOrderly hEntry)

theorem executing_step {now : Timestamp} {result : Option Int} {id : RollbackId}
    (hKeeps : ((s.calls caller).advance s.repository now result).Keeps s.repository
      (s.calls caller)) {k : Nat}
    (hk : ((s.step (.advance caller now result)).calls k).executing = some id) :
    (s.calls k).executing = some id ∨ k = caller ∧ s.repository.statusOf id = none := by
  change (Function.update s.calls caller _ k).executing = some id at hk
  by_cases hEq : k = caller
  · rw [hEq, Function.update_self] at hk
    rw [hEq]
    exact (hKeeps.executing id hk).imp_right fun hNew => ⟨rfl, hNew⟩
  · rw [Function.update_of_ne hEq] at hk
    exact .inl hk

/-- What the step records is over. -/
theorem settled_entry (h : s.Consistent) {now : Timestamp} {result : Option Int}
    {entry : HistoryEntry}
    (hEntry : ((s.calls caller).advance s.repository now result).entry = some entry)
    (hId : entry.rollbackId ≠ "") :
    (s.step (.advance caller now result)).repository.statusOf entry.rollbackId =
        some .cancelled ∨
      (s.step (.advance caller now result)).repository.statusOf entry.rollbackId =
          some .completed ∧
        ∀ k, ((s.step (.advance caller now result)).calls k).executing ≠
          some entry.rollbackId := by
  have hKnows := h.knows caller
  obtain ⟨plan, id, hCall, rfl⟩ | ⟨id, updated, hCall, rfl⟩ := Call.advance_entry hEntry
  · rw [hCall] at hKnows
    obtain ⟨hNames, hCompleted⟩ := hKnows
    obtain rfl : plan.rollbackId = id := hNames hId
    have hExecuting : (s.calls caller).executing = some plan.rollbackId := by
      rw [hCall]
      rfl
    have hRepository : (s.step (.advance caller now result)).repository = s.repository := by
      show ((s.calls caller).advance s.repository now result).repository = _
      rw [hCall]
      rfl
    rw [hRepository]
    refine .inr ⟨hCompleted, fun k hk => ?_⟩
    change (Function.update s.calls caller _ k).executing = some plan.rollbackId at hk
    by_cases hEq : k = caller
    · rw [hEq, Function.update_self, hCall] at hk
      cases hk
    · rw [Function.update_of_ne hEq] at hk
      exact hEq (h.apart k caller _ hk hExecuting)
  · rw [hCall] at hKnows
    obtain ⟨hUpdated, hCancelled⟩ := hKnows
    have hRepository : (s.step (.advance caller now result)).repository = s.repository := by
      show ((s.calls caller).advance s.repository now result).repository = _
      rw [hCall]
      rfl
    rw [hRepository]
    refine .inl ?_
    show s.repository.statusOf updated.rollbackId = _
    rw [hUpdated, hCancelled]

theorem Consistent.advance (h : s.Consistent) {now : Timestamp} {result : Option Int}
    (hOrderly : s.Orderly (.advance caller now result)) :
    (s.step (.advance caller now result)).Consistent := by
  have hKeeps := Call.advance_keeps h.sound (h.knows caller) hOrderly now result
  refine ⟨hKeeps.sound, fun i => ?_, fun i j id hi hj => ?_, nodup_recorded h hOrderly,
    fun id hMem hId => ?_⟩
  · show (Function.update s.calls caller _ i).Knows _
    obtain rfl | hNe := eq_or_ne i caller
    · rw [Function.update_self]
      exact hKeeps.knows
    · rw [Function.update_of_ne hNe]
      refine (h.knows i).of_moves hKeeps.moves fun id hCaller hOther => hNe ?_
      exact h.apart i caller id hOther hCaller
  · -- an operation that is new to the repository is executed by nobody yet
    have hNew : ∀ k, (s.calls k).executing = some id → s.repository.statusOf id ≠ none := by
      intro k hk hNone
      have hSome := (h.knows k).isSome hk
      rw [hNone] at hSome
      cases hSome
    obtain hi' | ⟨rfl, hNone⟩ := executing_step hKeeps hi
    · obtain hj' | ⟨rfl, hNone⟩ := executing_step hKeeps hj
      · exact h.apart i j id hi' hj'
      · exact absurd hNone (hNew i hi')
    · obtain hj' | ⟨rfl, -⟩ := executing_step hKeeps hj
      · exact absurd hNone (hNew j hj')
      · rfl
  · have hMem' : id ∈ (s.history ++ _).map (·.rollbackId) := hMem
    rw [List.map_append, List.mem_append] at hMem'
    obtain hOld | hNew := hMem'
    · obtain hCancelled | ⟨hCompleted, hOver⟩ := h.settled id hOld hId
      · exact .inl (hKeeps.final (.inl rfl) hCancelled)
      · refine .inr ⟨hKeeps.final (.inr (.inr rfl)) hCompleted, fun k hk => ?_⟩
        obtain hk' | ⟨-, hNone⟩ := executing_step hKeeps hk
        · exact hOver k hk'
        · rw [hNone] at hCompleted
          cases hCompleted
    · obtain ⟨entry, hEntry, rfl⟩ := List.mem_map.mp hNew
      exact settled_entry h (Option.mem_toList.mp hEntry) hId

theorem followsLifecycle_advance (h : s.Consistent) {now : Timestamp} {result : Option Int}
    (hOrderly : s.Orderly (.advance caller now result)) :
    s.FollowsLifecycle (.advance caller now result) := by
  have hKeeps := Call.advance_keeps h.sound (h.knows caller) hOrderly now result
  exact ⟨fun id old hOld => hKeeps.permitted hOld, fun id t hFinal ht => hKeeps.final hFinal ht,
    hKeeps.sound.agree, nodup_recorded h hOrderly⟩

/-- **Step lemma.** From a consistent state an orderly step follows the lifecycle, and leads
to a consistent state. -/
theorem Consistent.step (h : s.Consistent) (hOrderly : s.Orderly event) :
    (s.step event).Consistent ∧ s.FollowsLifecycle event := by
  have hStart : ∀ (caller : Nat) (call : Call), s.step event = s.start caller call →
      call.Knows s.repository → call.executing = none →
      (s.step event).Consistent ∧ s.FollowsLifecycle event := by
    intro caller call hEq hKnows hExecuting
    obtain ⟨hConsistent, hRepository, hRecorded⟩ := start_spec h caller hKnows hExecuting
    rw [← hEq] at hConsistent hRepository hRecorded
    exact ⟨hConsistent, followsLifecycle_of_same h hRepository hRecorded⟩
  have hStay : s.step event = s → (s.step event).Consistent ∧ s.FollowsLifecycle event := by
    intro hEq
    refine ⟨?_, followsLifecycle_of_same h (by rw [hEq]) (by rw [hEq])⟩
    rw [hEq]
    exact h
  cases event with
  | execute caller plan valid newId =>
    by_cases hValid : plan.workflowId ≠ "" ∧ plan.executionId ≠ "" ∧ valid
    · refine hStart _ _ (if_pos hValid) ⟨fun hPlan => ?_, trivial⟩ rfl
      rw [if_pos hPlan]
    · exact hStay (if_neg hValid)
  | cancel caller rollbackId => exact hStart _ _ rfl trivial rfl
  | register caller op valid =>
    by_cases hValid : op.workflowId ≠ "" ∧ op.executionId ≠ "" ∧ valid
    · exact hStart _ _ (if_pos hValid) trivial rfl
    · exact hStay (if_neg hValid)
  | advance caller now result => exact ⟨h.advance hOrderly, followsLifecycle_advance h hOrderly⟩

theorem Consistent.orderly (h : s.Consistent) (hFollows : s.FollowsLifecycle event) :
    s.Orderly event := by
  cases event with
  | advance caller now result =>
    by_contra hOrderly
    obtain ⟨id, old, new, hFinal, hOld, hNe, hWrites⟩ | ⟨entry, hEntry, hMem⟩ :=
      Call.not_orderly h.sound (h.knows caller) hOrderly now result
    · have hKept := hFollows.final id old hFinal hOld
      exact hNe (Option.some.inj (hWrites.self.symm.trans hKept))
    · have hOnce : ((s.history ++ _).map (·.rollbackId)).Nodup := hFollows.once
      rw [hEntry, List.map_append] at hOnce
      exact List.disjoint_of_nodup_append hOnce hMem (List.mem_singleton_self _)
  | _ => trivial

/-- Every step of a run follows the lifecycle iff every step is orderly. -/
theorem followsLifecycle_every_iff (ops : List RollbackOperation) (now : Timestamp)
    (events : List RollbackEvent) :
    Run.Every step FollowsLifecycle { repository := .loaded ops now } events ↔
      Run.Every step Orderly { repository := .loaded ops now } events := by
  have hStart := consistent_loaded ops now
  constructor
  · exact Run.every_of_every (fun s event h hFollows => (h.step (h.orderly hFollows)).1)
      (fun s event h hFollows => h.orderly hFollows) hStart
  · exact Run.every_of_every (fun s event h hOrderly => (h.step hOrderly).1)
      (fun s event h hOrderly => (h.step hOrderly).2) hStart

/-- A cancellation lands after the plan was applied as PREPARED, and is then overwritten with
COMPLETED. -/
def lostCancellation : List RollbackEvent :=
  [.execute 0
      { planId := "p", rollbackId := "rb", workflowId := "w", executionId := "e", createdAt := 0 }
      true "",
    .advance 0 0 none, .advance 0 0 none, .advance 0 0 none, .advance 0 0 none, .advance 0 0 none,
    .advance 0 0 none, .advance 0 0 none,
    .cancel 1 "rb", .advance 1 0 none, .advance 1 0 none,
    .advance 0 0 (some 5), .advance 0 0 none]

theorem not_followsLifecycle_lostCancellation :
    ¬ Run.Every step FollowsLifecycle { repository := .loaded [] 0 } lostCancellation := by
  rintro ⟨-, -, -, -, -, -, -, -, -, -, -, -, h, -⟩
  have hKept := h.final "rb" .cancelled (.inl rfl) (by decide)
  exact absurd hKept (by decide)

end RollbackSystem

end Neuroswarm.Rollback
