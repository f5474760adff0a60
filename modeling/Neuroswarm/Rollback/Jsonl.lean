import Neuroswarm.Lib.Run
import Neuroswarm.Rollback.Statuses

/-!
# JSONL repository

`JsonlRepository` of `runtime/swarm/rollback/repository.py`: the in-memory repository with a
file of one line for each operation. A line is the operation it holds; `append` writes one,
`set_metadata` and `update_status` are inherited and write none.

* `JsonlRepository.opened` — the repository over the lines of a file.
* `appendedAs`, `lastWritten` — the two statuses of a rollback in a list of calls.
* `opened_known` — every file reopens and knows the same rollbacks.
* `survives_iff` — when a reopened repository has the statuses of the old one.
-/

namespace Neuroswarm.Rollback

/-- Mutation attempted on append-only rollback store. -/
structure ImmutabilityError where
  message : String
  deriving DecidableEq, Repr

structure JsonlRepository where
  memory : InMemoryRepository := {}
  lines : List RollbackOperation := []

inductive RepositoryCall where
  | append (op : RollbackOperation) (now : Timestamp)
  | setMetadata (metadata : RollbackExecutionMetadata)
  | updateStatus (rollbackId : RollbackId) (status : RollbackStatus)

namespace JsonlRepository

def append (s : JsonlRepository) (op : RollbackOperation) (now : Timestamp) :
    Except RollbackError JsonlRepository :=
  (s.memory.append op now).map fun memory => { memory, lines := s.lines ++ [op] }

/-- One line of `_load`. -/
def loadLine (now : Timestamp) (r : InMemoryRepository) (op : RollbackOperation) :
    Except ImmutabilityError InMemoryRepository :=
  match r.append op now with
  | .ok r' => .ok r'
  | .error _ => .error ⟨"duplicate rollback id: " ++ op.rollbackId⟩

/-- `JsonlRepository(path)` over the lines of the file. -/
def opened (lines : List RollbackOperation) (now : Timestamp) :
    Except ImmutabilityError JsonlRepository :=
  (lines.foldlM (loadLine now) {}).map fun memory => { memory, lines }

/-- A call that raises changes nothing. -/
def step (s : JsonlRepository) : RepositoryCall → JsonlRepository
  | .append op now =>
    match s.append op now with
    | .ok s' => s'
    | .error _ => s
  | .setMetadata metadata =>
    match s.memory.setMetadata metadata with
    | .ok memory => { s with memory }
    | .error _ => s
  | .updateStatus rollbackId status =>
    match s.memory.updateStatus rollbackId status with
    | .ok (_, memory) => { s with memory }
    | .error _ => s

def lineStatus (s : JsonlRepository) (id : RollbackId) : Option RollbackStatus :=
  (s.lines.find? (·.rollbackId = id)).map (·.status)

end JsonlRepository

-- ------ One rollback in a list of calls

namespace RepositoryCall

def Appends (id : RollbackId) : RepositoryCall → Bool
  | .append op _ => op.rollbackId = id
  | _ => false

def written (id : RollbackId) : RepositoryCall → Option RollbackStatus
  | .append _ _ => none
  | .setMetadata metadata => if metadata.rollbackId = id then some metadata.status else none
  | .updateStatus rollbackId status => if rollbackId = id then some status else none

def appended (id : RollbackId) : RepositoryCall → Option RollbackStatus
  | .append op _ => if op.rollbackId = id then some op.status else none
  | _ => none

end RepositoryCall

def appendedAs (id : RollbackId) (calls : List RepositoryCall) : Option RollbackStatus :=
  calls.findSome? (·.appended id)

def lastWritten (id : RollbackId) (calls : List RepositoryCall) : Option RollbackStatus :=
  ((calls.dropWhile fun call => !call.Appends id).filterMap (·.written id)).getLast?

/-- No rollback ends with another status than it was appended with. -/
def StatusesReturn (calls : List RepositoryCall) : Prop :=
  ∀ id t, lastWritten id calls = some t → appendedAs id calls = some t

namespace JsonlRepository

variable {s s' : JsonlRepository} {id : RollbackId} {t : RollbackStatus}

-- ------ Single calls

/-- The file has one line for each operation in memory. -/
structure Backed (s : JsonlRepository) : Prop where
  sound : s.memory.Sound
  nodup : (s.lines.map (·.rollbackId)).Nodup
  listed : ∀ id, id ∈ s.lines.map (·.rollbackId) ↔ (s.memory.statusOf id).isSome

theorem lineStatus_isSome : (s.lineStatus id).isSome ↔ id ∈ s.lines.map (·.rollbackId) := by
  simp [lineStatus]

theorem step_append (s : JsonlRepository) (op : RollbackOperation) (now : Timestamp) :
    ((s.memory.statusOf op.rollbackId).isSome ∧ s.step (.append op now) = s) ∨
      (s.memory.statusOf op.rollbackId = none ∧
        s.memory.Writes op.rollbackId op.status (s.step (.append op now)).memory ∧
        (s.step (.append op now)).lines = s.lines ++ [op]) := by
  cases hAppend : s.memory.append op now with
  | error e =>
    refine .inl ⟨?_, by simp only [step, append, hAppend, Except.map]⟩
    unfold InMemoryRepository.append at hAppend
    split at hAppend
    · next hKnown => simpa [InMemoryRepository.statusOf, Dict.contains] using hKnown
    · cases hAppend
  | ok r =>
    obtain ⟨hNew, hWrites⟩ := InMemoryRepository.append_ok hAppend
    have hStep : s.step (.append op now) = { memory := r, lines := s.lines ++ [op] } := by
      simp only [step, append, hAppend, Except.map]
    rw [hStep]
    exact .inr ⟨hNew, hWrites, rfl⟩

theorem step_setMetadata (s : JsonlRepository) (metadata : RollbackExecutionMetadata) :
    (s.memory.statusOf metadata.rollbackId = none ∧ s.step (.setMetadata metadata) = s) ∨
      ((s.memory.statusOf metadata.rollbackId).isSome ∧
        s.memory.Writes metadata.rollbackId metadata.status
          (s.step (.setMetadata metadata)).memory ∧
        (s.step (.setMetadata metadata)).lines = s.lines) := by
  cases hStatus : s.memory.statusOf metadata.rollbackId with
  | none =>
    refine .inl ⟨rfl, ?_⟩
    have hNone : s.memory.ops.get? metadata.rollbackId = none := by
      simpa [InMemoryRepository.statusOf] using hStatus
    simp only [step, InMemoryRepository.setMetadata, hNone]
  | some t =>
    obtain ⟨r, hSet, hWrites⟩ :=
      InMemoryRepository.setMetadata_writes (Option.isSome_of_mem hStatus)
    have hStep : s.step (.setMetadata metadata) = { s with memory := r } := by
      simp only [step, hSet]
    rw [hStep]
    exact .inr ⟨rfl, hWrites, rfl⟩

theorem step_updateStatus (hSound : s.memory.Sound) (id : RollbackId) (t : RollbackStatus) :
    (s.memory.statusOf id = none ∧ s.step (.updateStatus id t) = s) ∨
      ((s.memory.statusOf id).isSome ∧
        s.memory.Writes id t (s.step (.updateStatus id t)).memory ∧
        (s.step (.updateStatus id t)).lines = s.lines) := by
  cases hStatus : s.memory.statusOf id with
  | none =>
    refine .inl ⟨rfl, ?_⟩
    have hNone : s.memory.ops.get? id = none := by
      simpa [InMemoryRepository.statusOf] using hStatus
    simp only [step, InMemoryRepository.updateStatus, InMemoryRepository.get, hNone]
  | some old =>
    obtain ⟨updated, r, hUpdate, -, hWrites⟩ :=
      InMemoryRepository.updateStatus_writes (t := t) hSound (Option.isSome_of_mem hStatus)
    have hStep : s.step (.updateStatus id t) = { s with memory := r } := by
      simp only [step, hUpdate]
    rw [hStep]
    exact .inr ⟨rfl, hWrites, rfl⟩

theorem Backed.of_writes (h : s.Backed) (hKnown : (s.memory.statusOf id).isSome)
    (hWrites : s.memory.Writes id t s'.memory) (hLines : s'.lines = s.lines) : s'.Backed where
  sound := hWrites.sound h.sound
  nodup := hLines ▸ h.nodup
  listed := fun id' => by
    rw [hLines, h.listed, hWrites.statusOf]
    split
    · next hEq => rw [hEq, hKnown, Option.isSome_some]
    · rfl

theorem Backed.step (h : s.Backed) (call : RepositoryCall) : (s.step call).Backed := by
  cases call with
  | append op now =>
    rcases step_append s op now with ⟨-, hSame⟩ | ⟨hNew, hWrites, hLines⟩
    · rw [hSame]
      exact h
    · have hNotMem : op.rollbackId ∉ s.lines.map (·.rollbackId) := by
        rw [h.listed, hNew]
        simp
      refine ⟨hWrites.sound h.sound, ?_, fun id => ?_⟩
      · rw [hLines, List.map_append, List.nodup_append]
        refine ⟨h.nodup, List.nodup_singleton _, ?_⟩
        intro id hId id' hId' hEq
        rw [List.map_singleton, List.mem_singleton] at hId'
        exact hNotMem (hId' ▸ hEq ▸ hId)
      · rw [hLines, List.map_append, List.mem_append, h.listed, hWrites.statusOf]
        split
        · next hEq => simp [hEq]
        · next hNe => simp [hNe]
  | setMetadata metadata =>
    rcases step_setMetadata s metadata with ⟨-, hSame⟩ | ⟨hKnown, hWrites, hLines⟩
    · rw [hSame]
      exact h
    · exact h.of_writes hKnown hWrites hLines
  | updateStatus id t =>
    rcases step_updateStatus h.sound id t with ⟨-, hSame⟩ | ⟨hKnown, hWrites, hLines⟩
    · rw [hSame]
      exact h
    · exact h.of_writes hKnown hWrites hLines

theorem step_of_absent (h : s.Backed) (hNone : s.memory.statusOf id = none)
    (call : RepositoryCall) :
    (s.step call).memory.statusOf id = call.appended id ∧
      (s.step call).lineStatus id = call.appended id := by
  have hLine : s.lineStatus id = none := by
    rw [← Option.not_isSome_iff_eq_none, lineStatus_isSome, h.listed, hNone]
    simp
  cases call with
  | append op now =>
    rcases step_append s op now with ⟨hKnown, hSame⟩ | ⟨hNew, hWrites, hLines⟩
    · have hNe : op.rollbackId ≠ id := by
        rintro rfl
        rw [hNone] at hKnown
        cases hKnown
      rw [hSame, RepositoryCall.appended, if_neg hNe]
      exact ⟨hNone, hLine⟩
    · unfold RepositoryCall.appended lineStatus
      rw [hLines, hWrites.statusOf, List.find?_append]
      have hFind : s.lines.find? (·.rollbackId = id) = none := by
        simpa [lineStatus] using hLine
      rw [hFind]
      by_cases hEq : op.rollbackId = id
      · simp [hEq]
      · simp [hEq, Ne.symm hEq, hNone]
  | setMetadata metadata =>
    rcases step_setMetadata s metadata with ⟨-, hSame⟩ | ⟨hKnown, hWrites, hLines⟩
    · rw [hSame]
      exact ⟨hNone, hLine⟩
    · refine ⟨?_, by rw [lineStatus, hLines]; exact hLine⟩
      rw [hWrites.of_ne, hNone]
      · rfl
      · rintro rfl
        rw [hNone] at hKnown
        cases hKnown
  | updateStatus id' t =>
    rcases step_updateStatus h.sound id' t with ⟨-, hSame⟩ | ⟨hKnown, hWrites, hLines⟩
    · rw [hSame]
      exact ⟨hNone, hLine⟩
    · refine ⟨?_, by rw [lineStatus, hLines]; exact hLine⟩
      rw [hWrites.of_ne, hNone]
      · rfl
      · rintro rfl
        rw [hNone] at hKnown
        cases hKnown

theorem step_of_known (h : s.Backed) (hKnown : s.memory.statusOf id = some t)
    (call : RepositoryCall) :
    (s.step call).memory.statusOf id = some ((call.written id).getD t) ∧
      (s.step call).lineStatus id = s.lineStatus id := by
  cases call with
  | append op now =>
    rcases step_append s op now with ⟨-, hSame⟩ | ⟨hNew, hWrites, hLines⟩
    · rw [hSame]
      exact ⟨hKnown, rfl⟩
    · have hNe : id ≠ op.rollbackId := by
        rintro rfl
        rw [hNew] at hKnown
        cases hKnown
      refine ⟨(hWrites.of_ne hNe).trans hKnown, ?_⟩
      unfold lineStatus
      rw [hLines, List.find?_append]
      simp [Ne.symm hNe]
  | setMetadata metadata =>
    rcases step_setMetadata s metadata with ⟨hNone, hSame⟩ | ⟨-, hWrites, hLines⟩
    · rw [hSame, RepositoryCall.written, if_neg]
      · exact ⟨hKnown, rfl⟩
      · rintro rfl
        rw [hNone] at hKnown
        cases hKnown
    · refine ⟨?_, by rw [lineStatus, hLines]; rfl⟩
      rw [hWrites.statusOf, RepositoryCall.written]
      by_cases hEq : metadata.rollbackId = id
      · rw [if_pos hEq.symm, if_pos hEq]
        rfl
      · rw [if_neg (Ne.symm hEq), if_neg hEq]
        exact hKnown
  | updateStatus id' t' =>
    rcases step_updateStatus h.sound id' t' with ⟨hNone, hSame⟩ | ⟨-, hWrites, hLines⟩
    · rw [hSame, RepositoryCall.written, if_neg]
      · exact ⟨hKnown, rfl⟩
      · rintro rfl
        rw [hNone] at hKnown
        cases hKnown
    · refine ⟨?_, by rw [lineStatus, hLines]; rfl⟩
      rw [hWrites.statusOf, RepositoryCall.written]
      by_cases hEq : id' = id
      · rw [if_pos hEq.symm, if_pos hEq]
        rfl
      · rw [if_neg (Ne.symm hEq), if_neg hEq]
        exact hKnown

-- ------ Runs

theorem backed_exec (h : s.Backed) (calls : List RepositoryCall) : (Run.exec step s calls).Backed :=
  Run.exec_of_invariant (fun _ call hs => hs.step call) h calls

theorem backed_empty : ({} : JsonlRepository).Backed :=
  ⟨InMemoryRepository.sound_empty, List.nodup_nil, fun id => by
    simp [InMemoryRepository.statusOf, show ({} : JsonlRepository).memory.ops.get? id = none from rfl]⟩

theorem exec_of_known (h : s.Backed) (hKnown : s.memory.statusOf id = some t)
    (calls : List RepositoryCall) :
    (Run.exec step s calls).memory.statusOf id =
        some ((calls.filterMap (·.written id)).getLast?.getD t) ∧
      (Run.exec step s calls).lineStatus id = s.lineStatus id := by
  induction calls generalizing s t with
  | nil => exact ⟨hKnown, rfl⟩
  | cons call calls ih =>
    obtain ⟨hStatus, hLine⟩ := step_of_known h hKnown call
    obtain ⟨hLast, hLines⟩ := ih (h.step call) hStatus
    refine ⟨hLast.trans ?_, hLines.trans hLine⟩
    cases hWritten : call.written id with
    | none => rw [List.filterMap_cons_none hWritten, Option.getD_none]
    | some w =>
      rw [List.filterMap_cons_some hWritten, List.getLast?_cons, Option.getD_some,
        Option.getD_some]

theorem lastWritten_of_not {call : RepositoryCall} (h : call.appended id = none)
    (calls : List RepositoryCall) : lastWritten id (call :: calls) = lastWritten id calls := by
  have hNot : call.Appends id = false := by
    cases call with
    | append op now => simpa [RepositoryCall.appended, RepositoryCall.Appends] using h
    | _ => rfl
  unfold lastWritten
  rw [List.dropWhile_cons_of_pos (by simp [hNot])]

theorem lastWritten_of_appended {call : RepositoryCall} (h : call.appended id = some t)
    (calls : List RepositoryCall) :
    lastWritten id (call :: calls) = (calls.filterMap (·.written id)).getLast? := by
  cases call with
  | append op now =>
    have hAppends : (RepositoryCall.append op now).Appends id = true := by
      by_contra hNot
      have hNe : op.rollbackId ≠ id := by simpa [RepositoryCall.Appends] using hNot
      rw [RepositoryCall.appended, if_neg hNe] at h
      cases h
    unfold lastWritten
    rw [List.dropWhile_cons_of_neg (by simp [hAppends]), List.filterMap_cons_none rfl]
  | _ => cases h

theorem exec_of_absent (h : s.Backed) (hNone : s.memory.statusOf id = none)
    (calls : List RepositoryCall) :
    (Run.exec step s calls).memory.statusOf id =
        (appendedAs id calls).map (lastWritten id calls).getD ∧
      (Run.exec step s calls).lineStatus id = appendedAs id calls := by
  induction calls generalizing s with
  | nil =>
    refine ⟨hNone, ?_⟩
    show s.lineStatus id = none
    rw [← Option.not_isSome_iff_eq_none, lineStatus_isSome, h.listed, hNone]
    simp
  | cons call calls ih =>
    obtain ⟨hStatus, hLine⟩ := step_of_absent h hNone call
    cases hAppended : call.appended id with
    | none =>
      rw [hAppended] at hStatus
      rw [lastWritten_of_not hAppended, appendedAs, List.findSome?_cons_of_isNone (by simp [hAppended])]
      exact ih (h.step call) hStatus
    | some a =>
      rw [hAppended] at hStatus hLine
      obtain ⟨hLast, hLines⟩ := exec_of_known (h.step call) hStatus calls
      rw [lastWritten_of_appended hAppended, appendedAs, List.findSome?_cons_of_isSome (by simp [hAppended]),
        hAppended]
      exact ⟨hLast, hLines.trans hLine⟩

theorem lastWritten_of_unappended {calls : List RepositoryCall} (h : appendedAs id calls = none) :
    lastWritten id calls = none := by
  induction calls with
  | nil => rfl
  | cons call calls ih =>
    rw [appendedAs, List.findSome?_eq_none_iff] at h
    rw [lastWritten_of_not (h call List.mem_cons_self)]
    refine ih ?_
    rw [appendedAs, List.findSome?_eq_none_iff]
    exact fun c hc => h c (List.mem_cons_of_mem _ hc)

-- ------ Opening a file

theorem exec_of_loaded {now : Timestamp} (lines : List RollbackOperation) {r : InMemoryRepository}
    (h : lines.foldlM (loadLine now) s.memory = .ok r) :
    Run.exec step s (lines.map (.append · now)) = { memory := r, lines := s.lines ++ lines } := by
  induction lines generalizing s with
  | nil =>
    cases h
    simp
  | cons op lines ih =>
    rw [List.foldlM_cons] at h
    cases hAppend : s.memory.append op now with
    | error e =>
      have hLoad : loadLine now s.memory op = .error ⟨"duplicate rollback id: " ++ op.rollbackId⟩ := by
        unfold loadLine
        rw [hAppend]
      rw [hLoad] at h
      cases h
    | ok r' =>
      have hLoad : loadLine now s.memory op = .ok r' := by
        unfold loadLine
        rw [hAppend]
      have hStep : s.step (.append op now) = { memory := r', lines := s.lines ++ [op] } := by
        simp only [step, append, hAppend, Except.map]
      have hRest : lines.foldlM (loadLine now) r' = .ok r := by
        rw [hLoad] at h
        exact h
      rw [List.map_cons, Run.exec_cons, hStep, @ih { memory := r', lines := s.lines ++ [op] } hRest,
        List.append_assoc, List.singleton_append]

theorem load_of_nodup (now : Timestamp) (lines : List RollbackOperation) (h : s.Backed)
    (hNodup : ((s.lines ++ lines).map (·.rollbackId)).Nodup) :
    ∃ r, lines.foldlM (loadLine now) s.memory = .ok r := by
  induction lines generalizing s with
  | nil => exact ⟨s.memory, rfl⟩
  | cons op lines ih =>
    have hNotMem : op.rollbackId ∉ s.lines.map (·.rollbackId) := by
      rw [List.map_append, List.nodup_append] at hNodup
      exact fun hMem => hNodup.2.2 _ hMem _ List.mem_cons_self rfl
    have hNone : s.memory.statusOf op.rollbackId = none := by
      rw [h.listed] at hNotMem
      simpa using hNotMem
    cases hAppend : s.memory.append op now with
    | error e =>
      have hNew : s.memory.ops.contains op.rollbackId = false := by
        simpa [InMemoryRepository.statusOf, Dict.contains] using hNone
      rw [InMemoryRepository.append, hNew] at hAppend
      cases hAppend
    | ok r' =>
      have hStep : s.step (.append op now) = { memory := r', lines := s.lines ++ [op] } := by
        simp only [step, append, hAppend, Except.map]
      have hNodup' : (((s.step (.append op now)).lines ++ lines).map (·.rollbackId)).Nodup := by
        rw [hStep, List.append_assoc, List.singleton_append]
        exact hNodup
      obtain ⟨r, hLoaded⟩ := ih (h.step _) hNodup'
      refine ⟨r, ?_⟩
      rw [hStep] at hLoaded
      rw [List.foldlM_cons, loadLine, hAppend]
      exact hLoaded

theorem exec_of_opened {lines : List RollbackOperation} {now : Timestamp}
    (h : opened lines now = .ok s) :
    s = Run.exec step {} (lines.map (.append · now)) := by
  unfold opened at h
  cases hLoad : lines.foldlM (loadLine now) {} with
  | error e =>
    rw [hLoad] at h
    cases h
  | ok r =>
    rw [hLoad] at h
    cases h
    rw [exec_of_loaded lines hLoad]
    rfl

theorem appendedAs_map (id : RollbackId) (lines : List RollbackOperation) (now : Timestamp) :
    appendedAs id (lines.map (.append · now)) =
      (lines.find? (·.rollbackId = id)).map (·.status) := by
  unfold appendedAs
  induction lines with
  | nil => rfl
  | cons op lines ih =>
    rw [List.map_cons, List.findSome?_cons, List.find?_cons, RepositoryCall.appended]
    by_cases hEq : op.rollbackId = id
    · simp [hEq]
    · simpa [hEq] using ih

theorem lastWritten_map (id : RollbackId) (lines : List RollbackOperation) (now : Timestamp) :
    lastWritten id (lines.map (.append · now)) = none := by
  induction lines with
  | nil => rfl
  | cons op lines ih =>
    rw [List.map_cons]
    cases hAppended : (RepositoryCall.append op now).appended id with
    | none => rw [lastWritten_of_not hAppended, ih]
    | some a =>
      have hWrites : (lines.map (RepositoryCall.append · now)).filterMap (·.written id) = [] := by
        simp [List.filterMap_map, RepositoryCall.written]
      rw [lastWritten_of_appended hAppended, hWrites]
      rfl

theorem opened_of_backed (h : s.Backed) (now : Timestamp) :
    ∃ s', opened s.lines now = .ok s' ∧ s'.memory.Sound ∧
      ∀ id, s'.memory.statusOf id = s.lineStatus id := by
  obtain ⟨r, hLoad⟩ := load_of_nodup now s.lines backed_empty h.nodup
  have hExec := exec_of_loaded s.lines hLoad
  refine ⟨{ memory := r, lines := s.lines }, ?_, ?_, fun id => ?_⟩
  · unfold opened
    rw [show s.lines.foldlM (loadLine now) {} = .ok r from hLoad]
    rfl
  · have hSound := (backed_exec backed_empty (s.lines.map (.append · now))).sound
    rw [hExec] at hSound
    exact hSound
  · have hStatus := (@exec_of_absent _ id backed_empty rfl (s.lines.map (.append · now))).1
    rw [hExec, appendedAs_map, lastWritten_map] at hStatus
    rw [hStatus, lineStatus]
    cases s.lines.find? (·.rollbackId = id) with
    | none => rfl
    | some op => rfl

/-- **A restart loses no rollback and invents none.** After any calls the file opens, and the new
repository knows the rollbacks of the old one, each under its own id. -/
theorem opened_known (calls : List RepositoryCall) (now : Timestamp) :
    ∃ s', opened (Run.exec step {} calls).lines now = .ok s' ∧ s'.memory.Sound ∧
      ∀ id, (s'.memory.statusOf id).isSome =
        ((Run.exec step {} calls).memory.statusOf id).isSome := by
  have hBacked := backed_exec backed_empty calls
  obtain ⟨s', hOpened, hSound, hStatus⟩ := opened_of_backed hBacked now
  refine ⟨s', hOpened, hSound, fun id => Bool.eq_iff_iff.mpr ?_⟩
  rw [hStatus, lineStatus_isSome]
  exact hBacked.listed id

/-- The statuses of operations and of metadata are those of the other repository. -/
def SameStatuses (s s' : JsonlRepository) : Prop :=
  ∀ id, s'.memory.statusOf id = s.memory.statusOf id ∧
    s'.memory.metaStatusOf id = s.memory.metaStatusOf id

/-- **When statuses survive a restart.** After any calls on a repository over a file, a new
repository over the file that is then there opens, and it has the statuses of the old one iff
every rollback whose status was written after its append was last written the status it was
appended with. -/
theorem survives_iff {file : List RollbackOperation} {opening : Timestamp} {s : JsonlRepository}
    (hOpen : opened file opening = .ok s) (calls : List RepositoryCall) (reopening : Timestamp) :
    (∃ s', opened (Run.exec step s calls).lines reopening = .ok s' ∧
      SameStatuses (Run.exec step s calls) s') ↔
      StatusesReturn (file.map (.append · opening) ++ calls) := by
  have hRun : Run.exec step s calls =
      Run.exec step {} (file.map (.append · opening) ++ calls) := by
    rw [Run.exec_append, ← exec_of_opened hOpen]
  rw [hRun]
  generalize file.map (RepositoryCall.append · opening) ++ calls = all
  have hBacked := backed_exec backed_empty all
  obtain ⟨s', hReopened, hSound, hStatus⟩ := opened_of_backed hBacked reopening
  have hSame : SameStatuses (Run.exec step {} all) s' ↔ ∀ id,
      (Run.exec step {} all).lineStatus id = (Run.exec step {} all).memory.statusOf id := by
    unfold SameStatuses
    refine forall_congr' fun id => ?_
    rw [hSound.agree, hBacked.sound.agree, hStatus, and_self]
  have hUnique : (∃ s', opened (Run.exec step {} all).lines reopening = .ok s' ∧
      SameStatuses (Run.exec step {} all) s') ↔ SameStatuses (Run.exec step {} all) s' := by
    constructor
    · rintro ⟨s'', hOther, h⟩
      cases hReopened.symm.trans hOther
      exact h
    · exact fun h => ⟨s', hReopened, h⟩
  rw [hUnique, hSame]
  refine forall_congr' fun id => ?_
  obtain ⟨hCurrent, hLine⟩ := @exec_of_absent _ id backed_empty rfl all
  rw [hCurrent, hLine]
  cases hAppended : appendedAs id all with
  | none => simp [lastWritten_of_unappended hAppended]
  | some a =>
    cases lastWritten id all with
    | none => simp
    | some t => simp

/-- The operation of a rollback that is executed to its end, with the statuses that the manager
writes. -/
def executed : List RepositoryCall :=
  [.append
      { rollbackId := "rb", workflowId := "w", executionId := "e", status := .validated } 0,
    .updateStatus "rb" .prepared, .updateStatus "rb" .completed]

/-- The statement at a new file. -/
theorem survives_iff_executed :
    (∃ s', opened (Run.exec step {} executed).lines 1 = .ok s' ∧
      SameStatuses (Run.exec step {} executed) s') ↔
      StatusesReturn ([].map (.append · 0) ++ executed) :=
  @survives_iff [] 0 {} rfl executed 1

/-- A completed rollback is VALIDATED again after a restart. -/
theorem not_survives_executed :
    (Run.exec step {} executed).memory.statusOf "rb" = some .completed ∧
      ¬ ∃ s', opened (Run.exec step {} executed).lines 1 = .ok s' ∧
        SameStatuses (Run.exec step {} executed) s' := by
  refine ⟨rfl, ?_⟩
  rintro ⟨s', hOpen, hSame⟩
  cases hOpen
  exact absurd (hSame "rb").1 (by decide)

end JsonlRepository

end Neuroswarm.Rollback
