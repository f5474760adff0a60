import Neuroswarm.Checkpoints.Manager
import Neuroswarm.Lib.Run

/-!
# Checkpoint manager — the latest checkpoint, cached

`latest` prefers the cache to the repository. Both latest maps of the cache are one
thing, a map from the values of a field (execution or workflow id) to checkpoints:
`Right` says that it agrees with the repository. An insertion, a read that puts an old
checkpoint back and a retention pass keep it right under one condition each.

* `step_answersLatest_iff` — when a call keeps the answers right.
* `answersLatest_along_iff` — a run does so iff all its calls do.
-/

namespace Neuroswarm.Checkpoints

variable {V : Type}

-- ------ One latest map

namespace InMemoryRepository

/-- The active checkpoints with the value `k` in a field. -/
def activeWith (r : InMemoryRepository V) (field : Checkpoint V → String) (k : String) :
    List (Checkpoint V) :=
  r.active.values.filter (field · = k)

def newest (r : InMemoryRepository V) (field : Checkpoint V → String) (k : String) :
    Option (Checkpoint V) :=
  (r.activeWith field k).argmax Checkpoint.timestamp

end InMemoryRepository

/-- Every entry of a latest map is the newest active checkpoint. -/
def Right (r : InMemoryRepository V) (field : Checkpoint V → String)
    (slots : Dict String (Checkpoint V)) : Prop :=
  ∀ k, k ≠ "" → ∀ c, slots.get? k = some c → r.newest field k = some c

namespace Right

variable {r r' : InMemoryRepository V} {field : Checkpoint V → String}
  {slots : Dict String (Checkpoint V)} {c : Checkpoint V}

theorem set_iff (h : Right r field slots) :
    Right r field (slots.set (field c) c) ↔ (field c ≠ "" → r.newest field (field c) = some c) := by
  constructor
  · intro hSet hNonempty
    exact hSet _ hNonempty c (Dict.get?_set_self _ _ _)
  · intro hNewest k hk d hd
    rw [Dict.get?_set] at hd
    split at hd
    · next hEq =>
      cases hd
      rw [hEq]
      exact hNewest (hEq ▸ hk)
    · exact h k hk d hd

theorem insert_iff (h : Right r field slots) (hNew : r.lookup c.checkpointId = none)
    (hField : field c ≠ "") (now : Timestamp) :
    Right (r.insert c now) field (slots.set (field c) c) ↔
      ∀ d ∈ r.active.values, field d = field c → d.timestamp < c.timestamp := by
  have hNewest : (r.insert c now).newest field (field c) = some c ↔
      ∀ d ∈ r.active.values, field d = field c → d.timestamp < c.timestamp := by
    have hMax := InMemoryRepository.argmax_insert hNew (p := fun d => field d = field c)
      (by simp) now
    simp only [decide_eq_true_eq] at hMax
    exact hMax
  constructor
  · intro hSet
    exact hNewest.mp (hSet _ hField c (Dict.get?_set_self _ _ _))
  · intro hLess k hk d hd
    rw [Dict.get?_set] at hd
    split at hd
    · next hEq =>
      cases hd
      rw [hEq]
      exact hNewest.mpr hLess
    · next hNe =>
      -- the checkpoints with another value are the same as before
      unfold InMemoryRepository.newest InMemoryRepository.activeWith
      rw [InMemoryRepository.filter_insert hNew (by simpa using Ne.symm hNe)]
      exact h k hk d hd

theorem thins_iff (h : Right r field slots) (hThins : Thins r r') :
    Right r' field slots ↔
      ∀ k, k ≠ "" → ∀ c, slots.get? k = some c → (r'.active.get? c.checkpointId).isSome := by
  constructor
  · intro hRight k hk c hc
    have hMem := (List.mem_filter.mp (List.argmax_mem (hRight k hk c hc))).1
    obtain ⟨id, hId⟩ := Dict.mem_values_iff.mp hMem
    rw [r'.activeKeyed id c hId, hId]
    rfl
  · intro hActive k hk c hc
    exact hThins.argmax_active (h k hk c hc) (hActive k hk c hc)

end Right

-- ------ The answers

def IsGreatest (items : List (Checkpoint V)) : Option (Checkpoint V) → Prop
  | none => items = []
  | some c => c ∈ items ∧ ∀ d ∈ items, d.timestamp ≤ c.timestamp

theorem isGreatest_argmax (items : List (Checkpoint V)) :
    IsGreatest items (items.argmax Checkpoint.timestamp) := by
  cases h : items.argmax Checkpoint.timestamp with
  | none => exact List.argmax_eq_none.mp h
  | some c => exact ⟨List.argmax_mem h, fun d hd => List.le_of_mem_argmax hd h⟩

namespace CheckpointManager

/-- `latest` answers like the repository: the newest active checkpoint. -/
structure AnswersLatest (m : CheckpointManager V) : Prop where
  execution : ∀ e, e ≠ "" → ∀ w, m.latest (some e) w = .ok (m.repository.latestForExecution e) ∧
    IsGreatest (m.repository.activeWith Checkpoint.executionId e)
      (m.repository.latestForExecution e)
  workflow : ∀ w, w ≠ "" → m.latest none (some w) = .ok (m.repository.latestForWorkflow w) ∧
    IsGreatest (m.repository.activeWith Checkpoint.workflowId w)
      (m.repository.latestForWorkflow w)

/-- An entry of one of the latest maps. -/
def Slotted (m : CheckpointManager V) (c : Checkpoint V) : Prop :=
  (∃ e, e ≠ "" ∧ m.cache.latestExecution.get? e = some c) ∨
  ∃ w, w ≠ "" ∧ m.cache.latestWorkflow.get? w = some c

/-- When the answers stay right: a checkpoint that is accepted is newer than every active one
of its execution or workflow, a stored checkpoint that is put into the cache again is the
latest of its execution and workflow, and retention leaves what the latest maps hold. -/
structure Stays (hashes : Hashes V) (m : CheckpointManager V) (op : ManagerOp V) : Prop where
  accepted : ∀ c, m.offered hashes op = some c → m.Accepts hashes c →
    ∀ d ∈ m.repository.active.values,
      d.executionId = c.executionId ∨ d.workflowId = c.workflowId → d.timestamp < c.timestamp
  recalled : ∀ c, m.recalled hashes op = some c →
    (c.executionId ≠ "" → m.repository.latestForExecution c.executionId = some c) ∧
    (c.workflowId ≠ "" → m.repository.latestForWorkflow c.workflowId = some c)
  retained : ∀ policy now clock, op = .applyRetention policy now clock → ∀ c, m.Slotted c →
    (((policy.apply now clock).after m.repository).active.get? c.checkpointId).isSome

variable {hashes : Hashes V} {m : CheckpointManager V}

theorem answersLatest_iff : m.AnswersLatest ↔
    Right m.repository Checkpoint.executionId m.cache.latestExecution ∧
      Right m.repository Checkpoint.workflowId m.cache.latestWorkflow := by
  constructor
  · intro h
    refine ⟨fun e he c hc => ?_, fun w hw c hc => ?_⟩
    · have hAnswer := (h.execution e he none).1
      simp only [latest, truthy, ne_eq, he, not_false_eq_true, decide_true, if_true,
        CheckpointCache.latestForExecution, Option.getD_some, hc] at hAnswer
      exact (Except.ok.inj hAnswer).symm
    · have hAnswer := (h.workflow w hw).1
      simp only [latest, truthy, Bool.false_eq_true, if_false, ne_eq, hw, not_false_eq_true,
        decide_true, if_true, CheckpointCache.latestForWorkflow, Option.getD_some, hc] at hAnswer
      exact (Except.ok.inj hAnswer).symm
  · rintro ⟨hExecution, hWorkflow⟩
    refine ⟨fun e he w => ⟨?_, isGreatest_argmax _⟩, fun w hw => ⟨?_, isGreatest_argmax _⟩⟩
    · simp only [latest, truthy, ne_eq, he, not_false_eq_true, decide_true, if_true,
        CheckpointCache.latestForExecution, Option.getD_some]
      split
      · next c hc => exact congrArg Except.ok (hExecution e he c hc).symm
      · rfl
    · simp only [latest, truthy, Bool.false_eq_true, if_false, ne_eq, hw, not_false_eq_true,
        decide_true, if_true, CheckpointCache.latestForWorkflow, Option.getD_some]
      split
      · next c hc => exact congrArg Except.ok (hWorkflow w hw c hc).symm
      · rfl

-- ------ Steps and runs

theorem stays_iff_of_stored {op : ManagerOp V} {c : Checkpoint V}
    (hOffered : m.offered hashes op = some c) (hAccepts : m.Accepts hashes c)
    (hRecalled : m.recalled hashes op = none) : m.Stays hashes op ↔
      ∀ d ∈ m.repository.active.values,
        d.executionId = c.executionId ∨ d.workflowId = c.workflowId →
          d.timestamp < c.timestamp := by
  refine ⟨fun hStays => hStays.accepted c hOffered hAccepts, fun hLess => ?_⟩
  refine ⟨fun d hd _ => ?_, fun d hd => ?_, ?_⟩
  · rw [hOffered] at hd
    cases hd
    exact hLess
  · rw [hRecalled] at hd
    cases hd
  · rintro policy now clock rfl
    cases hOffered

theorem stays_iff_of_recalled {op : ManagerOp V} {c : Checkpoint V}
    (hOffered : m.offered hashes op = none) (hRecalled : m.recalled hashes op = some c) :
    m.Stays hashes op ↔
      (c.executionId ≠ "" → m.repository.latestForExecution c.executionId = some c) ∧
      (c.workflowId ≠ "" → m.repository.latestForWorkflow c.workflowId = some c) := by
  refine ⟨fun hStays => hStays.recalled c hRecalled, fun hNewest => ?_⟩
  refine ⟨fun d hd => ?_, fun d hd => ?_, ?_⟩
  · rw [hOffered] at hd
    cases hd
  · rw [hRecalled] at hd
    cases hd
    exact hNewest
  · rintro policy now clock rfl
    cases hRecalled

theorem stays_applyRetention_iff {policy : RetentionPolicy} {now : Timestamp}
    {clock : CheckpointId → Timestamp} :
    m.Stays hashes (.applyRetention policy now clock) ↔ ∀ c, m.Slotted c →
      (((policy.apply now clock).after m.repository).active.get? c.checkpointId).isSome := by
  refine ⟨fun hStays => hStays.retained policy now clock rfl, fun hKept => ?_⟩
  refine ⟨fun d hd => (nomatch hd), fun d hd => (nomatch hd), ?_⟩
  intro policy' now' clock' hEq
  cases hEq
  exact hKept

/-- **When a call keeps the answers right.** -/
theorem step_answersLatest_iff (h : m.AnswersLatest) (op : ManagerOp V) :
    (m.step hashes op).AnswersLatest ↔ m.Stays hashes op := by
  rw [answersLatest_iff]
  obtain ⟨hExecution, hWorkflow⟩ := answersLatest_iff.mp h
  cases m.step_effect hashes op with
  | stored c now hOffered hAccepts hRepository hPuts hRecalled =>
    obtain ⟨hExecutionId, hWorkflowId⟩ := CheckpointValidator.ids_of_valid hAccepts.1
    rw [hRepository, hPuts.latestExecution, hPuts.latestWorkflow,
      hExecution.insert_iff hAccepts.2 hExecutionId, hWorkflow.insert_iff hAccepts.2 hWorkflowId,
      stays_iff_of_stored hOffered hAccepts hRecalled]
    constructor
    · rintro ⟨hByExecution, hByWorkflow⟩ d hd (hSame | hSame)
      · exact hByExecution d hd hSame
      · exact hByWorkflow d hd hSame
    · intro hLess
      exact ⟨fun d hd hSame => hLess d hd (.inl hSame), fun d hd hSame => hLess d hd (.inr hSame)⟩
  | recalled c hRecalled hRepository hPuts hOffered =>
    rw [hRepository, hPuts.latestExecution, hPuts.latestWorkflow, hExecution.set_iff,
      hWorkflow.set_iff, stays_iff_of_recalled hOffered hRecalled]
    rfl
  | retained policy now clock hOp =>
    subst hOp
    have hThins := Thins.apply policy now clock m.repository
    show Right ((policy.apply now clock).after m.repository) _ m.cache.latestExecution ∧
      Right ((policy.apply now clock).after m.repository) _ m.cache.latestWorkflow ↔ _
    rw [hExecution.thins_iff hThins, hWorkflow.thins_iff hThins, stays_applyRetention_iff]
    constructor
    · rintro ⟨hByExecution, hByWorkflow⟩ c (⟨e, he, hc⟩ | ⟨w, hw, hc⟩)
      · exact hByExecution e he c hc
      · exact hByWorkflow w hw c hc
    · intro hKept
      exact ⟨fun e he c hc => hKept c (.inl ⟨e, he, hc⟩),
        fun w hw c hc => hKept c (.inr ⟨w, hw, hc⟩)⟩
  | quiet hQuiet hOffered hRecalled hOp =>
    rw [hQuiet.repository, hQuiet.latestExecution, hQuiet.latestWorkflow]
    refine iff_of_true ⟨hExecution, hWorkflow⟩ ⟨fun d hd hAccepts => ?_, fun d hd => ?_, ?_⟩
    · exact absurd hAccepts (hOffered d hd)
    · rw [hRecalled] at hd
      cases hd
    · intro policy now clock hEq
      exact absurd hEq (hOp policy now clock)

/-- **The cache does not change the answer** as long as no old checkpoint is put back, no
checkpoint is late and no cached one is archived; and only then. -/
theorem answersLatest_along_iff (hashes : Hashes V) (repository : InMemoryRepository V)
    (maxEntries : Nat) (ops : List (ManagerOp V)) :
    Run.Along (step hashes) AnswersLatest { repository, cache := { maxEntries } } ops ↔
      Run.Every (step hashes) (Stays hashes) { repository, cache := { maxEntries } } ops := by
  refine Run.along_iff_every (fun _ h => h) ?_ ?_ ?_ ops
  · intro m op h hStays
    exact (step_answersLatest_iff h op).mpr hStays
  · intro m op h hNot hStep
    exact hNot ((step_answersLatest_iff h op).mp hStep)
  · rw [answersLatest_iff]
    exact ⟨fun _ _ _ h => (nomatch h), fun _ _ _ h => (nomatch h)⟩

/-- A checkpoint of the execution `e`, without snapshots. -/
def plain (checkpointId : CheckpointId) (timestamp : Timestamp) : Checkpoint Unit :=
  { checkpointId, workflowId := "w", executionId := "e", timestamp, checksum := "h", rest := () }

/-- Two checkpoints; the older one is restored. -/
theorem not_answersLatest_restored :
    ¬ Run.Along (step { checkpoint := fun _ => "h", execution := fun _ => "h" }) AnswersLatest {}
      [.checkpoint (plain "c1" 1) 1, .checkpoint (plain "c2" 2) 2, .restore "c1"] := by
  intro h
  have hAnswer := (h.exec.execution "e" (by decide) none).1
  revert hAnswer
  decide

end CheckpointManager

end Neuroswarm.Checkpoints
