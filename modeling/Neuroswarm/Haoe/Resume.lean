import Mathlib.Logic.Function.Iterate
import Neuroswarm.Haoe.WorkflowExecutor

/-!
# HAOE — resuming a workflow

A process that stops leaves the checkpoint store behind, and a later execution of the graph
begins with the nodes found there. It takes over their results, but not the entries
`result:<name>` and `result:<id>` of the context; and a node that is no checkpoint runs
again.

* `Workflow.exists_over` — every execution comes to an end.
* `Workflow.lost_entry` — the entry of a restored node is missing for ever.
* `Workflow.resumes_like_uninterrupted` — when resuming is as good as not having been interrupted.
-/

namespace Neuroswarm.Haoe

open Swarm (NodeId Networkx)

def ExecutorPhase.active {V : Type*} : ExecutorPhase V → Option NodeId
  | .returned nodeId _ _ => some nodeId
  | .save nodeId _ _ => some nodeId
  | .complete nodeId _ => some nodeId
  | _ => none

namespace Workflow

variable {M V : Type*} (w : Workflow M V)

-- ------ Deterministic runs

abbrev Functions (V : Type*) := NodeId → Dict String V → Answer V

def answer (fns : Functions V) (s : ExecutorState V) : Answer V :=
  match s.phase with
  | .attempt nodeId _ _ => fns nodeId s.context
  | _ => .raised false

def next (fns : Functions V) (s : ExecutorState V) : ExecutorState V :=
  w.proceed (answer fns s) s

/-- The state after `n` actions of an execution that finds these checkpoints. -/
def run (nx : Option Networkx) (fns : Functions V) (saved : Dict NodeId V) (n : Nat) :
    ExecutorState V :=
  (w.next fns)^[n] (w.start nx saved)

def Over (s : ExecutorState V) : Prop := ∃ raised, s.phase = .ended raised

def CallsNext (s : ExecutorState V) (nodeId : NodeId) : Prop :=
  s.cancelled = false ∧ ∃ attempts rest, s.phase = .attempt nodeId attempts rest

def Done (s : ExecutorState V) (nodeId : NodeId) : Prop :=
  nodeId ∈ s.completed ∨ s.phase.active = some nodeId

variable {w} {nx : Option Networkx} {fns : Functions V} {saved : Dict NodeId V}
  {s : ExecutorState V} {n : Nat}

theorem run_succ : w.run nx fns saved (n + 1) = w.next fns (w.run nx fns saved n) :=
  Function.iterate_succ_apply' _ _ _

theorem next_of_over (h : Over s) : w.next fns s = s := by
  obtain ⟨raised, hPhase⟩ := h
  unfold next proceed
  rw [hPhase]

theorem run_of_over {k : Nat} (h : Over (w.run nx fns saved n)) (hLe : n ≤ k) :
    w.run nx fns saved k = w.run nx fns saved n := by
  induction hLe with
  | refl => rfl
  | step _ ih => rw [run_succ, ih, next_of_over h]

theorem run_of_invariant {I : ExecutorState V → Prop} (h0 : I (w.start nx saved))
    (hStep : ∀ s s', I s → w.Proceeds (answer fns s) s s' → I s') (n : Nat) :
    I (w.run nx fns saved n) := by
  induction n with
  | zero => exact h0
  | succ n ih =>
    rw [run_succ]
    exact hStep _ _ ih (w.proceeds _ _)

-- ------ Every execution comes to an end

variable (w fns) in
/-- The execution comes to an end. -/
def Ends (s : ExecutorState V) : Prop := ∃ n, Over ((w.next fns)^[n] s)

theorem Ends.of_next (h : w.Ends fns (w.next fns s)) : w.Ends fns s := by
  obtain ⟨n, hOver⟩ := h
  exact ⟨n + 1, hOver⟩

theorem Ends.of_over (h : Over s) : w.Ends fns s := ⟨0, h⟩

theorem Ends.of_proceeds (h : ∀ s', w.Proceeds (answer fns s) s s' → w.Ends fns s') :
    w.Ends fns s :=
  .of_next (h _ (w.proceeds _ _))

theorem ends_of_returned {nodeId : NodeId} {result : V} {rest : List NodeId}
    (hPhase : s.phase = .returned nodeId result rest)
    (hThen : ∀ s', s'.phase = .batch rest → s'.completed = s.completed ++ [nodeId] →
      w.Ends fns s') : w.Ends fns s := by
  refine .of_next (.of_next (.of_next ?_))
  refine hThen _ ?_ ?_
  · simp [next, proceed, hPhase]
  · simp [next, proceed, hPhase]

theorem ends_of_attempt {nodeId : NodeId} {attempts : Nat} {rest : List NodeId}
    (hPhase : s.phase = .attempt nodeId attempts rest)
    (hThen : ∀ s', s'.phase = .batch rest → s'.completed = s.completed ++ [nodeId] →
      w.Ends fns s') : w.Ends fns s := by
  -- by induction on the attempts that are left
  induction hLeft : (w.maxAttempts nodeId - attempts).toNat using Nat.strong_induction_on
    generalizing s attempts with
  | _ left ih =>
    refine .of_proceeds fun s' hProceeds => ?_
    cases hProceeds with
    | stop => exact .of_over ⟨true, rfl⟩
    | returns hPhase' =>
      rw [hPhase] at hPhase'
      cases hPhase'
      exact ends_of_returned rfl hThen
    | retry hPhase' hAttempts =>
      rw [hPhase] at hPhase'
      cases hPhase'
      refine ih _ ?_ rfl hThen rfl
      push_cast
      omega
    | ended hPhase' | finish hPhase' | round hPhase' | endRound hPhase' | enter hPhase'
    | noFn hPhase' | write hPhase' | save hPhase' | complete hPhase' =>
      rw [hPhase] at hPhase'
      cases hPhase'

theorem ends_of_batch {ready : List NodeId} (hPhase : s.phase = .batch ready)
    (hThen : ∀ s', s'.phase = .loop → s'.completed = s.completed ++ ready → w.Ends fns s') :
    w.Ends fns s := by
  induction ready generalizing s with
  | nil =>
    refine .of_next (hThen _ ?_ ?_)
    · simp [next, proceed, hPhase]
    · simp [next, proceed, hPhase]
  | cons nodeId rest ih =>
    have hRest : ∀ s', s'.phase = .batch rest → s'.completed = s.completed ++ [nodeId] →
        w.Ends fns s' := by
      intro s' hPhase' hCompleted
      refine ih hPhase' fun s'' hLoop hCompleted' => hThen s'' hLoop ?_
      rw [hCompleted', hCompleted, List.append_assoc]
      rfl
    refine .of_proceeds fun s' hProceeds => ?_
    cases hProceeds with
    | enter hPhase' =>
      rw [hPhase] at hPhase'
      cases hPhase'
      exact ends_of_attempt rfl hRest
    | noFn hPhase' =>
      rw [hPhase] at hPhase'
      cases hPhase'
      exact ends_of_returned rfl hRest
    | ended hPhase' | finish hPhase' | round hPhase' | endRound hPhase' | stop hPhase'
    | returns hPhase' | retry hPhase' | write hPhase' | save hPhase' | complete hPhase' =>
      rw [hPhase] at hPhase'
      cases hPhase'

theorem ends_of_loop (hPhase : s.phase = .loop) : w.Ends fns s := by
  -- by induction on the nodes that are left
  induction hLeft : w.graph.nodes.size - s.completed.length using Nat.strong_induction_on
    generalizing s with
  | _ left ih =>
    refine .of_proceeds fun s' hProceeds => ?_
    cases hProceeds with
    | finish => exact .of_over ⟨_, rfl⟩
    | round hPhase' hUnfinished hReady hNe =>
      refine ends_of_batch rfl fun s'' hLoop hCompleted => ih _ ?_ hLoop rfl
      have hPos := List.length_pos_of_ne_nil hNe
      rw [hCompleted, List.length_append]
      dsimp only
      omega
    | ended hPhase' | endRound hPhase' | enter hPhase' | noFn hPhase' | stop hPhase'
    | returns hPhase' | retry hPhase' | write hPhase' | save hPhase' | complete hPhase' =>
      rw [hPhase] at hPhase'
      cases hPhase'

/-- **Every execution comes to an end.** -/
theorem exists_over (w : Workflow M V) (nx : Option Networkx) (fns : Functions V)
    (saved : Dict NodeId V) : ∃ n, Over (w.run nx fns saved n) := by
  have hEnds : w.Ends fns (w.start nx saved) := by
    unfold start
    dsimp only
    split
    · exact ends_of_loop rfl
    · exact .of_over ⟨true, rfl⟩
  exact hEnds

-- ------ What an action does to nodes, context and store

variable {answer : Answer V} {s' : ExecutorState V} {nodeId : NodeId} {key : String}

theorem Proceeds.active (h : w.Proceeds answer s s') (hActive : s'.phase.active = some nodeId) :
    s.phase.active = some nodeId ∨
      nodeId ∈ s.phase.pending ∧ (w.hasFn nodeId = true → CallsNext s nodeId) := by
  cases h with
  | ended => exact .inl hActive
  | noFn hPhase hFn =>
    cases hActive
    rw [hPhase]
    exact .inr ⟨List.mem_cons_self .., fun h => absurd h (Bool.eq_false_iff.mp hFn)⟩
  | returns hPhase hCancelled =>
    cases hActive
    refine .inr ⟨?_, fun _ => ⟨hCancelled, _, _, hPhase⟩⟩
    rw [hPhase]
    exact List.mem_cons_self ..
  | write hPhase =>
    rw [hPhase]
    exact .inl hActive
  | save hPhase =>
    rw [hPhase]
    exact .inl hActive
  | _ => cases hActive

theorem Proceeds.completed (h : w.Proceeds answer s s') (hMem : nodeId ∈ s'.completed) :
    nodeId ∈ s.completed ∨ s.phase.active = some nodeId := by
  cases h with
  | complete hPhase =>
    obtain hOld | hNew := List.mem_append.mp hMem
    · exact .inl hOld
    · rw [hPhase, List.mem_singleton.mp hNew]
      exact .inr rfl
  | _ => exact .inl hMem

theorem Proceeds.context (h : w.Proceeds answer s s') :
    s'.context = s.context ∨ ∃ active result rest, s.phase = .returned active result rest ∧
      s'.phase = .save active result rest ∧
      s'.context =
        (s.context.set (resultKey (w.name active)) result).set (resultKey active) result := by
  cases h with
  | write hPhase => exact .inr ⟨_, _, _, hPhase, rfl, rfl⟩
  | _ => exact .inl rfl

theorem Proceeds.store (h : w.Proceeds answer s s') :
    s'.saved = s.saved ∨ ∃ active result rest, s.phase = .save active result rest ∧
      s'.saved = s.saved.set active result := by
  cases h with
  | @save active result rest hPhase =>
    dsimp only
    split
    · exact .inr ⟨active, result, rest, hPhase, rfl⟩
    · exact .inl rfl
  | _ => exact .inl rfl

theorem Proceeds.get?_isSome (h : w.Proceeds answer s s') (hKey : (s.context.get? key).isSome) :
    (s'.context.get? key).isSome := by
  obtain hSame | ⟨active, result, rest, -, -, hContext⟩ := h.context
  · rwa [hSame]
  · rw [hContext, Dict.get?_set, Dict.get?_set]
    split
    · rfl
    · split
      · rfl
      · exact hKey

theorem resultKey_inj {k k' : String} : resultKey k = resultKey k' ↔ k = k' :=
  String.append_right_inj _

-- ------ Invariants of a run

/-- Nodes that wait or have returned are nodes of the graph. -/
structure InGraph (w : Workflow M V) (s : ExecutorState V) : Prop where
  pending : w.PendingReady s
  active : ∀ nodeId, s.phase.active = some nodeId → nodeId ∈ w.graph.ids

theorem active_start : (w.start nx saved).phase.active = none := by
  unfold start
  dsimp only
  split <;> rfl

theorem inGraph_start : w.InGraph (w.start nx saved) where
  pending := pendingReady_start w nx saved
  active := fun nodeId h => by
    rw [active_start] at h
    cases h

theorem InGraph.proceeds (h : w.InGraph s) (hProceeds : w.Proceeds answer s s') :
    w.InGraph s' := by
  refine ⟨h.pending.proceeds hProceeds, fun nodeId hActive => ?_⟩
  obtain hOld | ⟨hWaits, -⟩ := hProceeds.active hActive
  · exact h.active nodeId hOld
  · exact (h.pending nodeId hWaits).node

/-- A node that was saved, or is about to be, has its entry in the context. -/
structure Entered (w : Workflow M V) (s : ExecutorState V) : Prop where
  inGraph : w.InGraph s
  saved : ∀ nodeId, (s.saved.get? nodeId).isSome →
    nodeId ∈ w.graph.ids ∧ (s.context.get? (resultKey nodeId)).isSome
  saving : ∀ nodeId result rest, s.phase = .save nodeId result rest →
    (s.context.get? (resultKey nodeId)).isSome

theorem entered_start : w.Entered (w.start nx .empty) where
  inGraph := inGraph_start
  saved := fun nodeId h => by
    have hEmpty : (w.start nx (.empty : Dict NodeId V)).saved = .empty := by
      unfold start
      dsimp only
      split <;> rfl
    rw [hEmpty] at h
    cases h
  saving := fun nodeId result rest hPhase => by
    have hActive : (w.start nx (.empty : Dict NodeId V)).phase.active = none := active_start
    rw [hPhase] at hActive
    cases hActive

theorem Entered.proceeds (h : w.Entered s) (hProceeds : w.Proceeds answer s s') :
    w.Entered s' := by
  refine ⟨h.inGraph.proceeds hProceeds, fun nodeId hSaved => ?_, ?_⟩
  · obtain hSame | ⟨active, result, rest, hPhase, hStore⟩ := hProceeds.store
    · rw [hSame] at hSaved
      obtain ⟨hNode, hKey⟩ := h.saved nodeId hSaved
      exact ⟨hNode, hProceeds.get?_isSome hKey⟩
    · rw [hStore, Dict.get?_set] at hSaved
      split at hSaved
      · next hEq =>
        subst hEq
        refine ⟨h.inGraph.active nodeId ?_, hProceeds.get?_isSome (h.saving _ _ _ hPhase)⟩
        rw [hPhase]
        rfl
      · obtain ⟨hNode, hKey⟩ := h.saved nodeId hSaved
        exact ⟨hNode, hProceeds.get?_isSome hKey⟩
  · intro nodeId result rest hPhase
    cases hProceeds with
    | ended hOver =>
      rw [hOver] at hPhase
      cases hPhase
    | write =>
      cases hPhase
      simp
    | _ => cases hPhase

/-- The node is restored, and its entry in the context is not. -/
structure Lost (w : Workflow M V) (nodeId : NodeId) (s : ExecutorState V) : Prop where
  inGraph : w.InGraph s
  completed : nodeId ∈ s.completed
  pending : nodeId ∉ s.phase.pending
  active : s.phase.active ≠ some nodeId
  entry : s.context.get? (resultKey nodeId) = none

def Unnamed (w : Workflow M V) (nodeId : NodeId) : Prop :=
  ∀ other ∈ w.graph.ids, other ≠ nodeId → w.name other ≠ nodeId

theorem Lost.proceeds (h : w.Lost nodeId s) (hUnnamed : w.Unnamed nodeId)
    (hProceeds : w.Proceeds answer s s') : w.Lost nodeId s' := by
  refine ⟨h.inGraph.proceeds hProceeds, ?_, ?_, ?_, ?_⟩
  · obtain ⟨-, hCompleted, -⟩ | ⟨-, hCompleted, -⟩ := hProceeds.pending
    · rw [hCompleted]
      exact h.completed
    · exact hCompleted h.completed
  · obtain ⟨hPending, -, -⟩ | ⟨hPending, -, -⟩ := hProceeds.pending
    · rw [hPending]
      exact fun hMem => (mem_readyNodes_iff.mp hMem).2.1 h.completed
    · exact fun hMem => h.pending (hPending hMem)
  · intro hActive
    obtain hOld | ⟨hWaits, -⟩ := hProceeds.active hActive
    · exact h.active hOld
    · exact h.pending hWaits
  · obtain hSame | ⟨other, result, rest, hPhase, -, hContext⟩ := hProceeds.context
    · rw [hSame]
      exact h.entry
    · have hOther : s.phase.active = some other := by
        rw [hPhase]
        rfl
      have hNe : other ≠ nodeId := by
        rintro rfl
        exact h.active hOther
      have hName := hUnnamed other (h.inGraph.active other hOther) hNe
      rw [hContext, Dict.get?_set_ne _ _ fun hKey => hNe (resultKey_inj.mp hKey).symm,
        Dict.get?_set_ne _ _ fun hKey => hName (resultKey_inj.mp hKey).symm]
      exact h.entry

/-- **A restored node's entry stays away**, when the graph did not begin with it and no other
node writes under its id. -/
theorem lost_entry (hSaved : (saved.get? nodeId).isSome) (hNode : nodeId ∈ w.graph.ids)
    (hAbsent : w.graph.context.get? (resultKey nodeId) = none) (hUnnamed : w.Unnamed nodeId)
    (n : Nat) : (w.run nx fns saved n).context.get? (resultKey nodeId) = none := by
  by_cases hDag : w.graph.isDag nx = true
  · have hContains : w.graph.nodes.contains nodeId = true := Dict.mem_keys_iff.mp hNode
    have hStart : w.Lost nodeId (w.start nx saved) := by
      refine ⟨inGraph_start, ?_, ?_, ?_, ?_⟩
      · rw [start, if_pos hDag]
        refine Dict.mem_keys_iff.mpr ?_
        rw [Dict.get?_filterKeys, if_pos hContains]
        exact hSaved
      · rw [start, if_pos hDag]
        exact List.not_mem_nil
      · rw [active_start]
        exact fun h => nomatch h
      · rw [start, if_pos hDag]
        exact hAbsent
    exact (run_of_invariant hStart (fun s s' h => h.proceeds hUnnamed) n).entry
  · have hOver : Over (w.run nx fns saved 0) := by
      refine ⟨true, ?_⟩
      show (w.start nx saved).phase = _
      rw [start, if_neg hDag]
    rw [run_of_over hOver (Nat.zero_le n)]
    show (w.start nx saved).context.get? _ = none
    rw [start, if_neg hDag]
    exact hAbsent

-- ------ Functions that were called

theorem hasFn_of_callsNext (h : CallsNext (w.run nx fns saved n) nodeId) :
    w.hasFn nodeId = true := by
  suffices hAll : ∀ nodeId attempts rest,
      (w.run nx fns saved n).phase = .attempt nodeId attempts rest → w.hasFn nodeId = true by
    obtain ⟨-, attempts, rest, hPhase⟩ := h
    exact hAll nodeId attempts rest hPhase
  refine run_of_invariant (I := fun s => ∀ nodeId attempts rest,
    s.phase = .attempt nodeId attempts rest → w.hasFn nodeId = true) ?_ ?_ n
  · intro nodeId attempts rest hPhase
    unfold start at hPhase
    dsimp only at hPhase
    split at hPhase <;> cases hPhase
  · intro s s' hFn hProceeds nodeId attempts rest hPhase
    cases hProceeds with
    | ended => exact hFn nodeId attempts rest hPhase
    | enter _ hEnter =>
      cases hPhase
      exact hEnter
    | retry hAttempt =>
      cases hPhase
      exact hFn _ _ _ hAttempt
    | _ => cases hPhase

theorem exists_callsNext_of_done (hFn : w.hasFn nodeId = true)
    (hDone : Done (w.run nx fns .empty n) nodeId) :
    ∃ i < n, CallsNext (w.run nx fns .empty i) nodeId := by
  induction n with
  | zero =>
    have hStart : (w.start nx (.empty : Dict NodeId V)).completed = [] := by
      unfold start
      dsimp only
      split <;> rfl
    obtain hCompleted | hActive := hDone
    · change nodeId ∈ (w.start nx (.empty : Dict NodeId V)).completed at hCompleted
      rw [hStart] at hCompleted
      cases hCompleted
    · change (w.start nx (.empty : Dict NodeId V)).phase.active = some nodeId at hActive
      rw [active_start] at hActive
      cases hActive
  | succ n ih =>
    have hProceeds := w.proceeds (answer fns (w.run nx fns .empty n)) (w.run nx fns .empty n)
    rw [run_succ] at hDone
    have hBefore : Done (w.run nx fns .empty n) nodeId ∨
        CallsNext (w.run nx fns .empty n) nodeId := by
      obtain hCompleted | hActive := hDone
      · exact .inl (hProceeds.completed hCompleted)
      · obtain hOld | ⟨-, hCalled⟩ := hProceeds.active hActive
        · exact .inl (.inr hOld)
        · exact .inr (hCalled hFn)
    obtain hOld | hCalls := hBefore
    · obtain ⟨i, hi, hCalls⟩ := ih hOld
      exact ⟨i, Nat.lt_succ_of_lt hi, hCalls⟩
    · exact ⟨n, Nat.lt_succ_self n, hCalls⟩

-- ------ Resuming

/-- The process stops after `n` actions. -/
def stopped (w : Workflow M V) (nx : Option Networkx) (fns : Functions V) (n : Nat) :
    ExecutorState V :=
  w.run nx fns .empty n

/-- The execution that finds the checkpoints of the stopped one ends like the one that was not
stopped, with the same results and context, and it does not call a function that had returned. -/
def Resumes (w : Workflow M V) (nx : Option Networkx) (fns : Functions V) (n : Nat) : Prop :=
  ∃ k j,
    Over (w.run nx fns .empty k) ∧ Over (w.run nx fns (w.stopped nx fns n).saved j) ∧
    (w.run nx fns (w.stopped nx fns n).saved j).phase = (w.run nx fns .empty k).phase ∧
    (∀ nodeId, (w.run nx fns (w.stopped nx fns n).saved j).results.get? nodeId =
      (w.run nx fns .empty k).results.get? nodeId) ∧
    (∀ key, (w.run nx fns (w.stopped nx fns n).saved j).context.get? key =
      (w.run nx fns .empty k).context.get? key) ∧
    ∀ i nodeId, CallsNext (w.run nx fns (w.stopped nx fns n).saved i) nodeId →
      ¬ Done (w.stopped nx fns n) nodeId

structure Untouched (w : Workflow M V) (nx : Option Networkx) (fns : Functions V) (n : Nat) :
    Prop where
  saved : (w.stopped nx fns n).saved = .empty
  functions : ∀ nodeId, w.hasFn nodeId = true → ¬ Done (w.stopped nx fns n) nodeId

/-- The entry of a node cannot come from elsewhere. -/
structure Visible (w : Workflow M V) (nodeId : NodeId) : Prop where
  absent : w.graph.context.get? (resultKey nodeId) = none
  unnamed : w.Unnamed nodeId

/-- Checkpoints are saved, but the entry of each may come from elsewhere: the graph begins with
it, or another node is named like the id. -/
structure Hidden (w : Workflow M V) (nx : Option Networkx) (fns : Functions V) (n : Nat) :
    Prop where
  saved : (w.stopped nx fns n).saved ≠ .empty
  invisible : ∀ nodeId, ((w.stopped nx fns n).saved.get? nodeId).isSome → ¬ w.Visible nodeId

theorem Untouched.resumes (h : w.Untouched nx fns n) : w.Resumes nx fns n := by
  obtain ⟨k, hOver⟩ := w.exists_over nx fns .empty
  unfold Resumes
  rw [h.saved]
  refine ⟨k, k, hOver, hOver, rfl, fun _ => rfl, fun _ => rfl, fun i nodeId hCalls => ?_⟩
  exact h.functions nodeId (hasFn_of_callsNext hCalls)

theorem not_resumes_of_visible (hSaved : ((w.stopped nx fns n).saved.get? nodeId).isSome)
    (hVisible : w.Visible nodeId) : ¬ w.Resumes nx fns n := by
  rintro ⟨k, j, hOver, -, -, -, hContext, -⟩
  have hEntered : ∀ m, w.Entered (w.run nx fns .empty m) :=
    run_of_invariant entered_start fun s s' h => h.proceeds
  obtain ⟨hNode, hKey⟩ := (hEntered n).saved nodeId hSaved
  have hLost : (w.run nx fns (w.stopped nx fns n).saved j).context.get? (resultKey nodeId) =
      none := lost_entry hSaved hNode hVisible.absent hVisible.unnamed j
  -- the entry is there in the end of the execution that was not stopped
  have hLater : ∀ m, n ≤ m →
      ((w.run nx fns .empty m).context.get? (resultKey nodeId)).isSome := by
    intro m hLe
    induction hLe with
    | refl => exact hKey
    | step _ ih =>
      rw [run_succ]
      exact (w.proceeds _ _).get?_isSome ih
  have hEnd : ((w.run nx fns .empty k).context.get? (resultKey nodeId)).isSome := by
    have hMax := hLater (max n k) (le_max_left n k)
    rwa [run_of_over hOver (le_max_right n k)] at hMax
  rw [← hContext, hLost] at hEnd
  cases hEnd

/-- **Resuming is as good as not having been interrupted** as long as nothing has happened that
another execution could notice; and only then, unless the entries of all checkpoints are
hidden. -/
theorem resumes_like_uninterrupted (w : Workflow M V) (nx : Option Networkx)
    (fns : Functions V) (n : Nat) :
    (w.Untouched nx fns n → w.Resumes nx fns n) ∧
      (w.Resumes nx fns n → w.Untouched nx fns n ∨ w.Hidden nx fns n) := by
  refine ⟨fun h => h.resumes, fun hResumes => ?_⟩
  by_cases hSaved : (w.stopped nx fns n).saved = .empty
  · refine .inl ⟨hSaved, fun nodeId hFn hDone => ?_⟩
    obtain ⟨i, -, hCalls⟩ := exists_callsNext_of_done hFn hDone
    obtain ⟨k, j, -, -, -, -, -, hOnce⟩ := hResumes
    rw [hSaved] at hOnce
    exact hOnce i nodeId hCalls hDone
  · exact .inr ⟨hSaved, fun nodeId hMem hVisible => not_resumes_of_visible hMem hVisible hResumes⟩

/-- A checkpoint `a`, and a node `b` that reads its result. -/
def reader : Workflow Unit Nat :=
  { graph :=
      { graphId := "g"
        nodes :=
          (Dict.empty.set "a"
            { nodeId := "a", name := "a", metadata := (), isCheckpoint := true }).set
            "b" { nodeId := "b", name := "b", metadata := () }
        edges := [{ src := "a", dst := "b" }]
        context := .empty }
    hasFn := fun _ => true
    null := 0 }

def readerFns : Functions Nat := fun nodeId context =>
  if nodeId = "a" then .returned 7 else .returned ((context.get? "result:a").getD 0)

/-- The process stops after `a`, and `b` does not find its result any more. -/
theorem not_resumes_reader : ¬ reader.Resumes none readerFns 6 := by
  have hSaved : ((reader.stopped none readerFns 6).saved.get? "a").isSome := by decide
  have hUnnamed : reader.Unnamed "a" := by
    unfold Unnamed
    decide
  have hVisible : reader.Visible "a" := ⟨by decide, hUnnamed⟩
  exact not_resumes_of_visible hSaved hVisible

end Workflow

end Neuroswarm.Haoe
