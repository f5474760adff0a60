import Neuroswarm.MetaOrchestrator.Executions

/-!
# Meta orchestrator — `max_parallel`

`NodeSelector.select` cuts what one tick submits; it does not look at what is
running already. A tick therefore stays within the cap if nothing is running, or if
there is room for everything that is ready (`HasRoom`).

* `current_le_of_hasRoom` — with room in every tick, no state exceeds the cap.
-/

namespace Neuroswarm.MetaOrchestrator

open Swarm

-- ------ The nodes of a tick

/-- Nothing is running, or what is running and what is ready are at most `m`. -/
def HasRoom (c : Coordinator) (m : Nat) (ex : WorkflowExecution) : Prop :=
  match c.prepare ex with
  | (_, .error _) => True
  | (ex', .ok _) =>
    ex.currentNodes = [] ∨ ex.currentNodes.length + ex'.readyNodes.length ≤ m

def beginsStep (p : Party) (action : Action) : Option WorkflowExecution :=
  match action, p.position with
  | .step, .idle _ => some p.execution.beginSingle
  | .advance, .top =>
    if p.execution.status ∈ terminalWorkflowStatuses ∨ p.execution.cancelRequested then none
    else some p.execution
  | _, _ => none

section

variable {c : Coordinator} {m : Nat} {g : TaskGraph} {ex ex' : WorkflowExecution}

theorem prepare_length (hCap : c.maxParallel = some (m : Int)) (hm : 1 ≤ m) {todo : List NodeId}
    (h : c.prepare ex = (ex', .ok todo)) : todo.length = min m ex'.readyNodes.length := by
  unfold Coordinator.prepare at h
  split at h
  · cases h
  · dsimp only at h
    split at h
    · cases h
    · split at h
      · cases h
      · split at h
        · cases h
        · next ready _ =>
          obtain ⟨hEx, hTodo⟩ := Prod.mk.inj h
          cases hTodo
          have hReady : ex'.readyNodes = ready := by
            rw [← hEx]
            split
            · unfold WorkflowExecution.wake
              split
              · rfl
              · rfl
            · rfl
          rw [hReady, hCap, select_length _ ready (Int.natCast_pos.mpr hm)]
          rfl

theorem hasRoom_iff (hCap : c.maxParallel = some (m : Int)) (hm : 1 ≤ m) {todo : List NodeId}
    (h : c.prepare ex = (ex', .ok todo)) :
    HasRoom c m ex ↔ ex.currentNodes.length + todo.length ≤ m := by
  have hLength := prepare_length hCap hm h
  unfold HasRoom
  rw [h]
  dsimp only
  rw [← List.length_eq_zero_iff]
  omega

end

-- ------ The cap is kept

/-- What runs, and what is about to be submitted, are within the cap. -/
def Capped (m : Nat) (p : Party) : Prop :=
  match p.position with
  | .dispatching _ _ rest => p.execution.currentNodes.length + (rest.length + 1) ≤ m
  | _ => p.execution.currentNodes.length ≤ m

theorem Capped.current {m : Nat} {p : Party} (h : Capped m p) :
    p.execution.currentNodes.length ≤ m := by
  unfold Capped at h
  split at h
  · omega
  · exact h

section

variable {c : Coordinator} {sh : Shared} {p : Party} {m : Nat} {g : TaskGraph}
  {ex : WorkflowExecution}

theorem capped_atRest {p : Party} (hRest : p.position.AtRest)
    (h : p.execution.currentNodes.length ≤ m) : Capped m p := by
  unfold Capped
  split
  · next hEq =>
    rw [hEq] at hRest
    cases hRest
  · exact h

theorem capped_pollNext (hGraph : ex.graph = .graph g) (h : ex.currentNodes.length ≤ m)
    (todo : List (RequestId × ExecutionRequest)) : Capped m (c.pollNext p ex todo) := by
  have hCurrent := (Moves.pollNext (c := c) hGraph p todo).frame.current
  rw [← hCurrent] at h
  rcases Coordinator.pollNext_position c p ex todo with hRest | ⟨-, hEq, -⟩
  · exact capped_atRest hRest h
  · unfold Capped
    rw [hEq]
    exact h

theorem capped_dispatchNext (hGraph : ex.graph = .graph g) {todo : List NodeId}
    (h : ex.currentNodes.length + todo.length ≤ m) : Capped m (c.dispatchNext sh p ex todo) := by
  have hCurrent := (Moves.dispatchNext (c := c) hGraph sh p todo).frame.current
  rcases dispatchNext_position c sh p ex todo with hRest | ⟨nid, assignment, rest, hTodo, hEq⟩ | hEq
  · refine capped_atRest hRest ?_
    rw [hCurrent]
    omega
  · unfold Capped
    rw [hEq, hCurrent]
    rw [hTodo, List.length_cons] at h
    exact h
  · unfold Capped
    rw [hEq, hCurrent]
    dsimp only
    omega

theorem capped_beginStep (hCap : c.maxParallel = some (m : Int)) (hm : 1 ≤ m)
    (hGraph : ex.graph = .graph g) (h : ex.currentNodes.length ≤ m) (hRoom : HasRoom c m ex) :
    Capped m (c.beginStep sh p ex) := by
  have hMoves := Moves.prepare (c := c) hGraph
  unfold Coordinator.beginStep
  split
  · next hEq =>
    rw [hEq] at hMoves
    refine capped_atRest trivial ?_
    rw [Coordinator.leave, hMoves.frame.current]
    exact h
  · next hEq =>
    have hTodo := (hasRoom_iff hCap hm hEq).mp hRoom
    rw [hEq] at hMoves
    refine capped_dispatchNext (hMoves.frame.graph.trans hGraph) ?_
    rw [hMoves.frame.current]
    exact hTodo

theorem appendNew_length (l : List NodeId) (v : NodeId) : (appendNew l v).length ≤ l.length + 1 := by
  unfold appendNew
  split
  · omega
  · simp

/-- **Step.** -/
theorem capped_act (hCap : c.maxParallel = some (m : Int)) (hm : 1 ≤ m)
    (hGraph : p.execution.graph = .graph g) (h : Capped m p) {action : Action}
    (hRoom : ∀ ex, beginsStep p action = some ex → HasRoom c m ex) :
    Capped m (c.act sh p action).2 := by
  have hCurrent := h.current
  have hActs := Coordinator.act_cases c sh p action
  generalize c.act sh p action = next at hActs ⊢
  cases hActs with
  | nothing _ => exact h
  | cancel forced =>
    unfold WorkflowExecution.cancel
    dsimp only
    split
    · exact h
    · exact h
  | start _ =>
    unfold WorkflowExecution.begin
    dsimp only
    split
    · exact hCurrent
    · exact hCurrent
  | step hPosition =>
    have hRoom := hRoom p.execution.beginSingle (by unfold beginsStep; rw [hPosition])
    have hSame : p.execution.beginSingle.currentNodes = p.execution.currentNodes := by
      unfold WorkflowExecution.beginSingle
      split
      · rfl
      · rfl
    rw [← hSame] at hCurrent
    exact capped_beginStep hCap hm ((Call.beginSingle .step).graph.trans hGraph) hCurrent hRoom
  | advance hPosition =>
    unfold beginsStep at hRoom
    rw [hPosition] at hRoom
    dsimp only at hRoom
    unfold Coordinator.loopTop
    split
    · exact capped_atRest trivial hCurrent
    · next hTerminal =>
      split
      · have hMoves := Moves.cancelNext (g := g) p sh.inflight.keys
        rw [← hMoves.frame.current] at hCurrent
        rcases Coordinator.cancelNext_position (p := p) sh.inflight.keys with hRest | hEq
        · exact capped_atRest hRest hCurrent
        · unfold Capped
          rw [hEq]
          exact hCurrent
      · next hCancel =>
        rw [if_neg (not_or.mpr ⟨hTerminal, hCancel⟩)] at hRoom
        exact capped_beginStep hCap hm hGraph hCurrent (hRoom _ rfl)
  | @submitted nid _ todo hPosition requestId =>
    unfold Capped at h
    rw [hPosition] at h
    have hSame : (p.execution.markRunning nid).graph = .graph g := hGraph
    have hLength := appendNew_length p.execution.currentNodes nid
    refine capped_dispatchNext hSame ?_
    dsimp only [WorkflowExecution.markRunning]
    omega
  | again _ => exact hCurrent
  | silent _ => exact capped_pollNext hGraph hCurrent _
  | @received e todo _ _ signal =>
    obtain ⟨attempts, ex', hNoted, -, hParty⟩ := receive_noted c sh hGraph e.1 todo signal
    -- an answer only takes nodes away
    have hLess : ex'.currentNodes.length ≤ m := by
      rw [hNoted.current]
      exact (List.length_filter_le _ _).trans hCurrent
    rcases hParty with ⟨raised, hEq⟩ | hEq
    · rw [hEq]
      exact hLess
    · rw [hEq]
      exact capped_pollNext (hNoted.graph.trans hGraph) hLess todo
  | @withdrawn requestId requests _ =>
    have hMoves := Moves.cancelNext (g := g) p requests
    rw [← hMoves.frame.current] at hCurrent
    rcases Coordinator.cancelNext_position (p := p) requests with hRest | hEq
    · exact capped_atRest hRest hCurrent
    · unfold Capped
      rw [hEq]
      exact hCurrent
  | portError text => exact hCurrent

end

/-- **Parallelism.** In every run, of any number of executions, whose ticks all have room, no
execution ever has more than `m` current nodes. -/
theorem current_le_of_hasRoom {ι : Type*} [DecidableEq ι] (c : Coordinator) (m : Nat) (hm : 1 ≤ m)
    (hCap : c.maxParallel = some (m : Int)) (workflowIds executionIds : ι → String)
    (graphs : ι → TaskGraph) (contexts : ι → Context) (agents : ι → List String)
    (ops : List (ι × Action))
    (hRoom : Run.Every (World.act c)
      (fun w op => ∀ ex, beginsStep (w.party op.1) op.2 = some ex → HasRoom c m ex)
      (.opened workflowIds executionIds graphs contexts agents) ops) :
    Run.Along (World.act c) (fun w => ∀ i, (w.party i).execution.currentNodes.length ≤ m)
      (.opened workflowIds executionIds graphs contexts agents) ops := by
  have hOpened : ∀ i,
      Capped m ((World.opened workflowIds executionIds graphs contexts agents).party i) :=
    fun _ => Nat.zero_le m
  have hAlong := Run.along_of_every
    (I := fun w : World ι => (∀ i, (w.party i).execution.graph = .graph (graphs i)) ∧
      ∀ i, Capped m (w.party i))
    (fun w op h hC => ⟨graph_act h.1 op, fun i => ?_⟩) ⟨fun _ => rfl, hOpened⟩ hRoom
  · exact hAlong.mono fun w h i => (h.2 i).current
  · by_cases hEq : i = op.1
    · rw [hEq, World.act_party_self]
      exact capped_act hCap hm (h.1 op.1) (h.2 op.1) hC
    · rw [World.act_party_ne c w op hEq]
      exact h.2 i

-- ------ A tick without room

section

variable {c : Coordinator} {g : TaskGraph}

end

-- ------ One node at a time

def twoNodes : TaskGraph where
  graphId := "g"
  nodes := (Dict.empty.set "a" { id := "a" }).set "b" { id := "b" }

def twoNodesStart : World Unit :=
  .opened (fun _ => "wf") (fun _ => "ex") (fun _ => twoNodes) (fun _ => .plain) fun _ => ["w"]

/-- The second tick begins when `a` is running. -/
def overlapping : List (Unit × Action) :=
  [((), .start), ((), .advance), ((), .submitted "r1"), ((), .polled none)]

instance (c : Coordinator) (m : Nat) (ex : WorkflowExecution) : Decidable (HasRoom c m ex) := by
  unfold HasRoom
  split
  · infer_instance
  · infer_instance

instance (c : Coordinator) (m : Nat) (p : Party) :
    DecidablePred fun action => ∀ ex, beginsStep p action = some ex → HasRoom c m ex :=
  fun action => inferInstanceAs (Decidable (∀ ex ∈ beginsStep p action, HasRoom c m ex))

theorem current_le_of_hasRoom_twoNodes :
    Run.Along (World.act { maxParallel := some 1, pollRetries := 1 })
      (fun w => ∀ i, (w.party i).execution.currentNodes.length ≤ 1) twoNodesStart
      (overlapping.take 3 ++ [((), reportA "r1" "succeeded"), ((), .advance),
        ((), .submitted "r2")]) :=
  current_le_of_hasRoom { maxParallel := some 1, pollRetries := 1 } 1 (by decide) rfl
    (fun _ => "wf") (fun _ => "ex") (fun _ => twoNodes) (fun _ => .plain) (fun _ => ["w"]) _
    (by decide +kernel)

theorem not_current_le :
    ¬ Run.Along (World.act { maxParallel := some 1, pollRetries := 1 })
      (fun w => ∀ i, (w.party i).execution.currentNodes.length ≤ 1) twoNodesStart
      (overlapping ++ [((), .advance), ((), .submitted "r2")]) := by
  intro h
  exact absurd (h.exec ()) (by decide +kernel)

end Neuroswarm.MetaOrchestrator
