import Neuroswarm.MetaOrchestrator.NodeSets

/-!
# Meta orchestrator — several executions

The executions of one `MetaOrchestrator` take turns at their awaits (`World`). They
share one dispatcher, and the loop of each polls every request that is in flight,
whoever submitted it: an answer is applied to the execution that asked first.

* `Settled` — every completion is applied once, to the execution that dispatched.
* `OwnAnswer` — a poll that is answered is about a request of the execution that polls.
* `settled_iff_ownAnswer` — the runs that settle are those where this is always so.
-/

namespace Neuroswarm.MetaOrchestrator

open Swarm

/-- An orchestrator with its executions. -/
structure World (ι : Type*) where
  shared : Shared := {}
  party : ι → Party

def World.act {ι : Type*} [DecidableEq ι] (c : Coordinator) (w : World ι) (op : ι × Action) :
    World ι :=
  let next := c.act w.shared (w.party op.1) op.2
  { shared := next.1, party := Function.update w.party op.1 next.2 }

namespace World

variable {ι : Type*} [DecidableEq ι] (c : Coordinator) (w : World ι) (op : ι × Action)

theorem act_party_self : (w.act c op).party op.1 = (c.act w.shared (w.party op.1) op.2).2 :=
  Function.update_self ..

theorem act_party_ne {i : ι} (h : i ≠ op.1) : (w.act c op).party i = w.party i :=
  Function.update_of_ne h ..

end World

/-- A new orchestrator with new executions. -/
def World.opened {ι : Type*} (workflowIds executionIds : ι → String) (graphs : ι → TaskGraph)
    (contexts : ι → Context) (agents : ι → List String) : World ι where
  party i :=
    { execution := .bindWorkflow (workflowIds i) (executionIds i) (graphs i) (contexts i) (agents i) }

-- ------ An action, whatever the other executions do

/-- What `receive` makes of the execution before it goes on. -/
inductive Noted (ex : WorkflowExecution) (signal : ExecutionSignal) : WorkflowExecution → Prop
  | applied : Noted ex signal (ex.applySignal signal)
  | decided (decision : RetryDecision) :
    Noted ex signal ((ex.applySignal signal).applyDecision decision)

namespace Noted

variable {ex ex' : WorkflowExecution} {signal : ExecutionSignal}

theorem frame (h : Noted ex signal ex') :
    ex'.graph = ex.graph ∧ ex'.executionId = ex.executionId ∧ ex'.context = ex.context := by
  have hApply : (ex.applySignal signal).graph = ex.graph ∧
      (ex.applySignal signal).executionId = ex.executionId ∧
      (ex.applySignal signal).context = ex.context := by
    unfold WorkflowExecution.applySignal
    cases signal.kind with
    | _ => exact ⟨rfl, rfl, rfl⟩
  cases h with
  | applied => exact hApply
  | decided decision =>
    unfold WorkflowExecution.applyDecision
    split
    · exact hApply
    · exact hApply

theorem graph (h : Noted ex signal ex') : ex'.graph = ex.graph := h.frame.1

theorem executionId (h : Noted ex signal ex') : ex'.executionId = ex.executionId := h.frame.2.1

theorem context (h : Noted ex signal ex') : ex'.context = ex.context := h.frame.2.2

theorem current (h : Noted ex signal ex') :
    ex'.currentNodes = without ex.currentNodes signal.nodeId := by
  have hApply : (ex.applySignal signal).currentNodes = without ex.currentNodes signal.nodeId := by
    unfold WorkflowExecution.applySignal
    cases signal.kind with
    | _ => rfl
  cases h with
  | applied => exact hApply
  | decided decision =>
    unfold WorkflowExecution.applyDecision
    split
    · exact hApply
    · exact hApply

theorem completed_of_ne (h : Noted ex signal ex') {v : NodeId} (hv : v ≠ signal.nodeId) :
    v ∈ ex'.completedNodes ↔ v ∈ ex.completedNodes := by
  have hApply : v ∈ (ex.applySignal signal).completedNodes ↔ v ∈ ex.completedNodes := by
    unfold WorkflowExecution.applySignal
    cases signal.kind with
    | success => simp [hv]
    | failure => rfl
    | skip => rfl
    | unknown => rfl
  cases h with
  | applied => exact hApply
  | decided decision =>
    unfold WorkflowExecution.applyDecision
    split
    · exact hApply
    · exact hApply

theorem failed_of_ne (h : Noted ex signal ex') {v : NodeId} (hv : v ≠ signal.nodeId)
    (hIn : v ∈ ex'.failedNodes) : v ∈ ex.failedNodes := by
  have hApply : v ∈ (ex.applySignal signal).failedNodes ↔ v ∈ ex.failedNodes := by
    unfold WorkflowExecution.applySignal
    cases signal.kind with
    | success => rfl
    | failure => simp [hv]
    | skip => rfl
    | unknown => rfl
  cases h with
  | applied => exact hApply.mp hIn
  | decided decision =>
    -- a decision takes its node out of the failed ones
    unfold WorkflowExecution.applyDecision at hIn
    split at hIn
    · exact hApply.mp (mem_without.mp hIn).1
    · exact hApply.mp (mem_without.mp hIn).1

end Noted

section

variable {c : Coordinator} {sh : Shared} {p : Party} {g : TaskGraph}

theorem receive_noted (c : Coordinator) (sh : Shared) (hGraph : p.execution.graph = .graph g) (r : RequestId)
    (todo : List (RequestId × ExecutionRequest)) (signal : ExecutionSignal) :
    ∃ attempts ex', Noted p.execution signal ex' ∧
      (c.receive sh p r todo signal).1 =
        { Coordinator.drop sh p.execution.executionId r with attempts := attempts } ∧
      ((∃ raised, (c.receive sh p r todo signal).2 = Coordinator.leave p ex' raised) ∨
        (c.receive sh p r todo signal).2 = c.pollNext p ex' todo) := by
  have hId : (p.execution.applySignal signal).executionId = p.execution.executionId :=
    Noted.applied.executionId
  have hSame : (p.execution.applySignal signal).graph = .graph g := Noted.applied.graph.trans hGraph
  unfold Coordinator.receive
  dsimp only
  rw [hId]
  split
  · unfold Coordinator.retryFailed
    rw [hSame]
    dsimp only
    cases hNode : g.nodes.get? signal.nodeId with
    | none => exact ⟨sh.attempts, _, .applied, rfl, .inl ⟨_, rfl⟩⟩
    | some node => exact ⟨_, _, .decided _, rfl, .inr rfl⟩
  · exact ⟨sh.attempts, _, .applied, rfl, .inr rfl⟩

theorem dispatchNext_position (c : Coordinator) (sh : Shared) (p : Party) (ex : WorkflowExecution)
    (todo : List NodeId) :
    (c.dispatchNext sh p ex todo).position.AtRest ∨
      (∃ nid assignment rest, todo = nid :: rest ∧
        (c.dispatchNext sh p ex todo).position = .dispatching nid assignment rest) ∨
      (c.dispatchNext sh p ex todo).position = .polling sh.inflight.entries c.pollRetries := by
  unfold Coordinator.dispatchNext
  split
  · split
    · exact .inl Coordinator.endStep_atRest
    · rcases Coordinator.pollNext_position c p ex sh.inflight.entries with
        hRest | ⟨-, hEq, -⟩
      · exact .inl hRest
      · exact .inr (.inr hEq)
  · split
    · exact .inl trivial
    · split
      · exact .inl trivial
      · split
        · exact .inl trivial
        · exact .inr (.inl ⟨_, _, _, rfl, rfl⟩)

/-- What comes before the moves of an action, whatever the state. -/
inductive Call (p : Party) : Action → WorkflowExecution → Prop
  | nothing (action : Action) : Call p action p.execution
  | called (action : Action) (st : WorkflowStatus) (cancelRequested : Bool) :
    Call p action { p.execution with status := st, cancelRequested := cancelRequested }
  | dispatched {nid : NodeId} {assignment : AgentAssignment} {todo : List NodeId}
    (h : p.position = .dispatching nid assignment todo) (requestId : RequestId) :
    Call p (.submitted requestId) (p.execution.markRunning nid)
  | noted {entry : RequestId × ExecutionRequest} {todo : List (RequestId × ExecutionRequest)}
    {tries : Nat} (h : p.position = .polling (entry :: todo) tries) {signal : ExecutionSignal}
    {ex : WorkflowExecution} (hNoted : Noted p.execution signal ex) :
    Call p (.polled (some signal)) ex

namespace Call

variable {action : Action}

theorem begin (action : Action) : Call p action p.execution.begin := by
  unfold WorkflowExecution.begin
  split
  · exact .called action .running p.execution.cancelRequested
  · exact .nothing action

theorem beginSingle (action : Action) : Call p action p.execution.beginSingle := by
  unfold WorkflowExecution.beginSingle
  split
  · exact .called action .running p.execution.cancelRequested
  · exact .nothing action

theorem cancel (action : Action) (forced : Bool) : Call p action (p.execution.cancel forced) := by
  unfold WorkflowExecution.cancel
  split
  · exact .called action .cancelled true
  · exact .called action p.execution.status true

theorem graph {ex : WorkflowExecution} (h : Call p action ex) : ex.graph = p.execution.graph := by
  cases h with
  | nothing _ => rfl
  | called st cancelRequested => rfl
  | dispatched _ _ => rfl
  | noted _ hNoted => exact hNoted.graph

end Call

/-- **An action is one call and then moves.** -/
theorem act_calls (c : Coordinator) (sh : Shared) (hGraph : p.execution.graph = .graph g) (action : Action) :
    ∃ ex, Call p action ex ∧ Moves g ex (c.act sh p action).2.execution := by
  have hActs := Coordinator.act_cases c sh p action
  generalize c.act sh p action = next at hActs ⊢
  cases hActs with
  | nothing _ => exact ⟨_, .nothing _, .refl⟩
  | cancel forced => exact ⟨_, .cancel _ forced, .refl⟩
  | start _ => exact ⟨_, .begin _, .refl⟩
  | step _ =>
    exact ⟨_, .beginSingle _, Moves.beginStep ((Call.beginSingle .step).graph.trans hGraph) sh _⟩
  | advance _ => exact ⟨_, .nothing _, Moves.loopTop sh hGraph⟩
  | @submitted nid _ todo hPosition requestId =>
    have hSame : (p.execution.markRunning nid).graph = .graph g := hGraph
    exact ⟨_, .dispatched hPosition requestId, Moves.dispatchNext hSame _ p todo⟩
  | again _ => exact ⟨_, .nothing _, .refl⟩
  | silent _ => exact ⟨_, .nothing _, Moves.pollNext hGraph p _⟩
  | @received e todo _ hPosition signal =>
    obtain ⟨attempts, ex', hNoted, -, ⟨raised, hEq⟩ | hEq⟩ := receive_noted c sh hGraph e.1 todo signal
    · rw [hEq]
      exact ⟨ex', .noted hPosition hNoted, .refl⟩
    · rw [hEq]
      exact ⟨ex', .noted hPosition hNoted, Moves.pollNext (hNoted.graph.trans hGraph) p todo⟩
  | withdrawn _ => exact ⟨_, .nothing _, Moves.cancelNext p _⟩
  | portError text => exact ⟨_, .nothing _, .refl⟩

theorem act_identity (hGraph : p.execution.graph = .graph g) (action : Action) :
    (c.act sh p action).2.execution.graph = .graph g ∧
      (c.act sh p action).2.execution.executionId = p.execution.executionId := by
  obtain ⟨ex, hCall, hMoves⟩ := act_calls c sh hGraph action
  rw [hMoves.frame.graph, hMoves.frame.executionId, hCall.graph, hGraph]
  refine ⟨rfl, ?_⟩
  cases hCall with
  | nothing _ => rfl
  | called st cancelRequested => rfl
  | dispatched _ _ => rfl
  | noted _ hNoted => exact hNoted.executionId

end

-- ------ Requests

/-- Every completion is applied once, to the execution that dispatched the request, and no other
execution takes a request away before. -/
structure Settled (sh : Shared) : Prop where
  own : ∀ e r, (e, r) ∈ sh.applied → (e, r) ∈ sh.dispatched
  once : (sh.applied.map Prod.snd).Nodup
  kept : ∀ e r, (e, r) ∈ sh.dispatched →
    (sh.inflight.get? r).isSome ∨ (e, r) ∈ sh.applied ∨ (e, r) ∈ sh.withdrawn

/-- HAOE gives no request id twice. -/
def FreshId (sh : Shared) : Action → Prop
  | .submitted requestId => requestId ∉ sh.dispatched.map Prod.snd
  | _ => True

/-- The poll that is answered is about a request of the execution that polls, and so is the
cancelled request if it is still in flight. -/
def OwnAnswer (sh : Shared) (p : Party) (action : Action) : Prop :=
  match action, p.position with
  | .polled (some _), .polling (e :: _) _ => e.2.executionId = p.execution.executionId
  | .withdrawn, .cancelling (r :: _) =>
    ∀ req, sh.inflight.get? r = some req → req.executionId = p.execution.executionId
  | _, _ => True

instance (sh : Shared) : DecidablePred (FreshId sh) := fun action => by
  unfold FreshId
  split
  · infer_instance
  · infer_instance

instance (sh : Shared) (p : Party) : DecidablePred (OwnAnswer sh p) := fun action => by
  unfold OwnAnswer
  cases action with
  | polled answer =>
    rcases answer with _ | signal <;>
      rcases p.position with _ | _ | _ | _ | ⟨_ | _, _⟩ <;> dsimp only <;> infer_instance
  | withdrawn =>
    rcases p.position with _ | _ | (_ | ⟨r, _⟩) | _ | _
    case cancelling.cons =>
      exact inferInstanceAs (Decidable (∀ req ∈ sh.inflight.get? r,
        req.executionId = p.execution.executionId))
    all_goals exact .isTrue trivial
  | _ => exact .isTrue trivial

structure Ledger (sh : Shared) : Prop extends Settled sh where
  unique : ∀ e e' r, (e, r) ∈ sh.dispatched → (e', r) ∈ sh.dispatched → e = e'
  flight : ∀ r req, sh.inflight.get? r = some req →
    (req.executionId, r) ∈ sh.dispatched ∧ ∀ e, (e, r) ∉ sh.applied ∧ (e, r) ∉ sh.withdrawn
  known : ∀ e r, (e, r) ∈ sh.withdrawn → ∃ e', (e', r) ∈ sh.dispatched

namespace Ledger

variable {sh : Shared} {e : String} {r : RequestId}

theorem attempts (h : Ledger sh) (attempts : Dict String Nat) :
    Ledger { sh with attempts := attempts } :=
  ⟨⟨h.own, h.once, h.kept⟩, h.unique, h.flight, h.known⟩

theorem record (h : Ledger sh) (ex : WorkflowExecution) (assignment : AgentAssignment)
    (hFresh : r ∉ sh.dispatched.map Prod.snd) :
    Ledger (Coordinator.recordRequest sh ex assignment r) := by
  have hNew : ∀ e, (e, r) ∉ sh.dispatched := fun e hIn => hFresh (List.mem_map_of_mem hIn)
  have hOld : ∀ e r, (e, r) ∈ sh.dispatched →
      (e, r) ∈ (Coordinator.recordRequest sh ex assignment r).dispatched :=
    fun e r hIn => List.mem_cons_of_mem _ hIn
  refine ⟨⟨fun e' r' hIn => List.mem_cons_of_mem _ (h.own e' r' hIn), h.once, ?_⟩, ?_, ?_, ?_⟩
  · intro e' r' hIn
    dsimp only [Coordinator.recordRequest]
    rcases List.mem_cons.mp hIn with hEq | hIn
    · cases hEq
      rw [Dict.get?_set_self]
      exact .inl rfl
    · have hNe : r' ≠ r := fun hEq => hNew e' (hEq ▸ hIn)
      rw [Dict.get?_set_ne _ _ hNe]
      exact h.kept e' r' hIn
  · intro e₁ e₂ r' h₁ h₂
    rcases List.mem_cons.mp h₁ with hEq₁ | h₁
    · rcases List.mem_cons.mp h₂ with hEq₂ | h₂
      · exact (Prod.mk.inj hEq₁).1.trans (Prod.mk.inj hEq₂).1.symm
      · exact absurd ((Prod.mk.inj hEq₁).2 ▸ h₂) (hNew e₂)
    · rcases List.mem_cons.mp h₂ with hEq₂ | h₂
      · exact absurd ((Prod.mk.inj hEq₂).2 ▸ h₁) (hNew e₁)
      · exact h.unique e₁ e₂ r' h₁ h₂
  · intro r' req hReq
    dsimp only [Coordinator.recordRequest] at hReq ⊢
    by_cases hEq : r' = r
    · subst hEq
      rw [Dict.get?_set_self] at hReq
      cases hReq
      -- nothing is noted about an id that was never given
      refine ⟨List.mem_cons_self .., fun e' => ⟨fun hIn => hNew e' (h.own e' _ hIn), fun hIn => ?_⟩⟩
      obtain ⟨e'', hIn⟩ := h.known e' _ hIn
      exact hNew e'' hIn
    · rw [Dict.get?_set_ne _ _ hEq] at hReq
      exact ⟨List.mem_cons_of_mem _ (h.flight r' req hReq).1, (h.flight r' req hReq).2⟩
  · intro e' r' hIn
    obtain ⟨e'', hIn⟩ := h.known e' r' hIn
    exact ⟨e'', List.mem_cons_of_mem _ hIn⟩

theorem drop (h : Ledger sh) (hDispatched : (e, r) ∈ sh.dispatched)
    (hApplied : (e, r) ∉ sh.applied) : Ledger (Coordinator.drop sh e r) := by
  refine ⟨⟨?_, ?_, ?_⟩, h.unique, ?_, h.known⟩
  · intro e' r' hIn
    rcases List.mem_cons.mp hIn with hEq | hIn
    · cases hEq
      exact hDispatched
    · exact h.own e' r' hIn
  · refine List.nodup_cons.mpr ⟨fun hIn => ?_, h.once⟩
    obtain ⟨⟨e', r'⟩, hMem, rfl⟩ := List.mem_map.mp hIn
    -- whoever applied it dispatched it
    have hSame : e = e' := h.unique e e' r' hDispatched (h.own e' r' hMem)
    rw [hSame] at hApplied
    exact hApplied hMem
  · intro e' r' hIn
    dsimp only [Coordinator.drop]
    by_cases hEq : r' = r
    · subst hEq
      rw [h.unique e' e r' hIn hDispatched]
      exact .inr (.inl (List.mem_cons_self ..))
    · rw [Dict.get?_erase_ne _ hEq]
      rcases h.kept e' r' hIn with hFlight | hApplied | hWithdrawn
      · exact .inl hFlight
      · exact .inr (.inl (List.mem_cons_of_mem _ hApplied))
      · exact .inr (.inr hWithdrawn)
  · intro r' req hReq
    dsimp only [Coordinator.drop] at hReq ⊢
    obtain ⟨hNe, hReq⟩ := Dict.get?_erase_eq_some.mp hReq
    obtain ⟨hIn, hOut⟩ := h.flight r' req hReq
    refine ⟨hIn, fun e' => ⟨fun hApplied => ?_, (hOut e').2⟩⟩
    rcases List.mem_cons.mp hApplied with hEq | hApplied
    · exact hNe (Prod.mk.inj hEq).2
    · exact (hOut e').1 hApplied

theorem withdraw (h : Ledger sh) (hKnown : ∃ e', (e', r) ∈ sh.dispatched)
    (hOwn : ∀ req, sh.inflight.get? r = some req → req.executionId = e) :
    Ledger (Coordinator.withdraw sh e r) := by
  refine ⟨⟨h.own, h.once, ?_⟩, h.unique, ?_, ?_⟩
  · intro e' r' hIn
    dsimp only [Coordinator.withdraw]
    by_cases hEq : r' = r
    · subst hEq
      rcases h.kept e' r' hIn with hFlight | hApplied | hWithdrawn
      · obtain ⟨req, hReq⟩ := Option.isSome_iff_exists.mp hFlight
        rw [h.unique e' _ r' hIn (h.flight r' req hReq).1, hOwn req hReq]
        exact .inr (.inr (List.mem_cons_self ..))
      · exact .inr (.inl hApplied)
      · exact .inr (.inr (List.mem_cons_of_mem _ hWithdrawn))
    · rw [Dict.get?_erase_ne _ hEq]
      rcases h.kept e' r' hIn with hFlight | hApplied | hWithdrawn
      · exact .inl hFlight
      · exact .inr (.inl hApplied)
      · exact .inr (.inr (List.mem_cons_of_mem _ hWithdrawn))
  · intro r' req hReq
    dsimp only [Coordinator.withdraw] at hReq ⊢
    obtain ⟨hNe, hReq⟩ := Dict.get?_erase_eq_some.mp hReq
    obtain ⟨hIn, hOut⟩ := h.flight r' req hReq
    refine ⟨hIn, fun e' => ⟨(hOut e').1, fun hWithdrawn => ?_⟩⟩
    rcases List.mem_cons.mp hWithdrawn with hEq | hWithdrawn
    · exact hNe (Prod.mk.inj hEq).2
    · exact (hOut e').2 hWithdrawn
  · intro e' r' hIn
    rcases List.mem_cons.mp hIn with hEq | hIn
    · cases hEq
      exact hKnown
    · exact h.known e' r' hIn

theorem not_settled_drop (h : Ledger sh) {e' : String} (hDispatched : (e', r) ∈ sh.dispatched)
    (hOther : e' ≠ e) : ¬ Settled (Coordinator.drop sh e r) := fun hSettled =>
  hOther (h.unique e' e r hDispatched (hSettled.own e r (List.mem_cons_self ..)))

theorem not_settled_withdraw (h : Ledger sh) {req : ExecutionRequest}
    (hReq : sh.inflight.get? r = some req) (hOther : req.executionId ≠ e) :
    ¬ Settled (Coordinator.withdraw sh e r) := by
  intro hSettled
  obtain ⟨hIn, hOut⟩ := h.flight r req hReq
  rcases hSettled.kept _ r hIn with hFlight | hApplied | hWithdrawn
  · dsimp only [Coordinator.withdraw] at hFlight
    rw [Dict.get?_erase_self] at hFlight
    cases hFlight
  · exact (hOut _).1 hApplied
  · rcases List.mem_cons.mp hWithdrawn with hEq | hWithdrawn
    · exact hOther (Prod.mk.inj hEq).1
    · exact (hOut _).2 hWithdrawn

end Ledger

-- ------ What a coroutine is about to ask

/-- Every request that is going to be asked about was dispatched; an own one is not applied. -/
def Asked (sh : Shared) (executionId : String) : Position → Prop
  | .polling todo _ => (todo.map Prod.fst).Nodup ∧ ∀ e ∈ todo,
    (e.2.executionId, e.1) ∈ sh.dispatched ∧
      (e.2.executionId = executionId → (executionId, e.1) ∉ sh.applied)
  | .cancelling requests => ∀ r ∈ requests, ∃ e, (e, r) ∈ sh.dispatched
  | _ => True

theorem Position.AtRest.asked {sh : Shared} {executionId : String} {position : Position}
    (h : position.AtRest) : Asked sh executionId position := by
  cases position with
  | idle raised => trivial
  | top => trivial
  | cancelling requests => cases h
  | dispatching nid assignment todo => cases h
  | polling todo tries => cases h

theorem Asked.mono {sh sh' : Shared} {executionId : String} {position : Position}
    (h : Asked sh executionId position) (hDispatched : sh.dispatched ⊆ sh'.dispatched)
    (hApplied : ∀ r, (executionId, r) ∈ sh'.applied → (executionId, r) ∈ sh.applied) :
    Asked sh' executionId position := by
  cases position with
  | polling todo tries =>
    refine ⟨h.1, fun e he => ⟨hDispatched (h.2 e he).1, fun hOwn hIn => ?_⟩⟩
    exact (h.2 e he).2 hOwn (hApplied e.1 hIn)
  | cancelling requests =>
    intro r hr
    obtain ⟨e, hIn⟩ := h r hr
    exact ⟨e, hDispatched hIn⟩
  | idle raised => trivial
  | top => trivial
  | dispatching nid assignment todo => trivial

section

variable {c : Coordinator} {sh : Shared} {p : Party} {ex : WorkflowExecution} {e : String}

theorem asked_pollNext {todo : List (RequestId × ExecutionRequest)}
    (h : Asked sh e (.polling todo 0)) : Asked sh e (c.pollNext p ex todo).position := by
  rcases Coordinator.pollNext_position c p ex todo with hRest | ⟨-, hEq, -⟩
  · exact hRest.asked
  · rw [hEq]
    exact h

theorem asked_cancelNext {requests : List RequestId} (h : Asked sh e (.cancelling requests)) :
    Asked sh e (Coordinator.cancelNext p requests).position := by
  rcases Coordinator.cancelNext_position (p := p) requests with hRest | hEq
  · exact hRest.asked
  · rw [hEq]
    exact h

theorem asked_dispatchNext (h : Ledger sh) (todo : List NodeId) :
    Asked sh e (c.dispatchNext sh p ex todo).position := by
  rcases dispatchNext_position c sh p ex todo with
    hRest | ⟨nid, assignment, rest, -, hEq⟩ | hEq
  · exact hRest.asked
  · rw [hEq]
    trivial
  · rw [hEq]
    refine ⟨sh.inflight.nodup, fun entry hMem => ?_⟩
    obtain ⟨hIn, hOut⟩ := h.flight _ _ (Dict.mem_entries_iff.mp hMem)
    exact ⟨hIn, fun _ => (hOut e).1⟩

theorem asked_beginStep (h : Ledger sh) : Asked sh e (c.beginStep sh p ex).position := by
  unfold Coordinator.beginStep
  split
  · trivial
  · exact asked_dispatchNext h _

theorem asked_loopTop (h : Ledger sh) : Asked sh e (c.loopTop sh p).position := by
  unfold Coordinator.loopTop
  split
  · trivial
  · split
    · refine asked_cancelNext fun r hr => ?_
      obtain ⟨req, hReq⟩ := Option.isSome_iff_exists.mp (Dict.mem_keys_iff.mp hr)
      exact ⟨_, (h.flight r req hReq).1⟩
    · exact asked_beginStep h

end

-- ------ Steps

/-- What an action of the execution `e` leaves behind, for it and for the others. -/
structure Booked (sh : Shared) (e : String) (next : Shared × Party) : Prop where
  ledger : Ledger next.1
  asked : Asked next.1 e next.2.position
  dispatched : sh.dispatched ⊆ next.1.dispatched
  applied : ∀ e' r, e' ≠ e → (e', r) ∈ next.1.applied → (e', r) ∈ sh.applied

theorem Booked.same {sh : Shared} {e : String} {p : Party} (h : Ledger sh)
    (hAsked : Asked sh e p.position) : Booked sh e (sh, p) :=
  ⟨h, hAsked, List.Subset.refl _, fun _ _ _ hIn => hIn⟩

theorem booked_receive {c : Coordinator} {sh : Shared} {p : Party} {g : TaskGraph}
    (hGraph : p.execution.graph = .graph g) (h : Ledger sh) {entry : RequestId × ExecutionRequest}
    {todo : List (RequestId × ExecutionRequest)}
    (hAsked : Asked sh p.execution.executionId (.polling (entry :: todo) 0))
    (hOwn : entry.2.executionId = p.execution.executionId) (signal : ExecutionSignal) :
    Booked sh p.execution.executionId (c.receive sh p entry.1 todo signal) := by
  obtain ⟨hNodup, hTodo⟩ := hAsked
  obtain ⟨hHead, hTail⟩ := List.nodup_cons.mp hNodup
  obtain ⟨hIn, hNot⟩ := hTodo entry (List.mem_cons_self ..)
  obtain ⟨attempts, ex', -, hShared, hParty⟩ := receive_noted c sh hGraph entry.1 todo signal
  rw [hOwn] at hIn
  -- the requests that are still to be polled are other ones
  have hRest : Asked { Coordinator.drop sh p.execution.executionId entry.1 with attempts := attempts }
      p.execution.executionId (.polling todo 0) := by
    refine ⟨hTail, fun e he => ⟨(hTodo e (List.mem_cons_of_mem _ he)).1, fun hSame hApplied => ?_⟩⟩
    rcases List.mem_cons.mp hApplied with hEq | hApplied
    · exact hHead ((Prod.mk.inj hEq).2 ▸ List.mem_map_of_mem he)
    · exact (hTodo e (List.mem_cons_of_mem _ he)).2 hSame hApplied
  refine ⟨?_, ?_, ?_, ?_⟩
  · rw [hShared]
    exact (h.drop hIn (hNot hOwn)).attempts attempts
  · rw [hShared]
    rcases hParty with ⟨raised, hEq⟩ | hEq
    · rw [hEq]
      trivial
    · rw [hEq]
      exact asked_pollNext hRest
  · rw [hShared]
    exact List.Subset.refl _
  · intro e' r hOther hApplied
    rw [hShared] at hApplied
    rcases List.mem_cons.mp hApplied with hEq | hApplied
    · exact absurd (Prod.mk.inj hEq).1 hOther
    · exact hApplied

/-- **Step**, of one coroutine. -/
theorem booked_act (c : Coordinator) {sh : Shared} {p : Party} {g : TaskGraph}
    (hGraph : p.execution.graph = .graph g) (h : Ledger sh)
    (hAsked : Asked sh p.execution.executionId p.position) {action : Action}
    (hFresh : FreshId sh action) (hOwn : OwnAnswer sh p action) :
    Booked sh p.execution.executionId (c.act sh p action) := by
  have hActs := Coordinator.act_cases c sh p action
  generalize c.act sh p action = next at hActs ⊢
  cases hActs with
  | nothing _ => exact .same h hAsked
  | cancel forced => exact .same h hAsked
  | start _ => exact .same h trivial
  | step _ => exact .same h (asked_beginStep h)
  | advance _ => exact .same h (asked_loopTop h)
  | @submitted nid assignment todo _ requestId =>
    have hRecord := h.record p.execution assignment hFresh
    exact ⟨hRecord, asked_dispatchNext hRecord todo, fun _ hIn => List.mem_cons_of_mem _ hIn,
      fun _ _ _ hIn => hIn⟩
  | again hPosition =>
    rw [hPosition] at hAsked
    exact .same h hAsked
  | silent hPosition =>
    rw [hPosition] at hAsked
    refine .same h (asked_pollNext ⟨(List.nodup_cons.mp hAsked.1).2, fun e he => ?_⟩)
    exact hAsked.2 e (List.mem_cons_of_mem _ he)
  | received hPosition signal =>
    unfold OwnAnswer at hOwn
    rw [hPosition] at hOwn hAsked
    exact booked_receive hGraph h hAsked hOwn signal
  | @withdrawn requestId requests hPosition =>
    unfold OwnAnswer at hOwn
    rw [hPosition] at hOwn hAsked
    refine ⟨h.withdraw (hAsked requestId (List.mem_cons_self ..)) hOwn, ?_, List.Subset.refl _,
      fun _ _ _ hIn => hIn⟩
    exact asked_cancelNext fun r hr => hAsked r (List.mem_cons_of_mem _ hr)
  | portError text => exact .same h trivial

theorem not_settled_act {c : Coordinator} {sh : Shared} {p : Party} {g : TaskGraph}
    (hGraph : p.execution.graph = .graph g) (h : Ledger sh)
    (hAsked : Asked sh p.execution.executionId p.position) {action : Action}
    (hOwn : ¬ OwnAnswer sh p action) : ¬ Settled (c.act sh p action).1 := by
  unfold OwnAnswer at hOwn
  split at hOwn
  · next signal entry todo tries hPosition =>
    rw [hPosition] at hAsked
    have hIn := (hAsked.2 entry (List.mem_cons_self ..)).1
    obtain ⟨attempts, ex', -, hShared, -⟩ := receive_noted c sh hGraph entry.1 todo signal
    unfold Coordinator.act
    rw [hPosition]
    dsimp only
    rw [hShared]
    exact fun hSettled => h.not_settled_drop hIn hOwn ⟨hSettled.own, hSettled.once, hSettled.kept⟩
  · next r requests hPosition =>
    obtain ⟨req, hReq⟩ := not_forall.mp hOwn
    obtain ⟨hReq, hOther⟩ := Classical.not_imp.mp hReq
    unfold Coordinator.act
    rw [hPosition]
    exact h.not_settled_withdraw hReq hOther
  · exact absurd trivial hOwn

theorem reported_act {c : Coordinator} {sh : Shared} {p : Party} {g : TaskGraph}
    (hGraph : p.execution.graph = .graph g) {action : Action} {v : NodeId}
    (h : v ∈ (c.act sh p action).2.execution.completedNodes ∨
      v ∈ (c.act sh p action).2.execution.failedNodes)
    (hNew : v ∉ p.execution.completedNodes ∧ v ∉ p.execution.failedNodes) :
    ∃ signal entry todo tries, action = .polled (some signal) ∧
      p.position = .polling (entry :: todo) tries ∧ v = signal.nodeId := by
  obtain ⟨ex, hCall, hMoves⟩ := act_calls c sh hGraph action
  rw [hMoves.frame.completed, hMoves.frame.failed] at h
  cases hCall with
  | nothing _ => exact absurd h (not_or.mpr hNew)
  | called st cancelRequested => exact absurd h (not_or.mpr hNew)
  | dispatched _ _ => exact absurd h (not_or.mpr hNew)
  | @noted entry todo tries hPosition signal _ hNoted =>
    refine ⟨signal, entry, todo, tries, rfl, hPosition, ?_⟩
    by_contra hOther
    rcases h with hCompleted | hFailed
    · exact hNew.1 ((hNoted.completed_of_ne hOther).mp hCompleted)
    · exact hNew.2 (hNoted.failed_of_ne hOther hFailed)

-- ------ Runs

section

variable {ι : Type*} [DecidableEq ι]

/-- The books are in order and no coroutine is about to ask for something else. -/
structure Orderly (graphs : ι → TaskGraph) (executionIds : ι → String) (w : World ι) : Prop where
  ledger : Ledger w.shared
  graph : ∀ i, (w.party i).execution.graph = .graph (graphs i)
  executionId : ∀ i, (w.party i).execution.executionId = executionIds i
  asked : ∀ i, Asked w.shared (executionIds i) (w.party i).position

variable {graphs : ι → TaskGraph} {executionIds : ι → String} {c : Coordinator} {w : World ι}

theorem graph_act (h : ∀ i, (w.party i).execution.graph = .graph (graphs i)) (op : ι × Action)
    (i : ι) : ((w.act c op).party i).execution.graph = .graph (graphs i) := by
  by_cases hEq : i = op.1
  · rw [hEq, World.act_party_self]
    exact (act_identity (h op.1) op.2).1
  · rw [World.act_party_ne c w op hEq]
    exact h i

theorem orderly_act (hIds : Function.Injective executionIds) (h : Orderly graphs executionIds w)
    (op : ι × Action) (hFresh : FreshId w.shared op.2)
    (hOwn : OwnAnswer w.shared (w.party op.1) op.2) :
    Orderly graphs executionIds (w.act c op) := by
  have hAsked : Asked w.shared (w.party op.1).execution.executionId (w.party op.1).position := by
    rw [h.executionId op.1]
    exact h.asked op.1
  have hBooked := booked_act c (h.graph op.1) h.ledger hAsked hFresh hOwn
  rw [h.executionId op.1] at hBooked
  refine ⟨hBooked.ledger, graph_act h.graph op, fun i => ?_, fun i => ?_⟩
  · by_cases hEq : i = op.1
    · rw [hEq, World.act_party_self, ← h.executionId op.1]
      exact (act_identity (h.graph op.1) op.2).2
    · rw [World.act_party_ne c w op hEq]
      exact h.executionId i
  · by_cases hEq : i = op.1
    · rw [hEq, World.act_party_self]
      exact hBooked.asked
    · -- the others are told apart by their ids
      rw [World.act_party_ne c w op hEq]
      exact (h.asked i).mono hBooked.dispatched fun r hIn =>
        hBooked.applied _ r (fun hSame => hEq (hIds hSame)) hIn

omit [DecidableEq ι] in
theorem orderly_opened (workflowIds executionIds : ι → String) (graphs : ι → TaskGraph)
    (contexts : ι → Context) (agents : ι → List String) :
    Orderly graphs executionIds (.opened workflowIds executionIds graphs contexts agents) where
  ledger :=
    { own := fun _ _ h => absurd h List.not_mem_nil
      once := List.nodup_nil
      kept := fun _ _ h => absurd h List.not_mem_nil
      unique := fun _ _ _ h => absurd h List.not_mem_nil
      flight := fun _ _ h => (by cases h)
      known := fun _ _ h => absurd h List.not_mem_nil }
  graph _ := rfl
  executionId _ := rfl
  asked _ := trivial

/-- What this step reports as completed or failed answers a request of the same execution. -/
def ReportsOwn (c : Coordinator) (w : World ι) (op : ι × Action) : Prop :=
  ∀ i v, v ∈ ((w.act c op).party i).execution.completedNodes ∨
      v ∈ ((w.act c op).party i).execution.failedNodes →
    (v ∉ (w.party i).execution.completedNodes ∧ v ∉ (w.party i).execution.failedNodes) →
    ∃ signal entry todo tries, op = (i, .polled (some signal)) ∧
      (w.party i).position = .polling (entry :: todo) tries ∧ v = signal.nodeId ∧
      entry.2.executionId = (w.party i).execution.executionId

theorem reportsOwn (h : ∀ i, (w.party i).execution.graph = .graph (graphs i)) (op : ι × Action)
    (hOwn : OwnAnswer w.shared (w.party op.1) op.2) : ReportsOwn c w op := by
  intro i v hIn hNew
  by_cases hEq : i = op.1
  · subst hEq
    rw [World.act_party_self] at hIn
    obtain ⟨signal, entry, todo, tries, hAction, hPosition, hv⟩ := reported_act (h op.1) hIn hNew
    refine ⟨signal, entry, todo, tries, Prod.ext rfl hAction, hPosition, hv, ?_⟩
    unfold OwnAnswer at hOwn
    rw [hAction, hPosition] at hOwn
    exact hOwn
  · rw [World.act_party_ne c w op hEq] at hIn
    exact absurd hIn (not_or.mpr hNew)

/-- **Completions.** The completions are settled all along a run if and only if in all its steps
an execution is answered about its own requests only; and then no step reports a node because of
a request of another execution. -/
theorem settled_iff_ownAnswer (c : Coordinator) (workflowIds : ι → String) {executionIds : ι → String}
    (hIds : Function.Injective executionIds) (graphs : ι → TaskGraph) (contexts : ι → Context)
    (agents : ι → List String) (ops : List (ι × Action))
    (hFresh : Run.Every (World.act c) (fun w op => FreshId w.shared op.2)
      (.opened workflowIds executionIds graphs contexts agents) ops) :
    (Run.Along (World.act c) (fun w => Settled w.shared)
        (.opened workflowIds executionIds graphs contexts agents) ops ↔
      Run.Every (World.act c) (fun w op => OwnAnswer w.shared (w.party op.1) op.2)
        (.opened workflowIds executionIds graphs contexts agents) ops) ∧
    (Run.Every (World.act c) (fun w op => OwnAnswer w.shared (w.party op.1) op.2)
        (.opened workflowIds executionIds graphs contexts agents) ops →
      Run.Every (World.act c) (ReportsOwn c)
        (.opened workflowIds executionIds graphs contexts agents) ops) := by
  have hOpened := orderly_opened workflowIds executionIds graphs contexts agents
  constructor
  · refine Run.along_iff_every_of (I := Orderly graphs executionIds) (fun _ h => h.ledger.toSettled)
      (fun _ op h hFresh hOwn => orderly_act hIds h op hFresh hOwn) (fun w op h _ hOwn => ?_)
      hOpened hFresh
    refine not_settled_act (h.graph op.1) h.ledger ?_ hOwn
    rw [h.executionId op.1]
    exact h.asked op.1
  · exact Run.every_of_every
      (I := fun w : World ι => ∀ i, (w.party i).execution.graph = .graph (graphs i))
      (fun _ op h _ => graph_act h op) (fun _ op h hOwn => reportsOwn h op hOwn) hOpened.graph

end

-- ------ Two executions

/-- `e1` has one node, `a`; `e2` has one node, `b`. -/
def pair : World Bool :=
  .opened (fun _ => "wf") (fun i => if i then "e1" else "e2")
    (fun i => if i then lone else { graphId := "h", nodes := Dict.empty.set "b" { id := "b" } })
    (fun _ => .plain) fun _ => ["w"]

theorem pair_injective : Function.Injective fun i : Bool => if i then "e1" else "e2" := by decide

/-- Both have submitted a request, and `e2` is at its polls. -/
def bothSubmitted : List (Bool × Action) :=
  [(true, .start), (true, .advance), (true, .submitted "r1"), (false, .start), (false, .advance),
    (false, .submitted "r2")]

theorem settled_iff_ownAnswer_pair :
    Run.Along (World.act {}) (fun w => Settled w.shared) pair
      (bothSubmitted ++ [(true, reportA "r1" "succeeded")]) :=
  (settled_iff_ownAnswer {} (fun _ => "wf") pair_injective _ (fun _ => .plain) (fun _ => ["w"])
    (bothSubmitted ++ [(true, reportA "r1" "succeeded")]) (by decide +kernel)).1.mpr
    (by decide +kernel)

/-- The loop of `e2` polls `r1` first. -/
theorem not_settled_pair :
    Run.Every (World.act {}) (fun w op => FreshId w.shared op.2) pair
        (bothSubmitted ++ [(false, reportA "r1" "succeeded")]) ∧
      ¬ Run.Along (World.act {}) (fun w => Settled w.shared) pair
        (bothSubmitted ++ [(false, reportA "r1" "succeeded")]) ∧
      "a" ∈ ((Run.exec (World.act {}) pair (bothSubmitted ++
        [(false, reportA "r1" "succeeded")])).party false).execution.completedNodes := by
  refine ⟨by decide +kernel, fun h => ?_, by decide +kernel⟩
  have hOwn := h.exec.own "e2" "r1" (by decide +kernel)
  exact absurd hOwn (by decide +kernel)

end Neuroswarm.MetaOrchestrator
