import Mathlib.Logic.Function.Basic
import Neuroswarm.Lib.Run
import Neuroswarm.Swarm.Validator

/-!
# Task graph — `GraphExecutor`

`executor.py` as a labelled transition system. `run` and every `_run_node` are
coroutines of one event loop; between two awaits nothing else happens, so an
action is what one coroutine does from one await to the next:

* `Action.node` — one step of the coroutine of a node, or of the handler it waits
  for (`NodeAction`);
* `Action.resume` — the main loop goes on: at its start, and when `gather` is done
  or has raised;
* `Action.cancel` — somebody calls `cancel`, at any await point.

Handler outcomes, the lengths of calls and sleeps, the clock and what conditions
read are arguments of the actions, so a list of actions is a run. An action whose
coroutine stands elsewhere changes nothing.

Beside the fields of `NodeRuntimeState`, a `Slot` holds the position of the
coroutine, and for the proofs the number of handler calls and every assignment to
the status. Metrics, times and the event history are left out; the bus has no
subscribers.
-/

namespace Neuroswarm.Swarm

variable {R : Type*}

-- ------ Runtime state of a node

/-- How a handler call ends: a value (`None` is `none`), or an exception that
`_run_node` catches in one of its three clauses. -/
inductive Outcome (R : Type*) where
  | returned (result : Option R)
  | timeoutError
  | cancellationError
  | error (text : String)

/-- Where the coroutine `_run_node` of a node stands. -/
inductive Task (R : Type*) where
  /-- not in any layer yet -/
  | idle
  /-- in a layer, not begun -/
  | spawned
  /-- the task of the call is created, not begun -/
  | calling
  /-- the handler runs -/
  | handling
  /-- the call is done, the waiting coroutine is not resumed yet -/
  | handled (outcome : Outcome R)
  /-- the call is cancelled and awaited -/
  | draining
  /-- the delay before the next attempt -/
  | sleeping
  | finished

/-- The coroutine is not in the middle of something. -/
def Task.Quiet : Task R → Prop
  | .idle | .finished => True
  | _ => False

def Task.isFinished : Task R → Bool
  | .finished => true
  | _ => false

structure NodeRuntimeState (R : Type*) where
  status : NodeStatus := .pending
  attempts : Nat := 0
  result : Option R := none
  error : Option String := none
  checkpointId : Option String := none
  cancelRequested : Bool := false

structure Slot (R : Type*) extends NodeRuntimeState R where
  task : Task R := .idle
  calls : Nat := 0
  assigned : List (NodeStatus × NodeStatus) := []

/-- `x or None` for a string that may be empty. -/
def truthy (text : Option String) : Option String := text.filter (· ≠ "")

namespace Slot

/-- `st.status = target`. -/
def assign (slot : Slot R) (target : NodeStatus) : Slot R :=
  { slot with status := target, assigned := (slot.status, target) :: slot.assigned }

/-- `st.status = target; return`. -/
def stop (slot : Slot R) (target : NodeStatus) : Slot R :=
  { slot.assign target with task := .finished }

def cancellable : List NodeStatus := [.pending, .queued, .ready, .waiting, .retrying]

/-- The body of the loop in `_apply_cancel`. -/
def applyCancel (forced : Bool) (slot : Slot R) : Slot R :=
  if slot.status.Terminal then slot
  else if forced ∨ slot.status ∈ cancellable then
    { slot with cancelRequested := true }.assign .cancelled
  else { slot with cancelRequested := true }

/-- `st.attempts < max_attempts`. -/
def MayTry (slot : Slot R) (node : TaskNode) : Prop :=
  (slot.attempts : Int) < node.retryPolicy.maxAttempts

instance (slot : Slot R) (node : TaskNode) : Decidable (slot.MayTry node) :=
  inferInstanceAs (Decidable (_ < _))

/-- The head of the retry loop, up to the first await. -/
def attempt (node : TaskNode) (cancelled : Bool) (slot : Slot R) : Slot R :=
  if slot.MayTry node then
    let slot := { slot with attempts := slot.attempts + 1 }
    if cancelled then slot.stop .cancelled else { slot with task := .calling }
  else { slot.stop .failed with error := some "max attempts exceeded" }

def start (node : TaskNode) (cancelled : Bool) (slot : Slot R) : Slot R :=
  ((slot.assign .ready).assign .running).attempt node cancelled

/-- `status = RETRYING`, then the sleep. -/
def retry (slot : Slot R) : Slot R := { slot.assign .retrying with task := .sleeping }

/-- `except asyncio.TimeoutError`. -/
def onTimeout (node : TaskNode) (slot : Slot R) : Slot R :=
  if node.retryPolicy.retryOnTimeout ∧ slot.MayTry node then slot.retry
  else { slot.stop .timedOut with error := some "timeout:node" }

/-- `except Exception`. -/
def onFailure (node : TaskNode) (text : String) (slot : Slot R) : Slot R :=
  if node.retryPolicy.retryOnFailure ∧ slot.MayTry node then slot.retry
  else { slot.stop .failed with error := some text }

/-- Whether a success also writes a checkpoint. -/
def Checkpointing (node : TaskNode) : Prop :=
  node.nodeType = .checkpoint ∨ (truthy node.checkpointId).isSome

instance (node : TaskNode) : Decidable (Checkpointing node) :=
  inferInstanceAs (Decidable (_ ∨ _))

/-- The body of the loop in `_timeout_remaining`. -/
def expireWorkflow (slot : Slot R) : Slot R :=
  { slot.assign .timedOut with error := some "timeout:workflow" }

def onSuccess (nodeId : NodeId) (node : TaskNode) (result : Option R) (slot : Slot R) : Slot R :=
  let slot := { slot with result := result }.assign .succeeded
  if Checkpointing node then
    ({ slot with checkpointId := some ((truthy node.checkpointId).getD nodeId) }.assign
      .checkpointed).stop .succeeded
  else { slot with task := .finished }

/-- The await on the call returns or raises. -/
def wake (nodeId : NodeId) (node : TaskNode) (slot : Slot R) : Outcome R → Slot R
  | .returned result => slot.onSuccess nodeId node result
  | .timeoutError => slot.onTimeout node
  | .cancellationError => slot.stop .cancelled
  | .error text => slot.onFailure node text

end Slot

-- ------ The executor

structure CancellationToken where
  cancelled : Bool := false
  forced : Bool := false

def CancellationToken.cancel (token : CancellationToken) (forced : Bool) : CancellationToken :=
  { cancelled := true, forced := forced || token.forced }

/-- Where `run` stands. -/
inductive Main (R : Type*) where
  | entering
  | gathering (layer : List NodeId)
  | returned (succeeded : Bool) (output : Option R)
  | raised (text : String)

/-- The arguments of `run`, and the executor's own setting. -/
structure Job where
  graph : TaskGraph
  handlers : List String := []
  failFast : Bool := true

namespace Job

def node (job : Job) (nodeId : NodeId) : Option TaskNode := job.graph.nodes.get? nodeId

/-- `handlers.get(handler_key) or handlers.get(node_id)` finds something. -/
def hasHandler (job : Job) (nodeId : NodeId) (node : TaskNode) : Bool :=
  let handlerKey := ((truthy node.handlerKey).or (truthy (some node.name))).getD nodeId
  decide (handlerKey ∈ job.handlers ∨ nodeId ∈ job.handlers)

def timed (job : Job) (node : TaskNode) : Bool :=
  node.timeout.any (· ≠ 0) || job.graph.timeoutPolicy.nodeTimeoutS.any (· ≠ 0)

/-- There is a `workflow_deadline`. -/
def hasDeadline (job : Job) : Bool := job.graph.timeoutPolicy.workflowTimeoutS.any (· ≠ 0)

end Job

structure Executor (R : Type*) where
  phase : GraphPhase := .running
  slots : NodeId → Slot R
  error : Option String := none
  cancelMode : Option CancelMode := none
  cancelForced : Bool := false
  cancelNodeId : Option NodeId := none
  token : CancellationToken := {}
  completed : List NodeId := []
  /-- the first exception out of a coroutine of the layer -/
  failure : Option GraphException := none
  main : Main R := .entering

namespace Executor

/-- `ExecutionState.from_graph`, phase `RUNNING`. -/
def initial (job : Job) : Executor R :=
  { slots := fun nid => { checkpointId := (job.node nid).bind TaskNode.checkpointId } }

/-- `state.nodes[nid]` changes. -/
def setSlot (s : Executor R) (nid : NodeId) (slot : Slot R) : Executor R :=
  { s with slots := Function.update s.slots nid slot }

/-- `f` on the states of some nodes. -/
def onSlots (s : Executor R) (p : NodeId → Prop) [DecidablePred p] (f : Slot R → Slot R) :
    Executor R :=
  { s with slots := fun nid => if p nid then f (s.slots nid) else s.slots nid }

def status (s : Executor R) (nid : NodeId) : NodeStatus := (s.slots nid).status

/-! ### Cancellation -/

/-- The target set of `_apply_cancel`; `none` when it raises. -/
def cancelTargets (g : TaskGraph) (mode : CancelMode) (nodeId : Option NodeId) :
    Option (List NodeId) :=
  match mode, truthy nodeId with
  | .graph, _ => some g.ids
  | .node, some nid => if nid ∈ g.ids then some [nid] else none
  | .subtree, some nid => g.subtree nid
  | .downstream, some nid => (g.downstream nid).map fun seen => nid :: seen
  | _, none => some []

/-- `cancel(mode, node_id=..., forced=...)`; the token is set first. -/
def cancel (job : Job) (s : Executor R) (mode : CancelMode) (nodeId : Option NodeId)
    (forced : Bool) : Executor R :=
  let s := { s with
    token := s.token.cancel forced, cancelMode := some mode, cancelForced := forced
    cancelNodeId := nodeId }
  match cancelTargets job.graph mode nodeId with
  | none => s
  | some targets => s.onSlots (· ∈ targets) (Slot.applyCancel forced)

/-! ### Conditions -/

/-- `ctx["node_statuses"]`. -/
def nodeStatuses (job : Job) (s : Executor R) (nid : NodeId) : Option String :=
  if nid ∈ job.graph.ids then some (s.status nid).value else none

def edgesAllow (env : Environment) (statuses : NodeId → Option String) (nodeId : NodeId) :
    List TaskEdge → Except GraphException Bool
  | [] => .ok true
  | e :: es =>
    if e.dst = nodeId then
      match evaluateCondition env statuses e.condition with
      | .ok true => edgesAllow env statuses nodeId es
      | res => res
    else edgesAllow env statuses nodeId es

def shouldRun (job : Job) (s : Executor R) (nodeId : NodeId) (node : TaskNode)
    (env : Environment) : Except GraphException Bool :=
  match edgesAllow env (s.nodeStatuses job) nodeId job.graph.edges with
  | .ok true => evaluateCondition env (s.nodeStatuses job) node.condition
  | res => res

/-! ### `_run_node` -/

end Executor

inductive NodeAction (R : Type*) where
  /-- the coroutine begins; the conditions read `env` -/
  | start (env : Environment)
  /-- the handler is called -/
  | call
  /-- the handler returns or raises -/
  | finish (outcome : Outcome R)
  /-- the coroutine sees that the call is done -/
  | wake
  /-- 0.05 s are over: the coroutine looks for a cancellation -/
  | poll
  /-- the cancelled call is over -/
  | drained
  /-- `wait_for` runs out of time -/
  | expire
  /-- the delay is over -/
  | slept

namespace Executor

/-- The node's state after the action, and the exception that leaves `_run_node`. -/
def advance (job : Job) (s : Executor R) (nid : NodeId) (node : TaskNode) :
    NodeAction R → Slot R × Option GraphException
  | .start env =>
    match (s.slots nid).task with
    | .spawned =>
      if (s.slots nid).cancelRequested ∨ s.token.cancelled then
        ((s.slots nid).stop .cancelled, none)
      else
        match s.shouldRun job nid node env with
        | .error e => ({ s.slots nid with task := .finished }, some e)
        | .ok false => ((s.slots nid).stop .skipped, none)
        | .ok true => ((s.slots nid).start node s.token.cancelled, none)
    | _ => (s.slots nid, none)
  | .call =>
    match (s.slots nid).task with
    | .calling =>
      let calls := (s.slots nid).calls + if job.hasHandler nid node then 1 else 0
      ({ s.slots nid with task := .handling, calls := calls }, none)
    | _ => (s.slots nid, none)
  | .finish outcome =>
    match (s.slots nid).task with
    | .handling =>
      -- without a handler `_call` returns `None`
      let outcome := if job.hasHandler nid node then outcome else .returned none
      ({ s.slots nid with task := .handled outcome }, none)
    | _ => (s.slots nid, none)
  | .wake =>
    match (s.slots nid).task with
    | .handled outcome => ((s.slots nid).wake nid node outcome, none)
    | _ => (s.slots nid, none)
  | .poll =>
    match (s.slots nid).task with
    | .calling | .handling =>
      if s.token.cancelled ∨ (s.slots nid).cancelRequested then
        ({ s.slots nid with task := .draining }, none)
      else (s.slots nid, none)
    | _ => (s.slots nid, none)
  | .drained =>
    match (s.slots nid).task with
    | .draining => ((s.slots nid).stop .cancelled, none)
    | _ => (s.slots nid, none)
  | .expire =>
    match (s.slots nid).task with
    | .calling | .handling | .handled _ =>
      if job.timed node then ((s.slots nid).onTimeout node, none) else (s.slots nid, none)
    | _ => (s.slots nid, none)
  | .slept =>
    match (s.slots nid).task with
    | .sleeping => (((s.slots nid).assign .running).attempt node s.token.cancelled, none)
    | _ => (s.slots nid, none)

/-! ### `run` -/

/-- The first of `names` that some succeeded node has gives its result. -/
def outputNamed (job : Job) (s : Executor R) (name : String) : Option (Option R) :=
  (job.graph.nodes.entries.find? fun (nid, node) =>
    node.name = name ∧ s.status nid = .succeeded).map fun (nid, _) => (s.slots nid).result

def pickOutput (job : Job) (s : Executor R) : Option R :=
  match ["response", "aggregate", "output"].findSome? (s.outputNamed job) with
  | some result => result
  | none =>
    ((job.graph.leaves.find? fun nid => s.status nid = .succeeded).bind fun nid =>
      (s.slots nid).result)

def anyStatus (job : Job) (s : Executor R) (status : NodeStatus) : Bool :=
  job.graph.ids.any fun nid => s.status nid = status

/-- `return ExecutionResult(state=state, succeeded=False)` in this phase. -/
def giveUp (s : Executor R) (phase : GraphPhase) : Executor R :=
  { s with phase := phase, main := .returned false none }

/-- What follows the loop. -/
def conclude (job : Job) (s : Executor R) : Executor R :=
  if s.phase = .failed then s.giveUp .failed
  else if s.anyStatus job .cancelled && s.token.cancelled then s.giveUp .cancelled
  else if s.anyStatus job .timedOut then s.giveUp .timedOut
  else if s.anyStatus job .failed then s.giveUp .failed
  else { s with phase := .succeeded, main := .returned true (s.pickOutput job) }

/-- The two `except` clauses of `run`; anything else leaves it. -/
def endWith (s : Executor R) : GraphException → Executor R
  | .cancellation => s.giveUp .cancelled
  | .timeout text => { s.giveUp .timedOut with error := some text }
  | .other text => { s with main := .raised text }

/-- The node still has to get a final status. -/
def Unfinished (job : Job) (s : Executor R) (nid : NodeId) : Prop :=
  nid ∈ job.graph.ids ∧ nid ∉ s.completed ∧ ¬ (s.status nid).Terminal

instance (job : Job) (s : Executor R) : DecidablePred (s.Unfinished job) :=
  fun _ => inferInstanceAs (Decidable (_ ∧ _))

/-- `completed.add` for some nodes. -/
def complete (s : Executor R) (nids : List NodeId) : Executor R :=
  { s with completed := nids.foldl (fun done nid => done.insert nid) s.completed }

def timeoutRemaining (job : Job) (s : Executor R) : Executor R :=
  (s.onSlots (s.Unfinished job) Slot.expireWorkflow).complete
    (job.graph.ids.filter (s.Unfinished job))

/-- "also pick up cancelled already marked". -/
def collectCancelled (job : Job) (s : Executor R) : Executor R :=
  s.complete (job.graph.ids.filter fun nid => s.status nid = .cancelled)

def readyLayer (job : Job) (s : Executor R) : List NodeId :=
  (job.graph.readyNodes s.completed).filter fun nid =>
    ¬ (s.status nid).Terminal ∧ s.status nid ≠ .running ∧ s.status nid ≠ .retrying

/-- `gather` creates the coroutines of the layer. -/
def spawn (s : Executor R) (layer : List NodeId) : Executor R :=
  { s.onSlots (· ∈ layer) fun slot => { slot with task := .spawned } with
    main := .gathering layer }

/-- The scan that skips nodes whose conditions fail: the state, whether it skipped
one, and the exception that ended it. -/
def softSkip (job : Job) (env : Environment) :
    List NodeId → Executor R → Bool → Executor R × Bool × Option GraphException
  | [], s, progressed => (s, progressed, none)
  | nid :: rest, s, progressed =>
    match job.node nid with
    | none => softSkip job env rest s progressed
    | some node =>
      if ∀ p ∈ job.graph.rev nid, p ∈ s.completed then
        match s.shouldRun job nid node env with
        | .error e => (s, progressed, some e)
        | .ok true => softSkip job env rest s progressed
        | .ok false =>
          softSkip job env rest
            ((s.setSlot nid ((s.slots nid).assign .skipped)).complete [nid]) true
      else softSkip job env rest s progressed

/-- The `while` loop up to its next await; a round without a layer skips a node. -/
def iterate (job : Job) (late : Bool) (env : Environment) : Nat → Executor R → Executor R
  | 0, s => s
  | n + 1, s =>
    if s.completed.length < job.graph.ids.length then
      if s.token.cancelled then s.endWith .cancellation
      else if job.hasDeadline && late then (s.timeoutRemaining job).conclude job
      else
        let layer := s.readyLayer job
        let s := s.collectCancelled job
        if layer = [] then
          let pending := job.graph.ids.filter (s.Unfinished job)
          if pending = [] then s.conclude job
          else
            match softSkip job env pending s false with
            | (s, _, some e) => s.endWith e
            | (s, true, none) => iterate job late env n s
            | (s, false, none) =>
              if s.token.cancelled then s.conclude job
              else s.endWith (.other "no ready nodes; graph may be stuck")
        else s.spawn layer
    else s.conclude job

/-- The loop; every round without a layer completes a node. -/
def drive (job : Job) (s : Executor R) (late : Bool) (env : Environment) : Executor R :=
  s.iterate job late env (job.graph.ids.length + 1)

def failFast (job : Job) (s : Executor R) (nid : NodeId) : Executor R :=
  let s := { s with phase := .failed, error := (s.slots nid).error }.cancel job .graph none false
  (s.onSlots (s.Unfinished job) (Slot.assign · .cancelled)).complete
    (job.graph.ids.filter (s.Unfinished job))

/-- The loop over the layer once `gather` is done. -/
def settle (job : Job) : List NodeId → Executor R → Executor R
  | [], s => s
  | nid :: rest, s =>
    if (s.status nid).Terminal then
      if job.failFast ∧ s.status nid = .failed then (s.complete [nid]).failFast job nid
      else settle job rest (s.complete [nid])
    else settle job rest s

/-- The main coroutine goes on, if what it waits for is there. -/
def resume (job : Job) (s : Executor R) (late : Bool) (env : Environment) : Executor R :=
  match s.main with
  | .entering => s.drive job late env
  | .gathering layer =>
    match s.failure with
    | some e => s.endWith e
    | none =>
      if ∀ nid ∈ layer, (s.slots nid).task.isFinished then
        (settle job layer s).drive job late env
      else s
  | _ => s

end Executor

-- ------ Runs

inductive Action (R : Type*) where
  | node (nid : NodeId) (a : NodeAction R)
  | resume (late : Bool) (env : Environment)
  | cancel (mode : CancelMode) (nodeId : Option NodeId) (forced : Bool)

namespace Executor

def step (job : Job) (s : Executor R) : Action R → Executor R
  | .node nid a =>
    match job.node nid with
    | none => s
    | some node =>
      { s.setSlot nid (s.advance job nid node a).1 with
        failure := s.failure.or (s.advance job nid node a).2 }
  | .resume late env => s.resume job late env
  | .cancel mode nodeId forced =>
    match s.main with
    -- nothing is awaited before the loop
    | .entering => s
    | _ => s.cancel job mode nodeId forced

def after (job : Job) (ops : List (Action R)) : Executor R := Run.exec (step job) (initial job) ops

end Executor

end Neuroswarm.Swarm
