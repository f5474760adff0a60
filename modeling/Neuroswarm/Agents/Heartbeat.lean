import Mathlib.Algebra.Group.Prod
import Neuroswarm.Agents.Registry

/-!
# Agent registry — heartbeats beside an operator

A heartbeat reads the record of an agent, computes its health and replaces the record;
the lock of the recorder keeps heartbeats apart from each other, not from the operator,
whose operations each take the lock of the registry once. Beside the registry stands a
ledger of what is due: the record that the last completed operation left, and the
counts of that record with every heartbeat recorded since.

A heartbeat undoes nothing iff at its replace the agent still has the record it read,
health figures other than the counts apart (`undisturbed_iff`).
-/

namespace Neuroswarm.Agents

open Run AgentRegistry

def Beat.counted : Beat → Nat × Nat
  | .tick => (0, 0)
  | .success _ _ => (1, 0)
  | .failure _ => (0, 1)

theorem Beat.counts_apply (b : Beat) (h : HealthRecord) :
    (b.apply h).counts = h.counts + b.counted := by
  cases b <;> rfl

namespace Control

def agentId : Control → String
  | .enable agentId => agentId
  | .disable agentId => agentId
  | .setLifecycle agentId _ => agentId
  | .update agentId _ => agentId
  | .freeze agentId => agentId

/-- The operation brings a health record of its own. -/
def bringsHealth : Control → Bool
  | .update _ fields => fields.any Field.isHealth
  | _ => false

/-- A record for `id` is stored that has the counts of the present one. -/
def KeepsCounts (r r' : AgentRegistry) (id : String) : Prop :=
  ∃ current a', r.get? id = some current ∧ a'.id = id ∧ r' = r.put a' ∧
    a'.health.counts = current.health.counts

variable {r r' : AgentRegistry}

theorem keepsCounts_setLifecycle {id : String} {status : LifecycleState}
    (h : r.setLifecycle id status = .ok r') : KeepsCounts r r' id := by
  obtain ⟨current, hGet, _, rfl⟩ := setLifecycle_stores h
  have hId : current.id = id := id_of_get? hGet
  exact ⟨current, current.withStatus status, hGet, hId, rfl, rfl⟩

theorem keepsCounts_freeze {id : String} (h : r.freeze id = .ok r') :
    KeepsCounts r r' id := by
  obtain ⟨current, hGet, rfl⟩ := freeze_stores h
  have hId : current.id = id := id_of_get? hGet
  exact ⟨current, current.freeze, hGet, hId, rfl, rfl⟩

theorem keepsCounts_update {id : String} {fields : List Field} (h : r.update id fields = .ok r')
    (hNone : fields.any Field.isHealth = false) :
    KeepsCounts r r' id := by
  obtain ⟨current, hGet, _, _, _, rfl⟩ := update_ok.mp h
  refine ⟨current, normalized (current.withFields fields id), hGet, rfl, rfl, ?_⟩
  have hKept : (current.withFields fields id).health = current.health :=
    Agent.withFields_health id fun f hf => by simpa using List.any_eq_false.mp hNone f hf
  show (current.withFields fields id).health.validated.counts = current.health.counts
  rw [hKept, HealthRecord.counts_validated]

theorem keepsCounts {c : Control} (h : c.run r = .ok r') (hNone : c.bringsHealth = false) :
    KeepsCounts r r' c.agentId := by
  cases c with
  | enable id => exact keepsCounts_setLifecycle h
  | disable id => exact keepsCounts_setLifecycle h
  | setLifecycle id status => exact keepsCounts_setLifecycle h
  | freeze id => exact keepsCounts_freeze h
  | update id fields => exact keepsCounts_update h hNone

theorem stores {c : Control} (h : c.run r = .ok r') :
    ∃ current a', r.get? c.agentId = some current ∧ a'.id = c.agentId ∧ r' = r.put a' ∧
      (c.bringsHealth = false → a'.health.counts = current.health.counts) := by
  cases hBrings : c.bringsHealth with
  | false =>
    obtain ⟨current, a', hGet, hId, hPut, hCounts⟩ := keepsCounts h hBrings
    exact ⟨current, a', hGet, hId, hPut, fun _ => hCounts⟩
  | true =>
    cases c with
    | update id fields =>
      obtain ⟨current, hGet, _, _, _, rfl⟩ := update_ok.mp h
      exact ⟨current, normalized (current.withFields fields id), hGet, rfl, rfl, fun h => nomatch h⟩
    | _ => exact nomatch hBrings

end Control

structure Due where
  core : Agent
  counts : Nat × Nat
deriving DecidableEq

def Agent.due (a : Agent) : Due := ⟨a.core, a.health.counts⟩

/-- The registry, the heartbeat between its read and its replace, and the ledger. -/
structure Monitor where
  registry : AgentRegistry
  pending : Option (Agent × Beat)
  ledger : Dict String Due

inductive MonitorEvent where
  /-- a heartbeat reads its agent -/
  | read (agentId : String) (b : Beat)
  /-- the heartbeat replaces the record -/
  | write
  | control (c : Control)

namespace Monitor

def start (r : AgentRegistry) : Monitor :=
  { registry := r, pending := none, ledger := r.store.agents.mapValues fun _ a => Agent.due a }

/-- The ledger after a completed operation: it takes over the record, and its counts if the
operation brings them. -/
def settle (ledger : Dict String Due) (c : Control) (r' : AgentRegistry) : Dict String Due :=
  match r'.get? c.agentId with
  | some a' =>
    match ledger.get? c.agentId with
    | some due => ledger.set c.agentId
        { core := a'.core, counts := if c.bringsHealth then a'.health.counts else due.counts }
    | none => ledger.set c.agentId a'.due
  | none => ledger

/-- The get of a heartbeat; it waits while another one holds the lock of the recorder. -/
def read (m : Monitor) (agentId : String) (b : Beat) : Monitor :=
  match m.pending with
  | some _ => m
  | none => { m with pending := (m.registry.get? agentId).map fun agent => (agent, b) }

/-- The replace of a heartbeat. -/
def write (m : Monitor) : Monitor :=
  match m.pending with
  | none => m
  | some (agent, b) =>
    match m.registry.writeBeat agent b with
    | .ok r' =>
      { registry := r'
        pending := none
        ledger := m.ledger.modify agent.id fun due =>
          { due with counts := due.counts + b.counted } }
    | .error _ => { m with pending := none }

def operate (m : Monitor) (c : Control) : Monitor :=
  match c.run m.registry with
  | .ok r' => { m with registry := r', ledger := settle m.ledger c r' }
  | .error _ => m

def step (m : Monitor) : MonitorEvent → Monitor
  | .read agentId b => m.read agentId b
  | .write => m.write
  | .control c => m.operate c

def Agrees (m : Monitor) : Prop :=
  ∀ id a, m.registry.get? id = some a → m.ledger.get? id = some a.due

/-- A replace that meets the record it was computed from, unless another agent has taken the
name of that record. -/
def Fresh (m : Monitor) : MonitorEvent → Prop
  | .write => ∀ p ∈ m.pending, m.registry.NameFree p.1 →
      ∀ current ∈ m.registry.get? p.1.id, p.1.due = current.due
  | _ => True

instance (m : Monitor) : Decidable m.Agrees :=
  decidable_of_iff (∀ e ∈ m.registry.store.agents.entries, m.ledger.get? e.1 = some e.2.due)
    (Dict.forall_mem_entries_iff (P := fun id (a : Agent) => m.ledger.get? id = some a.due))

variable {m : Monitor}

theorem agrees_start (r : AgentRegistry) : Agrees (start r) := by
  intro id a h
  show (r.store.agents.mapValues fun _ a => Agent.due a).get? id = some a.due
  rw [Dict.get?_mapValues, show r.store.agents.get? id = some a from h]
  rfl

theorem agrees_read (h : Agrees m) (agentId : String) (b : Beat) :
    Agrees (m.read agentId b) := by
  unfold read
  split <;> exact h

theorem agrees_put_iff (h : Agrees m) (a' : Agent) (pending : Option (Agent × Beat)) (due : Due) :
    Agrees ⟨m.registry.put a', pending, m.ledger.set a'.id due⟩ ↔ a'.due = due := by
  constructor
  · intro hAgrees
    have hDue := hAgrees a'.id a' (get?_put_self m.registry a')
    rw [Dict.get?_set_self] at hDue
    exact (Option.some.inj hDue).symm
  · rintro rfl id a hGet
    rw [get?_put] at hGet
    rw [Dict.get?_set]
    split at hGet
    · cases hGet
      rw [if_pos ‹_›]
    · rw [if_neg ‹_›]
      exact h id a hGet

theorem agrees_control (h : Agrees m) (c : Control) : Agrees (m.operate c) := by
  rcases hRun : c.run m.registry with e | r'
  · have hStep : m.operate c = m := by simp only [operate, hRun]
    rwa [hStep]
  · obtain ⟨current, a', hGet, hId, rfl, hCounts⟩ := Control.stores hRun
    have hDue : m.ledger.get? a'.id = some current.due := hId ▸ h _ _ hGet
    have hStep : m.operate c = ⟨m.registry.put a', m.pending,
        m.ledger.set a'.id
          ⟨a'.core, if c.bringsHealth then a'.health.counts else current.health.counts⟩⟩ := by
      simp only [operate, hRun, settle, ← hId, get?_put_self, hDue, Agent.due]
    rw [hStep, agrees_put_iff h]
    cases hBrings : c.bringsHealth with
    | true => rfl
    | false => rw [Agent.due, hCounts hBrings, if_neg Bool.false_ne_true]

theorem agrees_write_iff (h : Agrees m) : Agrees m.write ↔ Fresh m .write := by
  cases hPending : m.pending with
  | none =>
    have hStep : m.write = m := by simp only [write, hPending]
    rw [hStep]
    exact iff_of_true h (by simp [Fresh, hPending])
  | some p =>
    obtain ⟨agent, b⟩ := p
    rcases hRun : m.registry.writeBeat agent b with e | r'
    · have hStep : m.write = { m with pending := none } := by
        simp only [write, hPending, hRun]
      rw [hStep]
      refine iff_of_true h ?_
      -- the replace is refused: the agent is gone or its name is taken
      rintro q hq hName current hGet
      rw [hPending] at hq
      cases hq
      have hOk : m.registry.writeBeat agent b = .ok _ :=
        writeBeat_ok.mpr ⟨⟨current, hGet⟩, hName, rfl⟩
      exact nomatch hRun.symm.trans hOk
    · obtain ⟨⟨current, hGet⟩, hName, rfl⟩ := writeBeat_ok.mp hRun
      have hDue : m.ledger.get? agent.id = some current.due := h _ _ hGet
      have hStep : m.write = ⟨m.registry.put (agent.withHealth (b.apply agent.health)), none,
          m.ledger.set agent.id ⟨current.core, current.health.counts + b.counted⟩⟩ := by
        simp only [write, hPending, hRun, Dict.modify_of_some hDue, Agent.due]
      rw [hStep]
      refine (agrees_put_iff h _ _ _).trans ?_
      have hWritten : (agent.withHealth (b.apply agent.health)).due =
          ⟨agent.core, agent.health.counts + b.counted⟩ := by
        rw [Agent.due, ← Beat.counts_apply]
        rfl
      rw [hWritten]
      simp [Fresh, hPending, hName, hGet, Agent.due]

/-- Heartbeats undo no operation of the operator and are each counted once, throughout a run,
iff each of them replaces the record it read. -/
theorem undisturbed_iff (r : AgentRegistry) (events : List MonitorEvent) :
    Along step Agrees (start r) events ↔ Every step Fresh (start r) events := by
  refine along_iff_every (I := Agrees) (fun _ h => h) ?_ ?_ (agrees_start r) events
  · intro m event h hFresh
    cases event with
    | read agentId b => exact agrees_read h agentId b
    | write => exact (agrees_write_iff h).mpr hFresh
    | control c => exact agrees_control h c
  · intro m event h hStale
    cases event with
    | read agentId b => exact absurd trivial hStale
    | write => exact fun hAgrees => hStale ((agrees_write_iff h).mp hAgrees)
    | control c => exact absurd trivial hStale

/-- An operator disables an agent between the two halves of a heartbeat; the agent is back. -/
theorem tick_undoes_disable :
    ¬ ∀ (r : AgentRegistry) (events : List MonitorEvent), Along step Agrees (start r) events := by
  intro h
  let coder : Agent := { id := "coder", name := "coder", status := .ready }
  have hLast := (h ⟨RegistryStore.empty.put coder, false, false⟩
    [.read "coder" .tick, .control (.disable "coder"), .write]).exec
  revert hLast
  decide +kernel

end Monitor

end Neuroswarm.Agents
