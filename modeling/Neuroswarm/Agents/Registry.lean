import Neuroswarm.Agents.Agent
import Neuroswarm.Lib.Dict
import Neuroswarm.Lib.Fallible
import Neuroswarm.Lib.Run

/-!
# Agent registry — the catalog and its operations

The store keeps the agents by id with an index of their lowercased names; the other
indexes serve lookups only. Every operation either raises and leaves the registry
as it is, or stores one record; the lemmas at the end say which.
-/

namespace Neuroswarm.Agents

open Dict

-- ------ Store

/-- The agents by id, each under its own, and `_by_name`. -/
structure RegistryStore where
  agents : Dict String Agent
  byName : Dict String String
  keyed : ∀ id a, agents.get? id = some a → a.id = id

namespace RegistryStore

def empty : RegistryStore := ⟨Dict.empty, Dict.empty, fun _ _ h => nomatch h⟩

def get? (s : RegistryStore) (agentId : String) : Option Agent := s.agents.get? agentId

def all (s : RegistryStore) : List Agent := s.agents.values

def getByName (s : RegistryStore) (name : String) : Option Agent :=
  match s.byName.get? (lower name) with
  | some aid => if aid ≠ "" then s.get? aid else none
  | none => none

/-- `_unindex` -/
def unindexed (byName : Dict String String) (agent : Agent) : Dict String String :=
  if byName.get? (lower agent.name) = some agent.id then byName.erase (lower agent.name)
  else byName

def put (s : RegistryStore) (agent : Agent) : RegistryStore where
  agents := s.agents.set agent.id agent
  byName :=
    (match s.agents.get? agent.id with
      | some previous => unindexed s.byName previous
      | none => s.byName).set (lower agent.name) agent.id
  keyed id a h := by
    rw [get?_set] at h
    split at h
    · cases h
      exact Eq.symm ‹_›
    · exact s.keyed id a h

def remove (s : RegistryStore) (agentId : String) : RegistryStore where
  agents := s.agents.erase agentId
  byName :=
    match s.agents.get? agentId with
    | some agent => unindexed s.byName agent
    | none => s.byName
  keyed id a h := s.keyed id a (get?_erase_eq_some.mp h).2

theorem get?_put (s : RegistryStore) (agent : Agent) (id : String) :
    (s.put agent).get? id = if id = agent.id then some agent else s.get? id :=
  get?_set s.agents agent.id id agent

@[simp] theorem get?_put_self (s : RegistryStore) (agent : Agent) :
    (s.put agent).get? agent.id = some agent := by
  rw [get?_put, if_pos rfl]

end RegistryStore

-- ------ Operations

structure AgentRegistry where
  store : RegistryStore
  allowUnknownBackend : Bool := false
  allowUnknownQuant : Bool := false

namespace AgentRegistry

def get? (r : AgentRegistry) (agentId : String) : Option Agent := r.store.get? agentId

def asList (r : AgentRegistry) : List Agent := r.store.all

def put (r : AgentRegistry) (agent : Agent) : AgentRegistry :=
  { r with store := r.store.put agent }

def validate (r : AgentRegistry) (agent : Agent) : Except RegistryError Unit :=
  validateAgent r.allowUnknownBackend r.allowUnknownQuant agent

def NameFree (r : AgentRegistry) (agent : Agent) : Prop :=
  ∀ other ∈ r.store.getByName agent.name, other.id = agent.id

instance (r : AgentRegistry) (agent : Agent) : Decidable (r.NameFree agent) :=
  inferInstanceAs (Decidable (∀ other ∈ r.store.getByName agent.name, _))

/-- `_require`, and `get` without its metric. -/
def require (r : AgentRegistry) (agentId : String) : Except RegistryError Agent :=
  match r.get? agentId with
  | some agent => .ok agent
  | none => .error (.notFound agentId)

def checkName (r : AgentRegistry) (agent : Agent) : Except RegistryError Unit :=
  if r.NameFree agent then .ok () else .error (.duplicate "name")

def register (r : AgentRegistry) (agent : Agent) (replaceExisting autoReady : Bool) :
    Except RegistryError AgentRegistry := do
  r.validate agent
  match r.get? agent.id with
  | some existing =>
    if replaceExisting then
      r.checkName agent
      assertNotFrozen existing
      .ok (r.put (agent.withStatus (agent.status.onRegister autoReady)))
    else .error (.duplicate "id")
  | none =>
    r.checkName agent
    .ok (r.put (agent.withStatus (agent.status.onRegister autoReady)))

/-- `if not skip_validation: check` -/
def unlessSkipped (skipValidation : Bool) (check : Except RegistryError Unit) :
    Except RegistryError Unit :=
  if skipValidation then .ok () else check

def replace (r : AgentRegistry) (agent : Agent) (skipValidation : Bool) :
    Except RegistryError AgentRegistry := do
  unlessSkipped skipValidation (r.validate agent)
  let existing ← r.require agent.id
  unlessSkipped skipValidation (assertNotFrozen existing)
  r.checkName agent
  .ok (r.put agent)

def update (r : AgentRegistry) (agentId : String) (fields : List Field) :
    Except RegistryError AgentRegistry := do
  let current ← r.require agentId
  assertNotFrozen current
  let updated ← modelValidate (current.withFields fields agentId)
  r.replace updated false

/-- `newId` is the given one or the generated one. -/
def clone (r : AgentRegistry) (agentId newId : String) (newName : Option String) :
    Except RegistryError AgentRegistry := do
  let src ← r.require agentId
  let cloned ← modelValidate
    { src with
      id := newId
      name := (newName.filter (· ≠ "")).getD src.name
      status := .created
      frozen := false
      health := {} }
  r.register cloned false true

def freeze (r : AgentRegistry) (agentId : String) : Except RegistryError AgentRegistry := do
  let agent ← r.require agentId
  r.replace agent.freeze false

def transition (agentId : String) (current target : LifecycleState) :
    Except RegistryError LifecycleState :=
  if current.CanTransition target then .ok target
  else .error (.lifecycle agentId current target)

def setLifecycle (r : AgentRegistry) (agentId : String) (status : LifecycleState) :
    Except RegistryError AgentRegistry := do
  let agent ← r.require agentId
  assertNotFrozen agent
  let newStatus ← transition agentId agent.status status
  r.replace (agent.withStatus newStatus) false

def enable (r : AgentRegistry) (agentId : String) : Except RegistryError AgentRegistry :=
  r.setLifecycle agentId .ready

def disable (r : AgentRegistry) (agentId : String) : Except RegistryError AgentRegistry :=
  r.setLifecycle agentId .disabled

end AgentRegistry

/-- What a heartbeat records. -/
inductive Beat where
  | tick
  | success (latencyMs costUsd : ℚ)
  | failure (message : String)

def Beat.apply : Beat → HealthRecord → HealthRecord
  | .tick, h => h.touchHeartbeat
  | .success latencyMs costUsd, h => h.recordSuccess latencyMs costUsd
  | .failure message, h => h.recordFailure message

namespace AgentRegistry

/-- The replace that ends a heartbeat, with the record read at its start. -/
def writeBeat (r : AgentRegistry) (agent : Agent) (b : Beat) : Except RegistryError AgentRegistry :=
  r.replace (agent.withHealth (b.apply agent.health)) true

/-- `tick`, `record_success` and `record_failure`, undisturbed. -/
def heartbeat (r : AgentRegistry) (agentId : String) (b : Beat) :
    Except RegistryError AgentRegistry := do
  let agent ← r.require agentId
  r.writeBeat agent b

end AgentRegistry

/-- The operations of an operator on a registered agent. -/
inductive Control where
  | enable (agentId : String)
  | disable (agentId : String)
  | setLifecycle (agentId : String) (status : LifecycleState)
  | update (agentId : String) (fields : List Field)
  | freeze (agentId : String)

def Control.run (r : AgentRegistry) : Control → Except RegistryError AgentRegistry
  | .enable agentId => r.enable agentId
  | .disable agentId => r.disable agentId
  | .setLifecycle agentId status => r.setLifecycle agentId status
  | .update agentId fields => r.update agentId fields
  | .freeze agentId => r.freeze agentId

/-- The operations that each take the lock of the registry once. -/
inductive Op where
  | register (agent : Agent) (replaceExisting autoReady : Bool)
  | replace (agent : Agent) (skipValidation : Bool)
  | clone (agentId newId : String) (newName : Option String)
  | control (c : Control)
  | heartbeat (agentId : String) (b : Beat)

def Op.run (r : AgentRegistry) : Op → Except RegistryError AgentRegistry
  | .register agent replaceExisting autoReady => r.register agent replaceExisting autoReady
  | .replace agent skipValidation => r.replace agent skipValidation
  | .clone agentId newId newName => r.clone agentId newId newName
  | .control c => c.run r
  | .heartbeat agentId b => r.heartbeat agentId b

namespace AgentRegistry

/-- The registry after an operation that may raise. -/
def after (r : AgentRegistry) (result : Except RegistryError AgentRegistry) : AgentRegistry :=
  match result with
  | .ok r' => r'
  | .error _ => r

def step (r : AgentRegistry) (op : Op) : AgentRegistry := r.after (op.run r)

-- ------ What the operations store

variable {r r' : AgentRegistry} {agent a : Agent} {id : String}

theorem get?_put (r : AgentRegistry) (agent : Agent) (id : String) :
    (r.put agent).get? id = if id = agent.id then some agent else r.get? id :=
  r.store.get?_put agent id

@[simp] theorem get?_put_self (r : AgentRegistry) (agent : Agent) :
    (r.put agent).get? agent.id = some agent :=
  r.store.get?_put_self agent

theorem id_of_get? (h : r.get? id = some a) : a.id = id := r.store.keyed id a h

theorem require_ok : r.require id = .ok a ↔ r.get? id = some a := by
  unfold require
  cases r.get? id <;> simp

theorem checkName_ok {u : Unit} : r.checkName agent = .ok u ↔ r.NameFree agent := by
  unfold checkName
  split <;> simp_all

theorem unlessSkipped_ok {skip : Bool} {check : Except RegistryError Unit} {u : Unit} :
    unlessSkipped skip check = .ok u ↔ (skip = false → check = .ok ()) := by
  unfold unlessSkipped
  cases skip <;> simp

theorem transition_ok {current target s : LifecycleState} :
    transition id current target = .ok s ↔ current.CanTransition target ∧ target = s := by
  unfold transition
  split <;> simp_all

/-- The checks of `replace` on a record that would come over `existing`. -/
def Replaceable (r : AgentRegistry) (agent existing : Agent) (skipValidation : Bool) : Prop :=
  r.NameFree agent ∧
    (skipValidation = false → r.validate agent = .ok () ∧ existing.frozen = false)

theorem replace_ok {skip : Bool} :
    r.replace agent skip = .ok r' ↔
      ∃ existing, r.get? agent.id = some existing ∧ r.Replaceable agent existing skip ∧
        r' = r.put agent := by
  unfold replace Replaceable
  simp only [Except.bind_eq_ok, unlessSkipped_ok, require_ok, assertNotFrozen_ok, checkName_ok,
    Except.ok.injEq]
  constructor
  · rintro ⟨_, hValid, existing, hGet, _, hFrozen, _, hName, rfl⟩
    exact ⟨existing, hGet, ⟨hName, fun h => ⟨hValid h, hFrozen h⟩⟩, rfl⟩
  · rintro ⟨existing, hGet, ⟨hName, hChecks⟩, rfl⟩
    exact ⟨(), fun h => (hChecks h).1, existing, hGet, (), fun h => (hChecks h).2, (), hName, rfl⟩

theorem register_ok_of_some {existing : Agent} {rep auto : Bool}
    (hGet : r.get? agent.id = some existing) :
    r.register agent rep auto = .ok r' ↔
      rep = true ∧ r.Replaceable agent existing false ∧
        r' = r.put (agent.withStatus (agent.status.onRegister auto)) := by
  unfold register Replaceable
  rw [hGet, Except.bind_eq_ok]
  cases rep
  · simp
  · simp only [if_true, Except.bind_eq_ok, assertNotFrozen_ok, checkName_ok, Except.ok.injEq,
      true_and, forall_const]
    constructor
    · rintro ⟨_, hValid, _, hName, _, hFrozen, rfl⟩
      exact ⟨⟨hName, hValid, hFrozen⟩, rfl⟩
    · rintro ⟨⟨hName, hValid, hFrozen⟩, rfl⟩
      exact ⟨(), hValid, (), hName, (), hFrozen, rfl⟩

theorem register_ok_of_none {rep auto : Bool} (hGet : r.get? agent.id = none) :
    r.register agent rep auto = .ok r' ↔
      r.validate agent = .ok () ∧ r.NameFree agent ∧
        r' = r.put (agent.withStatus (agent.status.onRegister auto)) := by
  unfold register
  simp only [hGet, Except.bind_eq_ok, checkName_ok, Except.ok.injEq]
  constructor
  · rintro ⟨_, hValid, _, hName, rfl⟩
    exact ⟨hValid, hName, rfl⟩
  · rintro ⟨hValid, hName, rfl⟩
    exact ⟨(), hValid, (), hName, rfl⟩

theorem update_ok {fields : List Field} :
    r.update id fields = .ok r' ↔
      ∃ current, r.get? id = some current ∧ current.frozen = false ∧
        modelAccepts (current.withFields fields id) = true ∧
        r.Replaceable (normalized (current.withFields fields id)) current false ∧
        r' = r.put (normalized (current.withFields fields id)) := by
  unfold update
  simp only [Except.bind_eq_ok, require_ok, assertNotFrozen_ok, modelValidate_ok, replace_ok]
  constructor
  · rintro ⟨current, hGet, _, hFrozen, _, ⟨hAccepts, rfl⟩, existing, hGet', hRep, rfl⟩
    have hSame : existing = current := Option.some.inj (hGet'.symm.trans hGet)
    subst hSame
    exact ⟨existing, hGet, hFrozen, hAccepts, hRep, rfl⟩
  · rintro ⟨current, hGet, hFrozen, hAccepts, hRep, rfl⟩
    exact ⟨current, hGet, (), hFrozen, _, ⟨hAccepts, rfl⟩, current, hGet, hRep, rfl⟩

theorem setLifecycle_stores {status : LifecycleState} (h : r.setLifecycle id status = .ok r') :
    ∃ current, r.get? id = some current ∧ current.status.CanTransition status ∧
      r' = r.put (current.withStatus status) := by
  unfold setLifecycle at h
  simp only [Except.bind_eq_ok, require_ok, transition_ok, replace_ok] at h
  obtain ⟨current, hGet, _, _, _, ⟨hAllowed, rfl⟩, _, _, _, rfl⟩ := h
  exact ⟨current, hGet, hAllowed, rfl⟩

theorem freeze_stores (h : r.freeze id = .ok r') :
    ∃ current, r.get? id = some current ∧ r' = r.put current.freeze := by
  unfold freeze at h
  simp only [Except.bind_eq_ok, require_ok, replace_ok] at h
  obtain ⟨current, hGet, _, _, _, rfl⟩ := h
  exact ⟨current, hGet, rfl⟩

theorem writeBeat_ok {b : Beat} :
    r.writeBeat agent b = .ok r' ↔
      (∃ existing, r.get? agent.id = some existing) ∧ r.NameFree agent ∧
        r' = r.put (agent.withHealth (b.apply agent.health)) := by
  unfold writeBeat
  rw [replace_ok]
  constructor
  · rintro ⟨existing, hGet, ⟨hName, _⟩, rfl⟩
    exact ⟨⟨existing, hGet⟩, hName, rfl⟩
  · rintro ⟨⟨existing, hGet⟩, hName, rfl⟩
    exact ⟨existing, hGet, ⟨hName, fun h => nomatch h⟩, rfl⟩

theorem heartbeat_stores {b : Beat} (h : r.heartbeat id b = .ok r') :
    ∃ current, r.get? id = some current ∧
      r' = r.put (current.withHealth (b.apply current.health)) := by
  unfold heartbeat at h
  simp only [Except.bind_eq_ok, require_ok, writeBeat_ok] at h
  obtain ⟨current, hGet, _, _, rfl⟩ := h
  exact ⟨current, hGet, rfl⟩

theorem clone_stores {newId : String} {newName : Option String}
    (h : r.clone id newId newName = .ok r') :
    ∃ cloned : Agent, r.get? cloned.id = none ∧
      r' = r.put (cloned.withStatus (cloned.status.onRegister true)) := by
  unfold clone at h
  simp only [Except.bind_eq_ok, modelValidate_ok] at h
  obtain ⟨src, _, cloned, _, hRegister⟩ := h
  cases hGet : r.get? cloned.id with
  | some existing => exact nomatch ((register_ok_of_some hGet).mp hRegister).1
  | none => exact ⟨cloned, hGet, ((register_ok_of_none hGet).mp hRegister).2.2⟩

end AgentRegistry

end Neuroswarm.Agents
