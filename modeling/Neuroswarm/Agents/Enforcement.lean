import Neuroswarm.Agents.Registry

/-!
# Agent registry — the lifecycle over mixtures of operations

A call is an operation, a bulk registration or the loading of plugins; the last two
are registrations one after another, up to the first that raises. The lifecycle is
enforced when every operation moves the status of each registered agent along the
table, and out of `disabled` into `ready` only when asked to. The operations that
store a record built by the caller do not look at the status it comes over.
-/

namespace Neuroswarm.Agents

open Run AgentRegistry

-- ------ Calls

namespace AgentRegistry

/-- The registry after `bulk_register`, with the count unless a registration raises. -/
def bulkRegister (r : AgentRegistry) (replaceExisting : Bool) :
    List Agent → AgentRegistry × Except RegistryError Nat
  | [] => (r, .ok 0)
  | agent :: agents =>
    match r.register agent replaceExisting true with
    | .error e => (r, .error e)
    | .ok r' =>
      let (r'', count) := r'.bulkRegister replaceExisting agents
      (r'', count.map (· + 1))

/-- `PluginLoader.load_all`: the agents of each plugin, or its failure. -/
def loadAll (plugins : List (Option (List Agent))) : Except RegistryError (List Agent) :=
  match plugins.mapM id with
  | some loaded => .ok loaded.flatten
  | none => .error .plugin

def loadPlugins (r : AgentRegistry) (plugins : List (Option (List Agent))) :
    AgentRegistry × Except RegistryError Nat :=
  match loadAll plugins with
  | .ok agents => r.bulkRegister true agents
  | .error e => (r, .error e)

end AgentRegistry

inductive Call where
  | op (o : Op)
  | bulkRegister (agents : List Agent) (replaceExisting : Bool)
  | loadPlugins (plugins : List (Option (List Agent)))

def Call.run (r : AgentRegistry) : Call → AgentRegistry
  | .op o => r.step o
  | .bulkRegister agents replaceExisting => (r.bulkRegister replaceExisting agents).1
  | .loadPlugins plugins => (r.loadPlugins plugins).1

/-- The operations a call consists of, if none raises. -/
def Call.ops : Call → List Op
  | .op o => [o]
  | .bulkRegister agents replaceExisting => agents.map fun a => .register a replaceExisting true
  | .loadPlugins plugins =>
    match loadAll plugins with
    | .ok agents => agents.map fun a => .register a true true
    | .error _ => []

namespace AgentRegistry

/-- The operations up to the first that raises. -/
def performed (r : AgentRegistry) : List Op → List Op
  | [] => []
  | op :: ops => op :: if (op.run r).isOk then (r.step op).performed ops else []

def history (r : AgentRegistry) : List Call → List Op
  | [] => []
  | call :: calls => r.performed call.ops ++ (call.run r).history calls

variable {r r' : AgentRegistry} {a a' existing : Agent} {id : String} {op : Op}

theorem step_of_ok (h : op.run r = .ok r') : r.step op = r' := by
  unfold step
  rw [h]
  rfl

theorem step_of_error {e : RegistryError} (h : op.run r = .error e) : r.step op = r := by
  unfold step
  rw [h]
  rfl

-- ------ The lifecycle

/-- The operation is asked to change the lifecycle of the agent. -/
def Asked (id : String) (op : Op) : Prop :=
  op = .control (.enable id) ∨ ∃ status, op = .control (.setLifecycle id status)

/-- The status of every registered agent moves along the table. -/
def Lawful (r : AgentRegistry) (op : Op) : Prop :=
  ∀ id a, r.get? id = some a → ∃ a', (r.step op).get? id = some a' ∧
    a.status.CanTransition a'.status ∧ (a.status = .disabled → a'.status = .ready → Asked id op)

/-- The lifecycle is enforced over a sequence of calls. -/
structure Enforced (r : AgentRegistry) (calls : List Call) : Prop where
  lawful : Every step Lawful r (r.history calls)
  retired_final : ∀ before between rest, r.history calls = before ++ between ++ rest →
    ∀ id a a', (exec step r before).get? id = some a → a.status = .retired →
      (exec step r (before ++ between)).get? id = some a' → a'.status.isSelectable = false

def Follows (current brought : LifecycleState) : Prop :=
  current.CanTransition brought ∧ ¬ (current = .disabled ∧ brought = .ready)

/-- The operations that do not bring a record over a registered agent, or one whose status
follows: a registration that replaces, a replace and an update, unless their checks refuse. -/
def Safe (r : AgentRegistry) : Op → Prop
  | .register agent replaceExisting autoReady =>
    ∀ existing ∈ r.get? agent.id,
      replaceExisting = true ∧ r.Replaceable agent existing false →
        Follows existing.status (agent.status.onRegister autoReady)
  | .replace agent skipValidation =>
    ∀ existing ∈ r.get? agent.id,
      r.Replaceable agent existing skipValidation → Follows existing.status agent.status
  | .control (.update id fields) =>
    ∀ current ∈ r.get? id,
      current.frozen = false ∧ modelAccepts (current.withFields fields id) = true ∧
        r.Replaceable (normalized (current.withFields fields id)) current false →
          Follows current.status (current.withFields fields id).status
  | _ => True

instance (r : AgentRegistry) (agent existing : Agent) (skip : Bool) :
    Decidable (r.Replaceable agent existing skip) :=
  inferInstanceAs (Decidable (_ ∧ (_ → _)))

instance (current brought : LifecycleState) : Decidable (Follows current brought) :=
  inferInstanceAs (Decidable (_ ∧ _))

instance (r : AgentRegistry) : DecidablePred (Safe r)
  | .register agent _ _ => inferInstanceAs (Decidable (∀ existing ∈ r.get? agent.id, _ → _))
  | .replace agent _ => inferInstanceAs (Decidable (∀ existing ∈ r.get? agent.id, _ → _))
  | .control (.update id _) => inferInstanceAs (Decidable (∀ current ∈ r.get? id, _ → _))
  | .clone .. | .heartbeat .. => .isTrue trivial
  | .control (.enable _) | .control (.disable _) => .isTrue trivial
  | .control (.setLifecycle ..) | .control (.freeze _) => .isTrue trivial

theorem asked_of_same (hDisabled : a.status = .disabled) (hReady : a.status = .ready) :
    Asked id op :=
  nomatch hDisabled.symm.trans hReady

theorem lawful_of_same (h : r.step op = r) : Lawful r op := by
  intro id a hGet
  exact ⟨a, by rw [h, hGet], .refl a.status, asked_of_same⟩

theorem lawful_of_raises (h : ∀ r', op.run r ≠ .ok r') : Lawful r op := by
  rcases hRun : op.run r with e | r'
  · exact lawful_of_same (step_of_error hRun)
  · exact absurd hRun (h r')

theorem lawful_of_new (h : r.step op = r.put a') (hNew : r.get? a'.id = none) : Lawful r op := by
  intro id a hGet
  have hNe : id ≠ a'.id := by
    rintro rfl
    simp [hNew] at hGet
  refine ⟨a, ?_, .refl a.status, asked_of_same⟩
  rw [h, get?_put, if_neg hNe, hGet]

theorem lawful_put_iff (h : r.step op = r.put a') (hGet : r.get? a'.id = some a) :
    Lawful r op ↔ a.status.CanTransition a'.status ∧
      (a.status = .disabled → a'.status = .ready → Asked a'.id op) := by
  constructor
  · intro hLawful
    obtain ⟨b, hb, hAllowed, hAsked⟩ := hLawful a'.id a hGet
    rw [h, get?_put_self] at hb
    cases hb
    exact ⟨hAllowed, hAsked⟩
  · rintro ⟨hAllowed, hAsked⟩ id b hb
    rw [h, get?_put]
    split
    · subst id
      cases hGet.symm.trans hb
      exact ⟨a', rfl, hAllowed, hAsked⟩
    · exact ⟨b, hb, .refl b.status, asked_of_same⟩

theorem lawful_iff_follows {P : Prop} (hRun : ∀ r', op.run r = .ok r' ↔ P ∧ r' = r.put a')
    (hGet : r.get? a'.id = some existing) (hNot : ¬ Asked a'.id op) :
    Lawful r op ↔ (P → Follows existing.status a'.status) := by
  by_cases hP : P
  · rw [lawful_put_iff (step_of_ok ((hRun _).mpr ⟨hP, rfl⟩)) hGet, Follows]
    constructor
    · rintro ⟨hAllowed, hAsked⟩ _
      exact ⟨hAllowed, fun h => hNot (hAsked h.1 h.2)⟩
    · intro h
      exact ⟨(h hP).1, fun hDisabled hReady => absurd ⟨hDisabled, hReady⟩ (h hP).2⟩
  · exact iff_of_true (lawful_of_raises fun r' h => hP ((hRun r').mp h).1) fun h => absurd h hP

theorem lawful_of_allowed (id : String)
    (hRun : ∀ r', op.run r = .ok r' → ∃ current a', r.get? id = some current ∧
      a'.id = current.id ∧ r' = r.put a' ∧ current.status.CanTransition a'.status ∧
        (current.status = .disabled → a'.status = .ready → Asked id op)) :
    Lawful r op := by
  rcases h : op.run r with e | r'
  · exact lawful_of_same (step_of_error h)
  · obtain ⟨current, a', hGet, hId, rfl, hStatus⟩ := hRun r' h
    have hKey : a'.id = id := hId.trans (id_of_get? hGet)
    subst hKey
    exact (lawful_put_iff (step_of_ok h) hGet).mpr hStatus

theorem lawful_setLifecycle {status : LifecycleState} (hOp : op.run r = r.setLifecycle id status)
    (hAsked : status = .ready → Asked id op) : Lawful r op := by
  refine lawful_of_allowed id fun r' h => ?_
  obtain ⟨current, hGet, hAllowed, rfl⟩ := setLifecycle_stores (hOp ▸ h)
  exact ⟨current, current.withStatus status, hGet, rfl, rfl, hAllowed, fun _ => hAsked⟩

theorem lawful_freeze : Lawful r (.control (.freeze id)) := by
  refine lawful_of_allowed id fun r' h => ?_
  obtain ⟨current, hGet, rfl⟩ := freeze_stores h
  exact ⟨current, current.freeze, hGet, rfl, rfl, .refl current.status, asked_of_same⟩

theorem lawful_heartbeat {b : Beat} : Lawful r (.heartbeat id b) := by
  refine lawful_of_allowed id fun r' h => ?_
  obtain ⟨current, hGet, rfl⟩ := heartbeat_stores h
  exact ⟨current, current.withHealth (b.apply current.health), hGet, rfl, rfl,
    .refl current.status, asked_of_same⟩

theorem lawful_clone {newId : String} {newName : Option String} :
    Lawful r (.clone id newId newName) := by
  rcases h : (Op.clone id newId newName).run r with e | r'
  · exact lawful_of_same (step_of_error h)
  · obtain ⟨cloned, hNew, rfl⟩ := clone_stores h
    exact lawful_of_new (step_of_ok h) hNew

theorem lawful_register_iff {rep auto : Bool} :
    Lawful r (.register a rep auto) ↔ Safe r (.register a rep auto) := by
  cases hGet : r.get? a.id with
  | none =>
    refine iff_of_true ?_ (by simp [Safe, hGet])
    rcases h : (Op.register a rep auto).run r with e | r'
    · exact lawful_of_same (step_of_error h)
    · obtain ⟨_, _, rfl⟩ := (register_ok_of_none hGet).mp h
      exact lawful_of_new (step_of_ok h) hGet
  | some existing =>
    have hRun : ∀ r', (Op.register a rep auto).run r = .ok r' ↔
        (rep = true ∧ r.Replaceable a existing false) ∧
          r' = r.put (a.withStatus (a.status.onRegister auto)) :=
      fun r' => (register_ok_of_some hGet).trans and_assoc.symm
    rw [lawful_iff_follows hRun hGet (by simp [Asked])]
    simp [Safe, hGet]

theorem lawful_replace_iff {skip : Bool} : Lawful r (.replace a skip) ↔ Safe r (.replace a skip) := by
  cases hGet : r.get? a.id with
  | none =>
    refine iff_of_true (lawful_of_raises fun r' h => ?_) (by simp [Safe, hGet])
    obtain ⟨existing, hSome, _⟩ := replace_ok.mp h
    exact nomatch hGet.symm.trans hSome
  | some existing =>
    have hRun : ∀ r', (Op.replace a skip).run r = .ok r' ↔
        r.Replaceable a existing skip ∧ r' = r.put a := by
      intro r'
      refine replace_ok.trans ?_
      simp [hGet]
    rw [lawful_iff_follows hRun hGet (by simp [Asked])]
    simp [Safe, hGet]

theorem lawful_update_iff {fields : List Field} :
    Lawful r (.control (.update id fields)) ↔ Safe r (.control (.update id fields)) := by
  cases hGet : r.get? id with
  | none =>
    refine iff_of_true (lawful_of_raises fun r' h => ?_) (by simp [Safe, hGet])
    obtain ⟨current, hSome, _⟩ := update_ok.mp h
    exact nomatch hGet.symm.trans hSome
  | some current =>
    have hRun : ∀ r', (Op.control (.update id fields)).run r = .ok r' ↔
        (current.frozen = false ∧ modelAccepts (current.withFields fields id) = true ∧
          r.Replaceable (normalized (current.withFields fields id)) current false) ∧
        r' = r.put (normalized (current.withFields fields id)) := by
      intro r'
      refine update_ok.trans ?_
      simp [hGet, and_assoc]
    rw [lawful_iff_follows hRun hGet (by simp [Asked])]
    simp only [Safe, hGet, Option.mem_def, Option.some.injEq, forall_eq']
    rfl

theorem lawful_iff_safe (r : AgentRegistry) (op : Op) : Lawful r op ↔ Safe r op := by
  cases op with
  | register agent rep auto => exact lawful_register_iff
  | replace agent skip => exact lawful_replace_iff
  | clone id newId newName => exact iff_of_true lawful_clone trivial
  | heartbeat id b => exact iff_of_true lawful_heartbeat trivial
  | control c =>
    cases c with
    | enable id => exact iff_of_true (lawful_setLifecycle rfl fun _ => .inl rfl) trivial
    | disable id => exact iff_of_true (lawful_setLifecycle rfl fun h => nomatch h) trivial
    | setLifecycle id status =>
      exact iff_of_true (lawful_setLifecycle rfl fun _ => .inr ⟨status, rfl⟩) trivial
    | update id fields => exact lawful_update_iff
    | freeze id => exact iff_of_true lawful_freeze trivial

theorem retired_of_lawful {ops : List Op} (h : Every step Lawful r ops)
    (hGet : r.get? id = some a) (hRetired : a.status = .retired) :
    ∃ a', (exec step r ops).get? id = some a' ∧ a'.status = .retired := by
  induction ops generalizing r a with
  | nil => exact ⟨a, hGet, hRetired⟩
  | cons op ops ih =>
    obtain ⟨b, hb, hAllowed, _⟩ := h.1 id a hGet
    rw [hRetired] at hAllowed
    exact ih h.2 hb (LifecycleState.eq_of_canTransition_retired hAllowed)

/-- The lifecycle is enforced iff no registration, replace or update brings a status that does
not follow over a registered agent. -/
theorem enforced_iff (r : AgentRegistry) (calls : List Call) :
    Enforced r calls ↔ Every step Safe r (r.history calls) := by
  constructor
  · intro h
    exact h.lawful.mono fun r op => (lawful_iff_safe r op).mp
  · intro h
    have hLawful : Every step Lawful r (r.history calls) :=
      h.mono fun r op => (lawful_iff_safe r op).mpr
    refine ⟨hLawful, fun before between rest hHistory id a a' hGet hRetired hGet' => ?_⟩
    rw [hHistory, every_append, every_append] at hLawful
    obtain ⟨b, hb, hStill⟩ := retired_of_lawful hLawful.1.2 hGet hRetired
    rw [exec_append] at hGet'
    cases hb.symm.trans hGet'
    rw [hStill]
    rfl

/-- An operator disables an agent of a plugin; loading the plugins again enables it. -/
theorem reloaded_plugin_enables :
    ¬ ∀ (r : AgentRegistry) (calls : List Call), Enforced r calls := by
  intro h
  let coder : Agent := { id := "coder", name := "coder" }
  have hRun := h ⟨.empty, false, false⟩
    [.loadPlugins [some [coder]], .op (.control (.disable "coder")), .loadPlugins [some [coder]]]
  have hSafe := hRun.lawful.mono fun r op => (lawful_iff_safe r op).mp
  revert hSafe
  decide +kernel

end AgentRegistry

end Neuroswarm.Agents
