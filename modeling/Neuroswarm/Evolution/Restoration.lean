import Neuroswarm.Evolution.Deployment
import Neuroswarm.Lib.Run

/-!
# Runtime optimization — does a rollback restore the runtime?

A knob in force is a value that an adapter reports as applied, or an attribute of a target.
Applying a policy overwrites some of them (`value_apply`), and which ones depends on the policy
and on what never changes about the adapters only, so `overwrite_eq_iff` says when applying a
policy again brings back the knobs that were in force before. A dry run spares the targets, but
not what the adapters report.
-/

namespace Neuroswarm.Evolution

variable {V : Type}

-- ------ The knobs in force

inductive Place where
  /-- `adapters[i].state.applied[key]` -/
  | applied (i : ℕ) (key : String)
  | target (cell : Cell)

namespace DeploymentEngine

def value (e : DeploymentEngine V) : Place → Option (KnobValue V)
  | .applied i key => (e.adapters[i]?.bind fun a => a.applied.get? key).map .raw
  | .target cell => e.heap cell

def slots (e : DeploymentEngine V) : List Slot := e.adapters.map Adapter.toSlot

theorem value_congr (e : DeploymentEngine V) {e' : DeploymentEngine V}
    (hAdapters : e'.adapters = e.adapters) (hHeap : e'.heap = e.heap) (x : Place) :
    e'.value x = e.value x := by
  cases x with
  | applied i key => rw [value, value, hAdapters]
  | target cell => rw [value, value, hHeap]

end DeploymentEngine

variable (cast : Casts V)

/-- No adapter raises on these parameters. -/
def Returns (slots : List Slot) (dryRun : Bool) (parameters : Dict String V) : Prop :=
  ∀ slot ∈ slots, (slot.writes cast dryRun parameters).isSome

instance (slots : List Slot) (dryRun : Bool) (parameters : Dict String V) :
    Decidable (Returns cast slots dryRun parameters) :=
  inferInstanceAs (Decidable (∀ slot ∈ slots, _))

def effect (slots : List Slot) (dryRun : Bool) (parameters : Dict String V) :
    Place → Option (Option (KnobValue V))
  | .applied i key =>
    (slots[i]?.bind fun slot => (slot.selected parameters).get? key).map fun v => some (.raw v)
  | .target cell =>
    overlay none (slots.map fun slot =>
      (slot.writes cast dryRun parameters).bind fun w => w cell)

-- ------ Applying a policy

section

variable (dryRun : Bool) (parameters : Dict String V)

/-- The adapter with what it was given in `state.applied`. -/
def Adapter.record (a : Adapter V) : Adapter V :=
  { a with applied := a.applied.update (a.selected parameters) }

theorem applyAll_slots (adapters : List (Adapter V)) (heap : Heap V) :
    (applyAll cast dryRun parameters adapters heap).1.map Adapter.toSlot =
      adapters.map Adapter.toSlot := by
  induction adapters generalizing heap with
  | nil => rfl
  | cons a rest ih =>
    rw [applyAll, Adapter.apply]
    cases a.writes cast dryRun parameters with
    | none => rfl
    | some w => exact congrArg (a.toSlot :: ·) (ih _)

theorem applyAll_of_returns {adapters : List (Adapter V)}
    (h : Returns cast (adapters.map Adapter.toSlot) dryRun parameters) (heap : Heap V) :
    applyAll cast dryRun parameters adapters heap =
      (adapters.map (Adapter.record parameters),
        (adapters.map fun a c => (a.writes cast dryRun parameters).bind fun w => w c).foldl
          (fun heap w => overwrite w heap) heap,
        true) := by
  induction adapters generalizing heap with
  | nil => rfl
  | cons a rest ih =>
    obtain ⟨hHead, hRest⟩ := List.forall_mem_cons.mp h
    obtain ⟨w, hw⟩ := Option.isSome_iff_exists.mp hHead
    rw [applyAll, Adapter.apply, hw]
    show (_ :: (applyAll cast dryRun parameters rest (overwrite w heap)).1, _, _) = _
    rw [ih hRest, List.map_cons, List.map_cons, List.foldl_cons, hw]
    rfl

theorem applyAll_returned (adapters : List (Adapter V)) (heap : Heap V) :
    (applyAll cast dryRun parameters adapters heap).2.2 = true ↔
      Returns cast (adapters.map Adapter.toSlot) dryRun parameters := by
  constructor
  · intro h
    induction adapters generalizing heap with
    | nil => exact List.forall_mem_nil _
    | cons a rest ih =>
      rw [applyAll, Adapter.apply] at h
      cases hw : a.writes cast dryRun parameters with
      | none =>
        rw [hw] at h
        cases h
      | some w =>
        rw [hw] at h
        refine List.forall_mem_cons.mpr ⟨?_, ih _ h⟩
        rw [hw]
        rfl
  · intro h
    rw [applyAll_of_returns cast dryRun parameters h]

end

namespace DeploymentEngine

variable (e : DeploymentEngine V) (policy : RuntimePolicy V) (dryRun : Bool)

@[simp] theorem slots_apply : (e.apply cast policy dryRun).2.slots = e.slots :=
  applyAll_slots cast dryRun policy.parameters e.adapters e.heap

@[simp] theorem apply_returned :
    (e.apply cast policy dryRun).1 = true ↔ Returns cast e.slots dryRun policy.parameters :=
  applyAll_returned cast dryRun policy.parameters e.adapters e.heap

theorem value_apply {policy : RuntimePolicy V} {dryRun : Bool}
    (h : Returns cast e.slots dryRun policy.parameters) (x : Place) :
    (e.apply cast policy dryRun).2.value x =
      overwrite (effect cast e.slots dryRun policy.parameters) e.value x := by
  have hApply := applyAll_of_returns cast dryRun policy.parameters h e.heap
  cases x with
  | applied i key =>
    have hAdapters : (e.apply cast policy dryRun).2.adapters =
        e.adapters.map (Adapter.record policy.parameters) := congrArg Prod.fst hApply
    simp only [value, overwrite, effect, slots, hAdapters, List.getElem?_map]
    cases e.adapters[i]? with
    | none => rfl
    | some a =>
      show ((a.applied.update _).get? key).map KnobValue.raw = _
      rw [Dict.get?_update]
      cases hKey : (a.selected policy.parameters).get? key with
      | none => simp [hKey]
      | some v => simp [hKey]
  | target cell =>
    have hHeap := congrArg (fun r => r.2.1 cell) hApply
    refine hHeap.trans ?_
    rw [foldl_overwrite]
    simp only [overwrite, effect, slots, value, List.map_map]
    rfl

theorem returns_dryRun (slots : List Slot) (parameters : Dict String V) :
    Returns cast slots true parameters := by
  intro slot _
  unfold Slot.writes
  cases slot.target with
  | none => rfl
  | some t => rfl

theorem effect_dryRun (slots : List Slot) (parameters : Dict String V) (cell : Cell) :
    effect cast slots true parameters (.target cell) = none := by
  refine overlay_of_forall_none fun v hv => ?_
  obtain ⟨slot, -, rfl⟩ := List.mem_map.mp hv
  unfold Slot.writes
  cases slot.target with
  | none => rfl
  | some t => rfl

-- ------ The operations

def madeActive (e : DeploymentEngine V) : DeploymentOp V → Option (RuntimePolicy V)
  | .deployShadow _ => none
  | .deployCanary _ _ => none
  | .promote policy => some policy
  | .promoteCanary =>
    e.registry.canary.bind fun canary => (e.registry.setActive canary.id).map Prod.fst
  | .rollback toPolicy =>
    (e.rollbackTarget toPolicy).bind fun target =>
      (e.registry.setActive target.id).map fun _ => target

/-- How an operation that makes a policy active ends. -/
structure Activation (policy : RuntimePolicy V) (o : Outcome V) : Prop where
  returned : o.1.isSome ↔ Returns cast e.slots false policy.parameters
  success : ∀ r ∈ o.1, r.success = true
  value : Returns cast e.slots false policy.parameters → ∀ x,
    o.2.value x = overwrite (effect cast e.slots false policy.parameters) e.value x

theorem activation_activate (mode : DeploymentMode) (registry : PolicyRegistry V)
    (finish : PolicyRegistry V → PolicyRegistry V) :
    e.Activation cast policy (e.activate cast policy mode registry finish) := by
  have hReturned : _ ↔ Returns cast e.slots false policy.parameters :=
    apply_returned cast { e with registry } policy false
  have hValue : Returns cast e.slots false policy.parameters → ∀ x,
      (apply cast { e with registry } policy false).2.value x = _ :=
    fun h => value_apply cast { e with registry } h
  obtain ⟨⟨returned, e'⟩, hApply⟩ : ∃ o, apply cast { e with registry } policy false = o :=
    ⟨_, rfl⟩
  rw [hApply] at hReturned hValue
  simp only [activate, hApply]
  cases returned with
  | false =>
    have hNot : ¬ Returns cast e.slots false policy.parameters :=
      fun h => Bool.false_ne_true (hReturned.mpr h)
    exact
      { returned := iff_of_false Bool.false_ne_true hNot
        success := fun r hr => nomatch hr
        value := fun h => absurd h hNot }
  | true =>
    refine
      { returned := hReturned
        success := fun r hr => ?_
        value := fun h x => ?_ }
    · obtain rfl := Option.some.inj hr
      rfl
    · refine (value_congr e' rfl rfl x).trans ((hValue h x).trans ?_)
      rw [overwrite, overwrite, value_congr e rfl rfl x]
      rfl

theorem activation_perform {op : DeploymentOp V} {policy : RuntimePolicy V}
    (h : e.madeActive op = some policy) : e.Activation cast policy (e.perform cast op) := by
  cases op with
  | deployShadow => cases h
  | deployCanary => cases h
  | promote candidate =>
    obtain rfl := Option.some.inj h
    rw [perform, promote, PolicyRegistry.setActive, PolicyRegistry.register, Dict.get?_set_self]
    exact activation_activate cast e candidate .full _ _
  | promoteCanary =>
    obtain ⟨canary, hCanary, hActive⟩ := Option.bind_eq_some_iff.mp h
    obtain ⟨⟨found, registry⟩, hSet, rfl⟩ := Option.map_eq_some_iff.mp hActive
    simp only [perform, promoteCanary, hCanary, hSet]
    exact activation_activate cast e found .full _ _
  | rollback toPolicy =>
    obtain ⟨target, hTarget, hActive⟩ := Option.bind_eq_some_iff.mp h
    obtain ⟨⟨found, registry⟩, hSet, rfl⟩ := Option.map_eq_some_iff.mp hActive
    have hActivate := activation_activate cast e target .rollback registry
      PolicyRegistry.clearCanary
    simp only [perform, rollback, hTarget, hSet]
    refine { hActivate with value := fun hR x => ?_ }
    rw [← hActivate.value hR x]
    show value (if _ then _ else _) x = _
    split
    · exact value_congr _ rfl rfl x
    · rfl

theorem slots_activate (mode : DeploymentMode) (registry : PolicyRegistry V)
    (finish : PolicyRegistry V → PolicyRegistry V) :
    (e.activate cast policy mode registry finish).2.slots = e.slots := by
  have hSlots := slots_apply cast { e with registry } policy false
  simp only [activate]
  split
  · exact hSlots
  · exact hSlots

theorem slots_perform (op : DeploymentOp V) : (e.perform cast op).2.slots = e.slots := by
  cases op with
  | deployShadow policy =>
    simp only [perform, deployShadow]
    split
    · exact slots_apply cast _ policy true
    · exact slots_apply cast _ policy true
  | deployCanary policy percent =>
    simp only [perform, deployCanary]
    split
    · exact slots_apply cast _ policy false
    · exact slots_apply cast _ policy false
  | promote policy =>
    simp only [perform, promote]
    split
    · rfl
    · exact slots_activate ..
  | promoteCanary =>
    simp only [perform, promoteCanary]
    split
    · rfl
    · split
      · rfl
      · exact slots_activate ..
  | rollback toPolicy =>
    simp only [perform, rollback]
    split
    · rfl
    · split
      · rfl
      · rw [← slots_activate cast e _ .rollback _ PolicyRegistry.clearCanary]
        split
        · rfl
        · rfl

theorem value_deployShadow (x : Place) :
    (e.perform cast (.deployShadow policy)).2.value x =
      overwrite (effect cast e.slots true policy.parameters) e.value x := by
  have hReturns := returns_dryRun cast e.slots policy.parameters
  refine Eq.trans ?_ ((value_apply cast
    { e with registry := (e.registry.register policy).setShadow policy.id } hReturns x).trans ?_)
  · simp only [perform, deployShadow]
    split
    · rfl
    · rfl
  · rw [overwrite, overwrite, value_congr e rfl rfl x]
    rfl

theorem madeActive_of_success {toPolicy : Option (RuntimePolicy V)} {r : DeploymentResult V}
    (h : (e.rollback cast toPolicy).1 = some r) (hSuccess : r.success = true) :
    e.madeActive (.rollback toPolicy) = e.rollbackTarget toPolicy := by
  unfold rollback at h
  rw [madeActive]
  cases hTarget : e.rollbackTarget toPolicy with
  | none =>
    simp only [hTarget] at h
    obtain rfl := Option.some.inj h
    cases hSuccess
  | some target =>
    cases hSet : e.registry.setActive target.id with
    | none =>
      simp only [hTarget, hSet] at h
      cases h
    | some found => simp [hSet]

end DeploymentEngine

-- ------ Runs

/-- The engine, and how it was right after each time that a policy was made active. -/
structure Tracked (V : Type) where
  engine : DeploymentEngine V
  made : List (RuntimePolicy V × DeploymentEngine V) := []

namespace Tracked

def step (s : Tracked V) (op : DeploymentOp V) : Tracked V :=
  let after := (s.engine.perform cast op).2
  { engine := after
    made := match s.engine.madeActive op with
      | some policy => (policy, after) :: s.made
      | none => s.made }

variable [DecidableEq V]

def lastMade (s : Tracked V) (policy : RuntimePolicy V) : Option (DeploymentEngine V) :=
  s.made.lookup policy

/-- A shadow deployment changes no knob, and a successful rollback to a policy that was active
brings back the knobs it had. -/
def Faithful (s : Tracked V) (op : DeploymentOp V) : Prop :=
  match op with
  | .deployShadow policy => ∀ x,
      (s.engine.perform cast (.deployShadow policy)).2.value x = s.engine.value x
  | .rollback toPolicy =>
      ∀ r, (s.engine.rollback cast toPolicy).1 = some r → r.success = true →
      ∀ policy e, s.engine.rollbackTarget toPolicy = some policy → s.lastMade policy = some e →
      ∀ x, (s.engine.rollback cast toPolicy).2.value x = e.value x
  | _ => True

/-- A shadow deployment brings nothing new, and before a rollback the knobs that the policy does
not set are as they were. -/
def Harmless (s : Tracked V) (op : DeploymentOp V) : Prop :=
  match op with
  | .deployShadow policy =>
      ∀ a ∈ s.engine.adapters, ∀ key v,
        (a.selected policy.parameters).get? key = some v → a.applied.get? key = some v
  | .rollback toPolicy =>
      ∀ policy e, s.engine.madeActive (.rollback toPolicy) = some policy →
      Returns cast s.engine.slots false policy.parameters → s.lastMade policy = some e →
      ∀ x, effect cast s.engine.slots false policy.parameters x = none →
        s.engine.value x = e.value x
  | _ => True

def Kept (s : Tracked V) : Prop :=
  ∀ policy e, s.lastMade policy = some e →
    Returns cast s.engine.slots false policy.parameters →
    Reflects (effect cast s.engine.slots false policy.parameters) e.value

theorem kept_step {s : Tracked V} (h : s.Kept cast) (op : DeploymentOp V) :
    (s.step cast op).Kept cast := by
  intro policy e hLast hReturns
  have hSlots : (s.step cast op).engine.slots = s.engine.slots :=
    s.engine.slots_perform cast op
  rw [hSlots] at hReturns ⊢
  cases hMade : s.engine.madeActive op with
  | none =>
    simp only [lastMade, step, hMade] at hLast
    exact h policy e hLast hReturns
  | some made =>
    simp only [lastMade, step, hMade, Dict.lookup_cons_ite] at hLast
    split at hLast
    · -- the policy was made active by this operation
      rename_i hEq
      obtain rfl := Option.some.inj hLast
      obtain rfl : made = policy := hEq
      have hValue := (s.engine.activation_perform cast hMade).value hReturns
      rw [show (s.engine.perform cast op).2.value = _ from funext hValue]
      exact reflects_overwrite _ _
    · exact h policy e hLast hReturns

theorem deployShadow_faithful_iff (s : Tracked V) (policy : RuntimePolicy V) :
    s.Faithful cast (.deployShadow policy) ↔ s.Harmless cast (.deployShadow policy) := by
  show (∀ x, (s.engine.perform cast (.deployShadow policy)).2.value x = s.engine.value x) ↔ _
  simp only [s.engine.value_deployShadow cast policy, overwrite_eq_self_iff]
  constructor
  · intro h a ha key v hKey
    obtain ⟨i, hi, rfl⟩ := List.mem_iff_getElem.mp ha
    have hSome : s.engine.adapters[i]? = some s.engine.adapters[i] := List.getElem?_eq_getElem hi
    have hValue := h (.applied i key) (some (.raw v)) (by
      simp [effect, DeploymentEngine.slots, hSome, hKey])
    simpa [DeploymentEngine.value, hSome] using hValue
  · intro h x v hv
    cases x with
    | target cell =>
      rw [DeploymentEngine.effect_dryRun] at hv
      cases hv
    | applied i key =>
      obtain ⟨given, hGiven, rfl⟩ := Option.map_eq_some_iff.mp hv
      obtain ⟨slot, hSlot, hKey⟩ := Option.bind_eq_some_iff.mp hGiven
      rw [DeploymentEngine.slots, List.getElem?_map] at hSlot
      obtain ⟨a, ha, rfl⟩ := Option.map_eq_some_iff.mp hSlot
      have hApplied := h a (List.mem_of_getElem? ha) key given hKey
      simp [DeploymentEngine.value, ha, hApplied]

theorem rollback_faithful_iff {s : Tracked V} (h : s.Kept cast)
    (toPolicy : Option (RuntimePolicy V)) :
    s.Faithful cast (.rollback toPolicy) ↔ s.Harmless cast (.rollback toPolicy) := by
  constructor
  · intro hFaithful policy e hMade hReturns hLast
    have hActivation := s.engine.activation_perform cast hMade
    obtain ⟨r, hr⟩ := Option.isSome_iff_exists.mp (hActivation.returned.mpr hReturns)
    have hSuccess := hActivation.success r hr
    have hTarget := (s.engine.madeActive_of_success cast hr hSuccess).symm.trans hMade
    have hRestored := hFaithful r hr hSuccess policy e hTarget hLast
    refine (overwrite_eq_iff (h policy e hLast hReturns)).mp fun x => ?_
    exact (hActivation.value hReturns x).symm.trans (hRestored x)
  · intro hHarmless r hr hSuccess policy e hTarget hLast x
    have hMade := (s.engine.madeActive_of_success cast hr hSuccess).trans hTarget
    have hActivation := s.engine.activation_perform cast hMade
    have hReturns := hActivation.returned.mp (Option.isSome_iff_exists.mpr ⟨r, hr⟩)
    refine (hActivation.value hReturns x).trans ?_
    exact (overwrite_eq_iff (h policy e hLast hReturns)).mpr
      (hHarmless policy e hMade hReturns hLast) x

theorem faithful_iff {s : Tracked V} (h : s.Kept cast) (op : DeploymentOp V) :
    s.Faithful cast op ↔ s.Harmless cast op := by
  cases op with
  | deployShadow policy => exact s.deployShadow_faithful_iff cast policy
  | rollback toPolicy => exact rollback_faithful_iff cast h toPolicy
  | deployCanary => exact Iff.rfl
  | promote => exact Iff.rfl
  | promoteCanary => exact Iff.rfl

/-- **Invisible shadows and true rollbacks.** A run has both iff none of its shadow deployments
brings a value that the adapters did not report before, and each rollback to a policy that was
active finds the knobs that the policy does not set as they were right after it was made active. -/
theorem faithful_run_iff (e : DeploymentEngine V) (ops : List (DeploymentOp V)) :
    Run.Every (step cast) (Faithful cast) { engine := e } ops ↔
      Run.Every (step cast) (Harmless cast) { engine := e } ops := by
  have hStart : Kept cast { engine := e } := fun policy e h => nomatch h
  constructor
  · exact Run.every_of_every (fun s op hs _ => kept_step cast hs op)
      (fun s op hs h => (faithful_iff cast hs op).mp h) hStart
  · exact Run.every_of_every (fun s op hs _ => kept_step cast hs op)
      (fun s op hs h => (faithful_iff cast hs op).mpr h) hStart

end Tracked

-- ------ A shadow that shows, and a rollback that leaves something behind

def integerCasts : Casts ℤ where
  int := some
  float n := some n
  str := toString
  bool n := n ≠ 0
  isNone _ := false

def twoLayers : DeploymentEngine ℤ where
  registry := {}
  adapters :=
    [ { layer := .ascr, target := some { object := 0 }, applied := Dict.empty },
      { layer := .mem, target := some { object := 1 }, applied := Dict.empty } ]
  heap _ := none

def shortDrafts : RuntimePolicy ℤ :=
  { id := "p", parameters := Dict.empty.set "draft_len" 4 }

def deepRetrieval : RuntimePolicy ℤ :=
  { id := "q", parameters := Dict.empty.set "retrieval_depth" 5, rollbackPolicyId := some "p" }

theorem shadow_and_rollback_show :
    ¬ Run.Every (Tracked.step integerCasts) (Tracked.Faithful integerCasts)
      { engine := twoLayers } [.deployShadow shortDrafts] ∧
    ¬ Run.Every (Tracked.step integerCasts) (Tracked.Faithful integerCasts)
      { engine := twoLayers } [.promote shortDrafts, .promote deepRetrieval, .rollback none] := by
  constructor
  · rintro ⟨hShadow, -⟩
    have hSame := hShadow (.applied 0 "draft_len")
    revert hSame
    decide +kernel
  · rintro ⟨-, -, hRollback, -⟩
    have hSame := hRollback _ rfl rfl shortDrafts _ (by decide +kernel) rfl
      (.target (.object 1, .param "retrieval_depth"))
    revert hSame
    decide +kernel

end Neuroswarm.Evolution
