import Mathlib.Algebra.Order.Ring.Rat
import Neuroswarm.Lib.Overlay

/-!
# Runtime optimization — adapters and deployments

`evolution/deployment/adapters`, `PolicyRegistry` and `DeploymentEngine`. The attributes that
adapters write on their targets are cells of one heap, so that adapters may share a target, and
the tier floor is a cell of the class `CostRouter`. Values of parameters are of any type `V`,
with the interpreter's conversions as a parameter; floats are rationals. The store of the
registry on disk and the texts of messages are left out.
-/

namespace Neuroswarm.Evolution

-- ------ Knobs

/-- `int(v)` and `float(v)`, where they do not raise, `str(v)`, `bool(v)` and `v is None`. -/
structure Casts (V : Type) where
  int : V → Option ℤ
  float : V → Option ℚ
  str : V → String
  bool : V → Bool
  isNone : V → Bool

structure RLAction where
  draftLen : ℤ
  acceptThreshold : ℚ
  verifyBatchSize : ℤ
  escalateThreshold : ℚ
  speculationDepth : ℤ
  deriving DecidableEq

/-- The weights that a policy sets. -/
structure EvictionWeights where
  recency : ℚ
  frequency : ℚ
  sharing : ℚ
  importance : ℚ
  deriving DecidableEq

inductive KnobValue (V : Type) where
  | action (a : RLAction)
  | int (n : ℤ)
  | float (x : ℚ)
  | text (s : String)
  | flag (b : Bool)
  | weights (w : EvictionWeights)
  /-- As the policy gives it. -/
  | raw (v : V)
  deriving DecidableEq

/-- An attribute that an adapter writes. -/
inductive Knob where
  | rlAction
  | tokenBudget
  | topK
  | configTopK
  | quantPreference
  | tierFloor
  | pressureThreshold
  | monitorThreshold
  | evictionWeights
  | prefetchEnabled
  /-- `_arop_params[key]` -/
  | param (key : String)
  deriving DecidableEq

inductive Owner where
  | costRouter
  | object (n : ℕ)
  deriving DecidableEq

/-- A place where a knob is in force. -/
abbrev Cell := Owner × Knob

abbrev Heap (V : Type) := Cell → Option (KnobValue V)

abbrev Writes (V : Type) := Cell → Option (Option (KnobValue V))

/-- The target of an adapter, with the attributes and methods it has. -/
structure Target where
  object : ℕ
  hasTokenBudget : Bool := false
  hasTopK : Bool := false
  hasConfigTopK : Bool := false
  hasQuantPreference : Bool := false
  /-- The quantizations that `set_arop_quant_preference` takes. -/
  supportedQuants : List String := []
  hasConfig : Bool := false
  hasPressureMonitor : Bool := false
  hasScoredEviction : Bool := false
  hasPrefetchEngine : Bool := false
  deriving DecidableEq

-- ------ What every layer writes

inductive Layer where
  | ascr
  | rtg
  | router
  | haoe
  | maks
  | aqr
  | mem
  deriving DecidableEq

def Layer.keys : Layer → List String
  | .ascr => ["accept_threshold", "escalate_threshold", "draft_len", "verify_batch",
      "speculation_depth", "draft_model", "verify_strategy", "self_speculation"]
  | .rtg => ["reasoning_cap", "budget_usd"]
  | .router => ["router_top_k", "mcp_routing_threshold", "model_routing", "planning_depth",
      "agent_topology"]
  | .haoe => ["thread_count", "openmp_schedule", "numa_placement", "kv_layout", "sglang_batch",
      "llamacpp_ctx", "prefill_decode_split", "speculative_mode"]
  | .maks => ["maks_eviction_weight", "maks_prefetch", "maks_tier_threshold"]
  | .aqr => ["quant_preference", "cascade_tier_bias"]
  | .mem => ["mem0_retention", "retrieval_depth", "context_budget", "context_summarization",
      "semantic_cache", "memory_eviction", "replay_policy", "okf_compression"]

section

variable {V : Type} (cast : Casts V)

def Target.writes (t : Target) (w : Knob → Option (Option (KnobValue V))) : Writes V :=
  fun cell => if cell.1 = .object t.object then w cell.2 else none

/-- `setattr(target, "_arop_params", {**getattr(target, "_arop_params", {}), **applied})`. -/
def mergeParams (applied : Dict String V) : Knob → Option (Option (KnobValue V))
  | .param key => (applied.get? key).map fun v => some (.raw v)
  | _ => none

/-- The action that `applied` gives, with the defaults for what it does not have. -/
def rlAction (applied : Dict String V) : Option RLAction := do
  let draftLen ← ((applied.get? "draft_len").map cast.int).getD (some 8)
  let acceptThreshold ← ((applied.get? "accept_threshold").map cast.float).getD (some (7 / 10))
  let verifyBatchSize ← ((applied.get? "verify_batch").map cast.int).getD (some 1)
  let escalateThreshold ←
    ((applied.get? "escalate_threshold").map cast.float).getD (some (4 / 10))
  let speculationDepth ← ((applied.get? "speculation_depth").map cast.int).getD (some 1)
  some { draftLen, acceptThreshold, verifyBatchSize, escalateThreshold, speculationDepth }

/-- `ASCRDeploymentAdapter`. Where a value cannot be converted, `_arop_params` is replaced. -/
def ascrWrites (applied : Dict String V) : Knob → Option (Option (KnobValue V)) :=
  match rlAction cast applied with
  | some action => fun
    | .rlAction => some (some (.action action))
    | _ => none
  | none => fun
    | .param key => some ((applied.get? key).map .raw)
    | _ => none

/-- `RTGDeploymentAdapter`. A cap that is no integer raises again in the handler. -/
def rtgWrites (t : Target) (applied : Dict String V) :
    Option (Knob → Option (Option (KnobValue V))) :=
  match applied.get? "reasoning_cap" with
  | some cap =>
    if t.hasTokenBudget then
      (cast.int cap).map fun n => fun
        | .tokenBudget => some (some (.int n))
        | _ => none
    else some (mergeParams applied)
  | none => some (mergeParams applied)

/-- `RouterDeploymentAdapter`. -/
def routerWrites (t : Target) (applied : Dict String V) : Knob → Option (Option (KnobValue V))
  | .topK =>
    if t.hasTopK then ((applied.get? "router_top_k").bind cast.int).map fun n => some (.int n)
    else none
  | .configTopK =>
    if t.hasConfigTopK then
      ((applied.get? "router_top_k").bind cast.int).map fun n => some (.int n)
    else none
  | knob => mergeParams applied knob

/-- `AQRDeploymentAdapter`, as far as its target is concerned. -/
def aqrWrites (t : Target) (applied : Dict String V) : Knob → Option (Option (KnobValue V))
  | .quantPreference =>
    if t.hasQuantPreference then
      ((applied.get? "quant_preference").map cast.str).bind fun quant =>
        if quant ∈ t.supportedQuants then some (some (.text quant)) else none
    else none
  | knob => mergeParams applied knob

/-- `CostRouter.set_arop_tier_floor(int(applied["cascade_tier_bias"]))`. -/
def tierFloorWrites (applied : Dict String V) : Writes V := fun cell =>
  if cell = (.costRouter, .tierFloor) then
    ((applied.get? "cascade_tier_bias").bind cast.int).map fun n =>
      some (.int (max 1 (min 3 n)))
  else none

/-- `MAKSDeploymentAdapter`. -/
def maksWrites (t : Target) (applied : Dict String V) : Knob → Option (Option (KnobValue V)) :=
  let given (key : String) : Option V := (applied.get? key).filter fun v => !cast.isNone v
  let threshold := ((given "maks_tier_threshold").bind cast.float).map fun x => some (.float x)
  fun
  | .pressureThreshold => if t.hasConfig then threshold else none
  | .monitorThreshold => if t.hasConfig ∧ t.hasPressureMonitor then threshold else none
  | .evictionWeights =>
    if t.hasScoredEviction then
      ((given "maks_eviction_weight").bind cast.float).map fun w => some (.weights
        { recency := w, frequency := w, sharing := max w 1, importance := w })
    else none
  | .prefetchEnabled =>
    if t.hasPrefetchEngine then
      (applied.get? "maks_prefetch").map fun v => some (.flag (cast.bool v))
    else none
  | knob => mergeParams applied knob

/-- What the adapter of a layer writes. `none`: it raises. -/
def layerWrites (layer : Layer) (t : Target) (applied : Dict String V) : Option (Writes V) :=
  match layer with
  | .ascr => some (t.writes (ascrWrites cast applied))
  | .rtg => (rtgWrites cast t applied).map t.writes
  | .router => some (t.writes (routerWrites cast t applied))
  | .maks => some (t.writes (maksWrites cast t applied))
  | .aqr => some fun cell =>
      (t.writes (aqrWrites cast t applied) cell).or (tierFloorWrites cast applied cell)
  | .haoe => some (t.writes (mergeParams applied))
  | .mem => some (t.writes (mergeParams applied))

end

-- ------ Adapters

/-- What does not change about an adapter. -/
structure Slot where
  layer : Layer
  target : Option Target
  dryRun : Bool := false
  deriving DecidableEq

structure Adapter (V : Type) extends Slot where
  applied : Dict String V

section

variable {V : Type} (cast : Casts V)

/-- `{k: parameters[k] for k in self.KEYS if k in parameters}`. -/
def Slot.selected (slot : Slot) (parameters : Dict String V) : Dict String V :=
  parameters.filterKeys fun k => k ∈ slot.layer.keys

/-- What `apply` writes on the target. -/
def Slot.writes (slot : Slot) (dryRun : Bool) (parameters : Dict String V) : Option (Writes V) :=
  match slot.target with
  | none => some fun _ => none
  | some t =>
    if dryRun || slot.dryRun then some fun _ => none
    else layerWrites cast slot.layer t (slot.selected parameters)

/-- `apply(parameters)`, with the flag that `_apply` sets. The last component: it returned. -/
def Adapter.apply (dryRun : Bool) (parameters : Dict String V) (a : Adapter V) (heap : Heap V) :
    Adapter V × Heap V × Bool :=
  let a' := { a with applied := a.applied.update (a.selected parameters) }
  match a.writes cast dryRun parameters with
  | none => (a', heap, false)
  | some w => (a', overwrite w heap, true)

/-- The loop of `_apply`. -/
def applyAll (dryRun : Bool) (parameters : Dict String V) :
    List (Adapter V) → Heap V → List (Adapter V) × Heap V × Bool
  | [], heap => ([], heap, true)
  | a :: rest, heap =>
    match a.apply cast dryRun parameters heap with
    | (a', heap, false) => (a' :: rest, heap, false)
    | (a', heap, true) =>
      let (rest, heap, returned) := applyAll dryRun parameters rest heap
      (a' :: rest, heap, returned)

end

-- ------ The registry

structure RuntimePolicy (V : Type) where
  id : String
  parameters : Dict String V
  rollbackPolicyId : Option String := none
  parentPolicyId : Option String := none
  deriving DecidableEq

structure PolicyRegistry (V : Type) where
  policies : Dict String (RuntimePolicy V) := Dict.empty
  activeId : Option String := none
  canaryId : Option String := none
  canaryPercent : ℚ := 0
  shadowId : Option String := none

section

variable {V : Type}

namespace PolicyRegistry

def register (r : PolicyRegistry V) (policy : RuntimePolicy V) : PolicyRegistry V :=
  { r with policies := r.policies.set policy.id policy }

/-- `self._policies.get(i) if i else None`. -/
def find (r : PolicyRegistry V) (id : Option String) : Option (RuntimePolicy V) :=
  (id.filter (· ≠ "")).bind r.policies.get?

def active (r : PolicyRegistry V) : Option (RuntimePolicy V) := r.find r.activeId

def canary (r : PolicyRegistry V) : Option (RuntimePolicy V) := r.find r.canaryId

/-- `set_active(policy_id)`. `none`: the policy is not known. -/
def setActive (r : PolicyRegistry V) (id : String) : Option (RuntimePolicy V × PolicyRegistry V) :=
  (r.policies.get? id).map fun policy =>
    (policy, { r with activeId := some id, canaryId := none, canaryPercent := 0 })

def setCanary (r : PolicyRegistry V) (id : String) (percent : ℚ) : PolicyRegistry V :=
  { r with canaryId := some id, canaryPercent := percent }

def setShadow (r : PolicyRegistry V) (id : String) : PolicyRegistry V :=
  { r with shadowId := some id }

def clearCanary (r : PolicyRegistry V) : PolicyRegistry V :=
  { r with canaryId := none, canaryPercent := 0 }

def clearShadow (r : PolicyRegistry V) : PolicyRegistry V := { r with shadowId := none }

end PolicyRegistry

end

-- ------ The engine

structure DeploymentEngine (V : Type) where
  registry : PolicyRegistry V
  adapters : List (Adapter V)
  heap : Heap V
  rollbackCount : ℕ := 0

inductive DeploymentMode where
  | shadow
  | canary
  | full
  | rollback
  deriving DecidableEq

structure DeploymentResult (V : Type) where
  success : Bool
  mode : DeploymentMode
  activePolicyId : Option String
  canaryPercent : ℚ := 0
  details : Dict Layer (Dict String V) := Dict.empty

/-- `none`: the call raises. -/
abbrev Outcome (V : Type) := Option (DeploymentResult V) × DeploymentEngine V

namespace DeploymentEngine

variable {V : Type} (cast : Casts V)

def apply (e : DeploymentEngine V) (policy : RuntimePolicy V) (dryRun : Bool) :
    Bool × DeploymentEngine V :=
  let (adapters, heap, returned) := applyAll cast dryRun policy.parameters e.adapters e.heap
  (returned, { e with adapters, heap })

/-- What `_apply` returns: what every layer was given, if anything. -/
def details (e : DeploymentEngine V) (policy : RuntimePolicy V) : Dict Layer (Dict String V) :=
  e.adapters.foldl
    (fun details a =>
      let applied := a.selected policy.parameters
      if applied.size = 0 then details else details.set a.layer applied)
    Dict.empty

def activeId (e : DeploymentEngine V) : Option String := e.registry.active.map RuntimePolicy.id

def deployShadow (e : DeploymentEngine V) (policy : RuntimePolicy V) : Outcome V :=
  let e := { e with registry := (e.registry.register policy).setShadow policy.id }
  let (returned, e') := e.apply cast policy true
  if returned then
    (some
      { success := true
        mode := .shadow
        activePolicyId := e.activeId
        details := e.details policy },
      e')
  else (none, e')

def deployCanary (e : DeploymentEngine V) (policy : RuntimePolicy V) (percent : ℚ) : Outcome V :=
  let e := { e with registry := (e.registry.register policy).setCanary policy.id percent }
  let (returned, e') := e.apply cast policy false
  if returned then
    (some
      { success := true
        mode := .canary
        activePolicyId := e.activeId
        canaryPercent := percent
        details := e.details policy },
      e')
  else (none, e')

def activate (e : DeploymentEngine V) (policy : RuntimePolicy V) (mode : DeploymentMode)
    (registry : PolicyRegistry V) (finish : PolicyRegistry V → PolicyRegistry V) : Outcome V :=
  let e := { e with registry }
  let (returned, e') := e.apply cast policy false
  if returned then
    (some
      { success := true
        mode
        activePolicyId := some policy.id
        details := e.details policy },
      { e' with registry := finish e'.registry })
  else (none, e')

def promote (e : DeploymentEngine V) (policy : RuntimePolicy V) : Outcome V :=
  match (e.registry.register policy).setActive policy.id with
  | none => (none, { e with registry := e.registry.register policy })
  | some (policy, registry) =>
    e.activate cast policy .full registry fun r => r.clearCanary.clearShadow

def promoteCanary (e : DeploymentEngine V) : Outcome V :=
  match e.registry.canary with
  | none => (some { success := false, mode := .full, activePolicyId := e.activeId }, e)
  | some canary =>
    match e.registry.setActive canary.id with
    | none => (none, e)
    | some (policy, registry) =>
      e.activate cast policy .full registry fun r => r.clearCanary.clearShadow

/-- The policy that `rollback(to_policy=...)` goes back to. -/
def rollbackTarget (e : DeploymentEngine V) (toPolicy : Option (RuntimePolicy V)) :
    Option (RuntimePolicy V) :=
  toPolicy.or ((e.registry.active.bind fun active => e.registry.find active.rollbackPolicyId).or
    (e.registry.active.bind fun active => e.registry.find active.parentPolicyId))

def rollback (e : DeploymentEngine V) (toPolicy : Option (RuntimePolicy V)) : Outcome V :=
  match e.rollbackTarget toPolicy with
  | none => (some { success := false, mode := .rollback, activePolicyId := e.activeId }, e)
  | some target =>
    match e.registry.setActive target.id with
    | none => (none, e)
    | some (_, registry) =>
      let (result, e) := e.activate cast target .rollback registry PolicyRegistry.clearCanary
      (result, if result.isSome then { e with rollbackCount := e.rollbackCount + 1 } else e)

end DeploymentEngine

inductive DeploymentOp (V : Type) where
  | deployShadow (policy : RuntimePolicy V)
  | deployCanary (policy : RuntimePolicy V) (percent : ℚ)
  | promote (policy : RuntimePolicy V)
  | promoteCanary
  | rollback (toPolicy : Option (RuntimePolicy V))

namespace DeploymentEngine

variable {V : Type} (cast : Casts V)

def perform (e : DeploymentEngine V) : DeploymentOp V → Outcome V
  | .deployShadow policy => e.deployShadow cast policy
  | .deployCanary policy percent => e.deployCanary cast policy percent
  | .promote policy => e.promote cast policy
  | .promoteCanary => e.promoteCanary cast
  | .rollback toPolicy => e.rollback cast toPolicy

end DeploymentEngine

end Neuroswarm.Evolution
