import Neuroswarm.Swarm.GraphRecord

/-!
# Task graph — conditions and their dicts

`to_dict` of every condition class and `condition_from_dict`.

* `conditionFromDict_toDict` — reading the dict of a condition gives the condition without
  the predicates it held itself.
* `evaluate_conditionFromDict_toDict` — which evaluates as the condition did, wherever the
  predicates are the registered ones.
-/

/-!
## Condition objects

The classes of `conditions.py` as objects: a `Custom` may hold a predicate of its own
besides the one registered under its name, and a context is a mapping of values. The
floats are those of the machine, infinities and NaN among them (`F`); a predicate is
known by what it does on a context (`P`).

A set is the list of its items. The recursion limit of the interpreter is left out.
-/

namespace Neuroswarm.Swarm.ConditionObjects

variable {F P X : Type}

-- ------ Values

inductive Value (F : Type) where
  | null
  | bool (b : Bool)
  | int (n : ℤ)
  | float (x : F)
  | str (s : String)
  | list (items : List (Value F))
  | dict (members : List (String × Value F))

/-- The floats of a machine, and the built-in functions as far as they depend on them. -/
structure Platform (F : Type) where
  zero : F
  isZero : F → Bool
  le : F → F → Bool
  eq : F → F → Bool
  eqInt : F → ℤ → Bool
  ofInt : ℤ → Option F
  ofStr : String → Option F
  str : Value F → String
  repr : String → String

namespace Value

/-- `type(value).__name__`. -/
def typeName : Value F → String
  | null => "NoneType"
  | bool _ => "bool"
  | int _ => "int"
  | float _ => "float"
  | str _ => "str"
  | list _ => "list"
  | dict _ => "dict"

/-- `bool(value)`. -/
def isTruthy (p : Platform F) : Value F → Bool
  | null => false
  | bool b => b
  | int n => n ≠ 0
  | float x => !p.isZero x
  | str s => s ≠ ""
  | list xs => !xs.isEmpty
  | dict ms => !ms.isEmpty

def integer : Value F → Option ℤ
  | bool b => some (if b then 1 else 0)
  | int n => some n
  | _ => none

/-- `value == other`, of hashable values. -/
def same (p : Platform F) : (v w : Value F) → Bool
  | null, null => true
  | str s, str t => s = t
  | float x, float y => p.eq x y
  | float x, w => w.integer.any (p.eqInt x)
  | v, float y => v.integer.any (p.eqInt y)
  | v, w => v.integer.any fun n => w.integer = some n

/-- `float(value)` of an integer. -/
def floatOfInt (p : Platform F) (n : ℤ) : Except Raised F :=
  match p.ofInt n with
  | some x => .ok x
  | none => .error ⟨.overflowError, "int too large to convert to float"⟩

/-- `float(value)`. -/
def toFloat (p : Platform F) : Value F → Except Raised F
  | float x => .ok x
  | bool b => floatOfInt p (if b then 1 else 0)
  | int n => floatOfInt p n
  | str s =>
    match p.ofStr s with
    | some x => .ok x
    | none => .error ⟨.valueError, "could not convert string to float: " ++ p.repr s⟩
  | value =>
    .error ⟨.typeError,
      s!"float() argument must be a string or a real number, not '{typeName value}'"⟩

/-- `hash(value)`, whether it raises. -/
def hash : Value F → Except Raised Unit
  | list _ => .error ⟨.typeError, "unhashable type: 'list'"⟩
  | dict _ => .error ⟨.typeError, "unhashable type: 'dict'"⟩
  | _ => .ok ()

/-- The value as a mapping; what is none has no `get`. -/
def mapping : Value F → Except Raised (List (String × Value F))
  | dict ms => .ok ms
  | value => .error ⟨.attributeError, s!"'{typeName value}' object has no attribute 'get'"⟩

/-- `set(value)`. -/
def toSet : Value F → Except Raised (List (Value F))
  | list xs => do
    xs.forM hash
    return xs
  | str s => .ok (s.toList.map fun c => str c.toString)
  | dict ms => .ok (ms.map fun m => str m.1)
  | value => .error ⟨.typeError, s!"'{typeName value}' object is not iterable"⟩

end Value

/-- `mapping.get(key)`. -/
def getKey (ms : List (String × Value F)) : Value F → Except Raised (Option (Value F))
  | .str s => .ok (ms.lookup s)
  | key => do
    key.hash
    return none

-- ------ Objects

inductive BaseCondition (F P : Type) where
  | always
  | never
  | success (nodeIds : List (Value F))
  | failure (nodeIds : List (Value F))
  | confidenceThreshold (threshold : F) (key : Value F)
  | budgetThreshold (maxCostUsd : F)
  | latencyThreshold (maxLatencyMs : F)
  | memoryThreshold (maxPressure : F)
  | toolAvailability (tools : List (Value F))
  | modelAvailability (models : List (Value F))
  | custom (name : String) (predicate : Option P)
  | and (children : List (BaseCondition F P))
  | or (children : List (BaseCondition F P))
  | not (child : BaseCondition F P)

/-- `_CUSTOM_REGISTRY`. -/
abbrev PredicateRegistry (P : Type) := String → Option P

def registerCondition (registry : PredicateRegistry P) (entry : String × P) :
    PredicateRegistry P :=
  fun name => if name = entry.1 then some entry.2 else registry name

namespace BaseCondition

mutual

/-- What the constructors of the expression register, in their order. -/
def registrations : BaseCondition F P → List (String × P)
  | custom name (some predicate) => [(name, predicate)]
  | and children => registrationsOf children
  | or children => registrationsOf children
  | not child => child.registrations
  | _ => []

def registrationsOf : List (BaseCondition F P) → List (String × P)
  | [] => []
  | c :: cs => c.registrations ++ registrationsOf cs

end

/-- The registry once the expression is built. -/
def construct (c : BaseCondition F P) (registry : PredicateRegistry P) : PredicateRegistry P :=
  c.registrations.foldl registerCondition registry

def UniquelyNamed (c : BaseCondition F P) : Prop :=
  ∀ e ∈ c.registrations, ∀ e' ∈ c.registrations, e.1 = e'.1 → e.2 = e'.2

/-- Every predicate of the expression is the one registered under its name. -/
def RegisteredIn (registry : PredicateRegistry P) (c : BaseCondition F P) : Prop :=
  ∀ e ∈ c.registrations, registry e.1 = some e.2

end BaseCondition

-- ------ Evaluation

inductive Thrown (X : Type) where
  | own (e : Raised)
  | ofPredicate (x : X)

abbrev EvalContext (F : Type) := List (String × Value F)

structure Machine (F P X : Type) extends Platform F where
  truthy : P → Bool
  call : P → EvalContext F → Except X Bool

namespace BaseCondition

/-- `statuses.get(nid)`, and whether it is one of the values. -/
def hasStatus (wanted : List NodeStatus) (statuses nid : Value F) : Except Raised Bool := do
  let ms ← statuses.mapping
  let st := (← getKey ms nid).getD .null
  st.hash
  match st with
  | .str s => return decide (s ∈ wanted.map NodeStatus.value)
  | _ => return false

/-- `budget.get(key, 0.0)` of a budget that is a mapping, and 0.0 of any other. -/
def ofBudget (p : Platform F) (ctx : EvalContext F) (key : String) : Value F :=
  match (ctx.lookup "budget").getD (.dict []) with
  | .dict ms => (ms.lookup key).getD (.float p.zero)
  | _ => .float p.zero

/-- `all(t in available for t in wanted)`, of the set of what the context holds. -/
def allAvailable (p : Platform F) (ctx : EvalContext F) (key : String) (wanted : List (Value F)) :
    Except Raised Bool := do
  let available ← ((ctx.lookup key).getD (.list [])).toSet
  wanted.allM fun t => do
    t.hash
    return available.any (t.same p)

/-- `Success.evaluate`. -/
def evaluateSuccess (ctx : EvalContext F) (nodeIds : List (Value F)) : Except Raised Bool :=
  nodeIds.allM (hasStatus successStatuses ((ctx.lookup "node_statuses").getD (.dict [])))

/-- `Failure.evaluate`. -/
def evaluateFailure (ctx : EvalContext F) (nodeIds : List (Value F)) : Except Raised Bool :=
  nodeIds.anyM (hasStatus failureStatuses ((ctx.lookup "node_statuses").getD (.dict [])))

/-- `ConfidenceThreshold.evaluate`. -/
def evaluateConfidence (p : Platform F) (ctx : EvalContext F) (threshold : F) (key : Value F) :
    Except Raised Bool := do
  match (← getKey ctx key).getD .null with
  | .null => return false
  | val => return p.le threshold (← val.toFloat p)

/-- `BudgetThreshold.evaluate`. -/
def evaluateBudget (p : Platform F) (ctx : EvalContext F) (maxCostUsd : F) :
    Except Raised Bool := do
  let used ← (ofBudget p ctx "cost_usd_used").toFloat p
  return p.le used maxCostUsd

/-- `LatencyThreshold.evaluate`. -/
def evaluateLatency (p : Platform F) (ctx : EvalContext F) (maxLatencyMs : F) :
    Except Raised Bool := do
  let used := match (ctx.lookup "latency_ms_used").getD .null with
    | .null => ofBudget p ctx "latency_ms_used"
    | used => used
  return p.le (← used.toFloat p) maxLatencyMs

/-- `MemoryThreshold.evaluate`. -/
def evaluateMemory (p : Platform F) (ctx : EvalContext F) (maxPressure : F) :
    Except Raised Bool := do
  let pressure ← ((ctx.lookup "memory_pressure").getD (.float p.zero)).toFloat p
  return p.le pressure maxPressure

/-- The predicate that a `Custom` calls: `self._predicate or _CUSTOM_REGISTRY.get(self.name)`. -/
def resolve (m : Machine F P X) (registry : PredicateRegistry P) (name : String)
    (predicate : Option P) : Option P :=
  match predicate.filter m.truthy with
  | some own => some own
  | none => registry name

mutual

def evaluate (m : Machine F P X) (registry : PredicateRegistry P) (ctx : EvalContext F) :
    BaseCondition F P → Except (Thrown X) Bool
  | always => .ok true
  | never => .ok false
  | success nodeIds => (evaluateSuccess ctx nodeIds).mapError .own
  | failure nodeIds => (evaluateFailure ctx nodeIds).mapError .own
  | confidenceThreshold threshold key =>
    (evaluateConfidence m.toPlatform ctx threshold key).mapError .own
  | budgetThreshold maxCostUsd => (evaluateBudget m.toPlatform ctx maxCostUsd).mapError .own
  | latencyThreshold maxLatencyMs => (evaluateLatency m.toPlatform ctx maxLatencyMs).mapError .own
  | memoryThreshold maxPressure => (evaluateMemory m.toPlatform ctx maxPressure).mapError .own
  | toolAvailability tools =>
    (allAvailable m.toPlatform ctx "available_tools" tools).mapError .own
  | modelAvailability models =>
    (allAvailable m.toPlatform ctx "available_models" models).mapError .own
  | custom name predicate =>
    match resolve m registry name predicate with
    | none => .error (.own ⟨.conditionError, s!"custom condition not registered: {name}"⟩)
    | some pred => (m.call pred ctx).mapError .ofPredicate
  | and children => evaluateAll m registry ctx children
  | or children => evaluateAny m registry ctx children
  | not child => (child.evaluate m registry ctx).map (!·)

/-- `all(c.evaluate(ctx) for c in children)`. -/
def evaluateAll (m : Machine F P X) (registry : PredicateRegistry P) (ctx : EvalContext F) :
    List (BaseCondition F P) → Except (Thrown X) Bool
  | [] => .ok true
  | c :: cs =>
    match c.evaluate m registry ctx with
    | .ok true => evaluateAll m registry ctx cs
    | res => res

/-- `any(c.evaluate(ctx) for c in children)`. -/
def evaluateAny (m : Machine F P X) (registry : PredicateRegistry P) (ctx : EvalContext F) :
    List (BaseCondition F P) → Except (Thrown X) Bool
  | [] => .ok false
  | c :: cs =>
    match c.evaluate m registry ctx with
    | .ok false => evaluateAny m registry ctx cs
    | res => res

end

end BaseCondition

end Neuroswarm.Swarm.ConditionObjects

/-! ## Conditions and their dicts -/

namespace Neuroswarm.Swarm.ConditionObjects

variable {F P X : Type}

-- ------ `to_dict`

namespace BaseCondition

mutual

def toDict : BaseCondition F P → Value F
  | always => .dict [("kind", .str "always")]
  | never => .dict [("kind", .str "never")]
  | success nodeIds => .dict [("kind", .str "success"), ("node_ids", .list nodeIds)]
  | failure nodeIds => .dict [("kind", .str "failure"), ("node_ids", .list nodeIds)]
  | confidenceThreshold threshold key =>
    .dict [("kind", .str "confidence_threshold"), ("threshold", .float threshold), ("key", key)]
  | budgetThreshold maxCostUsd =>
    .dict [("kind", .str "budget_threshold"), ("max_cost_usd", .float maxCostUsd)]
  | latencyThreshold maxLatencyMs =>
    .dict [("kind", .str "latency_threshold"), ("max_latency_ms", .float maxLatencyMs)]
  | memoryThreshold maxPressure =>
    .dict [("kind", .str "memory_threshold"), ("max_pressure", .float maxPressure)]
  | toolAvailability tools => .dict [("kind", .str "tool_availability"), ("tools", .list tools)]
  | modelAvailability models =>
    .dict [("kind", .str "model_availability"), ("models", .list models)]
  | custom name _ => .dict [("kind", .str "custom"), ("name", .str name)]
  | and children => .dict [("kind", .str "and"), ("children", .list (toDicts children))]
  | or children => .dict [("kind", .str "or"), ("children", .list (toDicts children))]
  | not child => .dict [("kind", .str "not"), ("child", child.toDict)]

/-- `[c.to_dict() for c in children]`. -/
def toDicts : List (BaseCondition F P) → List (Value F)
  | [] => []
  | c :: cs => c.toDict :: toDicts cs

end

end BaseCondition

-- ------ `condition_from_dict`

namespace Value

/-- What `cls(*value)` is called with. -/
def arguments (cls : String) : Value F → Except Raised (List (Value F))
  | list xs => .ok xs
  | str s => .ok (s.toList.map fun c => str c.toString)
  | dict ms => .ok (ms.map fun m => str m.1)
  | value =>
    .error ⟨.typeError, "neuroswarm_arm.runtime.swarm.task_graph.conditions." ++ cls ++
      s!"() argument after * must be an iterable, not {typeName value}"⟩

/-- `str(value)`. -/
def text (p : Platform F) : Value F → String
  | str s => s
  | value => p.str value

/-- `data[key]`. -/
def item (ms : List (String × Value F)) (key : String) : Except Raised (Value F) :=
  match ms.lookup key with
  | some value => .ok value
  | none => .error ⟨.keyError, s!"'{key}'"⟩

/-- What is no mapping has no `get`, and what is false is `Always()`. -/
def noDict (p : Platform F) (value : Value F) : Except Raised (BaseCondition F P) :=
  if value.isTruthy p then
    .error ⟨.attributeError, s!"'{typeName value}' object has no attribute 'get'"⟩
  else .ok .always

end Value

mutual

def conditionFromDict (p : Platform F) : Value F → Except Raised (BaseCondition F P)
  | .dict [] => .ok .always
  | .dict (m :: ms) =>
    match ((m :: ms).lookup "kind").getD (.str "always") with
    | .str "always" => .ok .always
    | .str "never" => .ok .never
    | .str "success" =>
      (((m :: ms).lookup "node_ids").getD (.list [])).arguments "Success" |>.map .success
    | .str "failure" =>
      (((m :: ms).lookup "node_ids").getD (.list [])).arguments "Failure" |>.map .failure
    | .str "confidence_threshold" => do
      let threshold ← (← Value.item (m :: ms) "threshold").toFloat p
      return .confidenceThreshold threshold (((m :: ms).lookup "key").getD (.str "confidence"))
    | .str "budget_threshold" => do
      return .budgetThreshold (← (← Value.item (m :: ms) "max_cost_usd").toFloat p)
    | .str "latency_threshold" => do
      return .latencyThreshold (← (← Value.item (m :: ms) "max_latency_ms").toFloat p)
    | .str "memory_threshold" => do
      return .memoryThreshold (← (← Value.item (m :: ms) "max_pressure").toFloat p)
    | .str "tool_availability" =>
      (((m :: ms).lookup "tools").getD (.list [])).arguments "ToolAvailability"
        |>.map .toolAvailability
    | .str "model_availability" =>
      (((m :: ms).lookup "models").getD (.list [])).arguments "ModelAvailability"
        |>.map .modelAvailability
    | .str "custom" => do
      return .custom ((← Value.item (m :: ms) "name").text p) none
    | .str "and" => (childrenOf p (m :: ms)).map .and
    | .str "or" => (childrenOf p (m :: ms)).map .or
    | .str "not" => (childOf p (m :: ms)).map .not
    | kind => .error ⟨.conditionError, s!"unknown condition kind: {kind.text p}"⟩
  | value => value.noDict p

/-- `condition_from_dict(data["child"])`. -/
def childOf (p : Platform F) : List (String × Value F) → Except Raised (BaseCondition F P)
  | [] => .error ⟨.keyError, "'child'"⟩
  | (key, value) :: ms => if key = "child" then conditionFromDict p value else childOf p ms

/-- `condition_from_dict(c) for c in data.get("children", [])`. -/
def childrenOf (p : Platform F) :
    List (String × Value F) → Except Raised (List (BaseCondition F P))
  | [] => .ok []
  | (key, value) :: ms => if key = "children" then eachOf p value else childrenOf p ms

/-- What is iterated: the items of a list, the characters of a text, the keys of a dict. -/
def eachOf (p : Platform F) : Value F → Except Raised (List (BaseCondition F P))
  | .list xs => eachItem p xs
  | .str s => s.toList.mapM fun c => (Value.str c.toString).noDict p
  | .dict ms => ms.mapM fun m => (Value.str m.1).noDict p
  | value => .error ⟨.typeError, s!"'{value.typeName}' object is not iterable"⟩

def eachItem (p : Platform F) : List (Value F) → Except Raised (List (BaseCondition F P))
  | [] => .ok []
  | x :: xs => do
    let c ← conditionFromDict p x
    return c :: (← eachItem p xs)

end

-- ------ Conditions without predicates of their own

namespace BaseCondition

mutual

def withoutPredicates : BaseCondition F P → BaseCondition F P
  | custom name _ => custom name none
  | and children => and (allWithoutPredicates children)
  | or children => or (allWithoutPredicates children)
  | not child => not child.withoutPredicates
  | c => c

def allWithoutPredicates : List (BaseCondition F P) → List (BaseCondition F P)
  | [] => []
  | c :: cs => c.withoutPredicates :: allWithoutPredicates cs

end

mutual

theorem conditionFromDict_toDict (p : Platform F) :
    ∀ c : BaseCondition F P, conditionFromDict p c.toDict = .ok c.withoutPredicates
  | always | never | success _ | failure _ | confidenceThreshold _ _ | budgetThreshold _
  | latencyThreshold _ | memoryThreshold _ | toolAvailability _ | modelAvailability _
  | custom _ _ => rfl
  | and children => by
    have hItems := eachItem_toDicts p children
    show Except.map and (eachItem p (toDicts children)) = _
    rw [hItems]
    rfl
  | or children => by
    have hItems := eachItem_toDicts p children
    show Except.map or (eachItem p (toDicts children)) = _
    rw [hItems]
    rfl
  | not child => by
    have hChild := conditionFromDict_toDict p child
    show Except.map not (conditionFromDict p child.toDict) = _
    rw [hChild]
    rfl

theorem eachItem_toDicts (p : Platform F) :
    ∀ cs : List (BaseCondition F P), eachItem p (toDicts cs) = .ok (allWithoutPredicates cs)
  | [] => rfl
  | c :: cs => by
    have hHead := conditionFromDict_toDict p c
    have hTail := eachItem_toDicts p cs
    show (conditionFromDict p c.toDict >>= fun c' => eachItem p (toDicts cs) >>= fun cs' =>
      pure (c' :: cs')) = _
    rw [hHead, hTail]
    rfl

end

-- ------ Registered predicates

section Registration

variable {registry : PredicateRegistry P}

theorem foldl_registerCondition {entries : List (String × P)} {name : String} {predicate : P}
    (hMem : (name, predicate) ∈ entries) (hOnly : ∀ e ∈ entries, e.1 = name → e.2 = predicate) :
    entries.foldl registerCondition registry name = some predicate := by
  induction entries using List.reverseRecOn with
  | nil => cases hMem
  | append_singleton entries last ih =>
    rw [List.foldl_append]
    show registerCondition (entries.foldl registerCondition registry) last name = _
    unfold registerCondition
    split
    · next hName => rw [hOnly last (by simp) hName.symm]
    · next hName =>
      have hNotLast : (name, predicate) ≠ last := by
        rintro rfl
        exact hName rfl
      refine ih ?_ fun e he => hOnly e (List.mem_append_left _ he)
      simpa [hNotLast] using hMem

theorem registeredIn_construct {c : BaseCondition F P} (hUnique : c.UniquelyNamed) :
    c.RegisteredIn (c.construct registry) := by
  intro e he
  exact foldl_registerCondition he fun e' he' hName => hUnique e' he' e he hName

theorem resolve_none {m : Machine F P X} {name : String} {predicate : Option P}
    (h : ∀ own, predicate = some own → registry name = some own) :
    resolve m registry name none = resolve m registry name predicate := by
  show registry name = _
  unfold resolve
  cases predicate with
  | none => rfl
  | some own =>
    have hRegistered := h own rfl
    by_cases hTruthy : m.truthy own = true
    · simp [Option.filter, hTruthy, hRegistered]
    · simp [Option.filter, hTruthy]

end Registration

section Evaluation

variable {m : Machine F P X} {registry : PredicateRegistry P} {ctx : EvalContext F}

mutual

theorem evaluate_withoutPredicates :
    ∀ c : BaseCondition F P, c.RegisteredIn registry →
      c.withoutPredicates.evaluate m registry ctx = c.evaluate m registry ctx
  | always, _ | never, _ | success _, _ | failure _, _ | confidenceThreshold _ _, _
  | budgetThreshold _, _ | latencyThreshold _, _ | memoryThreshold _, _
  | toolAvailability _, _ | modelAvailability _, _ => rfl
  | custom name predicate, h => by
    have hResolve : resolve m registry name none = resolve m registry name predicate := by
      refine resolve_none fun own hOwn => ?_
      subst hOwn
      exact h (name, own) List.mem_cons_self
    show evaluate m registry ctx (custom name none) = _
    unfold evaluate
    rw [hResolve]
  | and children, h => by
    have hChildren := evaluateAll_withoutPredicates children h
    show evaluateAll m registry ctx (allWithoutPredicates children) = _
    rw [hChildren]
    rfl
  | or children, h => by
    have hChildren := evaluateAny_withoutPredicates children h
    show evaluateAny m registry ctx (allWithoutPredicates children) = _
    rw [hChildren]
    rfl
  | not child, h => by
    have hChild := evaluate_withoutPredicates child h
    show (child.withoutPredicates.evaluate m registry ctx).map (!·) = _
    rw [hChild]
    rfl

theorem evaluateAll_withoutPredicates :
    ∀ cs : List (BaseCondition F P), (∀ e ∈ registrationsOf cs, registry e.1 = some e.2) →
      evaluateAll m registry ctx (allWithoutPredicates cs) = evaluateAll m registry ctx cs
  | [], _ => rfl
  | c :: cs, h => by
    have hHead := evaluate_withoutPredicates c fun e he => h e (List.mem_append_left _ he)
    have hTail := evaluateAll_withoutPredicates cs fun e he => h e (List.mem_append_right _ he)
    simp only [allWithoutPredicates, evaluateAll]
    rw [hHead, hTail]

theorem evaluateAny_withoutPredicates :
    ∀ cs : List (BaseCondition F P), (∀ e ∈ registrationsOf cs, registry e.1 = some e.2) →
      evaluateAny m registry ctx (allWithoutPredicates cs) = evaluateAny m registry ctx cs
  | [], _ => rfl
  | c :: cs, h => by
    have hHead := evaluate_withoutPredicates c fun e he => h e (List.mem_append_left _ he)
    have hTail := evaluateAny_withoutPredicates cs fun e he => h e (List.mem_append_right _ he)
    simp only [allWithoutPredicates, evaluateAny]
    rw [hHead, hTail]

end

end Evaluation

end BaseCondition

/-- **Stored conditions.** A condition read back from its dict evaluates in every context as
the condition did, or raises the same, where its predicates are the registered ones. -/
theorem evaluate_conditionFromDict_toDict (m : Machine F P X) (registry : PredicateRegistry P)
    (c : BaseCondition F P) (hRegistered : c.RegisteredIn registry) :
    ∃ c' : BaseCondition F P, conditionFromDict m.toPlatform c.toDict = .ok c' ∧
      ∀ ctx, c'.evaluate m registry ctx = c.evaluate m registry ctx :=
  ⟨c.withoutPredicates, c.conditionFromDict_toDict m.toPlatform,
    fun _ => c.evaluate_withoutPredicates hRegistered⟩

def rationalMachine : Machine ℚ (EvalContext ℚ → Bool) Empty where
  zero := 0
  isZero x := x = 0
  le x y := x ≤ y
  eq x y := x = y
  eqInt x n := x = n
  ofInt n := some n
  ofStr _ := none
  str _ := ""
  repr := id
  truthy _ := true
  call predicate ctx := .ok (predicate ctx)

def flaggedOrUnsure : BaseCondition ℚ (EvalContext ℚ → Bool) :=
  .or [.not (.confidenceThreshold (1 / 2) (.str "confidence")),
    .custom "flagged" (some fun ctx => (ctx.lookup "flag").isSome)]

theorem flaggedOrUnsure_read_back :
    ∃ c', conditionFromDict rationalMachine.toPlatform flaggedOrUnsure.toDict = .ok c' ∧
      ∀ ctx, c'.evaluate rationalMachine (flaggedOrUnsure.construct fun _ => none) ctx =
        flaggedOrUnsure.evaluate rationalMachine (flaggedOrUnsure.construct fun _ => none) ctx := by
  refine evaluate_conditionFromDict_toDict _ _ _ (BaseCondition.registeredIn_construct ?_)
  intro e he e' he' _
  cases List.mem_singleton.mp he
  cases List.mem_singleton.mp he'
  rfl

end Neuroswarm.Swarm.ConditionObjects
