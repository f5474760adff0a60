import Mathlib.Algebra.Order.Ring.Rat
import Neuroswarm.Agents.Registry
import Neuroswarm.Agents.Selector
import Neuroswarm.Lib.Dict

/-!
# Agent registry — cached selections beside mutations

A select reads the list of agents, looks its request up in the cache and, on a miss,
computes a result from the list and stores it; between these steps other selects and
mutations run. A mutation clears the cache when it has stored its record. Of every
select in flight the contents of the registry since its start are remembered.

A result that was computed before a mutation and is stored after it stays in the cache
and is served to selects that start later. The selections are current throughout a run
iff no select stores a result that the present agents no longer give (`current_iff`).
-/

/-!
## The query cache

Entries expire after a time to live; a full cache drops its first key. A key is a
namespace with the key inside it.
-/

namespace Neuroswarm.Agents

open Dict

structure RegistryCache (K V : Type) where
  store : Dict (String × K) (V × Option ℚ)
  defaultTtl : Option ℚ := some 30
  maxEntries : Nat := 2048
  hits : Nat := 0
  misses : Nat := 0

namespace RegistryCache

variable {K V : Type} [DecidableEq K]

def empty (defaultTtl : Option ℚ) (maxEntries : Nat) : RegistryCache K V :=
  { store := Dict.empty, defaultTtl, maxEntries }

/-- `time.monotonic() > expires` -/
def expired (now : ℚ) (expires : Option ℚ) : Bool :=
  match expires with
  | some e => e < now
  | none => false

def get (c : RegistryCache K V) (now : ℚ) (key : String × K) : Option V × RegistryCache K V :=
  match c.store.get? key with
  | none => (none, { c with misses := c.misses + 1 })
  | some (value, expires) =>
    if expired now expires then
      (none, { c with store := c.store.erase key, misses := c.misses + 1 })
    else (some value, { c with hits := c.hits + 1 })

def set (c : RegistryCache K V) (now : ℚ) (key : String × K) (value : V) : RegistryCache K V :=
  let expires := c.defaultTtl.map (now + ·)
  let store := if c.maxEntries ≤ c.store.size then c.store.popFirst else c.store
  { c with store := store.set key (value, expires) }

def invalidateAll (c : RegistryCache K V) : RegistryCache K V := { c with store := Dict.empty }

variable {c : RegistryCache K V} {now : ℚ} {key key' : String × K} {value : V}

theorem stored_of_hit (h : (c.get now key).1 = some value) :
    ∃ expires, c.store.get? key = some (value, expires) := by
  unfold get at h
  cases hGet : c.store.get? key with
  | none => simp [hGet] at h
  | some entry =>
    obtain ⟨stored, expires⟩ := entry
    cases hExpired : expired now expires with
    | true => simp [hGet, hExpired] at h
    | false =>
      have hSame : stored = value := by simpa [hGet, hExpired] using h
      exact ⟨expires, by rw [hSame]⟩

theorem stored_of_get {entry : V × Option ℚ} (h : (c.get now key).2.store.get? key' = some entry) :
    c.store.get? key' = some entry := by
  unfold get at h
  split at h
  · exact h
  · split at h
    · exact (get?_erase_eq_some.mp h).2
    · exact h

@[simp] theorem get_defaultTtl : (c.get now key).2.defaultTtl = c.defaultTtl := by
  unfold get
  split
  · rfl
  · split <;> rfl

theorem stored_of_set {entry : V × Option ℚ}
    (h : (c.set now key value).store.get? key' = some entry) :
    (key' = key ∧ entry.1 = value) ∨ c.store.get? key' = some entry := by
  simp only [set, get?_set] at h
  split at h
  · cases h
    exact .inl ⟨‹_›, rfl⟩
  · right
    split at h
    · exact get?_popFirst_of_some h
    · exact h

theorem hit_of_set (hTtl : ∀ ttl ∈ c.defaultTtl, 0 ≤ ttl) :
    ((c.set now key value).get now key).1 = some value := by
  have hGet : (c.set now key value).store.get? key = some (value, c.defaultTtl.map (now + ·)) :=
    get?_set_self _ _ _
  have hLive : expired now (c.defaultTtl.map (now + ·)) = false := by
    cases hDefault : c.defaultTtl with
    | none => rfl
    | some ttl =>
      have hPos : 0 ≤ ttl := hTtl ttl hDefault
      simpa [expired] using hPos
  simp [get, hGet, hLive]

end RegistryCache

end Neuroswarm.Agents

/-! ## Cached selections beside mutations -/

namespace Neuroswarm.Agents

open Dict Run

inductive Mutation where
  | op (o : Op)
  | unregister (agentId : String)
  | clear

def AgentRegistry.unregister (r : AgentRegistry) (agentId : String) :
    Except RegistryError AgentRegistry :=
  match r.get? agentId with
  | none => .error (.notFound agentId)
  | some _ => .ok { r with store := r.store.remove agentId }

def AgentRegistry.clear (r : AgentRegistry) : AgentRegistry := { r with store := .empty }

def Mutation.run (r : AgentRegistry) : Mutation → Except RegistryError AgentRegistry
  | .op o => o.run r
  | .unregister agentId => r.unregister agentId
  | .clear => .ok r.clear

structure InFlight where
  request : SelectionRequest
  /-- the agents read at the start -/
  agents : List Agent
  /-- the contents of the registry since the start -/
  window : List (List Agent)
  /-- the cache had no answer -/
  missed : Bool

structure Answer (K : Type) where
  result : SelectionResult K
  request : SelectionRequest
  window : List (List Agent)

inductive SelectEvent (Tid : Type) where
  | asList (t : Tid) (request : SelectionRequest)
  | lookup (t : Tid) (now : ℚ)
  | store (t : Tid) (now : ℚ)
  | mutate (m : Mutation)

structure Service (Tid K : Type) where
  registry : AgentRegistry
  cache : RegistryCache K (SelectionResult K)
  inFlight : Dict Tid InFlight
  answers : List (Answer K)

namespace Service

variable {Tid K : Type} [DecidableEq Tid] [DecidableEq K]

def start (r : AgentRegistry) (defaultTtl : Option ℚ) (maxEntries : Nat) : Service Tid K :=
  { registry := r, cache := .empty defaultTtl maxEntries, inFlight := Dict.empty, answers := [] }

def cacheKey (selector : AgentSelector K) (request : SelectionRequest) : String × K :=
  ("selection", selector.requestHash request)

/-- `as_list`, the first step of a select. -/
def asList (s : Service Tid K) (t : Tid) (request : SelectionRequest) : Service Tid K :=
  match s.inFlight.get? t with
  | some _ => s
  | none =>
    let agents := s.registry.asList
    { s with inFlight := s.inFlight.set t { request, agents, window := [agents], missed := false } }

/-- The select of `t` returns. -/
def finish (s : Service Tid K) (t : Tid) (f : InFlight) (result : SelectionResult K) :
    Service Tid K :=
  { s with
    inFlight := s.inFlight.erase t
    answers := s.answers ++ [{ result, request := f.request, window := f.window }] }

/-- The cache is asked. -/
def lookup (selector : AgentSelector K) (s : Service Tid K) (t : Tid) (now : ℚ) : Service Tid K :=
  match s.inFlight.get? t with
  | none => s
  | some f =>
    if f.missed then s
    else
      match s.cache.get now (cacheKey selector f.request) with
      | (some cached, cache) => { s with cache }.finish t f cached
      | (none, cache) =>
        { s with cache, inFlight := s.inFlight.set t { f with missed := true } }

/-- The result is computed and stored. -/
def store (selector : AgentSelector K) (s : Service Tid K) (t : Tid) (now : ℚ) : Service Tid K :=
  match s.inFlight.get? t with
  | none => s
  | some f =>
    if f.missed then
      let result := selector.uncached f.agents f.request
      { s with cache := s.cache.set now (cacheKey selector f.request) result }.finish t f result
    else s

/-- A mutation, with its `on_change`. -/
def mutate (s : Service Tid K) (m : Mutation) : Service Tid K :=
  match m.run s.registry with
  | .error _ => s
  | .ok r' =>
    { s with
      registry := r'
      cache := s.cache.invalidateAll
      inFlight := s.inFlight.mapValues fun _ f => { f with window := f.window ++ [r'.asList] } }

def step (selector : AgentSelector K) (s : Service Tid K) : SelectEvent Tid → Service Tid K
  | .asList t request => s.asList t request
  | .lookup t now => s.lookup selector t now
  | .store t now => s.store selector t now
  | .mutate m => s.mutate m

/-- What a select gives that runs from its start to its end without others in between. -/
def selectAlone (selector : AgentSelector K) (s : Service Tid K) (request : SelectionRequest)
    (now : ℚ) : SelectionResult K :=
  match (s.cache.get now (cacheKey selector request)).1 with
  | some cached => cached
  | none => selector.uncached s.registry.asList request

/-- No answer is stale: each is the uncached one for a content of the registry during its
select, and a select on its own gives the one for the present content. -/
structure Current (selector : AgentSelector K) (s : Service Tid K) : Prop where
  answered : ∀ a ∈ s.answers, ∃ agents ∈ a.window, a.result = selector.uncached agents a.request
  alone : ∀ request now,
    s.selectAlone selector request now = selector.uncached s.registry.asList request

def InTime (selector : AgentSelector K) (s : Service Tid K) : SelectEvent Tid → Prop
  | .store t _ => ∀ f ∈ s.inFlight.get? t, f.missed = true →
      selector.uncached f.agents f.request = selector.uncached s.registry.asList f.request
  | _ => True

instance (selector : AgentSelector K) (s : Service Tid K) :
    DecidablePred (InTime selector s)
  | .store t _ => inferInstanceAs (Decidable (∀ f ∈ s.inFlight.get? t, _ → _))
  | .asList .. | .lookup .. | .mutate _ => .isTrue trivial

/-- What makes the answers current. -/
structure Inv (selector : AgentSelector K) (s : Service Tid K) : Prop where
  cached : ∀ request entry, s.cache.store.get? (cacheKey selector request) = some entry →
    entry.1 = selector.uncached s.registry.asList request
  windows : ∀ t f, s.inFlight.get? t = some f →
    f.agents ∈ f.window ∧ s.registry.asList ∈ f.window
  answered : ∀ a ∈ s.answers, ∃ agents ∈ a.window, a.result = selector.uncached agents a.request
  ttl_nonneg : ∀ ttl ∈ s.cache.defaultTtl, 0 ≤ ttl

variable {selector : AgentSelector K} {s : Service Tid K}

theorem Inv.hit (h : Inv selector s) {request : SelectionRequest} {now : ℚ}
    {cached : SelectionResult K}
    (hHit : (s.cache.get now (cacheKey selector request)).1 = some cached) :
    cached = selector.uncached s.registry.asList request := by
  obtain ⟨expires, hStored⟩ := RegistryCache.stored_of_hit hHit
  exact h.cached request _ hStored

theorem Inv.current (h : Inv selector s) : Current selector s where
  answered := h.answered
  alone request now := by
    unfold selectAlone
    split
    · exact h.hit ‹_›
    · rfl

theorem Inv.start (r : AgentRegistry) {defaultTtl : Option ℚ} (maxEntries : Nat)
    (hTtl : ∀ ttl ∈ defaultTtl, 0 ≤ ttl) :
    Inv selector (start r defaultTtl maxEntries : Service Tid K) where
  cached _ _ h := nomatch h
  windows _ _ h := nomatch h
  answered _ h := nomatch h
  ttl_nonneg := hTtl

theorem Inv.asList (h : Inv selector s) (t : Tid) (request : SelectionRequest) :
    Inv selector (s.asList t request) := by
  unfold Service.asList
  split
  · exact h
  · refine { h with windows := fun t' f hf => ?_ }
    rw [get?_set] at hf
    split at hf
    · cases hf
      simp
    · exact h.windows t' f hf

theorem Inv.finish (h : Inv selector s) {t : Tid} {f : InFlight} {result : SelectionResult K}
    (hResult : ∃ agents ∈ f.window, result = selector.uncached agents f.request) :
    Inv selector (s.finish t f result) where
  cached := h.cached
  windows t' f' hf := h.windows t' f' (get?_erase_eq_some.mp hf).2
  answered a ha := by
    rcases List.mem_append.mp ha with hOld | hNew
    · exact h.answered a hOld
    · cases List.mem_singleton.mp hNew
      exact hResult
  ttl_nonneg := h.ttl_nonneg

theorem Inv.get (h : Inv selector s) (now : ℚ) (key : String × K) :
    Inv selector { s with cache := (s.cache.get now key).2 } where
  cached request entry hEntry := h.cached request entry (RegistryCache.stored_of_get hEntry)
  windows := h.windows
  answered := h.answered
  ttl_nonneg := by
    rw [RegistryCache.get_defaultTtl]
    exact h.ttl_nonneg

theorem Inv.lookup (h : Inv selector s) (t : Tid) (now : ℚ) :
    Inv selector (s.lookup selector t now) := by
  unfold Service.lookup
  split
  · exact h
  · rename_i f hf
    split
    · exact h
    · have hCache := h.get now (cacheKey selector f.request)
      rcases hGet : s.cache.get now (cacheKey selector f.request) with ⟨cached, cache⟩
      rw [hGet] at hCache
      cases cached with
      | some cached =>
        have hHit := h.hit (congrArg Prod.fst hGet)
        exact hCache.finish ⟨_, (h.windows t f hf).2, hHit⟩
      | none =>
        refine { hCache with windows := fun t' f' hf' => ?_ }
        rw [get?_set] at hf'
        split at hf'
        · cases hf'
          exact h.windows t f hf
        · exact h.windows t' f' hf'

theorem Inv.mutate (h : Inv selector s) (m : Mutation) : Inv selector (s.mutate m) := by
  unfold Service.mutate
  split
  · exact h
  · refine ⟨fun _ _ hNone => (nomatch hNone), fun t f hf => ?_, h.answered, h.ttl_nonneg⟩
    rw [get?_mapValues, Option.map_eq_some_iff] at hf
    obtain ⟨old, hOld, rfl⟩ := hf
    exact ⟨List.mem_append_left _ (h.windows t old hOld).1, List.mem_append_right _ (by simp)⟩

/-- The service whose cache holds what the select `f` computed. -/
def storing (selector : AgentSelector K) (s : Service Tid K) (f : InFlight) (now : ℚ) :
    Service Tid K :=
  { s with
    cache := s.cache.set now (cacheKey selector f.request)
      (selector.uncached f.agents f.request) }

theorem store_of_missed {t : Tid} {now : ℚ} {f : InFlight} (hf : s.inFlight.get? t = some f)
    (hMissed : f.missed = true) :
    s.store selector t now =
      (s.storing selector f now).finish t f (selector.uncached f.agents f.request) := by
  unfold Service.store
  rw [hf]
  exact if_pos hMissed

theorem store_of_not_missed {t : Tid} {now : ℚ}
    (h : ∀ f, s.inFlight.get? t = some f → f.missed ≠ true) : s.store selector t now = s := by
  unfold Service.store
  split
  · rfl
  · exact if_neg (h _ ‹_›)

theorem Inv.storing (hHash : Function.Injective selector.requestHash) (h : Inv selector s)
    {f : InFlight} (now : ℚ)
    (hSame : selector.uncached f.agents f.request =
      selector.uncached s.registry.asList f.request) :
    Inv selector (s.storing selector f now) := by
  refine { h with cached := fun request entry hEntry => ?_ }
  rcases RegistryCache.stored_of_set hEntry with ⟨hKey, hNew⟩ | hOld
  · -- the entry just stored: the keys are equal only for one request
    have hRequest : request = f.request := hHash (Prod.mk.inj hKey).2
    rw [hNew, hRequest]
    exact hSame
  · exact h.cached request entry hOld

theorem Inv.store (hHash : Function.Injective selector.requestHash) (h : Inv selector s) {t : Tid}
    {now : ℚ} (hTime : InTime selector s (.store t now)) :
    Inv selector (s.store selector t now) := by
  by_cases hStores : ∃ f, s.inFlight.get? t = some f ∧ f.missed = true
  · obtain ⟨f, hf, hMissed⟩ := hStores
    rw [store_of_missed hf hMissed]
    exact (h.storing hHash now (hTime f hf hMissed)).finish ⟨f.agents, (h.windows t f hf).1, rfl⟩
  · rw [store_of_not_missed fun f hf hMissed => hStores ⟨f, hf, hMissed⟩]
    exact h

theorem Inv.stale_of_late (h : Inv selector s) {t : Tid} {now : ℚ}
    (hLate : ¬ InTime selector s (.store t now)) :
    ¬ Current selector (s.store selector t now) := by
  intro hCurrent
  refine hLate fun f hf hMissed => ?_
  have hServed := hCurrent.alone f.request now
  have hHit : ((s.cache.set now (cacheKey selector f.request)
      (selector.uncached f.agents f.request)).get now (cacheKey selector f.request)).1 =
        some (selector.uncached f.agents f.request) := RegistryCache.hit_of_set h.ttl_nonneg
  rw [store_of_missed hf hMissed] at hServed
  simpa only [selectAlone, Service.finish, Service.storing, hHit] using hServed

/-- Selections are current throughout a run iff every result is stored while the registry
still gives it. -/
theorem current_iff (hHash : Function.Injective selector.requestHash) (r : AgentRegistry)
    (defaultTtl : Option ℚ) (hTtl : ∀ ttl ∈ defaultTtl, 0 ≤ ttl) (maxEntries : Nat)
    (events : List (SelectEvent Tid)) :
    Along (step selector) (Current selector) (start r defaultTtl maxEntries) events ↔
      Every (step selector) (InTime selector) (start r defaultTtl maxEntries) events := by
  refine along_iff_every (I := Inv selector) (fun s h => h.current) ?_ ?_
    (Inv.start r maxEntries hTtl) events
  · intro s event h hTime
    cases event with
    | asList t request => exact h.asList t request
    | lookup t now => exact h.lookup t now
    | store t now => exact h.store hHash hTime
    | mutate m => exact h.mutate m
  · intro s event h hLate
    cases event with
    | store t now => exact h.stale_of_late hLate
    | asList t request => exact absurd trivial hLate
    | lookup t now => exact absurd trivial hLate
    | mutate m => exact absurd trivial hLate

def coderRegistry : AgentRegistry :=
  { store := RegistryStore.empty.put { id := "coder", name := "coder", status := .ready } }

def plainSelector : AgentSelector SelectionRequest := { weights := {}, requestHash := id }

/-- The agent is disabled between two selects. -/
theorem current_iff_apart :
    Along (step plainSelector) (Current plainSelector)
      (start coderRegistry (some 30) 2048 : Service Nat SelectionRequest)
      [.asList 0 {}, .lookup 0 0, .store 0 1, .mutate (.op (.control (.disable "coder"))),
        .asList 1 {}, .lookup 1 2, .store 1 3] := by
  have hTtl : ∀ ttl ∈ some (30 : ℚ), 0 ≤ ttl := by decide
  exact (current_iff (fun _ _ h => h) coderRegistry (some 30) hTtl 2048 _).mpr (by decide +kernel)

/-- The agent is disabled while a select computes: the next select still finds it. -/
theorem disabled_agent_served :
    ¬ ∀ (r : AgentRegistry) (events : List (SelectEvent Nat)),
      Along (step plainSelector) (Current plainSelector)
        (start r (some 30) 2048 : Service Nat SelectionRequest) events := by
  intro h
  have hLast := (h coderRegistry
    [.asList 0 {}, .lookup 0 0, .mutate (.op (.control (.disable "coder"))), .store 0 1,
      .asList 1 {}, .lookup 1 2]).exec.answered
  revert hLast
  decide +kernel

end Service

end Neuroswarm.Agents
