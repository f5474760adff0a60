import Neuroswarm.Acr.Kernel
import Neuroswarm.Lib.Delimited
import Neuroswarm.Lib.Run

/-!
# Adaptive context runtime — transparency of the context cache

The key of a request is a digest of its query, owner, agent role, budget and tool names, joined
without escapes. The tool prompt block is not part of it.

* `key_eq_iff` — which requests share a key.
* `Tracked` — the cache, with the request that every entry was built for.
* `transparent_of_unambiguous` — runs in which the cache cannot be noticed.
-/

namespace Neuroswarm.Acr

open Armcascade (Text)
open Run

variable {Analysis Plan Metadata : Type} {sha : Digests} {stages : Stages Analysis Plan}
  {cfg : Config}

-- ------ Requests that share a key

/-- The texts that go into the key are the same. -/
def SameText (cfg : Config) (r r' : Request Metadata) : Prop :=
  r.fingerprintText cfg = r'.fingerprintText cfg ∧
    r.owner ++ '|' :: r.agentRole = r'.owner ++ '|' :: r'.agentRole

instance (r r' : Request Metadata) : Decidable (SameText cfg r r') :=
  inferInstanceAs (Decidable (_ ∧ _))

theorem key_eq_iff (hSha : sha.CollisionFree) (r r' : Request Metadata) :
    r.key sha cfg = r'.key sha cfg ↔ SameText cfg r r' := by
  have hKey : ∀ r : Request Metadata, r.key sha cfg = sha.digest ("hot|".toList ++
      (sha.fingerprint (r.fingerprintText cfg) ++
        '|' :: ("||".toList ++ ((r.owner ++ '|' :: r.agentRole) ++ "|[]".toList)))) := by
    intro r
    simp [Request.key, ContextCacheKey.digest, joined, List.intercalate]
  rw [hKey, hKey, hSha.digest.eq_iff, List.append_cancel_left_eq,
    Delimited.append_cons_inj_of_free (hSha.noBar _) (hSha.noBar _), hSha.fingerprint.eq_iff,
    List.append_cancel_left_eq, List.append_cancel_right_eq]
  exact Iff.rfl

-- ------ What the cache does to its entries

namespace ContextCache

variable {c : ContextCache}

theorem get?_evict {n : ℕ} {k : Text} {e : CacheEntry}
    (h : (evict n c).store.get? k = some e) : c.store.get? k = some e := by
  induction n generalizing c with
  | zero => exact h
  | succ n ih =>
    unfold evict at h
    split at h
    · split at h
      · exact h
      · exact (Dict.get?_erase_eq_some.mp (ih h)).2
    · exact h

theorem get?_put {key k : Text} {snapshot : ContextSnapshot} {now : ℚ} {e : CacheEntry}
    (h : (c.put key snapshot now).store.get? k = some e) :
    (k = key ∧ e.snapshot = snapshot) ∨ (k ≠ key ∧ c.store.get? k = some e) := by
  have hStore := get?_evict h
  rw [Dict.get?_moveToEnd, Dict.get?_set] at hStore
  split at hStore
  · next hKey =>
    cases hStore
    exact .inl ⟨hKey, rfl⟩
  · next hKey => exact .inr ⟨hKey, hStore⟩

theorem get?_get {key k : Text} {now : ℚ} {e : CacheEntry}
    (h : (c.get key now).2.store.get? k = some e) :
    ∃ e₀, c.store.get? k = some e₀ ∧ e.snapshot.prompt = e₀.snapshot.prompt := by
  unfold get at h
  split at h
  · exact ⟨e, h, rfl⟩
  · next entry hEntry =>
    split at h
    · exact ⟨e, (Dict.get?_erase_eq_some.mp h).2, rfl⟩
    · have hSet : (c.store.set key { entry with
          snapshot := { entry.snapshot with cacheHit := true }
          hits := entry.hits + 1 }).get? k = some e := by
        dsimp only at h
        split at h
        · rwa [Dict.get?_moveToEnd] at h
        · exact h
      rw [Dict.get?_set] at hSet
      split at hSet
      · next hKey =>
        cases hSet
        exact ⟨entry, hKey ▸ hEntry, rfl⟩
      · exact ⟨e, hSet, rfl⟩

theorem get_eq_some {key : Text} {now : ℚ} {snapshot : ContextSnapshot}
    (h : (c.get key now).1 = some snapshot) :
    ∃ e, c.store.get? key = some e ∧ snapshot.prompt = e.snapshot.prompt := by
  unfold get at h
  split at h
  · cases h
  · next entry hEntry =>
    split at h
    · cases h
    · cases h
      exact ⟨entry, hEntry, rfl⟩

end ContextCache

-- ------ Entries and the requests they were built for

/-- The cache, with the request that the entry of a key was last built for. -/
structure Tracked (Metadata : Type) where
  cache : ContextCache
  origins : Dict Text (Request Metadata)

namespace Tracked

def new (cache : ContextCache) : Tracked Metadata := { cache, origins := Dict.empty }

def hit (sha : Digests) (cfg : Config) (s : Tracked Metadata) (call : Call Metadata) :
    Option ContextSnapshot :=
  if cfg.enabled && (call.request.useCache && cfg.cacheEnabled) then
    (s.cache.get (call.request.key sha cfg) call.now).1
  else none

def Stores (sha : Digests) (cfg : Config) (s : Tracked Metadata) (call : Call Metadata) : Prop :=
  cfg.enabled = true ∧ call.request.useCache = true ∧ cfg.cacheEnabled = true ∧
    s.hit sha cfg call = none

instance (s : Tracked Metadata) (call : Call Metadata) : Decidable (s.Stores sha cfg call) :=
  inferInstanceAs (Decidable (_ ∧ _ ∧ _ ∧ _))

def step (sha : Digests) (stages : Stages Analysis Plan) (cfg : Config) (s : Tracked Metadata)
    (call : Call Metadata) : Tracked Metadata :=
  { cache := (buildContext sha stages cfg s.cache call).2
    origins :=
      if s.Stores sha cfg call then s.origins.set (call.request.key sha cfg) call.request
      else s.origins }

/-- Every entry holds the prompt of the request it was built for. -/
structure Sound (sha : Digests) (stages : Stages Analysis Plan) (cfg : Config)
    (s : Tracked Metadata) : Prop where
  keyed : ∀ key r, s.origins.get? key = some r → key = r.key sha cfg
  built : ∀ key e, s.cache.store.get? key = some e →
    ∃ r, s.origins.get? key = some r ∧ e.snapshot.prompt = stages.prompt (r.reads cfg)

variable {s : Tracked Metadata} {call : Call Metadata}

theorem sound_new (cache : ContextCache) (h : cache.store = Dict.empty) :
    (new cache : Tracked Metadata).Sound sha stages cfg where
  keyed key r hr := by cases hr
  built key e he := by
    rw [show (new cache : Tracked Metadata).cache.store = Dict.empty from h] at he
    cases he

theorem buildContext_of_hit {snapshot : ContextSnapshot} (h : s.hit sha cfg call = some snapshot) :
    buildContext sha stages cfg s.cache call =
      (snapshot, (s.cache.get (call.request.key sha cfg) call.now).2) := by
  unfold hit at h
  split at h
  · next hCached =>
    rw [Bool.and_eq_true] at hCached
    unfold buildContext
    rw [if_pos hCached.1]
    dsimp only
    rw [if_pos hCached.2]
    generalize s.cache.get (call.request.key sha cfg) call.now = got at h ⊢
    obtain ⟨found, cache⟩ := got
    cases h
    rfl
  · cases h

theorem buildContext_of_stores (stages : Stages Analysis Plan) (h : s.Stores sha cfg call) :
    ∃ snapshot, snapshot.prompt = stages.prompt (call.request.reads cfg) ∧
      buildContext sha stages cfg s.cache call =
        (snapshot, ((s.cache.get (call.request.key sha cfg) call.now).2).put
          (call.request.key sha cfg) snapshot call.later) := by
  obtain ⟨hEnabled, hUse, hCache, hMiss⟩ := h
  have hCached : (call.request.useCache && cfg.cacheEnabled) = true := by rw [hUse, hCache]; rfl
  unfold hit at hMiss
  rw [if_pos (by rw [hEnabled, hCached]; rfl)] at hMiss
  unfold buildContext
  rw [if_pos hEnabled]
  dsimp only
  rw [if_pos hCached]
  generalize s.cache.get (call.request.key sha cfg) call.now = got at hMiss ⊢
  obtain ⟨found, cache⟩ := got
  cases hMiss
  exact ⟨_, rfl, by rw [if_pos hCached]⟩

theorem buildContext_of_bypass (h : (cfg.enabled && (call.request.useCache && cfg.cacheEnabled)) =
    false) : (buildContext sha stages cfg s.cache call).2 = s.cache ∧
      (buildContext sha stages cfg s.cache call).1.prompt =
        if cfg.enabled then stages.prompt (call.request.reads cfg) else [] := by
  unfold buildContext
  cases hEnabled : cfg.enabled with
  | false => exact ⟨rfl, rfl⟩
  | true =>
    rw [hEnabled, Bool.true_and] at h
    rw [if_pos rfl]
    dsimp only
    rw [h]
    exact ⟨rfl, rfl⟩

theorem hit_or_stores_or_bypass (sha : Digests) (cfg : Config) (s : Tracked Metadata)
    (call : Call Metadata) :
    (∃ snapshot, s.hit sha cfg call = some snapshot) ∨ s.Stores sha cfg call ∨
      (cfg.enabled && (call.request.useCache && cfg.cacheEnabled)) = false := by
  by_cases hCached : (cfg.enabled && (call.request.useCache && cfg.cacheEnabled)) = true
  · cases hHit : s.hit sha cfg call with
    | some snapshot => exact .inl ⟨snapshot, rfl⟩
    | none =>
      simp only [Bool.and_eq_true] at hCached
      exact .inr (.inl ⟨hCached.1, hCached.2.1, hCached.2.2, hHit⟩)
  · exact .inr (.inr (Bool.eq_false_iff.mpr hCached))

theorem Sound.step (h : s.Sound sha stages cfg) (call : Call Metadata) :
    (s.step sha stages cfg call).Sound sha stages cfg := by
  constructor
  · intro key r hr
    unfold Tracked.step at hr
    dsimp only at hr
    split at hr
    · rw [Dict.get?_set] at hr
      split at hr
      · next hKey =>
        cases hr
        exact hKey
      · exact h.keyed key r hr
    · exact h.keyed key r hr
  · intro key e he
    rcases hit_or_stores_or_bypass sha cfg s call with ⟨snapshot, hHit⟩ | hStores | hBypass
    · have hNot : ¬ s.Stores sha cfg call := fun hStores => by
        rw [hStores.2.2.2] at hHit
        cases hHit
      unfold Tracked.step at he ⊢
      rw [if_neg hNot]
      rw [buildContext_of_hit hHit] at he
      obtain ⟨e₀, he₀, hPrompt⟩ := ContextCache.get?_get he
      obtain ⟨r, hr, hBuilt⟩ := h.built key e₀ he₀
      exact ⟨r, hr, hPrompt.trans hBuilt⟩
    · obtain ⟨snapshot, hSnapshot, hBuild⟩ := buildContext_of_stores stages hStores
      unfold Tracked.step at he ⊢
      rw [if_pos hStores]
      rw [hBuild] at he
      rcases ContextCache.get?_put he with ⟨hKey, hNew⟩ | ⟨hKey, hOld⟩
      · refine ⟨call.request, by rw [hKey, Dict.get?_set_self], ?_⟩
        rw [hNew, hSnapshot]
      · obtain ⟨e₀, he₀, hPrompt⟩ := ContextCache.get?_get hOld
        obtain ⟨r, hr, hBuilt⟩ := h.built key e₀ he₀
        exact ⟨r, by rw [Dict.get?_set_ne _ _ hKey, hr], hPrompt.trans hBuilt⟩
    · have hNot : ¬ s.Stores sha cfg call := fun hStores => by
        rw [hStores.1, hStores.2.1, hStores.2.2.1] at hBypass
        cases hBypass
      unfold Tracked.step at he ⊢
      rw [if_neg hNot]
      rw [(buildContext_of_bypass hBypass).1] at he
      exact h.built key e he

end Tracked

-- ------ Transparency

/-- The call is answered with the snapshot that was built for this request. -/
def ServedFrom (sha : Digests) (cfg : Config) (s : Tracked Metadata) (call : Call Metadata)
    (r : Request Metadata) : Prop :=
  (s.hit sha cfg call).isSome ∧ s.origins.get? (call.request.key sha cfg) = some r

/-- The prompt is that of the same call without the cache, and no snapshot of another owner is
handed out. -/
structure Transparent (sha : Digests) (stages : Stages Analysis Plan) (cfg : Config)
    (s : Tracked Metadata) (call : Call Metadata) : Prop where
  prompt : (buildContext sha stages cfg s.cache call).1.prompt =
    (buildContext sha stages cfg s.cache
      { call with request := { call.request with useCache := false } }).1.prompt
  owner : ∀ r, ServedFrom sha cfg s call r → r.owner = call.request.owner

/-- Every entry that is kept, has not expired and shares the texts of the key was built for what
the call asks for. -/
def Unambiguous (cfg : Config) (s : Tracked Metadata) (call : Call Metadata) : Prop :=
  cfg.enabled = true → call.request.useCache = true → cfg.cacheEnabled = true →
    ∀ e ∈ s.origins.entries, (s.cache.get e.1 call.now).1.isSome →
      SameText cfg e.2 call.request → e.2.reads cfg = call.request.reads cfg

instance (s : Tracked Metadata) : DecidablePred (Unambiguous cfg s) := fun _ =>
  inferInstanceAs (Decidable (_ → _ → _ → ∀ e ∈ s.origins.entries, _))

variable {s : Tracked Metadata} {call : Call Metadata}

theorem unambiguous_iff (hSha : sha.CollisionFree) (h : s.Sound sha stages cfg) :
    Unambiguous cfg s call ↔
      ∀ r, ServedFrom sha cfg s call r → r.reads cfg = call.request.reads cfg := by
  have hHit : (s.hit sha cfg call).isSome ↔ cfg.enabled = true ∧ call.request.useCache = true ∧
      cfg.cacheEnabled = true ∧
      (s.cache.get (call.request.key sha cfg) call.now).1.isSome := by
    unfold Tracked.hit
    split
    · next hCached =>
      simp only [Bool.and_eq_true] at hCached
      simp [hCached]
    · next hCached =>
      simp only [Bool.and_eq_true] at hCached
      refine iff_of_false (by simp) fun hAll => hCached ⟨hAll.1, hAll.2.1, hAll.2.2.1⟩
  constructor
  · rintro hUnambiguous r ⟨hSome, hOrigin⟩
    obtain ⟨hEnabled, hUse, hCache, hFresh⟩ := hHit.mp hSome
    have hKey := h.keyed _ r hOrigin
    exact hUnambiguous hEnabled hUse hCache (_, r) (Dict.mem_entries_iff.mpr hOrigin) hFresh
      ((key_eq_iff hSha r call.request).mp hKey.symm)
  · intro hServed hEnabled hUse hCache e he hFresh hText
    have hOrigin : s.origins.get? e.1 = some e.2 := Dict.mem_entries_iff.mp he
    have hKey : e.1 = call.request.key sha cfg :=
      (h.keyed e.1 e.2 hOrigin).trans ((key_eq_iff hSha e.2 call.request).mpr hText)
    refine hServed e.2 ⟨hHit.mpr ⟨hEnabled, hUse, hCache, ?_⟩, ?_⟩
    · rw [← hKey]
      exact hFresh
    · rw [← hKey]
      exact hOrigin

theorem transparent_of_served (h : s.Sound sha stages cfg)
    (hServed : ∀ r, ServedFrom sha cfg s call r → r.reads cfg = call.request.reads cfg) :
    Transparent sha stages cfg s call := by
  have hPlain : (buildContext sha stages cfg s.cache
      { call with request := { call.request with useCache := false } }).1.prompt =
        if cfg.enabled then stages.prompt (call.request.reads cfg) else [] :=
    (Tracked.buildContext_of_bypass (by simp)).2
  refine ⟨?_, fun r hr => congrArg Reads.owner (hServed r hr)⟩
  rw [hPlain]
  rcases Tracked.hit_or_stores_or_bypass sha cfg s call with ⟨snapshot, hHit⟩ | hStores | hBypass
  · have hFound := hHit
    unfold Tracked.hit at hFound
    split at hFound
    · next hCached =>
      rw [Bool.and_eq_true] at hCached
      obtain ⟨e, he, hPrompt⟩ := ContextCache.get_eq_some hFound
      obtain ⟨r, hr, hBuilt⟩ := h.built _ e he
      rw [Tracked.buildContext_of_hit hHit, if_pos hCached.1, hPrompt, hBuilt,
        hServed r ⟨by rw [hHit]; rfl, hr⟩]
    · cases hFound
  · obtain ⟨snapshot, hPrompt, hBuild⟩ := Tracked.buildContext_of_stores stages hStores
    rw [hBuild, if_pos hStores.1, hPrompt]
  · exact (Tracked.buildContext_of_bypass hBypass).2

/-- **Runs.** Where every call is unambiguous, and only there, all snapshots that are handed out
were built for what was asked for; and there the cache cannot be noticed. -/
theorem transparent_of_unambiguous (hSha : sha.CollisionFree) (stages : Stages Analysis Plan)
    (cfg : Config) (maxEntries : ℕ) (ttlS : ℚ) (policy : EvictionPolicy)
    (calls : List (Call Metadata)) :
    let start := Tracked.new (.new maxEntries ttlS policy)
    (Every (Tracked.step sha stages cfg) (Unambiguous cfg) start calls ↔
      Every (Tracked.step sha stages cfg)
        (fun s call => ∀ r, ServedFrom sha cfg s call r → r.reads cfg = call.request.reads cfg)
        start calls) ∧
    (Every (Tracked.step sha stages cfg) (Unambiguous cfg) start calls →
      Every (Tracked.step sha stages cfg) (Transparent sha stages cfg) start calls) := by
  intro start
  have hStart : start.Sound sha stages cfg := Tracked.sound_new _ rfl
  have hTransparent : ∀ (s : Tracked Metadata) call, s.Sound sha stages cfg →
      Unambiguous cfg s call → Transparent sha stages cfg s call := fun s call hs hCall =>
    transparent_of_served hs ((unambiguous_iff hSha hs).mp hCall)
  refine ⟨⟨fun hRun => ?_, fun hRun => ?_⟩, fun hRun => ?_⟩
  · exact every_of_every (fun s call hs _ => hs.step call)
      (fun s call hs => (unambiguous_iff hSha hs).mp) hStart hRun
  · exact every_of_every (fun s call hs _ => hs.step call)
      (fun s call hs => (unambiguous_iff hSha hs).mpr) hStart hRun
  · exact every_of_every (fun s call hs _ => hs.step call) hTransparent hStart hRun

-- ------ Runs on the default stages

def Digests.spelled : Digests where
  fingerprint text := text.flatMap fun c => if c = '|' then ['b', 'b'] else ['c', c]
  digest text := text

theorem Digests.spelled_collisionFree : Digests.spelled.CollisionFree where
  fingerprint := by
    have hHead : ∀ c c' : Char, ∀ t t' : Text,
        (if c = '|' then ['b', 'b'] else ['c', c]) ++ t =
          (if c' = '|' then ['b', 'b'] else ['c', c']) ++ t' → c = c' ∧ t = t' := by
      intro c c' t t' h
      by_cases hc : c = '|'
      · by_cases hc' : c' = '|'
        · simpa [hc, hc'] using h
        · simp [hc, hc'] at h
      · by_cases hc' : c' = '|'
        · simp [hc, hc'] at h
        · simpa [hc, hc'] using h
    intro t t' h
    dsimp only [Digests.spelled] at h
    induction t generalizing t' with
    | nil =>
      cases t' with
      | nil => rfl
      | cons c' t' =>
        rw [List.flatMap_cons, List.flatMap_nil] at h
        have hLen := congrArg List.length h
        split at hLen <;> simp at hLen
    | cons c t ih =>
      cases t' with
      | nil =>
        rw [List.flatMap_cons, List.flatMap_nil] at h
        have hLen := congrArg List.length h
        split at hLen <;> simp at hLen
      | cons c' t' =>
        rw [List.flatMap_cons, List.flatMap_cons] at h
        obtain ⟨hChar, hRest⟩ := hHead c c' _ _ h
        rw [hChar, ih hRest]
  noBar text := by
    intro h
    obtain ⟨c, -, hc⟩ := List.mem_flatMap.mp h
    by_cases hBar : c = '|'
    · simp [hBar] at hc
    · simp [hBar, Ne.symm hBar] at hc
  digest := Function.injective_id

/-- The default stages without stores, for queries in which no intent is detected. -/
def bareStages : Stages Text Unit where
  understand _ agentRole :=
    (if agentRole = [] then "architect".toList else agentRole).map Char.toLower
  intent graph := "general_".toList ++ graph
  agentRole graph := graph
  plan _ _ := ()
  remember _ _ := []
  query _ _ _ := []
  refine _ _ memory knowledge := (memory, knowledge)

def asking (request : Request Unit) : Call Unit := { request, now := 0, later := 0 }

theorem transparent_of_unambiguous_twice :
    Every (Tracked.step Digests.spelled bareStages {}) (Transparent Digests.spelled bareStages {})
      (.new (.new 256 60 .lru))
      [asking { query := "hi".toList, toolPromptBlock := "a".toList },
        asking { query := "hi".toList, toolPromptBlock := "a".toList, metadata := some () }] :=
  (transparent_of_unambiguous Digests.spelled_collisionFree bareStages {} 256 60 .lru _).2
    (by decide +kernel)

/-- The second call gets the tool documentation of the first one, or the snapshot of another
owner. -/
theorem cache_noticed :
    ¬ Every (Tracked.step Digests.spelled bareStages {})
        (Transparent Digests.spelled bareStages {}) (.new (.new 256 60 .lru))
        [asking { query := "hi".toList, toolPromptBlock := "a".toList },
          asking { query := "hi".toList, toolPromptBlock := "b".toList }] ∧
      ¬ Every (Tracked.step Digests.spelled bareStages {})
        (Transparent Digests.spelled bareStages {}) (.new (.new 256 60 .lru))
        [asking { query := "hi".toList, owner := "a|b".toList, agentRole := "c".toList },
          asking { query := "hi".toList, owner := "a".toList, agentRole := "b|c".toList }] := by
  constructor
  · rintro ⟨-, hSecond, -⟩
    exact absurd hSecond.prompt (by decide +kernel)
  · rintro ⟨-, hSecond, -⟩
    have hOwner := hSecond.owner
      { query := "hi".toList, owner := "a|b".toList, agentRole := "c".toList } (by
        constructor
        · decide +kernel
        · rfl)
    exact absurd hOwner (by decide)

end Neuroswarm.Acr
