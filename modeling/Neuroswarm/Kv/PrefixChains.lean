import Mathlib.Data.List.Induction
import Neuroswarm.Kv.PrefixSoundness

/-!
# KV memory runtime — chains in the prefix cache

An entry of the prefix cache is found only through its parents. A match moves a chain
from its root on, so the root is always older than what hangs on it, and the eviction,
which takes the oldest entry, takes roots first.

* `grounded_along_iff` — every entry keeps its parent exactly in the runs in which an
  insertion finds its parent cached and evicts no parent.
* `grounded_iff_reachable` — that is the same as every entry being found by a match, when
  the digests do not collide.
-/

namespace Neuroswarm.Kv

open Run (exec Along Every)

-- ------ Insertions and matches

structure ChainedCache where
  cache : PrefixCacheEngine
  returned : List String

inductive ChainOp where
  | insert (prefixHash : String) (blockPayload : Bytes) (physicalId : StableId) (tokenEnd : Int)
  | longestPrefixMatch (blockPayloads : List Bytes)

namespace ChainedCache

def new (capacity : Nat) : ChainedCache := ⟨.new capacity, []⟩

def step (sha : Sha256) (s : ChainedCache) : ChainOp → ChainedCache
  | .insert prefixHash blockPayload physicalId tokenEnd =>
    let (h, cache) := s.cache.insert sha prefixHash blockPayload physicalId tokenEnd
    ⟨cache, s.returned ++ [h]⟩
  | .longestPrefixMatch blockPayloads =>
    { s with cache := (s.cache.longestPrefixMatch sha blockPayloads).2 }

def RootFirst (s : ChainedCache) : ChainOp → Prop
  | .insert prefixHash _ _ _ => prefixHash = "" ∨ prefixHash ∈ s.returned
  | .longestPrefixMatch _ => True

instance (s : ChainedCache) : DecidablePred s.RootFirst
  | .insert prefixHash _ _ _ => inferInstanceAs (Decidable (prefixHash = "" ∨ _))
  | .longestPrefixMatch _ => inferInstanceAs (Decidable True)

end ChainedCache

namespace PrefixCacheEngine

def Grounded (c : PrefixCacheEngine) : Prop :=
  ∀ e ∈ c.entries.entries, e.2.parentHash = "" ∨ c.entries.contains e.2.parentHash = true

instance (c : PrefixCacheEngine) : Decidable c.Grounded :=
  inferInstanceAs (Decidable (∀ e ∈ c.entries.entries, _))

def Reachable (sha : Sha256) (c : PrefixCacheEngine) (h : String) : Prop :=
  ∃ payloads, (c.longestPrefixMatch sha payloads).1.matchedHashes.getLast? = some h

/-- An insertion that adds a block drops this entry. -/
def Evicts (c : PrefixCacheEngine) (oldest : String) : Prop :=
  c.entries.size = c.capacity ∧ c.entries.keys.head? = some oldest

/-- What an insertion has to find: its block cached already, or its parent cached, and the entry
it evicts without children, the new one included. -/
def SparesParents (sha : Sha256) (c : PrefixCacheEngine) (prefixHash : String)
    (payload : Bytes) : Prop :=
  c.entries.contains (prefixBlockHash sha prefixHash payload) = true ∨
    ((prefixHash = "" ∨ prefixHash = prefixBlockHash sha prefixHash payload ∨
        c.entries.contains prefixHash = true) ∧
      ∀ oldest, c.Evicts oldest → (prefixHash = "" ∨ prefixHash ≠ oldest) ∧
        ∀ e ∈ c.entries.entries, e.1 ≠ oldest →
          e.2.parentHash = "" ∨ e.2.parentHash ≠ oldest)

end PrefixCacheEngine

/-- The condition on a step; a match always meets it. -/
def ChainedCache.Spares (sha : Sha256) (s : ChainedCache) : ChainOp → Prop
  | .insert prefixHash blockPayload _ _ => s.cache.SparesParents sha prefixHash blockPayload
  | .longestPrefixMatch _ => True

-- ------ One insertion

namespace PrefixCacheEngine

variable {sha : Sha256} {c : PrefixCacheEngine}

theorem contains_iff_mem {d : Dict String PrefixCacheEntry} {k : String} :
    d.contains k = true ↔ k ∈ d.entries.map Prod.fst := by
  rw [Dict.contains, ← Dict.mem_keys_iff]
  rfl

theorem grounded_congr {c' : PrefixCacheEngine}
    (h : ∀ k, c'.entries.get? k = c.entries.get? k) : c'.Grounded ↔ c.Grounded := by
  have hContains : ∀ k, c'.entries.contains k = c.entries.contains k := by
    intro k
    unfold Dict.contains
    rw [h k]
  unfold Grounded
  constructor
  · rintro hc ⟨k, e⟩ he
    rw [← hContains]
    exact hc (k, e) (Dict.mem_entries_iff.mpr ((h k).trans (Dict.mem_entries_iff.mp he)))
  · rintro hc ⟨k, e⟩ he
    rw [hContains]
    exact hc (k, e) (Dict.mem_entries_iff.mpr ((h k).symm.trans (Dict.mem_entries_iff.mp he)))

/-- The block that an insertion of an uncached block adds. -/
def added (sha : Sha256) (prefixHash : String) (payload : Bytes) (physicalId : StableId)
    (tokenEnd : Int) : String × PrefixCacheEntry :=
  (prefixBlockHash sha prefixHash payload,
    { blockHash := prefixBlockHash sha prefixHash payload, physicalId, tokenEnd,
      parentHash := prefixHash })

def kept (c : PrefixCacheEngine) : List (String × PrefixCacheEntry) :=
  if c.entries.size = c.capacity then c.entries.entries.tail else c.entries.entries

theorem moveToEnd_set_of_none {K V : Type*} [DecidableEq K] {d : Dict K V} {k : K}
    (h : d.get? k = none) (v : V) :
    ((d.set k v).moveToEnd k).entries = d.entries ++ [(k, v)] := by
  have hAbsent : ∀ e ∈ d.entries, e.1 ≠ k := by
    intro e he hEq
    exact Dict.notMem_of_none h (List.mem_map.mpr ⟨e, he, hEq⟩)
  have hErase : ((d.set k v).erase k).entries = d.entries := by
    show (d.set k v).entries.filter (fun e => e.1 ≠ k) = d.entries
    rw [Dict.entries_set_of_none h, List.filter_append,
      List.filter_eq_self.mpr fun e he => decide_eq_true (hAbsent e he)]
    simp
  unfold Dict.moveToEnd
  rw [Dict.get?_set_self]
  dsimp only
  rw [Dict.entries_set_of_none (Dict.get?_erase_self _ k), hErase]

theorem entries_insert_of_none (hSize : c.entries.size ≤ c.capacity) {prefixHash : String}
    {payload : Bytes} (hNew : c.entries.get? (prefixBlockHash sha prefixHash payload) = none)
    (physicalId : StableId) (tokenEnd : Int) :
    (c.insert sha prefixHash payload physicalId tokenEnd).2.entries.entries =
      c.kept ++ [added sha prefixHash payload physicalId tokenEnd] := by
  have hContains : c.entries.contains (prefixBlockHash sha prefixHash payload) = false := by
    rw [Dict.contains, hNew]
    rfl
  have hPos := c.capacity_pos
  obtain ⟨d, hd⟩ : ∃ d, d = (c.entries.set (prefixBlockHash sha prefixHash payload)
    (added sha prefixHash payload physicalId tokenEnd).2).moveToEnd
      (prefixBlockHash sha prefixHash payload) := ⟨_, rfl⟩
  have hEntries : d.entries =
      c.entries.entries ++ [added sha prefixHash payload physicalId tokenEnd] := by
    rw [hd]
    exact moveToEnd_set_of_none hNew _
  have hTrim : (c.insert sha prefixHash payload physicalId tokenEnd).2.entries =
      d.trim c.capacity := by
    rw [hd]
    unfold insert
    dsimp only
    rw [hContains, if_neg Bool.false_ne_true]
    rfl
  have hLen : d.size = c.entries.size + 1 := by
    unfold Dict.size
    rw [hEntries, List.length_append, List.length_singleton]
  rw [hTrim]
  unfold Dict.trim kept
  rw [hLen]
  by_cases hFull : c.entries.size = c.capacity
  · have hNonempty : c.entries.entries ≠ [] := by
      intro hNil
      have hZero : c.entries.size = 0 := by
        unfold Dict.size
        rw [hNil]
        rfl
      omega
    rw [if_pos hFull, show c.entries.size + 1 - c.capacity = 1 by omega]
    show d.entries.tail = _
    rw [hEntries, List.tail_append_of_ne_nil hNonempty]
  · rw [if_neg hFull, show c.entries.size + 1 - c.capacity = 0 by omega]
    exact hEntries

theorem size_insert_le (hSize : c.entries.size ≤ c.capacity) (prefixHash : String)
    (payload : Bytes) (physicalId : StableId) (tokenEnd : Int) :
    (c.insert sha prefixHash payload physicalId tokenEnd).2.entries.size ≤ c.capacity := by
  cases hGet : c.entries.get? (prefixBlockHash sha prefixHash payload) with
  | some e =>
    have hContains : c.entries.contains (prefixBlockHash sha prefixHash payload) = true := by
      rw [Dict.contains, hGet]
      rfl
    unfold insert
    dsimp only
    rw [if_pos hContains]
    show (c.entries.moveToEnd _).size ≤ _
    rw [Dict.size_moveToEnd]
    exact hSize
  | none =>
    have hPos := c.capacity_pos
    unfold Dict.size
    rw [entries_insert_of_none hSize hGet, List.length_append, List.length_singleton]
    unfold kept
    split
    · rw [List.length_tail]
      have hLen : c.entries.size = c.entries.entries.length := rfl
      omega
    · next hFull =>
      have hLen : c.entries.size = c.entries.entries.length := rfl
      omega

theorem mem_kept_iff (hPos : 0 < c.capacity) {k : String} :
    k ∈ c.kept.map Prod.fst ↔ c.entries.contains k = true ∧ ¬ c.Evicts k := by
  unfold kept Evicts
  rw [contains_iff_mem]
  have hNodup := c.entries.nodup
  unfold Dict.keys
  by_cases hFull : c.entries.size = c.capacity
  · rw [if_pos hFull]
    cases hEntries : c.entries.entries with
    | nil =>
      have hZero : c.entries.size = 0 := by
        unfold Dict.size
        rw [hEntries]
        rfl
      omega
    | cons e rest =>
      rw [hEntries, List.map_cons, List.nodup_cons] at hNodup
      simp only [List.tail_cons, List.map_cons, List.mem_cons, List.head?_cons, Option.some.injEq,
        hFull, true_and]
      constructor
      · intro hk
        refine ⟨.inr hk, ?_⟩
        rintro rfl
        exact hNodup.1 hk
      · rintro ⟨rfl | hk, hNe⟩
        · exact absurd rfl hNe
        · exact hk
  · rw [if_neg hFull]
    simp [hFull]

theorem mem_kept_of_mem {e : String × PrefixCacheEntry} (he : e ∈ c.kept) :
    e ∈ c.entries.entries := by
  unfold kept at he
  split at he
  · exact List.mem_of_mem_tail he
  · exact he

theorem mem_kept_of_ne {e : String × PrefixCacheEntry} (he : e ∈ c.entries.entries)
    (hNe : ¬ c.Evicts e.1) : e ∈ c.kept := by
  have hPos := c.capacity_pos
  have hKey := (mem_kept_iff hPos).mpr ⟨contains_iff_mem.mpr (List.mem_map_of_mem he), hNe⟩
  obtain ⟨e', he', hEq⟩ := List.mem_map.mp hKey
  have hOld := mem_kept_of_mem he'
  have hFirst : c.entries.get? e.1 = some e.2 := Dict.mem_entries_iff.mp he
  have hSecond : c.entries.get? e.1 = some e'.2 := by
    rw [← hEq]
    exact Dict.mem_entries_iff.mp hOld
  have hSame : e' = e := Prod.ext hEq (Option.some.inj (hSecond.symm.trans hFirst))
  exact hSame ▸ he'

/-- **One insertion.** It keeps the cache grounded exactly when it spares the parents. -/
theorem grounded_insert_iff (hSize : c.entries.size ≤ c.capacity) (hGrounded : c.Grounded)
    (prefixHash : String) (payload : Bytes) (physicalId : StableId) (tokenEnd : Int) :
    (c.insert sha prefixHash payload physicalId tokenEnd).2.Grounded ↔
      c.SparesParents sha prefixHash payload := by
  have hPos := c.capacity_pos
  cases hGet : c.entries.get? (prefixBlockHash sha prefixHash payload) with
  | some e =>
    have hContains : c.entries.contains (prefixBlockHash sha prefixHash payload) = true := by
      rw [Dict.contains, hGet]
      rfl
    refine iff_of_true ((grounded_congr fun k => ?_).mpr hGrounded) (.inl hContains)
    unfold insert
    dsimp only
    rw [if_pos hContains]
    exact Dict.get?_moveToEnd _ _ _
  | none =>
    have hNew : ¬ c.entries.contains (prefixBlockHash sha prefixHash payload) = true := by
      rw [Dict.contains, hGet]
      exact Bool.false_ne_true
    have hEntries := entries_insert_of_none hSize hGet physicalId tokenEnd
    have hKeys : ∀ k, (c.insert sha prefixHash payload physicalId tokenEnd).2.entries.contains k =
        true ↔ (c.entries.contains k = true ∧ ¬ c.Evicts k) ∨
          k = prefixBlockHash sha prefixHash payload := by
      intro k
      rw [contains_iff_mem, hEntries, List.map_append, List.mem_append, mem_kept_iff hPos]
      simp [added]
    have hEvicted : ∀ k, c.Evicts k → c.entries.contains k = true := fun k hk =>
      contains_iff_mem.mpr (List.mem_of_mem_head? hk.2)
    unfold Grounded SparesParents
    rw [or_iff_right hNew, hEntries, List.forall_mem_append]
    simp only [hKeys, List.forall_mem_singleton]
    constructor
    · rintro ⟨hKept, hAdded⟩
      refine ⟨?_, fun oldest hOldest => ⟨?_, fun e he hNe => ?_⟩⟩
      · rcases hAdded with hRoot | ⟨hCached, -⟩ | hSelf
        · exact .inl hRoot
        · exact .inr (.inr hCached)
        · exact .inr (.inl hSelf)
      · rcases hAdded with hRoot | ⟨-, hStays⟩ | hSelf
        · exact .inl hRoot
        · exact .inr fun hEq => hStays (hEq ▸ hOldest)
        · refine .inr fun hEq => hNew ?_
          rw [← show prefixHash = prefixBlockHash sha prefixHash payload from hSelf, hEq]
          exact hEvicted oldest hOldest
      · have hStay : ¬ c.Evicts e.1 := fun h => hNe (Option.some.inj (h.2.symm.trans hOldest.2))
        rcases hKept e (mem_kept_of_ne he hStay) with hRoot | ⟨-, hStays⟩ | hSelf
        · exact .inl hRoot
        · exact .inr fun hEq => hStays (hEq ▸ hOldest)
        · refine .inr fun hEq => hNew ?_
          rw [← hSelf, hEq]
          exact hEvicted oldest hOldest
    · rintro ⟨hParent, hOldest⟩
      refine ⟨fun e he => ?_, ?_⟩
      · rcases hGrounded e (mem_kept_of_mem he) with hRoot | hCached
        · exact .inl hRoot
        · by_cases hRoot : e.2.parentHash = ""
          · exact .inl hRoot
          · refine .inr (.inl ⟨hCached, fun hEvicts => ?_⟩)
            have hNe : e.1 ≠ e.2.parentHash := by
              intro hEq
              have hKey := (mem_kept_iff hPos).mp (List.mem_map_of_mem he)
              exact hKey.2 (hEq ▸ hEvicts)
            exact ((hOldest _ hEvicts).2 e (mem_kept_of_mem he) hNe).elim hRoot fun h => h rfl
      · rcases hParent with hRoot | hSelf | hCached
        · exact .inl hRoot
        · exact .inr (.inr hSelf)
        · by_cases hRoot : prefixHash = ""
          · exact .inl hRoot
          · refine .inr (.inl ⟨hCached, fun hEvicts => ?_⟩)
            exact (hOldest _ hEvicts).1.elim hRoot fun h => h rfl

end PrefixCacheEngine

-- ------ Runs

namespace ChainedCache

variable {sha : Sha256}

theorem size_step_le {s : ChainedCache} (h : s.cache.entries.size ≤ s.cache.capacity)
    (op : ChainOp) :
    (s.step sha op).cache.entries.size ≤ (s.step sha op).cache.capacity := by
  cases op with
  | insert prefixHash payload physicalId tokenEnd =>
    have hCapacity : (s.cache.insert sha prefixHash payload physicalId tokenEnd).2.capacity =
        s.cache.capacity := by
      unfold PrefixCacheEngine.insert
      dsimp only
      split <;> rfl
    show (s.cache.insert sha prefixHash payload physicalId tokenEnd).2.entries.size ≤
      (s.cache.insert sha prefixHash payload physicalId tokenEnd).2.capacity
    rw [hCapacity]
    exact PrefixCacheEngine.size_insert_le h prefixHash payload physicalId tokenEnd
  | longestPrefixMatch payloads =>
    have hCapacity : (s.cache.longestPrefixMatch sha payloads).2.capacity = s.cache.capacity := by
      unfold PrefixCacheEngine.longestPrefixMatch
      dsimp only
      split <;> rfl
    show (s.cache.longestPrefixMatch sha payloads).2.entries.size ≤
      (s.cache.longestPrefixMatch sha payloads).2.capacity
    have hSame : (s.cache.longestPrefixMatch sha payloads).2.entries.size =
        s.cache.entries.size := by
      rw [Dict.size_eq_total, Dict.size_eq_total]
      exact Dict.total_congr fun k =>
        congrArg (Option.map _) (s.cache.get?_longestPrefixMatch sha payloads k)
    rw [hCapacity, hSame]
    exact h

/-- What the eviction keeps: the bound, and every parent. -/
structure Sheltered (s : ChainedCache) : Prop where
  size : s.cache.entries.size ≤ s.cache.capacity
  grounded : s.cache.Grounded

theorem grounded_step_iff {s : ChainedCache} (h : s.Sheltered) (op : ChainOp) :
    (s.step sha op).cache.Grounded ↔ s.Spares sha op := by
  cases op with
  | insert prefixHash payload physicalId tokenEnd =>
    exact PrefixCacheEngine.grounded_insert_iff h.size h.grounded prefixHash payload physicalId
      tokenEnd
  | longestPrefixMatch payloads =>
    refine iff_of_true ?_ trivial
    exact (PrefixCacheEngine.grounded_congr fun k =>
      s.cache.get?_longestPrefixMatch sha payloads k).mpr h.grounded

theorem sheltered_new (capacity : Nat) : (new capacity).Sheltered :=
  ⟨Nat.zero_le _, fun _ he => absurd he List.not_mem_nil⟩

-- ------ Chains of hashes

end ChainedCache

/-- Digests that do not collide, of blocks that are never empty digests and contain no `|`. -/
structure CollisionFree (sha : Sha256) : Prop where
  injective : Function.Injective sha.hexdigest
  noBar : ∀ data, bar ∉ encode (sha.hexdigest data)
  nonempty : ∀ prefixHash payload, prefixBlockHash sha prefixHash payload ≠ ""

theorem encode_injective : Function.Injective encode := by
  intro s t h
  have hBytes : s.toByteArray = t.toByteArray := ByteArray.ext (Array.toList_inj.mp h)
  exact String.toByteArray_inj.mp hBytes

section

variable {sha : Sha256}

theorem CollisionFree.block_inj (h : CollisionFree sha) {p q : String} {x y : Bytes}
    (hp : Running sha p) (hq : Running sha q)
    (hEq : prefixBlockHash sha p x = prefixBlockHash sha q y) : p = q ∧ x = y := by
  have hNoBar : ∀ {r}, Running sha r → bar ∉ encode r := by
    rintro r (rfl | ⟨data, rfl⟩)
    · exact List.not_mem_nil
    · exact h.noBar data
  have hPlain : Unambiguous sha p := by
    rintro running - ⟨rest, hRest⟩
    refine hNoBar hp ?_
    rw [← hRest]
    simp
  have hPayload := payload_eq_of_hash_eq h.injective h.noBar hPlain hq hEq
  have hData := h.injective hEq
  rw [hPayload] at hData
  exact ⟨encode_injective (List.append_cancel_right hData), hPayload⟩

def chainHash (sha : Sha256) (payloads : List Bytes) : String :=
  payloads.foldl (prefixBlockHash sha) ""

theorem chainHash_concat (payloads : List Bytes) (payload : Bytes) :
    chainHash sha (payloads ++ [payload]) =
      prefixBlockHash sha (chainHash sha payloads) payload := by
  unfold chainHash
  rw [List.foldl_append]
  rfl

theorem running_chainHash (payloads : List Bytes) : Running sha (chainHash sha payloads) := by
  rcases List.eq_nil_or_concat' payloads with rfl | ⟨init, last, rfl⟩
  · exact .inl rfl
  · rw [chainHash_concat]
    exact .inr ⟨_, rfl⟩

/-- The hashes of the blocks of a chain that goes on from `running`. -/
def hashesFrom (sha : Sha256) : String → List Bytes → List String
  | _, [] => []
  | running, payload :: rest =>
    prefixBlockHash sha running payload ::
      hashesFrom sha (prefixBlockHash sha running payload) rest

theorem hashesFrom_concat (running : String) (payloads : List Bytes) (payload : Bytes) :
    hashesFrom sha running (payloads ++ [payload]) =
      hashesFrom sha running payloads ++
        [prefixBlockHash sha (payloads.foldl (prefixBlockHash sha) running) payload] := by
  induction payloads generalizing running with
  | nil => rfl
  | cons first rest ih =>
    show _ :: hashesFrom sha _ (rest ++ [payload]) = _
    rw [ih]
    rfl

namespace PrefixCacheEngine

theorem matchedHashes_of_cached (payloads : List Bytes) (running : String)
    (entries : Dict String PrefixCacheEntry) (result : PrefixMatchResult)
    (h : ∀ k ∈ hashesFrom sha running payloads, entries.contains k = true) :
    (matchLoop sha running payloads entries result).1.matchedHashes =
      result.matchedHashes ++ hashesFrom sha running payloads := by
  induction payloads generalizing running entries result with
  | nil => simp [matchLoop, hashesFrom]
  | cons payload rest ih =>
    obtain ⟨e, he⟩ := Option.isSome_iff_exists.mp (h _ (List.mem_cons_self ..))
    unfold matchLoop
    dsimp only
    rw [he]
    dsimp only
    rw [ih _ _ _ fun k hk => by
      rw [Dict.contains_moveToEnd]
      exact h k (List.mem_cons_of_mem _ hk)]
    simp [hashesFrom]

theorem mem_matchedHashes (payloads : List Bytes) (running : String)
    (entries : Dict String PrefixCacheEntry) (result : PrefixMatchResult)
    (hRunning : Running sha running) {k : String}
    (hk : k ∈ (matchLoop sha running payloads entries result).1.matchedHashes) :
    k ∈ result.matchedHashes ∨ ∃ parent payload, k = prefixBlockHash sha parent payload ∧
      Running sha parent ∧ (parent = running ∨ entries.contains parent = true) := by
  induction payloads generalizing running entries result with
  | nil => exact .inl hk
  | cons payload rest ih =>
    unfold matchLoop at hk
    dsimp only at hk
    split at hk
    · exact .inl hk
    · next e he =>
      have hCached : entries.contains (prefixBlockHash sha running payload) = true := by
        rw [Dict.contains, he]
        rfl
      rcases ih _ _ _ (.inr ⟨_, rfl⟩) hk with hOld | ⟨parent, x, hEq, hParent, hFrom⟩
      · rcases List.mem_append.mp hOld with hOld | hOld
        · exact .inl hOld
        · rw [List.mem_singleton.mp hOld]
          exact .inr ⟨running, payload, rfl, hRunning, .inl rfl⟩
      · refine .inr ⟨parent, x, hEq, hParent, .inr ?_⟩
        rcases hFrom with rfl | hFrom
        · exact hCached
        · rw [Dict.contains_moveToEnd] at hFrom
          exact hFrom

theorem matchedHashes_longestPrefixMatch (c : PrefixCacheEngine) (payloads : List Bytes) :
    (c.longestPrefixMatch sha payloads).1.matchedHashes =
      (matchLoop sha "" payloads c.entries {}).1.matchedHashes := by
  unfold longestPrefixMatch
  dsimp only
  split <;> rfl

end PrefixCacheEngine

end

namespace ChainedCache

variable {sha : Sha256}

structure Chained (sha : Sha256) (s : ChainedCache) : Prop where
  returned : ∀ h ∈ s.returned, ∃ payloads, h = chainHash sha payloads
  entries : ∀ h e, s.cache.entries.get? h = some e → ∃ payloads payload,
    e.parentHash = chainHash sha payloads ∧ h = prefixBlockHash sha e.parentHash payload

theorem chained_new (capacity : Nat) : (new capacity).Chained sha :=
  ⟨fun _ h => absurd h List.not_mem_nil, fun _ _ h => nomatch h⟩

theorem get?_insert_new {c : PrefixCacheEngine} {prefixHash : String} {payload : Bytes}
    {physicalId : StableId} {tokenEnd : Int} {h : String} {e : PrefixCacheEntry}
    (he : (c.insert sha prefixHash payload physicalId tokenEnd).2.entries.get? h = some e) :
    c.entries.get? h = some e ∨
      (h = prefixBlockHash sha prefixHash payload ∧ e.parentHash = prefixHash) := by
  unfold PrefixCacheEngine.insert at he
  dsimp only at he
  split at he
  · rw [Dict.get?_moveToEnd] at he
    exact .inl he
  · have hSet := Dict.get?_trim_of_some he
    rw [Dict.get?_moveToEnd, Dict.get?_set] at hSet
    split at hSet
    · next hEq => exact .inr ⟨hEq, by rw [← Option.some.inj hSet]⟩
    · exact .inl hSet

theorem Chained.step {s : ChainedCache} (h : s.Chained sha) {op : ChainOp} (hOp : s.RootFirst op) :
    (s.step sha op).Chained sha := by
  cases op with
  | insert prefixHash payload physicalId tokenEnd =>
    obtain ⟨payloads, hPrefix⟩ : ∃ payloads, prefixHash = chainHash sha payloads := by
      rcases hOp with rfl | hReturned
      · exact ⟨[], rfl⟩
      · exact h.returned prefixHash hReturned
    have hReturned : (s.step sha (.insert prefixHash payload physicalId tokenEnd)).returned =
        s.returned ++ [prefixBlockHash sha prefixHash payload] := by
      unfold ChainedCache.step PrefixCacheEngine.insert
      dsimp only
      split <;> rfl
    refine ⟨fun r hr => ?_, fun r e hr => ?_⟩
    · rw [hReturned] at hr
      rcases List.mem_append.mp hr with hr | hr
      · exact h.returned r hr
      · rw [List.mem_singleton.mp hr, hPrefix, ← chainHash_concat]
        exact ⟨_, rfl⟩
    · rcases get?_insert_new hr with hr | ⟨rfl, hParent⟩
      · exact h.entries r e hr
      · exact ⟨payloads, payload, hParent.trans hPrefix, by rw [hParent]⟩
  | longestPrefixMatch payloads =>
    refine ⟨h.returned, fun r e hr => h.entries r e ?_⟩
    rw [← s.cache.get?_longestPrefixMatch sha payloads r]
    exact hr

theorem Chained.cached_of_last {s : ChainedCache} (h : s.Chained sha) (hSha : CollisionFree sha)
    (hGrounded : s.cache.Grounded) {payloads : List Bytes} (hNil : payloads ≠ [])
    (hLast : s.cache.entries.contains (chainHash sha payloads) = true) :
    ∀ k ∈ hashesFrom sha "" payloads, s.cache.entries.contains k = true := by
  induction payloads using List.reverseRecOn with
  | nil => exact absurd rfl hNil
  | append_singleton payloads payload ih =>
    obtain ⟨e, he⟩ := Option.isSome_iff_exists.mp hLast
    obtain ⟨before, x, hParent, hHash⟩ := h.entries _ e he
    have hSame : chainHash sha payloads = e.parentHash := by
      rw [chainHash_concat] at hHash
      exact (hSha.block_inj (running_chainHash _) (hParent ▸ running_chainHash _) hHash).1
    intro k hk
    rw [hashesFrom_concat] at hk
    rcases List.mem_append.mp hk with hk | hk
    · have hMore : payloads ≠ [] := by
        rintro rfl
        cases hk
      refine ih hMore ?_ k hk
      rw [hSame]
      refine (hGrounded (_, e) (Dict.mem_entries_iff.mpr he)).resolve_left fun hRoot => ?_
      obtain ⟨init, last, rfl⟩ := (List.eq_nil_or_concat' payloads).resolve_left hMore
      rw [chainHash_concat] at hSame
      exact hSha.nonempty _ _ (hSame.trans hRoot)
    · rw [List.mem_singleton.mp hk]
      show s.cache.entries.contains (prefixBlockHash sha (chainHash sha payloads) payload) = true
      rw [← chainHash_concat]
      exact hLast

/-- **Reachability.** The cache is grounded iff a match finds every entry. -/
theorem Chained.grounded_iff_reachable {s : ChainedCache} (h : s.Chained sha)
    (hSha : CollisionFree sha) :
    s.cache.Grounded ↔ ∀ k ∈ s.cache.entries.keys, s.cache.Reachable sha k := by
  constructor
  · intro hGrounded k hk
    obtain ⟨e, he⟩ := Option.isSome_iff_exists.mp (Dict.mem_keys_iff.mp hk)
    obtain ⟨payloads, payload, hParent, hHash⟩ := h.entries k e he
    have hChain : k = chainHash sha (payloads ++ [payload]) := by
      rw [chainHash_concat, ← hParent]
      exact hHash
    have hNil : payloads ++ [payload] ≠ [] := by simp
    have hCached := h.cached_of_last hSha hGrounded hNil (by
      rw [← hChain, Dict.contains, he]
      rfl)
    refine ⟨payloads ++ [payload], ?_⟩
    rw [PrefixCacheEngine.matchedHashes_longestPrefixMatch,
      PrefixCacheEngine.matchedHashes_of_cached _ _ _ _ hCached, hashesFrom_concat, hHash, hParent]
    simp [chainHash]
  · rintro hAll ⟨k, e⟩ hMem
    have he : s.cache.entries.get? k = some e := Dict.mem_entries_iff.mp hMem
    have hKey : k ∈ s.cache.entries.keys := List.mem_map_of_mem hMem
    obtain ⟨payloads, hLast⟩ := hAll k hKey
    obtain ⟨before, x, hParent, hHash⟩ := h.entries k e he
    rw [PrefixCacheEngine.matchedHashes_longestPrefixMatch] at hLast
    rcases PrefixCacheEngine.mem_matchedHashes payloads "" s.cache.entries {} (.inl rfl)
      (List.mem_of_getLast? hLast) with hNone | ⟨parent, y, hEq, hRunning, hFrom⟩
    · cases hNone
    · have hSame : e.parentHash = parent := (hSha.block_inj
        (hParent ▸ running_chainHash _) hRunning (hHash.symm.trans hEq)).1
      rw [← hSame] at hFrom
      exact hFrom

/-- **When no block is stranded.** Every entry keeps its parent throughout a run exactly when
every insertion spares the parents; with digests that do not collide and chains inserted root
first, that is the same as every entry being found by a match throughout. -/
theorem grounded_along_iff (sha : Sha256) (capacity : Nat) (ops : List ChainOp)
    (hOps : Every (step sha) RootFirst (new capacity) ops) :
    (Along (step sha) (fun s => s.cache.Grounded) (new capacity) ops ↔
      Every (step sha) (Spares sha) (new capacity) ops) ∧
    (CollisionFree sha →
      (Along (step sha) (fun s => s.cache.Grounded) (new capacity) ops ↔
        Along (step sha) (fun s => ∀ k ∈ s.cache.entries.keys, s.cache.Reachable sha k)
          (new capacity) ops)) := by
  constructor
  · refine Run.along_iff_every (I := Sheltered) (fun s h => h.grounded) ?_ ?_
      (sheltered_new capacity) ops
    · intro s op h hC
      exact ⟨size_step_le h.size op, (grounded_step_iff h op).mpr hC⟩
    · intro s op h hC hP
      exact hC ((grounded_step_iff h op).mp hP)
  · intro hSha
    have hChained : Along (step sha) (Chained sha) (new capacity) ops :=
      Run.along_of_every (fun s op h hOp => h.step hOp) (chained_new capacity) hOps
    rw [Run.along_iff_take, Run.along_iff_take]
    exact forall_congr' fun n =>
      (Run.along_iff_take.mp hChained n).grounded_iff_reachable hSha

def chainOfThree : List ChainOp :=
  let root := prefixBlockHash .spelled "" [1]
  let child := prefixBlockHash .spelled root [2]
  [.insert "" [1] ⟨.phys, 0⟩ 1, .insert root [2] ⟨.phys, 1⟩ 2, .insert child [3] ⟨.phys, 2⟩ 3]

theorem collisionFree_spelled : CollisionFree .spelled where
  injective := Sha256.spelled_injective
  noBar := bar_notMem_spelled
  nonempty prefixHash payload h := by
    have hList := String.ofList_injective (h.trans String.ofList_nil.symm)
    simp at hList

theorem grounded_along_iff_chainOfThree :
    (Along (step .spelled) (fun s => s.cache.Grounded) (new 3) chainOfThree ↔
      Every (step .spelled) (Spares .spelled) (new 3) chainOfThree) ∧
    (Along (step .spelled) (fun s => s.cache.Grounded) (new 3) chainOfThree ↔
      Along (step .spelled) (fun s => ∀ k ∈ s.cache.entries.keys, s.cache.Reachable .spelled k)
        (new 3) chainOfThree) := by
  have hRun := grounded_along_iff .spelled 3 chainOfThree (by decide +kernel)
  exact ⟨hRun.1, hRun.2 collisionFree_spelled⟩

/-- With room for two blocks, the grandchild evicts the root and strands the child. -/
theorem chainOfThree_strands :
    Every (step .spelled) RootFirst (new 2) chainOfThree ∧
      ¬ (exec (step .spelled) (new 2) chainOfThree).cache.Grounded := by
  decide +kernel

end ChainedCache

end Neuroswarm.Kv
