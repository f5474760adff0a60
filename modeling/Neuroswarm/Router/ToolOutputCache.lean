import Mathlib.Algebra.Order.Ring.Rat
import Mathlib.Data.List.Induction
import Neuroswarm.Lib.Run
import Neuroswarm.Router.CanonicalJson

/-!
# The tool-output cache

`ToolOutputCache` of `runtime/router/tool_output_cache.py` with its in-process backend. Both
stand-ins for the store (`cachetools.LRUCache` and `_OrderedLRU`) keep the entries in the
order of their last use and drop the first one; `put` makes room before it writes, so
neither drops an entry of its own accord. The digest of a key is a parameter `hash`.
-/

namespace Neuroswarm.Router

/-- `bool(value)`. -/
def truthy : Json → Bool
  | .null => false
  | .bool b => b
  | .int n => n ≠ 0
  | .float x => x.text ≠ ['0', '.', '0'] ∧ x.text ≠ ['-', '0', '.', '0']
  | .str s => s ≠ ""
  | .list xs => !xs.isEmpty
  | .dict ms => !ms.isEmpty

/-- What a tool returned. -/
abbrev Result := Dict String Json

def isNegativeResult (result : Result) : Bool :=
  match result.get? "ok" with
  | some (.bool false) => true
  | _ => (result.get? "error").any truthy

/-- The parameters that `ToolOutputCache.__init__` accepts. -/
structure CacheLimits where
  maxEntries : ℕ
  ttlS : ℚ
  negTtlS : ℚ
  pos : 1 ≤ maxEntries
  ttl_nonneg : 0 ≤ ttlS
  negTtl_nonneg : 0 ≤ negTtlS

def CacheLimits.check (maxEntries : ℤ) (ttlS negTtlS : ℚ) : Except String CacheLimits :=
  if hMax : maxEntries < 1 then .error "max_entries must be >= 1"
  else if hTtl : ttlS < 0 then .error "ttl_s must be >= 0"
  else if hNeg : negTtlS < 0 then .error "neg_ttl_s must be >= 0"
  else .ok
    { maxEntries := maxEntries.toNat
      ttlS := ttlS
      negTtlS := negTtlS
      pos := by omega
      ttl_nonneg := not_lt.mp hTtl
      negTtl_nonneg := not_lt.mp hNeg }

def CacheLimits.resolveTtl (limits : CacheLimits) (result : Result) (ttlS : Option ℚ) : ℚ :=
  match ttlS with
  | some ttl => ttl
  | none => if isNegativeResult result then limits.negTtlS else limits.ttlS

/-- The state of a cache: `store` maps a key to the time its entry expires and the result,
least recently used first. A set of keys is a dictionary without values. -/
structure ToolOutputCache (H : Type) where
  limits : CacheLimits
  store : Dict H (ℚ × Result)
  byTool : Dict String (Dict H Unit)
  toolOf : Dict H String
  hits : ℕ
  misses : ℕ
  evictions : ℕ

namespace ToolOutputCache

variable {H : Type} [DecidableEq H] (hash : List Char → H)

def new (limits : CacheLimits) : ToolOutputCache H :=
  { limits := limits, store := Dict.empty, byTool := Dict.empty, toolOf := Dict.empty
    hits := 0, misses := 0, evictions := 0 }

def makeKey (toolId : String) (args : Args) : H := hash (keyText toolId args)

/-- The keys filed under a tool. -/
def bucket (c : ToolOutputCache H) (toolId : String) : Dict H Unit :=
  (c.byTool.get? toolId).getD Dict.empty

def discard (byTool : Dict String (Dict H Unit)) (toolId : String) (key : H) :
    Dict String (Dict H Unit) :=
  match byTool.get? toolId with
  | none => byTool
  | some bucket =>
    if (bucket.erase key).size = 0 then byTool.erase toolId
    else byTool.set toolId (bucket.erase key)

def forgetKey (c : ToolOutputCache H) (key : H) : ToolOutputCache H :=
  match c.toolOf.get? key with
  | none => c
  | some toolId =>
    { c with toolOf := c.toolOf.erase key, byTool := discard c.byTool toolId key }

def dropKey (c : ToolOutputCache H) (key : H) : ToolOutputCache H :=
  forgetKey { c with store := c.store.erase key } key

/-- One pass of the loop that makes room. The store is not empty there. -/
def evictOne (c : ToolOutputCache H) : ToolOutputCache H :=
  match c.store.entries with
  | [] => c
  | (oldKey, _) :: _ =>
    { forgetKey { c with store := c.store.popFirst } oldKey with evictions := c.evictions + 1 }

/-- The loop that makes room for a key, in at most `n` passes. -/
def makeRoom (key : H) : ℕ → ToolOutputCache H → ToolOutputCache H
  | 0, c => c
  | n + 1, c =>
    if c.store.get? key = none ∧ c.limits.maxEntries ≤ c.store.size then
      makeRoom key n c.evictOne
    else c

def put (c : ToolOutputCache H) (now : ℚ) (toolId : String) (args : Args) (result : Result)
    (ttlS : Option ℚ) : ToolOutputCache H :=
  let key := makeKey hash toolId args
  let ttl := c.limits.resolveTtl result ttlS
  let c := c.makeRoom key c.store.size
  { c with
    store := (c.store.moveToEnd key).set key (now + ttl, result)
    toolOf := c.toolOf.set key toolId
    byTool := c.byTool.set toolId ((c.bucket toolId).set key ()) }

def get (c : ToolOutputCache H) (now : ℚ) (toolId : String) (args : Args) :
    ToolOutputCache H × Option Result :=
  let key := makeKey hash toolId args
  match c.store.get? key with
  | none => ({ c with misses := c.misses + 1 }, none)
  | some (expiresAt, result) =>
    if expiresAt < now then ({ c.dropKey key with misses := c.misses + 1 }, none)
    else ({ c with store := c.store.moveToEnd key, hits := c.hits + 1 }, some result)

/-- `get_sync` does not count. -/
def getSync (c : ToolOutputCache H) (now : ℚ) (toolId : String) (args : Args) :
    ToolOutputCache H × Option Result :=
  let key := makeKey hash toolId args
  match c.store.get? key with
  | none => (c, none)
  | some (expiresAt, result) =>
    if expiresAt < now then (c.dropKey key, none)
    else ({ c with store := c.store.moveToEnd key }, some result)

def invalidate (c : ToolOutputCache H) (toolId : String) : ToolOutputCache H × ℕ :=
  let keys := (c.bucket toolId).keys
  (keys.foldl (fun c key => { c.dropKey key with evictions := c.evictions + 1 }) c, keys.length)

end ToolOutputCache

/-- An operation on the cache, with the clock's reading where the operation takes one. -/
inductive CacheOp where
  | put (now : ℚ) (toolId : String) (args : Args) (result : Result) (ttlS : Option ℚ)
  | get (now : ℚ) (toolId : String) (args : Args)
  | getSync (now : ℚ) (toolId : String) (args : Args)
  | invalidate (toolId : String)

/-- The operation stores a result of the tool for these arguments. -/
def CacheOp.Puts (toolId : String) (args : Args) : CacheOp → Prop
  | .put _ toolId' args' _ _ => toolId' = toolId ∧ args'.Same args
  | _ => False

namespace ToolOutputCache

variable {H : Type} [DecidableEq H] (hash : List Char → H)

def step (c : ToolOutputCache H) : CacheOp → ToolOutputCache H
  | .put now toolId args result ttlS => c.put hash now toolId args result ttlS
  | .get now toolId args => (c.get hash now toolId args).1
  | .getSync now toolId args => (c.getSync hash now toolId args).1
  | .invalidate toolId => (c.invalidate toolId).1

end ToolOutputCache

end Neuroswarm.Router

/-!
## Soundness of the tool-output cache

* `Indexed` — the indexes by key and by tool list exactly the stored entries.
* `Sound` — every stored entry is the last one that was put for its key, and its tool was
  not invalidated since.
* `get_sound` — what `get` returns is what the last `put` for the tool and the same
  arguments stored, not yet expired and not invalidated.
-/

namespace Neuroswarm.Router

namespace ToolOutputCache

variable {H : Type} [DecidableEq H] {hash : List Char → H} {c : ToolOutputCache H}

-- ------ The index by tool

/-- The index by tool is the inverse of `toolOf`, without empty sets. -/
structure Linked (c : ToolOutputCache H) : Prop where
  byTool : ∀ toolId key, (c.bucket toolId).contains key ↔ c.toolOf.get? key = some toolId
  noEmpty : ∀ toolId bucket, c.byTool.get? toolId = some bucket → bucket.size ≠ 0

@[simp] theorem forgetKey_store (key : H) : (c.forgetKey key).store = c.store := by
  unfold forgetKey
  split <;> rfl

@[simp] theorem forgetKey_limits (key : H) : (c.forgetKey key).limits = c.limits := by
  unfold forgetKey
  split <;> rfl

theorem get?_toolOf_forgetKey (key key' : H) :
    (c.forgetKey key).toolOf.get? key' = if key' = key then none else c.toolOf.get? key' := by
  unfold forgetKey
  split
  · next hNone =>
    split
    · next hKey => rw [hKey, hNone]
    · rfl
  · exact c.toolOf.get?_erase key key'

theorem getD_discard (byTool : Dict String (Dict H Unit)) (owner toolId : String) (key : H) :
    ((discard byTool owner key).get? toolId).getD Dict.empty =
      if toolId = owner then ((byTool.get? toolId).getD Dict.empty).erase key
      else (byTool.get? toolId).getD Dict.empty := by
  unfold discard
  split
  · next hNone =>
    split
    · next hTool =>
      rw [hTool, hNone]
      rfl
    · rfl
  · next bucket hBucket =>
    split
    · next hEmpty =>
      rw [Dict.get?_erase]
      split
      · next hTool =>
        rw [hTool, hBucket]
        exact (Dict.eq_empty_of_size hEmpty).symm
      · rfl
    · rw [Dict.get?_set]
      split
      · next hTool =>
        rw [hTool, hBucket]
        rfl
      · rfl

theorem bucket_forgetKey (h : Linked c) (key : H) (toolId : String) :
    (c.forgetKey key).bucket toolId = (c.bucket toolId).erase key := by
  have hOther : c.toolOf.get? key ≠ some toolId →
      (c.bucket toolId).erase key = c.bucket toolId := by
    intro hTool
    refine Dict.erase_of_none (Option.not_isSome_iff_eq_none.mp fun hSome => ?_)
    exact hTool ((h.byTool toolId key).mp hSome)
  unfold forgetKey
  split
  · next hNone => exact (hOther (by simp [hNone])).symm
  · next owner hOwner =>
    show ((discard c.byTool owner key).get? toolId).getD Dict.empty = _
    rw [getD_discard]
    split
    · rfl
    · next hTool => exact (hOther (by rw [hOwner]; simpa using Ne.symm hTool)).symm

theorem Linked.forgetKey (h : Linked c) (key : H) : Linked (c.forgetKey key) where
  byTool toolId key' := by
    rw [bucket_forgetKey h, Dict.contains_erase, get?_toolOf_forgetKey, h.byTool]
    split
    · next hKey => simp [hKey]
    · next hKey => simp [hKey]
  noEmpty toolId bucket hBucket := by
    unfold ToolOutputCache.forgetKey at hBucket
    split at hBucket
    · exact h.noEmpty toolId bucket hBucket
    · next owner _ =>
      simp only [discard] at hBucket
      split at hBucket
      · exact h.noEmpty toolId bucket hBucket
      · split at hBucket
        · exact h.noEmpty toolId bucket (Dict.get?_erase_eq_some.mp hBucket).2
        · next hSize =>
          rw [Dict.get?_set] at hBucket
          split at hBucket
          · cases hBucket
            exact hSize
          · exact h.noEmpty toolId bucket hBucket

-- ------ Both indexes

variable (hash) in
/-- The indexes list exactly the stored entries of each tool. -/
structure Indexed (c : ToolOutputCache H) : Prop extends Linked c where
  toolOf : ∀ key toolId, c.toolOf.get? key = some toolId ↔
    c.store.contains key ∧ ∃ args, makeKey hash toolId args = key

theorem Indexed.dropKey (h : Indexed hash c) (key : H) : Indexed hash (c.dropKey key) where
  toLinked := Linked.forgetKey (c := { c with store := c.store.erase key }) ⟨h.byTool, h.noEmpty⟩ key
  toolOf key' toolId := by
    rw [ToolOutputCache.dropKey, get?_toolOf_forgetKey, forgetKey_store, Dict.contains_erase]
    split
    · next hKey => simp [hKey]
    · next hKey => simp [hKey, h.toolOf]

variable {c' : ToolOutputCache H}

theorem Indexed.congr (h : Indexed hash c) (hByTool : c'.byTool = c.byTool)
    (hToolOf : c'.toolOf = c.toolOf) (hStore : ∀ key, c'.store.contains key = c.store.contains key)
    :
    Indexed hash c' where
  byTool toolId key := by
    rw [bucket, hByTool, hToolOf]
    exact h.byTool toolId key
  noEmpty := by
    rw [hByTool]
    exact h.noEmpty
  toolOf key toolId := by
    rw [hToolOf, hStore]
    exact h.toolOf key toolId

theorem evictOne_eq (h : 1 ≤ c.store.size) :
    ∃ key entry, c.store.get? key = some entry ∧
      c.evictOne = { c.dropKey key with evictions := c.evictions + 1 } := by
  unfold evictOne
  split
  · next hNil => simp [Dict.size, hNil] at h
  · next key entry rest hEntries =>
    have hMem : (key, entry) ∈ c.store.entries := by simp [hEntries]
    refine ⟨key, entry, Dict.mem_entries_iff.mp hMem, ?_⟩
    rw [Dict.popFirst_of_entries hEntries]
    rfl

-- ------ What the operations do

/-- `c'` stores nothing that `c` does not, under the same limits. -/
structure Within (c' c : ToolOutputCache H) : Prop where
  store : ∀ key entry, c'.store.get? key = some entry → c.store.get? key = some entry
  size : c'.store.size ≤ c.store.size
  limits : c'.limits = c.limits

theorem Within.refl (c : ToolOutputCache H) : Within c c :=
  ⟨fun _ _ h => h, Nat.le_refl _, rfl⟩

theorem Within.trans {c'' : ToolOutputCache H} (h : Within c'' c') (h' : Within c' c) :
    Within c'' c :=
  ⟨fun key entry hEntry => h'.store key entry (h.store key entry hEntry), h.size.trans h'.size,
    h.limits.trans h'.limits⟩

@[simp] theorem dropKey_store (key : H) : (c.dropKey key).store = c.store.erase key := by
  rw [dropKey, forgetKey_store]

theorem within_dropKey (c : ToolOutputCache H) (key : H) : Within (c.dropKey key) c where
  store key' entry h := by
    rw [dropKey_store] at h
    exact (Dict.get?_erase_eq_some.mp h).2
  size := by
    rw [dropKey_store]
    exact c.store.size_erase_le key
  limits := by rw [dropKey, forgetKey_limits]

theorem makeRoom_spec (h : Indexed hash c) (key : H) {n : ℕ} (hn : c.store.size ≤ n) :
    Indexed hash (c.makeRoom key n) ∧ Within (c.makeRoom key n) c ∧
      ((c.makeRoom key n).store.get? key = none →
        (c.makeRoom key n).store.size < c.limits.maxEntries) := by
  have hPos := c.limits.pos
  induction n generalizing c with
  | zero => exact ⟨h, Within.refl c, fun _ => show c.store.size < _ by omega⟩
  | succ n ih =>
    rw [makeRoom]
    split
    · next hFull =>
      obtain ⟨old, entry, hOld, hEvict⟩ := evictOne_eq (c := c) (by omega)
      have hIndexed : Indexed hash c.evictOne := by
        rw [hEvict]
        exact (h.dropKey old).congr rfl rfl fun _ => rfl
      have hWithin : Within c.evictOne c := by
        rw [hEvict]
        exact ⟨(within_dropKey c old).store, (within_dropKey c old).size,
          (within_dropKey c old).limits⟩
      have hSize : c.evictOne.store.size + 1 = c.store.size := by
        rw [hEvict]
        show (c.dropKey old).store.size + 1 = c.store.size
        rw [dropKey_store]
        exact Dict.size_erase_of_some hOld
      obtain ⟨hRoomIndexed, hRoomWithin, hRoom⟩ :=
        ih hIndexed (by omega) (by rw [hWithin.limits]; exact hPos)
      exact ⟨hRoomIndexed, hRoomWithin.trans hWithin, hWithin.limits ▸ hRoom⟩
    · next hRoom =>
      refine ⟨h, Within.refl c, fun hNone => ?_⟩
      by_contra hFull
      exact hRoom ⟨hNone, by omega⟩

omit [DecidableEq H] in
theorem makeKey_eq_iff (hHash : Function.Injective hash) {toolId toolId' : String}
    {args args' : Args} :
    makeKey hash toolId args = makeKey hash toolId' args' ↔ toolId = toolId' ∧ args.Same args' :=
  hHash.eq_iff.trans keyText_eq_iff

theorem Indexed.file (hHash : Function.Injective hash) (h : Indexed hash c) (toolId : String)
    (args : Args) (entry : ℚ × Result) :
    Indexed hash
      { c with
        store := (c.store.moveToEnd (makeKey hash toolId args)).set (makeKey hash toolId args) entry
        toolOf := c.toolOf.set (makeKey hash toolId args) toolId
        byTool := c.byTool.set toolId ((c.bucket toolId).set (makeKey hash toolId args) ()) } := by
  have hOwner : ∀ toolId', (∃ args', makeKey hash toolId' args' = makeKey hash toolId args) ↔
      toolId = toolId' := by
    intro toolId'
    constructor
    · rintro ⟨args', hKey⟩
      exact ((makeKey_eq_iff hHash).mp hKey).1.symm
    · rintro rfl
      exact ⟨args, rfl⟩
  generalize makeKey hash toolId args = key at hOwner ⊢
  refine { byTool := ?_, noEmpty := ?_, toolOf := ?_ }
  · intro toolId' key'
    show (((c.byTool.set toolId _).get? toolId').getD Dict.empty).contains key' ↔
      (c.toolOf.set key toolId).get? key' = some toolId'
    have hOld : ((c.byTool.get? toolId').getD Dict.empty).contains key' ↔ _ := h.byTool toolId' key'
    rw [Dict.get?_set, Dict.get?_set]
    by_cases hTool : toolId' = toolId
    · rw [if_pos hTool]
      show ((c.bucket toolId).set key ()).contains key' ↔ _
      rw [Dict.contains_set, ← hTool, h.byTool]
      split
      · next hKey => simp [hKey]
      · next hKey => simp [hKey]
    · rw [if_neg hTool, hOld]
      split
      · next hKey =>
        -- a key of this tool is filed under no other
        rw [hKey, h.toolOf, hOwner, Option.some_inj]
        exact iff_of_false (fun hStored => hTool hStored.2.symm) (Ne.symm hTool)
      · rfl
  · intro toolId' bucket hBucket
    rw [Dict.get?_set] at hBucket
    split at hBucket
    · cases hBucket
      intro hSize
      have hEmpty := Dict.eq_empty_of_size hSize
      have hMem : ((c.bucket toolId).set key ()).contains key := by simp [Dict.contains_set]
      rw [hEmpty] at hMem
      cases hMem
    · exact h.noEmpty toolId' bucket hBucket
  · intro key' toolId'
    show (c.toolOf.set key toolId).get? key' = some toolId' ↔ _
    rw [Dict.get?_set, Dict.contains_set, Dict.contains_moveToEnd]
    split
    · next hKey => simp [hKey, hOwner]
    · next hKey => simp [hKey, h.toolOf]

/-- `put` stores the entry and adds nothing else. -/
theorem put_spec (hHash : Function.Injective hash) (h : Indexed hash c)
    (hSize : c.store.size ≤ c.limits.maxEntries) (now : ℚ) (toolId : String) (args : Args)
    (result : Result) (ttlS : Option ℚ) :
    Indexed hash (c.put hash now toolId args result ttlS) ∧
      (c.put hash now toolId args result ttlS).store.size ≤ c.limits.maxEntries ∧
      (c.put hash now toolId args result ttlS).limits = c.limits ∧
      ∀ key entry, (c.put hash now toolId args result ttlS).store.get? key = some entry →
        if key = makeKey hash toolId args then
          entry = (now + c.limits.resolveTtl result ttlS, result)
        else c.store.get? key = some entry := by
  obtain ⟨hIndexed, hWithin, hRoom⟩ :=
    makeRoom_spec h (makeKey hash toolId args) (Nat.le_refl c.store.size)
  refine ⟨hIndexed.file hHash toolId args _, ?_, hWithin.limits, ?_⟩
  · show (((c.makeRoom _ _).store.moveToEnd _).set _ _).size ≤ _
    cases hStored : (c.makeRoom (makeKey hash toolId args) c.store.size).store.get?
        (makeKey hash toolId args) with
    | none =>
      rw [Dict.size_set_of_none (by rw [Dict.get?_moveToEnd, hStored]), Dict.size_moveToEnd]
      exact hRoom hStored
    | some old =>
      rw [Dict.size_set_of_some (by rw [Dict.get?_moveToEnd, hStored]), Dict.size_moveToEnd]
      exact hWithin.size.trans hSize
  · intro key entry hEntry
    have hStore : (((c.makeRoom _ _).store.moveToEnd _).set _ _).get? key = some entry := hEntry
    rw [Dict.get?_set, Dict.get?_moveToEnd] at hStore
    split
    · next hKey =>
      rw [if_pos hKey] at hStore
      exact (Option.some.inj hStore).symm
    · next hKey =>
      rw [if_neg hKey] at hStore
      exact hWithin.store key entry hStore

theorem within_moveToEnd (c : ToolOutputCache H) (key : H) :
    Within { c with store := c.store.moveToEnd key } c where
  store key' entry h := by rwa [Dict.get?_moveToEnd] at h
  size := (c.store.size_moveToEnd key).le
  limits := rfl

theorem getSync_spec (h : Indexed hash c) (now : ℚ) (toolId : String) (args : Args) :
    Indexed hash (c.getSync hash now toolId args).1 ∧
      Within (c.getSync hash now toolId args).1 c := by
  dsimp only [getSync]
  split
  · exact ⟨h, Within.refl c⟩
  · split
    · exact ⟨h.dropKey _, within_dropKey c _⟩
    · exact ⟨h.congr rfl rfl fun key => c.store.contains_moveToEnd _ key, within_moveToEnd c _⟩

variable (hash c) in
theorem get_eq_getSync (now : ℚ) (toolId : String) (args : Args) :
    (c.get hash now toolId args).2 = (c.getSync hash now toolId args).2 ∧
      ∃ hits misses, (c.get hash now toolId args).1 =
        { (c.getSync hash now toolId args).1 with hits := hits, misses := misses } := by
  dsimp only [get, getSync]
  split
  · exact ⟨rfl, _, _, rfl⟩
  · split
    · exact ⟨rfl, _, _, rfl⟩
    · exact ⟨rfl, _, _, rfl⟩

theorem get_spec (h : Indexed hash c) (now : ℚ) (toolId : String) (args : Args) :
    Indexed hash (c.get hash now toolId args).1 ∧ Within (c.get hash now toolId args).1 c := by
  obtain ⟨hIndexed, hWithin⟩ := getSync_spec h now toolId args
  obtain ⟨-, hits, misses, hState⟩ := get_eq_getSync hash c now toolId args
  rw [hState]
  exact ⟨hIndexed.congr rfl rfl fun _ => rfl, hWithin.store, hWithin.size, hWithin.limits⟩

theorem get_eq_some {now : ℚ} {toolId : String} {args : Args} {result : Result}
    (h : (c.get hash now toolId args).2 = some result) :
    ∃ expiresAt, c.store.get? (makeKey hash toolId args) = some (expiresAt, result) ∧
      now ≤ expiresAt := by
  dsimp only [get] at h
  split at h
  · cases h
  · next expiresAt stored hStored =>
    split at h
    · cases h
    · next hFresh =>
      cases h
      exact ⟨expiresAt, hStored, not_lt.mp hFresh⟩

theorem dropKeys_spec (h : Indexed hash c) (keys : List H) :
    let c' := keys.foldl (fun c key => { c.dropKey key with evictions := c.evictions + 1 }) c
    Indexed hash c' ∧ Within c' c ∧ ∀ key ∈ keys, c'.store.get? key = none := by
  induction keys generalizing c with
  | nil => exact ⟨h, Within.refl c, by simp⟩
  | cons key keys ih =>
    obtain ⟨hIndexed, hWithin, hGone⟩ :=
      ih (c := { c.dropKey key with evictions := c.evictions + 1 })
        ((h.dropKey key).congr rfl rfl fun _ => rfl)
    have hDrop := within_dropKey c key
    refine ⟨hIndexed, hWithin.trans ⟨hDrop.store, hDrop.size, hDrop.limits⟩, ?_⟩
    intro key' hMem
    rcases List.mem_cons.mp hMem with rfl | hMem
    · -- what this step dropped does not come back
      refine Option.eq_none_iff_forall_ne_some.mpr fun entry hEntry => ?_
      have hOld := hWithin.store key' entry hEntry
      rw [show ({ c.dropKey key' with evictions := c.evictions + 1 } : ToolOutputCache H).store =
        c.store.erase key' from dropKey_store key', Dict.get?_erase_self] at hOld
      cases hOld
    · exact hGone key' hMem

theorem invalidate_spec (h : Indexed hash c) (toolId : String) :
    Indexed hash (c.invalidate toolId).1 ∧ Within (c.invalidate toolId).1 c ∧
      ∀ args, (c.invalidate toolId).1.store.get? (makeKey hash toolId args) = none := by
  obtain ⟨hIndexed, hWithin, hGone⟩ := dropKeys_spec h (c.bucket toolId).keys
  refine ⟨hIndexed, hWithin, fun args => ?_⟩
  by_cases hMem : makeKey hash toolId args ∈ (c.bucket toolId).keys
  · exact hGone _ hMem
  · -- what the index of the tool does not list is not stored
    refine Option.eq_none_iff_forall_ne_some.mpr fun entry hEntry => hMem ?_
    have hStored : c.store.contains (makeKey hash toolId args) := by
      simp [Dict.contains, hWithin.store _ entry hEntry]
    have hOwner := (h.toolOf _ toolId).mpr ⟨hStored, args, rfl⟩
    exact Dict.mem_keys_iff.mpr ((h.byTool toolId _).mpr hOwner)

-- ------ Histories

/-- The operations neither store for these arguments again nor invalidate the tool. -/
def Untouched (toolId : String) (args : Args) (ops : List CacheOp) : Prop :=
  ∀ op ∈ ops, ¬ op.Puts toolId args ∧ op ≠ .invalidate toolId

/-- The result was the last one put for the tool and these arguments, to expire then, and
the tool was not invalidated since. -/
def LastPut (limits : CacheLimits) (ops : List CacheOp) (toolId : String) (args : Args)
    (expiresAt : ℚ) (result : Result) : Prop :=
  ∃ before now args' ttlS after,
    ops = before ++ .put now toolId args' result ttlS :: after ∧ args'.Same args ∧
      expiresAt = now + limits.resolveTtl result ttlS ∧ Untouched toolId args after

variable {ops : List CacheOp}

theorem LastPut.concat {limits : CacheLimits} {toolId : String} {args : Args} {expiresAt : ℚ}
    {result : Result} (h : LastPut limits ops toolId args expiresAt result) {op : CacheOp}
    (hPuts : ¬ op.Puts toolId args) (hInvalidate : op ≠ .invalidate toolId) :
    LastPut limits (ops ++ [op]) toolId args expiresAt result := by
  obtain ⟨before, now, args', ttlS, after, rfl, hArgs, hExpires, hAfter⟩ := h
  refine ⟨before, now, args', ttlS, after ++ [op], by simp, hArgs, hExpires, ?_⟩
  intro op' hMem
  rcases List.mem_append.mp hMem with hMem | hMem
  · exact hAfter op' hMem
  · cases List.mem_singleton.mp hMem
    exact ⟨hPuts, hInvalidate⟩

variable (hash) in
def Sound (ops : List CacheOp) (c : ToolOutputCache H) : Prop :=
  ∀ toolId args expiresAt result,
    c.store.get? (makeKey hash toolId args) = some (expiresAt, result) →
      LastPut c.limits ops toolId args expiresAt result

theorem Sound.within (h : Sound hash ops c) (hWithin : Within c' c) {op : CacheOp}
    (hPuts : ∀ toolId args, ¬ op.Puts toolId args)
    (hInvalidate : ∀ toolId, op = .invalidate toolId →
      ∀ args, c'.store.get? (makeKey hash toolId args) = none) :
    Sound hash (ops ++ [op]) c' := by
  intro toolId args expiresAt result hEntry
  have hOld := h toolId args expiresAt result (hWithin.store _ _ hEntry)
  rw [hWithin.limits]
  refine hOld.concat (hPuts toolId args) fun hOp => ?_
  rw [hInvalidate toolId hOp args] at hEntry
  cases hEntry

theorem Sound.put (hHash : Function.Injective hash) (h : Sound hash ops c) {now : ℚ}
    {toolId : String} {args : Args} {result : Result} {ttlS : Option ℚ}
    (hLimits : c'.limits = c.limits) (hStore : ∀ key entry, c'.store.get? key = some entry →
      if key = makeKey hash toolId args then
      entry = (now + c.limits.resolveTtl result ttlS, result)
      else c.store.get? key = some entry) :
    Sound hash (ops ++ [.put now toolId args result ttlS]) c' := by
  intro toolId' args' expiresAt result' hEntry
  have hCase := hStore _ _ hEntry
  rw [hLimits]
  split at hCase
  · next hKey =>
    obtain ⟨rfl, hArgs⟩ := (makeKey_eq_iff hHash).mp hKey.symm
    cases hCase
    exact ⟨ops, now, args, ttlS, [], rfl, hArgs, rfl, by simp [Untouched]⟩
  · next hKey =>
    refine (h toolId' args' expiresAt result' hCase).concat ?_ (by simp)
    rintro ⟨rfl, hArgs⟩
    exact hKey ((makeKey_eq_iff hHash).mpr ⟨rfl, hArgs⟩).symm

variable (hash) in
/-- What holds after `ops` on a new cache. -/
structure Invariant (limits : CacheLimits) (ops : List CacheOp) (c : ToolOutputCache H) :
    Prop where
  indexed : Indexed hash c
  bounded : c.store.size ≤ limits.maxEntries
  sound : Sound hash ops c
  limits : c.limits = limits

theorem invariant_new (limits : CacheLimits) :
    Invariant hash limits [] (new limits : ToolOutputCache H) where
  indexed :=
    { byTool := fun _ _ => iff_of_false Bool.false_ne_true (Option.some_ne_none _).symm
      noEmpty := fun _ _ h => nomatch h
      toolOf := fun _ _ => iff_of_false (Option.some_ne_none _).symm fun h => nomatch h.1 }
  bounded := Nat.zero_le _
  sound := fun _ _ _ _ h => nomatch h
  limits := rfl

theorem Invariant.within {limits : CacheLimits} (h : Invariant hash limits ops c)
    (hIndexed : Indexed hash c') (hWithin : Within c' c) {op : CacheOp}
    (hPuts : ∀ toolId args, ¬ op.Puts toolId args)
    (hInvalidate : ∀ toolId, op = .invalidate toolId →
      ∀ args, c'.store.get? (makeKey hash toolId args) = none) :
    Invariant hash limits (ops ++ [op]) c' where
  indexed := hIndexed
  bounded := hWithin.size.trans h.bounded
  sound := h.sound.within hWithin hPuts hInvalidate
  limits := hWithin.limits.trans h.limits

/-- **Step lemma.** -/
theorem Invariant.step (hHash : Function.Injective hash) {limits : CacheLimits}
    (h : Invariant hash limits ops c) (op : CacheOp) :
    Invariant hash limits (ops ++ [op]) (c.step hash op) := by
  cases op with
  | put now toolId args result ttlS =>
    have hBounded : c.store.size ≤ c.limits.maxEntries := h.limits ▸ h.bounded
    obtain ⟨hIndexed, hSize, hLimits, hStore⟩ :=
      put_spec hHash h.indexed hBounded now toolId args result ttlS
    exact
      { indexed := hIndexed
        bounded := h.limits ▸ hSize
        sound := h.sound.put hHash hLimits hStore
        limits := hLimits.trans h.limits }
  | get now toolId args =>
    obtain ⟨hIndexed, hWithin⟩ := get_spec h.indexed now toolId args
    exact h.within hIndexed hWithin (fun _ _ => id) (by simp)
  | getSync now toolId args =>
    obtain ⟨hIndexed, hWithin⟩ := getSync_spec h.indexed now toolId args
    exact h.within hIndexed hWithin (fun _ _ => id) (by simp)
  | invalidate toolId =>
    obtain ⟨hIndexed, hWithin, hGone⟩ := invalidate_spec h.indexed toolId
    refine h.within hIndexed hWithin (fun _ _ => id) ?_
    rintro _ ⟨rfl⟩
    exact hGone

/-- **Run lemma.** -/
theorem invariant_exec (hHash : Function.Injective hash) (limits : CacheLimits)
    (ops : List CacheOp) : Invariant hash limits ops (Run.exec (step hash) (new limits) ops) := by
  induction ops using List.reverseRecOn with
  | nil => exact invariant_new limits
  | append_singleton ops op ih =>
    rw [Run.exec_append]
    exact ih.step hHash op

/-- **The cache is sound.** After every sequence of operations the cache holds at most
`maxEntries` entries, the set of keys of every tool is that of its stored entries, and `get`
returns only what the last `put` for the tool and the same arguments stored, if it has not
expired and the tool was not invalidated since. -/
theorem get_sound (hash : List Char → H) (hHash : Function.Injective hash) (limits : CacheLimits)
    (ops : List CacheOp) :
    (Run.exec (step hash) (new limits) ops).store.size ≤ limits.maxEntries ∧
      (∀ toolId key, ((Run.exec (step hash) (new limits) ops).bucket toolId).contains key ↔
        (Run.exec (step hash) (new limits) ops).store.contains key ∧
          ∃ args, makeKey hash toolId args = key) ∧
      ∀ now toolId args result,
        ((Run.exec (step hash) (new limits) ops).get hash now toolId args).2 = some result →
          ∃ expiresAt, LastPut limits ops toolId args expiresAt result ∧ now ≤ expiresAt := by
  have hInvariant := invariant_exec hHash limits ops
  refine ⟨hInvariant.bounded, fun toolId key => ?_, fun now toolId args result hGet => ?_⟩
  · exact (hInvariant.indexed.byTool toolId key).trans (hInvariant.indexed.toolOf key toolId)
  · obtain ⟨expiresAt, hEntry, hFresh⟩ := get_eq_some hGet
    have hLast := hInvariant.sound toolId args expiresAt result hEntry
    exact ⟨expiresAt, hInvariant.limits ▸ hLast, hFresh⟩

/-- Two puts for the same arguments in different order: the second one is found. -/
theorem get_sound_reordered :
    ∃ expiresAt, LastPut ⟨1, 600, 30, by decide, by decide, by decide⟩
      [.put 0 "echo" ⟨.dict [("a", .int 1), ("b", .null)], by simp [Json.Keyed, Json.KeyedMembers]⟩
          (Dict.empty.set "n" (.int 1)) none,
        .put 1 "echo" ⟨.dict [("b", .null), ("a", .int 1)], by simp [Json.Keyed, Json.KeyedMembers]⟩
          (Dict.empty.set "n" (.int 2)) none]
      "echo" ⟨.dict [("a", .int 1), ("b", .null)], by simp [Json.Keyed, Json.KeyedMembers]⟩
      expiresAt (Dict.empty.set "n" (.int 2)) ∧ 5 ≤ expiresAt :=
  (get_sound id Function.injective_id _ _).2.2 5 _ _ _ (by decide +kernel)

end ToolOutputCache

end Neuroswarm.Router
