import Neuroswarm.Maks.Tables

/-!
# MAKS — the global page pool

`pool.py`: physical pages, and a page table from kv ids to pages. A page id is
the number of its draw.

`pagesFor` is the one view of the pool the manager's proofs use. Its lemmas
need every page to be owned by the kv id whose table lists it, and no table to
list a page id that is still to be drawn: `GlobalPagePool.Owned`, which every
operation keeps.
-/

namespace Neuroswarm.Maks

structure PageId where
  draw : Nat
  deriving DecidableEq, Repr

/-- Metadata for one physical page in the global pool. -/
structure PageMeta where
  pageId : PageId
  kvId : KvId
  sizeBytes : Nat := 0
  provider : ProviderName := .ram
  tier : KVTier := .hot
  compression : String := "none"
  refcount : Nat := 0
  shareCount : Nat := 0
  backendId : String := ""
  identityFingerprint : String := ""
  contentHash : String := ""
  prefixHash : String := ""
  pinned : Bool := false
  location : Location
  deriving DecidableEq, Repr

/-- Logical handle → ordered physical pages. -/
structure PageTableEntry where
  kvId : KvId
  pageIds : List PageId
  identity : KVIdentity
  deriving DecidableEq, Repr

structure GlobalPagePool where
  pageBytes : Nat
  pages : Dict PageId PageMeta := Dict.empty
  tables : Dict KvId PageTableEntry := Dict.empty
  contentIndex : Dict String PageId := Dict.empty
  /-- How many page ids were drawn. -/
  drawn : Nat := 0

/-- The arguments of `allocate_pages` that every page of the handle repeats. -/
structure PageRequest where
  kvId : KvId
  sizeBytes : Nat
  identity : KVIdentity
  provider : ProviderName
  location : Location
  contentHash : String
  prefixHash : String
  compression : String
  backendId : String
  deriving DecidableEq, Repr

namespace GlobalPagePool

/-- `GlobalPagePool(page_bytes=...)`. -/
def build (pageBytes : Nat) : GlobalPagePool := { pageBytes := max 1024 pageBytes }

/-- `max(1, ceil(size / page_bytes))`. -/
def pageCount (pageBytes sizeBytes : Nat) : Nat :=
  max 1 ((sizeBytes + pageBytes - 1) / pageBytes)

/-- The page of one turn of the allocation loop, `rem` bytes being left. -/
def pageMeta (req : PageRequest) (pageBytes nPages rem : Nat) (pid : PageId) : PageMeta :=
  let psz := if 0 < rem then min pageBytes rem else 0
  { pageId := pid
    kvId := req.kvId
    sizeBytes := if 0 < psz then psz else if nPages = 1 then req.sizeBytes else pageBytes
    provider := req.provider
    location := req.location
    compression := req.compression
    backendId := req.backendId
    identityFingerprint := req.identity.fingerprint
    contentHash := req.contentHash
    prefixHash := req.prefixHash
    refcount := 1 }

/-- The allocation loop: `left` pages still to draw, `rem` bytes still to place. -/
def drawPages (req : PageRequest) (nPages : Nat) :
    Nat → Nat → GlobalPagePool → GlobalPagePool × List PageId
  | 0, _, pool => (pool, [])
  | left + 1, rem, pool =>
    let pid : PageId := ⟨pool.drawn⟩
    let psz := if 0 < rem then min pool.pageBytes rem else 0
    let (pool, rest) := drawPages req nPages left (rem - psz)
      { pool with
        pages := pool.pages.set pid (pageMeta req pool.pageBytes nPages rem pid)
        drawn := pool.drawn + 1 }
    (pool, pid :: rest)

/-- Register one or more pages for a logical KV handle. The first page is
entered in the content index unless the content is already there. -/
def allocatePages (pool : GlobalPagePool) (req : PageRequest) : GlobalPagePool :=
  let nPages := pageCount pool.pageBytes req.sizeBytes
  let first : PageId := ⟨pool.drawn⟩
  let (pool, ids) := drawPages req nPages nPages req.sizeBytes pool
  { pool with
    tables := pool.tables.set req.kvId { kvId := req.kvId, pageIds := ids, identity := req.identity }
    contentIndex :=
      if req.contentHash = "" ∨ (pool.contentIndex.get? req.contentHash).isSome then
        pool.contentIndex
      else pool.contentIndex.set req.contentHash first }

def pageIdsOf (pool : GlobalPagePool) (kvId : KvId) : List PageId :=
  match pool.tables.get? kvId with
  | none => []
  | some entry => entry.pageIds

def pagesFor (pool : GlobalPagePool) (kvId : KvId) : List PageMeta :=
  (pool.pageIdsOf kvId).filterMap pool.pages.get?

/-- `for meta in pages_for_unlocked(kv_id)`: an update of each page in place. -/
def forPages (pool : GlobalPagePool) (kvId : KvId) (f : PageMeta → PageMeta) : GlobalPagePool :=
  { pool with pages := (pool.pageIdsOf kvId).foldl (fun pages pid => pages.modify pid f) pool.pages }

def incrementShare (pool : GlobalPagePool) (kvId : KvId) : GlobalPagePool :=
  pool.forPages kvId fun p =>
    { p with shareCount := p.shareCount + 1, refcount := p.refcount + 1 }

/-- Both counters are floored at zero. -/
def decrementShare (pool : GlobalPagePool) (kvId : KvId) : GlobalPagePool :=
  pool.forPages kvId fun p =>
    { p with shareCount := p.shareCount - 1, refcount := p.refcount - 1 }

def setTier (pool : GlobalPagePool) (kvId : KvId) (tier : KVTier) (provider : ProviderName) :
    GlobalPagePool :=
  pool.forPages kvId fun p => { p with tier := tier, provider := provider }

def setLocation (pool : GlobalPagePool) (kvId : KvId) (location : Location)
    (provider : ProviderName) : GlobalPagePool :=
  pool.forPages kvId fun p => { p with location := location, provider := provider }

def pin (pool : GlobalPagePool) (kvId : KvId) : GlobalPagePool :=
  pool.forPages kvId fun p => { p with pinned := true }

def unpin (pool : GlobalPagePool) (kvId : KvId) : GlobalPagePool :=
  pool.forPages kvId fun p => { p with pinned := false }

/-- Forget one page; its content leaves the index if the index named this page. -/
def freePage (pool : GlobalPagePool) (pid : PageId) : GlobalPagePool :=
  match pool.pages.get? pid with
  | none => pool
  | some p =>
    { pool with
      pages := pool.pages.erase pid
      contentIndex :=
        if p.contentHash ≠ "" ∧ pool.contentIndex.get? p.contentHash = some pid then
          pool.contentIndex.erase p.contentHash
        else pool.contentIndex }

def release (pool : GlobalPagePool) (kvId : KvId) : GlobalPagePool :=
  (pool.pageIdsOf kvId).foldl freePage { pool with tables := pool.tables.erase kvId }

-- ------ Ownership

/-- A listed page belongs to the kv id that lists it, and was drawn. -/
structure Owned (pool : GlobalPagePool) : Prop where
  owner : ∀ k, ∀ pid ∈ pool.pageIdsOf k, ∀ p, pool.pages.get? pid = some p → p.kvId = k
  drawn : ∀ k, ∀ pid ∈ pool.pageIdsOf k, pid.draw < pool.drawn
  present : ∀ k, ∀ pid ∈ pool.pageIdsOf k, (pool.pages.get? pid).isSome
  distinct : ∀ k, (pool.pageIdsOf k).Nodup

theorem owned_build (pageBytes : Nat) : (build pageBytes).Owned where
  owner _ _ h := by cases h
  drawn _ _ h := by cases h
  present _ _ h := by cases h
  distinct _ := List.nodup_nil

variable {pool : GlobalPagePool}

theorem Owned.not_mem_of_ne (h : pool.Owned) {k k' : KvId} (hk : k' ≠ k) {pid : PageId}
    (hp : pid ∈ pool.pageIdsOf k) : pid ∉ pool.pageIdsOf k' := by
  intro hp'
  obtain ⟨p, hget⟩ := Option.isSome_iff_exists.mp (h.present k pid hp)
  exact hk ((h.owner k' pid hp' p hget).symm.trans (h.owner k pid hp p hget))

theorem pagesFor_congr {pool' : GlobalPagePool} {k : KvId}
    (hIds : pool'.pageIdsOf k = pool.pageIdsOf k)
    (hPages : ∀ pid ∈ pool.pageIdsOf k, pool'.pages.get? pid = pool.pages.get? pid) :
    pool'.pagesFor k = pool.pagesFor k := by
  unfold pagesFor
  rw [hIds]
  exact List.filterMap_congr hPages

/-! ### Updating the pages of one handle -/

theorem get?_foldl_modify {f : PageMeta → PageMeta} {ids : List PageId} (hn : ids.Nodup)
    (pages : Dict PageId PageMeta) (pid : PageId) :
    (ids.foldl (fun pages q => pages.modify q f) pages).get? pid =
      if pid ∈ ids then (pages.get? pid).map f else pages.get? pid := by
  induction ids generalizing pages with
  | nil => simp
  | cons q ids ih =>
    rw [List.nodup_cons] at hn
    rw [List.foldl_cons, ih hn.2, Dict.get?_modify]
    by_cases hq : pid = q
    · subst hq
      simp [hn.1]
    · simp [hq]

@[simp] theorem pageIdsOf_forPages (kvId k : KvId) (f : PageMeta → PageMeta) :
    (pool.forPages kvId f).pageIdsOf k = pool.pageIdsOf k := rfl

theorem get?_forPages (h : pool.Owned) (kvId : KvId) (f : PageMeta → PageMeta) (pid : PageId) :
    (pool.forPages kvId f).pages.get? pid =
      if pid ∈ pool.pageIdsOf kvId then (pool.pages.get? pid).map f else pool.pages.get? pid :=
  get?_foldl_modify (h.distinct kvId) _ _

theorem Owned.forPages (h : pool.Owned) (kvId : KvId) {f : PageMeta → PageMeta}
    (hf : ∀ p, (f p).kvId = p.kvId) : (pool.forPages kvId f).Owned where
  owner k pid hp p hget := by
    rw [get?_forPages h] at hget
    split at hget
    · obtain ⟨q, hq, rfl⟩ := Option.map_eq_some_iff.mp hget
      rw [hf]
      exact h.owner k pid hp q hq
    · exact h.owner k pid hp p hget
  drawn := h.drawn
  present k pid hp := by
    rw [get?_forPages h]
    split
    · rw [Option.isSome_map]
      exact h.present k pid hp
    · exact h.present k pid hp
  distinct := h.distinct

theorem pagesFor_forPages (h : pool.Owned) (kvId k : KvId) (f : PageMeta → PageMeta) :
    (pool.forPages kvId f).pagesFor k =
      if k = kvId then (pool.pagesFor k).map f else pool.pagesFor k := by
  by_cases hk : k = kvId
  · subst hk
    unfold pagesFor
    rw [if_pos rfl, pageIdsOf_forPages, List.map_filterMap]
    refine List.filterMap_congr fun pid hp => ?_
    rw [get?_forPages h, if_pos hp]
  · rw [if_neg hk]
    refine pagesFor_congr rfl fun pid hp => ?_
    rw [get?_forPages h, if_neg (h.not_mem_of_ne (Ne.symm hk) hp)]

section updates

variable (h : pool.Owned) (kvId : KvId)
include h

theorem Owned.incrementShare : (pool.incrementShare kvId).Owned := h.forPages kvId fun _ => rfl

theorem Owned.decrementShare : (pool.decrementShare kvId).Owned := h.forPages kvId fun _ => rfl

theorem Owned.setTier (tier : KVTier) (p : ProviderName) : (pool.setTier kvId tier p).Owned :=
  h.forPages kvId fun _ => rfl

theorem Owned.setLocation (location : Location) (p : ProviderName) :
    (pool.setLocation kvId location p).Owned :=
  h.forPages kvId fun _ => rfl

theorem Owned.pin : (pool.pin kvId).Owned := h.forPages kvId fun _ => rfl

theorem Owned.unpin : (pool.unpin kvId).Owned := h.forPages kvId fun _ => rfl

end updates

/-! ### Allocating pages -/

/-- What the allocation loop does: it draws `left` ids in a row and files a page
of the request under each; nothing drawn before is touched. -/
structure Drew (req : PageRequest) (nPages left : Nat) (pool pool' : GlobalPagePool)
    (ids : List PageId) : Prop where
  drawn : pool'.drawn = pool.drawn + left
  tables : pool'.tables = pool.tables
  contentIndex : pool'.contentIndex = pool.contentIndex
  consecutive : ids = (List.range' pool.drawn left).map PageId.mk
  old : ∀ pid, pid.draw < pool.drawn → pool'.pages.get? pid = pool.pages.get? pid
  new : ∀ pid ∈ ids, ∃ rem,
    pool'.pages.get? pid = some (pageMeta req pool.pageBytes nPages rem pid)

theorem drawPages_spec (req : PageRequest) (nPages left rem : Nat) (pool : GlobalPagePool) :
    Drew req nPages left pool (drawPages req nPages left rem pool).1
      (drawPages req nPages left rem pool).2 := by
  induction left generalizing rem pool with
  | zero =>
    exact ⟨rfl, rfl, rfl, rfl, fun _ _ => rfl, fun _ h => by cases h⟩
  | succ left ih =>
    -- the first page is filed, then the rest of the loop runs on the pool that holds it
    rw [drawPages]
    dsimp only
    have h := ih (rem - if 0 < rem then min pool.pageBytes rem else 0)
      { pool with
        pages := pool.pages.set ⟨pool.drawn⟩
          (pageMeta req pool.pageBytes nPages rem ⟨pool.drawn⟩)
        drawn := pool.drawn + 1 }
    refine ⟨?_, h.tables, h.contentIndex, ?_, ?_, ?_⟩
    · rw [h.drawn]
      dsimp only
      omega
    · rw [h.consecutive, List.range'_succ, List.map_cons]
    · intro pid hp
      rw [h.old pid (Nat.lt_succ_of_lt hp)]
      refine Dict.get?_set_ne _ _ ?_
      rintro rfl
      exact Nat.lt_irrefl _ hp
    · intro pid hp
      rcases List.mem_cons.mp hp with rfl | hp
      · refine ⟨rem, ?_⟩
        rw [h.old ⟨pool.drawn⟩ (Nat.lt_succ_self _)]
        exact Dict.get?_set_self _ _ _
      · exact h.new pid hp

theorem pageIdsOf_allocatePages (pool : GlobalPagePool) (req : PageRequest) (k : KvId) :
    (pool.allocatePages req).pageIdsOf k =
      if k = req.kvId then
        (List.range' pool.drawn (pageCount pool.pageBytes req.sizeBytes)).map PageId.mk
      else pool.pageIdsOf k := by
  have h := drawPages_spec req (pageCount pool.pageBytes req.sizeBytes)
    (pageCount pool.pageBytes req.sizeBytes) req.sizeBytes pool
  unfold pageIdsOf allocatePages
  dsimp only
  rw [Dict.get?_set, h.tables]
  by_cases hk : k = req.kvId
  · simp [hk, h.consecutive]
  · simp [hk]

theorem pages_allocatePages (pool : GlobalPagePool) (req : PageRequest) :
    (∀ pid, pid.draw < pool.drawn →
      (pool.allocatePages req).pages.get? pid = pool.pages.get? pid) ∧
    ∀ pid ∈ (pool.allocatePages req).pageIdsOf req.kvId, ∃ rem,
      (pool.allocatePages req).pages.get? pid =
        some (pageMeta req pool.pageBytes (pageCount pool.pageBytes req.sizeBytes) rem pid) := by
  have h := drawPages_spec req (pageCount pool.pageBytes req.sizeBytes)
    (pageCount pool.pageBytes req.sizeBytes) req.sizeBytes pool
  refine ⟨h.old, fun pid hp => h.new pid ?_⟩
  rw [pageIdsOf_allocatePages, if_pos rfl, ← h.consecutive] at hp
  exact hp

theorem drawn_allocatePages (pool : GlobalPagePool) (req : PageRequest) :
    (pool.allocatePages req).drawn = pool.drawn + pageCount pool.pageBytes req.sizeBytes :=
  (drawPages_spec req _ _ req.sizeBytes pool).drawn

theorem Owned.allocatePages (h : pool.Owned) (req : PageRequest) :
    (pool.allocatePages req).Owned := by
  obtain ⟨hOld, hNew⟩ := pages_allocatePages pool req
  refine ⟨?_, ?_, ?_, ?_⟩
  · intro k pid hp p hget
    by_cases hk : k = req.kvId
    · subst hk
      obtain ⟨rem, hMeta⟩ := hNew pid hp
      rw [hMeta] at hget
      rw [← Option.some.inj hget]
      rfl
    · rw [pageIdsOf_allocatePages, if_neg hk] at hp
      rw [hOld pid (h.drawn k pid hp)] at hget
      exact h.owner k pid hp p hget
  · intro k pid hp
    rw [drawn_allocatePages]
    by_cases hk : k = req.kvId
    · rw [pageIdsOf_allocatePages, if_pos hk, List.mem_map] at hp
      obtain ⟨n, hn, rfl⟩ := hp
      exact (List.mem_range'_1.mp hn).2
    · rw [pageIdsOf_allocatePages, if_neg hk] at hp
      have := h.drawn k pid hp
      omega
  · intro k pid hp
    by_cases hk : k = req.kvId
    · subst hk
      obtain ⟨rem, hMeta⟩ := hNew pid hp
      rw [hMeta]
      rfl
    · rw [pageIdsOf_allocatePages, if_neg hk] at hp
      rw [hOld pid (h.drawn k pid hp)]
      exact h.present k pid hp
  · intro k
    rw [pageIdsOf_allocatePages]
    split
    · exact (List.nodup_range').map fun a b hab => by injection hab
    · exact h.distinct k

theorem pagesFor_allocatePages (h : pool.Owned) (req : PageRequest) :
    (∀ k, k ≠ req.kvId → (pool.allocatePages req).pagesFor k = pool.pagesFor k) ∧
    ∀ p ∈ (pool.allocatePages req).pagesFor req.kvId,
      p.provider = req.provider ∧ p.refcount = 1 := by
  obtain ⟨hOld, hNew⟩ := pages_allocatePages pool req
  refine ⟨?_, ?_⟩
  · intro k hk
    refine pagesFor_congr ?_ fun pid hp => hOld pid (h.drawn k pid hp)
    rw [pageIdsOf_allocatePages, if_neg hk]
  · intro p hp
    obtain ⟨pid, hPid, hget⟩ := List.mem_filterMap.mp hp
    obtain ⟨rem, hMeta⟩ := hNew pid hPid
    rw [hMeta] at hget
    rw [← Option.some.inj hget]
    exact ⟨rfl, rfl⟩

/-! ### Releasing pages -/

theorem freePage_tables (pool : GlobalPagePool) (pid : PageId) :
    (pool.freePage pid).tables = pool.tables ∧ (pool.freePage pid).drawn = pool.drawn := by
  unfold freePage
  split <;> exact ⟨rfl, rfl⟩

theorem get?_freePage (pool : GlobalPagePool) (pid q : PageId) :
    (pool.freePage pid).pages.get? q = if q = pid then none else pool.pages.get? q := by
  unfold freePage
  cases h : pool.pages.get? pid with
  | none =>
    dsimp only
    by_cases hq : q = pid
    · rw [if_pos hq, hq, h]
    · rw [if_neg hq]
  | some p => exact Dict.get?_erase _ _ _

theorem foldl_freePage (ids : List PageId) (pool : GlobalPagePool) :
    (ids.foldl freePage pool).tables = pool.tables ∧
    (ids.foldl freePage pool).drawn = pool.drawn ∧
    ∀ q, (ids.foldl freePage pool).pages.get? q =
      if q ∈ ids then none else pool.pages.get? q := by
  induction ids generalizing pool with
  | nil => simp
  | cons pid ids ih =>
    obtain ⟨hT, hD, hP⟩ := ih (pool.freePage pid)
    obtain ⟨hT', hD'⟩ := freePage_tables pool pid
    rw [List.foldl_cons]
    refine ⟨hT.trans hT', hD.trans hD', fun q => ?_⟩
    rw [hP, get?_freePage]
    by_cases hq : q = pid
    · simp [hq]
    · simp [hq]

theorem pageIdsOf_release (pool : GlobalPagePool) (kvId k : KvId) :
    (pool.release kvId).pageIdsOf k = if k = kvId then [] else pool.pageIdsOf k := by
  have hT : (pool.release kvId).tables = pool.tables.erase kvId :=
    (foldl_freePage (pool.pageIdsOf kvId) { pool with tables := pool.tables.erase kvId }).1
  unfold pageIdsOf
  rw [hT, Dict.get?_erase]
  by_cases hk : k = kvId
  · simp [hk]
  · simp [hk]

theorem get?_release (h : pool.Owned) {kvId k : KvId} (hk : k ≠ kvId) {pid : PageId}
    (hp : pid ∈ pool.pageIdsOf k) :
    (pool.release kvId).pages.get? pid = pool.pages.get? pid := by
  unfold release
  obtain ⟨-, -, hP⟩ := foldl_freePage (pool.pageIdsOf kvId)
    { pool with tables := pool.tables.erase kvId }
  rw [hP, if_neg (h.not_mem_of_ne (Ne.symm hk) hp)]

theorem Owned.release (h : pool.Owned) (kvId : KvId) :
    (GlobalPagePool.release pool kvId).Owned := by
  have hSub : ∀ k pid, pid ∈ (pool.release kvId).pageIdsOf k →
      k ≠ kvId ∧ pid ∈ pool.pageIdsOf k := by
    intro k pid hp
    rw [pageIdsOf_release] at hp
    split at hp
    · cases hp
    · next hk => exact ⟨hk, hp⟩
  refine ⟨?_, ?_, ?_, ?_⟩
  · intro k pid hp p hget
    obtain ⟨hk, hp⟩ := hSub k pid hp
    rw [get?_release h hk hp] at hget
    exact h.owner k pid hp p hget
  · intro k pid hp
    have hD : (pool.release kvId).drawn = pool.drawn :=
      (foldl_freePage (pool.pageIdsOf kvId) { pool with tables := pool.tables.erase kvId }).2.1
    rw [hD]
    exact h.drawn k pid (hSub k pid hp).2
  · intro k pid hp
    obtain ⟨hk, hp⟩ := hSub k pid hp
    rw [get?_release h hk hp]
    exact h.present k pid hp
  · intro k
    rw [pageIdsOf_release]
    split
    · exact List.nodup_nil
    · exact h.distinct k

theorem pagesFor_release (h : pool.Owned) (kvId k : KvId) :
    (pool.release kvId).pagesFor k = if k = kvId then [] else pool.pagesFor k := by
  by_cases hk : k = kvId
  · rw [if_pos hk]
    unfold pagesFor
    rw [pageIdsOf_release, if_pos hk]
    rfl
  · rw [if_neg hk]
    refine pagesFor_congr ?_ fun pid hp => get?_release h hk hp
    rw [pageIdsOf_release, if_neg hk]

end GlobalPagePool

end Neuroswarm.Maks
