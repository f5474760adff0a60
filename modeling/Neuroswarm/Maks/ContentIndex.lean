import Neuroswarm.Lib.Run
import Neuroswarm.Maks.Pool

/-!
# MAKS — the content index of the page pool

`allocate_pages`, `release` and `find_by_content` in any order. The index names the first
page that was allocated with a content; when that page goes the entry goes with it, whoever
else was allocated with the same content.

* `sizes_allocatePages` — the pages of a handle hold what was asked for, and fit.
* `found_along_iff` — when every live content can be found.
-/

namespace Neuroswarm.Maks

namespace GlobalPagePool

def findByContent (pool : GlobalPagePool) (contentHash : String) : Option PageMeta :=
  (pool.contentIndex.get? contentHash).bind pool.pages.get?

variable {pool : GlobalPagePool}

-- ------ Sizes

theorem sizes_drawPages (req : PageRequest) (nPages : ℕ) {left rem : ℕ}
    (hLe : rem ≤ left * pool.pageBytes) (hLt : left ≠ 0 → (left - 1) * pool.pageBytes < rem) :
    let drawn := drawPages req nPages left rem pool
    ((drawn.2.filterMap drawn.1.pages.get?).map PageMeta.sizeBytes).sum = rem ∧
      ∀ p ∈ drawn.2.filterMap drawn.1.pages.get?, p.sizeBytes ≤ pool.pageBytes := by
  induction left generalizing rem pool with
  | zero =>
    have hRem : rem = 0 := by omega
    exact ⟨hRem.symm, fun p hp => nomatch hp⟩
  | succ left ih =>
    have hFull : left * pool.pageBytes < rem := hLt (Nat.succ_ne_zero left)
    have hSucc : (left + 1) * pool.pageBytes = left * pool.pageBytes + pool.pageBytes :=
      Nat.succ_mul left pool.pageBytes
    have hPsz : (if 0 < rem then min pool.pageBytes rem else 0) = min pool.pageBytes rem :=
      if_pos (by omega)
    have hPos : 0 < min pool.pageBytes rem := by omega
    let next : GlobalPagePool := { pool with
      pages := pool.pages.set ⟨pool.drawn⟩ (pageMeta req pool.pageBytes nPages rem ⟨pool.drawn⟩)
      drawn := pool.drawn + 1 }
    have hRest := @ih next (rem - min pool.pageBytes rem) (by show _ ≤ left * pool.pageBytes; omega)
      (fun hNe => by
        obtain ⟨n, rfl⟩ := Nat.exists_eq_succ_of_ne_zero hNe
        have hStep : (n + 1) * pool.pageBytes = n * pool.pageBytes + pool.pageBytes :=
          Nat.succ_mul n pool.pageBytes
        show n * pool.pageBytes < _
        rw [Nat.succ_eq_add_one] at hFull
        omega)
    have hFirst : (drawPages req nPages left (rem - min pool.pageBytes rem) next).1.pages.get?
        ⟨pool.drawn⟩ = some (pageMeta req pool.pageBytes nPages rem ⟨pool.drawn⟩) := by
      rw [(drawPages_spec req nPages left _ next).old ⟨pool.drawn⟩ (Nat.lt_succ_self _)]
      exact Dict.get?_set_self _ _ _
    have hSize : (pageMeta req pool.pageBytes nPages rem ⟨pool.drawn⟩).sizeBytes =
        min pool.pageBytes rem := by
      simp only [pageMeta, hPsz, hPos, if_true]
    rw [drawPages]
    simp only [hPsz]
    rw [List.filterMap_cons_some hFirst, List.map_cons, List.sum_cons, hRest.1, hSize]
    refine ⟨by omega, fun p hp => ?_⟩
    rcases List.mem_cons.mp hp with rfl | hp
    · rw [hSize]
      exact Nat.min_le_left _ _
    · exact hRest.2 p hp

theorem pageCount_bounds {pageBytes sizeBytes : ℕ} (hBytes : 0 < pageBytes)
    (hSize : 0 < sizeBytes) :
    sizeBytes ≤ pageCount pageBytes sizeBytes * pageBytes ∧
      (pageCount pageBytes sizeBytes - 1) * pageBytes < sizeBytes := by
  have hOne : 1 ≤ (sizeBytes + pageBytes - 1) / pageBytes :=
    (Nat.one_le_div_iff hBytes).mpr (by omega)
  have hLow : (sizeBytes + pageBytes - 1) / pageBytes * pageBytes ≤ sizeBytes + pageBytes - 1 :=
    Nat.div_mul_le_self _ _
  have hHigh : sizeBytes + pageBytes - 1 <
      (sizeBytes + pageBytes - 1) / pageBytes * pageBytes + pageBytes :=
    Nat.lt_div_mul_add hBytes
  unfold pageCount
  rw [Nat.max_eq_right hOne, Nat.sub_mul, Nat.one_mul]
  have hLe : 1 * pageBytes ≤ (sizeBytes + pageBytes - 1) / pageBytes * pageBytes :=
    Nat.mul_le_mul_right _ hOne
  omega

/-- The pages of a new handle hold what was asked for, and none is too large. -/
theorem sizes_allocatePages (hBytes : 0 < pool.pageBytes) (req : PageRequest) :
    (((pool.allocatePages req).pagesFor req.kvId).map PageMeta.sizeBytes).sum = req.sizeBytes ∧
      ∀ p ∈ (pool.allocatePages req).pagesFor req.kvId, p.sizeBytes ≤ pool.pageBytes := by
  have hPages : (pool.allocatePages req).pagesFor req.kvId =
      let drawn := drawPages req (pageCount pool.pageBytes req.sizeBytes)
        (pageCount pool.pageBytes req.sizeBytes) req.sizeBytes pool
      drawn.2.filterMap drawn.1.pages.get? := by
    simp only [pagesFor, pageIdsOf, allocatePages, Dict.get?_set_self]
  rw [hPages]
  by_cases hSize : 0 < req.sizeBytes
  · obtain ⟨hLe, hLt⟩ := pageCount_bounds hBytes hSize
    exact sizes_drawPages req _ hLe fun _ => hLt
  · -- one page, of no bytes
    have hZero : req.sizeBytes = 0 := by omega
    have hCount : pageCount pool.pageBytes req.sizeBytes = 1 := by
      unfold pageCount
      rw [hZero, Nat.div_eq_of_lt (by omega)]
      rfl
    rw [hCount]
    simp [drawPages, pageMeta, hZero]

-- ------ The index

theorem contentIndex_foldl_freePage {ids : List PageId} (hNodup : ids.Nodup)
    (pool : GlobalPagePool) (hash : String) :
    (ids.foldl freePage pool).contentIndex.get? hash =
      if ∃ pid ∈ ids, ∃ p, pool.pages.get? pid = some p ∧ p.contentHash = hash ∧ hash ≠ "" ∧
          pool.contentIndex.get? hash = some pid
      then none else pool.contentIndex.get? hash := by
  induction ids generalizing pool with
  | nil => simp
  | cons pid ids ih =>
    obtain ⟨hNew, hNodup⟩ := List.nodup_cons.mp hNodup
    rw [List.foldl_cons, ih hNodup]
    have hPages : ∀ q ∈ ids, (pool.freePage pid).pages.get? q = pool.pages.get? q := by
      intro q hq
      have hNe : q ≠ pid := by
        rintro rfl
        exact hNew hq
      rw [get?_freePage, if_neg hNe]
    by_cases hHere : ∃ p, pool.pages.get? pid = some p ∧ p.contentHash = hash ∧ hash ≠ "" ∧
        pool.contentIndex.get? hash = some pid
    · obtain ⟨p, hp, hHash, hText, hIndex⟩ := hHere
      have hGone : (pool.freePage pid).contentIndex.get? hash = none := by
        subst hHash
        simp only [freePage, hp, hText, hIndex, ne_eq, not_false_eq_true, and_self, if_true,
          Dict.get?_erase_self]
      rw [hGone, ite_self, if_pos ⟨pid, List.mem_cons_self, p, hp, hHash, hText, hIndex⟩]
    · have hSame : (pool.freePage pid).contentIndex.get? hash = pool.contentIndex.get? hash := by
        unfold freePage
        cases hp : pool.pages.get? pid with
        | none => rfl
        | some p =>
          dsimp only
          split
          · next hNamed =>
            refine Dict.get?_erase_ne _ ?_
            rintro rfl
            exact hHere ⟨p, hp, rfl, hNamed⟩
          · rfl
      rw [hSame]
      refine if_congr ?_ rfl rfl
      simp only [List.mem_cons, exists_eq_or_imp, hHere, false_or]
      refine exists_congr fun q => and_congr_right fun hq => ?_
      rw [hPages q hq]

-- ------ What the two calls leave

theorem pageBytes_drawPages (req : PageRequest) (nPages left rem : ℕ) (pool : GlobalPagePool) :
    (drawPages req nPages left rem pool).1.pageBytes = pool.pageBytes := by
  induction left generalizing rem pool with
  | zero => rfl
  | succ left ih => exact ih _ _

theorem pageBytes_allocatePages (pool : GlobalPagePool) (req : PageRequest) :
    (pool.allocatePages req).pageBytes = pool.pageBytes :=
  pageBytes_drawPages req _ _ _ pool

theorem pageBytes_foldl_freePage (ids : List PageId) (pool : GlobalPagePool) :
    (ids.foldl freePage pool).pageBytes = pool.pageBytes := by
  induction ids generalizing pool with
  | nil => rfl
  | cons pid ids ih =>
    rw [List.foldl_cons, ih]
    unfold freePage
    split
    · rfl
    · rfl

theorem tables_allocatePages (pool : GlobalPagePool) (req : PageRequest) :
    (pool.allocatePages req).tables = pool.tables.set req.kvId
      { kvId := req.kvId, pageIds := (pool.allocatePages req).pageIdsOf req.kvId
        identity := req.identity } := by
  simp only [pageIdsOf, allocatePages, Dict.get?_set_self, (drawPages_spec req _ _ _ pool).tables]

theorem contentIndex_allocatePages (pool : GlobalPagePool) (req : PageRequest) (hash : String)
    (pid : PageId) (h : (pool.allocatePages req).contentIndex.get? hash = some pid) :
    pool.contentIndex.get? hash = some pid ∨
      hash ≠ "" ∧ hash = req.contentHash ∧
        pid ∈ (pool.allocatePages req).pageIdsOf req.kvId := by
  unfold allocatePages at h
  dsimp only at h
  rw [(drawPages_spec req _ _ req.sizeBytes pool).contentIndex] at h
  split at h
  · exact .inl h
  · next hNew =>
    rw [Dict.get?_set] at h
    split at h
    · next hEq =>
      refine .inr ⟨fun hText => hNew (.inl (hEq ▸ hText)), hEq, ?_⟩
      rw [← Option.some.inj h, pageIdsOf_allocatePages, if_pos rfl]
      refine List.mem_map_of_mem (List.mem_range'_1.mpr ⟨le_rfl, ?_⟩)
      have hCount : 1 ≤ pageCount pool.pageBytes req.sizeBytes := Nat.le_max_left _ _
      omega
    · exact .inl h

end GlobalPagePool

-- ------ Runs

inductive PageOp where
  | allocate (req : PageRequest)
  | release (kvId : KvId)

structure Holdings where
  pool : GlobalPagePool
  live : Dict KvId PageRequest := Dict.empty

namespace Holdings

def step (x : Holdings) : PageOp → Holdings
  | .allocate req => { pool := x.pool.allocatePages req, live := x.live.set req.kvId req }
  | .release kvId => { pool := x.pool.release kvId, live := x.live.erase kvId }

/-- Tables, pages and index agree. -/
structure Valid (x : Holdings) : Prop where
  tables : ∀ k, (x.pool.tables.get? k).isSome ↔ (x.live.get? k).isSome
  distinct : ∀ k, (x.pool.pageIdsOf k).Nodup
  owned : ∀ k, ∀ pid ∈ x.pool.pageIdsOf k, ∃ p, x.pool.pages.get? pid = some p ∧ p.kvId = k ∧
    p.sizeBytes ≤ x.pool.pageBytes
  sum : ∀ k req, x.live.get? k = some req →
    ((x.pool.pagesFor k).map PageMeta.sizeBytes).sum = req.sizeBytes
  found : ∀ k req, x.live.get? k = some req → req.contentHash ≠ "" →
    ∃ p, x.pool.findByContent req.contentHash = some p ∧ p.contentHash = req.contentHash ∧
      ∃ k', p ∈ x.pool.pagesFor k'

def Distinct (x : Holdings) : PageOp → Prop
  | .allocate req => x.live.get? req.kvId = none
  | .release _ => True

def KeepsContent (x : Holdings) : PageOp → Prop
  | .allocate _ => True
  | .release kvId => ∀ e ∈ x.live.entries, e.1 ≠ kvId → e.2.contentHash ≠ "" →
    ∀ pid ∈ x.pool.pageIdsOf kvId, x.pool.contentIndex.get? e.2.contentHash ≠ some pid

instance (x : Holdings) : DecidablePred x.KeepsContent
  | .allocate _ => isTrue trivial
  | .release _ => inferInstanceAs (Decidable (∀ e ∈ _, _))

structure Inv (x : Holdings) : Prop where
  owned : x.pool.Owned
  bytes : 0 < x.pool.pageBytes
  tables : ∀ k, (x.pool.tables.get? k).isSome ↔ (x.live.get? k).isSome
  pages : ∀ k req, x.live.get? k = some req → ∀ p ∈ x.pool.pagesFor k,
    p.sizeBytes ≤ x.pool.pageBytes ∧ p.contentHash = req.contentHash
  sum : ∀ k req, x.live.get? k = some req →
    ((x.pool.pagesFor k).map PageMeta.sizeBytes).sum = req.sizeBytes
  named : ∀ hash pid, x.pool.contentIndex.get? hash = some pid → hash ≠ "" ∧
    ∃ k req, x.live.get? k = some req ∧ req.contentHash = hash ∧ pid ∈ x.pool.pageIdsOf k
  indexed : ∀ k req, x.live.get? k = some req → req.contentHash ≠ "" →
    (x.pool.contentIndex.get? req.contentHash).isSome

variable {x : Holdings}

theorem Inv.of_mem (h : x.Inv) {k : KvId} {pid : PageId} (hPid : pid ∈ x.pool.pageIdsOf k) :
    ∃ req p, x.live.get? k = some req ∧ x.pool.pages.get? pid = some p ∧
      p ∈ x.pool.pagesFor k := by
  obtain ⟨p, hp⟩ := Option.isSome_iff_exists.mp (h.owned.present k pid hPid)
  have hTable : (x.pool.tables.get? k).isSome := by
    unfold GlobalPagePool.pageIdsOf at hPid
    cases hGet : x.pool.tables.get? k with
    | none => simp [hGet] at hPid
    | some entry => rfl
  obtain ⟨req, hReq⟩ := Option.isSome_iff_exists.mp ((h.tables k).mp hTable)
  exact ⟨req, p, hReq, hp, List.mem_filterMap.mpr ⟨pid, hPid, hp⟩⟩

theorem Inv.valid (h : x.Inv) : x.Valid where
  tables := h.tables
  distinct := h.owned.distinct
  owned k pid hPid := by
    obtain ⟨req, p, hReq, hp, hMem⟩ := h.of_mem hPid
    exact ⟨p, hp, h.owned.owner k pid hPid p hp, (h.pages k req hReq p hMem).1⟩
  sum := h.sum
  found k req hReq hText := by
    obtain ⟨pid, hPid⟩ := Option.isSome_iff_exists.mp (h.indexed k req hReq hText)
    obtain ⟨-, k', req', hReq', hHash, hMem⟩ := h.named _ pid hPid
    obtain ⟨_, p, -, hp, hPage⟩ := h.of_mem hMem
    refine ⟨p, ?_, ?_, k', hPage⟩
    · rw [GlobalPagePool.findByContent, hPid]
      exact hp
    · rw [(h.pages k' req' hReq' p hPage).2, hHash]

/-- **Step.** An allocation under a new kv id keeps the invariant. -/
theorem Inv.allocate (h : x.Inv) {req : PageRequest} (hNew : x.live.get? req.kvId = none) :
    (x.step (.allocate req)).Inv := by
  obtain ⟨hSum, hLe⟩ := GlobalPagePool.sizes_allocatePages h.bytes req
  obtain ⟨hOther, -⟩ := GlobalPagePool.pagesFor_allocatePages h.owned req
  have hIds := GlobalPagePool.pageIdsOf_allocatePages x.pool req
  have hBytes := GlobalPagePool.pageBytes_allocatePages x.pool req
  have hIndex := GlobalPagePool.contentIndex_allocatePages x.pool req
  have hLive : ∀ k req', (x.live.set req.kvId req).get? k = some req' →
      k = req.kvId ∧ req' = req ∨ k ≠ req.kvId ∧ x.live.get? k = some req' := by
    intro k req' hGet
    rw [Dict.get?_set] at hGet
    split at hGet
    · next hEq => exact .inl ⟨hEq, (Option.some.inj hGet).symm⟩
    · next hNe => exact .inr ⟨hNe, hGet⟩
  refine ⟨h.owned.allocatePages req, hBytes ▸ h.bytes, fun k => ?_, fun k req' hGet p hp => ?_,
    fun k req' hGet => ?_, fun hash pid hPid => ?_, fun k req' hGet hText => ?_⟩
  · show ((x.pool.allocatePages req).tables.get? k).isSome ↔
      ((x.live.set req.kvId req).get? k).isSome
    rw [GlobalPagePool.tables_allocatePages, Dict.get?_set, Dict.get?_set]
    by_cases hk : k = req.kvId
    · simp [hk]
    · simp only [hk, if_false]
      exact h.tables k
  · rcases hLive k req' hGet with ⟨rfl, rfl⟩ | ⟨hk, hOld⟩
    · refine ⟨(hBytes ▸ hLe) p hp, ?_⟩
      obtain ⟨pid, hPid, hPage⟩ := List.mem_filterMap.mp hp
      obtain ⟨rem, hMeta⟩ := (GlobalPagePool.pages_allocatePages x.pool req').2 pid hPid
      have hPage := hMeta.symm.trans hPage
      rw [← Option.some.inj hPage]
      rfl
    · have hPages := h.pages k req' hOld p ((hOther k hk) ▸ hp)
      exact ⟨hBytes ▸ hPages.1, hPages.2⟩
  · rcases hLive k req' hGet with ⟨rfl, rfl⟩ | ⟨hk, hOld⟩
    · exact hSum
    · rw [← h.sum k req' hOld, ← hOther k hk]
      rfl
  · have hOld : ∀ k, k ≠ req.kvId → ∀ pid ∈ x.pool.pageIdsOf k,
        pid ∈ (x.pool.allocatePages req).pageIdsOf k := by
      intro k hk pid hPid
      rw [hIds, if_neg hk]
      exact hPid
    rcases hIndex hash pid hPid with hGet | ⟨hText, rfl, hFirst⟩
    · obtain ⟨hText, k, req', hReq, hHash, hMem⟩ := h.named hash pid hGet
      have hk : k ≠ req.kvId := by
        rintro rfl
        cases hNew.symm.trans hReq
      refine ⟨hText, k, req', ?_, hHash, hOld k hk pid hMem⟩
      show (x.live.set req.kvId req).get? k = _
      rw [Dict.get?_set_ne _ _ hk, hReq]
    · refine ⟨hText, req.kvId, req, Dict.get?_set_self _ _ _, rfl, ?_⟩
      show pid ∈ (x.pool.allocatePages req).pageIdsOf req.kvId
      exact hFirst
  · have hSet : ∀ hash, hash ≠ "" → hash = req.contentHash ∨
        (x.pool.contentIndex.get? hash).isSome →
        ((x.pool.allocatePages req).contentIndex.get? hash).isSome := by
      intro hash hText hSome
      unfold GlobalPagePool.allocatePages
      dsimp only
      rw [(GlobalPagePool.drawPages_spec req _ _ req.sizeBytes x.pool).contentIndex]
      split
      · next hKept =>
        rcases hSome with rfl | hSome
        · exact hKept.resolve_left hText
        · exact hSome
      · rw [Dict.get?_set]
        split
        · rfl
        · next hNe => exact hSome.resolve_left hNe
    rcases hLive k req' hGet with ⟨rfl, rfl⟩ | ⟨hk, hOld⟩
    · exact hSet _ hText (.inl rfl)
    · exact hSet _ hText (.inr (h.indexed k req' hOld hText))

theorem index_release (h : x.Inv) (kvId : KvId) (hash : String) :
    (x.pool.release kvId).contentIndex.get? hash =
      if ∃ pid ∈ x.pool.pageIdsOf kvId, hash ≠ "" ∧ x.pool.contentIndex.get? hash = some pid
      then none else x.pool.contentIndex.get? hash := by
  unfold GlobalPagePool.release
  rw [GlobalPagePool.contentIndex_foldl_freePage (h.owned.distinct kvId)]
  refine if_congr (exists_congr fun pid => and_congr_right fun hPid => ?_) rfl rfl
  constructor
  · rintro ⟨p, -, -, hText, hIndex⟩
    exact ⟨hText, hIndex⟩
  · rintro ⟨hText, hIndex⟩
    -- the index names a page for the content it was allocated with
    obtain ⟨req, p, hReq, hp, hMem⟩ := h.of_mem hPid
    obtain ⟨-, k, req', hReq', hHash, hMem'⟩ := h.named hash pid hIndex
    have hk : k = kvId := by
      by_contra hNe
      exact h.owned.not_mem_of_ne hNe hPid hMem'
    subst hk
    cases hReq.symm.trans hReq'
    exact ⟨p, hp, (h.pages k req hReq p hMem).2.trans hHash, hText, hIndex⟩

/-- **Step.** So does a release, unless it takes the page that stands for another's content. -/
theorem Inv.release (h : x.Inv) {kvId : KvId} (hKeeps : x.KeepsContent (.release kvId)) :
    (x.step (.release kvId)).Inv := by
  have hPages := GlobalPagePool.pagesFor_release h.owned kvId
  have hBytes : (x.pool.release kvId).pageBytes = x.pool.pageBytes :=
    GlobalPagePool.pageBytes_foldl_freePage _ _
  have hLive : ∀ k req, (x.live.erase kvId).get? k = some req →
      k ≠ kvId ∧ x.live.get? k = some req := fun k req hGet => Dict.get?_erase_eq_some.mp hGet
  refine ⟨h.owned.release kvId, hBytes ▸ h.bytes, fun k => ?_, fun k req hGet p hp => ?_,
    fun k req hGet => ?_, fun hash pid hPid => ?_, fun k req hGet hText => ?_⟩
  · show ((x.pool.release kvId).tables.get? k).isSome ↔ ((x.live.erase kvId).get? k).isSome
    unfold GlobalPagePool.release
    rw [(GlobalPagePool.foldl_freePage _ _).1, Dict.get?_erase, Dict.get?_erase]
    split
    · rfl
    · exact h.tables k
  · obtain ⟨hk, hOld⟩ := hLive k req hGet
    have hp : p ∈ x.pool.pagesFor k := by
      have hp : p ∈ (x.pool.release kvId).pagesFor k := hp
      rwa [hPages, if_neg hk] at hp
    have hPage := h.pages k req hOld p hp
    exact ⟨hBytes ▸ hPage.1, hPage.2⟩
  · obtain ⟨hk, hOld⟩ := hLive k req hGet
    show (((x.pool.release kvId).pagesFor k).map PageMeta.sizeBytes).sum = _
    rw [hPages, if_neg hk]
    exact h.sum k req hOld
  · have hGet : (x.pool.release kvId).contentIndex.get? hash = some pid := hPid
    rw [index_release h] at hGet
    split at hGet
    · cases hGet
    · next hFree =>
      obtain ⟨hText, k, req, hReq, hHash, hMem⟩ := h.named hash pid hGet
      have hk : k ≠ kvId := by
        rintro rfl
        exact hFree ⟨pid, hMem, hText, hGet⟩
      refine ⟨hText, k, req, ?_, hHash, ?_⟩
      · exact (Dict.get?_erase_ne _ hk).trans hReq
      · show pid ∈ (x.pool.release kvId).pageIdsOf k
        rw [GlobalPagePool.pageIdsOf_release, if_neg hk]
        exact hMem
  · obtain ⟨hk, hOld⟩ := hLive k req hGet
    show ((x.pool.release kvId).contentIndex.get? req.contentHash).isSome
    rw [index_release h, if_neg]
    · exact h.indexed k req hOld hText
    · rintro ⟨pid, hPid, -, hIndex⟩
      exact hKeeps (k, req) (Dict.mem_entries_iff.mpr hOld) hk hText pid hPid hIndex

theorem Inv.not_valid (h : x.Inv) {op : PageOp} (hLost : ¬ x.KeepsContent op) :
    ¬ (x.step op).Valid := by
  cases op with
  | allocate req => exact absurd trivial hLost
  | release kvId =>
    simp only [KeepsContent, not_forall, not_not] at hLost
    obtain ⟨⟨k, req⟩, hMem, hk, hText, pid, hPid, hIndex⟩ := hLost
    have hReq : x.live.get? k = some req := Dict.mem_entries_iff.mp hMem
    intro hValid
    obtain ⟨p, hFound, -⟩ := hValid.found k req ((Dict.get?_erase_ne _ hk).trans hReq) hText
    have hNone : (x.pool.release kvId).contentIndex.get? req.contentHash = none := by
      rw [index_release h, if_pos ⟨pid, hPid, hText, hIndex⟩]
    have hFound : (x.pool.release kvId).findByContent req.contentHash = some p := hFound
    rw [GlobalPagePool.findByContent, hNone] at hFound
    cases hFound

/-- **When every live content can be found.** -/
theorem found_along_iff (pageBytes : ℕ) {ops : List PageOp}
    (hDistinct : Run.Every step Distinct { pool := .build pageBytes } ops) :
    Run.Along step Valid { pool := .build pageBytes } ops ↔
      Run.Every step KeepsContent { pool := .build pageBytes } ops := by
  have hStart : Inv { pool := .build pageBytes } :=
    ⟨GlobalPagePool.owned_build pageBytes, lt_of_lt_of_le (by decide) (Nat.le_max_left 1024 _),
      fun _ => Iff.rfl, nofun, nofun, nofun, nofun⟩
  refine Run.along_iff_every_of (fun x h => h.valid) (fun x op h hNew hKeeps => ?_)
    (fun x op h _ hLost => h.not_valid hLost) hStart hDistinct
  cases op with
  | allocate req => exact h.allocate hNew
  | release kvId => exact h.release hKeeps

def request (draw : ℕ) (contentHash : String) : PageRequest where
  kvId := ⟨draw⟩
  sizeBytes := 2000
  identity := {}
  provider := .ram
  location := ⟨.ram, ⟨draw⟩⟩
  contentHash
  prefixHash := ""
  compression := "none"
  backendId := ""

/-- Two handles with different contents, the first of which goes. -/
theorem found_along_twoContents :
    Run.Along step Valid { pool := .build 1024 }
      [.allocate (request 0 "a"), .allocate (request 1 "b"), .release ⟨0⟩] := by
  refine (found_along_iff 1024 ?_).mpr ?_
  · exact ⟨rfl, rfl, trivial, trivial⟩
  · decide +kernel

/-- Two handles with one content, of which the first goes. -/
theorem not_found_after_release :
    ¬ ∀ ops : List PageOp, Run.Every step Distinct { pool := .build 1024 } ops →
      Run.Along step Valid { pool := .build 1024 } ops := by
  intro h
  have hAlong := h [.allocate (request 0 "a"), .allocate (request 1 "a"), .release ⟨0⟩]
    ⟨rfl, rfl, trivial, trivial⟩
  obtain ⟨p, hFound, -⟩ := hAlong.exec.found ⟨1⟩ (request 1 "a") (by decide +kernel) (by decide)
  revert hFound p
  decide +kernel

end Holdings

end Neuroswarm.Maks
