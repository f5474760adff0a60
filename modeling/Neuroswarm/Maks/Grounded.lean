import Neuroswarm.Lib.Run
import Neuroswarm.Maks.Effects

/-!
# MAKS — what holds of every manager

`Grounded` collects what no operation can break, whatever it is called on and
however it ends: ids come from the draws made so far, a record repeats the count
of the reference counter, and the page pool is owned.

* `grounded_step` — every operation keeps it; `grounded_exec` — so it holds after
  every run from a new manager.
* `countsRecords_along` — what this says of the counter and the pages.
-/

namespace Neuroswarm.Maks

open Neuroswarm.Kv (Bytes Time encode)

namespace DeduplicationEngine

/-- Every entry names an id drawn before the `n`-th. -/
def NamesDrawn (eng : DeduplicationEngine) (n : Nat) : Prop :=
  ∀ key ent, eng.byKey.get? key = some ent → ent.kvId.draw < n

variable {eng : DeduplicationEngine} {n : Nat}

theorem NamesDrawn.mono (h : eng.NamesDrawn n) {n' : Nat} (hn : n ≤ n') : eng.NamesDrawn n' :=
  fun key ent hEnt => Nat.lt_of_lt_of_le (h key ent hEnt) hn

theorem NamesDrawn.set (h : eng.NamesDrawn n) {eng' : DeduplicationEngine} {key : String}
    (ent : DedupEntry) (hEnt : ent.kvId.draw < n) (hKeys : eng'.byKey = eng.byKey.set key ent) :
    eng'.NamesDrawn n := by
  intro key' ent' h'
  rw [hKeys, Dict.get?_set] at h'
  split at h'
  · rw [← Option.some.inj h']
    exact hEnt
  · exact h key' ent' h'

/-- A lookup only counts; the entry it returns is the one on file. -/
theorem lookup_byKey (hs : Hasher) (eng : DeduplicationEngine) (identity : KVIdentity)
    (promptPrefix : Bytes) (contentHash : String) :
    (∀ key ent, (eng.lookup hs identity promptPrefix contentHash).1.byKey.get? key = some ent →
      ∃ ent₀, eng.byKey.get? key = some ent₀ ∧ ent₀.kvId = ent.kvId ∧
        ent₀.contentHash = ent.contentHash) ∧
    ∀ ent, (eng.lookup hs identity promptPrefix contentHash).2 = some ent →
      ∃ ent₀, eng.byKey.get? (makeKey hs identity promptPrefix contentHash) = some ent₀ ∧
        ent₀.kvId = ent.kvId ∧ ent₀.contentHash = ent.contentHash := by
  unfold lookup
  dsimp only
  cases hk : eng.byKey.get? (makeKey hs identity promptPrefix contentHash) with
  | none =>
    exact ⟨fun key ent h => ⟨ent, h, rfl, rfl⟩, fun ent h => by cases h⟩
  | some ent₀ =>
    dsimp only
    refine ⟨?_, ?_⟩
    · intro key ent h
      rw [Dict.get?_set] at h
      split at h
      · next hkey =>
        cases h
        exact ⟨ent₀, by rw [hkey, hk], rfl, rfl⟩
      · exact ⟨ent, h, rfl, rfl⟩
    · intro ent h
      cases h
      exact ⟨ent₀, rfl, rfl, rfl⟩

theorem NamesDrawn.lookup (h : eng.NamesDrawn n) (hs : Hasher) (identity : KVIdentity)
    (promptPrefix : Bytes) (contentHash : String) :
    (eng.lookup hs identity promptPrefix contentHash).1.NamesDrawn n := by
  intro key ent hEnt
  obtain ⟨ent₀, h₀, hId, -⟩ :=
    (lookup_byKey hs eng identity promptPrefix contentHash).1 key ent hEnt
  rw [← hId]
  exact h key ent₀ h₀

theorem NamesDrawn.register (h : eng.NamesDrawn n) (hs : Hasher) {kvId : KvId}
    (hk : kvId.draw < n) (identity : KVIdentity) (promptPrefix : Bytes) (contentHash : String) :
    (eng.register hs kvId identity promptPrefix contentHash).1.NamesDrawn n := by
  unfold DeduplicationEngine.register
  dsimp only
  cases hEnt : eng.byKey.get? (makeKey hs identity promptPrefix contentHash) with
  | none => exact h.set _ hk rfl
  | some ent₀ =>
    have h₀ := h _ _ hEnt
    dsimp only
    split
    · exact h.set { ent₀ with collisions := ent₀.collisions + 1 } h₀ rfl
    · exact h.set { ent₀ with reuseCount := ent₀.reuseCount + 1 } h₀ rfl

theorem NamesDrawn.forget (h : eng.NamesDrawn n) (dedupKey : String) :
    (eng.forget dedupKey).NamesDrawn n := by
  unfold DeduplicationEngine.forget
  cases eng.byKey.get? dedupKey with
  | none => exact h
  | some ent =>
    intro key ent' h'
    exact h key ent' (Dict.get?_erase_eq_some.mp h').2

end DeduplicationEngine

namespace KVManager

variable {S : Setup} {m m' : KVManager} {kvId : KvId}

/-- What no operation can break. -/
structure Grounded (m : KVManager) : Prop where
  /-- Live ids were drawn. -/
  drawn : ∀ k rec, m.registry.get k = some rec → k.draw < m.drawn
  /-- Only live blocks are counted. -/
  uncounted : ∀ k, m.registry.get k = none → ReferenceCounter.count m.refcount k = 0
  /-- A record repeats the count of the reference counter. -/
  counts : ∀ k rec, m.registry.get k = some rec →
    ReferenceCounter.count m.refcount k = rec.refcount
  named : m.dedup.NamesDrawn m.drawn
  owned : m.pool.Owned

theorem grounded_init : (init S).Grounded where
  drawn _ _ h := by cases h
  uncounted _ _ := rfl
  counts _ _ h := by cases h
  named _ _ h := by cases h
  owned := GlobalPagePool.owned_build _

theorem Grounded.fresh (h : m.Grounded) : m.registry.get ⟨m.drawn⟩ = none := by
  cases hrec : m.registry.get ⟨m.drawn⟩ with
  | none => rfl
  | some rec => exact absurd (h.drawn _ rec hrec) (Nat.lt_irrefl _)

-- ------ Updates of one block

variable {rec : KVRegistryRecord}

theorem Grounded.replace (h : m.Grounded) {rec' : KVRegistryRecord}
    (hrec : m.registry.get kvId = some rec)
    (hreg : ∀ k, m'.registry.get k = if k = kvId then some rec' else m.registry.get k)
    (hcount : ∀ k, ReferenceCounter.count m'.refcount k =
      if k = kvId then rec'.refcount else ReferenceCounter.count m.refcount k)
    (hdrawn : m'.drawn = m.drawn) (hdedup : m'.dedup.NamesDrawn m.drawn) (hpool : m'.pool.Owned) :
    m'.Grounded where
  drawn k r hr := by
    rw [hreg] at hr
    rw [hdrawn]
    split at hr
    · next hk =>
      rw [hk]
      exact h.drawn kvId rec hrec
    · exact h.drawn k r hr
  uncounted k hk := by
    rw [hreg] at hk
    rw [hcount]
    split at hk
    · cases hk
    · next hne =>
      rw [if_neg hne]
      exact h.uncounted k hk
  counts k r hr := by
    rw [hreg] at hr
    rw [hcount]
    split at hr
    · next hk => rw [if_pos hk, ← Option.some.inj hr]
    · next hk =>
      rw [if_neg hk]
      exact h.counts k r hr
  named := by
    rw [hdrawn]
    exact hdedup
  owned := hpool

theorem Grounded.rewrite (h : m.Grounded) (rec' : KVRegistryRecord)
    (hrec : m.registry.get kvId = some rec) (hcount : rec'.refcount = rec.refcount)
    (hreg : ∀ k, m'.registry.get k = if k = kvId then some rec' else m.registry.get k)
    (href : m'.refcount = m.refcount) (hdrawn : m'.drawn = m.drawn) (hdedup : m'.dedup = m.dedup)
    (hpool : m'.pool.Owned) : m'.Grounded := by
  refine h.replace hrec hreg (fun k => ?_) hdrawn (by rw [hdedup]; exact h.named) hpool
  rw [href]
  split
  · next hk => rw [hk, hcount, h.counts kvId rec hrec]
  · rfl

theorem Grounded.congr (h : m.Grounded) (hreg : m'.registry = m.registry)
    (href : m'.refcount = m.refcount) (hdedup : m'.dedup = m.dedup) (hpool : m'.pool = m.pool)
    (hdrawn : m'.drawn = m.drawn) : m'.Grounded := by
  obtain ⟨h₁, h₂, h₃, h₄, h₅⟩ := h
  refine ⟨?_, ?_, ?_, ?_, ?_⟩
  · rwa [hreg, hdrawn]
  · rwa [hreg, href]
  · rwa [hreg, href]
  · rwa [hdedup, hdrawn]
  · rwa [hpool]

theorem get_movedBehind (hrec : m.registry.get kvId = some rec) (p : ProviderName) (b : Backends)
    (k : KvId) :
    (m.movedBehind rec p b).registry.get k =
      if k = kvId then some (moved rec p) else m.registry.get k := by
  have hId : (moved rec p).kvId = kvId := show rec.kvId = kvId from KVRegistry.kvId_of_get hrec
  show (m.registry.upsert (moved rec p)).get k = _
  rw [KVRegistry.get_upsert, hId]

theorem get_upsert_resized (reg : KVRegistry) (rec : KVRegistryRecord) (data : Bytes) (k : KvId) :
    (reg.upsert (resized rec data)).get k =
      if k = rec.kvId then some (resized rec data) else reg.get k :=
  KVRegistry.get_upsert reg (resized rec data) k

theorem get_setState_of_get {reg : KVRegistry} (hrec : reg.get kvId = some rec) (s : KVState)
    (k : KvId) :
    (reg.setState kvId s).get k =
      if k = kvId then some (KVRegistry.withState rec s) else reg.get k := by
  rw [KVRegistry.get_setState]
  by_cases hk : k = kvId
  · rw [if_pos hk, if_pos hk, hk, hrec, Option.map_some]
  · rw [if_neg hk, if_neg hk]

theorem Grounded.setState (h : m.Grounded) (s : KVState)
    (hreg : m'.registry = m.registry.setState kvId s) (href : m'.refcount = m.refcount)
    (hdrawn : m'.drawn = m.drawn) (hdedup : m'.dedup = m.dedup) (hpool : m'.pool = m.pool) :
    m'.Grounded := by
  cases hrec : m.registry.get kvId with
  | none =>
    refine h.congr ?_ href hdedup hpool hdrawn
    rw [hreg]
    unfold KVRegistry.setState KVRegistry.modify
    rw [hrec]
  | some rec =>
    refine h.rewrite (KVRegistry.withState rec s) hrec rfl (fun k => ?_) href hdrawn hdedup
      (by rw [hpool]; exact h.owned)
    rw [hreg]
    exact get_setState_of_get hrec s k

theorem Grounded.writeState (h : m.Grounded) (s : KVState) : (m.writeState kvId s).Grounded :=
  h.setState s rfl rfl rfl rfl rfl

theorem Grounded.setTier (h : m.Grounded) (kvId : KvId) (tier : KVTier) :
    Grounded { m with registry := m.registry.setTier kvId tier } := by
  cases hrec : m.registry.get kvId with
  | none =>
    refine h.congr ?_ rfl rfl rfl rfl
    show m.registry.setTier kvId tier = m.registry
    unfold KVRegistry.setTier KVRegistry.modify
    rw [hrec]
  | some rec =>
    refine h.rewrite { rec with tier := tier } hrec rfl (fun k => ?_) rfl rfl rfl h.owned
    show (m.registry.setTier kvId tier).get k = _
    rw [KVRegistry.get_setTier]
    by_cases hk : k = kvId
    · rw [if_pos hk, if_pos hk, hk, hrec, Option.map_some]
    · rw [if_neg hk, if_neg hk]

theorem Migrated.grounded {p : ProviderName} (hM : Migrated S m kvId p rec m') (h : m.Grounded) :
    m'.Grounded :=
  h.rewrite (KVRegistry.withState (placed rec p) .migrated) hM.found
    (placed_refcount rec p) hM.registry hM.refcount hM.drawn hM.dedup
    (hM.owned h.owned)

theorem Grounded.movedBehind (h : m.Grounded) (hrec : m.registry.get kvId = some rec)
    (p : ProviderName) (b : Backends) :
    (m.movedBehind rec p b).Grounded :=
  h.rewrite (moved rec p) hrec rfl (get_movedBehind hrec p b) rfl rfl rfl h.owned

theorem Grounded.backends (h : m.Grounded) (b : Backends) :
    Grounded { m with backends := b } := h.congr rfl rfl rfl rfl rfl

-- ------ Destroying and creating

theorem Grounded.destroy (h : m.Grounded) (rec : KVRegistryRecord) :
    (destroy S m rec).Grounded where
  drawn k r hr := by
    have hr : (m.registry.delete rec.kvId).get k = some r := hr
    rw [KVRegistry.get_delete] at hr
    split at hr
    · cases hr
    · exact h.drawn k r hr
  uncounted k hk := by
    have hk : (m.registry.delete rec.kvId).get k = none := hk
    rw [KVRegistry.get_delete] at hk
    show ReferenceCounter.count (ReferenceCounter.releaseAll m.refcount rec.kvId) k = 0
    rw [ReferenceCounter.count_releaseAll]
    split at hk
    · next hEq => rw [if_pos hEq]
    · rw [h.uncounted k hk, ite_self]
  counts k r hr := by
    have hr : (m.registry.delete rec.kvId).get k = some r := hr
    rw [KVRegistry.get_delete] at hr
    show ReferenceCounter.count (ReferenceCounter.releaseAll m.refcount rec.kvId) k = _
    rw [ReferenceCounter.count_releaseAll]
    split at hr
    · cases hr
    · next hk =>
      rw [if_neg hk]
      exact h.counts k r hr
  named := by
    show (if rec.dedupKey = "" then m.dedup else m.dedup.forget rec.dedupKey).NamesDrawn m.drawn
    split
    · exact h.named
    · exact h.named.forget _
  owned := h.owned.release rec.kvId

theorem Grounded.delete (h : m.Grounded) (kvId : KvId) (force : Bool) :
    (delete S m kvId force).1.Grounded := by
  have hOutcome := delete_outcome (S := S) m kvId force
  generalize (KVManager.delete S m kvId force).1 = m' at hOutcome ⊢
  cases hOutcome with
  | kept _ => exact h
  | destroyed rec _ => exact h.destroy rec

theorem Grounded.draw (h : m.Grounded) (hreg : m'.registry = m.registry)
    (href : m'.refcount = m.refcount) (hpool : m'.pool = m.pool)
    (hdrawn : m'.drawn = m.drawn + 1) (hdedup : m'.dedup.NamesDrawn (m.drawn + 1)) :
    m'.Grounded where
  drawn k r hr := by
    rw [hreg] at hr
    rw [hdrawn]
    exact Nat.lt_succ_of_lt (h.drawn k r hr)
  uncounted k hk := by
    rw [hreg] at hk
    rw [href]
    exact h.uncounted k hk
  counts k r hr := by
    rw [hreg] at hr
    rw [href]
    exact h.counts k r hr
  named := by
    rw [hdrawn]
    exact hdedup
  owned := by
    rw [hpool]
    exact h.owned

theorem Grounded.install (h : m.Grounded) (req : CreateRequest) (location : Location)
    (dedupKey : String) (hk : kvId.draw < m.drawn)
    (hNew : ReferenceCounter.count m.refcount kvId = 0) :
    (install S m req kvId location dedupKey).Grounded where
  drawn k r hr := by
    have hr : (m.registry.upsert (newRecord S req kvId location dedupKey)).get k = some r := hr
    rw [KVRegistry.get_upsert] at hr
    split at hr
    · next hEq =>
      rw [hEq]
      exact hk
    · exact h.drawn k r hr
  uncounted k hk' := by
    have hk' : (m.registry.upsert (newRecord S req kvId location dedupKey)).get k = none := hk'
    rw [KVRegistry.get_upsert] at hk'
    show ReferenceCounter.count (ReferenceCounter.increment m.refcount kvId req.agentId true) k = 0
    rw [ReferenceCounter.count_increment]
    split at hk'
    · cases hk'
    · next hne =>
      rw [if_neg (show ¬ k = kvId from hne)]
      exact h.uncounted k hk'
  counts k r hr := by
    have hr : (m.registry.upsert (newRecord S req kvId location dedupKey)).get k = some r := hr
    rw [KVRegistry.get_upsert] at hr
    show ReferenceCounter.count (ReferenceCounter.increment m.refcount kvId req.agentId true) k = _
    rw [ReferenceCounter.count_increment]
    split at hr
    · next hEq =>
      have hEq : k = kvId := hEq
      rw [if_pos hEq, ← Option.some.inj hr, hEq, hNew]
      rfl
    · next hEq =>
      rw [if_neg (show ¬ k = kvId from hEq)]
      exact h.counts k r hr
  named := h.named
  owned := h.owned.allocatePages _

theorem registerDedup_named {req : CreateRequest} {n : Nat} (h : m.dedup.NamesDrawn n)
    (hk : kvId.draw < n) : (registerDedup S m req kvId).1.NamesDrawn n := by
  unfold registerDedup
  split
  · have := h.register S.hasher hk req.identity (req.dedupPrefix S) (req.contentHash S)
    rcases hr : m.dedup.register S.hasher kvId req.identity (req.dedupPrefix S)
      (req.contentHash S) with ⟨dedup, r⟩
    rw [hr] at this
    cases r <;> exact this
  · exact h

theorem Grounded.allocateNew (h : m.Grounded) (req : CreateRequest) :
    (allocateNew S m req).1.Grounded := by
  have hMono := h.named.mono (Nat.le_succ m.drawn)
  have hReg : (registerDedup S m req ⟨m.drawn⟩).1.NamesDrawn (m.drawn + 1) :=
    registerDedup_named hMono (Nat.lt_succ_self _)
  cases hOut : KVManager.allocateNew S m req with
  | mk m₁ r =>
    have := allocateNew_outcome (S := S) m req
    rw [hOut] at this
    cases this with
    | refused e => exact h.draw rfl rfl rfl rfl hMono
    | leaked e b dedup hb hd =>
      refine h.draw rfl rfl rfl rfl ?_
      rcases hd with rfl | ⟨e', hd⟩
      · exact hMono
      · rw [hd] at hReg
        exact hReg
    | installed p stored b dedup dedupKey hpack hb hd =>
      rw [hd] at hReg
      have hDraw : Grounded
          { m with
            drawn := m.drawn + 1
            allocated := m.allocated + req.payload.length
            backends := b
            dedup := dedup } := h.draw rfl rfl rfl rfl hReg
      exact hDraw.install req _ _ (Nat.lt_succ_self _) (h.uncounted _ h.fresh)

theorem Grounded.reuse (h : m.Grounded) (hrec : m.registry.get rec.kvId = some rec)
    (req : CreateRequest) :
    (KVManager.reuse m rec req).Grounded := by
  refine h.replace hrec (get_reuse m rec req) (fun k => ?_) rfl h.named
    (h.owned.incrementShare rec.kvId)
  split
  · next hk => rw [hk]; rfl
  · next hk =>
    show ReferenceCounter.count (ReferenceCounter.increment m.refcount rec.kvId _ false) k = _
    rw [ReferenceCounter.count_increment, if_neg hk]

theorem Grounded.place (h : m.Grounded) (req : CreateRequest) : (place S m req).1.Grounded := by
  have hDedup : ∀ dedup, dedup.NamesDrawn m.drawn → Grounded { m with dedup := dedup } :=
    fun dedup hd => ⟨h.drawn, h.uncounted, h.counts, hd, h.owned⟩
  rcases place_cases (S := S) m req with
    ⟨dedup, ent, rec, hl, -, hrec, -, hEq⟩ | ⟨dedup, hd, hEq⟩
  · rw [hEq]
    have hNamed := h.named.lookup S.hasher req.identity (req.dedupPrefix S) (req.contentHash S)
    rw [hl] at hNamed
    refine (hDedup dedup hNamed).reuse ?_ req
    rw [KVRegistry.kvId_of_get hrec]
    exact hrec
  · rw [hEq]
    refine (hDedup dedup ?_).allocateNew req
    rcases hd with rfl | rfl
    · exact h.named
    · exact h.named.lookup _ _ _ _

-- ------ Relieving pressure, cleaning up

theorem Grounded.relieveOne (h : m.Grounded) (kvId : KvId) : (relieveOne S m kvId).Grounded := by
  have hR := relieveOne_relief (S := S) m kvId
  generalize reliefKind S m kvId = kind at hR
  generalize hEq : KVManager.relieveOne S m kvId = m₁ at hR
  cases hR with
  | left b hb => exact h.backends b
  | pagedOut p rec m' hM => exact hM.grounded h
  | demoted rec p b₀ b hb₀ hrec hp hb => exact h.movedBehind hrec p b
  | destroyed rec b hb hrec hpin => exact (h.backends b).destroy rec

theorem Grounded.relievePressure (h : m.Grounded) (picked : List KvId) :
    (relievePressure S m picked).Grounded :=
  Run.exec_of_invariant (I := Grounded) (fun _ k hm => hm.relieveOne k) h _

theorem drawn_relieveOne (m : KVManager) (kvId : KvId) :
    (relieveOne S m kvId).drawn = m.drawn := by
  have hR := relieveOne_relief (S := S) m kvId
  generalize reliefKind S m kvId = kind at hR
  generalize hEq : relieveOne S m kvId = m₁ at hR
  cases hR with
  | left b hb => rfl
  | pagedOut p rec m' hM => exact hM.drawn
  | demoted rec p b₀ b hb₀ hrec hp hb => rfl
  | destroyed rec b hb hrec hpin => rfl

theorem drawn_relievePressure (m : KVManager) (picked : List KvId) :
    (relievePressure S m picked).drawn = m.drawn :=
  Run.exec_of_invariant (I := fun m₁ : KVManager => m₁.drawn = m.drawn)
    (fun m₁ k h => (drawn_relieveOne m₁ k).trans h) rfl _

theorem Grounded.create (h : m.Grounded) (req : CreateRequest) : (create S m req).1.Grounded := by
  unfold KVManager.create
  split
  · exact h.place req
  · dsimp only
    split
    · exact (h.relievePressure _).place req
    · exact h.relievePressure _

theorem Grounded.sweepOne (h : m.Grounded) (now : Time) (rec : KVRegistryRecord) :
    (sweepOne S now m rec).Grounded := by
  unfold KVManager.sweepOne
  split
  · exact h.delete rec.kvId true
  · exact h

theorem count_sweepCounts (m : KVManager) (k : KvId) :
    ReferenceCounter.count (sweepCounts S m).refcount k =
      if (m.registry.get k).isSome then ReferenceCounter.count m.refcount k else 0 := by
  unfold sweepCounts
  dsimp only
  rw [ReferenceCounter.count_cleanupZero, ReferenceCounter.count_foldl_erase]
  unfold ReferenceCounter.zombies
  simp only [List.mem_filter, KVRegistry.mem_listIds, decide_eq_true_eq]
  by_cases hLive : (m.registry.get k).isSome = true
  · simp [hLive]
  · rw [if_neg hLive]
    split
    · rfl
    · next hNot =>
      -- an id that is neither live nor a zombie has no entry at all
      have hKey : k ∉ m.refcount.keys := fun hm => hNot ⟨hm, hLive⟩
      rw [Dict.mem_keys_iff, Bool.not_eq_true, Option.isSome_eq_false_iff, Option.isNone_iff_eq_none]
        at hKey
      unfold ReferenceCounter.count
      rw [hKey]

theorem Grounded.sweepCounts (h : m.Grounded) : (sweepCounts S m).Grounded where
  drawn := h.drawn
  uncounted k hk := by
    have hk : m.registry.get k = none := hk
    rw [count_sweepCounts, h.uncounted k hk, ite_self]
  counts k rec hrec := by
    have hrec' : m.registry.get k = some rec := hrec
    rw [count_sweepCounts, hrec', Option.isSome_some, if_pos rfl]
    exact h.counts k rec hrec'
  named := h.named
  owned := h.owned

theorem Grounded.cleanup (h : m.Grounded) (now : Time) : (cleanup S m now).Grounded :=
  Grounded.sweepCounts
    (Run.exec_of_invariant (I := Grounded) (fun _ rec hm => hm.sweepOne now rec) h _)

-- ------ Every operation

theorem Grounded.granted (h : m.Grounded) (hrec : m.registry.get rec.kvId = some rec) (b : Backends)
    (consumer : Name) :
    (m.granted b rec consumer).Grounded := by
  refine h.replace hrec (KVRegistry.get_upsert _ _) (fun k => ?_) rfl h.named
    (h.owned.incrementShare rec.kvId)
  split
  · next hk => rw [hk]; rfl
  · next hk =>
    show ReferenceCounter.count (ReferenceCounter.increment m.refcount rec.kvId _ false) k = _
    rw [ReferenceCounter.count_increment, if_neg hk]

theorem Grounded.dropped (h : m.Grounded) (hrec : m.registry.get rec.kvId = some rec) (agent : Name)
    :
    (m.dropped rec agent).Grounded := by
  refine h.replace hrec (KVRegistry.get_upsert _ _) (fun k => ?_) rfl h.named
    (h.owned.decrementShare rec.kvId)
  split
  · next hk => rw [hk]; rfl
  · next hk =>
    show ReferenceCounter.count (ReferenceCounter.decrement m.refcount rec.kvId agent) k = _
    rw [ReferenceCounter.count_decrement, if_neg hk]

theorem Grounded.flagged (h : m.Grounded) (hrec : m.registry.get rec.kvId = some rec) (flag : Bool)
    : (m.flagged rec flag).Grounded := by
  refine h.rewrite { rec with pinned := flag } hrec rfl (KVRegistry.get_upsert _ _)
    rfl rfl rfl ?_
  unfold KVManager.flagged
  cases flag with
  | true => exact h.owned.pin rec.kvId
  | false => exact h.owned.unpin rec.kvId

theorem Edit.grounded {behind : Prop} (hEdit : Edit S behind m m') (h : m.Grounded) :
    m'.Grounded := by
  cases hEdit with
  | backends b _ => exact h.backends b
  | writeState kvId s => exact h.writeState s
  | setTier kvId tier => exact h.setTier kvId tier
  | granted rec b consumer hrec _ => exact h.granted hrec b consumer
  | dropped rec agent hrec => exact h.dropped hrec agent
  | flagged rec flag hrec => exact h.flagged hrec flag
  | migrated hM => exact hM.grounded h
  | movedBehind rec p b _ hrec _ _ => exact h.movedBehind hrec p b

theorem Edits.grounded {behind : Prop} (hEdits : Edits S behind m m') (h : m.Grounded) :
    m'.Grounded := by
  induction hEdits with
  | refl => exact h
  | tail _ hEdit ih => exact hEdit.grounded ih

theorem findBySession_get {key : Name} (h : m.findBySession S key = some rec) :
    m.registry.get rec.kvId = some rec := by
  unfold findBySession at h
  cases hb : (m.handles.resolveSession key).bind m.registry.get with
  | some r =>
    rw [hb] at h
    obtain ⟨k, -, hk⟩ := Option.bind_eq_some_iff.mp hb
    rw [← Option.some.inj h, KVRegistry.kvId_of_get hk, hk]
  | none =>
    rw [hb] at h
    exact KVRegistry.mem_allRecords.mp (List.mem_of_find?_eq_some h)

theorem Grounded.store (h : m.Grounded) (key : Name) (data : Bytes) (env : Env) :
    (store S m key data env).1.Grounded := by
  have hOutcome := store_outcome (S := S) m key data env
  generalize KVManager.store S m key data env = out at hOutcome ⊢
  cases hOutcome with
  | refused e => exact h
  | failed rec b e _ _ => exact h.backends b
  | overwritten rec b stored hFound _ _ =>
    exact h.rewrite (resized rec data) (findBySession_get hFound) rfl (KVRegistry.get_upsert _ _)
      rfl rfl rfl h.owned
  | created stored r _ _ => exact h.create _

theorem grounded_step (op : Op) (h : m.Grounded) : (step S m op).Grounded := by
  have hEdits : op.EditsOnly True → (step S m op).Grounded := fun hOnly =>
    (edits_step m op hOnly).grounded h
  cases op with
  | create req => exact h.create req
  | store key data env => exact h.store key data env
  | delete kvId force => exact h.delete kvId force
  | cleanup now => exact h.cleanup now
  | relievePressure picked => exact h.relievePressure picked
  | _ => exact hEdits trivial

-- ------ Runs

/-- The reference counter has the count of every record, and nothing else. -/
def CountsRecords (m : KVManager) : Prop :=
  ∀ k, ReferenceCounter.count m.refcount k = ((m.registry.get k).map (·.refcount)).getD 0

/-- The pages that a block lists are its own: none is listed twice, or by two blocks. -/
def PagesApart (pool : GlobalPagePool) : Prop :=
  ∀ k, (pool.pageIdsOf k).Nodup ∧ ∀ pid ∈ pool.pageIdsOf k,
    (∃ page, pool.pages.get? pid = some page ∧ page.kvId = k) ∧
      ∀ k', k' ≠ k → pid ∉ pool.pageIdsOf k'

theorem Grounded.countsRecords (h : m.Grounded) : CountsRecords m := by
  intro k
  cases hrec : m.registry.get k with
  | none => exact h.uncounted k hrec
  | some rec => exact h.counts k rec hrec

/-- **Counts are exact and pages are not shared**, whatever is called. -/
theorem countsRecords_along (ops : List Op) :
    Run.Along (step S) (fun m => CountsRecords m ∧ PagesApart m.pool) (init S) ops := by
  refine Run.along_iff_take.mpr fun n => ?_
  have h : (Run.exec (step S) (init S) (ops.take n)).Grounded :=
    Run.exec_of_invariant (fun _ op h => grounded_step op h) grounded_init _
  refine ⟨h.countsRecords, fun k => ⟨h.owned.distinct k, fun pid hpid => ⟨?_, fun k' hk => ?_⟩⟩⟩
  · obtain ⟨page, hPage⟩ := Option.isSome_iff_exists.mp (h.owned.present k pid hpid)
    exact ⟨page, hPage, h.owned.owner k pid hpid page hPage⟩
  · exact h.owned.not_mem_of_ne hk hpid

end KVManager

end Neuroswarm.Maks
