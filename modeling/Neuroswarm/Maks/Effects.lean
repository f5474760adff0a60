import Mathlib.Logic.Relation
import Neuroswarm.Maks.Manager

/-!
# MAKS — what each operation can do

One lemma per compound operation says how it can end and what it leaves; the
invariants are proved from these and never unfold an operation again.

* `migrate_cases` — a call that raises leaves all but the call counter of the
  backends; one that returns leaves `Migrated`.
* `pageTo_cases` — the same for the pager.
* `share_outcome`, `release_outcome`, `delete_outcome`, `store_outcome` — how each call ends.
* `edits_step` — the operations that only rewrite live blocks do so by a few kinds of edits.
* `relieveOne_relief` — a victim is paged out, demoted behind the pool's back,
  destroyed, or left.
* `allocateNew_outcome` — the allocating half of `create`.
-/

namespace Neuroswarm.Maks

open Neuroswarm.Kv (Bytes Time encode)

namespace KVManager

variable {S : Setup}

def returned {α : Type} : Except MAKSError α → Bool
  | .ok _ => true
  | .error _ => false

-- ------ Moving a block

variable {kvId : KvId}

theorem transfer_spec {b b' : Backends} {src dst : ProviderName} {r : Except MAKSError Unit}
    (h : transfer S b src dst kvId = (b', r)) :
    (∀ q k, k ≠ kvId → (b'.stores q).get? k = (b.stores q).get? k) ∧
    (r ≠ .ok () → b'.stores = b.stores) ∧
    (r = .ok () → src ≠ dst → (∀ be, S.providers dst = some be → be.Lossless) →
      b'.content S dst kvId = b.content S src kvId) := by
  unfold transfer at h
  rcases hl : b.load S src kvId with ⟨b₁, rl⟩
  obtain ⟨hLoad, hRead⟩ := Backends.load_spec hl
  rw [hl] at h
  cases rl with
  | error e =>
    cases h
    exact ⟨fun q k _ => by rw [hLoad], fun _ => hLoad, fun hr => by cases hr⟩
  | ok data =>
    dsimp only at h
    cases ha : Backends.allocate S dst kvId with
    | error e =>
      rw [ha] at h
      cases h
      exact ⟨fun q k _ => by rw [hLoad], fun _ => hLoad, fun hr => by cases hr⟩
    | ok loc =>
      rw [ha] at h
      dsimp only at h
      rcases hs : b₁.store S dst kvId data with ⟨b₂, rs⟩
      obtain ⟨hOther, hFail, hStored⟩ := Backends.store_spec hs
      rw [hs] at h
      cases rs with
      | error e =>
        cases h
        have hStores : b'.stores = b.stores := (hFail (by intro hr; cases hr)).trans hLoad
        exact ⟨fun q k _ => by rw [hStores], fun _ => hStores, fun hr => by cases hr⟩
      | ok u =>
        dsimp only at h
        cases h
        rcases hd : b₂.delete S src kvId with ⟨b₃, rd⟩
        have hGone := Backends.delete_spec hd
        refine ⟨?_, fun hr => absurd rfl hr, ?_⟩
        · intro q k hk
          rw [hGone q k (fun hqk => hk hqk.2), hOther q k (fun hqk => hk hqk.2), hLoad]
        · intro _ hne hL
          have hDst : (b₃.stores dst).get? kvId = (b₂.stores dst).get? kvId :=
            hGone dst kvId fun hqk => hne hqk.1.symm
          rw [Backends.content_congr hDst, hStored rfl hL, hRead data rfl]

/-- The record of a block that `migrate` put at `target`. -/
def placed (rec : KVRegistryRecord) (target : ProviderName) : KVRegistryRecord :=
  if rec.provider = target then rec else moved rec target

section placed

variable (rec : KVRegistryRecord) (target : ProviderName)

@[simp] theorem placed_kvId : (placed rec target).kvId = rec.kvId := by
  unfold placed; split <;> rfl

@[simp] theorem placed_provider : (placed rec target).provider = target := by
  unfold placed
  split
  · next h => exact h
  · rfl

@[simp] theorem placed_refcount : (placed rec target).refcount = rec.refcount := by
  unfold placed; split <;> rfl

@[simp] theorem placed_kvSize : (placed rec target).metadata.kvSize = rec.metadata.kvSize := by
  unfold placed; split <;> rfl

@[simp] theorem placed_compression :
    (placed rec target).metadata.compression = rec.metadata.compression := by
  unfold placed; split <;> rfl

@[simp] theorem placed_identity : (placed rec target).identity = rec.identity := by
  unfold placed; split <;> rfl

@[simp] theorem placed_ttlS : (placed rec target).ttlS = rec.ttlS := by
  unfold placed; split <;> rfl

end placed

/-- How `MigrationEngine.migrate` can end. -/
inductive EngineOutcome (S : Setup) (m : KVManager) (kvId : KvId) (target : Target) :
    KVManager × Except MAKSError Location → Prop where
  | failed (b : Backends) (e : MAKSError) (hb : b.stores = m.backends.stores) :
      EngineOutcome S m kvId target ({ m with backends := b }, .error e)
  | stayed (rec : KVRegistryRecord) (hrec : m.registry.get kvId = some rec)
      (ht : target.resolve = .ok rec.provider) :
      EngineOutcome S m kvId target (m, .ok rec.location)
  | moved (rec : KVRegistryRecord) (p : ProviderName) (b : Backends)
      (hrec : m.registry.get kvId = some rec) (ht : target.resolve = .ok p)
      (hp : rec.provider ≠ p) (hb : transfer S m.backends rec.provider p kvId = (b, .ok ())) :
      EngineOutcome S m kvId target
        ({ m with backends := b, registry := m.registry.upsert (moved rec p) }, .ok ⟨p, kvId⟩)

variable (m : KVManager)

theorem engineMigrate_outcome (kvId : KvId) (target : Target) :
    EngineOutcome S m kvId target (engineMigrate S m kvId target) := by
  unfold engineMigrate
  cases hrec : m.registry.get kvId with
  | none => exact .failed m.backends _ rfl
  | some rec =>
    dsimp only
    cases ht : target.resolve with
    | error e => exact .failed m.backends _ rfl
    | ok p =>
      dsimp only
      by_cases hp : rec.provider = p
      · rw [if_pos hp]
        exact .stayed rec hrec (by rw [ht, hp])
      · rw [if_neg hp]
        cases getProvider S rec.provider with
        | error e => exact .failed m.backends _ rfl
        | ok _ =>
          cases getProvider S p with
          | error e => exact .failed m.backends _ rfl
          | ok _ =>
            dsimp only
            rcases hb : transfer S m.backends rec.provider p kvId with ⟨b, rb⟩
            cases rb with
            | error e => exact .failed b e ((transfer_spec hb).2.1 (by intro hr; cases hr))
            | ok _ => exact .moved rec p b hrec ht hp hb

/-- Every page of the handle is at `p`; its counters are as they were. -/
def relocate (location : Location) (p : ProviderName) (page : PageMeta) : PageMeta :=
  { page with location := location, provider := p, tier := TierManager.tierForProvider p }

/-- What a `migrate` that returned leaves. -/
structure Migrated (S : Setup) (m : KVManager) (kvId : KvId) (p : ProviderName)
    (rec : KVRegistryRecord) (m' : KVManager) : Prop where
  found : m.registry.get kvId = some rec
  registry : ∀ k, m'.registry.get k =
    if k = kvId then some (KVRegistry.withState (placed rec p) .migrated) else m.registry.get k
  lifecycle : m'.lifecycle = LifecycleManager.tryTransition m.lifecycle kvId .migrated
  backends : (rec.provider = p ∧ m'.backends = m.backends) ∨
    (rec.provider ≠ p ∧ transfer S m.backends rec.provider p kvId = (m'.backends, .ok ()))
  owned : m.pool.Owned → m'.pool.Owned
  pages : m.pool.Owned → ∀ k, ∃ f : PageMeta → PageMeta,
    (∀ page, (f page).refcount = page.refcount) ∧ (k = kvId → ∀ page, (f page).provider = p) ∧
    (k ≠ kvId → f = id) ∧ m'.pool.pagesFor k = (m.pool.pagesFor k).map f
  refcount : m'.refcount = m.refcount
  dedup : m'.dedup = m.dedup
  handles : m'.handles = m.handles
  allocated : m'.allocated = m.allocated
  drawn : m'.drawn = m.drawn

variable {p : ProviderName}

theorem Migrated.setTier {m m' : KVManager} {rec : KVRegistryRecord}
    (h : Migrated S m kvId p rec m') (tier : KVTier) :
    Migrated S m kvId p rec { m' with pool := m'.pool.setTier kvId tier p } where
  found := h.found
  registry := h.registry
  lifecycle := h.lifecycle
  backends := h.backends
  owned hO := (h.owned hO).setTier kvId tier p
  pages hO k := by
    obtain ⟨f, hRef, hProv, hId, hPages⟩ := h.pages hO k
    unfold GlobalPagePool.setTier
    dsimp only
    rw [GlobalPagePool.pagesFor_forPages (h.owned hO), hPages]
    by_cases hk : k = kvId
    · refine ⟨fun page => { f page with tier := tier, provider := p }, hRef, fun _ _ => rfl,
        fun hne => absurd hk hne, ?_⟩
      rw [if_pos hk, List.map_map]
      rfl
    · exact ⟨f, hRef, fun hEq => absurd hEq hk, hId, if_neg hk⟩
  refcount := h.refcount
  dedup := h.dedup
  handles := h.handles
  allocated := h.allocated
  drawn := h.drawn

theorem migrated_of_engine {m m₁ : KVManager} {target : Target} {loc : Location}
    (ht : target.resolve = .ok p) (h : EngineOutcome S m kvId target (m₁, .ok loc)) :
    ∃ rec, Migrated S m kvId p rec
      { m₁.writeState kvId .migrated with
        pool := (m₁.pool.setLocation kvId loc p).setTier kvId (TierManager.tierForProvider p) p } := by
  -- the pages of the block are relocated, whether or not the block moves
  have hPages : ∀ k, m.pool.Owned → ∃ f : PageMeta → PageMeta,
      (∀ page, (f page).refcount = page.refcount) ∧ (k = kvId → ∀ page, (f page).provider = p) ∧
      (k ≠ kvId → f = id) ∧
      ((m.pool.setLocation kvId loc p).setTier kvId (TierManager.tierForProvider p) p).pagesFor k =
        (m.pool.pagesFor k).map f := by
    intro k hO
    have hO' : (m.pool.setLocation kvId loc p).Owned := hO.setLocation kvId loc p
    unfold GlobalPagePool.setTier
    rw [GlobalPagePool.pagesFor_forPages hO']
    unfold GlobalPagePool.setLocation
    rw [GlobalPagePool.pagesFor_forPages hO]
    by_cases hk : k = kvId
    · refine ⟨relocate loc p, fun _ => rfl, fun _ _ => rfl, fun hne => absurd hk hne, ?_⟩
      rw [if_pos hk, if_pos hk, List.map_map]
      rfl
    · refine ⟨id, fun _ => rfl, fun hEq => absurd hEq hk, fun _ => rfl, ?_⟩
      rw [if_neg hk, if_neg hk, List.map_id]
  have hOwned : m.pool.Owned →
      ((m.pool.setLocation kvId loc p).setTier kvId (TierManager.tierForProvider p) p).Owned :=
    fun hO => (hO.setLocation kvId loc p).setTier kvId _ p
  cases h with
  | stayed rec hrec hres =>
    have hp : rec.provider = p := Except.ok.inj (hres.symm.trans ht)
    refine ⟨rec, hrec, ?_, rfl, .inl ⟨hp, rfl⟩, hOwned, fun hO k => hPages k hO,
      rfl, rfl, rfl, rfl, rfl⟩
    intro k
    show (m.registry.setState kvId .migrated).get k = _
    rw [KVRegistry.get_setState]
    unfold placed
    rw [if_pos hp]
    by_cases hk : k = kvId
    · rw [if_pos hk, if_pos hk, hk, hrec]
      rfl
    · rw [if_neg hk, if_neg hk]
  -- the state is written over the record that the engine has put
  | moved rec q b hrec hres hq hb =>
    have hqp : q = p := Except.ok.inj (hres.symm.trans ht)
    subst hqp
    refine ⟨rec, hrec, ?_, rfl, .inr ⟨hq, hb⟩, hOwned, fun hO k => hPages k hO,
      rfl, rfl, rfl, rfl, rfl⟩
    intro k
    show ((m.registry.upsert (KVManager.moved rec q)).setState kvId .migrated).get k = _
    have hId : (KVManager.moved rec q).kvId = kvId :=
      show rec.kvId = kvId from KVRegistry.kvId_of_get hrec
    rw [KVRegistry.get_setState, KVRegistry.get_upsert, hId]
    unfold placed
    rw [if_neg hq]
    by_cases hk : k = kvId
    · rw [if_pos hk, if_pos hk, if_pos hk]
      rfl
    · rw [if_neg hk, if_neg hk, if_neg hk]

theorem migrate_cases (kvId : KvId) (target : Target) :
    (∃ b e, b.stores = m.backends.stores ∧
      migrate S m kvId target = ({ m with backends := b }, .error e)) ∨
    ∃ p rec m' loc, target.resolve = .ok p ∧ Migrated S m kvId p rec m' ∧
      migrate S m kvId target = (m', .ok loc) := by
  have h := engineMigrate_outcome (S := S) m kvId target
  unfold migrate
  rcases hEng : engineMigrate S m kvId target with ⟨m₁, r⟩
  rw [hEng] at h
  cases r with
  | error e =>
    cases h with
    | failed b _ hb => exact .inl ⟨b, e, hb, rfl⟩
  | ok loc =>
    dsimp only
    cases ht : target.resolve with
    | error e =>
      cases h with
      | stayed rec hrec hres => rw [hres] at ht; cases ht
      | moved rec q b hrec hres hq hb => rw [hres] at ht; cases ht
    | ok p =>
      obtain ⟨rec, hM⟩ := migrated_of_engine ht h
      exact .inr ⟨p, rec, _, loc, rfl, hM, rfl⟩

theorem pageTo_cases (kvId : KvId) (nxt : Option ProviderName) :
    (∃ b e, b.stores = m.backends.stores ∧
      pageTo S m kvId nxt = ({ m with backends := b }, .error e)) ∨
    pageTo S m kvId nxt = (m, .ok none) ∨
    ∃ p rec m' loc, Migrated S m kvId p rec m' ∧ pageTo S m kvId nxt = (m', .ok (some loc)) := by
  unfold pageTo
  cases nxt with
  | none => exact .inr (.inl rfl)
  | some p =>
    dsimp only
    rcases migrate_cases (S := S) m kvId (.name p) with ⟨b, e, hb, hEq⟩ | ⟨q, rec, m', loc, hq, hM, hEq⟩
    · rw [hEq]
      exact .inl ⟨b, e, hb, rfl⟩
    · rw [hEq]
      cases hq
      exact .inr (.inr ⟨p, rec, _, loc, hM.setTier _, rfl⟩)

theorem pageOut_cases (kvId : KvId) :
    (∃ b e, b.stores = m.backends.stores ∧
      pageOut S m kvId = ({ m with backends := b }, .error e)) ∨
    pageOut S m kvId = (m, .ok none) ∨
    ∃ p rec m' loc, Migrated S m kvId p rec m' ∧ pageOut S m kvId = (m', .ok (some loc)) := by
  unfold pageOut
  cases m.registry.get kvId with
  | none => exact .inr (.inl rfl)
  | some rec =>
    dsimp only
    split
    · exact .inr (.inl rfl)
    · exact pageTo_cases m kvId _

theorem pageIn_cases (kvId : KvId) :
    (∃ b e, b.stores = m.backends.stores ∧
      pageIn S m kvId = ({ m with backends := b }, .error e)) ∨
    pageIn S m kvId = (m, .ok none) ∨
    ∃ p rec m' loc, Migrated S m kvId p rec m' ∧ pageIn S m kvId = (m', .ok (some loc)) := by
  unfold pageIn
  cases m.registry.get kvId with
  | none => exact .inr (.inl rfl)
  | some rec => exact pageTo_cases m kvId _

-- ------ Neighbours

theorem coolerNeighbour_ne {cooler' : Bool} {q : ProviderName}
    (h : coolerNeighbour cooler' p = some q) : p ≠ q := by
  rintro rfl
  cases cooler' <;> cases p <;> cases h

/-- The engine's state when a block moved without the pool being told. -/
def movedBehind (m : KVManager) (rec : KVRegistryRecord) (p : ProviderName) (b : Backends) :
    KVManager :=
  { m with backends := b, registry := m.registry.upsert (moved rec p) }

theorem engine_neighbour {m m' : KVManager} {rec : KVRegistryRecord} {loc : Location}
    (hrec : m.registry.get kvId = some rec) (hp : rec.provider ≠ p)
    (h : engineMigrate S m kvId (.name p) = (m', .ok loc)) :
    ∃ b, transfer S m.backends rec.provider p kvId = (b, .ok ()) ∧
      m' = m.movedBehind rec p b := by
  have hOut := engineMigrate_outcome (S := S) m kvId (.name p)
  rw [h] at hOut
  cases hOut with
  | stayed rec' hrec' ht =>
    rw [hrec] at hrec'
    cases hrec'
    cases ht
    exact absurd rfl hp
  | moved rec' q b hrec' ht hq hb =>
    rw [hrec] at hrec'
    cases hrec'
    cases ht
    exact ⟨b, hb, rfl⟩

theorem engine_failed {m m' : KVManager} {target : Target} {e : MAKSError}
    (h : engineMigrate S m kvId target = (m', .error e)) :
    ∃ b, b.stores = m.backends.stores ∧ m' = { m with backends := b } := by
  have hOut := engineMigrate_outcome (S := S) m kvId target
  rw [h] at hOut
  cases hOut with
  | failed b _ hb => exact ⟨b, hb, rfl⟩

theorem demote_cases (kvId : KvId) :
    (∃ b e, b.stores = m.backends.stores ∧
      demote S m kvId = ({ m with backends := b }, .error e)) ∨
    demote S m kvId = (m, .ok none) ∨
    ∃ rec p b loc, m.registry.get kvId = some rec ∧ rec.provider ≠ p ∧
      transfer S m.backends rec.provider p kvId = (b, .ok ()) ∧
      demote S m kvId = (m.movedBehind rec p b, .ok (some loc)) := by
  unfold demote
  cases hrec : m.registry.get kvId with
  | none => exact .inr (.inl rfl)
  | some rec =>
    dsimp only
    by_cases hpin : rec.pinned = true
    · rw [if_pos hpin]
      exact .inr (.inl rfl)
    · rw [if_neg hpin]
      cases hn : coolerNeighbour true rec.provider with
      | none => exact .inr (.inl rfl)
      | some p =>
        dsimp only
        have hp := coolerNeighbour_ne hn
        rcases hEng : engineMigrate S m kvId (.name p) with ⟨m₁, r⟩
        cases r with
        | error e =>
          obtain ⟨b, hb, rfl⟩ := engine_failed hEng
          exact .inl ⟨b, e, hb, rfl⟩
        | ok loc =>
          obtain ⟨b, hb, rfl⟩ := engine_neighbour hrec hp hEng
          exact .inr (.inr ⟨rec, p, b, loc, rfl, hp, hb, rfl⟩)

theorem promote_cases (kvId : KvId) :
    (∃ b e, b.stores = m.backends.stores ∧
      promote S m kvId = ({ m with backends := b }, .error e)) ∨
    promote S m kvId = (m, .ok none) ∨
    ∃ rec p b loc, m.registry.get kvId = some rec ∧ rec.provider ≠ p ∧
      transfer S m.backends rec.provider p kvId = (b, .ok ()) ∧
      promote S m kvId = (m.movedBehind rec p b, .ok (some loc)) := by
  unfold promote
  cases hrec : m.registry.get kvId with
  | none => exact .inr (.inl rfl)
  | some rec =>
    dsimp only
    cases hn : coolerNeighbour false rec.provider with
    | none => exact .inr (.inl rfl)
    | some p =>
      dsimp only
      have hp := coolerNeighbour_ne hn
      rcases hEng : engineMigrate S m kvId (.name p) with ⟨m₁, r⟩
      cases r with
      | error e =>
        obtain ⟨b, hb, rfl⟩ := engine_failed hEng
        exact .inl ⟨b, e, hb, rfl⟩
      | ok loc =>
        obtain ⟨b, hb, rfl⟩ := engine_neighbour hrec hp hEng
        exact .inr (.inr ⟨rec, p, b, loc, rfl, hp, hb, rfl⟩)

-- ------ Sharing, releasing, deleting

/-- What `share` leaves and returns. -/
inductive ShareOutcome (S : Setup) (m : KVManager) (consumer : Name) :
    KvId → KVManager × Except MAKSError Unit → Prop where
  /-- the block is unknown, or its backend does not share -/
  | refused (kvId : KvId) (e : MAKSError) : ShareOutcome S m consumer kvId (m, .error e)
  | failed (kvId : KvId) (b : Backends) (e : MAKSError) (hb : b.stores = m.backends.stores) :
      ShareOutcome S m consumer kvId ({ m with backends := b }, .error e)
  | granted (rec : KVRegistryRecord) (b : Backends)
      (hrec : m.registry.get rec.kvId = some rec) (hb : b.stores = m.backends.stores) :
      ShareOutcome S m consumer rec.kvId (m.granted b rec consumer, .ok ())
  | moved (rec : KVRegistryRecord) (b : Backends)
      (hrec : m.registry.get rec.kvId = some rec) (hb : b.stores = m.backends.stores)
      (hFrom : m.lifecycle.get? rec.kvId = some .allocated ∨
        m.lifecycle.get? rec.kvId = some .warmed) :
      ShareOutcome S m consumer rec.kvId
        ((m.granted b rec consumer).writeState rec.kvId .shared, .ok ())

theorem share_outcome (kvId : KvId) (consumer : Name) :
    ShareOutcome S m consumer kvId (share S m kvId consumer) := by
  unfold share
  cases hrec : m.registry.get kvId with
  | none => exact .refused kvId _
  | some rec =>
    obtain rfl := KVRegistry.kvId_of_get hrec
    dsimp only
    split
    · rcases hb : m.backends.share S rec.provider with ⟨b, r⟩
      have hStores := Backends.share_stores hb
      cases r with
      | error e => exact .failed rec.kvId b e hStores
      | ok _ =>
        dsimp only
        split
        · next hFrom => exact .moved rec b hrec hStores hFrom
        · exact .granted rec b hrec hStores
    · exact .refused rec.kvId _

/-- What `release` leaves. -/
inductive ReleaseOutcome (m : KVManager) (agent : Name) : KvId → KVManager → Prop where
  | unknown (kvId : KvId) (hrec : m.registry.get kvId = none) : ReleaseOutcome m agent kvId m
  | dropped (rec : KVRegistryRecord) (hrec : m.registry.get rec.kvId = some rec) :
      ReleaseOutcome m agent rec.kvId (m.dropped rec agent)
  | released (rec : KVRegistryRecord) (hrec : m.registry.get rec.kvId = some rec) :
      ReleaseOutcome m agent rec.kvId ((m.dropped rec agent).writeState rec.kvId .released)

theorem release_outcome (kvId : KvId) (agent : Name) :
    ReleaseOutcome m agent kvId (m.release kvId agent) := by
  unfold release
  cases hrec : m.registry.get kvId with
  | none => exact .unknown kvId hrec
  | some rec =>
    obtain rfl := KVRegistry.kvId_of_get hrec
    dsimp only
    split
    · exact .released rec hrec
    · exact .dropped rec hrec

/-- What `delete` leaves. -/
inductive DeleteOutcome (S : Setup) (m : KVManager) : KvId → KVManager → Prop where
  /-- the block is unknown, or pinned -/
  | kept (kvId : KvId) : DeleteOutcome S m kvId m
  | destroyed (rec : KVRegistryRecord) (hrec : m.registry.get rec.kvId = some rec) :
      DeleteOutcome S m rec.kvId (destroy S m rec)

theorem delete_outcome (kvId : KvId) (force : Bool) :
    DeleteOutcome S m kvId (delete S m kvId force).1 := by
  unfold delete
  cases hrec : m.registry.get kvId with
  | none => exact .kept kvId
  | some rec =>
    obtain rfl := KVRegistry.kvId_of_get hrec
    dsimp only
    split
    · exact .kept rec.kvId
    · exact .destroyed rec hrec

-- ------ Relieving pressure

/-- What `relieve_pressure` does with one victim. -/
inductive ReliefKind where
  | left
  | pagedOut
  | demoted
  | destroyed
  deriving DecidableEq, Repr

variable (S) in
/-- The branch `relieveOne` takes. -/
def reliefKind (m : KVManager) (kvId : KvId) : ReliefKind :=
  match m.registry.get kvId with
  | none => .left
  | some rec =>
    if rec.pinned then .left
    else if rec.provider = .nvme then .destroyed
    else
      match pageOut S m kvId with
      | (_, .ok none) => .left
      | (_, .ok (some _)) => .pagedOut
      | (m, .error _) =>
        match (demote S m kvId).2 with
        | .ok none => .left
        | .ok (some _) => .demoted
        | .error _ => .destroyed

/-- What each branch leaves. -/
inductive Relief (S : Setup) (m : KVManager) (kvId : KvId) : ReliefKind → KVManager → Prop where
  | left (b : Backends) (hb : b.stores = m.backends.stores) :
      Relief S m kvId .left { m with backends := b }
  | pagedOut (p : ProviderName) (rec : KVRegistryRecord) (m' : KVManager)
      (hM : Migrated S m kvId p rec m') : Relief S m kvId .pagedOut m'
  | demoted (rec : KVRegistryRecord) (p : ProviderName) (b₀ b : Backends)
      (hb₀ : b₀.stores = m.backends.stores) (hrec : m.registry.get kvId = some rec)
      (hp : rec.provider ≠ p) (hb : transfer S b₀ rec.provider p kvId = (b, .ok ())) :
      Relief S m kvId .demoted (m.movedBehind rec p b)
  | destroyed (rec : KVRegistryRecord) (b : Backends) (hb : b.stores = m.backends.stores)
      (hrec : m.registry.get kvId = some rec) (hpin : rec.pinned = false) :
      Relief S m kvId .destroyed (destroy S { m with backends := b } rec)

theorem delete_unpinned {m : KVManager} {rec : KVRegistryRecord}
    (hrec : m.registry.get kvId = some rec) (hpin : rec.pinned = false) (force : Bool) :
    delete S m kvId force = (destroy S m rec, .ok ()) := by
  unfold delete
  rw [hrec]
  simp [hpin]

theorem relieveOne_relief (kvId : KvId) :
    Relief S m kvId (reliefKind S m kvId) (relieveOne S m kvId) := by
  unfold reliefKind relieveOne
  cases hrec : m.registry.get kvId with
  | none => exact .left m.backends rfl
  | some rec =>
    dsimp only
    by_cases hpin : rec.pinned = true
    · rw [if_pos hpin, if_pos hpin]
      exact .left m.backends rfl
    · rw [if_neg hpin, if_neg hpin]
      have hpin' : rec.pinned = false := Bool.eq_false_iff.mpr hpin
      by_cases hnv : rec.provider = .nvme
      · rw [if_pos hnv, if_pos hnv, delete_unpinned hrec hpin']
        exact .destroyed rec m.backends rfl hrec hpin'
      · rw [if_neg hnv, if_neg hnv]
        rcases pageOut_cases (S := S) m kvId with
          ⟨b, e, hb, hOut⟩ | hOut | ⟨p, rec', m', loc, hM, hOut⟩
        · -- the pager raised: the engine's demotion is tried, then the block is destroyed
          rw [hOut]
          dsimp only
          rcases demote_cases (S := S) { m with backends := b } kvId with
            ⟨b', e', hb', hDem⟩ | hDem | ⟨rec', p, b', loc, hrec', hp, ht, hDem⟩
          · rw [hDem]
            dsimp only
            rw [delete_unpinned (m := { m with backends := b' }) hrec hpin']
            exact .destroyed rec b' (hb'.trans hb) hrec hpin'
          · rw [hDem]
            exact .left b hb
          · rw [hDem]
            exact .demoted rec' p b b' hb hrec' hp ht
        · rw [hOut]
          exact .left m.backends rfl
        · rw [hOut]
          exact .pagedOut p rec' m' hM

theorem nodup_selectVictims (picked : List KvId) :
    (m.selectVictims picked).Nodup :=
  (List.nodup_dedup picked).filter _

-- ------ Creating

/-- How the allocating half of `create` can end. -/
inductive AllocateOutcome (S : Setup) (m : KVManager) (req : CreateRequest) :
    KVManager × Except MAKSError KVHandle → Prop where
  /-- It raised before the bytes were counted. -/
  | refused (e : MAKSError) :
      AllocateOutcome S m req ({ m with drawn := m.drawn + 1 }, .error e)
  /-- It raised after the bytes were counted. -/
  | leaked (e : MAKSError) (b : Backends) (dedup : DeduplicationEngine)
      (hb : ∀ q k, k ≠ ⟨m.drawn⟩ → (b.stores q).get? k = (m.backends.stores q).get? k)
      (hd : dedup = m.dedup ∨ ∃ e', registerDedup S m req ⟨m.drawn⟩ = (dedup, .error e')) :
      AllocateOutcome S m req
        ({ m with
            drawn := m.drawn + 1
            allocated := m.allocated + req.payload.length
            backends := b
            dedup := dedup }, .error e)
  | installed (p : ProviderName) (stored : Bytes) (b : Backends) (dedup : DeduplicationEngine)
      (dedupKey : String) (hpack : packPayload S req.payload = .ok stored)
      (hb : m.backends.store S p ⟨m.drawn⟩ stored = (b, .ok ()))
      (hd : registerDedup S m req ⟨m.drawn⟩ = (dedup, .ok dedupKey)) :
      AllocateOutcome S m req
        (install S
          { m with
            drawn := m.drawn + 1
            allocated := m.allocated + req.payload.length
            backends := b
            dedup := dedup } req ⟨m.drawn⟩ ⟨p, ⟨m.drawn⟩⟩ dedupKey,
          .ok { kvId := ⟨m.drawn⟩, provider := p, location := ⟨p, ⟨m.drawn⟩⟩ })

theorem allocate_location {location : Location} (h : Backends.allocate S p kvId = .ok location) :
    location = ⟨p, kvId⟩ := by
  unfold Backends.allocate at h
  cases hp : S.providers p with
  | none => rw [hp] at h; cases h
  | some be =>
    rw [hp] at h
    dsimp only at h
    split at h
    · exact (Except.ok.inj h).symm
    · cases h

theorem allocateNew_outcome (req : CreateRequest) :
    AllocateOutcome S m req (allocateNew S m req) := by
  unfold allocateNew
  dsimp only
  cases chooseProvider S { m with drawn := m.drawn + 1 } req.payload.length with
  | error e => exact .refused e
  | ok p =>
    dsimp only
    cases ha : Backends.allocate S p ⟨m.drawn⟩ with
    | error e => exact .refused e
    | ok location =>
      obtain rfl := allocate_location ha
      dsimp only
      cases hpack : packPayload S req.payload with
      | error e => exact .leaked e m.backends m.dedup (fun _ _ _ => rfl) (.inl rfl)
      | ok stored =>
        dsimp only
        rcases hb : m.backends.store S p ⟨m.drawn⟩ stored with ⟨b, rb⟩
        obtain ⟨hOther, hFail, -⟩ := Backends.store_spec hb
        cases rb with
        | error e =>
          exact .leaked e b m.dedup (fun q k hk => hOther q k fun hqk => hk hqk.2) (.inl rfl)
        | ok u =>
          dsimp only
          have hReg : registerDedup S
              { m with
                drawn := m.drawn + 1
                allocated := m.allocated + req.payload.length
                backends := b } req ⟨m.drawn⟩ = registerDedup S m req ⟨m.drawn⟩ := rfl
          rw [hReg]
          rcases hd : registerDedup S m req ⟨m.drawn⟩ with ⟨dedup, rd⟩
          cases rd with
          | error e =>
            exact .leaked e b dedup (fun q k hk => hOther q k fun hqk => hk hqk.2)
              (.inr ⟨e, hd⟩)
          | ok dedupKey => exact .installed p stored b dedup dedupKey hpack hb hd

def reused (m : KVManager) (rec : KVRegistryRecord) (req : CreateRequest) : KVRegistryRecord :=
  KVRegistry.touched
    { rec with refcount := ReferenceCounter.count (reuse m rec req).refcount rec.kvId }

theorem get_reuse (rec : KVRegistryRecord) (req : CreateRequest) (k : KvId) :
    (reuse m rec req).registry.get k =
      if k = rec.kvId then some (reused m rec req) else m.registry.get k := by
  unfold reuse
  dsimp only
  rw [KVRegistry.get_touch, KVRegistry.get_upsert]
  by_cases hk : k = rec.kvId
  · rw [if_pos hk, if_pos hk, if_pos hk, Option.map_some]
    rfl
  · rw [if_neg hk, if_neg hk, if_neg hk]

theorem place_cases (req : CreateRequest) :
    (∃ dedup ent rec,
      m.dedup.lookup S.hasher req.identity (req.dedupPrefix S) (req.contentHash S) =
        (dedup, some ent) ∧ req.canDedup S = true ∧
      m.registry.get ent.kvId = some rec ∧ req.identity.compatibleWith rec.identity = true ∧
      place S m req = (reuse { m with dedup := dedup } rec req,
        .ok { kvId := rec.kvId, provider := rec.provider, location := rec.location })) ∨
    ∃ dedup, (dedup = m.dedup ∨ dedup =
        (m.dedup.lookup S.hasher req.identity (req.dedupPrefix S) (req.contentHash S)).1) ∧
      place S m req = allocateNew S { m with dedup := dedup } req := by
  unfold place
  by_cases hc : req.canDedup S = true
  · rw [if_pos hc]
    rcases hl : m.dedup.lookup S.hasher req.identity (req.dedupPrefix S) (req.contentHash S) with
      ⟨dedup, found⟩
    dsimp only
    cases hr : reusable { m with dedup := dedup } req found with
    | none => exact .inr ⟨dedup, .inr rfl, rfl⟩
    | some rec =>
      unfold reusable at hr
      cases found with
      | none => cases hr
      | some ent =>
        dsimp only at hr
        obtain ⟨hrec, hcomp⟩ := Option.filter_eq_some_iff.mp hr
        exact .inl ⟨dedup, ent, rec, rfl, hc, hrec, hcomp, rfl⟩
  · rw [if_neg hc]
    exact .inr ⟨m.dedup, .inl rfl, rfl⟩

-- ------ Storing

/-- What `store` leaves and returns. -/
inductive StoreOutcome (S : Setup) (m : KVManager) (key : Name) (data : Bytes) (env : Env) :
    KVManager × Except MAKSError Unit → Prop where
  /-- the payload cannot be packed -/
  | refused (e : MAKSError) : StoreOutcome S m key data env (m, .error e)
  | failed (rec : KVRegistryRecord) (b : Backends) (e : MAKSError)
      (hFound : m.findBySession S key = some rec) (hb : b.stores = m.backends.stores) :
      StoreOutcome S m key data env ({ m with backends := b }, .error e)
  | overwritten (rec : KVRegistryRecord) (b : Backends) (stored : Bytes)
      (hFound : m.findBySession S key = some rec) (hpack : packPayload S data = .ok stored)
      (hb : m.backends.store S rec.provider rec.kvId stored = (b, .ok ())) :
      StoreOutcome S m key data env
        ({ m with backends := b, registry := m.registry.upsert (resized rec data) }, .ok ())
  | created (stored : Bytes) (r : Except MAKSError Unit)
      (hFound : m.findBySession S key = none) (hpack : packPayload S data = .ok stored) :
      StoreOutcome S m key data env
        ((create S m { payload := data, sessionId := key, agentId := key, env := env }).1, r)

theorem store_outcome (key : Name) (data : Bytes) (env : Env) :
    StoreOutcome S m key data env (store S m key data env) := by
  unfold store
  cases hpack : packPayload S data with
  | error e => exact .refused e
  | ok stored =>
    dsimp only
    cases hFound : m.findBySession S key with
    | some rec =>
      dsimp only
      rcases hb : m.backends.store S rec.provider rec.kvId stored with ⟨b, r⟩
      cases r with
      | error e => exact .failed rec b e hFound ((Backends.store_spec hb).2.1 nofun)
      | ok _ => exact .overwritten rec b stored hFound hpack hb
    | none =>
      have hCreated : ∀ r, StoreOutcome S m key data env
          ((create S m { payload := data, sessionId := key, agentId := key, env := env }).1, r) :=
        fun r => .created stored r hFound hpack
      dsimp only
      generalize create S m { payload := data, sessionId := key, agentId := key, env := env } = out
        at hCreated ⊢
      obtain ⟨m₁, r⟩ := out
      cases r with
      | error e => exact hCreated _
      | ok _ => exact hCreated _

-- ------ Edits of live blocks

/-- The operations that only edit live blocks. -/
def Op.EditsOnly (behind : Prop) : Op → Prop
  | .create _ | .store _ _ _ | .delete _ _ | .cleanup _ | .relievePressure _ => False
  | .warm _ => behind
  | _ => True

/-- One write of an operation that neither makes nor destroys a block; `behind` says whether a
block may be moved behind the pool's back. -/
inductive Edit (S : Setup) (behind : Prop) (m : KVManager) : KVManager → Prop where
  | backends (b : Backends) (hb : b.stores = m.backends.stores) :
      Edit S behind m { m with backends := b }
  | writeState (kvId : KvId) (s : KVState) : Edit S behind m (m.writeState kvId s)
  | setTier (kvId : KvId) (tier : KVTier) :
      Edit S behind m { m with registry := m.registry.setTier kvId tier }
  | granted (rec : KVRegistryRecord) (b : Backends) (consumer : Name)
      (hrec : m.registry.get rec.kvId = some rec) (hb : b.stores = m.backends.stores) :
      Edit S behind m (m.granted b rec consumer)
  | dropped (rec : KVRegistryRecord) (agent : Name) (hrec : m.registry.get rec.kvId = some rec) :
      Edit S behind m (m.dropped rec agent)
  | flagged (rec : KVRegistryRecord) (flag : Bool) (hrec : m.registry.get rec.kvId = some rec) :
      Edit S behind m (m.flagged rec flag)
  | migrated {kvId : KvId} {p : ProviderName} {rec : KVRegistryRecord} {m' : KVManager}
      (hM : Migrated S m kvId p rec m') : Edit S behind m m'
  | movedBehind {kvId : KvId} (rec : KVRegistryRecord) (p : ProviderName) (b : Backends)
      (hBehind : behind) (hrec : m.registry.get kvId = some rec) (hp : rec.provider ≠ p)
      (hb : transfer S m.backends rec.provider p kvId = (b, .ok ())) :
      Edit S behind m (m.movedBehind rec p b)

abbrev Edits (S : Setup) (behind : Prop) : KVManager → KVManager → Prop :=
  Relation.ReflTransGen (Edit S behind)

theorem edits_pageTo {behind : Prop} {out : KVManager × Except MAKSError (Option Location)}
    (h : (∃ b e, b.stores = m.backends.stores ∧ out = ({ m with backends := b }, .error e)) ∨
      out = (m, .ok none) ∨
      ∃ p rec m' loc, Migrated S m kvId p rec m' ∧ out = (m', .ok (some loc))) :
    Edits S behind m out.1 := by
  rcases h with ⟨b, e, hb, rfl⟩ | rfl | ⟨p, rec, m', loc, hM, rfl⟩
  · exact .single (.backends b hb)
  · exact .refl
  · exact .single (.migrated hM)

theorem edits_step {behind : Prop} (op : Op) (h : op.EditsOnly behind) :
    Edits S behind m (step S m op) := by
  cases op with
  | create req => cases h
  | store key data env => cases h
  | delete kvId force => cases h
  | cleanup now => cases h
  | relievePressure picked => cases h
  | share kvId consumer =>
    have hOutcome := share_outcome (S := S) m kvId consumer
    dsimp only [step]
    generalize share S m kvId consumer = out at hOutcome ⊢
    cases hOutcome with
    | refused _ e => exact .refl
    | failed _ b e hb => exact .single (.backends b hb)
    | granted rec b hrec hb => exact .single (.granted rec b consumer hrec hb)
    | moved rec b hrec hb _ =>
      exact .tail (.single (.granted rec b consumer hrec hb)) (.writeState _ _)
  | release kvId agent =>
    have hOutcome := release_outcome m kvId agent
    dsimp only [step]
    generalize m.release kvId agent = m' at hOutcome ⊢
    cases hOutcome with
    | unknown _ _ => exact .refl
    | dropped rec hrec => exact .single (.dropped rec agent hrec)
    | released rec hrec => exact .tail (.single (.dropped rec agent hrec)) (.writeState _ _)
  | migrate kvId target =>
    dsimp only [step]
    rcases migrate_cases (S := S) m kvId target with
      ⟨b, e, hb, hEq⟩ | ⟨p, rec, m', loc, -, hM, hEq⟩
    · rw [hEq]
      exact .single (.backends b hb)
    · rw [hEq]
      exact .single (.migrated hM)
  | pin kvId =>
    dsimp only [step]
    unfold pin
    cases hrec : m.registry.get kvId with
    | none => exact .refl
    | some rec =>
      obtain rfl := KVRegistry.kvId_of_get hrec
      exact .tail (.single (.flagged rec true hrec)) (.writeState _ _)
  | unpin kvId =>
    dsimp only [step]
    unfold unpin
    cases hrec : m.registry.get kvId with
    | none => exact .refl
    | some rec =>
      obtain rfl := KVRegistry.kvId_of_get hrec
      exact .tail (.single (.flagged rec false hrec)) (.writeState _ _)
  | warm kvId =>
    dsimp only [step]
    unfold warm
    cases m.registry.get kvId with
    | none => exact .refl
    | some rec =>
      have hPromote : Edits S behind m
          (if rec.provider = .ram then m else (promote S m kvId).1) := by
        split
        · exact .refl
        · rcases promote_cases (S := S) m kvId with
            ⟨b, e, hb, hEq⟩ | hEq | ⟨rec', p, b, loc, hrec', hp, hb, hEq⟩
          · rw [hEq]
            exact .single (.backends b hb)
          · rw [hEq]
          · rw [hEq]
            exact .single (.movedBehind rec' p b h hrec' hp hb)
      exact .tail (.tail hPromote (.writeState _ _)) (.setTier kvId .hot)
  | cold kvId =>
    dsimp only [step]
    unfold cold
    cases m.registry.get kvId with
    | none => exact .refl
    | some rec =>
      dsimp only
      split
      · exact .refl
      · exact .single (.setTier kvId .cold)
  | pageOut kvId => exact edits_pageTo m (pageOut_cases m kvId)
  | pageIn kvId => exact edits_pageTo m (pageIn_cases m kvId)

end KVManager

end Neuroswarm.Maks
