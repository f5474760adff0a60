import Neuroswarm.Kv.DedupIndex

/-!
# KV memory runtime — the content of an id never changes

Without `write_cow` — and the runtime manager never calls it — a physical id
stands for one content for good: `Contents sha g m` says that every live block
of `m` is stored under its own id, that its bytes are `g` of its id, and that
its record carries their hash.

Unlike `Inv`, it says nothing about sessions: a restored session can point to
ids that are not registered, and its logical table can be missing.

* `Contents.store`, `Contents.indexed` — the invariants it implies.
* `Evolves` and the `…_evolves` lemmas — every call keeps it, for a `g` that
  differs only on ids drawn by the call.
-/

namespace Neuroswarm.Kv

open KVBlockManager (releaseTiers deleteFromTiers)

-- ------ Records

/-- A record that stands under its own key and carries the hash of `g` of its id. -/
structure OwnRecord (sha : Sha256) (g : StableId → Bytes) (next : Nat) (p : StableId)
    (r : PhysicalBlockRecord) : Prop where
  key : r.providerKey = p
  hash : r.contentHash = contentHash sha (g p)
  refPos : 0 < r.refcount
  idLt : p.uuid < next

structure OwnRecords (sha : Sha256) (g : StableId → Bytes) (next : Nat)
    (t : PhysicalBlockTable) : Prop where
  agree : t.HashesAgree
  record : ∀ p r, t.get p = some r → OwnRecord sha g next p r

section

variable {sha : Sha256} {g g' : StableId → Bytes} {next next' : Nat} {t : PhysicalBlockTable}
  {p : StableId} {r r' : PhysicalBlockRecord}

theorem OwnRecord.mono (h : OwnRecord sha g next p r) (hg : ∀ p, p.uuid < next → g' p = g p)
    (hNext : next ≤ next') : OwnRecord sha g' next' p r where
  key := h.key
  hash := by rw [h.hash, hg p h.idLt]
  refPos := h.refPos
  idLt := Nat.lt_of_lt_of_le h.idLt hNext

namespace OwnRecords

theorem mono (h : OwnRecords sha g next t) (hg : ∀ p, p.uuid < next → g' p = g p)
    (hNext : next ≤ next') : OwnRecords sha g' next' t where
  agree := h.agree
  record p r hp := (h.record p r hp).mono hg hNext

theorem put (h : OwnRecords sha g next t) (hp : t.get p = some r)
    (hId : r'.physicalId = r.physicalId) (hKey : r'.providerKey = r.providerKey)
    (hHash : r'.contentHash = r.contentHash) (hRef : 0 < r'.refcount) :
    OwnRecords sha g next (t.put r') where
  agree := h.agree.put hp hId hHash
  record q s hq := by
    have hpid : r'.physicalId = p := by rw [hId, PhysicalBlockTable.get_physicalId hp]
    rw [PhysicalBlockTable.get_put, hpid] at hq
    split at hq
    · next hqp =>
      obtain rfl := Option.some.inj hq
      have hOld := h.record p r hp
      rw [hqp]
      exact ⟨hKey.trans hOld.key, hHash.trans hOld.hash, hRef, hOld.idLt⟩
    · exact h.record q s hq

theorem insert (h : OwnRecords sha g next t) (hNone : t.get r.physicalId = none)
    (hMiss : t.getByHash r.contentHash = none) (hr : OwnRecord sha g next r.physicalId r) :
    OwnRecords sha g next (t.insert r) where
  agree := h.agree.insert hNone hMiss
  record q s hq := by
    rw [PhysicalBlockTable.get_insert] at hq
    split at hq
    · next hqp =>
      obtain rfl := Option.some.inj hq
      rw [hqp]
      exact hr
    · exact h.record q s hq

theorem remove (h : OwnRecords sha g next t) (hp : t.get p = some r) :
    OwnRecords sha g next (t.remove r) where
  agree := h.agree.remove hp
  record q s hq := by
    rw [PhysicalBlockTable.get_remove] at hq
    split at hq
    · exact absurd hq (by simp)
    · exact h.record q s hq

theorem empty (sha : Sha256) (g : StableId → Bytes) (next : Nat) :
    OwnRecords sha g next .empty where
  agree := PhysicalBlockTable.hashesAgree_empty
  record p r hp := by simp at hp

theorem getByHash_ne_none (h : OwnRecords sha g next t) (hp : t.get p ≠ none) :
    t.getByHash (contentHash sha (g p)) ≠ none := by
  obtain ⟨r, hr⟩ := Option.ne_none_iff_exists'.mp hp
  rw [← (h.record p r hr).hash, h.agree.getByHash_of_get hr]
  simp

end OwnRecords

end

-- ------ Bytes

/-- Every live block has the bytes `g` of its id, in its tier, under its id. -/
structure Contents (sha : Sha256) (g : StableId → Bytes) (m : KVBlockManager) : Prop where
  l1 : m.providers.online .l1Ram = true
  registered : ∀ tier, m.providers.online tier = true → tier ∈ releaseTiers
  contentLt : ∀ tier k, m.nextUuid ≤ k.uuid → m.providers.content tier k = none
  table : OwnRecords sha g m.nextUuid m.physical
  bytes : ∀ p r, m.physical.get p = some r →
    m.providers.online r.tier = true ∧ m.providers.content r.tier p = some (g p)

namespace Contents

variable {sha : Sha256} {g g' : StableId → Bytes} {m m' : KVBlockManager}

theorem store (h : Contents sha g m) : StoreInv m.providers m.physical m.nextUuid where
  l1 := h.l1
  registered := h.registered
  idLt p r hp := by
    obtain ⟨hKey, -, -, hLt⟩ := h.table.record p r hp
    exact ⟨hLt, hKey ▸ hLt⟩
  refPos p r hp := (h.table.record p r hp).refPos
  contentLt := h.contentLt
  keyInj p q r s hp hq hEq := by
    rw [(h.table.record p r hp).key, (h.table.record q s hq).key] at hEq
    exact hEq
  ownKey p q r s hp _ hEq := by rw [← hEq, (h.table.record p r hp).key]
  stored p r hp := by
    obtain ⟨hOn, hBytes⟩ := h.bytes p r hp
    refine ⟨hOn, ?_⟩
    rw [(h.table.record p r hp).key, hBytes]
    simp

theorem readPayload (h : Contents sha g m) {p : StableId} {r : PhysicalBlockRecord}
    (hp : m.physical.get p = some r) (now : Time) : (m.readPayload p now).1 = .ok (g p) := by
  rcases readPayload_cases h.store p now with ⟨hNone, -⟩ | ⟨r', data, hp', hData, hEq⟩
  · rw [hp] at hNone
    exact absurd hNone (by simp)
  · obtain rfl := Option.some.inj (hp.symm.trans hp')
    rw [(h.table.record p r hp).key, (h.bytes p r hp).2] at hData
    rw [hEq, ← Option.some.inj hData]

theorem readPayload_none {m : KVBlockManager} {p : StableId} (hp : m.physical.get p = none)
    (now : Time) : (m.readPayload p now).1 = .error (.unknownBlock p) := by
  rw [KVBlockManager.readPayload, hp]

theorem mono (h : Contents sha g m) (hg : ∀ p, p.uuid < m.nextUuid → g' p = g p)
    (hProv : m'.providers = m.providers) (hPhys : m'.physical = m.physical)
    (hNext : m.nextUuid ≤ m'.nextUuid) : Contents sha g' m' where
  l1 := hProv ▸ h.l1
  registered := hProv ▸ h.registered
  contentLt tier k hk := by
    rw [hProv]
    exact h.contentLt tier k (by omega)
  table := by
    rw [hPhys]
    exact h.table.mono hg hNext
  bytes p r hp := by
    rw [hPhys] at hp
    rw [hProv, hg p (h.table.record p r hp).idLt]
    exact h.bytes p r hp

/-- A live record is rewritten, and its bytes are in the tier it names. -/
theorem update (h : Contents sha g m) {p : StableId} {r r' : PhysicalBlockRecord}
    (hp : m.physical.get p = some r) (hPhys : m'.physical = m.physical.put r')
    (hId : r'.physicalId = r.physicalId) (hKey : r'.providerKey = r.providerKey)
    (hHash : r'.contentHash = r.contentHash) (hRef : 0 < r'.refcount)
    (hOn : ∀ tier, m'.providers.online tier = m.providers.online tier)
    (hContent : ∀ tier k, k ≠ p → m'.providers.content tier k = m.providers.content tier k)
    (hStored : m.providers.online r'.tier = true ∧ m'.providers.content r'.tier p = some (g p))
    (hNext : m'.nextUuid = m.nextUuid) : Contents sha g m' where
  l1 := by rw [hOn]; exact h.l1
  registered tier := by rw [hOn]; exact h.registered tier
  contentLt tier k hk := by
    have hne : k ≠ p := by
      rintro rfl
      have := (h.table.record k r hp).idLt
      omega
    rw [hContent tier k hne]
    exact h.contentLt tier k (by omega)
  table := by
    rw [hPhys, hNext]
    exact h.table.put hp hId hKey hHash hRef
  bytes q s hq := by
    rw [hPhys, PhysicalBlockTable.get_put, hId, PhysicalBlockTable.get_physicalId hp] at hq
    split at hq
    · next hqp =>
      obtain rfl := Option.some.inj hq
      rw [hOn, hqp]
      exact hStored
    · next hne =>
      rw [hOn, hContent _ _ hne]
      exact h.bytes q s hq

theorem restamp (h : Contents sha g m) {p : StableId} {r r' : PhysicalBlockRecord}
    (hp : m.physical.get p = some r) (hPhys : m'.physical = m.physical.put r')
    (hId : r'.physicalId = r.physicalId) (hKey : r'.providerKey = r.providerKey)
    (hHash : r'.contentHash = r.contentHash) (hTier : r'.tier = r.tier) (hRef : 0 < r'.refcount)
    (hProv : m'.providers = m.providers)
    (hNext : m'.nextUuid = m.nextUuid) : Contents sha g m' :=
  h.update hp hPhys hId hKey hHash hRef (fun _ => by rw [hProv]) (fun _ _ _ => by rw [hProv])
    (by rw [hTier, hProv]; exact h.bytes p r hp) hNext

theorem enroll (h : Contents sha g m) {r : PhysicalBlockRecord} {payload : Bytes}
    (hPut : m.providers.put r.tier r.physicalId payload = .ok m'.providers)
    (hPhys : m'.physical = m.physical.insert r)
    (hUuid : r.physicalId.uuid = m.nextUuid) (hNext : m.nextUuid < m'.nextUuid)
    (hMiss : m.physical.getByHash r.contentHash = none) (hKey : r.providerKey = r.physicalId)
    (hHash : r.contentHash = contentHash sha payload) (hRef : 0 < r.refcount) :
    Contents sha (Function.update g r.physicalId payload) m' := by
  obtain ⟨hTier, hOn, hContent⟩ := ProviderRegistry.put_spec hPut
  have hOld : ∀ p, p.uuid < m.nextUuid → Function.update g r.physicalId payload p = g p := by
    intro p hLt
    refine Function.update_of_ne ?_ ..
    rintro rfl
    omega
  constructor
  · rw [hOn]
    exact h.l1
  · intro tier
    rw [hOn]
    exact h.registered tier
  · intro tier k hk
    have hne : k ≠ r.physicalId := by
      rintro rfl
      omega
    rw [hContent, if_neg fun hEq => hne hEq.2]
    exact h.contentLt tier k (by omega)
  · rw [hPhys]
    exact (h.table.mono hOld (Nat.le_of_lt hNext)).insert
      (h.store.get_none (by omega)) hMiss
      ⟨hKey, by rw [Function.update_self]; exact hHash, hRef, by omega⟩
  · intro p s hp
    rw [hPhys, PhysicalBlockTable.get_insert] at hp
    rw [hOn, hContent]
    split at hp
    · next hEq =>
      obtain rfl := Option.some.inj hp
      rw [hEq, if_pos ⟨rfl, rfl⟩, Function.update_self]
      exact ⟨hTier, rfl⟩
    · next hne =>
      rw [if_neg fun hEq => hne hEq.2, hOld p (h.table.record p s hp).idLt]
      exact h.bytes p s hp

theorem sweep (h : Contents sha g m) {p : StableId} (hp : m.physical.get p = none)
    (hPhys : m'.physical = m.physical)
    (hProv : m'.providers = deleteFromTiers p releaseTiers m.providers)
    (hNext : m'.nextUuid = m.nextUuid) : Contents sha g m' where
  l1 := by rw [hProv, deleteFromTiers_online]; exact h.l1
  registered tier := by rw [hProv, deleteFromTiers_online]; exact h.registered tier
  contentLt tier k hk := by
    rw [hProv]
    rw [hNext] at hk
    by_cases hEq : k = p
    · subst hEq
      exact deleteFromTiers_content_none (h.contentLt tier k hk)
    · rw [deleteFromTiers_content_ne hEq]
      exact h.contentLt tier k hk
  table := by
    rw [hPhys, hNext]
    exact h.table
  bytes q s hq := by
    rw [hPhys] at hq
    have hne : q ≠ p := by
      rintro rfl
      rw [hp] at hq
      exact absurd hq (by simp)
    rw [hProv, deleteFromTiers_online, deleteFromTiers_content_ne hne]
    exact h.bytes q s hq

theorem drop (h : Contents sha g m) {p : StableId} {r : PhysicalBlockRecord}
    (hp : m.physical.get p = some r) (hPhys : m'.physical = m.physical.remove r)
    (hProv : m'.providers = deleteFromTiers p releaseTiers m.providers)
    (hNext : m'.nextUuid = m.nextUuid) : Contents sha g m' := by
  have hGet : ∀ q, (m.physical.remove r).get q = if q = p then none else m.physical.get q := by
    intro q
    rw [PhysicalBlockTable.get_remove, PhysicalBlockTable.get_physicalId hp]
  have hRemoved : Contents sha g { m with physical := m.physical.remove r } :=
    { h with
      table := h.table.remove hp
      bytes := fun q s hq => by
        rw [hGet] at hq
        split at hq
        · cases hq
        · exact h.bytes q s hq }
  exact hRemoved.sweep ((hGet p).trans (if_pos rfl)) hPhys hProv hNext

theorem new (sha : Sha256) (g : StableId → Bytes) (cfg : KvConfig) :
    Contents sha g (.new cfg) where
  l1 := buildDefaultProviders_online _
  registered := (StoreInv.new cfg).registered
  contentLt tier k _ := buildDefaultProviders_content _ tier k
  table := .empty sha g 0
  bytes p r hp := by simp [KVBlockManager.new] at hp

end Contents

-- ------ The calls

/-- A call leads from `m` to `m'`: the ids that were drawn before keep their
content. -/
def Evolves (sha : Sha256) (g : StableId → Bytes) (m m' : KVBlockManager) : Prop :=
  m.nextUuid ≤ m'.nextUuid ∧
    ∃ g', Contents sha g' m' ∧ ∀ p, p.uuid < m.nextUuid → g' p = g p

section

variable {sha : Sha256} {g : StableId → Bytes} {m m₁ m' : KVBlockManager}

theorem Contents.evolves (h : Contents sha g m') (hNext : m.nextUuid ≤ m'.nextUuid) :
    Evolves sha g m m' :=
  ⟨hNext, g, h, fun _ _ => rfl⟩

theorem createSession_evolves (h : Contents sha g m) (key agentId : String) (now : Time) :
    Contents sha g (m.createSession key agentId now).2 := by
  unfold KVBlockManager.createSession
  split
  · exact h
  · exact h.mono (fun _ _ => rfl) rfl rfl (Nat.le_refl _)

theorem attachLogical_frame {key : String} {rec : PhysicalBlockRecord}
    {layer head tokenStart tokenEnd : Int} {prefixHash : String} {now : Time} {priority : Int}
    {b : Block}
    (h : m.attachLogical key rec layer head tokenStart tokenEnd prefixHash now priority =
      some (b, m')) :
    m'.providers = m.providers ∧ m'.physical = m.physical ∧ m'.nextUuid = m.nextUuid + 1 := by
  unfold KVBlockManager.attachLogical at h
  cases hs : m.sessions.get? key with
  | none => simp [hs] at h
  | some s =>
    cases hl : m.logicalTables.get? s.sessionId with
    | none => simp [hs, hl] at h
    | some l =>
      simp only [hs, hl, KVBlockManager.stableId, Option.bind_eq_bind, Option.bind_some,
        Option.pure_def, Option.some.injEq, Prod.mk.injEq] at h
      obtain ⟨-, rfl⟩ := h
      exact ⟨rfl, rfl, rfl⟩

theorem Contents.acquire (h : Contents sha g m) {p : StableId} {r : PhysicalBlockRecord}
    (hr : m.physical.get p = some r) :
    Contents sha g
      { m with physical := m.physical.put { r with refcount := r.refcount + 1 } } :=
  h.restamp hr rfl rfl rfl rfl rfl (Nat.succ_pos _) rfl rfl

theorem allocateHit_contents (h : Contents sha g m) (req : AllocateRequest)
    {r : PhysicalBlockRecord} (hr : m.physical.get r.physicalId = some r) (now : Time) :
    Contents sha g (m.allocateHit sha req r now).2 ∧
      m.nextUuid ≤ (m.allocateHit sha req r now).2.nextUuid := by
  have hAcq := h.acquire hr
  unfold KVBlockManager.allocateHit
  rw [PhysicalBlockTable.acquire_of_get hr]
  dsimp only
  split
  · exact ⟨hAcq, Nat.le_refl _⟩
  · next hAttach =>
    obtain ⟨hProv, hPhys, hNext⟩ := attachLogical_frame hAttach
    have hLe := Nat.le_trans (Nat.le_succ _) (Nat.le_of_eq hNext.symm)
    exact ⟨hAcq.mono (fun _ _ => rfl) hProv hPhys hLe, hLe⟩

theorem allocateAttach_frame (sha : Sha256) (m : KVBlockManager) (req : AllocateRequest)
    (rec : PhysicalBlockRecord) (now : Time) :
    (m.allocateAttach sha req rec now).2.providers = m.providers ∧
      (m.allocateAttach sha req rec now).2.physical = m.physical ∧
      m.nextUuid ≤ (m.allocateAttach sha req rec now).2.nextUuid := by
  unfold KVBlockManager.allocateAttach
  dsimp only
  split
  · exact ⟨rfl, rfl, Nat.le_refl _⟩
  · next hAttach =>
    obtain ⟨hProv, hPhys, hNext⟩ := attachLogical_frame hAttach
    exact ⟨hProv, hPhys, Nat.le_trans (Nat.le_succ _) (Nat.le_of_eq hNext.symm)⟩

theorem allocateFresh_evolves (h : Contents sha g m) (req : AllocateRequest)
    (hMiss : m.physical.getByHash (contentHash sha req.payload) = none) (now : Time) :
    Evolves sha g m (m.allocateFresh sha req now).2 := by
  obtain ⟨providers, hPut⟩ := ProviderRegistry.put_ok h.l1 ⟨.phys, m.nextUuid⟩ req.payload
  let r := m.freshRecord sha req ⟨.phys, m.nextUuid⟩ now
  -- the manager that has the bytes and the record
  let m₂ : KVBlockManager :=
    { m with
      nextUuid := m.nextUuid + 1
      providers
      physical := m.physical.insert r
      dedup := { m.dedup with lookups := m.dedup.lookups + 1 } }
  have hEq : m.allocateFresh sha req now = m₂.allocateAttach sha req r now :=
    allocateFresh_of_none hMiss hPut now
  obtain ⟨hProv, hPhys, hNext⟩ := allocateAttach_frame sha m₂ req r now
  have hLt : m.nextUuid < (m₂.allocateAttach sha req r now).2.nextUuid :=
    Nat.lt_of_lt_of_le (Nat.lt_succ_self _) hNext
  rw [hEq]
  have hStored : m.providers.put r.tier r.physicalId req.payload =
      .ok (m₂.allocateAttach sha req r now).2.providers := by
    rw [hProv]
    exact hPut
  refine ⟨Nat.le_of_lt hLt, _, h.enroll hStored hPhys rfl hLt hMiss rfl rfl (Nat.succ_pos _),
    fun p hp => ?_⟩
  refine Function.update_of_ne ?_ ..
  rintro rfl
  exact Nat.lt_irrefl _ hp

theorem allocate_evolves (h : Contents sha g m) (req : AllocateRequest) (now : Time) :
    Evolves sha g m (m.allocate sha req now).2 := by
  have hOpen := createSession_evolves h req.sessionId req.agentId now
  have hNext : m.nextUuid = (m.createSession req.sessionId req.agentId now).2.nextUuid := by
    unfold KVBlockManager.createSession
    split <;> rfl
  unfold KVBlockManager.allocate
  dsimp only
  generalize (m.createSession req.sessionId req.agentId now).2 = m₀ at hOpen hNext ⊢
  unfold KVBlockManager.find
  cases hHash : m₀.physical.getByHash (contentHash sha req.payload) with
  | some r =>
    obtain ⟨-, hr⟩ := PhysicalBlockTable.getByHash_eq_some.mp hHash
    dsimp only
    obtain ⟨hHit, hLe⟩ := allocateHit_contents (m := { m₀ with
      dedup := ⟨m₀.dedup.lookups + 1, m₀.dedup.hits + 1⟩ })
      (hOpen.mono (fun _ _ => rfl) rfl rfl (Nat.le_refl _)) req hr now
    exact hHit.evolves (hNext ▸ hLe)
  | none =>
    dsimp only
    have hMiss := allocateFresh_evolves (m := { m₀ with
      dedup := { m₀.dedup with lookups := m₀.dedup.lookups + 1 } })
      (hOpen.mono (fun _ _ => rfl) rfl rfl (Nat.le_refl _)) req hHash now
    unfold Evolves
    rw [hNext]
    exact hMiss

theorem reuseLoop_contents (key : String) (now : Time) (pids : List StableId) (out : List Block)
    (h : Contents sha g m) :
    Contents sha g (KVBlockManager.reuseLoop key now pids out m).2 ∧
      m.nextUuid ≤ (KVBlockManager.reuseLoop key now pids out m).2.nextUuid := by
  induction pids generalizing out m with
  | nil => exact ⟨h, Nat.le_refl _⟩
  | cons pid rest ih =>
    rw [KVBlockManager.reuseLoop]
    cases hr : m.physical.get pid with
    | none => exact ⟨h, Nat.le_refl _⟩
    | some r =>
      have hAcq := h.acquire hr
      dsimp only
      rw [PhysicalBlockTable.acquire_of_get hr]
      dsimp only
      split
      · exact ⟨hAcq, Nat.le_refl _⟩
      · next hAttach =>
        obtain ⟨hProv, hPhys, hNext⟩ := attachLogical_frame hAttach
        have hLe := Nat.le_trans (Nat.le_succ _) (Nat.le_of_eq hNext.symm)
        obtain ⟨hRest, hLe'⟩ := ih _ (hAcq.mono (fun _ _ => rfl) hProv hPhys hLe)
        exact ⟨hRest, Nat.le_trans hLe hLe'⟩

theorem releaseBlock_contents (h : Contents sha g m) (p : StableId) :
    Contents sha g (m.releaseBlock p) := by
  cases hp : m.physical.get p with
  | none =>
    have hEq : m.releaseBlock p =
        { m with providers := deleteFromTiers p releaseTiers m.providers } := by
      unfold KVBlockManager.releaseBlock PhysicalBlockTable.release
      simp [hp]
    rw [hEq]
    exact h.sweep hp rfl rfl rfl
  | some r =>
    have hPos := (h.table.record p r hp).refPos
    rcases Nat.lt_or_ge 1 r.refcount with hShared | hLast
    · rw [KVBlockManager.releaseBlock_shared hp hShared]
      exact h.restamp hp rfl rfl rfl rfl rfl (Nat.sub_pos_of_lt hShared) rfl rfl
    · rw [KVBlockManager.releaseBlock_last hp (by omega)]
      exact h.drop hp rfl rfl rfl

theorem releaseSession_contents (h : Contents sha g m) (key : String) :
    Contents sha g (m.releaseSession key) ∧ (m.releaseSession key).nextUuid = m.nextUuid := by
  have hFold : ∀ (ids : List StableId) (m : KVBlockManager), Contents sha g m →
      Contents sha g (ids.foldl KVBlockManager.releaseBlock m) := by
    intro ids
    induction ids with
    | nil => exact fun m h => h
    | cons p rest ih => exact fun m h => ih _ (releaseBlock_contents h p)
  have hPop : Contents sha g (m.popSession key) :=
    h.mono (fun _ _ => rfl) rfl rfl (Nat.le_refl _)
  cases hs : m.sessions.get? key with
  | none =>
    rw [KVBlockManager.releaseSession_of_none hs]
    exact ⟨hPop, rfl⟩
  | some s =>
    rw [KVBlockManager.releaseSession_of_some hs]
    exact ⟨hFold _ _ hPop, (foldl_releaseBlock_frame ..).2.2.2⟩

theorem readPayload_contents (h : Contents sha g m) (p : StableId) (now : Time) :
    Contents sha g (m.readPayload p now).2 ∧ (m.readPayload p now).2.nextUuid = m.nextUuid := by
  rcases readPayload_cases h.store p now with ⟨-, hEq⟩ | ⟨r, data, hp, -, hEq⟩
  · rw [hEq]
    exact ⟨h, rfl⟩
  · rw [hEq]
    exact ⟨h.restamp hp rfl rfl rfl rfl rfl (h.table.record p r hp).refPos rfl rfl, rfl⟩

theorem migrateBlock_contents (h : Contents sha g m) (policy : TieringPolicy) (p : StableId)
    (target : StorageTier) (now : Time) :
    Contents sha g (m.migrateBlock policy p target now).2 ∧
      (m.migrateBlock policy p target now).2.nextUuid = m.nextUuid := by
  rcases migrateBlock_cases h.store policy p target now with
    hEq | ⟨r, data, reg₁, reg₂, r', hp, hTier, hData, hPut, hDel, hr', hEq⟩
  · rw [hEq]
    exact ⟨h, rfl⟩
  · obtain ⟨hTarget, hOn₁, -⟩ := ProviderRegistry.put_spec hPut
    obtain ⟨hOn₂, -⟩ := ProviderRegistry.delete_spec hDel
    have hKey := (h.table.record p r hp).key
    rw [hKey] at hData hPut hDel
    obtain rfl := Option.some.inj ((h.bytes p r hp).2.symm.trans hData)
    rw [hEq]
    subst hr'
    refine ⟨h.update hp rfl rfl rfl rfl (h.table.record p r hp).refPos ?_ ?_ ⟨hTarget, ?_⟩ rfl,
      rfl⟩
    · intro tier
      exact (hOn₂ tier).trans (hOn₁ tier)
    · intro tier k hk
      exact ProviderRegistry.moved_content_ne hPut hDel hk tier
    · exact ProviderRegistry.moved_content_self hPut hDel hTier

/-- The call is not a `write_cow`. -/
def Op.KeepsBytes : Op → Prop
  | .writeCow _ _ => False
  | _ => True

theorem step_evolves (h : Contents sha g m) {op : Op} (hOp : op.KeepsBytes) :
    Evolves sha g m (step sha m op) := by
  have hCreate : ∀ key agentId now,
      (m.createSession key agentId now).2.nextUuid = m.nextUuid := by
    intro key agentId now
    unfold KVBlockManager.createSession
    split <;> rfl
  cases op with
  | createSession key agentId now =>
    exact (createSession_evolves h key agentId now).evolves (Nat.le_of_eq (hCreate ..).symm)
  | allocate req now => exact allocate_evolves h req now
  | reusePrefix key result agentId now =>
    obtain ⟨hLoop, hLe⟩ := reuseLoop_contents key now result.matchedBlocks []
      (createSession_evolves h key agentId now)
    rw [hCreate] at hLe
    exact hLoop.evolves hLe
  | releaseSession key =>
    obtain ⟨hRel, hEq⟩ := releaseSession_contents h key
    exact hRel.evolves (Nat.le_of_eq hEq.symm)
  | readPayload p now =>
    obtain ⟨hRead, hEq⟩ := readPayload_contents h p now
    exact hRead.evolves (Nat.le_of_eq hEq.symm)
  | writeCow p payload => exact hOp.elim
  | lookupPrefix blockPayloads =>
    exact Contents.evolves (h.mono (fun _ _ => rfl) rfl rfl (Nat.le_refl _)) (Nat.le_refl _)
  | migrateBlock policy p target now =>
    obtain ⟨hMig, hEq⟩ := migrateBlock_contents h policy p target now
    exact hMig.evolves (Nat.le_of_eq hEq.symm)

end

end Neuroswarm.Kv
