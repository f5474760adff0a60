import Neuroswarm.Kv.Frame

/-!
# KV memory runtime — the dedup index

The content of a block stands in three places: the hash index, the hash in its
record, and its bytes. `Indexed` says that the three agree. Every call keeps it
except a write in place that changes the content: it rewrites the record and
the bytes, and leaves the index on the old hash.

* `Indexed.update`, `Indexed.insert`, `Indexed.drop` — the three ways a call
  changes the store keep the index.
* `dedupSound_along_iff` — the index is sound throughout a run, and every
  allocation reads back its payload, iff no write in place changes a hash.
-/

namespace Neuroswarm.Kv

open Run (exec Along Every)
open KVBlockManager (releaseTiers deleteFromTiers)

structure Indexed (sha : Sha256) (reg : ProviderRegistry) (t : PhysicalBlockTable) : Prop where
  agree : t.HashesAgree
  /-- The bytes of a record have the record's hash. -/
  bytes : ∀ p r, t.get p = some r →
    ∃ data, reg.content r.tier r.providerKey = some data ∧ contentHash sha data = r.contentHash

namespace Indexed

variable {sha : Sha256} {reg reg' : ProviderRegistry} {t : PhysicalBlockTable} {next : Nat}

variable {r : PhysicalBlockRecord}

theorem update (h : Indexed sha reg t) (hStore : StoreInv reg t next) {p : StableId}
    {r' : PhysicalBlockRecord} (hp : t.get p = some r) (hId : r'.physicalId = r.physicalId)
    (hHash : r'.contentHash = r.contentHash)
    (hContent : ∀ tier k, k ≠ r.providerKey → reg'.content tier k = reg.content tier k)
    (hBytes : ∃ data, reg'.content r'.tier r'.providerKey = some data ∧
      contentHash sha data = r'.contentHash) :
    Indexed sha reg' (t.put r') := by
  have hpid : r'.physicalId = p := by rw [hId, PhysicalBlockTable.get_physicalId hp]
  constructor
  · exact h.agree.put hp hId hHash
  · intro q s hq
    rw [PhysicalBlockTable.get_put, hpid] at hq
    split at hq
    · obtain rfl := Option.some.inj hq
      exact hBytes
    · next hne =>
      have hKey : s.providerKey ≠ r.providerKey := fun hk =>
        hne (hStore.keyInj q p s r hq hp hk)
      rw [hContent _ _ hKey]
      exact h.bytes q s hq

theorem restamp (h : Indexed sha reg t) (hStore : StoreInv reg t next) {p : StableId}
    {r' : PhysicalBlockRecord} (hp : t.get p = some r) (hId : r'.physicalId = r.physicalId)
    (hHash : r'.contentHash = r.contentHash) (hTier : r'.tier = r.tier)
    (hKey : r'.providerKey = r.providerKey) :
    Indexed sha reg (t.put r') :=
  h.update hStore hp hId hHash (fun _ _ _ => rfl) (by rw [hTier, hKey, hHash]; exact h.bytes p r hp)

theorem insert (h : Indexed sha reg t) (hStore : StoreInv reg t next)
    (hNone : t.get r.physicalId = none) (hKey : next ≤ r.providerKey.uuid)
    (hMiss : t.getByHash r.contentHash = none)
    (hContent : ∀ tier k, k ≠ r.providerKey → reg'.content tier k = reg.content tier k)
    (hBytes : ∃ data, reg'.content r.tier r.providerKey = some data ∧
      contentHash sha data = r.contentHash) :
    Indexed sha reg' (t.insert r) := by
  constructor
  · exact h.agree.insert hNone hMiss
  · intro q s hq
    rw [PhysicalBlockTable.get_insert] at hq
    split at hq
    · obtain rfl := Option.some.inj hq
      exact hBytes
    · have hne : s.providerKey ≠ r.providerKey := by
        intro hEq
        have hLt := (hStore.idLt q s hq).2
        rw [hEq] at hLt
        omega
      rw [hContent _ _ hne]
      exact h.bytes q s hq

theorem drop (h : Indexed sha reg t) (hStore : StoreInv reg t next) {p : StableId}
    (hp : t.get p = some r) :
    Indexed sha (deleteFromTiers p releaseTiers reg) (t.remove r) := by
  have hId := PhysicalBlockTable.get_physicalId hp
  constructor
  · exact h.agree.remove hp
  · intro q s hq
    rw [PhysicalBlockTable.get_remove, hId] at hq
    split at hq
    · exact absurd hq (by simp)
    · next hne =>
      have hKey : s.providerKey ≠ p := fun hEq => hne (hStore.ownKey q p s r hq hp hEq)
      rw [deleteFromTiers_content_ne hKey]
      exact h.bytes q s hq

theorem new (sha : Sha256) (cfg : KvConfig) :
    Indexed sha (KVBlockManager.new cfg).providers (KVBlockManager.new cfg).physical where
  agree := PhysicalBlockTable.hashesAgree_empty
  bytes p r hp := by simp [KVBlockManager.new] at hp

end Indexed

-- ------ The calls

section

variable {sha : Sha256} {m m' : KVBlockManager}

variable {r : PhysicalBlockRecord}

theorem Retained.indexed (hInv : Inv m) (h : Indexed sha m.providers m.physical) {key : String}
    {b : Block} (hRet : Retained key r b m m') :
    Indexed sha m'.providers m'.physical := by
  rw [hRet.providers, hRet.physical]
  exact h.restamp hInv.store hRet.live rfl rfl rfl rfl

theorem Admitted.indexed (hInv : Inv m) (h : Indexed sha m.providers m.physical)
    {req : AllocateRequest} {b : Block} (hAdm : Admitted sha req r b m m') :
    Indexed sha m'.providers m'.physical := by
  obtain ⟨-, -, hContent⟩ := ProviderRegistry.put_spec hAdm.providers
  have hUuid := hAdm.uuid
  rw [hAdm.physical]
  refine h.insert hInv.store (hInv.store.get_none (by omega)) (by rw [hAdm.recKey]; omega)
    (by rw [hAdm.recHash]; exact hAdm.missed) ?_ ⟨req.payload, ?_, hAdm.recHash.symm⟩
  · intro tier k hk
    rw [hContent, if_neg fun hEq => hk (by rw [hAdm.recKey, hEq.2])]
  · rw [hAdm.recTier, hAdm.recKey, hContent, if_pos ⟨rfl, rfl⟩]

theorem allocate_indexed (hInv : Inv m) (h : Indexed sha m.providers m.physical)
    (req : AllocateRequest) (now : Time) :
    Indexed sha (m.allocate sha req now).2.providers (m.allocate sha req now).2.physical := by
  obtain ⟨r, b, m', hEq, hCase⟩ := allocate_cases sha hInv.store hInv.sess req now
  rw [hEq]
  rcases hCase with ⟨-, hRet, -⟩ | ⟨hAdm, -⟩
  · exact hRet.indexed hInv h
  · exact hAdm.indexed hInv h

theorem reusePrefix_indexed (hInv : Inv m) (h : Indexed sha m.providers m.physical) (key : String)
    (result : PrefixMatchResult) (agentId : String) (now : Time) :
    Indexed sha (m.reusePrefix key result agentId now).2.providers
      (m.reusePrefix key result agentId now).2.physical := by
  have hOp := createSession_opened hInv.sess key agentId now
  refine (reuseLoop_induct
    (motive := fun m' => Inv m' ∧ Indexed sha m'.providers m'.physical)
    (fun _ _ _ _ _ hm hRet _ => ⟨(hRet.inv hm.1).1, hRet.indexed hm.1 hm.2⟩)
    result.matchedBlocks [] hOp.sess hOp.isOpen ⟨(hOp.inv hInv).1, ?_⟩).2
  rw [hOp.providers, hOp.physical]
  exact h

variable {p : StableId}

theorem releaseBlock_indexed (hStore : StoreInv m.providers m.physical m.nextUuid)
    (h : Indexed sha m.providers m.physical) (hp : m.physical.get p = some r) :
    Indexed sha (m.releaseBlock p).providers (m.releaseBlock p).physical := by
  rcases Nat.lt_or_ge 1 r.refcount with hShared | hLast
  · rw [KVBlockManager.releaseBlock_shared hp hShared]
    exact h.restamp hStore hp rfl rfl rfl rfl
  · have hPos := hStore.refPos p r hp
    rw [KVBlockManager.releaseBlock_last hp (by omega)]
    exact h.drop hStore hp

theorem releaseSession_indexed (hInv : Inv m) (h : Indexed sha m.providers m.physical)
    (key : String) :
    Indexed sha (m.releaseSession key).providers (m.releaseSession key).physical := by
  cases hs : m.sessions.get? key with
  | none =>
    rw [KVBlockManager.releaseSession_of_none hs]
    exact h
  | some s =>
    rw [KVBlockManager.releaseSession_of_some hs]
    refine (foldl_releaseBlock_induct (Q := fun _ _ => True)
      (motive := fun m' => Indexed sha m'.providers m'.physical)
      (fun _ _ _ _ hStore hp hm => releaseBlock_indexed hStore hm hp)
      s.nodup_physicalIds (m := m.popSession key) hInv.store ?_ h).2
    intro p hp
    obtain ⟨r, hr⟩ := hInv.live_of_refsTo hs (mem_physicalIds.mp hp)
    exact ⟨r, hr, trivial⟩

theorem writeClone_indexed (hInv : Inv m) (h : Indexed sha m.providers m.physical)
    (hp : m.physical.get p = some r) (payload : Bytes) :
    Indexed sha (m.writeClone sha p payload).2.providers
      (m.writeClone sha p payload).2.physical := by
  obtain ⟨e, m', hEq, -, -, -, -, hTier, hPut, -, hTable⟩ := writeClone_cases sha hInv hp payload
  have hOther : ∀ tier k, k ≠ e.providerKey →
      m'.providers.content tier k = m.providers.content tier k := fun tier _ hk =>
    ProviderRegistry.put_content_ne hPut hk tier
  have hNew : m'.providers.content e.tier e.providerKey = some payload := by
    rw [hTier]
    exact ProviderRegistry.put_content_self hPut
  rw [hEq]
  rcases hTable with ⟨e₀, hHash, he, hPhys⟩ | ⟨hMiss, -, hKey, hHash, -, hNone, hPhys⟩
  · obtain ⟨he₀, hIs⟩ := h.agree.getByHash_eq_some_iff.mp hHash
    rw [hPhys]
    refine h.update hInv.store he₀ (by rw [he]) (by rw [he]) ?_ ⟨payload, hNew, ?_⟩
    · rw [he] at hOther
      exact hOther
    · rw [he]
      exact hIs.symm
  · rw [hPhys]
    exact h.insert hInv.store hNone hKey (by rw [hHash]; exact hMiss) hOther
      ⟨payload, hNew, hHash.symm⟩

theorem writeInPlace_indexed (hInv : Inv m) (h : Indexed sha m.providers m.physical)
    (hp : m.physical.get p = some r) {payload : Bytes}
    (hHash : contentHash sha payload = r.contentHash) :
    Indexed sha (m.writeInPlace sha p payload).2.providers
      (m.writeInPlace sha p payload).2.physical := by
  obtain ⟨providers, hPut, hEq⟩ := writeInPlace_ok sha hInv.store hp payload
  rw [hEq]
  refine h.update hInv.store hp rfl hHash ?_ ⟨payload, ?_, rfl⟩
  · intro tier k hk
    exact ProviderRegistry.put_content_ne hPut hk tier
  · exact ProviderRegistry.put_content_self hPut

theorem migrateBlock_indexed (hInv : Inv m) (h : Indexed sha m.providers m.physical)
    (policy : TieringPolicy) (p : StableId) (target : StorageTier) (now : Time) :
    Indexed sha (m.migrateBlock policy p target now).2.providers
      (m.migrateBlock policy p target now).2.physical := by
  rcases migrateBlock_cases hInv.store policy p target now with
    hEq | ⟨r, data, reg₁, reg₂, r', hp, hTier, hData, hPut, hDel, hr', hEq⟩
  · rw [hEq]
    exact h
  · obtain ⟨data', hData', hHash⟩ := h.bytes p r hp
    obtain rfl := Option.some.inj (hData.symm.trans hData')
    rw [hEq]
    subst hr'
    refine h.update hInv.store hp rfl rfl ?_ ⟨data, ?_, hHash⟩
    · intro tier k hk
      exact ProviderRegistry.moved_content_ne hPut hDel hk tier
    · exact ProviderRegistry.moved_content_self hPut hDel hTier

theorem step_indexed (hInv : Inv m) (h : Indexed sha m.providers m.physical) {op : Op}
    (hC : KeepsContentHash sha m op) :
    Indexed sha (step sha m op).providers (step sha m op).physical := by
  cases op with
  | createSession key agentId now =>
    have hOp := createSession_opened hInv.sess key agentId now
    show Indexed sha (m.createSession key agentId now).2.providers _
    rw [hOp.providers]
    exact hOp.physical ▸ h
  | allocate req now => exact allocate_indexed hInv h req now
  | reusePrefix key result agentId now => exact reusePrefix_indexed hInv h key result agentId now
  | releaseSession key => exact releaseSession_indexed hInv h key
  | readPayload p now =>
    show Indexed sha (m.readPayload p now).2.providers (m.readPayload p now).2.physical
    rcases readPayload_cases hInv.store p now with ⟨-, hEq⟩ | ⟨r, data, hp, -, hEq⟩
    · rw [hEq]
      exact h
    · rw [hEq]
      exact h.restamp hInv.store hp rfl rfl rfl rfl
  | lookupPrefix blockPayloads => exact h
  | migrateBlock policy p target now => exact migrateBlock_indexed hInv h policy p target now
  | writeCow p payload =>
    show Indexed sha (m.writeCow sha p payload).2.providers (m.writeCow sha p payload).2.physical
    unfold KVBlockManager.writeCow
    cases hp : m.physical.get p with
    | none =>
      have hCow : m.needsCow p = false := by rw [KVBlockManager.needsCow, hp]
      rw [hCow, if_neg Bool.false_ne_true]
      unfold KVBlockManager.writeInPlace
      rw [hp]
      exact h
    | some r =>
      split
      · exact writeClone_indexed hInv h hp payload
      · next hCow =>
        exact writeInPlace_indexed hInv h hp (hC (Bool.eq_false_iff.mpr hCow) r hp)

theorem not_agree_writeInPlace (hInv : Inv m) (h : Indexed sha m.providers m.physical)
    (hp : m.physical.get p = some r) {payload : Bytes}
    (hHash : contentHash sha payload ≠ r.contentHash) :
    ¬ ∀ hash q, (m.writeInPlace sha p payload).2.physical.byHash.get? hash = some q ↔
      ∃ s, (m.writeInPlace sha p payload).2.physical.get q = some s ∧ s.contentHash = hash := by
  intro hAgree
  obtain ⟨providers, -, hEq⟩ := writeInPlace_ok sha hInv.store hp payload
  have hOld : m.physical.byHash.get? r.contentHash = some p :=
    (h.agree _ _).mpr ⟨r, hp, rfl⟩
  rw [hEq] at hAgree
  obtain ⟨s, hs, hsHash⟩ := (hAgree r.contentHash p).mp hOld
  dsimp only at hs
  rw [PhysicalBlockTable.get_put, if_pos (PhysicalBlockTable.get_physicalId hp).symm] at hs
  obtain rfl := Option.some.inj hs
  exact hHash hsHash

-- ------ Deduplication

/-- The index is sound: hashes, records and bytes agree, and a payload that is
allocated, stored anew or found by its hash, reads back. -/
structure DedupSound (sha : Sha256) (m : KVBlockManager) : Prop where
  agree : ∀ h p, m.physical.byHash.get? h = some p ↔
    ∃ r, m.physical.get p = some r ∧ r.contentHash = h
  unique : ∀ p q r s, m.physical.get p = some r → m.physical.get q = some s →
    r.contentHash = s.contentHash → p = q
  bytes : ∀ p r, m.physical.get p = some r →
    ∃ data, m.providers.get r.tier r.providerKey = .ok data ∧
      contentHash sha data = r.contentHash
  readsBack : ∀ req now, ∃ b m' p, m.allocate sha req now = (.ok b, m') ∧
    b.physicalId = some p ∧ ∀ now', (m'.readPayload p now').1 = .ok req.payload

theorem readPayload_of_hash (hInj : Function.Injective sha.hexdigest)
    (hStore : StoreInv m.providers m.physical m.nextUuid) (h : Indexed sha m.providers m.physical)
    (hp : m.physical.get p = some r) {payload : Bytes}
    (hHash : r.contentHash = contentHash sha payload) (now : Time) :
    (m.readPayload p now).1 = .ok payload := by
  rcases readPayload_cases hStore p now with ⟨hNone, -⟩ | ⟨r', data, hp', hData, hEq⟩
  · rw [hp] at hNone
    exact absurd hNone (by simp)
  · obtain rfl := Option.some.inj (hp.symm.trans hp')
    obtain ⟨data', hData', hIs⟩ := h.bytes p r hp
    obtain rfl := Option.some.inj (hData.symm.trans hData')
    have hSame : data = payload := hInj (hIs.trans hHash)
    rw [hEq, hSame]

theorem Indexed.dedupSound (hInj : Function.Injective sha.hexdigest) (hInv : Inv m)
    (h : Indexed sha m.providers m.physical) : DedupSound sha m where
  agree := h.agree
  unique p q r s hp hq hEq := h.agree.unique hp hq hEq
  bytes p r hp := by
    obtain ⟨data, hData, hHash⟩ := h.bytes p r hp
    exact ⟨data, ProviderRegistry.get_eq_ok_iff.mpr ⟨(hInv.store.stored p r hp).1, hData⟩, hHash⟩
  readsBack req now := by
    obtain ⟨r, b, m', hEq, hCase⟩ := allocate_cases sha hInv.store hInv.sess req now
    rcases hCase with ⟨hHash, hRet, -⟩ | ⟨hAdm, -⟩
    · refine ⟨b, m', r.physicalId, hEq, hRet.gained.physicalId, fun now' => ?_⟩
      refine readPayload_of_hash hInj (hRet.inv hInv).1.store (hRet.indexed hInv h) (r := _)
        (by rw [hRet.physical, PhysicalBlockTable.get_put, if_pos rfl]) ?_ now'
      exact (h.agree.getByHash_eq_some_iff.mp hHash).2
    · refine ⟨b, m', r.physicalId, hEq, hAdm.gained.physicalId, fun now' => ?_⟩
      exact readPayload_of_hash hInj (hAdm.inv hInv).1.store (hAdm.indexed hInv h)
        (by rw [hAdm.physical, PhysicalBlockTable.get_insert, if_pos rfl]) hAdm.recHash now'

end

/-- **When deduplication is sound.** With a collision-free hash, the index agrees
with records and bytes throughout a run, and every allocation reads back its
payload, iff no write in place changes the hash of its block. -/
theorem dedupSound_along_iff (sha : Sha256) (hInj : Function.Injective sha.hexdigest)
    (cfg : KvConfig) (ops : List Op) :
    Along (step sha) (DedupSound sha) (.new cfg) ops ↔
      Every (step sha) (KeepsContentHash sha) (.new cfg) ops := by
  refine Run.along_iff_every (I := fun m => Inv m ∧ Indexed sha m.providers m.physical)
    (fun m h => h.2.dedupSound hInj h.1)
    (fun m op h hC => ⟨step_inv h.1 op, step_indexed h.1 h.2 hC⟩)
    (fun m op h hC hSound => ?_) ⟨Inv.new cfg, Indexed.new sha cfg⟩ ops
  cases op with
  | writeCow p payload =>
    unfold KeepsContentHash at hC
    push Not at hC
    obtain ⟨hCow, r, hp, hHash⟩ := hC
    have hAgree := hSound.agree
    refine not_agree_writeInPlace h.1 h.2 hp hHash ?_
    rw [show step sha m (.writeCow p payload) = (m.writeInPlace sha p payload).2 by
      show (m.writeCow sha p payload).2 = _
      rw [KVBlockManager.writeCow, hCow, if_neg Bool.false_ne_true]] at hAgree
    exact hAgree
  | _ => exact hC trivial

/-- Sharing, releasing and writing back the same content leave the index sound. -/
theorem dedupSound_along_rewrite :
    Along (step .spelled) (DedupSound .spelled) (.new .plain)
      [.allocate { sessionId := "a", payload := [1] } 0,
       .allocate { sessionId := "b", payload := [1] } 1, .releaseSession "b"] :=
  (dedupSound_along_iff .spelled Sha256.spelled_injective .plain
    [.allocate { sessionId := "a", payload := [1] } 0,
     .allocate { sessionId := "b", payload := [1] } 1, .releaseSession "b"]).mpr
    ⟨trivial, trivial, trivial, trivial⟩

/-- A block is overwritten in place. Its old content is then allocated again: the
index still leads to the block, which reads back the new content. -/
theorem not_dedupSound_overwritten :
    ¬ DedupSound .spelled (exec (step .spelled) (.new .plain)
      [.allocate { sessionId := "a", payload := [1] } 0, .writeCow ⟨.phys, 0⟩ [2]]) := by
  intro h
  obtain ⟨b, m', p, hEq, hId, hRead⟩ := h.readsBack { sessionId := "b", payload := [1] } 1
  have hBlock : ((exec (step .spelled) (.new .plain)
      [.allocate { sessionId := "a", payload := [1] } 0, .writeCow ⟨.phys, 0⟩ [2]]).allocate
        .spelled { sessionId := "b", payload := [1] } 1).1.toOption.bind Block.physicalId =
      some ⟨.phys, 0⟩ := by decide +kernel
  have hBytes : (((exec (step .spelled) (.new .plain)
      [.allocate { sessionId := "a", payload := [1] } 0, .writeCow ⟨.phys, 0⟩ [2]]).allocate
        .spelled { sessionId := "b", payload := [1] } 1).2.readPayload ⟨.phys, 0⟩ 2).1.toOption =
      some [2] := by decide +kernel
  rw [hEq] at hBlock hBytes
  obtain rfl : p = ⟨.phys, 0⟩ := Option.some.inj (hId.symm.trans hBlock)
  rw [hRead 2] at hBytes
  exact absurd hBytes (by decide)

end Neuroswarm.Kv
