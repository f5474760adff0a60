import Neuroswarm.Kv.Invariant

/-!
# KV memory runtime — what a call leaves alone

Frame conditions for the calls of the block manager, for the invariants that
look at single blocks over time.

* `Keeps` — records stay registered under their keys, new ones have new keys,
  and bytes appear under keys of registered records only. Every call but
  `release_session` guarantees it (`step_keeps`).
* `KeepsContent` — records keep the hashes of their content and prefix, too. A
  write in place that changes the hash is the one exception (`step_keepsContent`).
* `releaseSession_shrinks` — a release drops records and bytes, and makes none.
-/

namespace Neuroswarm.Kv

/-- Records keep their keys, and bytes are written under keys of records only. -/
structure Keeps (m m' : KVBlockManager) : Prop where
  kept : ∀ p r, m.physical.get p = some r →
    ∃ r', m'.physical.get p = some r' ∧ r'.providerKey = r.providerKey
  fresh : ∀ p r', m'.physical.get p = some r' →
    (∃ r, m.physical.get p = some r ∧ r'.providerKey = r.providerKey) ∨
      m.nextUuid ≤ r'.providerKey.uuid
  written : ∀ tier k, m'.providers.content tier k ≠ none →
    m.providers.content tier k ≠ none ∨ ∃ p r', m'.physical.get p = some r' ∧ r'.providerKey = k
  nextUuid : m.nextUuid ≤ m'.nextUuid

/-- Records keep the hash of their content; their prefix hashes are those that
were there before, and new ones that satisfy `new`. -/
structure KeepsContent (new : String → Prop) (m m' : KVBlockManager) : Prop where
  kept : ∀ p r, m.physical.get p = some r →
    ∃ r', m'.physical.get p = some r' ∧ r'.contentHash = r.contentHash
  prefixes : ∀ p r', m'.physical.get p = some r' →
    (∃ q r, m.physical.get q = some r ∧ r'.prefixHash = r.prefixHash) ∨ new r'.prefixHash

theorem Keeps.refl (m : KVBlockManager) : Keeps m m where
  kept _ r hp := ⟨r, hp, rfl⟩
  fresh _ r hp := Or.inl ⟨r, hp, rfl⟩
  written _ _ h := Or.inl h
  nextUuid := Nat.le_refl _

theorem Keeps.trans {m m' m'' : KVBlockManager} (h : Keeps m m') (h' : Keeps m' m'') :
    Keeps m m'' where
  kept p r hp := by
    obtain ⟨r', hp', hKey⟩ := h.kept p r hp
    obtain ⟨r'', hp'', hKey'⟩ := h'.kept p r' hp'
    exact ⟨r'', hp'', hKey'.trans hKey⟩
  fresh p r'' hp'' := by
    have hNext := h.nextUuid
    rcases h'.fresh p r'' hp'' with ⟨r', hp', hKey'⟩ | hNew
    · rcases h.fresh p r' hp' with ⟨r, hp, hKey⟩ | hNew
      · exact Or.inl ⟨r, hp, hKey'.trans hKey⟩
      · exact Or.inr (by rw [hKey']; exact hNew)
    · exact Or.inr (by omega)
  written tier k hHas := by
    rcases h'.written tier k hHas with hHas' | hRec
    · rcases h.written tier k hHas' with hOld | ⟨p, r', hp', hKey⟩
      · exact Or.inl hOld
      · obtain ⟨r'', hp'', hKey'⟩ := h'.kept p r' hp'
        exact Or.inr ⟨p, r'', hp'', hKey'.trans hKey⟩
    · exact Or.inr hRec
  nextUuid := Nat.le_trans h.nextUuid h'.nextUuid

theorem KeepsContent.refl (new : String → Prop) (m : KVBlockManager) : KeepsContent new m m where
  kept _ r hp := ⟨r, hp, rfl⟩
  prefixes p r hp := Or.inl ⟨p, r, hp, rfl⟩

theorem KeepsContent.mono {new new' : String → Prop} {m m' : KVBlockManager}
    (h : KeepsContent new m m') (hNew : ∀ s, new s → new' s) : KeepsContent new' m m' where
  kept := h.kept
  prefixes p r' hp' := (h.prefixes p r' hp').imp_right (hNew _)

theorem KeepsContent.trans {new : String → Prop} {m m' m'' : KVBlockManager}
    (h : KeepsContent new m m') (h' : KeepsContent new m' m'') : KeepsContent new m m'' where
  kept p r hp := by
    obtain ⟨r', hp', hHash⟩ := h.kept p r hp
    obtain ⟨r'', hp'', hHash'⟩ := h'.kept p r' hp'
    exact ⟨r'', hp'', hHash'.trans hHash⟩
  prefixes p r'' hp'' := by
    rcases h'.prefixes p r'' hp'' with ⟨q, r', hq, hEq'⟩ | hNew
    · rw [hEq']
      exact h.prefixes q r' hq
    · exact Or.inr hNew

section

variable {sha : Sha256} {new : String → Prop} {m m' : KVBlockManager}

-- ------ The changes of the store

variable {r : PhysicalBlockRecord}

variable {p : StableId}

theorem Keeps.of_put {r' : PhysicalBlockRecord} (hp : m.physical.get p = some r)
    (hPhys : m'.physical = m.physical.put r') (hId : r'.physicalId = r.physicalId)
    (hKey : r'.providerKey = r.providerKey) (hContent : ∀ tier k, k ≠ r.providerKey →
      m'.providers.content tier k = m.providers.content tier k) (hNext : m.nextUuid ≤ m'.nextUuid) :
    Keeps m m' := by
  have hpid : r'.physicalId = p := by rw [hId, PhysicalBlockTable.get_physicalId hp]
  have hGet : ∀ q, m'.physical.get q = if q = p then some r' else m.physical.get q := fun q => by
    rw [hPhys, PhysicalBlockTable.get_put, hpid]
  refine ⟨fun q s hq => ?_, fun q s hq => ?_, fun tier k hHas => ?_, hNext⟩
  · by_cases hqp : q = p
    · subst hqp
      obtain rfl := Option.some.inj (hp.symm.trans hq)
      exact ⟨r', by rw [hGet, if_pos rfl], hKey⟩
    · exact ⟨s, by rw [hGet, if_neg hqp]; exact hq, rfl⟩
  · rw [hGet] at hq
    split at hq
    · next hqp =>
      obtain rfl := Option.some.inj hq
      exact Or.inl ⟨r, hqp ▸ hp, hKey⟩
    · exact Or.inl ⟨s, hq, rfl⟩
  · by_cases hk : k = r.providerKey
    · exact Or.inr ⟨p, r', by rw [hGet, if_pos rfl], hKey.trans hk.symm⟩
    · rw [hContent tier k hk] at hHas
      exact Or.inl hHas

theorem KeepsContent.of_put {r' : PhysicalBlockRecord} (hp : m.physical.get p = some r)
    (hPhys : m'.physical = m.physical.put r') (hId : r'.physicalId = r.physicalId)
    (hHash : r'.contentHash = r.contentHash) (hPrefix : r'.prefixHash = r.prefixHash) :
    KeepsContent new m m' := by
  have hpid : r'.physicalId = p := by rw [hId, PhysicalBlockTable.get_physicalId hp]
  refine ⟨fun q s hq => ?_, fun q s hq => ?_⟩
  · rw [hPhys, PhysicalBlockTable.get_put, hpid]
    split
    · next hqp =>
      obtain rfl := Option.some.inj (hp.symm.trans (hqp ▸ hq))
      exact ⟨r', rfl, hHash⟩
    · exact ⟨s, hq, rfl⟩
  · rw [hPhys, PhysicalBlockTable.get_put, hpid] at hq
    split at hq
    · obtain rfl := Option.some.inj hq
      exact Or.inl ⟨p, r, hp, hPrefix⟩
    · exact Or.inl ⟨q, s, hq, rfl⟩

theorem Keeps.of_insert (hNone : m.physical.get r.physicalId = none)
    (hPhys : m'.physical = m.physical.insert r) (hKey : m.nextUuid ≤ r.providerKey.uuid)
    (hContent : ∀ tier k, k ≠ r.providerKey →
      m'.providers.content tier k = m.providers.content tier k) (hNext : m.nextUuid ≤ m'.nextUuid) :
    Keeps m m' := by
  have hGet : ∀ q, m'.physical.get q =
      if q = r.physicalId then some r else m.physical.get q := fun q => by
    rw [hPhys, PhysicalBlockTable.get_insert]
  refine ⟨fun q s hq => ?_, fun q s hq => ?_, fun tier k hHas => ?_, hNext⟩
  · have hne : q ≠ r.physicalId := by
      rintro rfl
      rw [hNone] at hq
      exact absurd hq (by simp)
    exact ⟨s, by rw [hGet, if_neg hne]; exact hq, rfl⟩
  · rw [hGet] at hq
    split at hq
    · obtain rfl := Option.some.inj hq
      exact Or.inr hKey
    · exact Or.inl ⟨s, hq, rfl⟩
  · by_cases hk : k = r.providerKey
    · exact Or.inr ⟨r.physicalId, r, by rw [hGet, if_pos rfl], hk.symm⟩
    · rw [hContent tier k hk] at hHas
      exact Or.inl hHas

theorem KeepsContent.of_insert (hNone : m.physical.get r.physicalId = none)
    (hPhys : m'.physical = m.physical.insert r)
    (hPrefix : (∃ q s, m.physical.get q = some s ∧ r.prefixHash = s.prefixHash) ∨
      new r.prefixHash) : KeepsContent new m m' := by
  refine ⟨fun q s hq => ?_, fun q s hq => ?_⟩
  · have hne : q ≠ r.physicalId := by
      rintro rfl
      rw [hNone] at hq
      exact absurd hq (by simp)
    exact ⟨s, by rw [hPhys, PhysicalBlockTable.get_insert, if_neg hne]; exact hq, rfl⟩
  · rw [hPhys, PhysicalBlockTable.get_insert] at hq
    split at hq
    · obtain rfl := Option.some.inj hq
      exact hPrefix
    · exact Or.inl ⟨q, s, hq, rfl⟩

-- ------ The calls

theorem Opened.keeps {key : String} (h : Opened key m m') :
    Keeps m m' ∧ KeepsContent (fun _ => False) m m' := by
  obtain ⟨hProv, hPhys, -, hNext, -⟩ := h
  refine ⟨⟨?_, ?_, ?_, Nat.le_of_eq hNext.symm⟩, ⟨?_, ?_⟩⟩
  · rw [hPhys]
    exact fun _ r hp => ⟨r, hp, rfl⟩
  · rw [hPhys]
    exact fun _ r hp => Or.inl ⟨r, hp, rfl⟩
  · rw [hProv]
    exact fun _ _ h => Or.inl h
  · rw [hPhys]
    exact fun _ r hp => ⟨r, hp, rfl⟩
  · rw [hPhys]
    exact fun p r hp => Or.inl ⟨p, r, hp, rfl⟩

theorem Retained.keeps {key : String} {b : Block} (h : Retained key r b m m') :
    Keeps m m' ∧ KeepsContent (fun _ => False) m m' :=
  ⟨Keeps.of_put h.live h.physical rfl rfl (fun _ _ _ => by rw [h.providers]) h.gained.nextUuid,
    KeepsContent.of_put h.live h.physical rfl rfl rfl⟩

theorem Admitted.keeps (hInv : Inv m) {req : AllocateRequest} {b : Block}
    (h : Admitted sha req r b m m') :
    Keeps m m' ∧ KeepsContent (· = req.prefixHash) m m' := by
  have hNone := hInv.store.get_none (Nat.le_of_eq h.uuid.symm)
  obtain ⟨-, -, hContent⟩ := ProviderRegistry.put_spec h.providers
  refine ⟨Keeps.of_insert hNone h.physical ?_ ?_ h.gained.nextUuid,
    KeepsContent.of_insert hNone h.physical (Or.inr h.recPrefix)⟩
  · rw [h.recKey]
    exact Nat.le_of_eq h.uuid.symm
  · intro tier k hk
    rw [hContent, if_neg fun hEq => hk (by rw [h.recKey, hEq.2])]

theorem allocate_keeps (hInv : Inv m) (req : AllocateRequest) (now : Time) :
    Keeps m (m.allocate sha req now).2 ∧
      KeepsContent (· = req.prefixHash) m (m.allocate sha req now).2 := by
  obtain ⟨r, b, m', hEq, hCase⟩ := allocate_cases sha hInv.store hInv.sess req now
  rw [hEq]
  rcases hCase with ⟨-, hRet, -⟩ | ⟨hAdm, -⟩
  · exact ⟨hRet.keeps.1, hRet.keeps.2.mono fun _ h => h.elim⟩
  · exact hAdm.keeps hInv

theorem reusePrefix_keeps (hInv : Inv m) (key : String) (result : PrefixMatchResult)
    (agentId : String) (now : Time) :
    Keeps m (m.reusePrefix key result agentId now).2 ∧
      KeepsContent (fun _ => False) m (m.reusePrefix key result agentId now).2 := by
  have hOp := createSession_opened hInv.sess key agentId now
  exact reuseLoop_induct (motive := fun m' => Keeps m m' ∧ KeepsContent (fun _ => False) m m')
    (fun _ _ _ _ _ hm hRet _ => ⟨hm.1.trans hRet.keeps.1, hm.2.trans hRet.keeps.2⟩)
    result.matchedBlocks [] hOp.sess hOp.isOpen hOp.keeps

theorem readPayload_keeps (hInv : Inv m) (p : StableId) (now : Time) :
    Keeps m (m.readPayload p now).2 ∧ KeepsContent (fun _ => False) m (m.readPayload p now).2 := by
  rcases readPayload_cases hInv.store p now with ⟨-, hEq⟩ | ⟨r, data, hp, -, hEq⟩
  · rw [hEq]
    exact ⟨Keeps.refl m, KeepsContent.refl _ m⟩
  · rw [hEq]
    exact ⟨Keeps.of_put hp rfl rfl rfl (fun _ _ _ => rfl) (Nat.le_refl _),
      KeepsContent.of_put hp rfl rfl rfl rfl⟩

theorem lookupPrefix_keeps (m : KVBlockManager) (blockPayloads : List Bytes) :
    Keeps m (m.lookupPrefix sha blockPayloads).2 ∧
      KeepsContent (fun _ => False) m (m.lookupPrefix sha blockPayloads).2 :=
  have hKeeps := Keeps.refl m
  have hContent := KeepsContent.refl (fun _ => False) m
  ⟨⟨hKeeps.kept, hKeeps.fresh, hKeeps.written, hKeeps.nextUuid⟩,
    ⟨hContent.kept, hContent.prefixes⟩⟩

theorem migrateBlock_keeps (hInv : Inv m) (policy : TieringPolicy) (p : StableId)
    (target : StorageTier) (now : Time) :
    Keeps m (m.migrateBlock policy p target now).2 ∧
      KeepsContent (fun _ => False) m (m.migrateBlock policy p target now).2 := by
  rcases migrateBlock_cases hInv.store policy p target now with
    hEq | ⟨r, data, reg₁, reg₂, r', hp, hTier, hData, hPut, hDel, hr', hEq⟩
  · rw [hEq]
    exact ⟨Keeps.refl m, KeepsContent.refl _ m⟩
  · rw [hEq]
    subst hr'
    refine ⟨Keeps.of_put hp rfl rfl rfl (fun tier k hk => ?_) (Nat.le_refl _),
      KeepsContent.of_put hp rfl rfl rfl rfl⟩
    exact ProviderRegistry.moved_content_ne hPut hDel hk tier

theorem writeInPlace_keeps (hInv : Inv m) (p : StableId) (payload : Bytes) :
    Keeps m (m.writeInPlace sha p payload).2 ∧
      ((∀ r, m.physical.get p = some r → contentHash sha payload = r.contentHash) →
        KeepsContent (fun _ => False) m (m.writeInPlace sha p payload).2) := by
  cases hp : m.physical.get p with
  | none =>
    unfold KVBlockManager.writeInPlace
    rw [hp]
    exact ⟨Keeps.refl m, fun _ => KeepsContent.refl _ m⟩
  | some r =>
    obtain ⟨providers, hPut, hEq⟩ := writeInPlace_ok sha hInv.store hp payload
    rw [hEq]
    refine ⟨Keeps.of_put hp rfl rfl rfl (fun tier k hk => ?_) (Nat.le_refl _), fun hHash =>
      KeepsContent.of_put hp rfl rfl (hHash r rfl) rfl⟩
    exact ProviderRegistry.put_content_ne hPut hk tier

theorem writeClone_keeps (hInv : Inv m) (hp : m.physical.get p = some r) (payload : Bytes) :
    Keeps m (m.writeClone sha p payload).2 ∧
      KeepsContent (fun _ => False) m (m.writeClone sha p payload).2 := by
  obtain ⟨e, m', hEq, -, -, -, hNext, -, hPut, -, hTable⟩ := writeClone_cases sha hInv hp payload
  have hOther : ∀ tier k, k ≠ e.providerKey →
      m'.providers.content tier k = m.providers.content tier k := fun tier _ hk =>
    ProviderRegistry.put_content_ne hPut hk tier
  rw [hEq]
  rcases hTable with ⟨e₀, hHash, he, hPhys⟩ | ⟨-, -, hKey, -, hPrefix, hNone, hPhys⟩
  · obtain ⟨-, he₀⟩ := PhysicalBlockTable.getByHash_eq_some.mp hHash
    rw [he] at hOther
    exact ⟨Keeps.of_put he₀ hPhys (by rw [he]) (by rw [he]) hOther hNext,
      KeepsContent.of_put he₀ hPhys (by rw [he]) (by rw [he]) (by rw [he])⟩
  · exact ⟨Keeps.of_insert hNone hPhys hKey hOther hNext,
      KeepsContent.of_insert hNone hPhys (Or.inl ⟨p, r, hp, hPrefix⟩)⟩

theorem writeCow_keeps (hInv : Inv m) (p : StableId) (payload : Bytes) :
    Keeps m (m.writeCow sha p payload).2 := by
  unfold KVBlockManager.writeCow
  cases hp : m.physical.get p with
  | none =>
    rw [KVBlockManager.needsCow, hp, if_neg Bool.false_ne_true]
    exact (writeInPlace_keeps hInv p payload).1
  | some r =>
    split
    · exact (writeClone_keeps hInv hp payload).1
    · exact (writeInPlace_keeps hInv p payload).1

/-- **Only a release unregisters.** -/
theorem step_keeps (hInv : Inv m) {op : Op} (hOp : ∀ key, op ≠ .releaseSession key) :
    Keeps m (step sha m op) := by
  cases op with
  | createSession key agentId now => exact (createSession_opened hInv.sess key agentId now).keeps.1
  | allocate req now => exact (allocate_keeps hInv req now).1
  | reusePrefix key result agentId now => exact (reusePrefix_keeps hInv key result agentId now).1
  | releaseSession key => exact absurd rfl (hOp key)
  | readPayload p now => exact (readPayload_keeps hInv p now).1
  | writeCow p payload => exact writeCow_keeps hInv p payload
  | lookupPrefix blockPayloads => exact (lookupPrefix_keeps m blockPayloads).1
  | migrateBlock policy p target now => exact (migrateBlock_keeps hInv policy p target now).1

def KeepsContentHash (sha : Sha256) (m : KVBlockManager) : Op → Prop
  | .writeCow p payload => m.needsCow p = false →
      ∀ r, m.physical.get p = some r → contentHash sha payload = r.contentHash
  | _ => True

def Op.Brings : Op → String → Prop
  | .allocate req _ => (· = req.prefixHash)
  | _ => fun _ => False

/-- **Only a write in place changes the content of a block.** -/
theorem step_keepsContent (hInv : Inv m) {op : Op} (hOp : ∀ key, op ≠ .releaseSession key)
    (hC : KeepsContentHash sha m op) : KeepsContent op.Brings m (step sha m op) := by
  cases op with
  | createSession key agentId now => exact (createSession_opened hInv.sess key agentId now).keeps.2
  | allocate req now => exact (allocate_keeps hInv req now).2
  | reusePrefix key result agentId now => exact (reusePrefix_keeps hInv key result agentId now).2
  | releaseSession key => exact absurd rfl (hOp key)
  | readPayload p now => exact (readPayload_keeps hInv p now).2
  | lookupPrefix blockPayloads => exact (lookupPrefix_keeps m blockPayloads).2
  | migrateBlock policy p target now => exact (migrateBlock_keeps hInv policy p target now).2
  | writeCow p payload =>
    show KeepsContent _ m (m.writeCow sha p payload).2
    unfold KVBlockManager.writeCow
    split
    · next hCow =>
      cases hp : m.physical.get p with
      | none => simp [KVBlockManager.needsCow, hp] at hCow
      | some r => exact (writeClone_keeps hInv hp payload).2
    · next hCow =>
      exact (writeInPlace_keeps hInv p payload).2 (hC (Bool.eq_false_iff.mpr hCow))

-- ------ Release

/-- What a release leaves was there before, with the same key and content. -/
structure Shrinks (m m' : KVBlockManager) : Prop where
  record : ∀ p r', m'.physical.get p = some r' → ∃ r, m.physical.get p = some r ∧
    r'.providerKey = r.providerKey ∧ r'.tier = r.tier ∧ r'.contentHash = r.contentHash ∧
    r'.prefixHash = r.prefixHash
  content : ∀ tier k, m.providers.content tier k = none → m'.providers.content tier k = none

theorem releaseBlock_shrinks (hStore : StoreInv m.providers m.physical m.nextUuid)
    (hp : m.physical.get p = some r) :
    Shrinks m (m.releaseBlock p) := by
  have hId := PhysicalBlockTable.get_physicalId hp
  rcases Nat.lt_or_ge 1 r.refcount with hShared | hLast
  · rw [KVBlockManager.releaseBlock_shared hp hShared]
    refine ⟨fun q s hq => ?_, fun _ _ h => h⟩
    dsimp only at hq
    rw [PhysicalBlockTable.get_put] at hq
    split at hq
    · next hqp =>
      rw [← Option.some.inj hq]
      exact ⟨r, by rw [hqp, ← hp]; exact congrArg _ hId, rfl, rfl, rfl, rfl⟩
    · exact ⟨s, hq, rfl, rfl, rfl, rfl⟩
  · have hPos := hStore.refPos p r hp
    rw [KVBlockManager.releaseBlock_last hp (by omega)]
    refine ⟨fun q s hq => ?_, fun tier k hNone => ?_⟩
    · dsimp only at hq
      rw [PhysicalBlockTable.get_remove] at hq
      split at hq
      · exact absurd hq (by simp)
      · exact ⟨s, hq, rfl, rfl, rfl, rfl⟩
    · by_cases hk : k = p
      · subst hk
        exact deleteFromTiers_content_none hNone
      · exact (deleteFromTiers_content_ne hk _ _ tier).trans hNone

theorem Shrinks.trans {m'' : KVBlockManager} (h : Shrinks m m') (h' : Shrinks m' m'') :
    Shrinks m m'' where
  record p r'' hp'' := by
    obtain ⟨r', hp', hKey', hTier', hHash', hPrefix'⟩ := h'.record p r'' hp''
    obtain ⟨r, hp, hKey, hTier, hHash, hPrefix⟩ := h.record p r' hp'
    exact ⟨r, hp, hKey'.trans hKey, hTier'.trans hTier, hHash'.trans hHash,
      hPrefix'.trans hPrefix⟩
  content tier k hNone := h'.content tier k (h.content tier k hNone)

/-- **A release drops records and bytes, and makes none.** -/
theorem releaseSession_shrinks (hInv : Inv m) (key : String) :
    Shrinks m (m.releaseSession key) := by
  have hRefl : Shrinks m (m.popSession key) :=
    ⟨fun _ r hp => ⟨r, hp, rfl, rfl, rfl, rfl⟩, fun _ _ h => h⟩
  cases hs : m.sessions.get? key with
  | none =>
    rw [KVBlockManager.releaseSession_of_none hs]
    exact hRefl
  | some s =>
    rw [KVBlockManager.releaseSession_of_some hs]
    refine (foldl_releaseBlock_induct (Q := fun _ _ => True) (motive := Shrinks m)
      (fun _ _ _ _ hStore hp hm => hm.trans (releaseBlock_shrinks hStore hp))
      s.nodup_physicalIds (m := m.popSession key) hInv.store ?_ hRefl).2
    intro p hp
    obtain ⟨r, hr⟩ := hInv.live_of_refsTo hs (mem_physicalIds.mp hp)
    exact ⟨r, hr, trivial⟩

theorem releaseSession_get_none_iff (hInv : Inv m) {key : String} {s : SessionBlockTable}
    (hs : m.sessions.get? key = some s) (hp : m.physical.get p = some r) :
    (m.releaseSession key).physical.get p = none ↔ 0 < s.refsTo p ∧ r.refcount = 1 := by
  have hRefs := (releaseSession_refs hInv hs p).1
  have hPos := hInv.store.refPos p r hp
  rw [PhysicalBlockTable.refs_of_get hp] at hRefs
  constructor
  · intro hNone
    rw [PhysicalBlockTable.refs_of_none hNone] at hRefs
    split at hRefs
    · next hTo => exact ⟨hTo, by omega⟩
    · omega
  · rintro ⟨hTo, hOne⟩
    rw [if_pos hTo, hOne] at hRefs
    by_contra hSome
    obtain ⟨r', hr'⟩ := Option.ne_none_iff_exists'.mp hSome
    have hPos' := (releaseSession_inv hInv key).store.refPos p r' hr'
    rw [PhysicalBlockTable.refs_of_get hr'] at hRefs
    omega

end

end Neuroswarm.Kv
