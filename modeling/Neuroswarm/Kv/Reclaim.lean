import Neuroswarm.Kv.Frame

/-!
# KV memory runtime — reclaiming the bytes of released blocks

`release_session` deletes by physical id, at the first tier that has it. The
bytes of a block stand under its provider key, which differs from its id for a
clone, and a block that a write clones into may leave a copy in a colder tier.

Neither kind of block is ever unregistered: the reference taken by the write is
given back by no release (`Placed`). What a release unregisters is stored under
its own id, in one tier.

* `step_placed` — every call keeps `Placed`.
* `nothingLeft_along` — in a run traced with the provider keys of the records it
  has unregistered, no tier ever holds bytes under one of them.
-/

namespace Neuroswarm.Kv

open Run (Along)
open KVBlockManager (releaseTiers deleteFromTiers releaseBlock)

-- ------ Deleting one key

theorem deleteFromTiers_sole {key : StableId} {reg : ProviderRegistry} {tier : StorageTier}
    {tiers : List StorageTier} (hTier : tier ∈ tiers) (hOn : reg.online tier = true)
    (hSole : ∀ t, t ≠ tier → reg.content t key = none) (t : StorageTier) :
    (deleteFromTiers key tiers reg).content t key = none := by
  rcases deleteFromTiers_cases key tiers reg with ⟨hEq, hNone⟩ | ⟨t', -, hHas, hDel⟩
  · rw [hEq]
    by_cases ht : t = tier
    · rw [ht]
      exact hNone tier hTier hOn
    · exact hSole t ht
  · have ht' : t' = tier := by
      by_contra hne
      exact hHas (hSole t' hne)
    rw [(ProviderRegistry.delete_spec hDel).2]
    by_cases ht : t = t'
    · rw [if_pos ⟨ht, rfl⟩]
    · rw [if_neg fun h => ht h.1]
      exact hSole t (ht' ▸ ht)

-- ------ One key in a release

section

variable {m : KVBlockManager}

theorem releaseBlock_ne (m : KVBlockManager) (p : StableId) :
    (∀ q, q ≠ p → (m.releaseBlock p).physical.get q = m.physical.get q) ∧
      (∀ tier k, k ≠ p →
        (m.releaseBlock p).providers.content tier k = m.providers.content tier k) ∧
      ∀ tier, (m.releaseBlock p).providers.online tier = m.providers.online tier := by
  unfold releaseBlock
  dsimp only
  refine ⟨fun q hq => ?_, fun tier k hk => ?_, fun tier => ?_⟩
  · have hGet : (m.physical.release p).2.get q = m.physical.get q := by
      unfold PhysicalBlockTable.release
      cases hp : m.physical.get p with
      | none => rfl
      | some r =>
        have hId := PhysicalBlockTable.get_physicalId hp
        dsimp only
        split
        · rw [PhysicalBlockTable.get_remove, if_neg (by rw [hId]; exact hq)]
        · rw [PhysicalBlockTable.get_put, if_neg (by rw [hId]; exact hq)]
    split <;> exact hGet
  · split
    · exact deleteFromTiers_content_ne hk _ _ tier
    · rfl
  · split
    · exact deleteFromTiers_online _ _ _ tier
    · rfl

theorem foldl_releaseBlock_ne (ids : List StableId) (m : KVBlockManager) :
    (∀ q, q ∉ ids → (ids.foldl releaseBlock m).physical.get q = m.physical.get q) ∧
      (∀ tier k, k ∉ ids →
        (ids.foldl releaseBlock m).providers.content tier k = m.providers.content tier k) ∧
      ∀ tier, (ids.foldl releaseBlock m).providers.online tier = m.providers.online tier := by
  induction ids generalizing m with
  | nil => exact ⟨fun _ _ => rfl, fun _ _ _ => rfl, fun _ => rfl⟩
  | cons p rest ih =>
    obtain ⟨hGet, hContent, hOn⟩ := ih (m.releaseBlock p)
    obtain ⟨hGet₁, hContent₁, hOn₁⟩ := releaseBlock_ne m p
    refine ⟨fun q hq => ?_, fun tier k hk => ?_, fun tier => (hOn tier).trans (hOn₁ tier)⟩
    · rw [List.mem_cons, not_or] at hq
      exact (hGet q hq.2).trans (hGet₁ q hq.1)
    · rw [List.mem_cons, not_or] at hk
      exact (hContent tier k hk.2).trans (hContent₁ tier k hk.1)

variable {r : PhysicalBlockRecord}

theorem releaseSession_content {key : String} {s : SessionBlockTable}
    (hs : m.sessions.get? key = some s) {p : StableId} (hp : m.physical.get p = some r)
    (hTo : 0 < s.refsTo p) (hOne : r.refcount = 1) :
    ∃ reg, (∀ tier, reg.online tier = m.providers.online tier) ∧
      (∀ tier, reg.content tier p = m.providers.content tier p) ∧
      ∀ tier, (m.releaseSession key).providers.content tier p =
        (deleteFromTiers p releaseTiers reg).content tier p := by
  -- split the ids at `p`: what is released before and after it has other keys
  obtain ⟨before, after, hIds⟩ := List.append_of_mem (mem_physicalIds.mpr hTo)
  have hNodup := s.nodup_physicalIds
  rw [hIds, List.nodup_append, List.nodup_cons] at hNodup
  have hBefore : p ∉ before := fun hm => hNodup.2.2 p hm p List.mem_cons_self rfl
  have hAfter : p ∉ after := hNodup.2.1.1
  obtain ⟨hGet, hContent, hOn⟩ := foldl_releaseBlock_ne before (m.popSession key)
  have hp' : (before.foldl releaseBlock (m.popSession key)).physical.get p = some r :=
    (hGet p hBefore).trans hp
  refine ⟨(before.foldl releaseBlock (m.popSession key)).providers, hOn, fun tier =>
    hContent tier p hBefore, fun tier => ?_⟩
  rw [KVBlockManager.releaseSession_of_some hs, hIds, List.foldl_append, List.foldl_cons,
    (foldl_releaseBlock_ne after _).2.1 tier p hAfter,
    KVBlockManager.releaseBlock_last hp' hOne]

-- ------ Copies of a block

def SoleCopy (m : KVBlockManager) (p : StableId) (r : PhysicalBlockRecord) : Prop :=
  r.providerKey = p ∧ ∀ tier, tier ≠ r.tier → m.providers.content tier p = none

/-- A block that is not a sole copy has a reference that no session holds: the
one taken by the write that cloned it, which is never given back. -/
def Placed (m : KVBlockManager) : Prop :=
  ∀ p r, m.physical.get p = some r → SoleCopy m p r ∨ m.liveRefs p < r.refcount

variable {sha : Sha256} {m' : KVBlockManager}

theorem Placed.of_records (h : Placed m)
    (hEach : ∀ p r', m'.physical.get p = some r' →
      (∃ r, m.physical.get p = some r ∧ (SoleCopy m p r → SoleCopy m' p r') ∧
        m'.liveRefs p + r.refcount ≤ m.liveRefs p + r'.refcount) ∨
      SoleCopy m' p r' ∨ m'.liveRefs p < r'.refcount) : Placed m' := by
  intro p r' hp'
  rcases hEach p r' hp' with ⟨r, hp, hSole, hRefs⟩ | hNew
  · rcases h p r hp with hOld | hLt
    · exact Or.inl (hSole hOld)
    · exact Or.inr (by omega)
  · exact hNew

theorem Placed.update (hInv : Inv m) (h : Placed m) {p : StableId} {r' : PhysicalBlockRecord}
    (hp : m.physical.get p = some r) (hPhys : m'.physical = m.physical.put r')
    (hId : r'.physicalId = r.physicalId) (hContent : ∀ tier k, k ≠ r.providerKey →
      m'.providers.content tier k = m.providers.content tier k)
    (hLive : ∀ q, q ≠ p → m'.liveRefs q = m.liveRefs q)
    (hNew : (SoleCopy m p r → SoleCopy m' p r') ∧
      m'.liveRefs p + r.refcount ≤ m.liveRefs p + r'.refcount ∨
      m'.liveRefs p < r'.refcount) : Placed m' := by
  have hpid : r'.physicalId = p := by rw [hId, PhysicalBlockTable.get_physicalId hp]
  refine h.of_records fun q s hq => ?_
  rw [hPhys, PhysicalBlockTable.get_put, hpid] at hq
  split at hq
  · next hqp =>
    subst hqp
    obtain rfl := Option.some.inj hq
    rcases hNew with hSole | hLt
    · exact Or.inl ⟨r, hp, hSole⟩
    · exact Or.inr (Or.inr hLt)
  · next hne =>
    refine Or.inl ⟨s, hq, fun hSole => ⟨hSole.1, fun tier hTier => ?_⟩, ?_⟩
    · have hKey : q ≠ r.providerKey := fun hEq =>
        hne (hInv.store.ownKey p q r s hp hq hEq.symm).symm
      exact (hContent tier q hKey).trans (hSole.2 tier hTier)
    · rw [hLive q hne]

theorem Retained.placed (hInv : Inv m) (h : Placed m) {key : String} {b : Block}
    (hRet : Retained key r b m m') : Placed m' := by
  refine h.update hInv hRet.live hRet.physical rfl (fun _ _ _ => by rw [hRet.providers])
    (fun q hq => ?_) (Or.inl ⟨fun hSole => ⟨hSole.1, fun tier hTier => ?_⟩, ?_⟩)
  · rw [hRet.gained.liveRefs, if_neg hq]
    rfl
  · rw [hRet.providers]
    exact hSole.2 tier hTier
  · rw [hRet.gained.liveRefs, if_pos rfl]
    dsimp only
    omega

theorem Admitted.placed (hInv : Inv m) (h : Placed m) {req : AllocateRequest} {b : Block}
    (hAdm : Admitted sha req r b m m') : Placed m' := by
  obtain ⟨-, -, hContent⟩ := ProviderRegistry.put_spec hAdm.providers
  refine h.of_records fun q s hq => ?_
  rw [hAdm.physical, PhysicalBlockTable.get_insert] at hq
  split at hq
  · next hqp =>
    obtain rfl := Option.some.inj hq
    refine Or.inr (Or.inl ⟨hAdm.recKey.trans hqp.symm, fun tier hTier => ?_⟩)
    rw [hContent, if_neg fun hEq => hTier (hEq.1.trans hAdm.recTier.symm)]
    exact hInv.store.contentLt tier q (by rw [hqp, hAdm.uuid])
  · next hne =>
    refine Or.inl ⟨s, hq, fun hSole => ⟨hSole.1, fun tier hTier => ?_⟩, ?_⟩
    · rw [hContent, if_neg fun hEq => hne hEq.2]
      exact hSole.2 tier hTier
    · rw [hAdm.gained.liveRefs, if_neg hne]
      rfl

theorem Opened.placed (h : Placed m) {key : String} (hOp : Opened key m m') : Placed m' := by
  refine h.of_records fun q s hq => ?_
  rw [hOp.physical] at hq
  refine Or.inl ⟨s, hq, fun hSole => ⟨hSole.1, fun tier hTier => ?_⟩, ?_⟩
  · rw [hOp.providers]
    exact hSole.2 tier hTier
  · rw [hOp.liveRefs]

theorem writeInPlace_placed (hInv : Inv m) (h : Placed m) (p : StableId) (payload : Bytes) :
    Placed (m.writeInPlace sha p payload).2 := by
  cases hp : m.physical.get p with
  | none =>
    unfold KVBlockManager.writeInPlace
    rw [hp]
    exact h
  | some r =>
    obtain ⟨providers, hPut, hEq⟩ := writeInPlace_ok sha hInv.store hp payload
    obtain ⟨-, -, hContent⟩ := ProviderRegistry.put_spec hPut
    rw [hEq]
    refine h.update hInv hp rfl rfl (fun tier k hk => ?_) (fun _ _ => rfl)
      (Or.inl ⟨fun hSole => ⟨hSole.1, fun tier hTier => ?_⟩, Nat.le_refl _⟩)
    · exact ProviderRegistry.put_content_ne hPut hk tier
    · exact ((hContent tier p).trans (if_neg fun hEq => hTier hEq.1)).trans (hSole.2 tier hTier)

theorem writeClone_placed (hInv : Inv m) (h : Placed m) {p : StableId}
    (hp : m.physical.get p = some r) (payload : Bytes) :
    Placed (m.writeClone sha p payload).2 := by
  obtain ⟨e, m', hEq, hInv', hSessions, -, -, -, hPut, hRefs, hTable⟩ :=
    writeClone_cases sha hInv hp payload
  have hOther : ∀ tier k, k ≠ e.providerKey →
      m'.providers.content tier k = m.providers.content tier k := fun tier _ hk =>
    ProviderRegistry.put_content_ne hPut hk tier
  have hLive : m'.liveRefs e.physicalId < m'.physical.refs e.physicalId := by
    have hCovered := hInv.covered e.physicalId
    rw [hRefs, if_pos rfl, liveRefs_congr hSessions]
    omega
  rw [hEq]
  rcases hTable with ⟨e₀, hHash, he, hPhys⟩ | ⟨-, -, hKey, -, -, hNone, hPhys⟩
  · obtain ⟨-, he₀⟩ := PhysicalBlockTable.getByHash_eq_some.mp hHash
    have hId : e.physicalId = e₀.physicalId := by rw [he]
    refine h.update hInv he₀ hPhys hId ?_ (fun q _ => liveRefs_congr hSessions q) (Or.inr ?_)
    · rw [he] at hOther
      exact hOther
    · rw [hPhys, PhysicalBlockTable.refs_put, if_pos rfl] at hLive
      rw [← hId]
      exact hLive
  · refine h.of_records fun q s hq => ?_
    rw [hPhys, PhysicalBlockTable.get_insert] at hq
    split at hq
    · next hqp =>
      obtain rfl := Option.some.inj hq
      rw [hPhys, PhysicalBlockTable.refs_insert, if_pos rfl] at hLive
      exact Or.inr (Or.inr (hqp ▸ hLive))
    · refine Or.inl ⟨s, hq, fun hSole => ⟨hSole.1, fun tier hTier => ?_⟩, ?_⟩
      · have hne : q ≠ e.providerKey := by
          rintro rfl
          have hLt := (hInv.store.idLt _ s hq).1
          omega
        exact (hOther tier q hne).trans (hSole.2 tier hTier)
      · rw [liveRefs_congr hSessions]

theorem migrateBlock_placed (hInv : Inv m) (h : Placed m) (policy : TieringPolicy)
    (p : StableId) (target : StorageTier) (now : Time) :
    Placed (m.migrateBlock policy p target now).2 := by
  rcases migrateBlock_cases hInv.store policy p target now with
    hEq | ⟨r, data, reg₁, reg₂, r', hp, -, -, hPut, hDel, hr', hEq⟩
  · rw [hEq]
    exact h
  · obtain ⟨-, -, hContent₁⟩ := ProviderRegistry.put_spec hPut
    obtain ⟨-, hContent₂⟩ := ProviderRegistry.delete_spec hDel
    rw [hEq]
    subst hr'
    refine h.update hInv hp rfl rfl (fun tier k hk => ?_) (fun _ _ => rfl)
      (Or.inl ⟨fun hSole => ⟨hSole.1, fun tier hTier => ?_⟩, Nat.le_refl _⟩)
    · exact ProviderRegistry.moved_content_ne hPut hDel hk tier
    · -- the copy in the tier it came from is deleted, the others were not there
      show reg₂.content tier p = none
      rw [hContent₂, hSole.1]
      by_cases hFrom : tier = r.tier
      · rw [if_pos ⟨hFrom, rfl⟩]
      · rw [if_neg fun hEq => hFrom hEq.1, hContent₁, if_neg fun hEq => hTier hEq.1]
        exact hSole.2 tier hFrom

theorem releaseSession_placed (hInv : Inv m) (h : Placed m) (key : String) :
    Placed (m.releaseSession key) := by
  have hShrinks := releaseSession_shrinks hInv key
  refine h.of_records fun p r' hp' => ?_
  obtain ⟨r, hp, hKey, hTier, -⟩ := hShrinks.record p r' hp'
  refine Or.inl ⟨r, hp, fun hSole => ⟨hKey.trans hSole.1, fun tier hNe => ?_⟩, ?_⟩
  · exact hShrinks.content tier p (hSole.2 tier (hTier ▸ hNe))
  · cases hs : m.sessions.get? key with
    | none =>
      rw [KVBlockManager.releaseSession_of_none hs] at hp' ⊢
      have hSame : (m.popSession key).sessions = m.sessions := Dict.erase_of_none hs
      obtain rfl : r = r' := Option.some.inj (hp.symm.trans hp')
      rw [liveRefs_congr hSame]
    | some s =>
      -- the session gives back at most as many references as it held
      obtain ⟨hRefs, hLive⟩ := releaseSession_refs hInv hs p
      rw [PhysicalBlockTable.refs_of_get hp, PhysicalBlockTable.refs_of_get hp'] at hRefs
      split at hRefs <;> omega

theorem step_placed (hInv : Inv m) (h : Placed m) (op : Op) : Placed (step sha m op) := by
  cases op with
  | createSession key agentId now =>
    exact (createSession_opened hInv.sess key agentId now).placed h
  | allocate req now =>
    show Placed (m.allocate sha req now).2
    obtain ⟨r, b, m', hEq, hCase⟩ := allocate_cases sha hInv.store hInv.sess req now
    rw [hEq]
    rcases hCase with ⟨-, hRet, -⟩ | ⟨hAdm, -⟩
    · exact hRet.placed hInv h
    · exact hAdm.placed hInv h
  | reusePrefix key result agentId now =>
    have hOp := createSession_opened hInv.sess key agentId now
    exact (reuseLoop_induct (motive := fun m' => Inv m' ∧ Placed m')
      (fun _ _ _ _ _ hm hRet _ => ⟨(hRet.inv hm.1).1, hRet.placed hm.1 hm.2⟩)
      result.matchedBlocks [] hOp.sess hOp.isOpen ⟨(hOp.inv hInv).1, hOp.placed h⟩).2
  | releaseSession key => exact releaseSession_placed hInv h key
  | readPayload p now =>
    show Placed (m.readPayload p now).2
    rcases readPayload_cases hInv.store p now with ⟨-, hEq⟩ | ⟨r, data, hp, -, hEq⟩
    · rw [hEq]
      exact h
    · rw [hEq]
      exact h.update hInv hp rfl rfl (fun _ _ _ => rfl) (fun _ _ => rfl)
        (Or.inl ⟨fun hSole => hSole, Nat.le_refl _⟩)
  | writeCow p payload =>
    show Placed (m.writeCow sha p payload).2
    unfold KVBlockManager.writeCow
    split
    · next hCow =>
      cases hp : m.physical.get p with
      | none => simp [KVBlockManager.needsCow, hp] at hCow
      | some r => exact writeClone_placed hInv h hp payload
    · exact writeInPlace_placed hInv h p payload
  | lookupPrefix blockPayloads => exact h
  | migrateBlock policy p target now => exact migrateBlock_placed hInv h policy p target now

end

-- ------ Traced runs

/-- A manager, and the provider keys of the records that are gone. -/
structure Traced where
  m : KVBlockManager
  gone : List StableId

/-- The provider keys of the records registered in `m` and no longer in `m'`. -/
def goneKeys (m m' : KVBlockManager) : List StableId :=
  (m.physical.allRecords.filter fun r => (m'.physical.get r.physicalId).isNone).map
    PhysicalBlockRecord.providerKey

namespace Traced

/-- A call on the manager, with the keys it makes unreachable. -/
def step (sha : Sha256) (σ : Traced) (op : Op) : Traced where
  m := Kv.step sha σ.m op
  gone := σ.gone ++ goneKeys σ.m (Kv.step sha σ.m op)

def new (cfg : KvConfig) : Traced := ⟨.new cfg, []⟩

/-- No registered tier holds bytes under the key of a record that is gone. -/
def NothingLeft (σ : Traced) : Prop :=
  ∀ k ∈ σ.gone, ∀ tier, σ.m.providers.content tier k = none

end Traced

theorem mem_goneKeys {m m' : KVBlockManager} {k : StableId} :
    k ∈ goneKeys m m' ↔ ∃ p r, m.physical.get p = some r ∧ m'.physical.get p = none ∧
      r.providerKey = k := by
  unfold goneKeys PhysicalBlockTable.allRecords
  simp only [List.mem_map, List.mem_filter, Dict.mem_values_iff, Option.isNone_iff_eq_none]
  constructor
  · rintro ⟨r, ⟨⟨p, hp⟩, hNone⟩, hKey⟩
    rw [m.physical.keyed p r hp] at hNone
    exact ⟨p, r, hp, hNone, hKey⟩
  · rintro ⟨p, r, hp, hNone, hKey⟩
    exact ⟨r, ⟨⟨p, hp⟩, by rw [m.physical.keyed p r hp]; exact hNone⟩, hKey⟩

/-- The keys of the records that are gone were drawn, hold nothing, and are no
longer the key of any record. -/
structure TracedInv (σ : Traced) : Prop where
  inv : Inv σ.m
  placed : Placed σ.m
  clean : σ.NothingLeft
  drawn : ∀ k ∈ σ.gone, k.uuid < σ.m.nextUuid
  unused : ∀ k ∈ σ.gone, ∀ p r, σ.m.physical.get p = some r → r.providerKey ≠ k

section

variable {sha : Sha256} {σ : Traced}

theorem TracedInv.keeps (h : TracedInv σ) {op : Op} (hOp : ∀ key, op ≠ .releaseSession key) :
    TracedInv (σ.step sha op) := by
  have hKeeps : Keeps σ.m (step sha σ.m op) := step_keeps h.inv hOp
  have hGone : goneKeys σ.m (step sha σ.m op) = [] := by
    rw [List.eq_nil_iff_forall_not_mem]
    intro k hk
    obtain ⟨p, r, hp, hNone, -⟩ := mem_goneKeys.mp hk
    obtain ⟨r', hp', -⟩ := hKeeps.kept p r hp
    rw [hNone] at hp'
    exact absurd hp' (by simp)
  have hSame : (σ.step sha op).gone = σ.gone := by
    show σ.gone ++ _ = _
    rw [hGone, List.append_nil]
  have hUnused : ∀ k ∈ σ.gone, ∀ p r', (step sha σ.m op).physical.get p = some r' →
      r'.providerKey ≠ k := by
    intro k hk p r' hp' hKey
    rcases hKeeps.fresh p r' hp' with ⟨r, hp, hKey'⟩ | hNew
    · exact h.unused k hk p r hp (hKey'.symm.trans hKey)
    · have hDrawn := h.drawn k hk
      rw [hKey] at hNew
      omega
  refine ⟨step_inv h.inv op, step_placed h.inv h.placed op, ?_, ?_, ?_⟩
  · intro k hk tier
    rw [hSame] at hk
    by_contra hHas
    rcases hKeeps.written tier k hHas with hOld | ⟨p, r', hp', hKey⟩
    · exact hOld (h.clean k hk tier)
    · exact hUnused k hk p r' hp' hKey
  · intro k hk
    rw [hSame] at hk
    exact Nat.lt_of_lt_of_le (h.drawn k hk) hKeeps.nextUuid
  · intro k hk
    rw [hSame] at hk
    exact hUnused k hk

theorem TracedInv.release (h : TracedInv σ) (key : String) :
    TracedInv (σ.step sha (.releaseSession key)) := by
  have hShrinks := releaseSession_shrinks h.inv key
  have hInv' := releaseSession_inv h.inv key
  have hNext : (σ.m.releaseSession key).nextUuid = σ.m.nextUuid := by
    cases hs : σ.m.sessions.get? key with
    | none => rw [KVBlockManager.releaseSession_of_none hs]; rfl
    | some s =>
      rw [KVBlockManager.releaseSession_of_some hs]
      exact (foldl_releaseBlock_frame _ _).2.2.2
  -- what a key that goes with this release was
  have hGone : ∀ k ∈ goneKeys σ.m (σ.m.releaseSession key), ∃ s r,
      σ.m.sessions.get? key = some s ∧ σ.m.physical.get k = some r ∧ r.providerKey = k ∧
      0 < s.refsTo k ∧ r.refcount = 1 ∧ (σ.m.releaseSession key).physical.get k = none ∧
      ∀ tier, tier ≠ r.tier → σ.m.providers.content tier k = none := by
    intro k hk
    obtain ⟨p, r, hp, hNone, hKey⟩ := mem_goneKeys.mp hk
    cases hs : σ.m.sessions.get? key with
    | none =>
      rw [KVBlockManager.releaseSession_of_none hs] at hNone
      exact absurd (hp.symm.trans hNone) (by simp)
    | some s =>
      obtain ⟨hTo, hOne⟩ := (releaseSession_get_none_iff h.inv hs hp).mp hNone
      -- its last reference is one the session holds, so it was never cloned into
      have hLive : s.refsTo p ≤ σ.m.liveRefs p := Dict.le_total hs fun _ s => s.refsTo p
      obtain ⟨hOwn, hSole⟩ : SoleCopy σ.m p r := by
        rcases h.placed p r hp with hSole | hLt
        · exact hSole
        · omega
      obtain rfl : p = k := hOwn.symm.trans hKey
      exact ⟨s, r, rfl, hp, hOwn, hTo, hOne, hNone, hSole⟩
  refine ⟨hInv', releaseSession_placed h.inv h.placed key, ?_, ?_, ?_⟩
  · intro k hk tier
    rcases List.mem_append.mp hk with hOld | hNew
    · exact hShrinks.content tier k (h.clean k hOld tier)
    · obtain ⟨s, r, hs, hp, hKey, hTo, hOne, -, hSole⟩ := hGone k hNew
      obtain ⟨reg, hOn, hContent, hAfter⟩ := releaseSession_content hs hp hTo hOne
      have hOnline := (h.inv.store.stored k r hp).1
      show (σ.m.releaseSession key).providers.content tier k = none
      rw [hAfter]
      exact deleteFromTiers_sole (h.inv.store.registered r.tier hOnline)
        ((hOn r.tier).trans hOnline) (fun t ht => (hContent t).trans (hSole t ht)) tier
  · intro k hk
    show k.uuid < (σ.m.releaseSession key).nextUuid
    rw [hNext]
    rcases List.mem_append.mp hk with hOld | hNew
    · exact h.drawn k hOld
    · obtain ⟨s, r, -, hp, -⟩ := hGone k hNew
      exact (h.inv.store.idLt k r hp).1
  · intro k hk p r' hp' hKey
    obtain ⟨r, hp, hKey', -⟩ := hShrinks.record p r' hp'
    rcases List.mem_append.mp hk with hOld | hNew
    · exact h.unused k hOld p r hp (hKey'.symm.trans hKey)
    · obtain ⟨s, r₀, -, hk₀, hKey₀, -, -, hNone, -⟩ := hGone k hNew
      have hSame : p = k :=
        h.inv.store.keyInj p k r r₀ hp hk₀ ((hKey'.symm.trans hKey).trans hKey₀.symm)
      have hp'' : (σ.m.releaseSession key).physical.get p = some r' := hp'
      rw [hSame, hNone] at hp''
      exact absurd hp'' (by simp)

end

/-- **Released blocks leave no bytes behind.** In every state of every run on an
empty manager, no registered tier holds bytes under the key of a block that a
release has unregistered. -/
theorem nothingLeft_along (sha : Sha256) (cfg : KvConfig) (ops : List Op) :
    Along (Traced.step sha) Traced.NothingLeft (.new cfg) ops := by
  have hNew : TracedInv (.new cfg) := by
    refine ⟨Inv.new cfg, fun p r hp => ?_, ?_, ?_, ?_⟩
    · simp [Traced.new, KVBlockManager.new] at hp
    all_goals
      intro k hk
      exact absurd hk List.not_mem_nil
  have hStep : ∀ σ op, TracedInv σ → TracedInv (σ.step sha op) := by
    intro σ op h
    cases op with
    | releaseSession key => exact h.release key
    | _ => exact h.keeps (by simp)
  refine (Run.along_iff_take.mpr fun n => ?_)
  exact (Run.exec_of_invariant hStep hNew (ops.take n)).clean

end Neuroswarm.Kv
