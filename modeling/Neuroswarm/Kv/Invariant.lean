import Neuroswarm.Kv.Effects
import Neuroswarm.Lib.Run

/-!
# KV memory runtime — the invariant of the block manager

`Inv` holds in every state the manager reaches, whatever is called on it:

* the store is sound (`StoreInv`) and so are the sessions (`SessInv`);
* every block that a live session points to counts at least as many references
  as there are logical blocks pointing to it, so no block is freed early
  and its bytes can be read (`sessionsReadable_along`).

That the counts are not merely large enough but exact is a separate matter
(`exactRefs_along_iff`): `Balanced` says of one call that the references it takes
and the logical blocks it adds match, which every call but two guarantees.
-/

namespace Neuroswarm.Kv

structure Inv (m : KVBlockManager) : Prop where
  store : StoreInv m.providers m.physical m.nextUuid
  sess : SessInv m
  /-- Every logical block of a live session is counted. -/
  covered : ∀ p, m.liveRefs p ≤ m.physical.refs p

/-- For every id, references counted and logical blocks grow by the same number. -/
def Balanced (m m' : KVBlockManager) : Prop :=
  ∀ p, m'.physical.refs p + m.liveRefs p = m.physical.refs p + m'.liveRefs p

theorem Balanced.trans {m m' m'' : KVBlockManager} (h : Balanced m m') (h' : Balanced m' m'') :
    Balanced m m'' := by
  intro p
  have h₁ := h p
  have h₂ := h' p
  omega

theorem Balanced.of_same {m m' : KVBlockManager} (hSessions : m'.sessions = m.sessions)
    (hRefs : ∀ p, m'.physical.refs p = m.physical.refs p) : Balanced m m' := by
  intro p
  rw [hRefs, liveRefs_congr hSessions]

theorem Inv.of_balanced {m m' : KVBlockManager} (h : Inv m)
    (hStore : StoreInv m'.providers m'.physical m'.nextUuid) (hSess : SessInv m')
    (hBalanced : Balanced m m') : Inv m' where
  store := hStore
  sess := hSess
  covered p := by
    have hOld := h.covered p
    have hBoth := hBalanced p
    omega

theorem Inv.new (cfg : KvConfig) : Inv (.new cfg) where
  store := StoreInv.new cfg
  sess := by constructor <;> simp [KVBlockManager.new]
  covered p := by simp [KVBlockManager.liveRefs, KVBlockManager.new, Dict.total, Dict.empty]

theorem Inv.live_of_refsTo {m : KVBlockManager} (h : Inv m) {key : String}
    {s : SessionBlockTable} (hs : m.sessions.get? key = some s) {p : StableId}
    (hp : 0 < s.refsTo p) : ∃ r, m.physical.get p = some r := by
  have hSession : s.refsTo p ≤ m.liveRefs p := Dict.le_total hs fun _ s => s.refsTo p
  have hCovered := h.covered p
  exact PhysicalBlockTable.exists_of_refs_pos (by omega)

-- ------ Calls that take references

section

variable {sha : Sha256} {m m' : KVBlockManager}

theorem Opened.inv (h : Inv m) {key : String} (hOp : Opened key m m') :
    Inv m' ∧ Balanced m m' := by
  have hBal : Balanced m m' := by
    intro p
    rw [hOp.physical, hOp.liveRefs]
  refine ⟨h.of_balanced ?_ hOp.sess hBal, hBal⟩
  rw [hOp.providers, hOp.physical, hOp.nextUuid]
  exact h.store

variable {r : PhysicalBlockRecord}

theorem Retained.inv (h : Inv m) {key : String} {b : Block} (hRet : Retained key r b m m') :
    Inv m' ∧ Balanced m m' := by
  have hBal : Balanced m m' := by
    intro p
    rw [hRet.physical, PhysicalBlockTable.refs_put, hRet.gained.liveRefs]
    dsimp only
    split
    · next hp =>
      rw [hp, PhysicalBlockTable.refs_of_get hRet.live]
      omega
    · omega
  refine ⟨h.of_balanced ?_ hRet.gained.sess hBal, hBal⟩
  rw [hRet.providers, hRet.physical]
  exact (h.store.mono hRet.gained.nextUuid).restamp hRet.live rfl rfl rfl (Nat.succ_pos _)

theorem Admitted.inv (h : Inv m) {req : AllocateRequest} {b : Block}
    (hAdm : Admitted sha req r b m m') : Inv m' ∧ Balanced m m' := by
  -- nothing was registered under the new id
  have hNone := h.store.get_none (Nat.le_of_eq hAdm.uuid.symm)
  have hBal : Balanced m m' := by
    intro p
    rw [hAdm.physical, PhysicalBlockTable.refs_insert, hAdm.gained.liveRefs]
    split
    · next hp =>
      rw [hp, PhysicalBlockTable.refs_of_none hNone, hAdm.recRef]
      omega
    · omega
  refine ⟨h.of_balanced ?_ hAdm.gained.sess hBal, hBal⟩
  obtain ⟨hOn, hSame, hContent⟩ := ProviderRegistry.put_spec hAdm.providers
  have hUuid := hAdm.uuid
  have hDrawn := hAdm.drawn
  rw [hAdm.physical]
  refine h.store.insert ⟨by omega, by omega⟩ ?_ (by rw [hAdm.recRef]; omega) hSame ?_ ?_
  · rw [hAdm.recKey]
    omega
  · intro tier k hk
    rw [hContent, if_neg fun hEq => hk (by rw [hAdm.recKey, hEq.2])]
  · rw [hAdm.recTier, hAdm.recKey, hSame, hContent, if_pos ⟨rfl, rfl⟩]
    exact ⟨hOn, by simp⟩

theorem allocate_inv (h : Inv m) (req : AllocateRequest) (now : Time) :
    Inv (m.allocate sha req now).2 ∧ Balanced m (m.allocate sha req now).2 := by
  obtain ⟨r, b, m', hEq, hCase⟩ := allocate_cases sha h.store h.sess req now
  rw [hEq]
  rcases hCase with ⟨-, hRet, -⟩ | ⟨hAdm, -⟩
  · exact hRet.inv h
  · exact hAdm.inv h

theorem reusePrefix_inv (h : Inv m) (key : String) (result : PrefixMatchResult)
    (agentId : String) (now : Time) :
    Inv (m.reusePrefix key result agentId now).2 ∧
      Balanced m (m.reusePrefix key result agentId now).2 := by
  have hOp := createSession_opened h.sess key agentId now
  exact reuseLoop_induct (motive := fun m' => Inv m' ∧ Balanced m m')
    (fun _ _ _ _ _ hm hRet _ => ⟨(hRet.inv hm.1).1, hm.2.trans (hRet.inv hm.1).2⟩)
    result.matchedBlocks [] hOp.sess hOp.isOpen (hOp.inv h)

-- ------ Calls that rewrite a record in place

/-- A live record changes without its id, its key or its count, and the sessions stay. -/
theorem Inv.update (h : Inv m) {p : StableId} {r' : PhysicalBlockRecord}
    (hp : m.physical.get p = some r) (hPhys : m'.physical = m.physical.put r')
    (hId : r'.physicalId = r.physicalId) (hKey : r'.providerKey = r.providerKey)
    (hRef : r'.refcount = r.refcount)
    (hOn : ∀ tier, m'.providers.online tier = m.providers.online tier)
    (hContent : ∀ tier k, k ≠ r.providerKey →
      m'.providers.content tier k = m.providers.content tier k)
    (hStored : m'.providers.online r'.tier = true ∧
      m'.providers.content r'.tier r'.providerKey ≠ none) (hSessions : m'.sessions = m.sessions)
    (hLogical : m'.logicalTables = m.logicalTables) (hNext : m'.nextUuid = m.nextUuid) :
    Inv m' ∧ Balanced m m' := by
  have hBal : Balanced m m' := by
    refine Balanced.of_same hSessions fun q => ?_
    rw [hPhys, PhysicalBlockTable.refs_put_of_refcount hp hId hRef]
  refine ⟨h.of_balanced ?_ (h.sess.congr hSessions hLogical (by omega)) hBal, hBal⟩
  rw [hPhys, hNext]
  exact h.store.update hp hId hKey (by rw [hRef]; exact h.store.refPos p r hp) hOn hContent
    hStored

theorem readPayload_inv (h : Inv m) (p : StableId) (now : Time) :
    Inv (m.readPayload p now).2 ∧ Balanced m (m.readPayload p now).2 := by
  rcases readPayload_cases h.store p now with ⟨-, hEq⟩ | ⟨r, data, hp, hData, hEq⟩
  · rw [hEq]
    exact ⟨h, fun _ => rfl⟩
  · rw [hEq]
    exact h.update hp rfl rfl rfl rfl (fun _ => rfl) (fun _ _ _ => rfl) (h.store.stored p r hp)
      rfl rfl rfl

theorem writeInPlace_inv (h : Inv m) (p : StableId) (payload : Bytes) :
    Inv (m.writeInPlace sha p payload).2 ∧ Balanced m (m.writeInPlace sha p payload).2 := by
  cases hp : m.physical.get p with
  | none =>
    unfold KVBlockManager.writeInPlace
    rw [hp]
    exact ⟨h, fun _ => rfl⟩
  | some r =>
    obtain ⟨providers, hPut, hEq⟩ := writeInPlace_ok sha h.store hp payload
    obtain ⟨hOn, hSame, -⟩ := ProviderRegistry.put_spec hPut
    rw [hEq]
    refine h.update hp rfl rfl rfl rfl hSame ?_ ?_ rfl rfl rfl
    · intro tier k hk
      exact ProviderRegistry.put_content_ne hPut hk tier
    · show providers.online r.tier = true ∧ providers.content r.tier r.providerKey ≠ none
      rw [hSame, ProviderRegistry.put_content_self hPut]
      exact ⟨hOn, by simp⟩

theorem migrateBlock_inv (h : Inv m) (policy : TieringPolicy) (p : StableId)
    (target : StorageTier) (now : Time) :
    Inv (m.migrateBlock policy p target now).2 ∧
      Balanced m (m.migrateBlock policy p target now).2 := by
  rcases migrateBlock_cases h.store policy p target now with
    hEq | ⟨r, data, reg₁, reg₂, r', hp, hTier, hData, hPut, hDel, hr', hEq⟩
  · rw [hEq]
    exact ⟨h, fun _ => rfl⟩
  · obtain ⟨hOn, hSame₁, -⟩ := ProviderRegistry.put_spec hPut
    obtain ⟨hSame₂, -⟩ := ProviderRegistry.delete_spec hDel
    rw [hEq]
    subst hr'
    refine h.update hp rfl rfl rfl rfl (fun t => (hSame₂ t).trans (hSame₁ t)) ?_ ?_ rfl rfl rfl
    · intro tier k hk
      exact ProviderRegistry.moved_content_ne hPut hDel hk tier
    · show reg₂.online target = true ∧ reg₂.content target r.providerKey ≠ none
      rw [hSame₂, hSame₁, ProviderRegistry.moved_content_self hPut hDel hTier]
      exact ⟨hOn, by simp⟩

theorem lookupPrefix_inv (h : Inv m) (blockPayloads : List Bytes) :
    Inv (m.lookupPrefix sha blockPayloads).2 ∧ Balanced m (m.lookupPrefix sha blockPayloads).2 :=
  ⟨⟨h.store, h.sess.congr rfl rfl (Nat.le_refl _), h.covered⟩, fun _ => rfl⟩

-- ------ The clone of a shared block

/-- What `write_cow` does to a shared block: some record `e` (a new one, or the
one indexed under the new content) counts one more reference than before, and
holds the new content in L1. -/
theorem writeClone_cases (sha : Sha256) (h : Inv m) {p : StableId} (hp : m.physical.get p = some r)
    (payload : Bytes) :
    ∃ e m', m.writeClone sha p payload = (.ok e, m') ∧ Inv m' ∧ m'.sessions = m.sessions ∧
      m'.prefixCache = m.prefixCache ∧ m.nextUuid ≤ m'.nextUuid ∧ e.tier = .l1Ram ∧
      m.providers.put .l1Ram e.providerKey payload = .ok m'.providers ∧
      (∀ q, m'.physical.refs q = m.physical.refs q + if q = e.physicalId then 1 else 0) ∧
      ((∃ e₀, m.physical.getByHash (contentHash sha payload) = some e₀ ∧
          e = { e₀ with refcount := e₀.refcount + 1, tier := .l1Ram } ∧
          m'.physical = m.physical.put e) ∨
        (m.physical.getByHash (contentHash sha payload) = none ∧
          m.nextUuid ≤ e.physicalId.uuid ∧ m.nextUuid ≤ e.providerKey.uuid ∧
          e.contentHash = contentHash sha payload ∧ e.prefixHash = r.prefixHash ∧
          m.physical.get e.physicalId = none ∧ m'.physical = m.physical.insert e)) := by
  cases hHash : m.physical.getByHash (contentHash sha payload) with
  | some e =>
    -- the content is indexed: its record is stamped L1 and counts one more
    obtain ⟨-, he⟩ := PhysicalBlockTable.getByHash_eq_some.mp hHash
    obtain ⟨providers, hPut, hEq⟩ := writeClone_hit h.store.l1 hp hHash
    obtain ⟨hOn, hSame, -⟩ := ProviderRegistry.put_spec hPut
    have hRefs : ∀ q, (m.physical.put { e with refcount := e.refcount + 1, tier := .l1Ram }).refs q
        = m.physical.refs q + if q = e.physicalId then 1 else 0 := by
      intro q
      rw [PhysicalBlockTable.refs_put]
      split
      · next hq => rw [hq, PhysicalBlockTable.refs_of_get he]
      · rfl
    refine ⟨_, _, hEq, ?_, rfl, rfl, Nat.le_succ _, rfl, hPut, hRefs, Or.inl ⟨e, rfl, rfl, rfl⟩⟩
    constructor
    · refine (h.store.mono (Nat.le_succ _)).update he rfl rfl (Nat.succ_pos _) hSame ?_ ?_
      · intro tier k hk
        exact ProviderRegistry.put_content_ne hPut hk tier
      · show providers.online .l1Ram = true ∧ providers.content .l1Ram e.providerKey ≠ none
        rw [hSame, ProviderRegistry.put_content_self hPut]
        exact ⟨hOn, by simp⟩
    · exact h.sess.congr rfl rfl (Nat.le_succ _)
    · intro q
      have hCovered := h.covered q
      have hq := hRefs q
      show m.liveRefs q ≤ _
      dsimp only
      omega
  | none =>
    -- two ids are drawn, the key first
    obtain ⟨providers, e, hPut, he, hEq⟩ := writeClone_fresh h.store.l1 hp hHash
    obtain ⟨hOn, hSame, -⟩ := ProviderRegistry.put_spec hPut
    have hId : e.physicalId = ⟨.phys, m.nextUuid + 1⟩ := by rw [he]
    have hKey : e.providerKey = ⟨.phys, m.nextUuid⟩ := by rw [he]
    have hTier : e.tier = .l1Ram := by rw [he]
    have hOne : e.refcount = 1 := by rw [he]
    have hNone : m.physical.get e.physicalId = none :=
      h.store.get_none (by rw [hId]; exact Nat.le_succ _)
    have hRefs : ∀ q, (m.physical.insert e).refs q
        = m.physical.refs q + if q = e.physicalId then 1 else 0 := by
      intro q
      rw [PhysicalBlockTable.refs_insert]
      split
      · next hq => rw [hq, PhysicalBlockTable.refs_of_none hNone, hOne]
      · rfl
    refine ⟨e, _, hEq, ?_, rfl, rfl, Nat.le_add_right .., hTier, hKey ▸ hPut, hRefs,
      Or.inr ⟨rfl, ?_, ?_, by rw [he], by rw [he], hNone, rfl⟩⟩
    · constructor
      · refine h.store.insert ?_ ?_ (by omega) hSame ?_ ?_
        · rw [hId]
          exact ⟨Nat.le_succ _, Nat.lt_succ_self _⟩
        · rw [hKey]
          dsimp only
          omega
        · intro tier k hk
          exact ProviderRegistry.put_content_ne hPut (hKey ▸ hk) tier
        · show providers.online e.tier = true ∧ providers.content e.tier e.providerKey ≠ none
          rw [hTier, hKey, hSame, ProviderRegistry.put_content_self hPut]
          exact ⟨hOn, by simp⟩
      · exact h.sess.congr rfl rfl (by dsimp only; omega)
      · intro q
        have hCovered := h.covered q
        have hq := hRefs q
        show m.liveRefs q ≤ _
        dsimp only
        omega
    · rw [hId]
      exact Nat.le_succ _
    · rw [hKey]

theorem writeCow_inv (h : Inv m) (p : StableId) (payload : Bytes) :
    Inv (m.writeCow sha p payload).2 := by
  unfold KVBlockManager.writeCow
  split
  · cases hp : m.physical.get p with
    | none =>
      next hCow =>
      rw [KVBlockManager.needsCow, hp] at hCow
      exact absurd hCow (by simp)
    | some r =>
      obtain ⟨e, m', hEq, hInv, -⟩ := writeClone_cases sha h hp payload
      rw [hEq]
      exact hInv
  · exact (writeInPlace_inv h p payload).1

-- ------ Release

theorem liveRefs_popSession {key : String} {s : SessionBlockTable}
    (hs : m.sessions.get? key = some s) (p : StableId) :
    (m.popSession key).liveRefs p + s.refsTo p = m.liveRefs p :=
  Dict.total_erase hs fun _ s => s.refsTo p

theorem SessInv.popSession (h : SessInv m) (key : String) : SessInv (m.popSession key) := by
  have hOld : ∀ k s, (m.popSession key).sessions.get? k = some s →
      k ≠ key ∧ m.sessions.get? k = some s := fun _ _ => Dict.get?_erase_eq_some.mp
  constructor
  · intro k s hs
    exact h.own k s (hOld k s hs).2
  · intro k s hs
    obtain ⟨hk, hs'⟩ := hOld k s hs
    obtain ⟨l, hl⟩ := h.logical k s hs'
    exact ⟨l, (Dict.get?_erase_ne _ hk).trans hl⟩
  · intro k s hs
    exact h.blockIds k s (hOld k s hs).2

theorem releaseSession_refs (h : Inv m) {key : String} {s : SessionBlockTable}
    (hs : m.sessions.get? key = some s) (p : StableId) :
    (m.releaseSession key).physical.refs p =
        m.physical.refs p - (if 0 < s.refsTo p then 1 else 0) ∧
      (m.releaseSession key).liveRefs p + s.refsTo p = m.liveRefs p := by
  rw [KVBlockManager.releaseSession_of_some hs]
  constructor
  · rw [refs_foldl_releaseBlock s.nodup_physicalIds (m := m.popSession key) h.store]
    · simp only [mem_physicalIds]
      rfl
    · intro q hq
      exact h.live_of_refsTo hs (mem_physicalIds.mp hq)
  · rw [liveRefs_congr (foldl_releaseBlock_frame _ _).1]
    exact liveRefs_popSession hs p

theorem releaseSession_inv (h : Inv m) (key : String) : Inv (m.releaseSession key) := by
  cases hs : m.sessions.get? key with
  | none =>
    rw [KVBlockManager.releaseSession_of_none hs]
    refine ⟨h.store, h.sess.popSession key, fun p => ?_⟩
    have hSame : (m.popSession key).sessions = m.sessions := Dict.erase_of_none hs
    rw [liveRefs_congr hSame]
    exact h.covered p
  | some s =>
    have hIds : ∀ p ∈ s.physicalIds, ∃ r, (m.popSession key).physical.get p = some r ∧ True := by
      intro p hp
      obtain ⟨r, hr⟩ := h.live_of_refsTo hs (mem_physicalIds.mp hp)
      exact ⟨r, hr, trivial⟩
    obtain ⟨hStore, -⟩ := foldl_releaseBlock_induct (motive := fun _ => True)
      (fun _ _ _ _ _ _ _ => trivial) s.nodup_physicalIds
      (m := m.popSession key) h.store hIds trivial
    obtain ⟨hSessions, hLogical, -, hNext⟩ :=
      foldl_releaseBlock_frame s.physicalIds (m.popSession key)
    refine ⟨?_, ?_, fun p => ?_⟩
    · rw [KVBlockManager.releaseSession_of_some hs]
      exact hStore
    · rw [KVBlockManager.releaseSession_of_some hs]
      exact (h.sess.popSession key).congr hSessions hLogical (Nat.le_of_eq hNext.symm)
    · obtain ⟨hRefs, hLive⟩ := releaseSession_refs h hs p
      have hCovered := h.covered p
      rw [hRefs]
      split <;> omega

-- ------ Every call

theorem step_inv (h : Inv m) (op : Op) : Inv (step sha m op) := by
  cases op with
  | createSession key agentId now =>
    exact ((createSession_opened h.sess key agentId now).inv h).1
  | allocate req now => exact (allocate_inv h req now).1
  | reusePrefix key result agentId now => exact (reusePrefix_inv h key result agentId now).1
  | releaseSession key => exact releaseSession_inv h key
  | readPayload p now => exact (readPayload_inv h p now).1
  | writeCow p payload => exact writeCow_inv h p payload
  | lookupPrefix blockPayloads => exact (lookupPrefix_inv h blockPayloads).1
  | migrateBlock policy p target now => exact (migrateBlock_inv h policy p target now).1

end

/-- **The invariant holds in every state the manager reaches.** -/
theorem reachable_inv (sha : Sha256) (cfg : KvConfig) (ops : List Op) :
    Inv (Run.exec (step sha) (.new cfg) ops) :=
  Run.exec_of_invariant (I := Inv) (fun _ op h => step_inv h op) (Inv.new cfg) ops

/-- Every block that a live session points to is registered, counts as many references as
logical blocks point to it at least, and has its bytes in its tier. -/
def SessionsReadable (m : KVBlockManager) : Prop :=
  ∀ key s, m.sessions.get? key = some s → ∀ p, 0 < s.refsTo p →
    ∃ r data, m.physical.get p = some r ∧ m.liveRefs p ≤ r.refcount ∧
      m.providers.get r.tier r.providerKey = .ok data

/-- **No session is left with a dangling block**, whatever the others write, migrate and
release. -/
theorem sessionsReadable_along (sha : Sha256) (cfg : KvConfig) (ops : List Op) :
    Run.Along (step sha) SessionsReadable (.new cfg) ops := by
  refine Run.along_iff_take.mpr fun n key s hs p hp => ?_
  have h := reachable_inv sha cfg (ops.take n)
  obtain ⟨r, hr⟩ := h.live_of_refsTo hs hp
  obtain ⟨data, -, hGet⟩ := h.store.get_ok hr
  exact ⟨r, data, hr, PhysicalBlockTable.refs_of_get hr ▸ h.covered p, hGet⟩

end Neuroswarm.Kv

/-!
## Reference counts

Two questions about `PhysicalBlockRecord.refcount`.

* Is it exact? References are taken one for each logical block, but
  `release_session` drops one for each distinct physical id. `exactRefs_along_iff`:
  the counts are exact throughout a run iff no session is released that points
  to one block twice, and no shared block is written.
* Does a copy-on-write move a reference? The clone takes one and the source
  keeps its own. `movesReference_iff`: in every reachable state a write of a live
  block meets the contract iff the block is not shared.
-/

namespace Neuroswarm.Kv

open Run (exec Along Every)

-- ------ Exact counts

/-- Every registered block counts the logical blocks of live sessions that point
to it; without sessions the table is empty. -/
structure ExactRefs (m : KVBlockManager) : Prop where
  exact : ∀ p r, m.physical.get p = some r → r.refcount = m.liveRefs p
  drained : m.sessions.entries = [] → m.physical.allRecords = []

/-- The step keeps exact counts: a session that is released points to each block
once, and a block that is written is not shared. -/
def KeepsExactRefs (m : KVBlockManager) : Op → Prop
  | .releaseSession key => ∀ s, m.getSession key = some s → ∀ p, s.refsTo p ≤ 1
  | .writeCow p _ => m.needsCow p = false
  | _ => True

section

variable {sha : Sha256} {m m' : KVBlockManager}

/-- Exact counts, for registered and unregistered ids alike. -/
def CountsAgree (m : KVBlockManager) : Prop := ∀ p, m.physical.refs p = m.liveRefs p

theorem CountsAgree.balanced (h : CountsAgree m) (hBal : Balanced m m') : CountsAgree m' := by
  intro p
  have hOld := h p
  have hBoth := hBal p
  omega

theorem CountsAgree.exactRefs (hInv : Inv m) (h : CountsAgree m) : ExactRefs m where
  exact p r hp := by rw [← h p, PhysicalBlockTable.refs_of_get hp]
  drained hNone := by
    rw [List.eq_nil_iff_forall_not_mem]
    intro r hr
    obtain ⟨p, hp⟩ := Dict.mem_values_iff.mp hr
    have hPos := hInv.store.refPos p r hp
    have hExact := h p
    rw [PhysicalBlockTable.refs_of_get hp] at hExact
    simp [KVBlockManager.liveRefs, Dict.total, hNone] at hExact
    omega

theorem countsAgree_step (hInv : Inv m) (h : CountsAgree m) {op : Op}
    (hC : KeepsExactRefs m op) : CountsAgree (step sha m op) := by
  cases op with
  | createSession key agentId now =>
    exact h.balanced ((createSession_opened hInv.sess key agentId now).inv hInv).2
  | allocate req now => exact h.balanced (allocate_inv hInv req now).2
  | reusePrefix key result agentId now =>
    exact h.balanced (reusePrefix_inv hInv key result agentId now).2
  | readPayload p now => exact h.balanced (readPayload_inv hInv p now).2
  | lookupPrefix blockPayloads => exact h.balanced (lookupPrefix_inv hInv blockPayloads).2
  | migrateBlock policy p target now =>
    exact h.balanced (migrateBlock_inv hInv policy p target now).2
  | writeCow p payload =>
    have hCow : m.needsCow p = false := hC
    show CountsAgree (m.writeCow sha p payload).2
    unfold KVBlockManager.writeCow
    rw [hCow]
    exact h.balanced (writeInPlace_inv hInv p payload).2
  | releaseSession key =>
    show CountsAgree (m.releaseSession key)
    cases hs : m.sessions.get? key with
    | none =>
      rw [KVBlockManager.releaseSession_of_none hs]
      have hSame : (m.popSession key).sessions = m.sessions := Dict.erase_of_none hs
      exact h.balanced (Balanced.of_same hSame fun _ => rfl)
    | some s =>
      intro p
      obtain ⟨hRefs, hLive⟩ := releaseSession_refs hInv hs p
      have hOnce : s.refsTo p ≤ 1 := hC s hs p
      have hOld := h p
      rw [hRefs]
      split <;> omega

theorem not_exactRefs_step (hInv : Inv m) (h : CountsAgree m) {op : Op}
    (hC : ¬ KeepsExactRefs m op) : ¬ ExactRefs (step sha m op) := by
  -- too many references on some id contradict exactness
  have hExcess : ∀ m' : KVBlockManager, ∀ p, m'.liveRefs p < m'.physical.refs p →
      ¬ ExactRefs m' := by
    intro m' p hLt hExact
    obtain ⟨r, hr⟩ := PhysicalBlockTable.exists_of_refs_pos (Nat.lt_of_le_of_lt (Nat.zero_le _) hLt)
    have hEq := hExact.exact p r hr
    rw [PhysicalBlockTable.refs_of_get hr] at hLt
    omega
  cases op with
  | createSession _ _ _ => exact absurd trivial hC
  | allocate _ _ => exact absurd trivial hC
  | reusePrefix _ _ _ _ => exact absurd trivial hC
  | readPayload _ _ => exact absurd trivial hC
  | lookupPrefix _ => exact absurd trivial hC
  | migrateBlock _ _ _ _ => exact absurd trivial hC
  | writeCow p payload =>
    have hCow : m.needsCow p = true := by
      unfold KeepsExactRefs at hC
      simpa using hC
    show ¬ ExactRefs (m.writeCow sha p payload).2
    unfold KVBlockManager.writeCow
    rw [if_pos hCow]
    cases hp : m.physical.get p with
    | none => simp [KVBlockManager.needsCow, hp] at hCow
    | some r =>
      obtain ⟨e, m', hEq, -, hSessions, -, -, -, -, hRefs, -⟩ := writeClone_cases sha hInv hp payload
      rw [hEq]
      refine hExcess m' e.physicalId ?_
      have hOld := h e.physicalId
      rw [hRefs, if_pos rfl, liveRefs_congr hSessions]
      omega
  | releaseSession key =>
    unfold KeepsExactRefs at hC
    push Not at hC
    obtain ⟨s, hs, p, hTwice⟩ := hC
    obtain ⟨hRefs, hLive⟩ := releaseSession_refs hInv hs p
    refine hExcess (m.releaseSession key) p ?_
    have hOld := h p
    rw [hRefs, if_pos (by omega)]
    omega

end

/-- **When the reference counts are exact.** Throughout a run on an empty manager
every count is the number of logical blocks of live sessions pointing to the
block, and the table is empty when no session is left, iff every step keeps to
`KeepsExactRefs`. -/
theorem exactRefs_along_iff (sha : Sha256) (cfg : KvConfig) (ops : List Op) :
    Along (step sha) ExactRefs (.new cfg) ops ↔
      Every (step sha) KeepsExactRefs (.new cfg) ops := by
  refine Run.along_iff_every (I := fun m => Inv m ∧ CountsAgree m)
    (fun m h => h.2.exactRefs h.1)
    (fun m op h hC => ⟨step_inv h.1 op, countsAgree_step h.1 h.2 hC⟩)
    (fun m op h hC => not_exactRefs_step h.1 h.2 hC) ⟨Inv.new cfg, ?_⟩ ops
  intro p
  simp [KVBlockManager.liveRefs, KVBlockManager.new, Dict.total, Dict.empty,
    PhysicalBlockTable.refs]

/-- One payload allocated twice in a session: its block counts two references,
the release drops one, and the block outlives the last session. -/
theorem not_exactRefs_repeated_payload :
    ¬ ExactRefs (exec (step .spelled) (.new .plain)
      [.allocate { sessionId := "a", payload := [1, 2] } 0,
       .allocate { sessionId := "a", payload := [1, 2] } 1,
       .releaseSession "a"]) := by
  intro h
  have hEmpty := h.drained (by decide +kernel)
  revert hEmpty
  decide +kernel

-- ------ Copy-on-write

/-- The contract of a write: the returned block holds the payload; when the
written block was shared, every other block still reads what it read; and
references are neither made nor lost, one moves when the block is cloned. -/
def MovesReference (sha : Sha256) (m : KVBlockManager) (p : StableId) (payload : Bytes) : Prop :=
  ∀ e m', m.writeCow sha p payload = (.ok e, m') →
    (∀ now, (m'.readPayload e.physicalId now).1 = .ok payload) ∧
    (1 < m.physical.refs p → ∀ q r, q ≠ e.physicalId → m.physical.get q = some r →
      ∀ now, (m'.readPayload q now).1 = (m.readPayload q now).1) ∧
    m'.physical.totalRefs = m.physical.totalRefs ∧
    (e.physicalId ≠ p → m'.physical.refs p + 1 = m.physical.refs p ∧
      m'.physical.refs e.physicalId = m.physical.refs e.physicalId + 1)

section

variable {sha : Sha256} {m : KVBlockManager}

theorem movesReference_inPlace (hInv : Inv m) {p : StableId} {r : PhysicalBlockRecord}
    (hp : m.physical.get p = some r) (hRef : r.refcount ≤ 1) (payload : Bytes) :
    MovesReference sha m p payload := by
  have hId : r.physicalId = p := PhysicalBlockTable.get_physicalId hp
  have hCow : m.needsCow p = false := by
    unfold KVBlockManager.needsCow
    rw [hp]
    exact decide_eq_false (by omega)
  obtain ⟨providers, hPut, hEq⟩ := writeInPlace_ok sha hInv.store hp payload
  obtain ⟨hOn, hSame, hContent⟩ := ProviderRegistry.put_spec hPut
  intro e m' hWrite
  unfold KVBlockManager.writeCow at hWrite
  rw [hCow, if_neg Bool.false_ne_true, hEq, Prod.mk.injEq, Except.ok.injEq] at hWrite
  obtain ⟨rfl, rfl⟩ := hWrite
  refine ⟨fun now => ?_, fun hShared => ?_, ?_, fun hNe => absurd hId hNe⟩
  · unfold KVBlockManager.readPayload
    dsimp only
    rw [PhysicalBlockTable.get_put, if_pos rfl]
    have hGet : providers.get r.tier r.providerKey = .ok payload := by
      rw [ProviderRegistry.get_eq_ok_iff, hSame, hContent, if_pos ⟨rfl, rfl⟩]
      exact ⟨hOn, rfl⟩
    simp [hGet, PhysicalBlockTable.touch, PhysicalBlockTable.get_put]
  · rw [PhysicalBlockTable.refs_of_get hp] at hShared
    omega
  · exact Nat.add_right_cancel (PhysicalBlockTable.totalRefs_put (r := r)
      (by rw [← hId] at hp; exact hp))

theorem not_movesReference_clone (hInv : Inv m) {p : StableId} {r : PhysicalBlockRecord}
    (hp : m.physical.get p = some r) (hRef : 1 < r.refcount) (payload : Bytes) :
    ¬ MovesReference sha m p payload := by
  have hCow : m.needsCow p = true := by
    unfold KVBlockManager.needsCow
    rw [hp]
    exact decide_eq_true hRef
  obtain ⟨e, m', hEq, -, -, -, -, -, -, hRefs, hTable⟩ := writeClone_cases sha hInv hp payload
  intro hMoves
  obtain ⟨-, -, hTotal, -⟩ := hMoves e m' (by
    unfold KVBlockManager.writeCow
    rw [if_pos hCow, hEq])
  rcases hTable with ⟨e₀, hHash, he, hPut⟩ | ⟨-, -, -, -, -, hNone, hInsert⟩
  · obtain ⟨-, he₀⟩ := PhysicalBlockTable.getByHash_eq_some.mp hHash
    have hGet : m.physical.get e.physicalId = some e₀ := by rw [he]; exact he₀
    have hSum := PhysicalBlockTable.totalRefs_put hGet
    rw [← hPut, he] at hSum
    dsimp only at hSum
    omega
  · have hSum := PhysicalBlockTable.totalRefs_insert hNone
    have hOne := hRefs e.physicalId
    rw [hInsert, PhysicalBlockTable.refs_insert, if_pos rfl, if_pos rfl,
      PhysicalBlockTable.refs_of_none hNone] at hOne
    rw [hInsert] at hTotal
    omega

end

/-- **When a write moves one reference.** In every reachable state, a write of a
live block meets the contract iff the block is not shared. -/
theorem movesReference_iff (sha : Sha256) (cfg : KvConfig) (ops : List Op) (p : StableId)
    (payload : Bytes) (hLive : p ∈ (exec (step sha) (.new cfg) ops).physical.blocks.keys) :
    MovesReference sha (exec (step sha) (.new cfg) ops) p payload ↔
      (exec (step sha) (.new cfg) ops).physical.refs p ≤ 1 := by
  have hInv := reachable_inv sha cfg ops
  obtain ⟨r, hp⟩ := Option.isSome_iff_exists.mp (Dict.mem_keys_iff.mp hLive)
  rw [PhysicalBlockTable.refs_of_get hp]
  constructor
  · intro hMoves
    by_contra hShared
    exact not_movesReference_clone hInv hp (by omega) payload hMoves
  · intro hRef
    exact movesReference_inPlace hInv hp hRef payload

/-- A block that one session allocated once may be written. -/
theorem movesReference_single :
    MovesReference .spelled (exec (step .spelled) (.new .plain)
      [.allocate { sessionId := "a", payload := [1] } 0]) ⟨.phys, 0⟩ [2] :=
  (movesReference_iff .spelled .plain [.allocate { sessionId := "a", payload := [1] } 0]
    ⟨.phys, 0⟩ [2] (by decide +kernel)).mpr (by decide +kernel)

/-- Two sessions share a block and one of them writes: the clone is a third
reference, the source keeps both of its own. -/
theorem not_movesReference_shared :
    ¬ MovesReference .spelled (exec (step .spelled) (.new .plain)
      [.allocate { sessionId := "a", payload := [1] } 0,
       .allocate { sessionId := "b", payload := [1] } 1]) ⟨.phys, 0⟩ [2] := by
  have hRefs : (exec (step .spelled) (.new .plain)
      [.allocate { sessionId := "a", payload := [1] } 0,
       .allocate { sessionId := "b", payload := [1] } 1]).physical.refs ⟨.phys, 0⟩ = 2 := by
    decide +kernel
  obtain ⟨r, hp⟩ := PhysicalBlockTable.exists_of_refs_pos (Nat.lt_of_lt_of_eq Nat.two_pos hRefs.symm)
  rw [PhysicalBlockTable.refs_of_get hp] at hRefs
  exact not_movesReference_clone (reachable_inv ..) hp (by omega) [2]

end Neuroswarm.Kv
