import Neuroswarm.Kv.StoreInvariant

/-!
# KV memory runtime — what the calls do to the tables

What allocation and prefix reuse, reads, writes and migrations, and the release of a
session leave of the manager. Every invariant of the manager is derived from these.
-/

/-!
## What allocation and prefix reuse do to the tables

Under the invariants that make their error paths unreachable, the calls that
take references return, and the manager they leave is the old one with a few
components replaced.

* `Gained` — a session has one more logical block, pointing to a given id.
* `Retained` — a live block is acquired for a session: a dedup hit, or one turn
  of the loop of `reuse_prefix`.
* `Admitted` — a payload is stored and registered under a new id.
* `allocate_cases`, `reuseLoop_induct` — the two calls in these terms.
-/

namespace Neuroswarm.Kv

-- ------ Logical references

/-- The logical blocks of a session that point to `p`. -/
def SessionBlockTable.refsTo (s : SessionBlockTable) (p : StableId) : Nat :=
  s.blocks.total fun _ b => if b.physicalId = some p then 1 else 0

namespace KVBlockManager

/-- The logical blocks of all live sessions that point to `p`. -/
def liveRefs (m : KVBlockManager) (p : StableId) : Nat :=
  m.sessions.total fun _ s => s.refsTo p

/-- The session under `key` has the logical block `b`. -/
def holds (m : KVBlockManager) (key : String) (b : Block) : Prop :=
  ∃ s, m.sessions.get? key = some s ∧ ∃ b', s.blocks.get? b.id = some b' ∧
    b'.physicalId = b.physicalId

end KVBlockManager

structure SessInv (m : KVBlockManager) : Prop where
  own : ∀ key s, m.sessions.get? key = some s → s.sessionId = key
  logical : ∀ key s, m.sessions.get? key = some s → ∃ l, m.logicalTables.get? key = some l
  blockIds : ∀ key s, m.sessions.get? key = some s → ∀ id b, s.blocks.get? id = some b →
    b.id = id ∧ id.uuid < m.nextUuid

variable {m' : KVBlockManager}

theorem SessInv.congr {m : KVBlockManager} (h : SessInv m) (hSessions : m'.sessions = m.sessions)
    (hLogical : m'.logicalTables = m.logicalTables) (hNext : m.nextUuid ≤ m'.nextUuid) :
    SessInv m' where
  own := by rw [hSessions]; exact h.own
  logical := by rw [hSessions, hLogical]; exact h.logical
  blockIds key s hs id b hb := by
    rw [hSessions] at hs
    have := h.blockIds key s hs id b hb
    exact ⟨this.1, by omega⟩

variable {key : String} {s : SessionBlockTable}

theorem SessInv.set {m : KVBlockManager} (h : SessInv m)
    (hSessions : m'.sessions = m.sessions.set key s) (hOwn : s.sessionId = key)
    (hLogical : ∀ k l, m.logicalTables.get? k = some l → ∃ l, m'.logicalTables.get? k = some l)
    (hKey : ∃ l, m'.logicalTables.get? key = some l)
    (hBlocks : ∀ id b, s.blocks.get? id = some b → b.id = id ∧ id.uuid < m'.nextUuid)
    (hNext : m.nextUuid ≤ m'.nextUuid) : SessInv m' := by
  have hCases : ∀ k s', m'.sessions.get? k = some s' →
      (k = key ∧ s' = s) ∨ m.sessions.get? k = some s' := by
    intro k s' hs'
    rw [hSessions, Dict.get?_set] at hs'
    split at hs'
    · next hk => exact Or.inl ⟨hk, (Option.some.inj hs').symm⟩
    · exact Or.inr hs'
  constructor
  · intro k s' hs'
    rcases hCases k s' hs' with ⟨rfl, rfl⟩ | hs'
    · exact hOwn
    · exact h.own k s' hs'
  · intro k s' hs'
    rcases hCases k s' hs' with ⟨rfl, -⟩ | hs'
    · exact hKey
    · obtain ⟨l, hl⟩ := h.logical k s' hs'
      exact hLogical k l hl
  · intro k s' hs' id b hb
    rcases hCases k s' hs' with ⟨-, rfl⟩ | hs'
    · exact hBlocks id b hb
    · have := h.blockIds k s' hs' id b hb
      exact ⟨this.1, by omega⟩

theorem liveRefs_congr {m : KVBlockManager} (h : m'.sessions = m.sessions) (p : StableId) :
    m'.liveRefs p = m.liveRefs p := by
  unfold KVBlockManager.liveRefs
  rw [h]

variable {s' : SessionBlockTable}

theorem liveRefs_set {m : KVBlockManager} (hs : m.sessions.get? key = some s)
    (h : m'.sessions = m.sessions.set key s') (p : StableId) :
    m'.liveRefs p + s.refsTo p = m.liveRefs p + s'.refsTo p := by
  unfold KVBlockManager.liveRefs
  rw [h]
  exact Dict.total_set_of_some hs s' fun _ s => s.refsTo p

theorem liveRefs_add {m : KVBlockManager} {id p : StableId} {b : Block}
    (hs : m.sessions.get? key = some s) (h : m'.sessions = m.sessions.set key s')
    (hNew : s.blocks.get? id = none) (hBlocks : s'.blocks = s.blocks.set id b)
    (hId : b.physicalId = some p) (q : StableId) :
    m'.liveRefs q = m.liveRefs q + if q = p then 1 else 0 := by
  have hSession := liveRefs_set hs h q
  have hBlock : s'.refsTo q = s.refsTo q + if b.physicalId = some q then 1 else 0 := by
    unfold SessionBlockTable.refsTo
    rw [hBlocks]
    exact Dict.total_set_of_none hNew b _
  simp only [hId, Option.some.injEq, eq_comm (a := p)] at hBlock
  omega

theorem liveRefs_rewrite {m : KVBlockManager} {id : StableId} {b b' : Block}
    (hs : m.sessions.get? key = some s) (h : m'.sessions = m.sessions.set key s')
    (hOld : s.blocks.get? id = some b) (hBlocks : s'.blocks = s.blocks.set id b')
    (hId : b'.physicalId = b.physicalId) (q : StableId) : m'.liveRefs q = m.liveRefs q := by
  have hSession := liveRefs_set hs h q
  have hTotal := Dict.total_set_of_some hOld b'
    (fun _ b => if b.physicalId = some q then 1 else 0)
  rw [hId, ← hBlocks] at hTotal
  unfold SessionBlockTable.refsTo at hSession
  omega

/-- What a session gains: one logical block, pointing to `p`. -/
structure Gained (key : String) (p : StableId) (b : Block) (m m' : KVBlockManager) : Prop where
  physicalId : b.physicalId = some p
  holds : m'.holds key b
  keeps : ∀ b', m.holds key b' → m'.holds key b'
  liveRefs : ∀ q, m'.liveRefs q = m.liveRefs q + if q = p then 1 else 0
  sess : SessInv m'
  nextUuid : m.nextUuid ≤ m'.nextUuid

theorem Gained.congr {p : StableId} {b : Block} {m m'' : KVBlockManager} (h : Gained key p b m m')
    (hSessions : m''.sessions = m'.sessions) (hLogical : m''.logicalTables = m'.logicalTables)
    (hNext : m''.nextUuid = m'.nextUuid) :
    Gained key p b m m'' where
  physicalId := h.physicalId
  holds := by unfold KVBlockManager.holds; rw [hSessions]; exact h.holds
  keeps b' hb := by unfold KVBlockManager.holds; rw [hSessions]; exact h.keeps b' hb
  liveRefs q := by rw [liveRefs_congr hSessions]; exact h.liveRefs q
  sess := h.sess.congr hSessions hLogical (by omega)
  nextUuid := by rw [hNext]; exact h.nextUuid

theorem Gained.congr_left {p : StableId} {b : Block} {m₀ m : KVBlockManager}
    (h : Gained key p b m m') (hHolds : ∀ b', m₀.holds key b' → m.holds key b')
    (hLive : ∀ q, m.liveRefs q = m₀.liveRefs q) (hNext : m₀.nextUuid ≤ m.nextUuid) :
    Gained key p b m₀ m' where
  physicalId := h.physicalId
  holds := h.holds
  keeps b' hb := h.keeps b' (hHolds b' hb)
  liveRefs q := by rw [← hLive]; exact h.liveRefs q
  sess := h.sess
  nextUuid := Nat.le_trans hNext h.nextUuid

-- ------ Opening a session

/-- The session under `key` is open; nothing else has changed. -/
structure Opened (key : String) (m m' : KVBlockManager) : Prop where
  providers : m'.providers = m.providers
  physical : m'.physical = m.physical
  prefixCache : m'.prefixCache = m.prefixCache
  nextUuid : m'.nextUuid = m.nextUuid
  isOpen : ∃ s, m'.sessions.get? key = some s
  holds : ∀ b, m.holds key b → m'.holds key b
  liveRefs : ∀ q, m'.liveRefs q = m.liveRefs q
  sess : SessInv m'

theorem createSession_opened {m : KVBlockManager} (hSess : SessInv m)
    (key agentId : String) (now : Time) : Opened key m (m.createSession key agentId now).2 := by
  unfold KVBlockManager.createSession
  split
  · next s hs =>
    exact ⟨rfl, rfl, rfl, rfl, ⟨s, hs⟩, fun _ h => h, fun _ => rfl, hSess⟩
  · next hNone =>
    refine ⟨rfl, rfl, rfl, rfl, ⟨_, Dict.get?_set_self ..⟩, ?_, ?_, ?_⟩
    · rintro b ⟨s, hs, -⟩
      rw [hNone] at hs
      exact absurd hs (by simp)
    · intro q
      exact Dict.total_set_of_none hNone _ _
    · refine hSess.set rfl rfl (fun k l hl => Dict.exists_get?_set hl ..)
        ⟨_, Dict.get?_set_self ..⟩ ?_ (Nat.le_refl _)
      intro id b hb
      simp at hb

-- ------ Attaching a logical block

theorem attachLogical_gained {m : KVBlockManager} (hSess : SessInv m)
    (hOpen : ∃ s, m.sessions.get? key = some s) (rec : PhysicalBlockRecord)
    (layer head tokenStart tokenEnd : Int) (prefixHash : String) (now : Time) (priority : Int) :
    ∃ b m', m.attachLogical key rec layer head tokenStart tokenEnd prefixHash now priority =
        some (b, m') ∧
      Gained key rec.physicalId b m m' ∧ m'.providers = m.providers ∧
      m'.physical = m.physical ∧ m'.prefixCache = m.prefixCache ∧
      ∃ s, m'.sessions.get? key = some s ∧ s.blocks.get? b.id = some b := by
  obtain ⟨s, hs⟩ := hOpen
  obtain ⟨l, hl⟩ := hSess.logical key s hs
  have hOwn : s.sessionId = key := hSess.own key s hs
  -- the id drawn for the block is new to the session
  have hFresh : s.blocks.get? ⟨.log, m.nextUuid⟩ = none := by
    by_contra hSome
    obtain ⟨b, hb⟩ := Option.ne_none_iff_exists'.mp hSome
    have := (hSess.blockIds key s hs _ b hb).2
    simp at this
  rw [KVBlockManager.attachLogical, hs]
  simp only [Option.bind_eq_bind, Option.bind_some, hOwn, hl, KVBlockManager.stableId]
  refine ⟨_, _, rfl, ?_, rfl, rfl, rfl, ⟨_, Dict.get?_set_self .., Dict.get?_set_self ..⟩⟩
  refine ⟨rfl, ⟨_, Dict.get?_set_self .., _, Dict.get?_set_self .., rfl⟩, ?_, ?_, ?_, ?_⟩
  · rintro b' ⟨s', hs', b'', hb', hId⟩
    obtain rfl : s = s' := Option.some.inj (hs.symm.trans hs')
    refine ⟨_, Dict.get?_set_self .., b'', ?_, hId⟩
    dsimp only
    rw [Dict.get?_set_ne]
    · exact hb'
    · rintro hEq
      rw [hEq, hFresh] at hb'
      exact absurd hb' (by simp)
  · exact liveRefs_add hs rfl hFresh rfl rfl
  · refine hSess.set rfl rfl (fun k l hl => Dict.exists_get?_set hl ..)
      ⟨_, Dict.get?_set_self ..⟩ ?_ (Nat.le_succ _)
    intro id b hb
    dsimp only at hb ⊢
    rw [Dict.get?_set] at hb
    split at hb
    · next hid =>
      rw [← Option.some.inj hb, hid]
      exact ⟨rfl, Nat.lt_succ_self _⟩
    · have := hSess.blockIds key s hs id b hb
      exact ⟨this.1, by omega⟩
  · exact Nat.le_succ _

-- ------ Allocation

/-- A live block is acquired for a session. -/
structure Retained (key : String) (r : PhysicalBlockRecord) (b : Block)
    (m m' : KVBlockManager) : Prop where
  live : m.physical.get r.physicalId = some r
  providers : m'.providers = m.providers
  physical : m'.physical = m.physical.put { r with refcount := r.refcount + 1 }
  gained : Gained key r.physicalId b m m'

/-- What a fresh allocation leaves: the payload in L1 under a new id `p`, its
record `r`, and a logical block that points to it. -/
structure Admitted (sha : Sha256) (req : AllocateRequest) (r : PhysicalBlockRecord) (b : Block)
    (m m' : KVBlockManager) : Prop where
  missed : m.physical.getByHash (contentHash sha req.payload) = none
  uuid : r.physicalId.uuid = m.nextUuid
  drawn : m.nextUuid < m'.nextUuid
  recHash : r.contentHash = contentHash sha req.payload
  recPrefix : r.prefixHash = req.prefixHash
  recTier : r.tier = .l1Ram
  recKey : r.providerKey = r.physicalId
  recRef : r.refcount = 1
  providers : m.providers.put .l1Ram r.physicalId req.payload = .ok m'.providers
  physical : m'.physical = m.physical.insert r
  gained : Gained req.sessionId r.physicalId b m m'

theorem allocateAttach_gained (sha : Sha256) {m : KVBlockManager} (hSess : SessInv m)
    {req : AllocateRequest} (hOpen : ∃ s, m.sessions.get? req.sessionId = some s)
    (rec : PhysicalBlockRecord) (now : Time) :
    ∃ b m', m.allocateAttach sha req rec now = (.ok b, m') ∧
      Gained req.sessionId rec.physicalId b m m' ∧ m'.providers = m.providers ∧
      m'.physical = m.physical ∧
      m'.prefixCache = (m.prefixCache.insert sha req.prefixHash req.payload rec.physicalId
        (m.requestTokenEnd req)).2 := by
  obtain ⟨b, m₁, hAttach, hGained, hProv, hPhys, hCache, s, hs, hb⟩ :=
    attachLogical_gained hSess hOpen rec req.layer req.head req.tokenStart
      (m.requestTokenEnd req) req.prefixHash now req.priority
  unfold KVBlockManager.allocateAttach
  simp only [hAttach, Dict.modify_of_some hs]
  refine ⟨_, _, rfl, ?_, hProv, hPhys, by rw [hCache]⟩
  refine ⟨hGained.physicalId,
    ⟨_, Dict.get?_set_self .., _, Dict.get?_set_self .., rfl⟩, ?_, ?_, ?_, hGained.nextUuid⟩
  · intro b' hb'
    obtain ⟨s', hs', b'', hb'', hId⟩ := hGained.keeps b' hb'
    obtain rfl : s = s' := Option.some.inj (hs.symm.trans hs')
    refine ⟨_, Dict.get?_set_self .., ?_⟩
    dsimp only
    rw [Dict.get?_set]
    split
    · next hEq =>
      rw [hEq, hb] at hb''
      exact ⟨_, rfl, by rw [← hId, ← Option.some.inj hb'']⟩
    · exact ⟨b'', hb'', hId⟩
  · intro q
    rw [← hGained.liveRefs q]
    exact liveRefs_rewrite hs rfl hb rfl (by rfl) q
  · refine hGained.sess.set rfl (hGained.sess.own _ s hs) (fun k l hl => ⟨l, hl⟩)
      (hGained.sess.logical _ s hs) ?_ (Nat.le_refl _)
    intro id b' hb'
    dsimp only at hb' ⊢
    rw [Dict.get?_set] at hb'
    split at hb'
    · next hid =>
      rw [← Option.some.inj hb', hid]
      exact ⟨rfl, (hGained.sess.blockIds _ s hs b.id b hb).2⟩
    · exact hGained.sess.blockIds _ s hs id b' hb'

theorem retain_gained {m : KVBlockManager} (hSess : SessInv m) 
    (hOpen : ∃ s, m.sessions.get? key = some s) {r : PhysicalBlockRecord}
    (hr : m.physical.get r.physicalId = some r) {physical : PhysicalBlockTable}
    (hPhys : physical = m.physical.put { r with refcount := r.refcount + 1 })
    (layer head tokenStart tokenEnd : Int) (prefixHash : String) (now : Time) (priority : Int) :
    ∃ b m', { m with physical }.attachLogical key { r with refcount := r.refcount + 1 }
        layer head tokenStart tokenEnd prefixHash now priority = some (b, m') ∧
      Retained key r b m m' ∧ m'.prefixCache = m.prefixCache := by
  have hSess' : SessInv { m with physical } := hSess.congr rfl rfl (Nat.le_refl _)
  obtain ⟨b, m', hEq, hGained, hProv, hPhys', hCache, -⟩ :=
    attachLogical_gained hSess' hOpen { r with refcount := r.refcount + 1 } layer head
      tokenStart tokenEnd prefixHash now priority
  refine ⟨b, m', hEq, ⟨hr, hProv, hPhys'.trans hPhys, ?_⟩, hCache⟩
  exact hGained.congr_left (fun _ h => h) (fun _ => rfl) (Nat.le_refl _)

theorem allocateHit_retained (sha : Sha256) {m : KVBlockManager} (hSess : SessInv m)
    {req : AllocateRequest} (hOpen : ∃ s, m.sessions.get? req.sessionId = some s)
    {r : PhysicalBlockRecord} (hr : m.physical.get r.physicalId = some r) (now : Time) :
    ∃ b m', m.allocateHit sha req r now = (.ok b, m') ∧ Retained req.sessionId r b m m' ∧
      ∃ tokenEnd, m'.prefixCache = (m.prefixCache.insert sha
        (KVBlockManager.requestPrefix req r) req.payload r.physicalId tokenEnd).2 := by
  obtain ⟨b, m', hEq, hRet, hCache⟩ := retain_gained hSess hOpen hr rfl req.layer req.head
    req.tokenStart (m.requestTokenEnd req) (KVBlockManager.requestPrefix req r) now req.priority
  unfold KVBlockManager.requestTokenEnd at hEq
  unfold KVBlockManager.allocateHit
  rw [PhysicalBlockTable.acquire_of_get hr]
  dsimp only [KVBlockManager.requestTokenEnd]
  rw [hEq]
  refine ⟨b, _, rfl, ⟨hr, hRet.providers, hRet.physical, ?_⟩, ⟨_, by rw [hCache]⟩⟩
  exact hRet.gained.congr rfl rfl rfl

theorem registerOrReuse_of_none {sha : Sha256} {m : KVBlockManager} {payload : Bytes}
    {record : PhysicalBlockRecord} (hMiss : m.physical.getByHash (contentHash sha payload) = none)
    (hHash : record.contentHash = contentHash sha payload) :
    m.registerOrReuse sha record payload =
      some (⟨record.physicalId, false, contentHash sha payload⟩,
        { m with
          physical := m.physical.insert record
          dedup := { m.dedup with lookups := m.dedup.lookups + 1 } }) := by
  have hSame : { record with contentHash := contentHash sha payload } = record := by
    rw [← hHash]
  unfold KVBlockManager.registerOrReuse
  simp only [hMiss, hSame]
  rw [PhysicalBlockTable.register_of_none (hHash ▸ hMiss)]

/-- A miss: the bytes go to L1 and their record is registered, before it is attached. -/
theorem allocateFresh_of_none {sha : Sha256} {m : KVBlockManager} {req : AllocateRequest}
    (hMiss : m.physical.getByHash (contentHash sha req.payload) = none)
    {providers : ProviderRegistry}
    (hPut : m.providers.put .l1Ram ⟨.phys, m.nextUuid⟩ req.payload = .ok providers) (now : Time) :
    m.allocateFresh sha req now =
      KVBlockManager.allocateAttach sha
        { m with
          nextUuid := m.nextUuid + 1
          providers
          physical := m.physical.insert (m.freshRecord sha req ⟨.phys, m.nextUuid⟩ now)
          dedup := { m.dedup with lookups := m.dedup.lookups + 1 } }
        req (m.freshRecord sha req ⟨.phys, m.nextUuid⟩ now) now := by
  -- the manager that holds the bytes, and no record yet
  let m₁ : KVBlockManager := { m with nextUuid := m.nextUuid + 1, providers }
  let r := m₁.freshRecord sha req ⟨.phys, m.nextUuid⟩ now
  have hReg : m₁.registerOrReuse sha r req.payload =
      some (⟨r.physicalId, false, contentHash sha req.payload⟩,
        { m₁ with
          physical := m.physical.insert r
          dedup := { m.dedup with lookups := m.dedup.lookups + 1 } }) :=
    registerOrReuse_of_none hMiss rfl
  unfold KVBlockManager.allocateFresh
  dsimp only [KVBlockManager.stableId]
  rw [hPut]
  dsimp only
  rw [hReg]
  rfl

theorem allocateFresh_admitted (sha : Sha256) {m : KVBlockManager}
    (hStore : StoreInv m.providers m.physical m.nextUuid) (hSess : SessInv m)
    (req : AllocateRequest) (hOpen : ∃ s, m.sessions.get? req.sessionId = some s)
    (hMiss : m.physical.getByHash (contentHash sha req.payload) = none) (now : Time) :
    ∃ r b m', m.allocateFresh sha req now = (.ok b, m') ∧ Admitted sha req r b m m' ∧
      ∃ tokenEnd, m'.prefixCache = (m.prefixCache.insert sha
        req.prefixHash req.payload r.physicalId tokenEnd).2 := by
  obtain ⟨providers, hPut⟩ :=
    ProviderRegistry.put_ok hStore.l1 ⟨.phys, m.nextUuid⟩ req.payload
  let r := m.freshRecord sha req ⟨.phys, m.nextUuid⟩ now
  -- the manager that has the bytes and the record
  let m₂ : KVBlockManager :=
    { m with
      nextUuid := m.nextUuid + 1
      providers
      physical := m.physical.insert r
      dedup := { m.dedup with lookups := m.dedup.lookups + 1 } }
  have hSess₂ : SessInv m₂ := hSess.congr rfl rfl (Nat.le_succ _)
  obtain ⟨b, m', hEq, hGained, hProv, hPhys, hCache⟩ :=
    allocateAttach_gained sha hSess₂ hOpen r now
  refine ⟨r, b, m', ?_, ?_, ⟨_, hCache⟩⟩
  · rw [allocateFresh_of_none hMiss hPut]
    exact hEq
  · refine ⟨hMiss, rfl, ?_, rfl, rfl, rfl, rfl, rfl, ?_, hPhys, ?_⟩
    · have := hGained.nextUuid
      show m.nextUuid < m'.nextUuid
      exact Nat.lt_of_lt_of_le (Nat.lt_succ_self _) this
    · rw [hProv]
      exact hPut
    · exact hGained.congr_left (fun _ h => h) (fun _ => rfl) (Nat.le_succ _)

theorem Opened.find {m m₁ : KVBlockManager} (h : Opened key m m₁) (sha : Sha256) (payload : Bytes) :
    (m₁.find sha payload).1 = m.physical.getByHash (contentHash sha payload) ∧
      Opened key m (m₁.find sha payload).2 := by
  rw [← h.physical]
  unfold KVBlockManager.find
  split
  · next hHash =>
    exact ⟨hHash.symm, h.providers, h.physical, h.prefixCache, h.nextUuid, h.isOpen, h.holds,
      h.liveRefs, h.sess.congr rfl rfl (Nat.le_refl _)⟩
  · next hHash =>
    exact ⟨hHash.symm, h.providers, h.physical, h.prefixCache, h.nextUuid, h.isOpen, h.holds,
      h.liveRefs, h.sess.congr rfl rfl (Nat.le_refl _)⟩

/-- **`allocate` returns.** It acquires the block indexed under the payload's
hash, or stores the payload under a new one; the prefix cache gains the block. -/
theorem allocate_cases (sha : Sha256) {m : KVBlockManager}
    (hStore : StoreInv m.providers m.physical m.nextUuid) (hSess : SessInv m)
    (req : AllocateRequest) (now : Time) :
    ∃ r b m', m.allocate sha req now = (.ok b, m') ∧
      ((m.physical.getByHash (contentHash sha req.payload) = some r ∧
          Retained req.sessionId r b m m' ∧
          ∃ tokenEnd, m'.prefixCache = (m.prefixCache.insert sha
            (KVBlockManager.requestPrefix req r) req.payload r.physicalId tokenEnd).2) ∨
        (Admitted sha req r b m m' ∧
          ∃ tokenEnd, m'.prefixCache = (m.prefixCache.insert sha
            req.prefixHash req.payload r.physicalId tokenEnd).2)) := by
  obtain ⟨hHash, hOpened⟩ :=
    (createSession_opened hSess req.sessionId req.agentId now).find sha req.payload
  unfold KVBlockManager.allocate
  dsimp only
  generalize (m.createSession req.sessionId req.agentId now).2.find sha req.payload = found
    at hHash hOpened ⊢
  obtain ⟨existing, m₁⟩ := found
  dsimp only at hHash hOpened
  cases existing with
  | some r =>
    obtain ⟨-, hr⟩ := PhysicalBlockTable.getByHash_eq_some.mp hHash.symm
    obtain ⟨b, m', hEq, hRet, hCache⟩ := allocateHit_retained sha hOpened.sess
      hOpened.isOpen (r := r) (by rw [hOpened.physical]; exact hr) now
    refine ⟨r, b, m', hEq, Or.inl ⟨hHash.symm, ⟨hr, ?_, ?_, ?_⟩, ?_⟩⟩
    · exact hRet.providers.trans hOpened.providers
    · rw [hRet.physical, hOpened.physical]
    · exact hRet.gained.congr_left hOpened.holds hOpened.liveRefs
        (Nat.le_of_eq hOpened.nextUuid.symm)
    · rw [← hOpened.prefixCache]
      exact hCache
  | none =>
    obtain ⟨r, b, m', hEq, hAdm, hCache⟩ := allocateFresh_admitted sha
      (by rw [hOpened.providers, hOpened.physical, hOpened.nextUuid]; exact hStore)
      hOpened.sess req hOpened.isOpen (by rw [hOpened.physical]; exact hHash.symm) now
    refine ⟨r, b, m', hEq, Or.inr ⟨?_, ?_⟩⟩
    · refine ⟨hHash.symm, ?_, ?_, hAdm.recHash, hAdm.recPrefix, hAdm.recTier, hAdm.recKey,
        hAdm.recRef, ?_, ?_, ?_⟩
      · rw [← hOpened.nextUuid]
        exact hAdm.uuid
      · rw [← hOpened.nextUuid]
        exact hAdm.drawn
      · rw [← hOpened.providers]
        exact hAdm.providers
      · rw [← hOpened.physical]
        exact hAdm.physical
      · exact hAdm.gained.congr_left hOpened.holds hOpened.liveRefs
          (Nat.le_of_eq hOpened.nextUuid.symm)
    · rw [← hOpened.prefixCache]
      exact hCache

-- ------ Prefix reuse

/-- **Rule for the loop of `reuse_prefix`.** What every acquisition keeps, the
loop keeps: each turn acquires a live block for the session, and the loop ends
before the first id that is not registered. -/
theorem reuseLoop_induct {now : Time} {motive : KVBlockManager → Prop}
    (hStep : ∀ m r b m', SessInv m → motive m → Retained key r b m m' →
      m'.prefixCache = m.prefixCache → motive m') (pids : List StableId) (out : List Block)
    {m : KVBlockManager} (hSess : SessInv m) (hOpen : ∃ s, m.sessions.get? key = some s)
    (h : motive m) :
    motive (KVBlockManager.reuseLoop key now pids out m).2 := by
  induction pids generalizing out m with
  | nil => exact h
  | cons pid rest ih =>
    rw [KVBlockManager.reuseLoop]
    cases hr : m.physical.get pid with
    | none => exact h
    | some r =>
      have hId : r.physicalId = pid := PhysicalBlockTable.get_physicalId hr
      obtain ⟨b, m', hEq, hRet, hCache⟩ := retain_gained hSess hOpen
        (by rw [hId]; exact hr) rfl r.layer r.head r.tokenStart r.tokenEnd r.prefixHash now
        r.priority
      dsimp only
      rw [PhysicalBlockTable.acquire_of_get hr]
      dsimp only
      rw [hEq]
      obtain ⟨s, hs, -⟩ := hRet.gained.holds
      exact ih _ hRet.gained.sess ⟨s, hs⟩ (hStep m r b m' hSess h hRet hCache)

end Neuroswarm.Kv

/-!
## What reads, writes and migrations do to the tables

Under `StoreInv` these calls fail only where the source means them to: an id
that is not registered, a future tier, a target tier that does not answer.

* `readPayload_cases`, `migrateBlock_cases`.
-/

namespace Neuroswarm.Kv

variable {m : KVBlockManager}

theorem readPayload_cases (hStore : StoreInv m.providers m.physical m.nextUuid)
    (p : StableId) (now : Time) :
    (m.physical.get p = none ∧ m.readPayload p now = (.error (.unknownBlock p), m)) ∨
    ∃ r data, m.physical.get p = some r ∧
      m.providers.content r.tier r.providerKey = some data ∧
      m.readPayload p now = (.ok data, { m with
        physical := m.physical.put
          { r with lastAccess := now, accessCount := r.accessCount + 1 } }) := by
  unfold KVBlockManager.readPayload
  cases hp : m.physical.get p with
  | none => exact Or.inl ⟨rfl, rfl⟩
  | some r =>
    obtain ⟨data, hData, hGet⟩ := hStore.get_ok hp
    refine Or.inr ⟨r, data, rfl, hData, ?_⟩
    simp [hGet, PhysicalBlockTable.touch, hp]

variable {r : PhysicalBlockRecord}

theorem writeInPlace_ok (sha : Sha256) (hStore : StoreInv m.providers m.physical m.nextUuid)
    {p : StableId} (hp : m.physical.get p = some r) (payload : Bytes) :
    ∃ providers, m.providers.put r.tier r.providerKey payload = .ok providers ∧
      m.writeInPlace sha p payload =
        (.ok { r with contentHash := contentHash sha payload, nbytes := payload.length },
          { m with
            providers
            physical := m.physical.put
              { r with contentHash := contentHash sha payload, nbytes := payload.length } }) := by
  obtain ⟨providers, hPut⟩ :=
    ProviderRegistry.put_ok (hStore.stored p r hp).1 r.providerKey payload
  refine ⟨providers, hPut, ?_⟩
  unfold KVBlockManager.writeInPlace
  simp [hp, hPut]

theorem writeClone_hit {sha : Sha256} (hL1 : m.providers.online .l1Ram = true) {p : StableId}
    {e : PhysicalBlockRecord} (hp : m.physical.get p = some r) {payload : Bytes}
    (hHash : m.physical.getByHash (contentHash sha payload) = some e) :
    ∃ providers, m.providers.put .l1Ram e.providerKey payload = .ok providers ∧
      m.writeClone sha p payload =
        (.ok { e with refcount := e.refcount + 1, tier := .l1Ram },
          { m with
            nextUuid := m.nextUuid + 1
            providers
            physical := m.physical.put
              { e with refcount := e.refcount + 1, tier := .l1Ram } }) := by
  obtain ⟨-, he⟩ := PhysicalBlockTable.getByHash_eq_some.mp hHash
  obtain ⟨providers, hPut⟩ := ProviderRegistry.put_ok hL1 e.providerKey payload
  obtain ⟨l1, hGet, -⟩ := ProviderRegistry.online_iff.mp hL1
  have hFor : m.providers.forTier .l1Ram = .ok l1 := by
    rw [ProviderRegistry.forTier, hGet]
  refine ⟨providers, hPut, ?_⟩
  unfold KVBlockManager.writeClone KVBlockManager.clone
  simp only [hFor, KVBlockManager.stableId, hp, hHash,
    PhysicalBlockTable.acquire_of_get he, hPut]
  unfold PhysicalBlockTable.updateTier
  rw [PhysicalBlockTable.get_put, if_pos rfl]
  simp only [Option.map_some]
  rw [PhysicalBlockTable.put_put (by rfl)]

theorem writeClone_fresh {sha : Sha256} (hL1 : m.providers.online .l1Ram = true) {p : StableId}
    (hp : m.physical.get p = some r) {payload : Bytes}
    (hHash : m.physical.getByHash (contentHash sha payload) = none) :
    ∃ providers r', m.providers.put .l1Ram ⟨.phys, m.nextUuid⟩ payload = .ok providers ∧
      r' = { r with
        physicalId := ⟨.phys, m.nextUuid + 1⟩
        contentHash := contentHash sha payload
        providerKey := ⟨.phys, m.nextUuid⟩
        refcount := 1
        status := .allocated
        accessCount := 0
        nbytes := payload.length
        tier := .l1Ram } ∧
      m.writeClone sha p payload =
        (.ok r', { m with
          nextUuid := m.nextUuid + 2
          providers
          physical := m.physical.insert r' }) := by
  obtain ⟨providers, hPut⟩ :=
    ProviderRegistry.put_ok hL1 ⟨.phys, m.nextUuid⟩ payload
  obtain ⟨l1, hGet, -⟩ := ProviderRegistry.online_iff.mp hL1
  have hFor : m.providers.forTier .l1Ram = .ok l1 := by
    rw [ProviderRegistry.forTier, hGet]
  refine ⟨providers, _, hPut, rfl, ?_⟩
  unfold KVBlockManager.writeClone KVBlockManager.clone
  simp only [hFor, KVBlockManager.stableId, hp, hHash]
  rw [PhysicalBlockTable.register_of_none hHash]
  simp only [hPut]
  unfold PhysicalBlockTable.updateTier
  rw [PhysicalBlockTable.get_insert, if_pos rfl]
  simp only [Option.map_some]
  rw [PhysicalBlockTable.insert_put (by rfl) (by rfl)]

/-- A migration leaves everything as it was, or moves the bytes of one live
block to another tier that answers, and its record after them. -/
theorem migrateBlock_cases (hStore : StoreInv m.providers m.physical m.nextUuid)
    (policy : TieringPolicy) (p : StableId) (target : StorageTier) (now : Time) :
    (m.migrateBlock policy p target now).2 = m ∨
    ∃ r data reg₁ reg₂ r', m.physical.get p = some r ∧ r.tier ≠ target ∧
      m.providers.content r.tier r.providerKey = some data ∧
      m.providers.put target r.providerKey data = .ok reg₁ ∧
      reg₁.delete r.tier r.providerKey = .ok reg₂ ∧
      r' = { r with
        temperature := policy.temperature r now
        compressed := target ≠ .l1Ram
        tier := target } ∧
      m.migrateBlock policy p target now =
        (.ok true, { m with providers := reg₂, physical := m.physical.put r' }) := by
  unfold KVBlockManager.migrateBlock
  cases hp : m.physical.get p with
  | none => exact Or.inl rfl
  | some r =>
    dsimp only
    split
    · exact Or.inl rfl
    · next hTier =>
      split
      · exact Or.inl rfl
      · split
        · exact Or.inl rfl
        · obtain ⟨data, hData, hGet⟩ := hStore.get_ok hp
          rw [hGet]
          dsimp only
          cases hPut : m.providers.put target r.providerKey data with
          | error e => exact Or.inl rfl
          | ok reg₁ =>
            -- the tier the bytes come from answered the read, so it answers the delete
            have hOn : reg₁.online r.tier = true := by
              rw [(ProviderRegistry.put_spec hPut).2.1]
              exact (hStore.stored p r hp).1
            obtain ⟨reg₂, hDel⟩ := ProviderRegistry.delete_ok hOn r.providerKey
            refine Or.inr ⟨r, data, reg₁, reg₂, _, rfl, hTier, hData, hPut, hDel, rfl, ?_⟩
            have hId := PhysicalBlockTable.get_physicalId hp
            simp [hDel, KVBlockManager.finishMigration, hId, hp]

end Neuroswarm.Kv

/-!
## What releasing a session does to the tables

The loop of `release_session` walks the session's blocks with the set of ids it
has seen, so it releases each physical id once (`releaseBlocks_eq`).

* `releaseBlock_last`, `releaseBlock_shared` — one reference is dropped.
* `foldl_releaseBlock_induct` — what every drop of a live block keeps, the
  whole release keeps.
* `refs_foldl_releaseBlock` — each id loses one reference.
-/

namespace Neuroswarm.Kv

-- ------ The ids a session points to

/-- The physical ids of the blocks that are not in `seen`, each once. -/
def unseenIds : List StableId → List Block → List StableId
  | _, [] => []
  | seen, block :: rest =>
    match block.physicalId with
    | none => unseenIds seen rest
    | some pid =>
      if pid ∈ seen then unseenIds seen rest else pid :: unseenIds (pid :: seen) rest

def SessionBlockTable.physicalIds (s : SessionBlockTable) : List StableId :=
  unseenIds [] s.blocks.values

theorem mem_unseenIds {seen : List StableId} {blocks : List Block} {p : StableId} :
    p ∈ unseenIds seen blocks ↔ p ∉ seen ∧ ∃ b ∈ blocks, b.physicalId = some p := by
  induction blocks generalizing seen with
  | nil => simp [unseenIds]
  | cons b rest ih =>
    rw [unseenIds]
    cases hb : b.physicalId with
    | none => simp [ih, hb]
    | some pid =>
      by_cases hSeen : pid ∈ seen
      · have : ∀ q, q ∉ seen → pid ≠ q := fun q hq hEq => hq (hEq ▸ hSeen)
        simp only [hSeen, if_true, ih, List.mem_cons, exists_eq_or_imp, hb, Option.some.injEq]
        grind
      · simp only [hSeen, if_false, List.mem_cons, ih, exists_eq_or_imp, hb, Option.some.injEq]
        grind

theorem nodup_unseenIds (seen : List StableId) (blocks : List Block) :
    (unseenIds seen blocks).Nodup := by
  induction blocks generalizing seen with
  | nil => exact List.nodup_nil
  | cons b rest ih =>
    rw [unseenIds]
    cases b.physicalId with
    | none => exact ih seen
    | some pid =>
      dsimp only
      split
      · exact ih seen
      · refine List.nodup_cons.mpr ⟨fun hm => ?_, ih _⟩
        exact (mem_unseenIds.mp hm).1 List.mem_cons_self

theorem SessionBlockTable.nodup_physicalIds (s : SessionBlockTable) : s.physicalIds.Nodup :=
  nodup_unseenIds [] s.blocks.values

theorem mem_physicalIds {s : SessionBlockTable} {p : StableId} :
    p ∈ s.physicalIds ↔ 0 < s.refsTo p := by
  unfold SessionBlockTable.physicalIds
  rw [mem_unseenIds]
  constructor
  · rintro ⟨-, b, hb, hId⟩
    obtain ⟨id, hGet⟩ := Dict.mem_values_iff.mp hb
    have := Dict.le_total hGet fun _ b => if b.physicalId = some p then 1 else 0
    rw [if_pos hId] at this
    exact this
  · intro hPos
    obtain ⟨id, b, hGet, hOne⟩ := Dict.exists_of_total_pos hPos
    refine ⟨List.not_mem_nil, b, Dict.mem_values_iff.mpr ⟨id, hGet⟩, ?_⟩
    by_contra hId
    rw [if_neg hId] at hOne
    omega

theorem releaseBlocks_eq (seen : List StableId) (blocks : List Block) (m : KVBlockManager) :
    KVBlockManager.releaseBlocks seen blocks m =
      (unseenIds seen blocks).foldl KVBlockManager.releaseBlock m := by
  induction blocks generalizing seen m with
  | nil => rfl
  | cons b rest ih =>
    rw [KVBlockManager.releaseBlocks, unseenIds]
    cases b.physicalId with
    | none => exact ih seen m
    | some pid =>
      dsimp only
      split
      · exact ih seen m
      · exact ih _ _

-- ------ One block

namespace KVBlockManager

/-- The session is popped, its blocks not released yet. -/
def popSession (m : KVBlockManager) (key : String) : KVBlockManager :=
  { m with
    sessions := m.sessions.erase key
    logicalTables := m.logicalTables.erase key }

theorem releaseSession_of_none {m : KVBlockManager} {key : String}
    (h : m.sessions.get? key = none) : m.releaseSession key = m.popSession key := by
  unfold releaseSession
  rw [h]
  rfl

theorem releaseSession_of_some {m : KVBlockManager} {key : String} {s : SessionBlockTable}
    (h : m.sessions.get? key = some s) :
    m.releaseSession key = s.physicalIds.foldl releaseBlock (m.popSession key) := by
  unfold releaseSession
  rw [h]
  exact releaseBlocks_eq [] s.blocks.values _

theorem releaseBlock_last {m : KVBlockManager} {p : StableId} {r : PhysicalBlockRecord}
    (hp : m.physical.get p = some r) (hRef : r.refcount = 1) :
    m.releaseBlock p = { m with
      physical := m.physical.remove r
      providers := deleteFromTiers p releaseTiers m.providers } := by
  obtain ⟨-, hRel⟩ : r.refcount = 1 ∧ m.physical.release p = (0, m.physical.remove r) :=
    (PhysicalBlockTable.release_cases hp (by omega)).resolve_right fun h => by omega
  simp [releaseBlock, hRel]

theorem releaseBlock_shared {m : KVBlockManager} {p : StableId} {r : PhysicalBlockRecord}
    (hp : m.physical.get p = some r) (hRef : 1 < r.refcount) :
    m.releaseBlock p = { m with
      physical := m.physical.put { r with refcount := r.refcount - 1 } } := by
  obtain ⟨-, hRel⟩ := (PhysicalBlockTable.release_cases hp (by omega)).resolve_left
    fun h => by omega
  have hNe : r.refcount - 1 ≠ 0 := by omega
  simp [releaseBlock, hRel, hNe]

theorem releaseBlock_frame (m : KVBlockManager) (p : StableId) :
    (m.releaseBlock p).sessions = m.sessions ∧
      (m.releaseBlock p).logicalTables = m.logicalTables ∧
      (m.releaseBlock p).prefixCache = m.prefixCache ∧
      (m.releaseBlock p).nextUuid = m.nextUuid := by
  unfold releaseBlock
  dsimp only
  split <;> exact ⟨rfl, rfl, rfl, rfl⟩

end KVBlockManager

open KVBlockManager (releaseBlock)

theorem releaseBlock_store {m : KVBlockManager}
    (hStore : StoreInv m.providers m.physical m.nextUuid) {p : StableId}
    {r : PhysicalBlockRecord} (hp : m.physical.get p = some r) :
    StoreInv (m.releaseBlock p).providers (m.releaseBlock p).physical
        (m.releaseBlock p).nextUuid ∧
      (∀ q, q ≠ p → (m.releaseBlock p).physical.get q = m.physical.get q) ∧
      (m.releaseBlock p).physical.refs p = m.physical.refs p - 1 := by
  have hId : r.physicalId = p := PhysicalBlockTable.get_physicalId hp
  rcases Nat.lt_or_ge 1 r.refcount with hShared | hLast
  · rw [KVBlockManager.releaseBlock_shared hp hShared]
    refine ⟨hStore.restamp hp rfl rfl rfl ?_, ?_, ?_⟩
    · show 0 < r.refcount - 1
      omega
    · intro q hq
      rw [PhysicalBlockTable.get_put, if_neg (by rw [hId]; exact hq)]
    · rw [PhysicalBlockTable.refs_put, if_pos hId.symm, PhysicalBlockTable.refs_of_get hp]
  · have hOne : r.refcount = 1 := by
      have := hStore.refPos p r hp
      omega
    rw [KVBlockManager.releaseBlock_last hp hOne]
    refine ⟨hStore.drop hp, ?_, ?_⟩
    · intro q hq
      rw [PhysicalBlockTable.get_remove, if_neg (by rw [hId]; exact hq)]
    · rw [PhysicalBlockTable.refs_remove, if_pos hId.symm, PhysicalBlockTable.refs_of_get hp,
        hOne]

-- ------ All blocks of a session

/-- **Rule for releasing a list of blocks.** Each of the distinct ids is live,
as it was at the start, when its turn comes. -/
theorem foldl_releaseBlock_induct {motive : KVBlockManager → Prop}
    {Q : StableId → PhysicalBlockRecord → Prop}
    (hStep : ∀ m p r, Q p r → StoreInv m.providers m.physical m.nextUuid →
      m.physical.get p = some r → motive m → motive (m.releaseBlock p))
    {ids : List StableId} (hNodup : ids.Nodup) {m : KVBlockManager}
    (hStore : StoreInv m.providers m.physical m.nextUuid)
    (hIds : ∀ p ∈ ids, ∃ r, m.physical.get p = some r ∧ Q p r) (h : motive m) :
    StoreInv (ids.foldl releaseBlock m).providers (ids.foldl releaseBlock m).physical
        (ids.foldl releaseBlock m).nextUuid ∧
      motive (ids.foldl releaseBlock m) := by
  induction ids generalizing m with
  | nil => exact ⟨hStore, h⟩
  | cons p rest ih =>
    obtain ⟨hNotMem, hRest⟩ := List.nodup_cons.mp hNodup
    obtain ⟨r, hp, hQ⟩ := hIds p List.mem_cons_self
    obtain ⟨hStore', hOther, -⟩ := releaseBlock_store hStore hp
    refine ih hRest hStore' (fun q hq => ?_) (hStep m p r hQ hStore hp h)
    obtain ⟨s, hs, hQs⟩ := hIds q (List.mem_cons_of_mem _ hq)
    have hne : q ≠ p := fun hEq => hNotMem (hEq ▸ hq)
    exact ⟨s, by rw [hOther q hne]; exact hs, hQs⟩

theorem refs_foldl_releaseBlock {ids : List StableId} (hNodup : ids.Nodup) {m : KVBlockManager}
    (hStore : StoreInv m.providers m.physical m.nextUuid)
    (hIds : ∀ p ∈ ids, ∃ r, m.physical.get p = some r) (q : StableId) :
    (ids.foldl releaseBlock m).physical.refs q =
      m.physical.refs q - if q ∈ ids then 1 else 0 := by
  induction ids generalizing m with
  | nil => simp
  | cons p rest ih =>
    obtain ⟨hNotMem, hRest⟩ := List.nodup_cons.mp hNodup
    obtain ⟨r, hp⟩ := hIds p List.mem_cons_self
    obtain ⟨hStore', hOther, hRefs⟩ := releaseBlock_store hStore hp
    rw [List.foldl_cons, ih hRest hStore' ?_]
    · by_cases hqp : q = p
      · subst hqp
        rw [hRefs, if_neg hNotMem, if_pos List.mem_cons_self]
        omega
      · have hSame : (m.releaseBlock p).physical.refs q = m.physical.refs q := by
          unfold PhysicalBlockTable.refs
          rw [hOther q hqp]
        rw [hSame]
        simp [hqp]
    · intro q' hq'
      obtain ⟨s, hs⟩ := hIds q' (List.mem_cons_of_mem _ hq')
      have hne : q' ≠ p := fun hEq => hNotMem (hEq ▸ hq')
      exact ⟨s, by rw [hOther q' hne]; exact hs⟩

theorem foldl_releaseBlock_frame (ids : List StableId) (m : KVBlockManager) :
    (ids.foldl releaseBlock m).sessions = m.sessions ∧
      (ids.foldl releaseBlock m).logicalTables = m.logicalTables ∧
      (ids.foldl releaseBlock m).prefixCache = m.prefixCache ∧
      (ids.foldl releaseBlock m).nextUuid = m.nextUuid := by
  induction ids generalizing m with
  | nil => exact ⟨rfl, rfl, rfl, rfl⟩
  | cons p rest ih =>
    obtain ⟨h₁, h₂, h₃, h₄⟩ := ih (m.releaseBlock p)
    obtain ⟨g₁, g₂, g₃, g₄⟩ := KVBlockManager.releaseBlock_frame m p
    exact ⟨h₁.trans g₁, h₂.trans g₂, h₃.trans g₃, h₄.trans g₄⟩

end Neuroswarm.Kv
