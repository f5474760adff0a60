import Neuroswarm.Kv.RuntimeInvariant

/-!
# KV memory runtime — checkpoint, release, restore

* `roundTrip_iff` — after a checkpoint and a release, and allocations and
  releases of other sessions, a restore gives the session its blocks back iff
  each of them is still live, or no live block has its content.
* `takesHeldReferences_iff` — a restore takes as many references as the restored
  session holds iff the session has no physical blocks: the tables are rebuilt
  twice.
-/

namespace Neuroswarm.Kv

open Run (exec)
open FileCheckpointStore (sessionDir)

-- ------ The blocks of a restored session

def RuntimeOp.OnOther (sessionId : String) : RuntimeOp → Prop
  | .allocate req _ => req.sessionId ≠ sessionId
  | .release other => other ≠ sessionId
  | _ => False

/-- Restoring in `τ` gives the session that was checkpointed in `σ` its blocks
back: every logical index of that moment leads to a live block with the bytes it
had. -/
def RoundTrip (sha : Sha256) (σ τ : KVRuntimeManager) (sessionId : String) : Prop :=
  ∃ session τ', τ.restore sha sessionId = (.ok session, τ') ∧
    τ'.blockManager.getSession sessionId = some session ∧
    ∀ logical, σ.blockManager.logicalTables.get? sessionId = some logical →
      ∃ restored, τ'.blockManager.logicalTables.get? sessionId = some restored ∧
        ∀ idx p, logical.resolve idx = some p →
          ∃ q, restored.resolve idx = some q ∧ (∃ r, τ'.blockManager.physical.get q = some r) ∧
            ∀ now, ∃ data, σ.readPayload p now = .ok data ∧ τ'.readPayload q now = .ok data

/-- Every block of the session that was live in `σ` is live in `τ`, or no live
block in `τ` has its content hash and the session's own table has it. -/
def Restorable (σ τ : KVRuntimeManager) (sessionId : String) : Prop :=
  ∀ session logical, σ.blockManager.getSession sessionId = some session →
    σ.blockManager.logicalTables.get? sessionId = some logical →
    ∀ idx p, logical.resolve idx = some p →
      ∃ r, σ.blockManager.physical.get p = some r ∧
        ((∃ r', τ.blockManager.physical.get p = some r') ∨
          ((∃ b ∈ session.blocks.values, b.physicalId = some p) ∧
            τ.blockManager.physical.getByHash r.contentHash = none))

theorem exec_checkpoints {sha : Sha256} {sessionId : String} {σ : KVRuntimeManager}
    {ops : List RuntimeOp} (hOps : ∀ op ∈ ops, op.OnOther sessionId) :
    (exec (KVRuntimeManager.step sha) σ ops).checkpoints = σ.checkpoints := by
  induction ops generalizing σ with
  | nil => rfl
  | cons op ops ih =>
    have hStep : (σ.step sha op).checkpoints = σ.checkpoints := by
      have hOther := hOps op List.mem_cons_self
      cases op <;> first | rfl | exact hOther.elim
    rw [Run.exec_cons, ih fun op hOp => hOps op (List.mem_cons_of_mem _ hOp), hStep]

/-- **When a restore gives the blocks back.** In any reachable state, for a
checkpoint that returns, followed by the release of the session and by any
allocations and releases of other sessions: the restore yields the session with
every logical index leading to a live block with its bytes, iff each of these
blocks is still live or its content is in no live block. -/
theorem roundTrip_iff (sha : Sha256) (cfg : KvConfig) (sharing : SharingBackend)
    (ops : List RuntimeOp) (sessionId : String) (now : Time) (others : List RuntimeOp)
    (hOk : ((exec (KVRuntimeManager.step sha) (.new cfg sharing) ops).checkpoint
      sha sessionId now).1.isOk = true)
    (hOthers : ∀ op ∈ others, op.OnOther sessionId) :
    let σ := exec (KVRuntimeManager.step sha) (.new cfg sharing) ops
    let τ := exec (KVRuntimeManager.step sha)
      ((σ.step sha (.checkpoint sessionId now)).step sha (.release sessionId)) others
    RoundTrip sha σ τ sessionId ↔ Restorable σ τ sessionId := by
  intro σ τ
  obtain ⟨g, hInv⟩ := reachable_runtimeInv sha cfg sharing ops
  obtain ⟨hInv₁, hNext₁, hSaved⟩ := checkpoint_spec hInv sessionId now
  obtain ⟨session, logical, doc, hSession, hLogical, hDoc, rfl, hMap⟩ := hSaved hOk
  -- from the checkpoint on, the ids drawn so far keep their contents
  obtain ⟨-, g', hInvτ, hSame⟩ := exec_runtimeInv hInv₁ (.release sessionId :: others)
  rw [hNext₁] at hSame
  have hDocτ : τ.checkpoints.metas.get? (sessionDir sessionId) = some doc := by
    have hKept : τ.checkpoints = (σ.checkpoint sha sessionId now).2.checkpoints :=
      exec_checkpoints hOthers
    rw [hKept]
    exact hDoc
  obtain ⟨m', hRestore, hCont', hRestored⟩ := restore_spec hInvτ hDocτ
  have hBlocks : ∀ p, p ∈ recordIds doc.physicalRecords ↔
      ∃ b ∈ doc.session.blocks.values, b.physicalId = some p := by
    intro p
    rw [(hInvτ.saved _ _ hDocτ).blockIds, List.mem_filterMap]
  have hLogical' : m'.logicalTables.get? sessionId =
      some ⟨doc.session.sessionId, logical.map⟩ := by
    rw [hRestored.logical, Dict.get?_set_self, hMap]
  have hLive : ∀ p r, σ.blockManager.physical.get p = some r →
      (m'.physical.get p ≠ none ↔ τ.blockManager.physical.get p ≠ none ∨
        ((∃ b ∈ doc.session.blocks.values, b.physicalId = some p) ∧
          τ.blockManager.physical.getByHash r.contentHash = none)) := by
    intro p r hp
    have hOwn := hInv.contents.table.record p r hp
    rw [hRestored.live p, hBlocks, hSame p hOwn.idLt, ← hOwn.hash]
    exact Iff.rfl
  constructor
  · rintro ⟨session, τ', hEq, -, hAll⟩ session' logical₀ hSession₀ hLogical₀ idx p hIdx
    obtain rfl : doc.session = session' := Option.some.inj (hSession.symm.trans hSession₀)
    obtain rfl : logical = logical₀ := Option.some.inj (hLogical.symm.trans hLogical₀)
    obtain ⟨-, rfl⟩ := Prod.mk.inj (hRestore.symm.trans hEq)
    obtain ⟨restored, hGet, hEach⟩ := hAll logical hLogical
    obtain rfl := Option.some.inj (hLogical'.symm.trans hGet)
    obtain ⟨q, hq, ⟨r', hr'⟩, hReads⟩ := hEach idx p hIdx
    obtain rfl : p = q := Option.some.inj (hIdx.symm.trans hq)
    obtain ⟨data, hData, -⟩ := hReads 0
    cases hp : σ.blockManager.physical.get p with
    | none =>
      have hErr : σ.readPayload p 0 = .error (.unknownBlock p) := Contents.readPayload_none hp 0
      rw [hErr] at hData
      exact absurd hData (by simp)
    | some r =>
      refine ⟨r, rfl, ?_⟩
      rcases (hLive p r hp).mp (by rw [show m'.physical.get p = some r' from hr']; simp) with
        hStill | hFree
      · exact Or.inl (Option.ne_none_iff_exists'.mp hStill)
      · exact Or.inr hFree
  · intro hAll
    refine ⟨doc.session, _, hRestore, ?_, fun logical₀ hLogical₀ => ?_⟩
    · show m'.sessions.get? sessionId = _
      rw [hRestored.session, Dict.get?_set_self]
    · obtain rfl : logical = logical₀ := Option.some.inj (hLogical.symm.trans hLogical₀)
      refine ⟨_, hLogical', fun idx p hIdx => ⟨p, hIdx, ?_⟩⟩
      obtain ⟨r, hp, hCase⟩ := hAll doc.session logical hSession hLogical idx p hIdx
      have hThere : m'.physical.get p ≠ none := by
        refine (hLive p r hp).mpr ?_
        rcases hCase with ⟨r', hr'⟩ | hFree
        · exact Or.inl (by rw [hr']; simp)
        · exact Or.inr hFree
      obtain ⟨r', hr'⟩ := Option.ne_none_iff_exists'.mp hThere
      refine ⟨⟨r', hr'⟩, fun now => ⟨g p, hInv.contents.readPayload hp now, ?_⟩⟩
      rw [← hSame p (hInv.contents.table.record p r hp).idLt]
      exact hCont'.readPayload hr' now

/-- Another session allocates and releases other content in between. -/
theorem roundTrip_iff_other_content :
    let σ := exec (KVRuntimeManager.step .spelled) (.new .plain (.mmap {}))
      [.allocate { sessionId := "a", payload := [1] } 0]
    let τ := exec (KVRuntimeManager.step .spelled)
      ((σ.step .spelled (.checkpoint "a" 1)).step .spelled (.release "a"))
      [.allocate { sessionId := "b", payload := [2] } 2, .release "b"]
    RoundTrip .spelled σ τ "a" ↔ Restorable σ τ "a" :=
  roundTrip_iff .spelled .plain (.mmap {}) [.allocate { sessionId := "a", payload := [1] } 0] "a" 1
    [.allocate { sessionId := "b", payload := [2] } 2, .release "b"] (by decide +kernel)
    (by simp [RuntimeOp.OnOther])

/-- Another session allocates the same content in between: it gets a new id, and
the restored session keeps the old one. -/
theorem not_roundTrip_same_content :
    let σ := exec (KVRuntimeManager.step .spelled) (.new .plain (.mmap {}))
      [.allocate { sessionId := "a", payload := [1] } 0]
    let τ := exec (KVRuntimeManager.step .spelled)
      ((σ.step .spelled (.checkpoint "a" 1)).step .spelled (.release "a"))
      [.allocate { sessionId := "b", payload := [1] } 2]
    ¬ RoundTrip .spelled σ τ "a" := by
  intro σ τ
  have hLogical : ((σ.blockManager.logicalTables.get? "a").bind fun l => l.resolve 0) =
      some ⟨.phys, 0⟩ := by decide +kernel
  have hLost : (((τ.restore .spelled "a").2.blockManager.logicalTables.get? "a").bind
      fun l => l.resolve 0) = some ⟨.phys, 0⟩ ∧
      (τ.restore .spelled "a").2.blockManager.physical.get ⟨.phys, 0⟩ = none := by
    decide +kernel
  rintro ⟨session, τ', hEq, -, hAll⟩
  rw [hEq] at hLost
  obtain ⟨logical, hGet, hIdx⟩ := Option.bind_eq_some_iff.mp hLogical
  obtain ⟨restored, hRestored, hEach⟩ := hAll logical hGet
  obtain ⟨q, hq, ⟨r, hr⟩, -⟩ := hEach 0 _ hIdx
  obtain ⟨hSame, hGone⟩ := hLost
  dsimp only at hSame hGone
  rw [hRestored, Option.bind_some, hq] at hSame
  rw [Option.some.inj hSame, hGone] at hr
  exact absurd hr (by simp)

-- ------ The references of a restored session

/-- The restore takes one reference for each logical block of the restored
session, and releasing the session again gives them back. -/
def TakesHeldReferences (sha : Sha256) (σ : KVRuntimeManager) (sessionId : String) : Prop :=
  ∃ session τ, σ.restore sha sessionId = (.ok session, τ) ∧
    (∀ p, τ.blockManager.physical.refs p =
      σ.blockManager.physical.refs p + session.refsTo p) ∧
    (τ.step sha (.release sessionId)).blockManager.physical = σ.blockManager.physical

/-- Two rebuilds take too many references to the id of the first record, or none
at all when its content is live under another id. -/
theorem refs_rebuilt_twice {sha : Sha256} {g : StableId → Bytes} {next : Nat}
    {t : PhysicalBlockTable} {r : PhysicalBlockRecord} {rest : List PhysicalBlockRecord}
    (h : OwnRecords sha g next t)
    (hrs : ∀ s ∈ r :: rest, OwnRecord sha g next s.physicalId s)
    (hUnique : ∀ s ∈ r :: rest, ∀ s' ∈ r :: rest,
      s.contentHash = s'.contentHash → s.physicalId = s'.physicalId) :
    ((r :: rest).foldl RecoveryEngine.mergeRecord
        ((r :: rest).foldl RecoveryEngine.mergeRecord t)).refs r.physicalId ≠
      t.refs r.physicalId + (recordIds (r :: rest)).count r.physicalId := by
  have hr := hrs r List.mem_cons_self
  have hRest : ∀ s ∈ rest, OwnRecord sha g next s.physicalId s :=
    fun s hs => hrs s (List.mem_cons_of_mem _ hs)
  have hOnce := h.foldl_mergeRecord hrs
  have hCount : (recordIds (r :: rest)).count r.physicalId =
      (recordIds rest).count r.physicalId + 1 := by
    simp [recordIds]
  by_cases hLive : t.get r.physicalId ≠ none
  · -- both rebuilds acquire it for each record
    have h₁ := le_refs_foldl_mergeRecord h hrs hLive
    have hLive₁ := (get_foldl_mergeRecord h hrs hUnique r.physicalId).mpr (Or.inl hLive)
    have h₂ := le_refs_foldl_mergeRecord hOnce hrs hLive₁
    omega
  · have hGone : t.get r.physicalId = none := not_not.mp hLive
    have hZero := PhysicalBlockTable.refs_of_none hGone
    by_cases hMiss : t.getByHash r.contentHash = none
    · -- the first rebuild registers it with the saved count, and acquires it for the rest
      have hInsert : RecoveryEngine.mergeRecord t r = t.insert r := by
        unfold RecoveryEngine.mergeRecord
        rw [hGone]
        dsimp only
        rw [PhysicalBlockTable.register_of_none hMiss]
      have hNew : (t.insert r).get r.physicalId ≠ none := by
        rw [PhysicalBlockTable.get_insert, if_pos rfl]
        simp
      have hOwn := h.insert hGone hMiss hr
      have h₁ := le_refs_foldl_mergeRecord hOwn hRest hNew
      rw [PhysicalBlockTable.refs_insert, if_pos rfl, ← hInsert, ← List.foldl_cons] at h₁
      have hLive₁ := (get_foldl_mergeRecord h hrs hUnique r.physicalId).mpr
        (Or.inr ⟨List.mem_cons_self, hr.hash ▸ hMiss⟩)
      have h₂ := le_refs_foldl_mergeRecord hOnce hrs hLive₁
      have hPos := hr.refPos
      omega
    · -- its content is live under another id, which is acquired in its place
      have hGone₁ : ((r :: rest).foldl RecoveryEngine.mergeRecord t).get r.physicalId = none := by
        by_contra hSome
        rcases (get_foldl_mergeRecord h hrs hUnique r.physicalId).mp hSome with hWas | ⟨-, hNone⟩
        · exact hWas hGone
        · exact hMiss (hr.hash ▸ hNone)
      have hGone₂ : ((r :: rest).foldl RecoveryEngine.mergeRecord
          ((r :: rest).foldl RecoveryEngine.mergeRecord t)).get r.physicalId = none := by
        by_contra hSome
        rcases (get_foldl_mergeRecord hOnce hrs hUnique r.physicalId).mp hSome with
          hWas | ⟨-, hNone⟩
        · exact hWas hGone₁
        · have hAll := ((getByHash_foldl_mergeRecord h hrs _).mp hNone).2
          exact hAll r List.mem_cons_self hr.hash.symm
      rw [PhysicalBlockTable.refs_of_none hGone₂]
      omega

/-- **When a restore takes the references the session holds.** In every reachable
state with a checkpoint of the session, the restore takes one reference for each
restored block, and a release gives them back, iff the checkpoint has no
physical record. -/
theorem takesHeldReferences_iff (sha : Sha256) (cfg : KvConfig) (sharing : SharingBackend)
    (ops : List RuntimeOp) (sessionId : String) (doc : CheckpointMeta)
    (hDoc : (exec (KVRuntimeManager.step sha) (.new cfg sharing) ops).checkpoints.metas.get?
      (sessionDir sessionId) = some doc) :
    TakesHeldReferences sha (exec (KVRuntimeManager.step sha) (.new cfg sharing) ops) sessionId ↔
      doc.physicalRecords = [] := by
  obtain ⟨g, hInv⟩ := reachable_runtimeInv sha cfg sharing ops
  generalize exec (KVRuntimeManager.step sha) (.new cfg sharing) ops = σ at hDoc hInv ⊢
  obtain ⟨m', hRestore, -, hRestored⟩ := restore_spec hInv hDoc
  have hSaved := hInv.saved _ _ hDoc
  constructor
  · rintro ⟨session, τ, hEq, hRefs, -⟩
    obtain ⟨hSession, rfl⟩ := Prod.mk.inj (hRestore.symm.trans hEq)
    obtain rfl : doc.session = session := Except.ok.inj hSession
    cases hRecords : doc.physicalRecords with
    | nil => rfl
    | cons r rest =>
      have hr := hRefs r.physicalId
      rw [hSaved.refsTo, hRecords] at hr
      have hTwice := hRestored.refs r.physicalId
      rw [hRecords] at hTwice
      refine absurd (hTwice.symm.trans hr) (refs_rebuilt_twice hInv.contents.table ?_ ?_)
      · rw [← hRecords]
        exact hSaved.record
      · rw [← hRecords]
        exact hSaved.unique
  · intro hNone
    have hPhysical := hRestored.nothing hNone
    refine ⟨doc.session, _, hRestore, fun p => ?_, ?_⟩
    · rw [hSaved.refsTo, hNone]
      show m'.physical.refs p = _
      rw [hPhysical]
      rfl
    · -- the restored session points to nothing
      have hNoId : doc.session.physicalIds = [] := by
        rw [List.eq_nil_iff_forall_not_mem]
        intro p hp
        have hPos := mem_physicalIds.mp hp
        rw [hSaved.refsTo, hNone] at hPos
        exact absurd hPos (by simp [recordIds])
      have hGet : m'.sessions.get? sessionId = some doc.session := by
        rw [hRestored.session, Dict.get?_set_self]
      show (m'.releaseSession sessionId).physical = _
      rw [KVBlockManager.releaseSession_of_some hGet, hNoId]
      exact hPhysical

/-- A session without blocks is checkpointed and released. -/
theorem takesHeldReferences_empty :
    let σ := exec (KVRuntimeManager.step .spelled) (.new .plain (.mmap {}))
      [.createSession "a" "" 0, .checkpoint "a" 1, .release "a"]
    ∃ doc, σ.checkpoints.metas.get? (sessionDir "a") = some doc ∧
      (TakesHeldReferences .spelled σ "a" ↔ doc.physicalRecords = []) := by
  intro σ
  obtain ⟨doc, hDoc⟩ := Option.isSome_iff_exists.mp
    (show (σ.checkpoints.metas.get? (sessionDir "a")).isSome = true by decide +kernel)
  exact ⟨doc, hDoc, takesHeldReferences_iff .spelled .plain (.mmap {})
    [.createSession "a" "" 0, .checkpoint "a" 1, .release "a"] "a" doc hDoc⟩

/-- A session with one block: the restored block counts two references. -/
theorem not_takesHeldReferences_one :
    ¬ TakesHeldReferences .spelled (exec (KVRuntimeManager.step .spelled)
      (.new .plain (.mmap {}))
      [.allocate { sessionId := "a", payload := [1] } 0, .checkpoint "a" 1, .release "a"]) "a" := by
  have hTwo : ((exec (KVRuntimeManager.step .spelled) (.new .plain (.mmap {}))
      [.allocate { sessionId := "a", payload := [1] } 0, .checkpoint "a" 1,
        .release "a"]).restore .spelled "a").2.blockManager.physical.refs ⟨.phys, 0⟩ = 2 ∧
      (exec (KVRuntimeManager.step .spelled) (.new .plain (.mmap {}))
      [.allocate { sessionId := "a", payload := [1] } 0, .checkpoint "a" 1,
        .release "a"]).blockManager.physical.refs ⟨.phys, 0⟩ = 0 ∧
      (((exec (KVRuntimeManager.step .spelled) (.new .plain (.mmap {}))
      [.allocate { sessionId := "a", payload := [1] } 0, .checkpoint "a" 1,
        .release "a"]).restore .spelled "a").1.toOption.map fun s => s.refsTo ⟨.phys, 0⟩) =
          some 1 := by
    decide +kernel
  rintro ⟨session, τ, hEq, hRefs, -⟩
  obtain ⟨hAfter, hBefore, hHeld⟩ := hTwo
  have hOne := hRefs ⟨.phys, 0⟩
  rw [hEq] at hAfter hHeld
  have hSession : session.refsTo ⟨.phys, 0⟩ = 1 := Option.some.inj hHeld
  rw [hSession, hBefore] at hOne
  dsimp only at hAfter
  omega

end Neuroswarm.Kv
