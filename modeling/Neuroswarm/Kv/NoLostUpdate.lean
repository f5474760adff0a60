import Neuroswarm.Kv.CalmInterleaving

/-!
# KV memory runtime — when a migration loses no update

The foreground's side of a calm run, from one await to the next and from the
calls it begins, and what follows for every interleaving.

* `step_consistent` — a calm action of either side keeps `Consistent`.
* `noLostUpdate_along` — every interleaving of calm actions loses no update.
-/

namespace Neuroswarm.Kv

open Run (Along Every exec)
open KVBlockManager (releaseTiers)

namespace Concurrent

variable {sha : Sha256} {policy : TieringPolicy} {p key : StableId} {target : StorageTier}
  {c c' : Concurrent} {r r' : PhysicalBlockRecord}

/-! ### The foreground goes on -/

/-- Only the foreground moves: it has the same ids to drop, and looks for the
bytes of the block wherever they are left. -/
theorem Consistent.move_caller (h : Consistent p key target c) {pc : CallerPc}
    (hOld : ∀ payload, c.caller ≠ .written payload) (hTodo : pc.todo = c.caller.todo)
    (hProbed : ∀ pid, pc.probed = some pid → c.caller.probed = some pid)
    (hWriting : ∀ tier k payload, pc = .writing tier k payload →
      ∃ r, c.m.physical.get p = some r ∧ k = r.providerKey)
    (hWritten : ∀ payload, pc ≠ .written payload)
    (hFinds : Dead p target c → ∀ t, c.m.providers.content t p ≠ none → c.caller.Finds p t →
      pc.Finds p t) :
    Consistent p key target { c with caller := pc } := by
  have hHeld : ∀ x, ({ c with caller := pc } : Concurrent).refsHeld x = c.refsHeld x := by
    intro x
    rw [refsHeld, hTodo]
    rfl
  refine ⟨h.tables.of_same (fun _ => rfl) h.tables.keyed fun x => ?_, h.source, h.reads, ?_⟩
  · rw [hHeld]
    exact h.tables.covered x
  · rcases h.block with ⟨r, hLive⟩ | ⟨hOwn, hDead⟩
    · refine Or.inl ⟨r, hLive.same (.of_providers rfl rfl) hLive.get rfl rfl ?_
        (fun tier k payload hPc => ?_) (fun pid hPid => hLive.probed pid (hProbed pid hPid)) ?_⟩
      · rw [current_eq hWritten, current_eq hOld]
      · obtain ⟨s, hs, hk⟩ := hWriting tier k payload hPc
        obtain rfl : r = s := Option.some.inj (hLive.get.symm.trans hs)
        exact hk.trans hLive.providerKey
      · rw [hHeld]
    · refine Or.inr ⟨hOwn, hDead.same (.of_providers rfl rfl) hDead.get
        (fun tier k payload hPc => ?_) hWritten
        (hFinds hDead)⟩
      obtain ⟨s, hs, -⟩ := hWriting tier k payload hPc
      exact absurd (hDead.get.symm.trans hs) (by simp)

variable {payload : Bytes}

theorem resume_writing (h : Consistent p key target c) {tier : StorageTier} {k : StableId}
    (hPc : c.caller = .writing tier k payload) (hCalm : c.Calm sha p .resume) :
    Consistent p key target (c.resume sha p) := by
  simp only [Calm, hPc, CalmResume] at hCalm
  rcases h.block with ⟨r, hLive⟩ | ⟨-, hDead⟩
  · obtain ⟨hTier, hTakes⟩ := hCalm r hLive.get
    obtain rfl := hLive.writing tier k payload hPc
    have hSelf : tier ∈ c.migrator.copies target r.tier := by
      rw [hTier]
      refine MigratorPc.self_mem_copies fun rec hMoved => ?_
      rw [hMoved] at hTakes
      exact hTakes.elim
    obtain ⟨providers, hPut⟩ := ProviderRegistry.put_ok (hLive.held tier hSelf).1 k payload
    obtain ⟨-, hSame, hContent⟩ := ProviderRegistry.put_spec hPut
    unfold Concurrent.resume
    rw [hPc]
    simp only [hPut]
    refine ⟨h.tables.of_same hSame h.tables.keyed fun q => ?_, fun rec hRec => ?_, h.reads,
      Or.inl ⟨r, hLive.get, hLive.providerKey, by simp, by simp [CallerPc.probed],
        fun t ht => ?_, fun data hData => hTakes.data hData, ?_⟩⟩
    · have hCovered := h.tables.covered q
      simpa [refsHeld, CallerPc.todo, hPc, KVBlockManager.liveRefs] using hCovered
    · obtain ⟨hId, hKey, hNe, hOn⟩ := h.source rec hRec
      exact ⟨hId, hKey, hNe, (hSame _).trans hOn⟩
    · show providers.online t = true ∧ providers.content t k = some payload
      rw [hSame, hContent]
      by_cases hEq : t = tier
      · rw [if_pos ⟨hEq, rfl⟩, hEq]
        exact ⟨(hLive.held tier hSelf).1, rfl⟩
      · -- another copy: the migration holds these very bytes
        rw [if_neg fun hBoth => hEq hBoth.1]
        have hData : c.migrator.data? = some payload :=
          (hTakes.copies (hTier ▸ ht)).resolve_left hEq
        rw [hLive.data payload hData]
        exact hLive.held t ht
    · have hHeld : ({ c with
          m := { c.m with providers }, caller := .written payload } : Concurrent).refsHeld p =
          c.refsHeld p := by
        simp [refsHeld, CallerPc.todo, hPc, KVBlockManager.liveRefs]
      rw [hHeld]
      refine hLive.sole.imp_left fun hBoth => ⟨hBoth.1, hBoth.2.source, fun t ht => ?_⟩
      show providers.content t p = none
      have hNe : t ≠ tier := by
        rintro rfl
        exact ht hSelf
      rw [hContent, if_neg fun hSlot => hNe hSlot.1]
      exact hBoth.2.elsewhere t ht
  · exact absurd hPc (hDead.writing tier k payload)

theorem resume_written (h : Consistent p key target c) (hPc : c.caller = .written payload) :
    Consistent p key target (c.resume sha p) := by
  rcases h.block with ⟨r, hLive⟩ | ⟨-, hDead⟩
  · have hCurrent : c.current = payload := by simp [current, hPc]
    have hId := PhysicalBlockTable.get_physicalId hLive.get
    unfold Concurrent.resume restamp
    rw [hPc]
    simp only [hLive.get]
    refine ⟨h.tables.rewrite hLive.get rfl rfl rfl rfl (fun _ => rfl) rfl
      (by simp [CallerPc.todo, hPc]) rfl, h.source, h.reads, Or.inl ⟨{ r with
        contentHash := contentHash sha payload, nbytes := payload.length },
      hLive.same (.of_providers rfl rfl) ?_ rfl rfl hCurrent.symm (by simp)
        (by simp [CallerPc.probed]) ?_⟩⟩
    · exact (PhysicalBlockTable.get_put _ _ p).trans (if_pos hId.symm)
    · simp [refsHeld, CallerPc.todo, hPc, KVBlockManager.liveRefs]
  · exact absurd hPc (hDead.written payload)

/-- A reference to `q` is dropped, and `todo` is left; the bytes are looked for after the last
one. -/
structure Drops (q : StableId) (todo : List StableId) (c c' : Concurrent) : Prop where
  before : c.caller = .releasing (q :: todo)
  tables : c'.m = { c.m with physical := (c.m.physical.release q).2 }
  caller : c'.caller =
    if (c.m.physical.release q).1 = 0 then .probing q releaseTiers todo else .releasing todo
  migrator : c'.migrator = c.migrator
  lastWrite : c'.lastWrite = c.lastWrite

namespace Drops

variable {q : StableId} {todo : List StableId}

theorem writing (h : Drops q todo c c') (tier : StorageTier) (k : StableId) (payload : Bytes) :
    c'.caller ≠ .writing tier k payload := by
  rw [h.caller]
  split <;> simp

theorem written (h : Drops q todo c c') (payload : Bytes) : c'.caller ≠ .written payload := by
  rw [h.caller]
  split <;> simp

theorem probed (h : Drops q todo c c') {pid : StableId} (hPid : c'.caller.probed = some pid) :
    pid = q := by
  rw [h.caller] at hPid
  split at hPid
  · exact (Option.some.inj hPid).symm
  · cases hPid

theorem current (h : Drops q todo c c') : c'.current = c.current := by
  rw [current_eq h.written, current_eq (by simp [h.before]), h.lastWrite]

theorem heldBefore (h : Drops q todo c c') (x : StableId) :
    c.refsHeld x = c.m.liveRefs x + (q :: todo).count x := by
  simp [refsHeld, CallerPc.todo, h.before]

theorem heldAfter (h : Drops q todo c c') (x : StableId) :
    c'.refsHeld x = c.m.liveRefs x + todo.count x := by
  have hTodo : c'.caller.todo = todo := by
    rw [h.caller]
    split <;> rfl
  rw [refsHeld, hTodo, h.tables]
  rfl

theorem sameBytes (h : Drops q todo c c') (k : StableId) : SameBytes k c c' :=
  .of_providers h.migrator (by rw [h.tables])

theorem block_self (h : Drops p todo c c') (hKeyed : Keyed c.m.physical c.m.nextUuid)
    (hRegistered : ∀ t, c.m.providers.online t = true → t ∈ releaseTiers)
    (hLive : Live p key target c r) :
    (∃ r', Live p key target c' r') ∨ key = p ∧ Dead p target c' := by
  have hId := PhysicalBlockTable.get_physicalId hLive.get
  have hHeld := h.heldBefore p
  rw [List.count_cons_self] at hHeld
  rcases PhysicalBlockTable.release_cases hLive.get (hKeyed.refPos p r hLive.get) with
    ⟨hOne, hRel⟩ | ⟨hMore, hRel⟩
  · -- the block goes: it counts no reference beyond the one dropped
    obtain ⟨hOwn, hSole⟩ : key = p ∧ Sole target p c r.tier := by
      refine hLive.sole.resolve_right fun hLt => ?_
      omega
    have hPc : c'.caller = .probing p releaseTiers todo := by
      rw [h.caller, hRel, if_pos rfl]
    refine Or.inr ⟨hOwn, ?_, h.writing, h.written, ⟨r.tier, hSole.same (h.sameBytes p)⟩,
      fun t hSome => ?_⟩
    · rw [h.tables]
      show (c.m.physical.release p).2.get p = none
      rw [hRel, PhysicalBlockTable.get_remove, if_pos hId.symm]
    · rw [(h.sameBytes p).content] at hSome
      have hIn : t ∈ c.migrator.copies target r.tier := by
        by_contra hOut
        exact hSome (hSole.elsewhere t hOut)
      have hOn := (hLive.held t hIn).1
      rw [(h.sameBytes p).online, hPc]
      exact ⟨hOn, rfl, hRegistered t hOn⟩
  · have hPc : c'.caller = .releasing todo := by
      rw [h.caller, hRel, if_neg (by dsimp only; omega)]
    refine Or.inl ⟨{ r with refcount := r.refcount - 1 }, hLive.same (h.sameBytes key) ?_ rfl rfl
      h.current (fun _ _ _ hw => absurd hw (h.writing _ _ _)) ?_ ?_⟩
    · rw [h.tables]
      show (c.m.physical.release p).2.get p = _
      rw [hRel, PhysicalBlockTable.get_put, if_pos hId.symm]
    · simp [hPc, CallerPc.probed]
    · rw [h.heldAfter, hHeld]
      dsimp only
      omega

theorem block_ne (h : Drops q todo c c') (hKeyed : Keyed c.m.physical c.m.nextUuid)
    {s : PhysicalBlockRecord} (hs : c.m.physical.get q = some s) (hNe : q ≠ p)
    (hOther : c'.m.physical.get p = c.m.physical.get p)
    (hBlock : (∃ r, Live p key target c r) ∨ key = p ∧ Dead p target c) :
    (∃ r', Live p key target c' r') ∨ key = p ∧ Dead p target c' := by
  rcases hBlock with ⟨r, hLive⟩ | ⟨hOwn, hDead⟩
  · refine Or.inl ⟨r, hLive.same (h.sameBytes key) (hOther.trans hLive.get) rfl rfl h.current
      (fun _ _ _ hw => absurd hw (h.writing _ _ _)) (fun pid hPid hEqKey => ?_) ?_⟩
    · -- the key of the block is not the id of another one
      rw [h.probed hPid] at hEqKey
      exact hNe (hKeyed.ownKey p q r s hLive.get hs (hLive.providerKey.trans hEqKey.symm)).symm
    · rw [h.heldBefore, h.heldAfter, List.count_cons_of_ne hNe]
  · refine Or.inr ⟨hOwn, hDead.same (h.sameBytes p) (hOther.trans hDead.get) h.writing h.written
      fun t _ hFinds => ?_⟩
    rw [h.before] at hFinds
    exact hFinds.elim

end Drops

theorem resume_releasing (h : Consistent p key target c) {q : StableId} {todo : List StableId}
    (hPc : c.caller = .releasing (q :: todo)) :
    Consistent p key target (c.resume sha p) := by
  have hDrops : Drops q todo c (c.resume sha p) := by
    unfold Concurrent.resume
    rw [hPc]
    exact ⟨hPc, rfl, rfl, rfl, rfl⟩
  -- what is still to be dropped is counted, so it is registered
  obtain ⟨s, hs⟩ : ∃ s, c.m.physical.get q = some s := by
    refine PhysicalBlockTable.exists_of_refs_pos (Nat.lt_of_lt_of_le ?_ (h.tables.covered q))
    rw [hDrops.heldBefore, List.count_cons_self]
    omega
  obtain ⟨hKeyed, hOther, hRefs⟩ := h.tables.keyed.release hs
  have hReads : (c.resume sha p).reads = c.reads := by
    unfold Concurrent.resume
    rw [hPc]
  refine ⟨h.tables.of_same (hDrops.sameBytes key).online ?_ fun x => ?_, fun rec hRec => ?_,
    ?_, ?_⟩
  · rw [hDrops.tables]
    exact hKeyed
  · have hCovered := h.tables.covered x
    rw [hDrops.heldBefore, List.count_cons] at hCovered
    rw [hDrops.heldAfter, hDrops.tables]
    show _ ≤ (c.m.physical.release q).2.refs x
    rw [hRefs]
    by_cases hx : x = q
    · simp only [hx, beq_self_eq_true, if_true] at hCovered ⊢
      omega
    · simpa [hx, Ne.symm hx] using hCovered
  · rw [hDrops.migrator] at hRec
    rw [(hDrops.sameBytes key).online]
    exact h.source rec hRec
  · rw [hReads]
    exact h.reads
  · by_cases hqp : q = p
    · subst hqp
      rcases h.block with ⟨r, hLive⟩ | ⟨-, hDead⟩
      · exact hDrops.block_self h.tables.keyed h.tables.registered hLive
      · exact absurd (hDead.get.symm.trans hs) (by simp)
    · refine hDrops.block_ne h.tables.keyed hs hqp ?_ h.block
      rw [hDrops.tables]
      exact hOther p (Ne.symm hqp)

theorem resume_probing (h : Consistent p key target c) {q : StableId}
    {tiers : List StorageTier} {todo : List StableId} (hPc : c.caller = .probing q tiers todo) :
    Consistent p key target (c.resume sha p) := by
  have hOld : ∀ payload, c.caller ≠ .written payload := by simp [hPc]
  have hTodo : c.caller.todo = todo := by rw [hPc]; rfl
  have hProbed : c.caller.probed = some q := by rw [hPc]; rfl
  unfold Concurrent.resume
  rw [hPc]
  cases tiers with
  | nil =>
    refine h.move_caller hOld hTodo.symm (by simp [CallerPc.probed]) (by simp) (by simp)
      fun _ t _ hFinds => ?_
    rw [hPc] at hFinds
    exact absurd hFinds.2 List.not_mem_nil
  | cons tier tiers =>
    dsimp only
    split
    · refine h.move_caller hOld hTodo.symm (fun pid hPid => hProbed.trans hPid) (by simp)
        (by simp) fun _ t _ hFinds => ?_
      rw [hPc] at hFinds
      exact hFinds.1
    · next hEx =>
      refine h.move_caller hOld hTodo.symm (fun pid hPid => hProbed.trans hPid) (by simp)
        (by simp) fun hDead t hSome hFinds => ?_
      have hOn := (hDead.left t hSome).1
      rw [hPc] at hFinds
      refine ⟨hFinds.1, (List.mem_cons.mp hFinds.2).resolve_left ?_⟩
      -- a tier that answers and has the bytes would have said so
      rintro rfl
      refine hEx (ProviderRegistry.existsKey_spec.mpr ⟨hOn, ?_⟩)
      rw [hFinds.1]
      exact Option.isSome_iff_ne_none.mpr hSome

theorem resume_removing (h : Consistent p key target c) {q : StableId} {tier : StorageTier}
    {tiers : List StorageTier} {todo : List StableId}
    (hPc : c.caller = .removing q tier tiers todo) (hCalm : c.Calm sha p .resume) :
    Consistent p key target (c.resume sha p) := by
  simp only [Calm, hPc, CalmResume] at hCalm
  unfold Concurrent.resume
  rw [hPc]
  dsimp only
  have hCovered : ∀ x, c.m.liveRefs x + todo.count x ≤ c.m.physical.refs x := by
    intro x
    have hOld := h.tables.covered x
    rwa [refsHeld, hPc] at hOld
  cases hDel : c.m.providers.delete tier q with
  | error e =>
    refine h.move_caller (by simp [hPc]) (by rw [hPc]; rfl)
      (fun pid hPid => by rw [hPc]; exact hPid) (by simp) (by simp) fun hDead t hSome hFinds => ?_
    -- the bytes are there and the tier answers, so the delete does not fail
    rw [hPc] at hFinds
    obtain ⟨-, hThere⟩ := hCalm hFinds
    obtain ⟨providers, hOk⟩ := ProviderRegistry.delete_ok (hDead.left tier hThere).1 q
    exact absurd (hDel.symm.trans hOk) (by simp)
  | ok providers =>
    obtain ⟨hSame, hContent⟩ := ProviderRegistry.delete_spec hDel
    refine ⟨h.tables.of_same hSame h.tables.keyed hCovered, fun rec hRec => ?_, h.reads, ?_⟩
    · obtain ⟨hId, hKey, hNe, hOn⟩ := h.source rec hRec
      exact ⟨hId, hKey, hNe, (hSame _).trans hOn⟩
    rcases h.block with ⟨r, hLive⟩ | ⟨hOwn, hDead⟩
    · have hNe : q ≠ key := hLive.probed q (by simp [hPc, CallerPc.probed])
      refine Or.inl ⟨r, hLive.same ⟨rfl, hSame, fun t => ?_⟩ hLive.get rfl rfl ?_ (by simp)
        (by simp [CallerPc.probed]) ?_⟩
      · exact (hContent t key).trans (if_neg fun hBoth => hNe hBoth.2.symm)
      · rw [current_eq (by simp), current_eq (by simp [hPc])]
      · rw [refsHeld, refsHeld, hPc]
        exact Nat.le_refl _
    · right
      refine ⟨hOwn, hDead.get, by simp, by simp, ?_, fun t hSome => ?_⟩
      · obtain ⟨from', hSole⟩ := hDead.sole
        refine ⟨from', hSole.source, fun t ht => ?_⟩
        show providers.content t p = none
        rw [hContent]
        split
        · rfl
        · exact hSole.elsewhere t ht
      · -- nothing is left: what was found was the only copy
        exfalso
        have hSome' : providers.content t p ≠ none := hSome
        rw [hContent] at hSome'
        split at hSome'
        · exact hSome' rfl
        · next hOther =>
          have hFinds := (hDead.left t hSome').2
          rw [hPc] at hFinds
          obtain rfl : q = p := hFinds
          obtain ⟨hOne, hThere⟩ := hCalm rfl
          obtain ⟨from', hSole⟩ := hDead.sole
          have hIn : ∀ t, c.m.providers.content t q ≠ none →
              t ∈ c.migrator.copies target from' := by
            intro t hT
            by_contra hOut
            exact hT (hSole.elsewhere t hOut)
          exact hOther ⟨MigratorPc.copies_unique hOne hSole.source (hIn t hSome')
            (hIn tier hThere), rfl⟩

theorem resume_consistent (h : Consistent p key target c) (hCalm : c.Calm sha p .resume) :
    Consistent p key target (c.resume sha p) := by
  cases hPc : c.caller with
  | idle =>
    unfold Concurrent.resume
    rw [hPc]
    exact h
  | writing tier k payload => exact resume_writing h hPc hCalm
  | written payload => exact resume_written h hPc
  | releasing todo =>
    cases todo with
    | nil =>
      unfold Concurrent.resume
      rw [hPc]
      refine h.move_caller (by simp [hPc]) (by rw [hPc]; rfl) (by simp [CallerPc.probed])
        (by simp) (by simp) fun _ t _ hFinds => ?_
      rw [hPc] at hFinds
      exact hFinds.elim
    | cons q todo => exact resume_releasing h hPc
  | probing q tiers todo => exact resume_probing h hPc
  | removing q tier tiers todo => exact resume_removing h hPc hCalm

/-! ### A call begins -/

theorem read_consistent (h : Consistent p key target c) (hIdle : c.caller = .idle) {now : Time}
    (hCalm : c.Calm sha p (.readPayload now)) : Consistent p key target (c.read p now) := by
  unfold Concurrent.read KVBlockManager.readPayload
  rcases h.block with ⟨r, hLive⟩ | ⟨hOwn, hDead⟩
  · have hId := PhysicalBlockTable.get_physicalId hLive.get
    have hCurrent : c.current = c.lastWrite := current_eq (by simp [hIdle])
    have hRead : CalmRead p c.m c.migrator := hCalm hIdle
    obtain ⟨hOn, hContent⟩ := hLive.held r.tier (MigratorPc.self_mem_copies fun rec hMoved => by
      rw [hMoved] at hRead
      exact hRead r hLive.get)
    have hGet : c.m.providers.get r.tier r.providerKey = .ok c.lastWrite := by
      rw [ProviderRegistry.get_eq_ok_iff, hLive.providerKey, ← hCurrent]
      exact ⟨hOn, hContent⟩
    simp only [hLive.get, hGet, PhysicalBlockTable.touch, Option.map_some, Option.isSome_some,
      if_true]
    refine ⟨h.tables.rewrite hLive.get rfl rfl rfl rfl (fun _ => rfl) rfl rfl rfl, h.source,
      fun entry hEntry => ?_, Or.inl ⟨{ r with
        lastAccess := now, accessCount := r.accessCount + 1 },
      hLive.same (.of_providers rfl rfl) ?_ rfl rfl rfl hLive.writing hLive.probed
        (Nat.le_refl _)⟩⟩
    · rcases List.mem_append.mp hEntry with hOld | hNew
      · exact h.reads entry hOld
      · rw [List.mem_singleton.mp hNew]
    · exact (PhysicalBlockTable.get_put _ _ p).trans (if_pos hId.symm)
  · simp only [hDead.get, Option.isSome_none, Bool.false_eq_true, if_false]
    exact ⟨h.tables, h.source, h.reads, Or.inr ⟨hOwn, hDead⟩⟩

theorem beginRelease_consistent (h : Consistent p key target c) (hIdle : c.caller = .idle)
    (sessionId : String) : Consistent p key target (c.beginRelease sessionId) := by
  obtain ⟨pc, hPc, hProbed, hWriting, hWritten⟩ : ∃ pc, (c.beginRelease sessionId).caller = pc ∧
      pc.probed = none ∧ (∀ tier k payload, pc ≠ .writing tier k payload) ∧
      ∀ payload, pc ≠ .written payload := by
    refine ⟨_, rfl, ?_⟩
    unfold beginRelease
    dsimp only
    split <;> simp [CallerPc.probed]
  have hHeld : ∀ q, (c.beginRelease sessionId).refsHeld q ≤ c.refsHeld q := by
    intro q
    unfold beginRelease refsHeld
    dsimp only
    cases hs : c.m.sessions.get? sessionId with
    | none =>
      have hSame : (c.m.popSession sessionId).sessions = c.m.sessions := Dict.erase_of_none hs
      simp [CallerPc.todo, hIdle, liveRefs_congr hSame]
    | some s =>
      -- each of its ids is dropped once, however many of its blocks point to it
      have hLive := liveRefs_popSession hs q
      have hOnce : s.physicalIds.count q ≤ s.refsTo q := by
        by_cases hIn : q ∈ s.physicalIds
        · rw [List.count_eq_one_of_mem s.nodup_physicalIds hIn]
          exact mem_physicalIds.mp hIn
        · rw [List.count_eq_zero_of_not_mem hIn]
          exact Nat.zero_le _
      simp only [CallerPc.todo, hIdle, List.count_nil]
      omega
  refine ⟨h.tables.of_same (fun _ => rfl) h.tables.keyed
    fun q => Nat.le_trans (hHeld q) (h.tables.covered q), h.source, h.reads, ?_⟩
  rcases h.block with ⟨r, hLive⟩ | ⟨hOwn, hDead⟩
  · refine Or.inl ⟨r, hLive.same (.of_providers rfl rfl) hLive.get rfl rfl ?_
      (fun _ _ _ hw => absurd (hPc.symm.trans hw) (hWriting _ _ _)) (fun pid hPid => ?_) ?_⟩
    · rw [current_eq (by rw [hPc]; exact hWritten), current_eq (by simp [hIdle])]
      rfl
    · rw [hPc, hProbed] at hPid
      exact absurd hPid (by simp)
    · have := hHeld p
      omega
  · refine Or.inr ⟨hOwn, hDead.same (.of_providers rfl rfl) hDead.get (by rw [hPc]; exact hWriting)
      (by rw [hPc]; exact hWritten) fun t _ hFinds => ?_⟩
    rw [hIdle] at hFinds
    exact hFinds.elim

/-- A block that is its own clone: L1 has the new bytes, and so has every other copy. -/
theorem Live.overwritten (h : Live p key target c r) (hL1 : c.m.providers.online .l1Ram = true)
    (hIdle : c.caller = .idle) 
    (hDue : payload = c.lastWrite ∨ c.migrator.Takes .l1Ram payload) {c' : Concurrent}
    (hMigrator : c'.migrator = c.migrator) (hIdle' : c'.caller = .idle)
    (hLast : c'.lastWrite = payload)
    (hSame : ∀ t, c'.m.providers.online t = c.m.providers.online t)
    (hContent : ∀ t, c'.m.providers.content t key =
      if t = .l1Ram then some payload else c.m.providers.content t key)
    (hGet : c'.m.physical.get p = some { r with refcount := r.refcount + 1, tier := .l1Ram })
    (hRefs : c'.refsHeld p ≤ r.refcount) :
    Live p key target c' { r with refcount := r.refcount + 1, tier := .l1Ram } := by
  have hBefore : c.current = c.lastWrite := current_eq (by simp [hIdle])
  have hNow : c'.current = payload := (current_eq (by simp [hIdle'])).trans hLast
  refine ⟨hGet, h.providerKey, ?_, ?_, fun t ht => ?_, fun data hData => ?_,
    Or.inr (Nat.lt_succ_of_le hRefs)⟩
  · simp [hIdle']
  · simp [hIdle', CallerPc.probed]
  · rw [hMigrator] at ht
    rw [hSame, hContent, hNow]
    by_cases ht1 : t = .l1Ram
    · rw [if_pos ht1, ht1]
      exact ⟨hL1, rfl⟩
    · rw [if_neg ht1]
      obtain ⟨hOnline, hOld⟩ := h.held t ((MigratorPc.mem_copies ht).resolve_left ht1)
      refine ⟨hOnline, ?_⟩
      obtain hEq | hTakes := hDue
      · rw [hOld, hBefore, hEq]
      · rw [hOld, h.data payload ((hTakes.copies ht).resolve_left ht1)]
  · rw [hMigrator] at hData
    rw [hNow]
    obtain hEq | hTakes := hDue
    · rw [hEq, ← hBefore]
      exact h.data data hData
    · exact hTakes.data hData

theorem beginWrite_hit (h : Consistent p key target c) (hIdle : c.caller = .idle)
    (hp : c.m.physical.get p = some r) (hLive : Live p key target c r)
    (hCow : c.m.needsCow p = true) {e : PhysicalBlockRecord}
    (hHash : c.m.physical.getByHash (contentHash sha payload) = some e)
    (hCalm : c.Calm sha p (.writeCow payload)) :
    Consistent p key target (c.beginWrite sha p payload) := by
  obtain ⟨-, he⟩ := PhysicalBlockTable.getByHash_eq_some.mp hHash
  obtain ⟨providers, hPut, hEq⟩ := writeClone_hit h.tables.l1 hp hHash
  obtain ⟨hOn, hSame, hContent⟩ := ProviderRegistry.put_spec hPut
  have hCurrent : c.current = c.lastWrite := current_eq (by simp [hIdle])
  unfold beginWrite
  rw [if_pos hCow, hEq]
  dsimp only
  have hKeyed : Keyed (c.m.physical.put { e with refcount := e.refcount + 1, tier := .l1Ram })
      (c.m.nextUuid + 1) :=
    (h.tables.keyed.mono (Nat.le_succ _)).put he rfl rfl (Nat.succ_pos _)
  have hSource : ∀ rec, c.migrator.rec? = some rec → rec.physicalId = p ∧
      rec.providerKey = key ∧ rec.tier ≠ target ∧ providers.online rec.tier = true := by
    intro rec hRec
    obtain ⟨hId, hKey, hNe, hOnline⟩ := h.source rec hRec
    exact ⟨hId, hKey, hNe, (hSame _).trans hOnline⟩
  refine ⟨h.tables.of_same hSame hKeyed fun q => ?_, hSource, h.reads, Or.inl ?_⟩
  · show c.refsHeld q ≤ _
    have hCovered := h.tables.covered q
    rw [PhysicalBlockTable.refs_put]
    dsimp only
    split
    · next hq =>
      rw [hq, PhysicalBlockTable.refs_of_get he] at hCovered
      rw [hq]
      omega
    · exact hCovered
  · by_cases hSelf : e.physicalId = p
    · -- the block is its own clone
      obtain rfl : r = e := Option.some.inj (hp.symm.trans (hSelf ▸ he))
      rw [if_pos hSelf]
      have hDue := hCalm hIdle ⟨hCow, by rw [hHash, ← hSelf]; rfl⟩
      have hGet := (PhysicalBlockTable.get_put c.m.physical
        { r with refcount := r.refcount + 1, tier := .l1Ram } p).trans (if_pos hSelf.symm)
      have hCovered := h.tables.covered p
      rw [PhysicalBlockTable.refs_of_get hp] at hCovered
      refine ⟨_, hLive.overwritten h.tables.l1 hIdle hDue rfl hIdle rfl hSame (fun t => ?_) hGet
        hCovered⟩
      rw [hLive.providerKey] at hContent
      simp only [hContent, and_true]
    · rw [if_neg hSelf]
      have hNe : p ≠ e.physicalId := Ne.symm hSelf
      have hKeyNe : key ≠ e.providerKey := fun hEqKey =>
        hNe (h.tables.keyed.keyInj p e.physicalId r e hp he (hLive.providerKey.trans hEqKey))
      refine ⟨r, hLive.same ⟨rfl, hSame, fun t => ?_⟩ ?_ rfl rfl ?_ hLive.writing hLive.probed
        (Nat.le_refl _)⟩
      · exact (hContent t key).trans (if_neg fun hBoth => hKeyNe hBoth.2)
      · exact (PhysicalBlockTable.get_put _ _ p).trans ((if_neg hNe).trans hp)
      · rw [current_eq (by simp [hIdle]), hCurrent]

theorem beginWrite_fresh (h : Consistent p key target c) (hIdle : c.caller = .idle)
    (hLive : Live p key target c r) (hCow : c.m.needsCow p = true)
    (hHash : c.m.physical.getByHash (contentHash sha payload) = none) :
    Consistent p key target (c.beginWrite sha p payload) := by
  obtain ⟨providers, e, hPut, he, hEq⟩ := writeClone_fresh h.tables.l1 hLive.get hHash
  obtain ⟨-, hSame, hContent⟩ := ProviderRegistry.put_spec hPut
  have hDrawn := h.tables.keyed.idLt p r hLive.get
  have hId : e.physicalId = ⟨.phys, c.m.nextUuid + 1⟩ := by rw [he]
  have hKey : e.providerKey = ⟨.phys, c.m.nextUuid⟩ := by rw [he]
  have hRef : e.refcount = 1 := by rw [he]
  have hNe : p ≠ e.physicalId := by
    rintro rfl
    rw [hId] at hDrawn
    dsimp only at hDrawn
    omega
  have hKeyNe : key ≠ ⟨.phys, c.m.nextUuid⟩ := by
    rintro rfl
    rw [hLive.providerKey] at hDrawn
    dsimp only at hDrawn
    omega
  unfold beginWrite
  rw [if_pos hCow, hEq]
  dsimp only
  rw [if_neg (Ne.symm hNe)]
  refine ⟨h.tables.of_same hSame ?_ fun q => ?_, fun rec hRec => ?_, h.reads, Or.inl ⟨r,
    hLive.same ⟨rfl, hSame, fun t => ?_⟩ ?_ rfl rfl ?_ hLive.writing hLive.probed
      (Nat.le_refl _)⟩⟩
  · refine h.tables.keyed.insert ?_ ?_ (by rw [hRef]; exact Nat.one_pos)
    · rw [hId]
      dsimp only
      omega
    · rw [hKey]
      dsimp only
      omega
  · show c.refsHeld q ≤ _
    have hCovered := h.tables.covered q
    rw [PhysicalBlockTable.refs_insert]
    split
    · next hq =>
      -- nothing is held of an id that has just been drawn
      have hNone := h.tables.keyed.get_none (p := q) (by rw [hq, hId]; exact Nat.le_succ _)
      rw [PhysicalBlockTable.refs_of_none hNone] at hCovered
      exact Nat.le_trans hCovered (Nat.zero_le _)
    · exact hCovered
  · obtain ⟨hPid, hRecKey, hTier, hOnline⟩ := h.source rec hRec
    exact ⟨hPid, hRecKey, hTier, (hSame _).trans hOnline⟩
  · exact (hContent t key).trans (if_neg fun hBoth => hKeyNe hBoth.2)
  · exact (PhysicalBlockTable.get_insert _ _ p).trans ((if_neg hNe).trans hLive.get)
  · rw [current_eq (by simp [hIdle]), current_eq (by simp [hIdle])]

theorem beginWrite_consistent (h : Consistent p key target c) (hIdle : c.caller = .idle)
    (hCalm : c.Calm sha p (.writeCow payload)) :
    Consistent p key target (c.beginWrite sha p payload) := by
  rcases h.block with ⟨r, hLive⟩ | ⟨-, hDead⟩
  · by_cases hCow : c.m.needsCow p = true
    · cases hHash : c.m.physical.getByHash (contentHash sha payload) with
      | none => exact beginWrite_fresh h hIdle hLive hCow hHash
      | some e => exact beginWrite_hit h hIdle hLive.get hLive hCow hHash hCalm
    · unfold beginWrite
      rw [if_neg hCow, hLive.get]
      dsimp only
      split
      · exact h
      · refine h.move_caller (by simp [hIdle]) (by rw [hIdle]; rfl) (by simp [CallerPc.probed])
          (fun tier k payload hPc => ?_) (by simp) fun hDead => ?_
        · obtain ⟨-, rfl, -⟩ := CallerPc.writing.inj hPc
          exact ⟨r, hLive.get, rfl⟩
        · exact absurd (hDead.get.symm.trans hLive.get) (by simp)
  · unfold beginWrite
    rw [if_neg (by simp [KVBlockManager.needsCow, hDead.get]), hDead.get]
    exact h

-- ------ Every action

theorem step_consistent (h : Consistent p key target c) {a : Action} (hCalm : c.Calm sha p a) :
    Consistent p key target (c.step sha policy p target a) := by
  cases a with
  | writeCow payload =>
    show Consistent p key target (if c.caller = .idle then c.beginWrite sha p payload else c)
    split
    · next hIdle => exact beginWrite_consistent h hIdle hCalm
    · exact h
  | readPayload now =>
    show Consistent p key target (if c.caller = .idle then c.read p now else c)
    split
    · next hIdle => exact read_consistent h hIdle hCalm
    · exact h
  | releaseSession sessionId =>
    show Consistent p key target (if c.caller = .idle then c.beginRelease sessionId else c)
    split
    · next hIdle => exact beginRelease_consistent h hIdle sessionId
    · exact h
  | resume => exact resume_consistent h hCalm
  | migrate now => exact migrate_consistent h hCalm

theorem start_consistent {m : KVBlockManager} (hInv : Inv m) (hPlaced : Placed m)
    (hp : m.physical.get p = some r) {w : Bytes}
    (hw : m.providers.content r.tier r.providerKey = some w) :
    Consistent p r.providerKey target (start m w) := by
  have hHeld : ∀ q, (start m w).refsHeld q = m.liveRefs q := fun q => by
    simp [refsHeld, start, CallerPc.todo]
  refine ⟨⟨hInv.store.l1, hInv.store.registered, hInv.store.toKeyed, fun q => ?_⟩,
    fun rec hRec => by simp [start, MigratorPc.rec?] at hRec, by simp [start],
    Or.inl ⟨r, hp, rfl, by simp [start], by simp [start, CallerPc.probed], fun t ht => ?_,
      by simp [start, MigratorPc.data?], ?_⟩⟩
  · rw [hHeld]
    exact hInv.covered q
  · obtain rfl : t = r.tier := by simpa [start, MigratorPc.copies] using ht
    exact ⟨(hInv.store.stored p r hp).1, hw⟩
  · rw [hHeld]
    refine (hPlaced p r hp).imp_left fun hSole => ⟨hSole.1,
      fun rec hRec => by simp [start, MigratorPc.rec?] at hRec, fun t ht => hSole.2 t ?_⟩
    simpa [start, MigratorPc.copies] using ht

end Concurrent

open Concurrent

/-- **A calm interleaving loses no update.** From any state the manager reaches,
with a live block that reads `w`: whatever one migration of the block and any
calls of `write_cow`, `read_payload` and `release_session` do between their
awaits, while every action is calm every read has returned the most recent
write, and a block released for good has left no bytes. -/
theorem noLostUpdate_along (sha : Sha256) (policy : TieringPolicy) (cfg : KvConfig)
    (ops : List Op) (p key : StableId) (target : StorageTier) (w : Bytes)
    (hKey : ((exec (step sha) (.new cfg) ops).physical.get p).map
      PhysicalBlockRecord.providerKey = some key)
    (hRead : ((exec (step sha) (.new cfg) ops).readPayload p 0).1 = .ok w)
    (actions : List Action)
    (hCalm : Every (Concurrent.step sha policy p target) (Calm sha p)
      (start (exec (step sha) (.new cfg) ops) w) actions) :
    Along (Concurrent.step sha policy p target) (NoLostUpdate p key)
      (start (exec (step sha) (.new cfg) ops) w) actions := by
  have hReach : Inv (exec (step sha) (.new cfg) ops) ∧ Placed (exec (step sha) (.new cfg) ops) :=
    Run.exec_of_invariant (I := fun m => Inv m ∧ Placed m)
      (fun m op h => ⟨step_inv h.1 op, step_placed h.1 h.2 op⟩)
      ⟨Inv.new cfg, fun p r hp => by simp [KVBlockManager.new] at hp⟩ ops
  rcases readPayload_cases hReach.1.store p 0 with ⟨-, hEq⟩ | ⟨r, data, hp, hw, hEq⟩
  · rw [hEq] at hRead
    exact absurd hRead (by simp)
  · rw [hEq] at hRead
    obtain rfl : data = w := Except.ok.inj hRead
    obtain rfl : r.providerKey = key := by
      rw [hp] at hKey
      exact Option.some.inj hKey
    exact (Run.along_of_every (I := Consistent p r.providerKey target) (C := Calm sha p)
      (fun _ _ h hC => step_consistent h hC) (start_consistent hReach.1 hReach.2 hp hw)
      hCalm).mono fun _ h => h.noLostUpdate

/-- One block, nothing done to it yet. -/
def oneBlock : List Op := [.allocate { sessionId := "a", payload := [1] } 0]

/-- A write before the copy is taken, a read while it is on its way, and after the
migration a write, a read and the release of the block. -/
theorem noLostUpdate_oneBlock :
    Along (Concurrent.step .spelled {} ⟨.phys, 0⟩ .l3Nvme) (NoLostUpdate ⟨.phys, 0⟩ ⟨.phys, 0⟩)
      (start (exec (step .spelled) (.new .plain) oneBlock) [1])
      [.migrate 1, .writeCow [2], .resume, .resume, .migrate 2, .readPayload 3, .migrate 4,
       .migrate 5, .migrate 6, .writeCow [3], .resume, .resume, .readPayload 7,
       .releaseSession "a", .resume, .resume, .resume, .resume, .resume, .resume, .resume] :=
  noLostUpdate_along .spelled {} .plain oneBlock ⟨.phys, 0⟩ ⟨.phys, 0⟩ .l3Nvme [1]
    (by decide +kernel) (by decide +kernel) _ (by decide +kernel)

/-- A write that lands after the copy is taken is undone by the migration: the
write returns, and a read after both is given the old bytes. -/
theorem not_noLostUpdate_oneBlock :
    ¬ Along (Concurrent.step .spelled {} ⟨.phys, 0⟩ .l3Nvme)
      (NoLostUpdate ⟨.phys, 0⟩ ⟨.phys, 0⟩)
      (start (exec (step .spelled) (.new .plain) oneBlock) [1])
      [.migrate 1, .migrate 2, .writeCow [2], .resume, .resume, .migrate 3, .migrate 4,
       .migrate 5, .readPayload 6] := by
  have hReads : (exec (Concurrent.step .spelled {} ⟨.phys, 0⟩ .l3Nvme)
      (start (exec (step .spelled) (.new .plain) oneBlock) [1])
      [.migrate 1, .migrate 2, .writeCow [2], .resume, .resume, .migrate 3, .migrate 4,
       .migrate 5, .readPayload 6]).reads = [(.ok [1], [2])] := by
    decide +kernel
  intro h
  have hRead := h.exec.1 (.ok [1], [2]) (by rw [hReads]; exact List.mem_singleton_self _)
  exact absurd hRead (by decide)

end Neuroswarm.Kv
