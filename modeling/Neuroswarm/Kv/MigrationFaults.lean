import Neuroswarm.Kv.Effects

/-!
# KV memory runtime — migrations with a failing provider call

`migrate_block` with one of its provider calls raising. A call that raises may have taken
effect before: a `put` may leave part of the payload, and a `delete` may be carried out
though its answer is lost.

* `preserves_iff` — the payload stays readable, and a migration that returns leaves its only
  copy at the destination, exactly when no failed delete was carried out and no third tier
  has a copy.
-/

namespace Neuroswarm.Kv

/-- The provider call of a migration that raises, and what it did before that. -/
inductive Fault where
  | none
  | get
  | put (written : Option Bytes)
  | delete (done : Bool)
  deriving DecidableEq, Repr

namespace KVBlockManager

/-- What a `put` that raises leaves. -/
def brokenPut (m : KVBlockManager) (target : StorageTier) (key : StableId)
    (written : Option Bytes) : KVBlockManager :=
  match written.map (m.providers.put target key) with
  | some (.ok providers) => { m with providers }
  | _ => m

/-- What a `delete` that raises leaves. -/
def brokenDelete (m : KVBlockManager) (source : StorageTier) (key : StableId) (done : Bool) :
    KVBlockManager :=
  match m.providers.delete source key with
  | .ok providers => if done then { m with providers } else m
  | .error _ => m

/-- `migrate_block` where the call that `fault` names raises. -/
def migrateFaulty (policy : TieringPolicy) (m : KVBlockManager) (pid : StableId)
    (target : StorageTier) (now : Time) (fault : Fault) : Except KvError Bool × KVBlockManager :=
  match m.physical.get pid with
  | none => (.ok false, m)
  | some rec =>
    if rec.tier = target then (.ok false, m)
    else if target = .futureCxl ∨ target = .futureMte then (.error (.futureTier target), m)
    else if (m.providers.getTier rec.tier).isNone ∨ (m.providers.getTier target).isNone then
      (.ok false, m)
    else if fault = .get then (.error (.providerUnavailable rec.tier), m)
    else
      match m.providers.get rec.tier rec.providerKey with
      | .error e => (.error e, m)
      | .ok data =>
        match fault with
        | .put written =>
          (.error (.providerUnavailable target), m.brokenPut target rec.providerKey written)
        | fault =>
          match m.providers.put target rec.providerKey data with
          | .error e => (.error e, m)
          | .ok providers =>
            let m := { m with providers }
            match fault with
            | .delete done =>
              (.error (.providerUnavailable rec.tier),
                m.brokenDelete rec.tier rec.providerKey done)
            | _ =>
              match m.providers.delete rec.tier rec.providerKey with
              | .error e => (.error e, m)
              | .ok providers =>
                let m := { m with providers }
                match finishMigration policy m.physical rec target now with
                | none => (.error (.unknownBlock pid), m)
                | some physical => (.ok true, { m with physical })

/-- A read of the block returns these bytes. -/
def Reads (m : KVBlockManager) (pid : StableId) (data : Bytes) : Prop :=
  ∃ rec, m.physical.get pid = some rec ∧ m.providers.get rec.tier rec.providerKey = .ok data

theorem readPayload_iff {m : KVBlockManager} {pid : StableId} {data : Bytes} (now : Time) :
    (m.readPayload pid now).1 = .ok data ↔ m.Reads pid data := by
  unfold readPayload Reads
  cases hPid : m.physical.get pid with
  | none => simp
  | some rec =>
    cases hGet : m.providers.get rec.tier rec.providerKey with
    | error e => simp [hGet]
    | ok stored => simp [hGet, PhysicalBlockTable.touch, hPid]

/-- The payload is still read, and after a migration that returned `True` the provider of the
destination has its only copy. -/
structure Preserves (pid : StableId) (target : StorageTier) (data : Bytes)
    (outcome : Except KvError Bool × KVBlockManager) : Prop where
  read : ∀ now, (outcome.2.readPayload pid now).1 = .ok data
  moved : outcome.1 = .ok true → ∃ rec, outcome.2.physical.get pid = some rec ∧
    rec.tier = target ∧ ∀ t, outcome.2.providers.content t rec.providerKey =
      if t = target then some data else none

/-- The migration gets as far as the delete: the block has to be moved to a tier that answers. -/
def Moves (m : KVBlockManager) (rec : PhysicalBlockRecord) (target : StorageTier) : Prop :=
  rec.tier ≠ target ∧ target ≠ .futureCxl ∧ target ≠ .futureMte ∧
    m.providers.online target = true

-- ------ What a migration leaves

variable {m : KVBlockManager} {pid : StableId} {rec : PhysicalBlockRecord} {data : Bytes}

theorem getTier_isSome_of_online {reg : ProviderRegistry} {tier : StorageTier}
    (h : reg.online tier = true) : (reg.getTier tier).isNone = false := by
  obtain ⟨p, hp, -⟩ := ProviderRegistry.online_iff.mp h
  unfold ProviderRegistry.getTier
  rw [hp]
  rfl

theorem put_offline {reg : ProviderRegistry} {tier : StorageTier}
    (h : ¬ reg.online tier = true) (key : StableId) (bytes : Bytes) :
    ∃ e, reg.put tier key bytes = .error e := by
  cases hPut : reg.put tier key bytes with
  | error e => exact ⟨e, rfl⟩
  | ok reg' => exact absurd (ProviderRegistry.put_spec hPut).1 h

variable {target : StorageTier}

theorem migrateFaulty_of_stays (policy : TieringPolicy) (hRec : m.physical.get pid = some rec)
    (hGet : m.providers.get rec.tier rec.providerKey = .ok data) (hStays : ¬ m.Moves rec target)
    (now : Time) (fault : Fault) :
    (m.migrateFaulty policy pid target now fault).2 = m ∧
      (m.migrateFaulty policy pid target now fault).1 ≠ .ok true := by
  unfold migrateFaulty
  rw [hRec]
  dsimp only
  by_cases hTier : rec.tier = target
  · rw [if_pos hTier]
    exact ⟨rfl, by simp⟩
  rw [if_neg hTier]
  by_cases hFuture : target = .futureCxl ∨ target = .futureMte
  · rw [if_pos hFuture]
    exact ⟨rfl, by simp⟩
  rw [if_neg hFuture]
  obtain ⟨hCxl, hMte⟩ := not_or.mp hFuture
  have hOffline : ¬ m.providers.online target = true := fun hOnline =>
    hStays ⟨hTier, hCxl, hMte, hOnline⟩
  split
  · exact ⟨rfl, by simp⟩
  split
  · exact ⟨rfl, by simp⟩
  rw [hGet]
  dsimp only
  split
  · next _ written _ =>
    refine ⟨?_, by simp⟩
    unfold brokenPut
    cases written with
    | none => rfl
    | some bytes =>
      obtain ⟨e, hPut⟩ := put_offline hOffline rec.providerKey bytes
      simp [hPut]
  · obtain ⟨e, hPut⟩ := put_offline hOffline rec.providerKey data
    rw [hPut]
    exact ⟨rfl, by simp⟩

theorem migrateFaulty_of_moves (policy : TieringPolicy) (hRec : m.physical.get pid = some rec)
    (hGet : m.providers.get rec.tier rec.providerKey = .ok data) (hMoves : m.Moves rec target)
    (now : Time) :
    ∃ reg₁ reg₂ rec', m.providers.put target rec.providerKey data = .ok reg₁ ∧
      reg₁.delete rec.tier rec.providerKey = .ok reg₂ ∧
      rec'.physicalId = pid ∧ rec'.tier = target ∧ rec'.providerKey = rec.providerKey ∧
      ∀ fault, m.migrateFaulty policy pid target now fault =
        match fault with
        | .none => (.ok true, { m with providers := reg₂, physical := m.physical.put rec' })
        | .get => (.error (.providerUnavailable rec.tier), m)
        | .put written =>
          (.error (.providerUnavailable target), m.brokenPut target rec.providerKey written)
        | .delete done => (.error (.providerUnavailable rec.tier),
            { m with providers := if done then reg₂ else reg₁ }) := by
  obtain ⟨hTier, hCxl, hMte, hOnline⟩ := hMoves
  obtain ⟨reg₁, hPut⟩ := ProviderRegistry.put_ok hOnline rec.providerKey data
  have hSource : m.providers.online rec.tier = true := (ProviderRegistry.get_eq_ok_iff.mp hGet).1
  have hStill : reg₁.online rec.tier = true := by
    rw [(ProviderRegistry.put_spec hPut).2.1]
    exact hSource
  obtain ⟨reg₂, hDelete⟩ := ProviderRegistry.delete_ok hStill rec.providerKey
  have hId := PhysicalBlockTable.get_physicalId hRec
  refine ⟨reg₁, reg₂, { rec with
    temperature := policy.temperature rec now
    compressed := target ≠ .l1Ram
    tier := target }, hPut, hDelete, hId, rfl, rfl, fun fault => ?_⟩
  unfold migrateFaulty
  simp only [hRec, if_neg hTier, hCxl, hMte, or_self, if_false, getTier_isSome_of_online hSource,
    getTier_isSome_of_online hOnline, Bool.false_eq_true, hGet]
  cases fault with
  | none => simp [hPut, hDelete, finishMigration, hId, hRec]
  | get => rfl
  | put written => rfl
  | delete done => cases done <;> simp [hPut, hDelete, brokenDelete]

theorem reads_of_untouched {m' : KVBlockManager} (hRec : m.physical.get pid = some rec)
    (hGet : m.providers.get rec.tier rec.providerKey = .ok data)
    (hPhysical : m'.physical = m.physical)
    (hOnline : m'.providers.online rec.tier = m.providers.online rec.tier)
    (hContent : m'.providers.content rec.tier rec.providerKey =
      m.providers.content rec.tier rec.providerKey) : m'.Reads pid data := by
  refine ⟨rec, by rw [hPhysical, hRec], ProviderRegistry.get_eq_ok_iff.mpr ?_⟩
  rw [hOnline, hContent]
  exact ProviderRegistry.get_eq_ok_iff.mp hGet

theorem reads_brokenPut (hRec : m.physical.get pid = some rec)
    (hGet : m.providers.get rec.tier rec.providerKey = .ok data) (hTier : rec.tier ≠ target)
    (written : Option Bytes) :
    (m.brokenPut target rec.providerKey written).Reads pid data := by
  unfold brokenPut
  split
  · next providers hPut =>
    obtain ⟨bytes, -, hPut⟩ := Option.map_eq_some_iff.mp hPut
    obtain ⟨-, hOnline, hContent⟩ := ProviderRegistry.put_spec hPut
    refine reads_of_untouched hRec hGet rfl (hOnline _) ?_
    rw [hContent, if_neg fun hEq => hTier hEq.1]
  · exact reads_of_untouched hRec hGet rfl rfl rfl

theorem preserves_of_failed {outcome : Except KvError Bool × KVBlockManager}
    (hReads : outcome.2.Reads pid data) (hFailed : outcome.1 ≠ .ok true) :
    Preserves pid target data outcome where
  read now := (readPayload_iff now).mpr hReads
  moved hTrue := absurd hTrue hFailed

/-- No tier but the block's own and the destination has bytes under its key. -/
def NoThirdCopy (m : KVBlockManager) (rec : PhysicalBlockRecord) (target : StorageTier) : Prop :=
  ∀ t, t ≠ rec.tier → t ≠ target → m.providers.content t rec.providerKey = none

/-- A migration that returns keeps the only copy exactly when there was no third one. -/
theorem preserves_moved_iff {reg₁ reg₂ : ProviderRegistry} {rec' : PhysicalBlockRecord}
    (hTier : rec.tier ≠ target) (hTarget : m.providers.online target = true)
    (hPut : m.providers.put target rec.providerKey data = .ok reg₁)
    (hDelete : reg₁.delete rec.tier rec.providerKey = .ok reg₂) (hId : rec'.physicalId = pid)
    (hAt : rec'.tier = target) (hKey : rec'.providerKey = rec.providerKey) :
    Preserves pid target data
        (.ok true, { m with providers := reg₂, physical := m.physical.put rec' }) ↔
      m.NoThirdCopy rec target := by
  obtain ⟨-, hPutOnline, hPutContent⟩ := ProviderRegistry.put_spec hPut
  obtain ⟨hDelOnline, hDelContent⟩ := ProviderRegistry.delete_spec hDelete
  have hGot : (m.physical.put rec').get pid = some rec' := by
    rw [PhysicalBlockTable.get_put, if_pos hId.symm]
  have hContent : ∀ t, reg₂.content t rec.providerKey =
      if t = target then some data
      else if t = rec.tier then none else m.providers.content t rec.providerKey := by
    intro t
    rw [hDelContent, hPutContent]
    by_cases hAtTarget : t = target
    · simp [hAtTarget, Ne.symm hTier]
    · simp [hAtTarget]
  have hReads : ({ m with providers := reg₂, physical := m.physical.put rec' } :
      KVBlockManager).Reads pid data := by
    refine ⟨rec', hGot, ProviderRegistry.get_eq_ok_iff.mpr ⟨?_, ?_⟩⟩
    · show reg₂.online rec'.tier = true
      rw [hAt, hDelOnline, hPutOnline, hTarget]
    · show reg₂.content rec'.tier rec'.providerKey = some data
      rw [hAt, hKey, hContent, if_pos rfl]
  constructor
  · rintro ⟨-, hMoved⟩ t hSource hNotTarget
    obtain ⟨rec'', hGot', -, hOnly⟩ := hMoved rfl
    have hSame : rec'' = rec' := Option.some.inj (hGot'.symm.trans hGot)
    have hNone := hOnly t
    rw [hSame, hKey, if_neg hNotTarget] at hNone
    have hKept := hContent t
    rw [if_neg hNotTarget, if_neg hSource] at hKept
    exact hKept.symm.trans hNone
  · intro hThird
    refine ⟨fun now => (readPayload_iff now).mpr hReads, fun _ => ⟨rec', hGot, hAt, fun t => ?_⟩⟩
    show reg₂.content t rec'.providerKey = _
    rw [hKey, hContent]
    by_cases hAtTarget : t = target
    · simp [hAtTarget]
    · by_cases hAtSource : t = rec.tier
      · simp [hAtSource]
      · simp [hAtTarget, hAtSource, hThird t hAtSource hAtTarget]

theorem not_reads_deleted {reg reg' : ProviderRegistry} (hRec : m.physical.get pid = some rec)
    (hDelete : reg.delete rec.tier rec.providerKey = .ok reg') :
    ¬ ({ m with providers := reg' } : KVBlockManager).Reads pid data := by
  rintro ⟨rec', hRec', hGet⟩
  have hSame : rec' = rec := Option.some.inj (hRec'.symm.trans hRec)
  have hContent := (ProviderRegistry.get_eq_ok_iff.mp hGet).2
  rw [hSame] at hContent
  change reg'.content rec.tier rec.providerKey = some data at hContent
  rw [(ProviderRegistry.delete_spec hDelete).2, if_pos ⟨rfl, rfl⟩] at hContent
  cases hContent

/-- The payload of a readable block survives a migration, and a migration that returns leaves
its only copy at the destination, exactly when the failing call is not a delete that was
carried out, and, where no call fails, no third tier has bytes under the key. -/
theorem preserves_iff (policy : TieringPolicy) (hRec : m.physical.get pid = some rec)
    (hGet : m.providers.get rec.tier rec.providerKey = .ok data) (target : StorageTier)
    (now : Time) (fault : Fault) :
    Preserves pid target data (m.migrateFaulty policy pid target now fault) ↔
      (m.Moves rec target → fault ≠ .delete true ∧
        (fault = .none → m.NoThirdCopy rec target)) := by
  have hStill : m.Reads pid data := ⟨rec, hRec, hGet⟩
  by_cases hMoves : m.Moves rec target
  · obtain ⟨reg₁, reg₂, rec', hPut, hDelete, hId, hAt, hKey, hResult⟩ :=
      migrateFaulty_of_moves policy hRec hGet hMoves now
    have hTier : rec.tier ≠ target := hMoves.1
    obtain ⟨-, hPutOnline, hPutContent⟩ := ProviderRegistry.put_spec hPut
    rw [hResult fault]
    simp only [hMoves, true_imp_iff]
    cases fault with
    | none =>
      have hMoved := preserves_moved_iff hTier hMoves.2.2.2 hPut hDelete hId hAt hKey
      simpa using hMoved
    | get => exact iff_of_true (preserves_of_failed hStill (by simp)) ⟨by simp, by simp⟩
    | put written =>
      exact iff_of_true (preserves_of_failed (reads_brokenPut hRec hGet hTier written) (by simp))
        ⟨by simp, by simp⟩
    | delete done =>
      by_cases hDone : done = true
      · subst hDone
        refine iff_of_false (fun hPreserves => ?_) (fun h => h.1 rfl)
        exact not_reads_deleted hRec hDelete ((readPayload_iff now).mp (hPreserves.read now))
      · refine iff_of_true (preserves_of_failed ?_ (by simp)) ⟨by simp [hDone], by simp⟩
        refine reads_of_untouched hRec hGet rfl ?_ ?_
        · simp [hDone, hPutOnline]
        · simp [hDone, hPutContent, hTier]
  · obtain ⟨hSame, hFailed⟩ := migrateFaulty_of_stays policy hRec hGet hMoves now fault
    refine iff_of_true (preserves_of_failed ?_ hFailed) fun h => absurd h hMoves
    rw [hSame]
    exact hStill

def oneBlock : KVBlockManager :=
  ((new .plain).allocate .spelled { sessionId := "a", payload := [1] } 0).2

/-- The first block of `oneBlock`, on its way to L2 when the delete in RAM raises. -/
def strayCopy : KVBlockManager :=
  (oneBlock.migrateFaulty {} ⟨.phys, 0⟩ .l2CompressedRam 1 (.delete false)).2

/-- The block moves on to L3, and its RAM copy is deleted; the one in L2 is not. -/
theorem preserves_iff_strayCopy :
    ∃ rec, strayCopy.physical.get ⟨.phys, 0⟩ = some rec ∧
      (Preserves ⟨.phys, 0⟩ .l3Nvme [1]
          (strayCopy.migrateFaulty {} ⟨.phys, 0⟩ .l3Nvme 2 .none) ↔
        (strayCopy.Moves rec .l3Nvme → Fault.none ≠ .delete true ∧
          (Fault.none = .none → strayCopy.NoThirdCopy rec .l3Nvme))) := by
  obtain ⟨rec, hRec⟩ := Option.isSome_iff_exists.mp
    (show (strayCopy.physical.get ⟨.phys, 0⟩).isSome = true by decide +kernel)
  have hGet : (strayCopy.physical.get ⟨.phys, 0⟩).map
      (fun r => (strayCopy.providers.get r.tier r.providerKey).toOption) =
        some (some [1]) := by decide +kernel
  rw [hRec] at hGet
  have hRead : strayCopy.providers.get rec.tier rec.providerKey = .ok [1] := by
    cases hOf : strayCopy.providers.get rec.tier rec.providerKey with
    | error e => simp [hOf, Except.toOption] at hGet
    | ok bytes => simpa [hOf, Except.toOption] using hGet
  exact ⟨rec, hRec, preserves_iff {} hRec hRead .l3Nvme 2 .none⟩

/-- A delete that raises leaves a copy behind that the next migration does not know of, and a
delete that raises after it was carried out loses the payload. -/
theorem strayCopy_not_preserved :
    ¬ Preserves ⟨.phys, 0⟩ .l3Nvme [1]
        (strayCopy.migrateFaulty {} ⟨.phys, 0⟩ .l3Nvme 2 .none) ∧
      ¬ Preserves ⟨.phys, 0⟩ .l2CompressedRam [1]
        (oneBlock.migrateFaulty {} ⟨.phys, 0⟩ .l2CompressedRam 1 (.delete true)) := by
  constructor
  · intro hPreserves
    have hTrue : (strayCopy.migrateFaulty {} ⟨.phys, 0⟩ .l3Nvme 2 .none).1.toOption =
        some true := by decide +kernel
    have hStray : ((strayCopy.migrateFaulty {} ⟨.phys, 0⟩ .l3Nvme 2 .none).2.physical.get
        ⟨.phys, 0⟩).map (fun r => (strayCopy.migrateFaulty {} ⟨.phys, 0⟩ .l3Nvme 2
          .none).2.providers.content .l2CompressedRam r.providerKey) = some (some [1]) := by
      decide +kernel
    have hOk : (strayCopy.migrateFaulty {} ⟨.phys, 0⟩ .l3Nvme 2 .none).1 = .ok true := by
      cases hOf : (strayCopy.migrateFaulty {} ⟨.phys, 0⟩ .l3Nvme 2 .none).1 with
      | error e => simp [hOf, Except.toOption] at hTrue
      | ok b => simpa [hOf, Except.toOption] using hTrue
    obtain ⟨rec, hRec, -, hOnly⟩ := hPreserves.moved hOk
    have hNone := hOnly .l2CompressedRam
    rw [hRec] at hStray
    rw [if_neg (by decide)] at hNone
    simp [hNone] at hStray
  · intro hPreserves
    have hLost : ((oneBlock.migrateFaulty {} ⟨.phys, 0⟩ .l2CompressedRam 1
        (.delete true)).2.readPayload ⟨.phys, 0⟩ 2).1.toOption = none := by decide +kernel
    rw [hPreserves.read 2] at hLost
    cases hLost

end KVBlockManager

end Neuroswarm.Kv
