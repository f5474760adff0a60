import Neuroswarm.Kv.Contents
import Neuroswarm.Kv.Runtime

/-!
# KV memory runtime — rebuilding tables and rehydrating payloads

What `rebuild_tables` and the loop of `restore` do to the physical table and
the providers, when the records they are given carry the hash of `g` of their
id (`OwnRecord`).

* `mergeRecord_cases` — a record is acquired, redirected to a live block with
  its hash, or registered.
* `get_foldl_mergeRecord` — which ids are live after a rebuild.
* `le_refs_foldl_mergeRecord` — a rebuild acquires a live id once for each
  record.
* `rehydrate_spec` — rehydrating restores `Contents`.
-/

namespace Neuroswarm.Kv

open RecoveryEngine (mergeRecord)
open KVRuntimeManager (rehydrateBlock rehydrate)

variable {sha : Sha256} {g : StableId → Bytes} {next : Nat}

-- ------ One record

theorem mergeRecord_cases (t : PhysicalBlockTable) (r : PhysicalBlockRecord) :
    (∃ s, t.get r.physicalId = some s ∧
      mergeRecord t r = t.put { s with refcount := s.refcount + 1 }) ∨
    (t.get r.physicalId = none ∧ ∃ e, t.getByHash r.contentHash = some e ∧
      mergeRecord t r = t.put { e with refcount := e.refcount + 1 }) ∨
    (t.get r.physicalId = none ∧ t.getByHash r.contentHash = none ∧
      mergeRecord t r = t.insert r) := by
  unfold mergeRecord
  cases hr : t.get r.physicalId with
  | some s =>
    refine Or.inl ⟨s, rfl, ?_⟩
    dsimp only
    rw [PhysicalBlockTable.acquire_of_get hr]
    rfl
  | none =>
    cases hHash : t.getByHash r.contentHash with
    | some e =>
      refine Or.inr (Or.inl ⟨rfl, e, rfl, ?_⟩)
      dsimp only
      rw [PhysicalBlockTable.register, hHash]
      rfl
    | none =>
      refine Or.inr (Or.inr ⟨rfl, rfl, ?_⟩)
      dsimp only
      rw [PhysicalBlockTable.register_of_none hHash]

section

variable {t : PhysicalBlockTable} {r : PhysicalBlockRecord}

theorem OwnRecords.mergeRecord (h : OwnRecords sha g next t)
    (hr : OwnRecord sha g next r.physicalId r) :
    OwnRecords sha g next (RecoveryEngine.mergeRecord t r) := by
  rcases mergeRecord_cases t r with ⟨s, hs, hEq⟩ | ⟨-, e, he, hEq⟩ | ⟨hNone, hMiss, hEq⟩
  · rw [hEq]
    exact h.put hs rfl rfl rfl (Nat.succ_pos _)
  · rw [hEq]
    exact h.put (h.agree.getByHash_eq_some_iff.mp he).1 rfl rfl rfl (Nat.succ_pos _)
  · rw [hEq]
    exact h.insert hNone hMiss hr

theorem get_mergeRecord (h : OwnRecords sha g next t) (hr : OwnRecord sha g next r.physicalId r)
    (p : StableId) :
    (mergeRecord t r).get p ≠ none ↔
      t.get p ≠ none ∨ (p = r.physicalId ∧ t.getByHash r.contentHash = none) := by
  rcases mergeRecord_cases t r with ⟨s, hs, hEq⟩ | ⟨hNone, e, he, hEq⟩ | ⟨hNone, hMiss, hEq⟩
  · have hSome : t.getByHash r.contentHash ≠ none := by
      rw [hr.hash]
      exact h.getByHash_ne_none (by rw [hs]; simp)
    rw [hEq, PhysicalBlockTable.get_put, PhysicalBlockTable.get_physicalId hs]
    split
    · next hp => simp [hp, hs]
    · simp [hSome]
  · have hLive := (h.agree.getByHash_eq_some_iff.mp he).1
    rw [hEq, PhysicalBlockTable.get_put]
    split
    · next hp => simp [show p = e.physicalId from hp, hLive]
    · simp [he]
  · rw [hEq, PhysicalBlockTable.get_insert]
    split
    · next hp => simp [hp, hMiss]
    · next hp => simp [hp]

theorem getByHash_mergeRecord (h : OwnRecords sha g next t)
    (hr : OwnRecord sha g next r.physicalId r) (hash : String) :
    (mergeRecord t r).getByHash hash = none ↔
      t.getByHash hash = none ∧ hash ≠ r.contentHash := by
  rcases mergeRecord_cases t r with ⟨s, hs, hEq⟩ | ⟨-, e, he, hEq⟩ | ⟨hNone, -, hEq⟩
  · -- a live id has its hash in the index already
    have hSome : t.getByHash r.contentHash ≠ none := by
      rw [hr.hash]
      exact h.getByHash_ne_none (by rw [hs]; simp)
    rw [hEq, PhysicalBlockTable.getByHash_put_eq_none
      (r := s) (by rw [PhysicalBlockTable.get_physicalId hs]; exact hs)]
    exact ⟨fun hMiss => ⟨hMiss, fun hHash => hSome (hHash ▸ hMiss)⟩, fun hBoth => hBoth.1⟩
  · obtain ⟨-, hLive⟩ := PhysicalBlockTable.getByHash_eq_some.mp he
    have hSame : (t.put { e with refcount := e.refcount + 1 }).getByHash hash = none ↔
        t.getByHash hash = none := PhysicalBlockTable.getByHash_put_eq_none (by exact hLive) hash
    rw [hEq, hSame]
    refine ⟨fun hMiss => ⟨hMiss, fun hHash => ?_⟩, fun hBoth => hBoth.1⟩
    rw [← hHash, hMiss] at he
    exact absurd he (by simp)
  · rw [hEq]
    exact h.agree.getByHash_insert_eq_none hNone hash

theorem tier_mergeRecord {p : StableId} {s : PhysicalBlockRecord}
    (hs : (mergeRecord t r).get p = some s) :
    p = r.physicalId ∨ ∃ s₀, t.get p = some s₀ ∧ s.tier = s₀.tier := by
  rcases mergeRecord_cases t r with ⟨e, he, hEq⟩ | ⟨-, e, he, hEq⟩ | ⟨-, -, hEq⟩
  · rw [hEq, PhysicalBlockTable.get_put, PhysicalBlockTable.get_physicalId he] at hs
    split at hs
    · next hp => exact Or.inl hp
    · exact Or.inr ⟨s, hs, rfl⟩
  · rw [hEq, PhysicalBlockTable.get_put] at hs
    split at hs
    · next hp =>
      obtain ⟨-, hLive⟩ := PhysicalBlockTable.getByHash_eq_some.mp he
      exact Or.inr ⟨e, hp ▸ hLive, by rw [← Option.some.inj hs]⟩
    · exact Or.inr ⟨s, hs, rfl⟩
  · rw [hEq, PhysicalBlockTable.get_insert] at hs
    split at hs
    · next hp => exact Or.inl hp
    · exact Or.inr ⟨s, hs, rfl⟩

theorem le_refs_mergeRecord {p : StableId} (hp : t.get p ≠ none) :
    t.refs p + (if p = r.physicalId then 1 else 0) ≤ (mergeRecord t r).refs p := by
  rcases mergeRecord_cases t r with ⟨e, he, hEq⟩ | ⟨hNone, e, he, hEq⟩ | ⟨hNone, -, hEq⟩
  · rw [hEq, PhysicalBlockTable.refs_put, PhysicalBlockTable.get_physicalId he]
    split
    · next hEqP => rw [hEqP, PhysicalBlockTable.refs_of_get he]
    · exact Nat.le_refl _
  · have hne : p ≠ r.physicalId := fun hEqP => hp (hEqP ▸ hNone)
    obtain ⟨-, hLive⟩ := PhysicalBlockTable.getByHash_eq_some.mp he
    rw [hEq, PhysicalBlockTable.refs_put, if_neg hne]
    split
    · next hEqP =>
      rw [show p = e.physicalId from hEqP, PhysicalBlockTable.refs_of_get hLive]
      exact Nat.le_succ _
    · exact Nat.le_refl _
  · have hne : p ≠ r.physicalId := fun hEqP => hp (hEqP ▸ hNone)
    rw [hEq, PhysicalBlockTable.refs_insert, if_neg hne, if_neg hne]
    exact Nat.le_refl _

end

-- ------ All records of a checkpoint

section

variable {t : PhysicalBlockTable} {rs : List PhysicalBlockRecord}

def recordIds (rs : List PhysicalBlockRecord) : List StableId :=
  rs.map PhysicalBlockRecord.physicalId

theorem OwnRecords.foldl_mergeRecord (h : OwnRecords sha g next t)
    (hrs : ∀ r ∈ rs, OwnRecord sha g next r.physicalId r) :
    OwnRecords sha g next (rs.foldl RecoveryEngine.mergeRecord t) := by
  induction rs generalizing t with
  | nil => exact h
  | cons r rest ih =>
    exact ih (h.mergeRecord (hrs r List.mem_cons_self))
      fun s hs => hrs s (List.mem_cons_of_mem _ hs)

theorem getByHash_foldl_mergeRecord (h : OwnRecords sha g next t)
    (hrs : ∀ r ∈ rs, OwnRecord sha g next r.physicalId r) (hash : String) :
    (rs.foldl mergeRecord t).getByHash hash = none ↔
      t.getByHash hash = none ∧ ∀ r ∈ rs, hash ≠ r.contentHash := by
  induction rs generalizing t with
  | nil => simp
  | cons r rest ih =>
    rw [List.foldl_cons, ih (h.mergeRecord (hrs r List.mem_cons_self))
      fun s hs => hrs s (List.mem_cons_of_mem _ hs),
      getByHash_mergeRecord h (hrs r List.mem_cons_self), List.forall_mem_cons, and_assoc]

/-- **Which ids are live after a rebuild.** Those that were, and those of the
records whose hash no live block had. Records with one hash have one id. -/
theorem get_foldl_mergeRecord (h : OwnRecords sha g next t)
    (hrs : ∀ r ∈ rs, OwnRecord sha g next r.physicalId r)
    (hUnique : ∀ r ∈ rs, ∀ s ∈ rs, r.contentHash = s.contentHash → r.physicalId = s.physicalId)
    (p : StableId) :
    (rs.foldl mergeRecord t).get p ≠ none ↔
      t.get p ≠ none ∨ (p ∈ recordIds rs ∧ t.getByHash (contentHash sha (g p)) = none) := by
  induction rs generalizing t with
  | nil => simp [recordIds]
  | cons r rest ih =>
    have hr := hrs r List.mem_cons_self
    have hRest : ∀ s ∈ rest, OwnRecord sha g next s.physicalId s :=
      fun s hs => hrs s (List.mem_cons_of_mem _ hs)
    rw [List.foldl_cons, ih (h.mergeRecord hr) hRest
      (fun s hs s' hs' => hUnique s (List.mem_cons_of_mem _ hs) s' (List.mem_cons_of_mem _ hs')),
      get_mergeRecord h hr, getByHash_mergeRecord h hr]
    have hMem : p ∈ recordIds (r :: rest) ↔ p = r.physicalId ∨ p ∈ recordIds rest :=
      List.mem_cons
    rw [hMem]
    constructor
    · rintro ((hLive | ⟨rfl, hMiss⟩) | ⟨hIn, hMiss, -⟩)
      · exact Or.inl hLive
      · exact Or.inr ⟨Or.inl rfl, hr.hash ▸ hMiss⟩
      · exact Or.inr ⟨Or.inr hIn, hMiss⟩
    · rintro (hLive | ⟨rfl | hIn, hMiss⟩)
      · exact Or.inl (Or.inl hLive)
      · exact Or.inl (Or.inr ⟨rfl, hr.hash ▸ hMiss⟩)
      · by_cases hp : p = r.physicalId
        · exact Or.inl (Or.inr ⟨hp, by rw [hr.hash, ← hp]; exact hMiss⟩)
        · -- another id has another hash
          obtain ⟨s, hs, rfl⟩ := List.mem_map.mp hIn
          refine Or.inr ⟨hIn, hMiss, fun hHash => hp ?_⟩
          exact hUnique s (List.mem_cons_of_mem _ hs) r List.mem_cons_self
            ((hRest s hs).hash.trans hHash)

theorem tier_foldl_mergeRecord {p : StableId} {s : PhysicalBlockRecord}
    (hs : (rs.foldl mergeRecord t).get p = some s) :
    p ∈ recordIds rs ∨ ∃ s₀, t.get p = some s₀ ∧ s.tier = s₀.tier := by
  induction rs generalizing t with
  | nil => exact Or.inr ⟨s, hs, rfl⟩
  | cons r rest ih =>
    rcases ih hs with hIn | ⟨s₀, hs₀, hTier⟩
    · exact Or.inl (List.mem_cons_of_mem _ hIn)
    · rcases tier_mergeRecord hs₀ with rfl | ⟨s₁, hs₁, hTier₁⟩
      · exact Or.inl List.mem_cons_self
      · exact Or.inr ⟨s₁, hs₁, hTier.trans hTier₁⟩

/-- **A rebuild acquires a live id at least once for each of its records.** -/
theorem le_refs_foldl_mergeRecord (h : OwnRecords sha g next t)
    (hrs : ∀ r ∈ rs, OwnRecord sha g next r.physicalId r) {p : StableId} (hp : t.get p ≠ none) :
    t.refs p + (recordIds rs).count p ≤ (rs.foldl mergeRecord t).refs p := by
  induction rs generalizing t with
  | nil => simp [recordIds]
  | cons r rest ih =>
    have hr := hrs r List.mem_cons_self
    have hStep := le_refs_mergeRecord (r := r) hp
    have hRest := ih (h.mergeRecord hr) (fun s hs => hrs s (List.mem_cons_of_mem _ hs))
      ((get_mergeRecord h hr p).mpr (Or.inl hp))
    have hCount : (recordIds (r :: rest)).count p =
        (recordIds rest).count p + if p = r.physicalId then 1 else 0 := by
      simp only [recordIds, List.map_cons, List.count_cons, beq_iff_eq, @eq_comm _ p]
    rw [List.foldl_cons]
    omega

end

-- ------ Rehydrating payloads

/-- `Contents`, except that the bytes of the ids in `rest` may still be missing. -/
structure Rehydrating (sha : Sha256) (g : StableId → Bytes) (rest : List StableId)
    (m : KVBlockManager) : Prop where
  l1 : m.providers.online .l1Ram = true
  registered : ∀ tier, m.providers.online tier = true → tier ∈ KVBlockManager.releaseTiers
  contentLt : ∀ tier k, m.nextUuid ≤ k.uuid → m.providers.content tier k = none
  table : OwnRecords sha g m.nextUuid m.physical
  bytes : ∀ p r, m.physical.get p = some r → p ∉ rest →
    m.providers.online r.tier = true ∧ m.providers.content r.tier p = some (g p)

theorem Rehydrating.contents {m : KVBlockManager} (h : Rehydrating sha g [] m) :
    Contents sha g m where
  l1 := h.l1
  registered := h.registered
  contentLt := h.contentLt
  table := h.table
  bytes p r hp := h.bytes p r hp List.not_mem_nil

/-- Rehydrating touches neither sessions nor counts. -/
structure SameCounts (m m' : KVBlockManager) : Prop where
  nextUuid : m'.nextUuid = m.nextUuid
  sessions : m'.sessions = m.sessions
  logicalTables : m'.logicalTables = m.logicalTables
  get : ∀ p, m'.physical.get p ≠ none ↔ m.physical.get p ≠ none
  refs : ∀ p, m'.physical.refs p = m.physical.refs p

theorem SameCounts.refl (m : KVBlockManager) : SameCounts m m :=
  ⟨rfl, rfl, rfl, fun _ => Iff.rfl, fun _ => rfl⟩

theorem SameCounts.trans {m m₁ m' : KVBlockManager} (h : SameCounts m m₁)
    (h' : SameCounts m₁ m') : SameCounts m m' where
  nextUuid := h'.nextUuid.trans h.nextUuid
  sessions := h'.sessions.trans h.sessions
  logicalTables := h'.logicalTables.trans h.logicalTables
  get p := (h'.get p).trans (h.get p)
  refs p := (h'.refs p).trans (h.refs p)

theorem rehydrateBlock_spec {m : KVBlockManager} {p : StableId} {rest : List StableId}
    (h : Rehydrating sha g (p :: rest) m) (hLt : p.uuid < m.nextUuid) :
    ∃ m', rehydrateBlock m p (g p) = (.ok (), m') ∧ Rehydrating sha g rest m' ∧
      SameCounts m m' := by
  obtain ⟨providers, hPut⟩ := ProviderRegistry.put_ok h.l1 p (g p)
  obtain ⟨-, hOn, -⟩ := ProviderRegistry.put_spec hPut
  have hOther : ∀ tier k, k ≠ p → providers.content tier k = m.providers.content tier k :=
    fun tier _ hk => ProviderRegistry.put_content_ne hPut hk tier
  have hFresh : ∀ tier k, m.nextUuid ≤ k.uuid → providers.content tier k = none := by
    intro tier k hk
    have hne : k ≠ p := by
      rintro rfl
      omega
    rw [hOther tier k hne]
    exact h.contentLt tier k hk
  -- the bytes of every other id that was done stay where they are
  have hRest : ∀ q r, m.physical.get q = some r → q ≠ p → q ∉ rest →
      providers.online r.tier = true ∧ providers.content r.tier q = some (g q) := by
    intro q r hq hne hNot
    rw [hOn, hOther _ _ hne]
    exact h.bytes q r hq (List.not_mem_cons_of_ne_of_not_mem hne hNot)
  unfold rehydrateBlock
  cases hp : m.physical.get p with
  | none =>
    dsimp only
    rw [hPut]
    refine ⟨_, rfl, ⟨by rw [hOn]; exact h.l1, fun tier => by rw [hOn]; exact h.registered tier,
      hFresh, h.table, fun q r hq => ?_⟩, ⟨rfl, rfl, rfl, fun _ => Iff.rfl, fun _ => rfl⟩⟩
    refine hRest q r hq ?_
    rintro rfl
    have hSome : m.physical.get q = some r := hq
    rw [hp] at hSome
    exact absurd hSome (by simp)
  | some r =>
    have hKey := (h.table.record p r hp).key
    have hId := PhysicalBlockTable.get_physicalId hp
    have hTier : m.physical.updateTier p .l1Ram p =
        some (m.physical.put { r with tier := .l1Ram, providerKey := p }) := by
      rw [PhysicalBlockTable.updateTier, hp]
      rfl
    dsimp only
    rw [hKey, hPut, hTier]
    refine ⟨_, rfl, ⟨by rw [hOn]; exact h.l1, fun tier => by rw [hOn]; exact h.registered tier,
      hFresh, ?_, fun q s hq hNot => ?_⟩, ⟨rfl, rfl, rfl, fun q => ?_, fun q => ?_⟩⟩
    · exact h.table.put hp rfl hKey.symm rfl (h.table.record p r hp).refPos
    · have hq' : (m.physical.put { r with tier := .l1Ram, providerKey := p }).get q = some s := hq
      rw [PhysicalBlockTable.get_put] at hq'
      split at hq'
      · next hEq =>
        rw [← Option.some.inj hq', show q = p from hEq.trans hId]
        exact ⟨by rw [hOn]; exact h.l1, ProviderRegistry.put_content_self hPut⟩
      · next hne => exact hRest q s hq' (fun hEq => hne (hEq.trans hId.symm)) hNot
    · show (m.physical.put _).get q ≠ none ↔ _
      rw [PhysicalBlockTable.get_put]
      split
      · next hEq => simp [show q = p from hEq.trans hId, hp]
      · exact Iff.rfl
    · show (m.physical.put _).refs q = _
      rw [PhysicalBlockTable.refs_put]
      split
      · next hEq => rw [show q = p from hEq.trans hId, PhysicalBlockTable.refs_of_get hp]
      · rfl

/-- **Rehydrating** the payloads of a checkpoint gives every live block its bytes
again. -/
theorem rehydrate_spec {m : KVBlockManager} (l : List (StableId × Bytes))
    (hl : ∀ e ∈ l, e.2 = g e.1 ∧ e.1.uuid < m.nextUuid)
    (h : Rehydrating sha g (l.map Prod.fst) m) :
    ∃ m', rehydrate l m = (.ok (), m') ∧ Contents sha g m' ∧ SameCounts m m' := by
  induction l generalizing m with
  | nil => exact ⟨m, rfl, h.contents, .refl m⟩
  | cons e rest ih =>
    obtain ⟨p, data⟩ := e
    obtain ⟨hData, hLt⟩ := hl _ List.mem_cons_self
    obtain ⟨m₁, hEq, hRest, hSame⟩ := rehydrateBlock_spec h hLt
    obtain ⟨m', hEq', hCont, hSame'⟩ := ih
      (fun e he => by rw [hSame.nextUuid]; exact hl e (List.mem_cons_of_mem _ he)) hRest
    refine ⟨m', ?_, hCont, hSame.trans hSame'⟩
    obtain rfl : data = g p := hData
    rw [rehydrate, hEq]
    exact hEq'

end Neuroswarm.Kv
