import Neuroswarm.Kv.Interleaving
import Neuroswarm.Kv.Reclaim

/-!
# KV memory runtime — calm interleavings

The copy of a migration is taken at one await and becomes the block at a later
one, so a write that lands in between is undone, a read finds nothing once the
source is deleted, and a release may look for the bytes where they no longer
are, or not yet. `Calm` keeps each of these steps apart.

* `Consistent` — the invariant of a calm run. While the block is registered
  every tier the migration will read from or leave the record at holds its
  bytes (`Live`); after its release only a call still at work on it finds any
  (`Dead`).
* `migrate_consistent` — a calm action of the migration keeps it: one lemma for
  each await. Those of the foreground are in `Kv/NoLostUpdate.lean`.
-/

namespace Neuroswarm.Kv

open Run (Along Every exec)
open KVBlockManager (releaseTiers finishMigration)

-- ------ Where both sides stand

namespace MigratorPc

def rec? : MigratorPc → Option PhysicalBlockRecord
  | .started rec | .fetched rec _ | .copied rec _ | .moved rec => some rec
  | .idle | .done => none

def data? : MigratorPc → Option Bytes
  | .fetched _ data | .copied _ data => some data
  | _ => none

/-- The tiers that hold the bytes of a block whose record says `tier`. -/
def copies (target tier : StorageTier) : MigratorPc → List StorageTier
  | .idle | .done => [tier]
  | .started rec | .fetched rec _ => [tier, rec.tier]
  | .copied rec _ => [tier, rec.tier, target]
  -- the record still says the source tier, which is deleted, unless a clone moved it
  | .moved rec => if tier = rec.tier then [target] else [tier, target]

/-- A write of `payload` to `tier` reaches the bytes the migration leaves. -/
def Takes (tier : StorageTier) (payload : Bytes) : MigratorPc → Prop
  | .idle | .done => True
  | .started rec => rec.tier = tier
  | .fetched _ data | .copied _ data => data = payload
  | .moved _ => False

instance (tier : StorageTier) (payload : Bytes) : DecidablePred (Takes tier payload)
  | .idle | .done => inferInstanceAs (Decidable True)
  | .started rec => inferInstanceAs (Decidable (rec.tier = tier))
  | .fetched _ data | .copied _ data => inferInstanceAs (Decidable (data = payload))
  | .moved _ => inferInstanceAs (Decidable False)

/-- Source and target both have the bytes. -/
def Copied : MigratorPc → Prop
  | .copied _ _ => True
  | _ => False

instance : DecidablePred Copied
  | .copied _ _ => inferInstanceAs (Decidable True)
  | .idle | .started _ | .fetched _ _ | .moved _ | .done => inferInstanceAs (Decidable False)

variable {tier : StorageTier} {pc : MigratorPc}

theorem mem_copies {target tier' t : StorageTier} (h : t ∈ pc.copies target tier') :
    t = tier' ∨ t ∈ pc.copies target tier := by
  cases pc with
  | moved rec =>
    simp only [copies] at h ⊢
    split at h <;> split <;> simp only [List.mem_cons] at h ⊢ <;> tauto
  | _ =>
    simp only [copies, List.mem_cons] at h ⊢
    tauto

theorem Takes.data {payload data : Bytes} (h : pc.Takes tier payload) (hData : pc.data? = some data)
    : data = payload := by
  cases pc <;> simp_all [Takes, data?]

theorem Takes.copies {target t : StorageTier} {payload : Bytes} (h : pc.Takes tier payload)
    (ht : t ∈ pc.copies target tier) :
    t = tier ∨ pc.data? = some payload := by
  cases pc <;> simp_all [Takes, MigratorPc.copies, data?]

theorem copies_unique {target t t' : StorageTier} (hOne : ¬ pc.Copied)
    (hSource : ∀ rec, pc.rec? = some rec → tier = rec.tier) (ht : t ∈ pc.copies target tier)
    (ht' : t' ∈ pc.copies target tier) : t = t' := by
  cases pc with
  | copied rec data => exact absurd trivial hOne
  | idle | done => simp_all [MigratorPc.copies]
  | started rec | fetched rec data | moved rec =>
    have hTier := hSource rec rfl
    simp_all [MigratorPc.copies]

theorem self_mem_copies {target : StorageTier} (h : ∀ rec, pc = .moved rec → tier ≠ rec.tier) :
    tier ∈ pc.copies target tier := by
  cases pc with
  | moved rec => simp [copies, h rec rfl]
  | _ => simp [copies]

end MigratorPc

namespace CallerPc

/-- The blocks a release has still to drop. -/
def todo : CallerPc → List StableId
  | .releasing todo | .probing _ _ todo | .removing _ _ _ todo => todo
  | _ => []

/-- The block whose bytes a release is deleting. -/
def probed : CallerPc → Option StableId
  | .probing pid _ _ | .removing pid _ _ _ => some pid
  | _ => none

/-- A release is about to find bytes of `pid` at `tier`, or has found some. -/
def Finds (pid : StableId) (tier : StorageTier) : CallerPc → Prop
  | .probing pid' tiers _ => pid' = pid ∧ tier ∈ tiers
  | .removing pid' _ _ _ => pid' = pid
  | _ => False

end CallerPc

-- ------ Calm actions

/-- A write of `payload` to the shared block `p` finds `p` itself as its clone. -/
def ClonesIntoItself (sha : Sha256) (m : KVBlockManager) (p : StableId) (payload : Bytes) :
    Prop :=
  m.needsCow p = true ∧
    (m.physical.getByHash (contentHash sha payload)).map PhysicalBlockRecord.physicalId = some p

instance (sha : Sha256) (m : KVBlockManager) (p : StableId) (payload : Bytes) :
    Decidable (ClonesIntoItself sha m p payload) :=
  inferInstanceAs (Decidable (_ ∧ _))

/-- A read is not taken between the deletion of the source and the update of the record. -/
def CalmRead (p : StableId) (m : KVBlockManager) : MigratorPc → Prop
  | .moved rec => ∀ r ∈ m.physical.get p, r.tier ≠ rec.tier
  | _ => True

/-- The copy is written while the block is registered. -/
def CalmCopy (p : StableId) (m : KVBlockManager) : MigratorPc → Prop
  | .fetched _ _ => m.physical.get p ≠ none
  | _ => True

/-- The bytes of a write go to the tier of the record and the migration takes
them; a release deletes what it found, while there is one copy. -/
def CalmResume (p : StableId) (m : KVBlockManager) (migrator : MigratorPc) : CallerPc → Prop
  | .writing tier _ payload =>
    ∀ r ∈ m.physical.get p, r.tier = tier ∧ migrator.Takes tier payload
  | .removing pid tier _ _ => pid = p → ¬ migrator.Copied ∧ m.providers.content tier p ≠ none
  | _ => True

instance (p : StableId) (m : KVBlockManager) : DecidablePred (CalmRead p m)
  | .moved _ => inferInstanceAs (Decidable (∀ r ∈ m.physical.get p, _))
  | .idle | .started _ | .fetched _ _ | .copied _ _ | .done => inferInstanceAs (Decidable True)

instance (p : StableId) (m : KVBlockManager) : DecidablePred (CalmCopy p m)
  | .fetched _ _ => inferInstanceAs (Decidable (m.physical.get p ≠ none))
  | .idle | .started _ | .copied _ _ | .moved _ | .done => inferInstanceAs (Decidable True)

instance (p : StableId) (m : KVBlockManager) (migrator : MigratorPc) :
    DecidablePred (CalmResume p m migrator)
  | .writing _ _ _ => inferInstanceAs (Decidable (∀ r ∈ m.physical.get p, _))
  | .removing _ _ _ _ => inferInstanceAs (Decidable (_ → _))
  | .idle | .written _ | .releasing _ | .probing _ _ _ => inferInstanceAs (Decidable True)

namespace Concurrent

/-- No side steps on the other. -/
def Calm (sha : Sha256) (p : StableId) (c : Concurrent) : Action → Prop
  | .readPayload _ => c.caller = .idle → CalmRead p c.m c.migrator
  -- a block that is its own clone is overwritten by the write
  | .writeCow payload => c.caller = .idle → ClonesIntoItself sha c.m p payload →
      payload = c.lastWrite ∨ c.migrator.Takes .l1Ram payload
  | .releaseSession _ => True
  | .resume => CalmResume p c.m c.migrator c.caller
  | .migrate _ => CalmCopy p c.m c.migrator

instance (sha : Sha256) (p : StableId) (c : Concurrent) : DecidablePred (Calm sha p c)
  | .readPayload _ | .writeCow _ => inferInstanceAs (Decidable (_ → _))
  | .releaseSession _ => inferInstanceAs (Decidable True)
  | .resume => inferInstanceAs (Decidable (CalmResume p c.m c.migrator c.caller))
  | .migrate _ => inferInstanceAs (Decidable (CalmCopy p c.m c.migrator))

-- ------ The invariant

/-- The bytes the block is due to hold: those of a write that has put them, or
of the last one that is over. -/
def current (c : Concurrent) : Bytes :=
  match c.caller with
  | .written payload => payload
  | _ => c.lastWrite

/-- The references to `q` that a session holds or a release has still to drop. -/
def refsHeld (c : Concurrent) (q : StableId) : Nat := c.m.liveRefs q + c.caller.todo.count q

/-- What of `Inv` no interleaving breaks. -/
structure Tables (c : Concurrent) : Prop where
  l1 : c.m.providers.online .l1Ram = true
  registered : ∀ tier, c.m.providers.online tier = true → tier ∈ releaseTiers
  keyed : Keyed c.m.physical c.m.nextUuid
  covered : ∀ q, c.refsHeld q ≤ c.m.physical.refs q

/-- No bytes under `p` outside the copies of a block whose record says `tier`. -/
structure Sole (target : StorageTier) (p : StableId) (c : Concurrent) (tier : StorageTier) :
    Prop where
  source : ∀ rec, c.migrator.rec? = some rec → tier = rec.tier
  elsewhere : ∀ t, t ∉ c.migrator.copies target tier → c.m.providers.content t p = none

/-- The block is registered, with the bytes it is due in all of its copies. -/
structure Live (p key : StableId) (target : StorageTier) (c : Concurrent)
    (r : PhysicalBlockRecord) : Prop where
  get : c.m.physical.get p = some r
  providerKey : r.providerKey = key
  writing : ∀ tier k payload, c.caller = .writing tier k payload → k = key
  probed : ∀ pid, c.caller.probed = some pid → pid ≠ key
  held : ∀ t ∈ c.migrator.copies target r.tier,
    c.m.providers.online t = true ∧ c.m.providers.content t key = some c.current
  data : ∀ data, c.migrator.data? = some data → data = c.current
  /-- A block that a release could unregister has no other copies. -/
  sole : key = p ∧ Sole target p c r.tier ∨ c.refsHeld p < r.refcount

/-- The block is gone, and what bytes are left a release is about to find. -/
structure Dead (p : StableId) (target : StorageTier) (c : Concurrent) : Prop where
  get : c.m.physical.get p = none
  writing : ∀ tier k payload, c.caller ≠ .writing tier k payload
  written : ∀ payload, c.caller ≠ .written payload
  sole : ∃ tier, Sole target p c tier
  left : ∀ t, c.m.providers.content t p ≠ none →
    c.m.providers.online t = true ∧ c.caller.Finds p t

/-- The invariant of a calm run. -/
structure Consistent (p key : StableId) (target : StorageTier) (c : Concurrent) : Prop where
  tables : Tables c
  source : ∀ rec, c.migrator.rec? = some rec → rec.physicalId = p ∧ rec.providerKey = key ∧
    rec.tier ≠ target ∧ c.m.providers.online rec.tier = true
  reads : ∀ entry ∈ c.reads, entry.1 = .ok entry.2
  block : (∃ r, Live p key target c r) ∨ key = p ∧ Dead p target c

variable {sha : Sha256} {policy : TieringPolicy} {p key : StableId} {target : StorageTier}
  {c c' : Concurrent} {r r' : PhysicalBlockRecord}

theorem current_eq (h : ∀ payload, c.caller ≠ .written payload) : c.current = c.lastWrite := by
  unfold current
  split
  · next payload hPc => exact absurd hPc (h payload)
  · rfl

theorem Consistent.noLostUpdate (h : Consistent p key target c) : NoLostUpdate p key c := by
  refine ⟨h.reads, fun hIdle hGone tier => ?_⟩
  rcases h.block with ⟨r, hLive⟩ | ⟨rfl, hDead⟩
  · exact absurd (hGone.symm.trans hLive.get) (by simp)
  · by_contra hSome
    have hFinds := (hDead.left tier hSome).2
    rw [hIdle] at hFinds
    exact hFinds

/-! ### Steps that leave the bytes of the block alone -/

/-- `c'` has the migration and the bytes under `k` of `c`. -/
structure SameBytes (k : StableId) (c c' : Concurrent) : Prop where
  migrator : c'.migrator = c.migrator
  online : ∀ t, c'.m.providers.online t = c.m.providers.online t
  content : ∀ t, c'.m.providers.content t k = c.m.providers.content t k

theorem SameBytes.of_providers {k : StableId} (hMig : c'.migrator = c.migrator)
    (h : c'.m.providers = c.m.providers) : SameBytes k c c' :=
  ⟨hMig, fun _ => by rw [h], fun _ => by rw [h]⟩

theorem Sole.same {tier : StorageTier} (h : Sole target p c tier) (hSame : SameBytes p c c') :
    Sole target p c' tier where
  source := by rw [hSame.migrator]; exact h.source
  elsewhere t := by rw [hSame.migrator, hSame.content]; exact h.elsewhere t

theorem Live.same (h : Live p key target c r) (hSame : SameBytes key c c')
    (hGet : c'.m.physical.get p = some r') (hKey : r'.providerKey = r.providerKey)
    (hTier : r'.tier = r.tier) (hCurrent : c'.current = c.current)
    (hWriting : ∀ tier k payload, c'.caller = .writing tier k payload → k = key)
    (hProbed : ∀ pid, c'.caller.probed = some pid → pid ≠ key)
    (hRefs : c'.refsHeld p + r.refcount ≤ c.refsHeld p + r'.refcount) :
    Live p key target c' r' where
  get := hGet
  providerKey := hKey.trans h.providerKey
  writing := hWriting
  probed := hProbed
  held t := by
    rw [hSame.migrator, hTier, hSame.online, hSame.content, hCurrent]
    exact h.held t
  data := by
    rw [hSame.migrator, hCurrent]
    exact h.data
  sole := by
    rcases h.sole with ⟨hOwn, hSole⟩ | hLt
    · rw [hTier]
      exact Or.inl ⟨hOwn, hSole.same (hOwn ▸ hSame)⟩
    · right
      omega

theorem Dead.same (h : Dead p target c) (hSame : SameBytes p c c')
    (hGet : c'.m.physical.get p = none)
    (hWriting : ∀ tier k payload, c'.caller ≠ .writing tier k payload)
    (hWritten : ∀ payload, c'.caller ≠ .written payload)
    (hFinds : ∀ t, c.m.providers.content t p ≠ none → c.caller.Finds p t →
      c'.caller.Finds p t) : Dead p target c' where
  get := hGet
  writing := hWriting
  written := hWritten
  sole := h.sole.imp fun _ hSole => hSole.same hSame
  left t hSome := by
    rw [hSame.content] at hSome
    rw [hSame.online]
    exact ⟨(h.left t hSome).1, hFinds t hSome (h.left t hSome).2⟩

theorem Tables.of_same (h : Tables c)
    (hOn : ∀ t, c'.m.providers.online t = c.m.providers.online t)
    (hKeyed : Keyed c'.m.physical c'.m.nextUuid)
    (hCovered : ∀ q, c'.refsHeld q ≤ c'.m.physical.refs q) : Tables c' where
  l1 := by rw [hOn]; exact h.l1
  registered t := by rw [hOn]; exact h.registered t
  keyed := hKeyed
  covered := hCovered

theorem Tables.rewrite (h : Tables c) {q : StableId} (hq : c.m.physical.get q = some r)
    (hPhys : c'.m.physical = c.m.physical.put r') (hId : r'.physicalId = r.physicalId)
    (hKey : r'.providerKey = r.providerKey) (hRef : r'.refcount = r.refcount)
    (hOn : ∀ t, c'.m.providers.online t = c.m.providers.online t)
    (hSessions : c'.m.sessions = c.m.sessions) (hTodo : c'.caller.todo = c.caller.todo)
    (hNext : c'.m.nextUuid = c.m.nextUuid) : Tables c' := by
  refine h.of_same hOn ?_ fun q' => ?_
  · rw [hPhys, hNext]
    exact h.keyed.put hq hId hKey (by rw [hRef]; exact h.keyed.refPos q r hq)
  · have hHeld : c'.refsHeld q' = c.refsHeld q' := by
      unfold refsHeld
      rw [liveRefs_congr hSessions, hTodo]
    rw [hHeld, hPhys, PhysicalBlockTable.refs_put_of_refcount hq hId hRef]
    exact h.covered q'

/-! ### The migration moves -/

theorem Live.migrate (h : Live p key target c r) {providers : ProviderRegistry} {pc : MigratorPc}
    (hHeld : ∀ t ∈ pc.copies target r.tier,
      providers.online t = true ∧ providers.content t key = some c.current)
    (hData : ∀ data, pc.data? = some data → data = c.current)
    (hSole : key = p → Sole target p c r.tier →
      Sole target p { c with m := { c.m with providers }, migrator := pc } r.tier) :
    Live p key target { c with m := { c.m with providers }, migrator := pc } r where
  get := h.get
  providerKey := h.providerKey
  writing := h.writing
  probed := h.probed
  held := hHeld
  data := hData
  sole := h.sole.imp_left fun ⟨hOwn, hOld⟩ => ⟨hOwn, hSole hOwn hOld⟩

theorem Dead.migrate (h : Dead p target c) {providers : ProviderRegistry} {pc : MigratorPc}
    (hOn : ∀ t, providers.online t = c.m.providers.online t)
    (hContent : ∀ t, providers.content t p ≠ none → c.m.providers.content t p ≠ none)
    (hSole : ∀ tier, Sole target p c tier →
      ∃ tier, Sole target p { c with m := { c.m with providers }, migrator := pc } tier) :
    Dead p target { c with m := { c.m with providers }, migrator := pc } where
  get := h.get
  writing := h.writing
  written := h.written
  sole := h.sole.elim hSole
  left t hSome := by
    rw [hOn]
    exact h.left t (hContent t hSome)

theorem beginMigration_cases (m : KVBlockManager) (p : StableId) (target : StorageTier) :
    beginMigration m p target = .done ∨
    ∃ rec, m.physical.get p = some rec ∧ rec.tier ≠ target ∧
      beginMigration m p target = .started rec := by
  unfold beginMigration
  cases hp : m.physical.get p with
  | none => exact Or.inl rfl
  | some rec =>
    dsimp only
    split
    · exact Or.inl rfl
    · next hTier =>
      split
      · exact Or.inl rfl
      · split
        · exact Or.inl rfl
        · exact Or.inr ⟨rec, rfl, hTier, rfl⟩

theorem Consistent.give_up (h : Consistent p key target c)
    (hPc : c.migrator = .idle ∨ (∃ rec, c.migrator = .started rec) ∨
      ∃ rec data, c.migrator = .fetched rec data) :
    Consistent p key target { c with migrator := .done } := by
  have hSelf : ∀ tier, tier ∈ c.migrator.copies target tier := by
    intro tier
    rcases hPc with hPc | ⟨rec, hPc⟩ | ⟨rec, data, hPc⟩ <;> simp [hPc, MigratorPc.copies]
  have hSole : ∀ tier, Sole target p c tier →
      Sole target p { c with migrator := .done } tier := by
    refine fun tier hSole => ⟨fun rec hRec => by simp [MigratorPc.rec?] at hRec, fun t ht => ?_⟩
    have hNe : t ≠ tier := by simpa [MigratorPc.copies] using ht
    refine hSole.elsewhere t fun hIn => hNe ?_
    rcases hPc with hPc | ⟨rec, hPc⟩ | ⟨rec, data, hPc⟩
    · simpa [hPc, MigratorPc.copies] using hIn
    all_goals
      have hSource := hSole.source rec (by rw [hPc]; rfl)
      simpa [hPc, MigratorPc.copies, ← hSource] using hIn
  refine ⟨⟨h.tables.l1, h.tables.registered, h.tables.keyed, h.tables.covered⟩,
    fun rec hRec => by simp [MigratorPc.rec?] at hRec, h.reads, ?_⟩
  rcases h.block with ⟨r, hLive⟩ | ⟨hOwn, hDead⟩
  · refine Or.inl ⟨r, hLive.migrate (fun t ht => ?_) (by simp [MigratorPc.data?])
      fun _ => hSole r.tier⟩
    obtain rfl : t = r.tier := by simpa [MigratorPc.copies] using ht
    exact hLive.held _ (hSelf _)
  · exact Or.inr ⟨hOwn, hDead.migrate (fun _ => rfl) (fun _ hSome => hSome)
      fun tier hOld => ⟨tier, hSole tier hOld⟩⟩

variable {rec : PhysicalBlockRecord}

theorem migrate_started (h : Consistent p key target c) (hPc : c.migrator = .started rec)
    (now : Time) :
    Consistent p key target (c.migrate policy p target now) := by
  obtain ⟨-, hKey, -, -⟩ := h.source rec (by rw [hPc]; rfl)
  unfold Concurrent.migrate
  rw [hPc]
  dsimp only
  cases hGet : c.m.providers.get rec.tier rec.providerKey with
  | error e => exact h.give_up (Or.inr (Or.inl ⟨rec, hPc⟩))
  | ok data =>
    have hSole : ∀ tier, Sole target p c tier →
        Sole target p { c with migrator := .fetched rec data } tier := by
      intro tier hOld
      refine ⟨fun rec' hRec => hOld.source rec' (by rw [hPc]; exact hRec), fun t ht => ?_⟩
      exact hOld.elsewhere t (by rw [hPc]; exact ht)
    refine ⟨⟨h.tables.l1, h.tables.registered, h.tables.keyed, h.tables.covered⟩,
      fun rec' hRec => h.source rec' (by rw [hPc]; exact hRec), h.reads, ?_⟩
    rcases h.block with ⟨r, hLive⟩ | ⟨hOwn, hDead⟩
    · have hHeld := hLive.held
      rw [hPc] at hHeld
      refine Or.inl ⟨r, hLive.migrate hHeld (fun data' hData => ?_) fun _ => hSole r.tier⟩
      -- what was read is the copy at the source
      have hSource := (hHeld rec.tier (by simp [MigratorPc.copies])).2
      rw [← hKey, (ProviderRegistry.get_eq_ok_iff.mp hGet).2, Option.some.injEq] at hSource
      obtain rfl : data = data' := Option.some.inj hData
      exact hSource
    · exact Or.inr ⟨hOwn, hDead.migrate (fun _ => rfl) (fun _ hSome => hSome)
        fun tier hOld => ⟨tier, hSole tier hOld⟩⟩

theorem migrate_fetched (h : Consistent p key target c) {data : Bytes}
    (hPc : c.migrator = .fetched rec data) (hGet : c.m.physical.get p ≠ none) (now : Time) :
    Consistent p key target (c.migrate policy p target now) := by
  obtain ⟨hId, hKey, hNe, hOn⟩ := h.source rec (by rw [hPc]; rfl)
  unfold Concurrent.migrate
  rw [hPc]
  dsimp only
  cases hPut : c.m.providers.put target rec.providerKey data with
  | error e => exact h.give_up (Or.inr (Or.inr ⟨rec, data, hPc⟩))
  | ok providers =>
    obtain ⟨hTarget, hSame, hContent⟩ := ProviderRegistry.put_spec hPut
    rw [hKey] at hContent
    rcases h.block with ⟨r, hLive⟩ | ⟨-, hDead⟩
    · refine ⟨h.tables.of_same hSame h.tables.keyed h.tables.covered, fun rec' hRec => ?_,
        h.reads, Or.inl ⟨r, hLive.migrate (fun t ht => ?_) (fun data' hData => ?_)
          fun hOwn hOld => ⟨fun rec' hRec => ?_, fun t ht => ?_⟩⟩⟩
      · obtain rfl : rec = rec' := Option.some.inj hRec
        exact ⟨hId, hKey, hNe, (hSame _).trans hOn⟩
      · have hData : data = c.current := hLive.data data (by rw [hPc]; rfl)
        rw [hSame, hContent]
        by_cases hEq : t = target
        · rw [if_pos ⟨hEq, rfl⟩, hEq, hData]
          exact ⟨hTarget, rfl⟩
        · rw [if_neg fun hBoth => hEq hBoth.1]
          refine hLive.held t ?_
          rw [hPc]
          simpa [MigratorPc.copies, hEq] using ht
      · exact hLive.data data' (by rw [hPc]; exact hData)
      · exact hOld.source rec' (by rw [hPc]; exact hRec)
      · show providers.content t p = none
        have hAway : t ≠ r.tier ∧ t ≠ rec.tier ∧ t ≠ target := by
          simpa [MigratorPc.copies] using ht
        rw [hContent, if_neg fun hBoth => hAway.2.2 hBoth.1]
        refine hOld.elsewhere t ?_
        rw [hPc]
        simp [MigratorPc.copies, hAway]
    · exact absurd hDead.get hGet

theorem migrate_copied (h : Consistent p key target c) {data : Bytes}
    (hPc : c.migrator = .copied rec data) (now : Time) :
    Consistent p key target (c.migrate policy p target now) := by
  obtain ⟨hId, hKey, hNe, hOn⟩ := h.source rec (by rw [hPc]; rfl)
  obtain ⟨providers, hDel⟩ := ProviderRegistry.delete_ok hOn rec.providerKey
  obtain ⟨hSame, hContent⟩ := ProviderRegistry.delete_spec hDel
  rw [hKey] at hContent
  unfold Concurrent.migrate
  rw [hPc]
  simp only [hDel]
  have hSole : ∀ tier, key = p → Sole target p c tier → Sole target p
      { c with m := { c.m with providers }, migrator := .moved rec } tier := by
    intro tier hOwn hOld
    have hTier : tier = rec.tier := hOld.source rec (by rw [hPc]; rfl)
    refine ⟨fun rec' hRec => hOld.source rec' (by rw [hPc]; exact hRec), fun t ht => ?_⟩
    show providers.content t p = none
    have hAway : t ≠ target := by simpa [MigratorPc.copies, hTier] using ht
    rw [hContent]
    by_cases hFrom : t = rec.tier
    · rw [if_pos ⟨hFrom, hOwn.symm⟩]
    · rw [if_neg fun hBoth => hFrom hBoth.1]
      refine hOld.elsewhere t ?_
      rw [hPc]
      simp [MigratorPc.copies, hTier, hFrom, hAway]
  refine ⟨h.tables.of_same hSame h.tables.keyed h.tables.covered, fun rec' hRec => ?_,
    h.reads, ?_⟩
  · obtain rfl : rec = rec' := Option.some.inj hRec
    exact ⟨hId, hKey, hNe, (hSame _).trans hOn⟩
  · rcases h.block with ⟨r, hLive⟩ | ⟨hOwn, hDead⟩
    · refine Or.inl ⟨r, hLive.migrate (fun t ht => ?_) (by simp [MigratorPc.data?]) (hSole r.tier)⟩
      -- neither the target nor a tier the record has moved to is the source
      have hAway : t ≠ rec.tier ∧ t ∈ c.migrator.copies target r.tier := by
        rw [hPc]
        simp only [MigratorPc.copies] at ht ⊢
        split at ht
        · obtain rfl := List.mem_singleton.mp ht
          exact ⟨Ne.symm hNe, by simp⟩
        · next hMoved =>
          simp only [List.mem_cons, List.not_mem_nil, or_false] at ht ⊢
          rcases ht with rfl | rfl
          · exact ⟨hMoved, Or.inl rfl⟩
          · exact ⟨Ne.symm hNe, Or.inr (Or.inr rfl)⟩
      rw [hSame, hContent, if_neg fun hBoth => hAway.1 hBoth.1]
      exact hLive.held t hAway.2
    · refine Or.inr ⟨hOwn, hDead.migrate hSame (fun t hSome => ?_)
        fun tier hOld => ⟨tier, hSole tier hOwn hOld⟩⟩
      rw [hContent] at hSome
      split at hSome
      · exact absurd rfl hSome
      · exact hSome

theorem migrate_moved (h : Consistent p key target c) (hPc : c.migrator = .moved rec) (now : Time) :
    Consistent p key target (c.migrate policy p target now) := by
  obtain ⟨hId, -, -, -⟩ := h.source rec (by rw [hPc]; rfl)
  have hTarget : ∀ tier, target ∈ c.migrator.copies target tier := by
    intro tier
    rw [hPc]
    simp only [MigratorPc.copies]
    split <;> simp
  have hElsewhere : ∀ tier, Sole target p c tier → ∀ t, t ≠ target →
      c.m.providers.content t p = none := by
    intro tier hOld t ht
    have hTier := hOld.source rec (by rw [hPc]; rfl)
    refine hOld.elsewhere t ?_
    rw [hPc]
    simp [MigratorPc.copies, hTier, ht]
  unfold Concurrent.migrate finishMigration
  rw [hPc]
  dsimp only
  rw [hId]
  rcases h.block with ⟨r, hLive⟩ | ⟨hOwn, hDead⟩
  · rw [hLive.get]
    dsimp only [Option.map_some]
    have hpid := PhysicalBlockTable.get_physicalId hLive.get
    refine ⟨h.tables.rewrite hLive.get rfl rfl rfl rfl (fun _ => rfl) rfl rfl rfl,
      fun rec hRec => by simp [MigratorPc.rec?] at hRec, h.reads, Or.inl ⟨{ r with
        temperature := policy.temperature r now
        compressed := target ≠ .l1Ram
        tier := target }, ?_⟩⟩
    · refine ⟨?_, hLive.providerKey, hLive.writing, hLive.probed, fun t ht => ?_,
        fun data hData => by simp [MigratorPc.data?] at hData, ?_⟩
      · exact (PhysicalBlockTable.get_put _ _ p).trans (if_pos hpid.symm)
      · obtain rfl : t = target := by simpa [MigratorPc.copies] using ht
        exact hLive.held t (hTarget r.tier)
      · refine hLive.sole.imp_left fun ⟨hOwn, hOld⟩ => ⟨hOwn, ?_⟩
        refine ⟨fun rec hRec => by simp [MigratorPc.rec?] at hRec, fun t ht => ?_⟩
        exact hElsewhere r.tier hOld t (by simpa [MigratorPc.copies] using ht)
  · rw [hDead.get]
    dsimp only [Option.map_none]
    refine ⟨h.tables.of_same (fun _ => rfl) h.tables.keyed h.tables.covered,
      fun rec hRec => by simp [MigratorPc.rec?] at hRec, h.reads, Or.inr ⟨hOwn, ?_⟩⟩
    refine hDead.migrate (fun _ => rfl) (fun _ hSome => hSome) fun tier hOld => ⟨target, ?_⟩
    refine ⟨fun rec hRec => by simp [MigratorPc.rec?] at hRec, fun t ht => ?_⟩
    exact hElsewhere tier hOld t (by simpa [MigratorPc.copies] using ht)

theorem migrate_consistent (h : Consistent p key target c) {now : Time}
    (hCalm : c.Calm sha p (.migrate now)) :
    Consistent p key target (c.migrate policy p target now) := by
  cases hPc : c.migrator with
  | idle =>
    unfold Concurrent.migrate
    rw [hPc]
    dsimp only
    rcases beginMigration_cases c.m p target with hEq | ⟨rec, hp, hNe, hEq⟩
    · rw [hEq]
      exact h.give_up (Or.inl hPc)
    · rw [hEq]
      rcases h.block with ⟨r, hLive⟩ | ⟨-, hDead⟩
      · obtain rfl : r = rec := Option.some.inj (hLive.get.symm.trans hp)
        have hHeld := hLive.held r.tier (by rw [hPc]; simp [MigratorPc.copies])
        refine ⟨⟨h.tables.l1, h.tables.registered, h.tables.keyed, h.tables.covered⟩,
          fun rec hRec => ?_, h.reads, Or.inl ⟨r, hLive.migrate (fun t ht => ?_)
            (by simp [MigratorPc.data?]) fun _ hOld => ⟨fun rec hRec => ?_, fun t ht => ?_⟩⟩⟩
        · obtain rfl : r = rec := Option.some.inj hRec
          exact ⟨PhysicalBlockTable.get_physicalId hp, hLive.providerKey, hNe, hHeld.1⟩
        · obtain rfl : t = r.tier := by simpa [MigratorPc.copies] using ht
          exact hHeld
        · obtain rfl : r = rec := Option.some.inj hRec
          rfl
        · refine hOld.elsewhere t ?_
          rw [hPc]
          simpa [MigratorPc.copies] using ht
      · exact absurd (hDead.get.symm.trans hp) (by simp)
  | started rec => exact migrate_started h hPc now
  | fetched rec data =>
    have hGet : CalmCopy p c.m c.migrator := hCalm
    rw [hPc] at hGet
    exact migrate_fetched h hPc hGet now
  | copied rec data => exact migrate_copied h hPc now
  | moved rec => exact migrate_moved h hPc now
  | done =>
    unfold Concurrent.migrate
    rw [hPc]
    exact h

end Concurrent

end Neuroswarm.Kv
