import Mathlib.Data.Finset.Card
import Neuroswarm.Maks.Grounded

/-!
# MAKS — holders and reference counts

An agent holds a block from the call that gave it the block (`create`, also when
that was a dedup hit, or `share`) until it releases it. The manager keeps a
count, not a relation: `release` takes one off whoever calls. So an agent that
holds nothing, or releases twice, uses up the reference of another agent, and
`cleanup` then destroys a block that is still held.

`Custody` is a manager with the history of who obtained and who released which
block. The count covers the holders as long as every `release` comes from a
holder or finds a reference to spare, and no held block is destroyed under
pressure.

* `holdersKept_along` — in such runs, without TTLs, the count of every block is
  at least the number of its holders, and `cleanup` keeps every held block.
-/

namespace Neuroswarm.Maks

open Neuroswarm.Kv (Bytes Time encode)

namespace KVManager

/-- The calls agents make, and the sweep. -/
inductive AgentOp where
  | create (req : CreateRequest)
  | share (kvId : KvId) (consumer : Name)
  | release (kvId : KvId) (agent : Name)
  | cleanup (now : Time)

structure Custody where
  manager : KVManager
  obtained : KvId → Finset Name := fun _ => ∅
  released : KvId → Finset Name := fun _ => ∅

namespace Custody

def holders (c : Custody) (k : KvId) : Finset Name := c.obtained k \ c.released k

def note (f : KvId → Finset Name) (k : KvId) (agent : Name) : KvId → Finset Name :=
  Function.update f k (insert agent (f k))

variable (S : Setup)

/-- A call of the manager, entered in the history if it handed out a block. -/
def step (c : Custody) : AgentOp → Custody
  | .create req =>
    { c with
      manager := (create S c.manager req).1
      obtained :=
        match (create S c.manager req).2 with
        | .ok handle => note c.obtained handle.kvId req.agentId
        | .error _ => c.obtained }
  | .share kvId consumer =>
    { c with
      manager := (share S c.manager kvId consumer).1
      obtained :=
        match (share S c.manager kvId consumer).2 with
        | .ok () => note c.obtained kvId consumer
        | .error _ => c.obtained }
  | .release kvId agent =>
    { c with
      manager := c.manager.release kvId agent
      released := note c.released kvId agent }
  | .cleanup now => { c with manager := cleanup S c.manager now }

def init : Custody := { manager := KVManager.init S }

/-- The count covers the holders, and `cleanup` destroys no held block. -/
def HoldersKept (c : Custody) : Prop :=
  ∀ k, (c.holders k).card ≤ ReferenceCounter.count c.manager.refcount k ∧
    ((c.holders k).Nonempty → ∀ now, ((cleanup S c.manager now).registry.get k).isSome)

-- ------ The condition

/-- No victim that pressure destroys is held. -/
def ReliefSpares (c : Custody) (picked : List KvId) : Prop :=
  Run.Every (relieveOne S) (fun m k => reliefKind S m k = .destroyed → c.holders k = ∅) c.manager
    (c.manager.selectVictims picked)

instance (c : Custody) (picked : List KvId) : Decidable (ReliefSpares S c picked) :=
  inferInstanceAs (Decidable (Run.Every _ _ _ _))

/-- A new block gets no TTL, and if room has to be made for it no held block is
destroyed; a release comes from a holder, or the count exceeds the holders, or
nobody holds the block. -/
def Backed (c : Custody) : AgentOp → Prop
  | .create req =>
    req.ttlS.getD S.defaultTtlS ≤ 0 ∧
      (req.env.accepted = false → ReliefSpares S c req.env.victims)
  | .release kvId agent =>
    agent ∈ c.holders kvId ∨
      (c.holders kvId).card < ReferenceCounter.count c.manager.refcount kvId ∨
      c.holders kvId = ∅
  | _ => True

instance (c : Custody) : DecidablePred (Backed S c)
  | .create req => inferInstanceAs (Decidable (_ ∧ (_ → ReliefSpares S c req.env.victims)))
  | .release kvId agent => inferInstanceAs (Decidable (agent ∈ c.holders kvId ∨ _ ∨ _))
  | .share _ _ => isTrue trivial
  | .cleanup _ => isTrue trivial

end Custody

variable {S : Setup} {m m' : KVManager} {kvId : KvId}

-- ------ Counts

theorem count_share (m : KVManager) (kvId : KvId) (consumer : Name) (k : KvId) :
    ReferenceCounter.count (share S m kvId consumer).1.refcount k =
      if (share S m kvId consumer).2 = .ok () ∧ k = kvId then
        ReferenceCounter.count m.refcount k + 1
      else ReferenceCounter.count m.refcount k := by
  have hCount : ∀ (rec : KVRegistryRecord) (b : Backends),
      ReferenceCounter.count (m.granted b rec consumer).refcount k =
        if k = rec.kvId then ReferenceCounter.count m.refcount k + 1
        else ReferenceCounter.count m.refcount k := fun _ _ =>
    ReferenceCounter.count_increment _ _ _ _ _
  have hOutcome := share_outcome (S := S) m kvId consumer
  generalize share S m kvId consumer = out at hOutcome ⊢
  cases hOutcome with
  | refused _ e => simp
  | failed _ b e _ => simp
  | granted rec b _ _ =>
    rw [hCount]
    simp
  | moved rec b _ _ _ =>
    rw [show ((m.granted b rec consumer).writeState rec.kvId .shared).refcount =
      (m.granted b rec consumer).refcount from rfl, hCount]
    simp

theorem count_release (hG : m.Grounded) (kvId : KvId) (agent : Name) (k : KvId) :
    ReferenceCounter.count (m.release kvId agent).refcount k =
      if k = kvId then ReferenceCounter.count m.refcount k - 1
      else ReferenceCounter.count m.refcount k := by
  have hOutcome := release_outcome m kvId agent
  generalize m.release kvId agent = m' at hOutcome ⊢
  cases hOutcome with
  | unknown _ hrec =>
    split
    · next hk => rw [hk, hG.uncounted kvId hrec]
    · rfl
  | dropped rec _ => exact ReferenceCounter.count_decrement _ _ _ _
  | released rec _ => exact ReferenceCounter.count_decrement _ _ _ _

theorem count_place (m : KVManager) (req : CreateRequest) (k : KvId) :
    ReferenceCounter.count (place S m req).1.refcount k =
      match (place S m req).2 with
      | .ok handle =>
        if k = handle.kvId then ReferenceCounter.count m.refcount k + 1
        else ReferenceCounter.count m.refcount k
      | .error _ => ReferenceCounter.count m.refcount k := by
  rcases place_cases (S := S) m req with ⟨dedup, ent, rec, -, -, -, -, hEq⟩ | ⟨dedup, -, hEq⟩
  · rw [hEq]
    exact ReferenceCounter.count_increment _ _ _ _ _
  · rw [hEq]
    cases hOut : allocateNew S { m with dedup := dedup } req with
    | mk m₁ r =>
      have := allocateNew_outcome (S := S) { m with dedup := dedup } req
      rw [hOut] at this
      cases this with
      | refused e => rfl
      | leaked e b dedup' hb hd => rfl
      | installed p stored b dedup' dedupKey hpack hb hd =>
        exact ReferenceCounter.count_increment _ _ _ _ _

theorem count_relieveOne (m : KVManager) (v k : KvId) :
    ReferenceCounter.count (relieveOne S m v).refcount k =
      if reliefKind S m v = .destroyed ∧ k = v then 0 else ReferenceCounter.count m.refcount k := by
  have hR := relieveOne_relief (S := S) m v
  generalize reliefKind S m v = kind at hR
  generalize hEq : relieveOne S m v = m₁ at hR
  cases hR with
  | left b hb => simp
  | pagedOut p rec m' hM => simp [hM.refcount]
  | demoted rec p b₀ b hb₀ hrec hp hb => simp [movedBehind]
  | destroyed rec b hb hrec hpin =>
    obtain rfl := KVRegistry.kvId_of_get hrec
    rw [show (destroy S { m with backends := b } rec).refcount =
      ReferenceCounter.releaseAll m.refcount rec.kvId from rfl, ReferenceCounter.count_releaseAll]
    simp

-- ------ No TTL

/-- No live block has a TTL. -/
def Untimed (m : KVManager) : Prop := ∀ k rec, m.registry.get k = some rec → rec.ttlS ≤ 0

theorem Untimed.replace (h : m.Untimed) {rec' : KVRegistryRecord}
    (hreg : ∀ k, m'.registry.get k = if k = kvId then some rec' else m.registry.get k)
    (ht : rec'.ttlS ≤ 0) : m'.Untimed := by
  intro k r hr
  rw [hreg] at hr
  split at hr
  · rw [← Option.some.inj hr]
    exact ht
  · exact h k r hr

theorem Untimed.congr (h : m.Untimed) (hreg : m'.registry = m.registry) : m'.Untimed := by
  unfold Untimed
  rw [hreg]
  exact h

theorem Untimed.writeState (h : m.Untimed) (s : KVState) : (m.writeState kvId s).Untimed := by
  intro k r hr
  have hr : (m.registry.setState kvId s).get k = some r := hr
  rw [KVRegistry.get_setState] at hr
  split at hr
  · obtain ⟨r₀, hr₀, rfl⟩ := Option.map_eq_some_iff.mp hr
    exact h k r₀ hr₀
  · exact h k r hr

theorem Untimed.destroy (h : m.Untimed) (rec : KVRegistryRecord) : (destroy S m rec).Untimed := by
  intro k r hr
  have hr : (m.registry.delete rec.kvId).get k = some r := hr
  rw [KVRegistry.get_delete] at hr
  split at hr
  · cases hr
  · exact h k r hr

theorem Untimed.relieveOne (h : m.Untimed) (v : KvId) : (relieveOne S m v).Untimed := by
  have hR := relieveOne_relief (S := S) m v
  generalize reliefKind S m v = kind at hR
  generalize hEq : KVManager.relieveOne S m v = m₁ at hR
  cases hR with
  | left b hb => exact h.congr rfl
  | pagedOut p rec m' hM =>
    refine h.replace hM.registry ?_
    show (placed rec p).ttlS ≤ 0
    rw [placed_ttlS]
    exact h v rec hM.found
  | demoted rec p b₀ b hb₀ hrec hp hb =>
    exact h.replace (get_movedBehind hrec p b) (h v rec hrec)
  | destroyed rec b hb hrec hpin => exact Untimed.destroy (m := { m with backends := b }) h rec

theorem Untimed.place (h : m.Untimed) (req : CreateRequest)
    (ht : req.ttlS.getD S.defaultTtlS ≤ 0) : (place S m req).1.Untimed := by
  rcases place_cases (S := S) m req with
    ⟨dedup, ent, rec, -, -, hrec, -, hEq⟩ | ⟨dedup, -, hEq⟩
  · rw [hEq]
    intro k r hr
    rw [get_reuse] at hr
    split at hr
    · rw [← Option.some.inj hr]
      exact h _ rec hrec
    · exact h k r hr
  · rw [hEq]
    cases hOut : allocateNew S { m with dedup := dedup } req with
    | mk m₁ r =>
      have := allocateNew_outcome (S := S) { m with dedup := dedup } req
      rw [hOut] at this
      cases this with
      | refused e => exact h.congr rfl
      | leaked e b dedup' hb hd => exact h.congr rfl
      | installed p stored b dedup' dedupKey hpack hb hd =>
        exact h.replace (KVRegistry.get_upsert _ (newRecord S req _ _ dedupKey)) ht

theorem Untimed.create (h : m.Untimed) (req : CreateRequest)
    (ht : req.ttlS.getD S.defaultTtlS ≤ 0) : (create S m req).1.Untimed := by
  have hRelief : (relievePressure S m req.env.victims).Untimed :=
    Run.exec_of_invariant (I := Untimed) (fun _ v hm => hm.relieveOne v) h _
  unfold KVManager.create
  split
  · exact h.place req ht
  · dsimp only
    split
    · exact hRelief.place req ht
    · exact hRelief

theorem Untimed.share (h : m.Untimed) (kvId : KvId) (consumer : Name) :
    (share S m kvId consumer).1.Untimed := by
  have hGranted : ∀ (rec : KVRegistryRecord) (b : Backends),
      m.registry.get rec.kvId = some rec → (m.granted b rec consumer).Untimed := fun rec b hrec =>
    h.replace (KVRegistry.get_upsert _ _) (h rec.kvId rec hrec)
  have hOutcome := share_outcome (S := S) m kvId consumer
  generalize KVManager.share S m kvId consumer = out at hOutcome ⊢
  cases hOutcome with
  | refused _ e => exact h
  | failed _ b e _ => exact h.congr rfl
  | granted rec b hrec _ => exact hGranted rec b hrec
  | moved rec b hrec _ _ => exact (hGranted rec b hrec).writeState _

theorem Untimed.release (h : m.Untimed) (kvId : KvId) (agent : Name) :
    (m.release kvId agent).Untimed := by
  have hDropped : ∀ rec : KVRegistryRecord, m.registry.get rec.kvId = some rec →
      (m.dropped rec agent).Untimed := fun rec hrec =>
    h.replace (KVRegistry.get_upsert _ _) (h rec.kvId rec hrec)
  have hOutcome := release_outcome m kvId agent
  generalize m.release kvId agent = m' at hOutcome ⊢
  cases hOutcome with
  | unknown _ _ => exact h
  | dropped rec hrec => exact hDropped rec hrec
  | released rec hrec => exact (hDropped rec hrec).writeState _

-- ------ The sweep

theorem get_sweepOne (now : Time) (m : KVManager) (rec : KVRegistryRecord) (k : KvId) :
    (sweepOne S now m rec).registry.get k =
      if (expired now rec ∨ reclaimable rec) ∧ k = rec.kvId then none else m.registry.get k := by
  unfold sweepOne
  by_cases hDoomed : expired now rec = true ∨ reclaimable rec = true
  · rw [if_pos hDoomed]
    unfold delete
    cases hrec : m.registry.get rec.kvId with
    | none =>
      by_cases hk : k = rec.kvId
      · simp [hk, hrec]
      · simp [hk]
    | some r =>
      have hId := KVRegistry.kvId_of_get hrec
      dsimp only
      rw [if_neg (by simp)]
      unfold destroy
      dsimp only
      rw [KVRegistry.get_delete, hId]
      simp [hDoomed]
  · rw [if_neg hDoomed, if_neg fun h => hDoomed h.1]

theorem get_cleanup (m : KVManager) (now : Time) (k : KvId) :
    (cleanup S m now).registry.get k =
      (m.registry.get k).filter fun rec => !(expired now rec || reclaimable rec) := by
  have hFold : ∀ (recs : List KVRegistryRecord) (m₁ : KVManager),
      (recs.foldl (sweepOne S now) m₁).registry.get k =
        if ∃ rec ∈ recs, (expired now rec ∨ reclaimable rec) ∧ k = rec.kvId then none
        else m₁.registry.get k := by
    intro recs
    induction recs with
    | nil => intro m₁; simp
    | cons rec recs ih =>
      intro m₁
      rw [List.foldl_cons, ih, get_sweepOne]
      by_cases hTail : ∃ rec ∈ recs, (expired now rec ∨ reclaimable rec) ∧ k = rec.kvId
      · obtain ⟨r, hr, hd⟩ := hTail
        rw [if_pos ⟨r, hr, hd⟩, if_pos ⟨r, List.mem_cons_of_mem _ hr, hd⟩]
      · rw [if_neg hTail]
        by_cases hHead : (expired now rec ∨ reclaimable rec) ∧ k = rec.kvId
        · rw [if_pos hHead, if_pos ⟨rec, List.mem_cons_self, hHead⟩]
        · rw [if_neg hHead, if_neg ?_]
          rintro ⟨r, hr, hd⟩
          rcases List.mem_cons.mp hr with rfl | hr
          · exact hHead hd
          · exact hTail ⟨r, hr, hd⟩
  show ((m.registry.allRecords S.rank).foldl (sweepOne S now) m).registry.get k = _
  rw [hFold]
  cases hrec : m.registry.get k with
  | none => simp
  | some rec =>
    -- the only record listed under `k` is the live one
    have hOnly : (∃ r ∈ m.registry.allRecords S.rank,
        (expired now r ∨ reclaimable r) ∧ k = r.kvId) ↔ expired now rec ∨ reclaimable rec := by
      constructor
      · rintro ⟨r, hr, hd, rfl⟩
        rw [KVRegistry.mem_allRecords, hrec] at hr
        rw [Option.some.inj hr]
        exact hd
      · intro hd
        have hId := KVRegistry.kvId_of_get hrec
        exact ⟨rec, KVRegistry.mem_allRecords.mpr (by rw [hId, hrec]), hd, hId.symm⟩
    by_cases hd : expired now rec = true ∨ reclaimable rec = true
    · have hDoomed : (!(expired now rec || reclaimable rec)) = false := by
        rw [Bool.not_eq_false', Bool.or_eq_true]
        exact hd
      rw [if_pos (hOnly.mpr hd), Option.filter_some, hDoomed, if_neg Bool.false_ne_true]
    · rw [if_neg (mt hOnly.mp hd)]
      rw [not_or, Bool.not_eq_true, Bool.not_eq_true] at hd
      simp [Option.filter, hd.1, hd.2]

theorem cleanup_keeps (hG : m.Grounded) (hU : m.Untimed) {k : KvId}
    (hk : 0 < ReferenceCounter.count m.refcount k) (now : Time) :
    (cleanup S m now).registry.get k = m.registry.get k := by
  rw [get_cleanup]
  cases hrec : m.registry.get k with
  | none => rfl
  | some rec =>
    rw [hG.counts k rec hrec] at hk
    have hT := hU k rec hrec
    have hExp : expired now rec = false := by
      unfold expired
      rw [decide_eq_false (by omega), Bool.false_and, Bool.false_and]
    have hRec : reclaimable rec = false := by
      unfold reclaimable
      rw [decide_eq_false (p := rec.refcount = 0) (by omega), Bool.and_false, Bool.false_and]
    simp [Option.filter, hExp, hRec]

theorem Untimed.cleanup (h : m.Untimed) (now : Time) : (cleanup S m now).Untimed := by
  intro k rec hrec
  rw [get_cleanup] at hrec
  exact h k rec (Option.filter_eq_some_iff.mp hrec).1

namespace Custody

variable {c : Custody}

-- ------ Step lemmas

structure Covered (c : Custody) : Prop where
  grounded : c.manager.Grounded
  untimed : c.manager.Untimed
  covers : ∀ k, (c.holders k).card ≤ ReferenceCounter.count c.manager.refcount k

theorem Covered.holdersKept (h : c.Covered) : HoldersKept S c := by
  intro k
  refine ⟨h.covers k, fun hHeld now => ?_⟩
  have hPos : 0 < ReferenceCounter.count c.manager.refcount k :=
    Nat.lt_of_lt_of_le hHeld.card_pos (h.covers k)
  rw [cleanup_keeps h.grounded h.untimed hPos now]
  cases hrec : c.manager.registry.get k with
  | none => rw [h.grounded.uncounted k hrec] at hPos; cases hPos
  | some rec => rfl

theorem card_note_le (c : Custody) (kvId : KvId) (agent : Name) (k : KvId) :
    (note c.obtained kvId agent k \ c.released k).card ≤
      if k = kvId then (c.holders k).card + 1 else (c.holders k).card := by
  unfold note holders
  by_cases hk : k = kvId
  · subst hk
    rw [if_pos rfl, Function.update_self]
    calc (insert agent (c.obtained k) \ c.released k).card
        ≤ (insert agent (c.obtained k \ c.released k)).card := by
          refine Finset.card_le_card fun x hx => ?_
          rw [Finset.mem_sdiff, Finset.mem_insert] at hx
          rw [Finset.mem_insert, Finset.mem_sdiff]
          exact hx.1.imp id fun ho => ⟨ho, hx.2⟩
      _ ≤ (c.obtained k \ c.released k).card + 1 := Finset.card_insert_le _ _
  · rw [if_neg hk, Function.update_of_ne hk]

theorem holders_release (c : Custody) (kvId : KvId) (agent : Name) (k : KvId) :
    c.obtained k \ note c.released kvId agent k =
      if k = kvId then (c.holders k).erase agent else c.holders k := by
  unfold note holders
  by_cases hk : k = kvId
  · subst hk
    rw [if_pos rfl, Function.update_self]
    ext x
    simp only [Finset.mem_sdiff, Finset.mem_insert, Finset.mem_erase, not_or]
    tauto
  · rw [if_neg hk, Function.update_of_ne hk]

theorem covers_relief (victims : List KvId) (m : KVManager)
    (hCov : ∀ k, (c.holders k).card ≤ ReferenceCounter.count m.refcount k)
    (hC : Run.Every (relieveOne S) (fun m k => reliefKind S m k = .destroyed → c.holders k = ∅)
      m victims) :
    ∀ k, (c.holders k).card ≤
      ReferenceCounter.count (victims.foldl (relieveOne S) m).refcount k := by
  refine (Run.along_of_every
    (I := fun m : KVManager => ∀ k, (c.holders k).card ≤ ReferenceCounter.count m.refcount k)
    (fun m v hm hv k => ?_) hCov hC).exec
  rw [count_relieveOne]
  split
  · next hk =>
    rw [hk.2, hv hk.1]
    exact Nat.zero_le _
  · exact hm k

theorem Covered.create (h : c.Covered) (req : CreateRequest) (hC : Backed S c (.create req)) :
    (step S c (.create req)).Covered := by
  obtain ⟨hTtl, hSpares⟩ : req.ttlS.getD S.defaultTtlS ≤ 0 ∧
    (req.env.accepted = false → ReliefSpares S c req.env.victims) := hC
  refine ⟨h.grounded.create req, h.untimed.create req hTtl, ?_⟩
  -- `place` adds one reference to the block whose handle it returns
  have hPlace : ∀ m₁ : KVManager,
      (∀ k, (c.holders k).card ≤ ReferenceCounter.count m₁.refcount k) →
      ∀ k, ((match (place S m₁ req).2 with
        | .ok handle => note c.obtained handle.kvId req.agentId
        | .error _ => c.obtained) k \ c.released k).card ≤
          ReferenceCounter.count (place S m₁ req).1.refcount k := by
    intro m₁ hCov k
    have hK := hCov k
    rw [count_place]
    cases (place S m₁ req).2 with
    | error e => exact hK
    | ok handle =>
      dsimp only
      refine Nat.le_trans (card_note_le c handle.kvId req.agentId k) ?_
      by_cases hk : k = handle.kvId
      · rw [if_pos hk, if_pos hk]
        omega
      · rw [if_neg hk, if_neg hk]
        exact hK
  show ∀ k, ((match (KVManager.create S c.manager req).2 with
    | .ok handle => note c.obtained handle.kvId req.agentId
    | .error _ => c.obtained) k \ c.released k).card ≤
      ReferenceCounter.count (KVManager.create S c.manager req).1.refcount k
  unfold KVManager.create
  cases hAcc : req.env.accepted with
  | true => exact hPlace c.manager h.covers
  | false =>
    have hRelief := covers_relief _ c.manager h.covers (hSpares hAcc)
    dsimp only
    rw [if_neg Bool.false_ne_true]
    split
    · exact hPlace _ hRelief
    · exact hRelief

theorem Covered.share (h : c.Covered) (kvId : KvId) (consumer : Name) :
    (step S c (.share kvId consumer)).Covered := by
  refine ⟨grounded_step (.share kvId consumer) h.grounded, h.untimed.share kvId consumer, fun k => ?_⟩
  have hK := h.covers k
  show ((match (KVManager.share S c.manager kvId consumer).2 with
    | .ok () => note c.obtained kvId consumer
    | .error _ => c.obtained) k \ c.released k).card ≤
      ReferenceCounter.count (KVManager.share S c.manager kvId consumer).1.refcount k
  rw [count_share]
  cases (KVManager.share S c.manager kvId consumer).2 with
  | error e =>
    rw [if_neg fun h => by cases h.1]
    exact hK
  | ok _ =>
    refine Nat.le_trans (card_note_le c kvId consumer k) ?_
    by_cases hk : k = kvId
    · rw [if_pos hk, if_pos ⟨rfl, hk⟩]
      omega
    · rw [if_neg hk, if_neg fun h => hk h.2]
      exact hK

theorem Covered.release (h : c.Covered) (kvId : KvId) (agent : Name)
    (hC : Backed S c (.release kvId agent)) : (step S c (.release kvId agent)).Covered := by
  have hC : agent ∈ c.holders kvId ∨
    (c.holders kvId).card < ReferenceCounter.count c.manager.refcount kvId ∨
      c.holders kvId = ∅ := hC
  refine ⟨grounded_step (S := S) (.release kvId agent) h.grounded, h.untimed.release kvId agent, fun k => ?_⟩
  have hK := h.covers k
  show (c.obtained k \ note c.released kvId agent k).card ≤
    ReferenceCounter.count (c.manager.release kvId agent).refcount k
  rw [holders_release, count_release h.grounded]
  by_cases hk : k = kvId
  · subst hk
    rw [if_pos rfl, if_pos rfl]
    rcases hC with hHolds | hSpare | hNone
    · have := Finset.card_erase_of_mem hHolds
      omega
    · have := Finset.card_erase_le (s := c.holders k) (a := agent)
      omega
    · rw [hNone, Finset.erase_empty, Finset.card_empty]
      exact Nat.zero_le _
  · rw [if_neg hk, if_neg hk]
    exact hK

theorem Covered.cleanup (h : c.Covered) (now : Time) : (step S c (.cleanup now)).Covered := by
  refine ⟨h.grounded.cleanup now, h.untimed.cleanup now, fun k => ?_⟩
  have hK : (c.holders k).card ≤ _ := h.covers k
  show (c.holders k).card ≤
    ReferenceCounter.count (KVManager.cleanup S c.manager now).refcount k
  have hG := h.grounded.cleanup (S := S) now
  by_cases hPos : 0 < ReferenceCounter.count c.manager.refcount k
  · -- a counted block is still live, and its record still carries its count
    have hGet := cleanup_keeps (S := S) h.grounded h.untimed hPos now
    cases hrec : c.manager.registry.get k with
    | none => rw [h.grounded.uncounted k hrec] at hPos; cases hPos
    | some rec =>
      rw [hrec] at hGet
      rw [hG.counts k rec hGet, ← h.grounded.counts k rec hrec]
      exact hK
  · exact Nat.le_trans hK (by omega)

theorem covered_step (op : AgentOp) (h : c.Covered) (hC : Backed S c op) :
    (step S c op).Covered := by
  cases op with
  | create req => exact h.create req hC
  | share kvId consumer => exact h.share kvId consumer
  | release kvId agent => exact h.release kvId agent hC
  | cleanup now => exact h.cleanup now

-- ------ Runs

theorem covered_init : (init S).Covered where
  grounded := grounded_init
  untimed := fun _ _ h => by cases h
  covers _ := Nat.zero_le _

/-- In a run whose releases are backed the count of every block covers its
holders in every state, and a cleanup there keeps every held block. -/
theorem holdersKept_along (ops : List AgentOp)
    (hC : Run.Every (step S) (Backed S) (init S) ops) :
    Run.Along (step S) (HoldersKept S) (init S) ops :=
  (Run.along_of_every (I := Covered) (fun _ op h hOp => covered_step op h hOp) covered_init
    hC).mono fun _ h => h.holdersKept

/-- Two agents share a block, also through a dedup hit, and release it in turn. -/
theorem holdersKept_shared :
    Run.Along (step .onHost) (HoldersKept .onHost) (init .onHost)
      [.create { payload := [7], agentId := .text "a" }, .share ⟨0⟩ (.text "b"),
        .create { payload := [7], agentId := .text "c" }, .release ⟨0⟩ (.text "b"),
        .cleanup 1, .release ⟨0⟩ (.text "a"), .release ⟨0⟩ (.text "c"), .cleanup 2] :=
  holdersKept_along _ (by decide +kernel)

/-- An agent that never obtained the block releases it: the creator's reference
is gone. -/
theorem not_holdersKept_strangerReleases :
    ¬ Run.Along (step .onHost) (HoldersKept .onHost) (init .onHost)
      [.create { payload := [7], agentId := .text "a" }, .release ⟨0⟩ (.text "b")] := by
  intro h
  have hHeld : ((Run.exec (step .onHost) (init .onHost)
      [.create { payload := [7], agentId := .text "a" },
        .release ⟨0⟩ (.text "b")]).holders ⟨0⟩).card = 1 := by
    decide +kernel
  have hCount : ReferenceCounter.count (Run.exec (step .onHost) (init .onHost)
      [.create { payload := [7], agentId := .text "a" },
        .release ⟨0⟩ (.text "b")]).manager.refcount ⟨0⟩ = 0 := by
    decide +kernel
  have := (h.exec ⟨0⟩).1
  omega

end Custody

end KVManager

end Neuroswarm.Maks
