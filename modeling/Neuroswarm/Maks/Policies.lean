import Mathlib.Algebra.Order.Field.Rat
import Mathlib.Data.List.Sort
import Neuroswarm.Maks.Tables

/-!
# MAKS — eviction policies

`policies/*.py`: seven ways to order the records that may go, and one way to take from the
front of the order until enough is freed. Floats are exact; a policy with queues keeps them
in its value.

* `Frees` — what a selection owes its caller.
* `frees_iff` — when the ids of chosen records meet it.
* `selectVictims_frees` — every policy does, whatever its queues hold.
-/

namespace Neuroswarm.Maks

-- ------ Records

/-- What the policies read of a `KVRegistryRecord`. -/
structure EvictionRecord where
  kvId : KvId
  pinned : Bool := false
  refcount : Int := 0
  kvSize : Int := 0
  createdAt : ℚ := 0
  lastAccess : ℚ := 0
  accessCount : Int := 0
  reuseCount : Int := 0
  tier : KVTier := .hot
  priority : Int := 0
  costScore : ℚ := 0
  deriving DecidableEq, Repr

namespace EvictionRecord

/-- `not r.pinned and r.refcount <= 1`. -/
def evictable (r : EvictionRecord) : Bool := !r.pinned && decide (r.refcount ≤ 1)

/-- A record of the registry, with the times and the cost that `KVRegistryRecord` leaves
out. -/
def ofRecord (lastAccess costScore : KvId → ℚ) (rec : KVRegistryRecord) : EvictionRecord where
  kvId := rec.kvId
  pinned := rec.pinned
  refcount := rec.refcount
  kvSize := rec.metadata.kvSize
  createdAt := rec.createdAt
  lastAccess := lastAccess rec.kvId
  accessCount := rec.accessCount
  reuseCount := rec.metadata.reuseCount
  tier := rec.tier
  priority := rec.priority
  costScore := costScore rec.kvId

end EvictionRecord

/-- What `all_records` returns: one record for an id. -/
structure Listing where
  records : List EvictionRecord
  distinct : (records.map EvictionRecord.kvId).Nodup

namespace Listing

/-- The records that may go. -/
def evictable (l : Listing) : List EvictionRecord := l.records.filter EvictionRecord.evictable

def total (l : Listing) (ids : List KvId) : Int :=
  ((l.records.filter fun r => decide (r.kvId ∈ ids)).map EvictionRecord.kvSize).sum

/-- `registry.all_records()`. -/
def ofRegistry (rank : KvId → Nat) (lastAccess costScore : KvId → ℚ) (reg : KVRegistry) :
    Listing where
  records := (reg.allRecords rank).map (EvictionRecord.ofRecord lastAccess costScore)
  distinct := by
    have hIds : ∀ ids : List KvId, (∀ k ∈ ids, (reg.get k).isSome) →
        (ids.filterMap reg.get).map KVRegistryRecord.kvId = ids := by
      intro ids hIds
      induction ids with
      | nil => rfl
      | cons k ids ih =>
        obtain ⟨rec, hRec⟩ := Option.isSome_iff_exists.mp (hIds k List.mem_cons_self)
        rw [List.filterMap_cons_some hRec, List.map_cons, reg.keyed hRec,
          ih fun x hx => hIds x (List.mem_cons_of_mem _ hx)]
    rw [List.map_map]
    show ((reg.allRecords rank).map KVRegistryRecord.kvId).Nodup
    rw [KVRegistry.allRecords, hIds _ fun k hk => KVRegistry.mem_listIds.mp hk]
    exact (List.perm_insertionSort _ _).nodup_iff.mpr reg.records.nodup

end Listing

-- ------ What a selection owes

structure Frees (l : Listing) (bytesNeeded : Int) (victims : List KvId) : Prop where
  distinct : victims.Nodup
  evictable : ∀ k ∈ victims, ∃ r ∈ l.records, r.kvId = k ∧ r.evictable
  enough : bytesNeeded ≤ l.total victims ∨ ∀ r ∈ l.records, r.evictable → r.kvId ∈ victims

section

variable {l : Listing} {chosen : List EvictionRecord}

theorem Listing.eq_of_kvId {r r' : EvictionRecord} (h : r ∈ l.records) (h' : r' ∈ l.records)
    (hId : r.kvId = r'.kvId) : r = r' :=
  List.inj_on_of_nodup_map l.distinct h h' hId

theorem Listing.total_chosen (hNodup : chosen.Nodup) (hSub : ∀ r ∈ chosen, r ∈ l.records) :
    l.total (chosen.map EvictionRecord.kvId) = (chosen.map EvictionRecord.kvSize).sum := by
  have hPerm : (l.records.filter fun r =>
      decide (r.kvId ∈ chosen.map EvictionRecord.kvId)).Perm chosen := by
    have hRecords := (List.Nodup.of_map _ l.distinct).filter
      fun r => decide (r.kvId ∈ chosen.map EvictionRecord.kvId)
    rw [List.perm_ext_iff_of_nodup hRecords hNodup]
    intro r
    simp only [List.mem_filter, decide_eq_true_eq, List.mem_map]
    constructor
    · rintro ⟨hMem, r', hChosen, hId⟩
      rwa [← l.eq_of_kvId (hSub r' hChosen) hMem hId]
    · intro hChosen
      exact ⟨hSub r hChosen, r, hChosen, rfl⟩
  exact (hPerm.map _).sum_eq

theorem Listing.distinct_evictable (l : Listing) :
    (l.evictable.map EvictionRecord.kvId).Nodup :=
  l.distinct.sublist (List.filter_sublist.map _)

theorem frees_iff {bytesNeeded : Int} {victims : List KvId} (hNodup : victims.Nodup)
    (hSub : ∀ k ∈ victims, k ∈ l.evictable.map EvictionRecord.kvId) :
    Frees l bytesNeeded victims ↔
      bytesNeeded ≤ l.total victims ∨ l.evictable.length ≤ victims.length := by
  have hLen : (l.evictable.map EvictionRecord.kvId).length = l.evictable.length :=
    List.length_map _
  have hAll : (∀ r ∈ l.records, r.evictable → r.kvId ∈ victims) ↔
      l.evictable.length ≤ victims.length := by
    rw [← hLen]
    constructor
    · intro h
      apply (List.subperm_of_subset l.distinct_evictable _).length_le
      intro k hk
      obtain ⟨r, hr, rfl⟩ := List.mem_map.mp hk
      exact h r (List.mem_filter.mp hr).1 (List.mem_filter.mp hr).2
    · intro h r hRecord hGoes
      have hPerm := (List.subperm_of_subset hNodup hSub).perm_of_length_le h
      exact hPerm.mem_iff.mpr (List.mem_map_of_mem (List.mem_filter.mpr ⟨hRecord, hGoes⟩))
  constructor
  · intro h
    rw [← hAll]
    exact h.enough
  · intro h
    rw [← hAll] at h
    refine ⟨hNodup, fun k hk => ?_, h⟩
    obtain ⟨r, hr, rfl⟩ := List.mem_map.mp (hSub k hk)
    exact ⟨r, (List.mem_filter.mp hr).1, rfl, (List.mem_filter.mp hr).2⟩

end

-- ------ Taking from the front

/-- `_pick`, after `taken` records of together `freed` bytes. -/
def pick (bytesNeeded count : Int) : (freed : Int) → (taken : Nat) → List EvictionRecord → List KvId
  | _, _, [] => []
  | freed, taken, rec :: rest =>
    rec.kvId ::
      if 0 < bytesNeeded ∧ bytesNeeded ≤ freed + rec.kvSize then []
      else if bytesNeeded ≤ 0 ∧ count ≤ taken + 1 then []
      else pick bytesNeeded count (freed + rec.kvSize) (taken + 1) rest

theorem pick_eq (bytesNeeded count : Int) (freed : Int) (taken : Nat)
    (candidates : List EvictionRecord) (hNeeded : 0 < bytesNeeded) :
    ∃ k, pick bytesNeeded count freed taken candidates =
        (candidates.take k).map EvictionRecord.kvId ∧
      (bytesNeeded ≤ freed + ((candidates.take k).map EvictionRecord.kvSize).sum ∨
        candidates.length ≤ k) := by
  induction candidates generalizing freed taken with
  | nil => exact ⟨0, rfl, .inr le_rfl⟩
  | cons rec rest ih =>
    by_cases hEnough : bytesNeeded ≤ freed + rec.kvSize
    · refine ⟨1, ?_, .inl ?_⟩
      · simp [pick, hNeeded, hEnough]
      · simpa using hEnough
    · obtain ⟨k, hPick, hSum⟩ := ih (freed + rec.kvSize) (taken + 1)
      refine ⟨k + 1, ?_, ?_⟩
      · rw [pick, if_neg (fun h => hEnough h.2), if_neg (by omega), hPick]
        rfl
      · simp only [List.take_succ_cons, List.map_cons, List.sum_cons, List.length_cons]
        rcases hSum with h | h
        · exact .inl (by omega)
        · exact .inr (by omega)

theorem pick_frees {l : Listing} {ordered : List EvictionRecord} {bytesNeeded : Int}
    (count : Int) (hOrder : ordered.Perm l.evictable) (hNeeded : 0 < bytesNeeded) :
    Frees l bytesNeeded (pick bytesNeeded count 0 0 ordered) := by
  obtain ⟨k, hPick, hSum⟩ := pick_eq bytesNeeded count 0 0 ordered hNeeded
  have hIds : (ordered.map EvictionRecord.kvId).Nodup :=
    (hOrder.map _).nodup_iff.mpr l.distinct_evictable
  have hTaken : ((ordered.take k).map EvictionRecord.kvId).Nodup :=
    hIds.sublist ((List.take_sublist k ordered).map _)
  have hSub : ∀ r ∈ ordered.take k, r ∈ l.evictable := fun r hr =>
    hOrder.mem_iff.mp (List.mem_of_mem_take hr)
  have hTotal := l.total_chosen hTaken.of_map fun r hr => (List.mem_filter.mp (hSub r hr)).1
  have hLen := hOrder.length_eq
  rw [hPick, frees_iff hTaken, hTotal]
  · rcases hSum with h | h
    · exact .inl (by omega)
    · refine .inr ?_
      rw [List.take_of_length_le h, List.length_map]
      omega
  · intro k hk
    obtain ⟨r, hr, rfl⟩ := List.mem_map.mp hk
    exact List.mem_map_of_mem (hSub r hr)

-- ------ The orders

/-- `[r for r in records if ...]`, sorted: `le` compares the keys. -/
def sortedBy (le : EvictionRecord → EvictionRecord → Bool) (records : List EvictionRecord) :
    List EvictionRecord :=
  (records.filter EvictionRecord.evictable).insertionSort fun a b => le a b

/-- `LRUPolicy`. -/
def LRUPolicy.ordered : List EvictionRecord → List EvictionRecord :=
  sortedBy fun a b => decide (a.lastAccess ≤ b.lastAccess)

/-- `LFUPolicy`: the key is `(r.access_count, r.last_access)`. -/
def LFUPolicy.ordered : List EvictionRecord → List EvictionRecord :=
  sortedBy fun a b =>
    decide (a.accessCount < b.accessCount ∨
      a.accessCount = b.accessCount ∧ a.lastAccess ≤ b.lastAccess)

def tierRank : KVTier → Nat
  | .cold => 0
  | .warm => 1
  | .hot => 2

/-- `TemperaturePolicy`: the key is `(_TIER_RANK.get(r.tier, 1), r.last_access)`. -/
def TemperaturePolicy.ordered : List EvictionRecord → List EvictionRecord :=
  sortedBy fun a b =>
    decide (tierRank a.tier < tierRank b.tier ∨
      tierRank a.tier = tierRank b.tier ∧ a.lastAccess ≤ b.lastAccess)

/-- `score` of `CostAwarePolicy`: the higher, the better a candidate. -/
def CostAwarePolicy.score (r : EvictionRecord) : ℚ :=
  let reuse := max 1 (r.reuseCount + r.accessCount)
  let size := max 1 r.kvSize
  (size / reuse : ℚ) - r.priority * 1000 - r.costScore

/-- `CostAwarePolicy`: highest score first. -/
def CostAwarePolicy.ordered : List EvictionRecord → List EvictionRecord :=
  sortedBy fun a b => decide (CostAwarePolicy.score b ≤ CostAwarePolicy.score a)

structure EvictionWeights where
  recency : ℚ := 1
  frequency : ℚ := 1
  sharing : ℚ := 2
  importance : ℚ := 3 / 2
  prediction : ℚ := 1
  pressureBias : ℚ := 1 / 2
  cascadeStage : ℚ := 3 / 4
  reasoningDepth : ℚ := 1 / 2

/-- The signals of one id in `page_signals`. -/
structure PageSignals where
  importance : Option ℚ := none
  predictionScore : Option ℚ := none
  cascadeStage : Option ℚ := none
  reasoningDepth : Option ℚ := none

structure ScoredEvictionPolicy where
  weights : EvictionWeights := {}
  pressure : ℚ := 0
  pageSignals : Dict KvId PageSignals := .empty

namespace ScoredEvictionPolicy

/-- `a or b` on numbers. -/
def orElse (a b : ℚ) : ℚ := if a = 0 then b else a

/-- `score(rec)` when `time.time()` returns `now`: the lower, the better a candidate. -/
def score (p : ScoredEvictionPolicy) (now : ℚ) (r : EvictionRecord) : ℚ :=
  let ageS := max 0 (now - orElse (orElse r.lastAccess r.createdAt) now)
  let recency := 1 / (1 + ageS / 60)
  let freq := min 1 ((r.accessCount : ℚ) / 20)
  let share := min 1 ((max 0 (r.refcount - 1) : ℚ) / 5)
  let sig := (p.pageSignals.get? r.kvId).getD {}
  let importance := sig.importance.getD (if r.priority ≠ 0 then (r.priority : ℚ) / 10 else 0)
  let prediction := sig.predictionScore.getD 0
  let cascade := min 1 (sig.cascadeStage.getD 0 / 5)
  let depth := min 1 (sig.reasoningDepth.getD 0 / 10)
  let w := p.weights
  w.recency * recency + w.frequency * freq + w.sharing * share + w.importance * importance
    + w.prediction * prediction + w.cascadeStage * cascade + w.reasoningDepth * depth
    - w.pressureBias * p.pressure

/-- Lowest score first; `time i` is what the clock reads when the i-th is scored. -/
def ordered (p : ScoredEvictionPolicy) (time : Nat → ℚ) (records : List EvictionRecord) :
    List EvictionRecord :=
  let candidates := records.filter EvictionRecord.evictable
  let scored := candidates.zipIdx.map fun (r, i) => (p.score (time i) r, r)
  (scored.insertionSort fun a b => a.1 ≤ b.1).map Prod.snd

end ScoredEvictionPolicy

/-- `{r.kv_id: r for r in records}`. -/
def byId (records : List EvictionRecord) : Dict KvId EvictionRecord :=
  records.foldl (fun d r => d.set r.kvId r) .empty

/-- `for kid in queue: if kid in by_id: ordered.append(by_id.pop(kid))`. -/
def drain : List KvId → Dict KvId EvictionRecord → List EvictionRecord × Dict KvId EvictionRecord
  | [], d => ([], d)
  | kid :: queue, d =>
    match d.get? kid with
    | some r =>
      let (ordered, d) := drain queue (d.erase kid)
      (r :: ordered, d)
    | none => drain queue d

/-- `sorted(by_id.values(), key=lambda r: r.last_access)`. -/
def byAccess (d : Dict KvId EvictionRecord) : List EvictionRecord :=
  d.values.insertionSort fun a b => a.lastAccess ≤ b.lastAccess

structure ARCPolicy where
  t1 : List KvId := []
  t2 : List KvId := []

namespace ARCPolicy

def observe (p : ARCPolicy) (kvId : KvId) (frequent : Bool) : ARCPolicy :=
  if frequent then { t1 := p.t1.erase kvId, t2 := p.t2.erase kvId ++ [kvId] }
  else { t1 := p.t1.erase kvId ++ [kvId], t2 := p.t2.erase kvId }

def ordered (p : ARCPolicy) (records : List EvictionRecord) : List EvictionRecord :=
  let (seen, rest) := drain p.t1 (byId (records.filter EvictionRecord.evictable))
  seen ++ byAccess rest

end ARCPolicy

structure S3FIFOPolicy where
  small : List KvId := []
  main : List KvId := []
  ghost : List KvId := []

namespace S3FIFOPolicy

def observe (p : S3FIFOPolicy) (kvId : KvId) (frequent : Bool) : S3FIFOPolicy :=
  if frequent then
    { p with
      ghost := p.ghost.erase kvId
      main := if kvId ∈ p.main then p.main else p.main ++ [kvId] }
  else if kvId ∉ p.small ∧ kvId ∉ p.main then { p with small := p.small ++ [kvId] }
  else p

def ordered (p : S3FIFOPolicy) (records : List EvictionRecord) : List EvictionRecord :=
  let (small, d) := drain p.small (byId (records.filter EvictionRecord.evictable))
  let (main, d) := drain p.main d
  small ++ main ++ byAccess d

/-- One round of the loop over the victims. -/
def expel (p : S3FIFOPolicy) (kid : KvId) : S3FIFOPolicy where
  small := p.small.erase kid
  main := p.main.erase kid
  ghost := p.ghost.insert kid

end S3FIFOPolicy

-- ------ The policies

inductive EvictionPolicyName where
  | scored
  | lru
  | lfu
  | clock
  | arc
  | temperature
  | costAware
  | s3fifo
  deriving DecidableEq, Repr

/-- An `IEvictionPolicy`. -/
inductive Policy where
  | lru
  | lfu
  | arc (p : ARCPolicy)
  | temperature
  | costAware
  | s3fifo (p : S3FIFOPolicy)
  | scored (p : ScoredEvictionPolicy)

/-- `build_policy`: the clock itself is in the engine. -/
def buildPolicy : EvictionPolicyName → Policy
  | .scored => .scored {}
  | .lfu => .lfu
  | .arc => .arc {}
  | .s3fifo => .s3fifo {}
  | .temperature => .temperature
  | .costAware => .costAware
  | .lru | .clock => .lru

namespace Policy

/-- `observe`, of the policies that have it. -/
def observe (p : Policy) (kvId : KvId) (frequent : Bool) : Policy :=
  match p with
  | .arc q => .arc (q.observe kvId frequent)
  | .s3fifo q => .s3fifo (q.observe kvId frequent)
  | p => p

def ordered (p : Policy) (time : Nat → ℚ) (records : List EvictionRecord) : List EvictionRecord :=
  match p with
  | .lru => LRUPolicy.ordered records
  | .lfu => LFUPolicy.ordered records
  | .arc q => q.ordered records
  | .temperature => TemperaturePolicy.ordered records
  | .costAware => CostAwarePolicy.ordered records
  | .s3fifo q => q.ordered records
  | .scored q => q.ordered time records

def selectVictims (p : Policy) (time : Nat → ℚ) (records : List EvictionRecord)
    (bytesNeeded count : Int) : List KvId × Policy :=
  let victims := pick bytesNeeded count 0 0 (p.ordered time records)
  match p with
  | .s3fifo q => (victims, .s3fifo (victims.foldl S3FIFOPolicy.expel q))
  | p => (victims, p)

end Policy

-- ------ Every order is one of the evictable records

theorem sortedBy_perm (le : EvictionRecord → EvictionRecord → Bool)
    (records : List EvictionRecord) :
    (sortedBy le records).Perm (records.filter EvictionRecord.evictable) :=
  List.perm_insertionSort _ _

theorem byAccess_perm (d : Dict KvId EvictionRecord) : (byAccess d).Perm d.values :=
  List.perm_insertionSort _ _

theorem drain_perm (queue : List KvId) (d : Dict KvId EvictionRecord) :
    ((drain queue d).1 ++ (drain queue d).2.values).Perm d.values := by
  induction queue generalizing d with
  | nil => exact .refl _
  | cons kid queue ih =>
    cases hGet : d.get? kid with
    | none =>
      simp only [drain, hGet]
      exact ih d
    | some r =>
      have hEntries := (Dict.perm_entries_erase hGet).map Prod.snd
      simp only [drain, hGet, List.cons_append]
      exact ((ih (d.erase kid)).cons r).trans hEntries.symm

theorem ScoredEvictionPolicy.ordered_perm (p : ScoredEvictionPolicy) (time : Nat → ℚ)
    (records : List EvictionRecord) :
    (p.ordered time records).Perm (records.filter EvictionRecord.evictable) := by
  refine ((List.perm_insertionSort _ _).map Prod.snd).trans (.of_eq ?_)
  rw [List.map_map]
  exact List.zipIdx_map_fst 0 _

theorem entries_foldl_set (rs : List EvictionRecord) (d : Dict KvId EvictionRecord)
    (hDistinct : (rs.map EvictionRecord.kvId).Nodup) (hNew : ∀ r ∈ rs, d.get? r.kvId = none) :
    (rs.foldl (fun d r => d.set r.kvId r) d).entries =
      d.entries ++ rs.map fun r => (r.kvId, r) := by
  induction rs generalizing d with
  | nil => simp
  | cons r rs ih =>
    obtain ⟨hFirst, hRest⟩ := List.nodup_cons.mp hDistinct
    have hNone := hNew r List.mem_cons_self
    have hLater : ∀ r' ∈ rs, (d.set r.kvId r).get? r'.kvId = none := by
      intro r' hr'
      have hNe : r'.kvId ≠ r.kvId := fun h => hFirst (h ▸ List.mem_map_of_mem hr')
      rw [Dict.get?_set_ne d r hNe]
      exact hNew r' (List.mem_cons_of_mem _ hr')
    rw [List.foldl_cons, ih _ hRest hLater, Dict.entries_set_of_none hNone]
    simp

theorem Listing.byId_entries (l : Listing) :
    (byId l.evictable).entries = l.evictable.map fun r => (r.kvId, r) :=
  entries_foldl_set l.evictable .empty l.distinct_evictable fun _ _ => rfl

theorem Listing.byId_values (l : Listing) : (byId l.evictable).values = l.evictable := by
  rw [Dict.values, l.byId_entries, List.map_map]
  exact List.map_id _

theorem Listing.byId_keys (l : Listing) :
    (byId l.evictable).keys = l.evictable.map EvictionRecord.kvId := by
  simp [Dict.keys, l.byId_entries]

namespace Policy

theorem ordered_perm (p : Policy) (time : Nat → ℚ) (l : Listing) :
    (p.ordered time l.records).Perm l.evictable := by
  have hRest (d : Dict KvId EvictionRecord) (queue : List KvId) :
      ((drain queue d).1 ++ byAccess (drain queue d).2).Perm d.values :=
    ((byAccess_perm _).append_left _).trans (drain_perm queue d)
  cases p with
  | lru | lfu | temperature | costAware => exact sortedBy_perm _ _
  | scored q => exact q.ordered_perm time l.records
  | arc q =>
    rw [← l.byId_values]
    exact hRest _ q.t1
  | s3fifo q =>
    rw [← l.byId_values]
    have hMain := (hRest (drain q.small (byId l.evictable)).2 q.main).append_left
      (drain q.small (byId l.evictable)).1
    rw [← List.append_assoc] at hMain
    exact hMain.trans (drain_perm q.small _)

theorem ordered_filter (p : Policy) (time : Nat → ℚ) (records : List EvictionRecord)
    {f : EvictionRecord → Bool} (hf : ∀ r, r.evictable → f r) :
    p.ordered time (records.filter f) = p.ordered time records := by
  have hFilter : (records.filter f).filter EvictionRecord.evictable =
      records.filter EvictionRecord.evictable := by
    rw [List.filter_filter]
    apply List.filter_congr
    intro r _
    cases hr : r.evictable <;> simp [hf r, hr]
  cases p <;>
    simp only [ordered, LRUPolicy.ordered, LFUPolicy.ordered, TemperaturePolicy.ordered,
      CostAwarePolicy.ordered, ARCPolicy.ordered, S3FIFOPolicy.ordered,
      ScoredEvictionPolicy.ordered, sortedBy, hFilter]

theorem selectVictims_filter (p : Policy) (time : Nat → ℚ) (records : List EvictionRecord)
    (bytesNeeded count : Int) {f : EvictionRecord → Bool} (hf : ∀ r, r.evictable → f r) :
    p.selectVictims time (records.filter f) bytesNeeded count =
      p.selectVictims time records bytesNeeded count := by
  simp only [selectVictims, p.ordered_filter time records hf]

theorem selectVictims_frees (p : Policy) (time : Nat → ℚ) (l : Listing) {bytesNeeded : Int}
    (count : Int) (hNeeded : 0 < bytesNeeded) :
    Frees l bytesNeeded (p.selectVictims time l.records bytesNeeded count).1 := by
  have hPick := pick_frees count (p.ordered_perm time l) hNeeded
  cases p <;> exact hPick

end Policy

end Neuroswarm.Maks
