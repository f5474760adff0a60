import Neuroswarm.Lib.Run
import Neuroswarm.Lib.SecondChance
import Neuroswarm.Maks.Policies

/-!
# MAKS — the eviction engine

`EvictionEngine` of `eviction.py`: the policy, or with the name CLOCK a hand of its own over
a ring of ids. The engine's clock does not see how many bytes are needed.

* `clockSelect_eq` — what the hand takes.
* `selectVictims_frees_iff` — when a selection frees what was asked, after any history.
-/

namespace Neuroswarm.Maks

structure EvictionEngine where
  policyName : EvictionPolicyName
  policy : Policy
  clock : List KvId := []
  clockRef : Dict KvId Bool := .empty
  pageSignals : Dict KvId PageSignals := .empty

namespace EvictionEngine

/-- `EvictionEngine(registry, policy, policy_name=...)`. -/
def new (policy : Option Policy) (policyName : EvictionPolicyName) : EvictionEngine where
  policyName := policyName
  policy := policy.getD (buildPolicy policyName)

def setPageSignals (e : EvictionEngine) (signals : Dict KvId PageSignals) : EvictionEngine :=
  { e with
    pageSignals := signals
    policy :=
      match e.policy with
      | .scored p => .scored { p with pageSignals := signals }
      | p => p }

def setPressure (e : EvictionEngine) (pressure : ℚ) : EvictionEngine :=
  { e with
    policy :=
      match e.policy with
      | .scored p => .scored { p with pressure := pressure }
      | p => p }

def observeAccess (e : EvictionEngine) (kvId : KvId) : EvictionEngine :=
  { e with
    clockRef := e.clockRef.set kvId true
    clock := if kvId ∈ e.clock then e.clock else e.clock ++ [kvId]
    policy := e.policy.observe kvId true }

/-- `_clock_ref.get(kid, False)`. -/
def referenced (e : EvictionEngine) (kid : KvId) : Bool := (e.clockRef.get? kid).getD false

/-- An id the ring does not have yet. -/
def enter (e : EvictionEngine) (kid : KvId) : EvictionEngine :=
  if kid ∈ e.clock then e
  else
    { e with
      clock := e.clock ++ [kid]
      clockRef := if e.clockRef.contains kid then e.clockRef else e.clockRef.set kid false }

/-- The loop of `_clock_select`, with as many rounds as `limit` leaves. -/
def clockLoop (d : Dict KvId EvictionRecord) (count : Int) :
    Nat → EvictionEngine → List KvId → List KvId × EvictionEngine
  | 0, e, victims => (victims, e)
  | n + 1, e, victims =>
    if victims.length < count then
      match e.clock with
      | [] => (victims, e)
      | kid :: rest =>
        if d.contains kid then
          if e.referenced kid then
            clockLoop d count n
              { e with clock := rest ++ [kid], clockRef := e.clockRef.set kid false } victims
          else
            clockLoop d count n { e with clock := rest, clockRef := e.clockRef.erase kid }
              (victims ++ [kid])
        else clockLoop d count n { e with clock := rest, clockRef := e.clockRef.erase kid } victims
    else (victims, e)

def clockSelect (e : EvictionEngine) (records : List EvictionRecord) (count : Int) :
    List KvId × EvictionEngine :=
  let d := byId records
  let e := d.keys.foldl enter e
  let limit : Int := max (e.clock.length * 2) count
  clockLoop d count limit.toNat e []

/-- `select_victims(bytes_needed=..., count=..., ref_aware=...)`; `time` is what the policy
reads off the clock. -/
def selectVictims (e : EvictionEngine) (time : Nat → ℚ) (records : List EvictionRecord)
    (bytesNeeded : Int := 0) (count : Int := 1) (refAware : Bool := true) :
    List KvId × EvictionEngine :=
  let records :=
    if refAware then records.filter fun r => decide (r.refcount ≤ 1) && !r.pinned
    else records.filter fun r => !r.pinned
  if e.policyName = .clock then
    e.clockSelect records (max count (if bytesNeeded ≤ 0 then 1 else count))
  else
    let policy : Policy :=
      match e.policy with
      | .scored p =>
        if e.pageSignals.size ≠ 0 then .scored { p with pageSignals := e.pageSignals }
        else .scored p
      | p => p
    let (victims, policy) := policy.selectVictims time records bytesNeeded count
    (victims, { e with policy := policy })

-- ------ Histories

inductive Op where
  | observeAccess (kvId : KvId)
  /-- `engine.policy.observe(kv_id, frequent=...)`. -/
  | observe (kvId : KvId) (frequent : Bool)
  | setPageSignals (signals : Dict KvId PageSignals)
  | setPressure (pressure : ℚ)
  | selectVictims (time : Nat → ℚ) (l : Listing) (bytesNeeded count : Int) (refAware : Bool)

def step (e : EvictionEngine) : Op → EvictionEngine
  | .observeAccess kvId => e.observeAccess kvId
  | .observe kvId frequent => { e with policy := e.policy.observe kvId frequent }
  | .setPageSignals signals => e.setPageSignals signals
  | .setPressure pressure => e.setPressure pressure
  | .selectVictims time l bytesNeeded count refAware =>
    (e.selectVictims time l.records bytesNeeded count refAware).2

-- ------ The ring

variable (e : EvictionEngine)

theorem clock_enter (kid : KvId) :
    (e.enter kid).clock = if kid ∈ e.clock then e.clock else e.clock ++ [kid] := by
  unfold enter
  split <;> rfl

theorem nodup_snoc {ring : List KvId} {kid : KvId} (h : ring.Nodup) (hNew : kid ∉ ring) :
    (ring ++ [kid]).Nodup := by
  rw [← List.concat_eq_append]
  exact h.concat hNew

theorem clock_foldl_enter (ids : List KvId) (e : EvictionEngine) (hIds : ids.Nodup) :
    (ids.foldl enter e).clock = e.clock ++ ids.filter fun kid => decide (kid ∉ e.clock) := by
  induction ids generalizing e with
  | nil => simp
  | cons kid ids ih =>
    obtain ⟨hFirst, hRest⟩ := List.nodup_cons.mp hIds
    rw [List.foldl_cons, ih _ hRest, clock_enter]
    by_cases hKid : kid ∈ e.clock
    · simp [hKid]
    · have hSame : (ids.filter fun k => decide (k ∉ e.clock ++ [kid])) =
          ids.filter fun k => decide (k ∉ e.clock) := by
        apply List.filter_congr
        intro k hk
        have hNe : k ≠ kid := fun h => hFirst (h ▸ hk)
        simp [hNe]
      simp only [if_neg hKid, hSame]
      simp [hKid]

theorem referenced_enter (kid : KvId) :
    (e.enter kid).referenced = e.referenced := by
  funext k
  unfold enter referenced
  split
  · rfl
  · next hKid =>
    by_cases hHas : e.clockRef.contains kid
    · simp [hHas]
    · have hNone : e.clockRef.get? kid = none := by simpa [Dict.contains] using hHas
      simp only [if_neg hHas, Dict.get?_set]
      split
      · next hk => rw [hk, hNone]; rfl
      · rfl

theorem referenced_foldl_enter (ids : List KvId) (e : EvictionEngine) :
    (ids.foldl enter e).referenced = e.referenced := by
  induction ids generalizing e with
  | nil => rfl
  | cons kid ids ih => rw [List.foldl_cons, ih, referenced_enter]

theorem referenced_set (kid : KvId) (ring : List KvId) :
    ({ e with clock := ring, clockRef := e.clockRef.set kid false } : EvictionEngine).referenced =
      Function.update e.referenced kid false := by
  funext k
  by_cases hk : k = kid
  · subst hk
    simp [referenced]
  · simp [referenced, Dict.get?_set_ne _ _ hk, Function.update_of_ne hk]

theorem referenced_erase (kid : KvId) (ring : List KvId) :
    ({ e with clock := ring, clockRef := e.clockRef.erase kid } : EvictionEngine).referenced =
      Function.update e.referenced kid false := by
  funext k
  by_cases hk : k = kid
  · subst hk
    simp [referenced]
  · simp [referenced, Dict.get?_erase_ne _ hk, Function.update_of_ne hk]

theorem clockLoop_eq (d : Dict KvId EvictionRecord) (count : Int) (n : Nat) (e : EvictionEngine)
    (victims : List KvId) :
    (clockLoop d count n e victims).1 =
      victims ++ SecondChance.sweep d.contains (count - victims.length).toNat n e.clock
        e.referenced := by
  induction n generalizing e victims with
  | zero => cases h : (count - victims.length).toNat <;> simp [clockLoop, SecondChance.sweep]
  | succ n ih =>
    by_cases hMore : (victims.length : Int) < count
    · obtain ⟨left, hLeft⟩ : ∃ left, (count - victims.length).toNat = left + 1 :=
        ⟨(count - victims.length).toNat - 1, by omega⟩
      rw [clockLoop, if_pos hMore, hLeft]
      cases hRing : e.clock with
      | nil => simp [SecondChance.sweep]
      | cons kid rest =>
        simp only [SecondChance.sweep]
        split
        · split
          · rw [ih, hLeft, referenced_set]
          · have hNext : (count - (victims ++ [kid]).length).toNat = left := by
              rw [List.length_append, List.length_singleton]
              omega
            rw [ih, hNext, referenced_erase, List.append_assoc]
            rfl
        · rw [ih, hLeft, referenced_erase]
    · have hNone : (count - victims.length).toNat = 0 := by omega
      rw [clockLoop, if_neg hMore, hNone]
      simp [SecondChance.sweep]

theorem nodup_clockLoop (d : Dict KvId EvictionRecord) (count : Int) (n : Nat)
    (e : EvictionEngine) (victims : List KvId) (h : e.clock.Nodup) :
    (clockLoop d count n e victims).2.clock.Nodup := by
  induction n generalizing e victims with
  | zero => exact h
  | succ n ih =>
    rw [clockLoop]
    split
    · cases hRing : e.clock with
      | nil => exact h
      | cons kid rest =>
        rw [hRing] at h
        obtain ⟨hNew, hRest⟩ := List.nodup_cons.mp h
        dsimp only
        split
        · split
          · exact ih _ _ (nodup_snoc hRest hNew)
          · exact ih _ _ hRest
        · exact ih _ _ hRest
    · exact h

theorem nodup_foldl_enter (ids : List KvId) (e : EvictionEngine) (h : e.clock.Nodup) :
    (ids.foldl enter e).clock.Nodup := by
  induction ids generalizing e with
  | nil => exact h
  | cons kid ids ih =>
    refine ih _ ?_
    rw [clock_enter]
    split
    · exact h
    · next hNew => exact nodup_snoc h hNew

theorem nodup_step (op : Op) (h : e.clock.Nodup) :
    (e.step op).clock.Nodup := by
  cases op with
  | observeAccess kvId =>
    simp only [step, observeAccess]
    split
    · exact h
    · next hNew => exact nodup_snoc h hNew
  | observe kvId frequent => exact h
  | setPageSignals signals => exact h
  | setPressure pressure => exact h
  | selectVictims time l bytesNeeded count refAware =>
    simp only [step, selectVictims]
    split
    · exact nodup_clockLoop _ _ _ _ _ (nodup_foldl_enter _ _ h)
    · exact h

theorem nodup_exec (policy : Option Policy) (name : EvictionPolicyName) (history : List Op) :
    (Run.exec step (new policy name) history).clock.Nodup :=
  Run.exec_of_invariant nodup_step List.nodup_nil history

-- ------ What a selection frees

/-- The order in which the hand comes to the evictable ids: from the front of the ring, new
ids last, those accessed since the hand passed after all others. -/
def clockOrder (e : EvictionEngine) (l : Listing) : List KvId :=
  let ids := l.evictable.map EvictionRecord.kvId
  SecondChance.order (fun kid => decide (kid ∈ ids)) e.referenced
    (e.clock ++ ids.filter fun kid => decide (kid ∉ e.clock))

/-- With the name CLOCK: the first `count` ids in the clock's order have the bytes, or there
are no more of them. -/
def ClockCovers (e : EvictionEngine) (l : Listing) (bytesNeeded count : Int) : Prop :=
  e.policyName = .clock →
    bytesNeeded ≤ l.total ((e.clockOrder l).take count.toNat) ∨ l.evictable.length ≤ count.toNat

instance (e : EvictionEngine) (l : Listing) (bytesNeeded count : Int) :
    Decidable (e.ClockCovers l bytesNeeded count) :=
  inferInstanceAs (Decidable (_ → _))

theorem filter_refAware (l : Listing) :
    (l.records.filter fun r => decide (r.refcount ≤ 1) && !r.pinned) = l.evictable :=
  List.filter_congr fun _ _ => Bool.and_comm _ _

theorem nodup_ring (l : Listing) (h : e.clock.Nodup) :
    (e.clock ++ (l.evictable.map EvictionRecord.kvId).filter
      fun kid => decide (kid ∉ e.clock)).Nodup := by
  refine List.nodup_append.mpr ⟨h, l.distinct_evictable.filter _, ?_⟩
  rintro k hk k' hk' rfl
  have hNew := (List.mem_filter.mp hk').2
  simp only [decide_eq_true_eq] at hNew
  exact hNew hk

theorem perm_clockOrder (l : Listing) (h : e.clock.Nodup) :
    (e.clockOrder l).Perm (l.evictable.map EvictionRecord.kvId) := by
  refine (SecondChance.perm_order _ _ _).trans ?_
  rw [List.perm_ext_iff_of_nodup ((e.nodup_ring l h).filter _) l.distinct_evictable]
  intro k
  by_cases hk : k ∈ e.clock <;> simp [hk]

theorem clockSelect_eq (l : Listing) (count : Int) (h : e.clock.Nodup) :
    (e.clockSelect l.evictable count).1 = (e.clockOrder l).take count.toNat := by
  have hLive : (byId l.evictable).contains =
      fun kid => decide (kid ∈ l.evictable.map EvictionRecord.kvId) := by
    funext kid
    rw [← l.byId_keys, Dict.contains, Bool.eq_iff_iff, decide_eq_true_eq, Dict.mem_keys_iff]
  have hRing := clock_foldl_enter _ e l.distinct_evictable
  simp only [clockSelect, l.byId_keys]
  rw [clockLoop_eq, referenced_foldl_enter, hRing, hLive,
    SecondChance.sweep_eq _ (e.nodup_ring l h)]
  · simp [clockOrder]
  · omega

/-- **Eviction.** After any history a selection frees what was asked, unless the clock's first
`count` records are too small. -/
theorem selectVictims_frees_iff (policy : Option Policy) (policyName : EvictionPolicyName)
    (history : List Op) (time : Nat → ℚ) (l : Listing) (bytesNeeded count : Int)
    (hNeeded : 0 < bytesNeeded) :
    Frees l bytesNeeded ((Run.exec step (new policy policyName) history).selectVictims time
        l.records bytesNeeded count).1 ↔
      (Run.exec step (new policy policyName) history).ClockCovers l bytesNeeded count := by
  have hNodup := nodup_exec policy policyName history
  generalize Run.exec step (new policy policyName) history = e at hNodup ⊢
  simp only [selectVictims, if_true, filter_refAware, ClockCovers]
  by_cases hClock : e.policyName = .clock
  · have hPerm := e.perm_clockOrder l hNodup
    have hLen : (e.clockOrder l).length = l.evictable.length := by
      rw [hPerm.length_eq, List.length_map]
    have hTaken : ((e.clockOrder l).take count.toNat).Nodup :=
      (hPerm.nodup_iff.mpr l.distinct_evictable).sublist (List.take_sublist _ _)
    have hEnough : l.evictable.length ≤ ((e.clockOrder l).take count.toNat).length ↔
        l.evictable.length ≤ count.toNat := by
      rw [List.length_take, hLen]
      omega
    rw [if_pos hClock, if_neg (show ¬bytesNeeded ≤ 0 by omega), max_self,
      clockSelect_eq e l count hNodup,
      frees_iff hTaken fun k hk => hPerm.mem_iff.mp (List.mem_of_mem_take hk), hEnough]
    exact ⟨fun h _ => h, fun h => h hClock⟩
  · rw [if_neg hClock]
    have hFrees (p : Policy) : Frees l bytesNeeded
        (p.selectVictims time l.evictable bytesNeeded count).1 := by
      rw [Listing.evictable, p.selectVictims_filter time l.records bytesNeeded count fun _ h => h]
      exact p.selectVictims_frees time l count hNeeded
    exact iff_of_true (hFrees _) fun h => absurd h hClock

def twoSmall : Listing where
  records := [{ kvId := ⟨0⟩, kvSize := 10 }, { kvId := ⟨1⟩, kvSize := 10 }]
  distinct := by decide

theorem selectVictims_frees_iff_clock :
    Frees twoSmall 5 ((Run.exec step (new none .clock) [.observeAccess ⟨0⟩]).selectVictims
        (fun _ => 0) twoSmall.records 5 1).1 ↔
      (Run.exec step (new none .clock) [.observeAccess ⟨0⟩]).ClockCovers twoSmall 5 1 :=
  selectVictims_frees_iff none .clock [.observeAccess ⟨0⟩] (fun _ => 0) twoSmall 5 1 (by decide)

/-- The clock returns one of two records where both are needed. -/
theorem not_frees_twoSmall :
    ¬∀ (policy : Option Policy) (policyName : EvictionPolicyName) (history : List Op)
      (time : Nat → ℚ) (l : Listing) (bytesNeeded count : Int), 0 < bytesNeeded →
      Frees l bytesNeeded ((Run.exec step (new policy policyName) history).selectVictims time
        l.records bytesNeeded count).1 := by
  intro h
  have hFrees := h none .clock [] (fun _ => 0) twoSmall 20 1 (by decide)
  have hVictims : ((Run.exec step (new none .clock) []).selectVictims (fun _ => 0)
      twoSmall.records 20 1).1 = [⟨0⟩] := by decide +kernel
  rw [hVictims] at hFrees
  have hEnough := hFrees.enough
  revert hEnough
  decide

end EvictionEngine

end Neuroswarm.Maks
