import Neuroswarm.Maks.Grounded

/-!
# MAKS — the lifecycle and the registry

Every operation asks the lifecycle manager for a transition, ignores the answer
and writes the registry. The two copies of a block's state agree exactly as long
as no operation asks for a forbidden transition.

Three can: `_TRANSITIONS` has no way from `ALLOCATED` or `RELEASED` to
`MIGRATED`, none from `RELEASED` to `PINNED`, and none from `RELEASED` to
`SHARED`, which `unpin` returns a block with readers to. `share`, `release` and
`warm` are allowed from every state a block can be in.

* `Tracked` — the invariant: both copies agree, on a state no operation has
  ended (`EVICTED` and `DESTROYED` are never written to the registry).
* `Advances` — what an operation on one block does to the two copies.
* `statesAgree_along` — in a run whose steps stay clear of the three, the
  registry state is the lifecycle state in every state visited and every change
  of it is in `_TRANSITIONS`.
-/

namespace Neuroswarm.Maks

open Neuroswarm.Kv (Bytes Time encode)

namespace KVManager

variable {S : Setup} {m m' m₁ m₂ : KVManager} {kvId : KvId}

-- ------ Agreement and legal changes

def stateOf (m : KVManager) (k : KvId) : Option KVState :=
  (m.registry.get k).map KVRegistryRecord.state

/-- Every live record is in the state the lifecycle manager has for it. -/
def StatesAgree (m : KVManager) : Prop :=
  ∀ k rec, m.registry.get k = some rec → m.lifecycle.get? k = some rec.state

/-- A state is kept or left by a declared transition; a block may come or go. -/
def LegalAt (s s' : Option KVState) : Prop :=
  ∀ x, s = some x → ∀ y, s' = some y → y = x ∨ y ∈ transitions x

def LegalChange (m m' : KVManager) : Prop :=
  ∀ k, LegalAt (m.stateOf k) (m'.stateOf k)

/-- The states operations write to the registry. -/
def writtenStates : List KVState := [.allocated, .warmed, .shared, .pinned, .migrated, .released]

/-- Both copies agree on a written state. -/
def Tracked (m : KVManager) : Prop :=
  ∀ k x, m.stateOf k = some x → m.lifecycle.get? k = some x ∧ x ∈ writtenStates

theorem Tracked.statesAgree (h : m.Tracked) : m.StatesAgree := by
  intro k rec hrec
  refine (h k rec.state ?_).1
  unfold stateOf
  rw [hrec, Option.map_some]

theorem LegalAt.refl (s : Option KVState) : LegalAt s s := by
  intro x hx y hy
  rw [hx] at hy
  exact .inl (Option.some.inj hy).symm

theorem LegalAt.of_none (s : Option KVState) : LegalAt s none := by
  intro x _ y hy
  cases hy

/-- Nothing a step did is visible in the two copies. -/
structure SameStates (m m' : KVManager) : Prop where
  states : ∀ k, m'.stateOf k = m.stateOf k
  lifecycle : m'.lifecycle = m.lifecycle

/-- A step concerned one block, kept the invariant and changed the state legally. -/
structure Advances (kvId : KvId) (m m' : KVManager) : Prop where
  tracked : m'.Tracked
  other : ∀ k, k ≠ kvId → m'.stateOf k = m.stateOf k
  legal : LegalAt (m.stateOf kvId) (m'.stateOf kvId)

theorem SameStates.tracked (h : SameStates m m') (hT : m.Tracked) : m'.Tracked := by
  intro k x hx
  rw [h.states] at hx
  rw [h.lifecycle]
  exact hT k x hx

theorem SameStates.advances (h : SameStates m m') (hT : m.Tracked) (kvId : KvId) :
    Advances kvId m m' where
  tracked := h.tracked hT
  other k _ := h.states k
  legal := by
    rw [h.states]
    exact .refl _

theorem SameStates.trans_advances (h : SameStates m m₁) (hA : Advances kvId m₁ m₂) :
    Advances kvId m m₂ where
  tracked := hA.tracked
  other k hk := (hA.other k hk).trans (h.states k)
  legal := by
    rw [← h.states]
    exact hA.legal

theorem Advances.trans_same (hA : Advances kvId m m₁) (h : SameStates m₁ m₂) :
    Advances kvId m m₂ where
  tracked := h.tracked hA.tracked
  other k hk := (h.states k).trans (hA.other k hk)
  legal := by
    rw [h.states]
    exact hA.legal

theorem Advances.legalChange (h : Advances kvId m m') : LegalChange m m' := by
  intro k
  by_cases hk : k = kvId
  · rw [hk]
    exact h.legal
  · rw [h.other k hk]
    exact .refl _

-- ------ The updates operations are made of

theorem sameStates_of_eq (hreg : m'.registry = m.registry) (hlc : m'.lifecycle = m.lifecycle) :
    SameStates m m' :=
  ⟨fun k => by unfold stateOf; rw [hreg], hlc⟩

variable {rec : KVRegistryRecord}

theorem sameStates_of_upsert (rec' : KVRegistryRecord) (hreg : m'.registry = m.registry.upsert rec')
    (hlc : m'.lifecycle = m.lifecycle) (hrec : m.registry.get rec.kvId = some rec)
    (hid : rec'.kvId = rec.kvId) (hs : rec'.state = rec.state) : SameStates m m' := by
  refine ⟨fun k => ?_, hlc⟩
  unfold stateOf
  rw [hreg, KVRegistry.get_upsert, hid]
  by_cases hk : k = rec.kvId
  · rw [if_pos hk, hk, hrec, Option.map_some, Option.map_some, hs]
  · rw [if_neg hk]

theorem advances_of_write {s : KVState} (hT : m.Tracked) (hs : s ∈ writtenStates)
    (hAllowed : ∀ x, m.stateOf kvId = some x → s = x ∨ s ∈ transitions x)
    (hreg : ∀ k, m'.stateOf k = if k = kvId then (m.stateOf k).map fun _ => s else m.stateOf k)
    (hlc : m'.lifecycle = LifecycleManager.tryTransition m.lifecycle kvId s) :
    Advances kvId m m' := by
  refine ⟨?_, fun k hk => by rw [hreg, if_neg hk], ?_⟩
  · intro k y hy
    rw [hreg] at hy
    rw [hlc]
    by_cases hk : k = kvId
    · subst hk
      rw [if_pos rfl] at hy
      obtain ⟨x, hx, rfl⟩ := Option.map_eq_some_iff.mp hy
      refine ⟨?_, hs⟩
      rw [LifecycleManager.get?_tryTransition_self (hT k x hx).1]
      rcases hAllowed x hx with rfl | hmem
      · rw [ite_self]
      · rw [if_pos hmem]
    · rw [if_neg hk] at hy
      rw [LifecycleManager.get?_tryTransition_ne _ _ hk]
      exact hT k y hy
  · intro x hx y hy
    rw [hreg, if_pos rfl, hx] at hy
    rw [← Option.some.inj hy]
    exact hAllowed x hx

theorem stateOf_setState (m : KVManager) (kvId : KvId) (s : KVState) (k : KvId) :
    ((m.registry.setState kvId s).get k).map KVRegistryRecord.state =
      if k = kvId then (m.stateOf k).map fun _ => s else m.stateOf k := by
  unfold stateOf
  rw [KVRegistry.get_setState]
  by_cases hk : k = kvId
  · rw [if_pos hk, if_pos hk, Option.map_map, Option.map_map]
    rfl
  · rw [if_neg hk, if_neg hk]

theorem advances_writeState {s : KVState} (hT : m.Tracked) (hs : s ∈ writtenStates)
    (hAllowed : ∀ x, m.stateOf kvId = some x → s = x ∨ s ∈ transitions x) :
    Advances kvId m (m.writeState kvId s) :=
  advances_of_write hT hs hAllowed (stateOf_setState m kvId s) rfl

theorem Migrated.advances {p : ProviderName} (h : Migrated S m kvId p rec m') (hT : m.Tracked)
    (hAllowed : ∀ x, m.stateOf kvId = some x → KVState.migrated = x ∨ .migrated ∈ transitions x) :
    Advances kvId m m' := by
  refine advances_of_write (s := .migrated) hT (by decide) hAllowed (fun k => ?_) h.lifecycle
  unfold stateOf
  rw [h.registry]
  by_cases hk : k = kvId
  · rw [if_pos hk, if_pos hk, hk, h.found]
    rfl
  · rw [if_neg hk, if_neg hk]

theorem advances_destroy (hT : m.Tracked) (rec : KVRegistryRecord) :
    Advances rec.kvId m (destroy S m rec) := by
  have hreg : ∀ k, (destroy S m rec).stateOf k = if k = rec.kvId then none else m.stateOf k := by
    intro k
    unfold stateOf destroy
    dsimp only
    rw [KVRegistry.get_delete]
    split <;> rfl
  refine ⟨?_, fun k hk => by rw [hreg, if_neg hk], ?_⟩
  · intro k x hx
    rw [hreg] at hx
    split at hx
    · cases hx
    · next hk =>
      have hlc : (destroy S m rec).lifecycle.get? k = m.lifecycle.get? k :=
        (Dict.get?_erase_ne _ hk).trans (LifecycleManager.get?_tryTransition_ne _ _ hk)
      rw [hlc]
      exact hT k x hx
  · rw [hreg, if_pos rfl]
    exact .of_none _

theorem advances_install (hT : m.Tracked) (hNew : m.registry.get kvId = none)
    (req : CreateRequest) (location : Location) (dedupKey : String) :
    Advances kvId m (install S m req kvId location dedupKey) := by
  have hreg : ∀ k, (install S m req kvId location dedupKey).stateOf k =
      if k = kvId then some .allocated else m.stateOf k := by
    intro k
    unfold stateOf install
    dsimp only
    rw [KVRegistry.get_upsert]
    show (if k = kvId then _ else _ : Option KVRegistryRecord).map _ = _
    split <;> rfl
  refine ⟨?_, fun k hk => by rw [hreg, if_neg hk], ?_⟩
  · intro k x hx
    rw [hreg] at hx
    show (m.lifecycle.set kvId .allocated).get? k = some x ∧ _
    rw [Dict.get?_set]
    split at hx
    · next hk =>
      rw [if_pos hk]
      exact ⟨hx, by rw [← Option.some.inj hx]; decide⟩
    · next hk =>
      rw [if_neg hk]
      exact hT k x hx
  · intro x hx
    unfold stateOf at hx
    rw [hNew] at hx
    cases hx

-- ------ The condition

/-- The block is gone, or neither `ALLOCATED` nor `RELEASED`. -/
def movable (m : KVManager) (kvId : KvId) : Bool :=
  m.stateOf kvId ≠ some .allocated && m.stateOf kvId ≠ some .released

/-- The block is gone or not `RELEASED`. -/
def unreleased (m : KVManager) (kvId : KvId) : Bool := m.stateOf kvId ≠ some .released

variable (S) in
/-- No victim that gets paged out is `ALLOCATED` or `RELEASED`. -/
def ReliefMovable (m : KVManager) (picked : List KvId) : Prop :=
  Run.Every (relieveOne S) (fun m k => reliefKind S m k = .pagedOut → m.movable k = true) m
    (m.selectVictims picked)

instance (m : KVManager) (picked : List KvId) : Decidable (ReliefMovable S m picked) :=
  inferInstanceAs (Decidable (Run.Every _ _ _ _))

/-- The pager moved the block. -/
def paged : Except MAKSError (Option Location) → Bool
  | .ok (some _) => true
  | _ => false

variable (S) in
/-- The operation asks for no forbidden transition: a block that migrates (by
`migrate`, by the pager or as a victim of pressure) is neither `ALLOCATED` nor
`RELEASED`, and a block that is pinned, or unpinned with readers, is not
`RELEASED`. -/
def AsksAllowed (m : KVManager) : Op → Prop
  | .migrate kvId target => returned (migrate S m kvId target).2 = true → m.movable kvId = true
  | .pageOut kvId => paged (pageOut S m kvId).2 = true → m.movable kvId = true
  | .pageIn kvId => paged (pageIn S m kvId).2 = true → m.movable kvId = true
  | .pin kvId => m.unreleased kvId = true
  | .unpin kvId =>
    (m.registry.get kvId).map unpinTarget = some .shared → m.unreleased kvId = true
  | .relievePressure picked => ReliefMovable S m picked
  | .create req => req.env.accepted = false → ReliefMovable S m req.env.victims
  | .store key data env =>
    returned (packPayload S data) = true → (m.findBySession S key).isNone = true →
      env.accepted = false → ReliefMovable S m env.victims
  | _ => True

instance (m : KVManager) : DecidablePred (AsksAllowed S m)
  | .migrate kvId _ => inferInstanceAs (Decidable (_ → m.movable kvId = true))
  | .pageOut kvId => inferInstanceAs (Decidable (_ → m.movable kvId = true))
  | .pageIn kvId => inferInstanceAs (Decidable (_ → m.movable kvId = true))
  | .pin kvId => inferInstanceAs (Decidable (m.unreleased kvId = true))
  | .unpin kvId => inferInstanceAs (Decidable (_ → m.unreleased kvId = true))
  | .relievePressure picked => inferInstanceAs (Decidable (ReliefMovable S m picked))
  | .create req => inferInstanceAs (Decidable (_ → ReliefMovable S m req.env.victims))
  | .store _ _ env => inferInstanceAs (Decidable (_ → _ → _ → ReliefMovable S m env.victims))
  | .share _ _ => isTrue trivial
  | .release _ _ => isTrue trivial
  | .delete _ _ => isTrue trivial
  | .warm _ => isTrue trivial
  | .cold _ => isTrue trivial
  | .cleanup _ => isTrue trivial

-- ------ Step lemmas

theorem Tracked.migrated_allowed (hT : m.Tracked) (h : m.movable kvId = true) :
    ∀ x, m.stateOf kvId = some x → KVState.migrated = x ∨ .migrated ∈ transitions x := by
  intro x hx
  have hW := (hT kvId x hx).2
  unfold movable at h
  rw [hx] at h
  cases x <;> simp_all [transitions, writtenStates]

theorem Tracked.warmed_allowed (hT : m.Tracked) :
    ∀ x, m.stateOf kvId = some x → KVState.warmed = x ∨ .warmed ∈ transitions x := by
  intro x hx
  have hW := (hT kvId x hx).2
  cases x <;> simp_all [transitions, writtenStates]

theorem Tracked.released_allowed (hT : m.Tracked) :
    ∀ x, m.stateOf kvId = some x → KVState.released = x ∨ .released ∈ transitions x := by
  intro x hx
  have hW := (hT kvId x hx).2
  cases x <;> simp_all [transitions, writtenStates]

theorem Tracked.shared_allowed (hT : m.Tracked) (h : m.unreleased kvId = true) :
    ∀ x, m.stateOf kvId = some x → KVState.shared = x ∨ .shared ∈ transitions x := by
  intro x hx
  have hW := (hT kvId x hx).2
  unfold unreleased at h
  rw [hx] at h
  cases x <;> simp_all [transitions, writtenStates]

theorem Tracked.pinned_allowed (hT : m.Tracked) (h : m.unreleased kvId = true) :
    ∀ x, m.stateOf kvId = some x → KVState.pinned = x ∨ .pinned ∈ transitions x := by
  intro x hx
  have hW := (hT kvId x hx).2
  unfold unreleased at h
  rw [hx] at h
  cases x <;> simp_all [transitions, writtenStates]

theorem advances_of_eq (hT : m.Tracked) (kvId : KvId) (hreg : m'.registry = m.registry)
    (hlc : m'.lifecycle = m.lifecycle) : Advances kvId m m' :=
  (sameStates_of_eq hreg hlc).advances hT kvId

theorem advances_delete (hT : m.Tracked) (kvId : KvId) (force : Bool) :
    Advances kvId m (delete S m kvId force).1 := by
  have hOutcome := delete_outcome (S := S) m kvId force
  generalize (delete S m kvId force).1 = m' at hOutcome ⊢
  cases hOutcome with
  | kept _ => exact advances_of_eq hT kvId rfl rfl
  | destroyed rec _ => exact advances_destroy hT rec

theorem SameStates.unreleased (h : SameStates m m') :
    m'.unreleased kvId = m.unreleased kvId := by
  unfold KVManager.unreleased
  rw [h.states]

theorem advances_share (hT : m.Tracked) (kvId : KvId) (consumer : Name) :
    Advances kvId m (share S m kvId consumer).1 := by
  have hOutcome := share_outcome (S := S) m kvId consumer
  generalize share S m kvId consumer = out at hOutcome ⊢
  cases hOutcome with
  | refused _ e => exact advances_of_eq hT kvId rfl rfl
  | failed _ b e _ => exact advances_of_eq hT kvId rfl rfl
  | granted rec b hrec _ =>
    have hSame : SameStates m (m.granted b rec consumer) :=
      sameStates_of_upsert _ rfl rfl hrec rfl rfl
    exact hSame.advances hT _
  | moved rec b hrec _ hFrom =>
    have hSame : SameStates m (m.granted b rec consumer) :=
      sameStates_of_upsert _ rfl rfl hrec rfl rfl
    -- only an `ALLOCATED` or `WARMED` block is moved to `SHARED`
    refine hSame.trans_advances (advances_writeState (hSame.tracked hT) (by decide) ?_)
    refine (hSame.tracked hT).shared_allowed ?_
    rw [hSame.unreleased]
    unfold unreleased
    rw [decide_eq_true_eq]
    intro hRel
    rw [(hT _ _ hRel).1] at hFrom
    simp at hFrom

theorem advances_release (hT : m.Tracked) (kvId : KvId) (agent : Name) :
    Advances kvId m (m.release kvId agent) := by
  have hOutcome := release_outcome m kvId agent
  generalize m.release kvId agent = m' at hOutcome ⊢
  cases hOutcome with
  | unknown _ _ => exact advances_of_eq hT kvId rfl rfl
  | dropped rec hrec =>
    have hSame : SameStates m (m.dropped rec agent) :=
      sameStates_of_upsert _ rfl rfl hrec rfl rfl
    exact hSame.advances hT _
  | released rec hrec =>
    have hSame : SameStates m (m.dropped rec agent) :=
      sameStates_of_upsert _ rfl rfl hrec rfl rfl
    exact hSame.trans_advances (advances_writeState (hSame.tracked hT) (by decide)
      (hSame.tracked hT).released_allowed)

theorem advances_migrate (hT : m.Tracked) (kvId : KvId) (target : Target)
    (hC : returned (migrate S m kvId target).2 = true → m.movable kvId = true) :
    Advances kvId m (migrate S m kvId target).1 := by
  rcases migrate_cases (S := S) m kvId target with
    ⟨b, e, hb, hEq⟩ | ⟨p, rec, m', loc, -, hM, hEq⟩
  · rw [hEq]
    exact advances_of_eq hT kvId rfl rfl
  · rw [hEq] at hC ⊢
    exact hM.advances hT (hT.migrated_allowed (hC rfl))

theorem advances_pageOut (hT : m.Tracked) (kvId : KvId)
    (hC : paged (pageOut S m kvId).2 = true → m.movable kvId = true) :
    Advances kvId m (pageOut S m kvId).1 := by
  rcases pageOut_cases (S := S) m kvId with ⟨b, e, hb, hEq⟩ | hEq | ⟨p, rec, m', loc, hM, hEq⟩
  · rw [hEq]
    exact advances_of_eq hT kvId rfl rfl
  · rw [hEq]
    exact advances_of_eq hT kvId rfl rfl
  · rw [hEq] at hC ⊢
    exact hM.advances hT (hT.migrated_allowed (hC rfl))

theorem advances_pageIn (hT : m.Tracked) (kvId : KvId)
    (hC : paged (pageIn S m kvId).2 = true → m.movable kvId = true) :
    Advances kvId m (pageIn S m kvId).1 := by
  rcases pageIn_cases (S := S) m kvId with ⟨b, e, hb, hEq⟩ | hEq | ⟨p, rec, m', loc, hM, hEq⟩
  · rw [hEq]
    exact advances_of_eq hT kvId rfl rfl
  · rw [hEq]
    exact advances_of_eq hT kvId rfl rfl
  · rw [hEq] at hC ⊢
    exact hM.advances hT (hT.migrated_allowed (hC rfl))

theorem sameStates_flagged (hrec : m.registry.get rec.kvId = some rec) (flag : Bool) :
    SameStates m (m.flagged rec flag) :=
  sameStates_of_upsert _ rfl rfl hrec rfl rfl

theorem advances_pin (hT : m.Tracked) (kvId : KvId) (hC : m.unreleased kvId = true) :
    Advances kvId m (m.pin kvId).1 := by
  unfold pin
  cases hrec : m.registry.get kvId with
  | none => exact advances_of_eq hT kvId rfl rfl
  | some rec =>
    obtain rfl := KVRegistry.kvId_of_get hrec
    have hSame := sameStates_flagged hrec true
    exact hSame.trans_advances (advances_writeState (hSame.tracked hT) (by decide)
      ((hSame.tracked hT).pinned_allowed (by rw [hSame.unreleased]; exact hC)))

theorem advances_unpin (hT : m.Tracked) (kvId : KvId)
    (hC : (m.registry.get kvId).map unpinTarget = some .shared → m.unreleased kvId = true) :
    Advances kvId m (m.unpin kvId).1 := by
  unfold unpin
  cases hrec : m.registry.get kvId with
  | none => exact advances_of_eq hT kvId rfl rfl
  | some rec =>
    obtain rfl := KVRegistry.kvId_of_get hrec
    have hSame := sameStates_flagged hrec false
    rw [hrec, Option.map_some, Option.some.injEq] at hC
    dsimp only
    by_cases hr : rec.readers = []
    · have hTarget : unpinTarget rec = .warmed := if_pos hr
      rw [hTarget]
      exact hSame.trans_advances (advances_writeState (hSame.tracked hT) (by decide)
        (hSame.tracked hT).warmed_allowed)
    · have hTarget : unpinTarget rec = .shared := if_neg hr
      rw [hTarget]
      exact hSame.trans_advances (advances_writeState (hSame.tracked hT) (by decide)
        ((hSame.tracked hT).shared_allowed (by rw [hSame.unreleased]; exact hC hTarget)))

theorem sameStates_movedBehind (hrec : m.registry.get kvId = some rec) (p : ProviderName)
    (b : Backends) : SameStates m (m.movedBehind rec p b) := by
  obtain rfl := KVRegistry.kvId_of_get hrec
  exact sameStates_of_upsert (moved rec p) rfl rfl hrec rfl rfl

theorem sameStates_promote (m : KVManager) (kvId : KvId) :
    SameStates m (promote S m kvId).1 := by
  rcases promote_cases (S := S) m kvId with
    ⟨b, e, hb, hEq⟩ | hEq | ⟨rec, p, b, loc, hrec, hp, hb, hEq⟩
  · rw [hEq]
    exact sameStates_of_eq rfl rfl
  · rw [hEq]
    exact sameStates_of_eq rfl rfl
  · rw [hEq]
    exact sameStates_movedBehind hrec p b

theorem sameStates_setTier (m : KVManager) (kvId : KvId) (tier : KVTier) :
    SameStates m { m with registry := m.registry.setTier kvId tier } := by
  refine ⟨fun k => ?_, rfl⟩
  unfold stateOf
  dsimp only
  rw [KVRegistry.get_setTier]
  split
  · rw [Option.map_map]
    rfl
  · rfl

theorem advances_warm (hT : m.Tracked) (kvId : KvId) : Advances kvId m (warm S m kvId).1 := by
  unfold warm
  cases hrec : m.registry.get kvId with
  | none => exact advances_of_eq hT kvId rfl rfl
  | some rec =>
    have hSame : SameStates m (if rec.provider = .ram then m else (promote S m kvId).1) := by
      split
      · exact sameStates_of_eq rfl rfl
      · exact sameStates_promote m kvId
    exact (hSame.trans_advances (advances_writeState (hSame.tracked hT) (by decide)
      (hSame.tracked hT).warmed_allowed)).trans_same (sameStates_setTier _ kvId .hot)

theorem advances_cold (hT : m.Tracked) (kvId : KvId) : Advances kvId m (m.cold kvId).1 := by
  unfold cold
  cases hrec : m.registry.get kvId with
  | none => exact advances_of_eq hT kvId rfl rfl
  | some rec =>
    dsimp only
    split
    · exact advances_of_eq hT kvId rfl rfl
    · exact (sameStates_setTier m kvId .cold).advances hT kvId

-- ------ Operations on several blocks

theorem advances_relieveOne (hT : m.Tracked) (kvId : KvId)
    (hC : reliefKind S m kvId = .pagedOut → m.movable kvId = true) :
    Advances kvId m (relieveOne S m kvId) := by
  have hR := relieveOne_relief (S := S) m kvId
  generalize reliefKind S m kvId = kind at hR hC
  generalize hEq : relieveOne S m kvId = m₁ at hR
  cases hR with
  | left b hb => exact advances_of_eq hT kvId rfl rfl
  | pagedOut p rec m' hM => exact hM.advances hT (hT.migrated_allowed (hC rfl))
  | demoted rec p b₀ b hb₀ hrec hp hb => exact (sameStates_movedBehind hrec p b).advances hT kvId
  | destroyed rec b hb hrec hpin =>
    obtain rfl := KVRegistry.kvId_of_get hrec
    have hSame : SameStates m { m with backends := b } := sameStates_of_eq rfl rfl
    exact hSame.trans_advances (advances_destroy (hSame.tracked hT) rec)

theorem relieve_legal (victims : List KvId) (hn : victims.Nodup) (m : KVManager) (hT : m.Tracked)
    (hC : Run.Every (relieveOne S)
      (fun m k => reliefKind S m k = .pagedOut → m.movable k = true) m victims) :
    (victims.foldl (relieveOne S) m).Tracked ∧
    (∀ k, k ∉ victims → (victims.foldl (relieveOne S) m).stateOf k = m.stateOf k) ∧
    LegalChange m (victims.foldl (relieveOne S) m) := by
  induction victims generalizing m with
  | nil => exact ⟨hT, fun _ _ => rfl, fun k => .refl _⟩
  | cons v victims ih =>
    rw [List.nodup_cons] at hn
    have hHead := advances_relieveOne hT v hC.1
    obtain ⟨hTracked, hOther, hLegal⟩ := ih hn.2 _ hHead.tracked hC.2
    rw [List.foldl_cons]
    refine ⟨hTracked, ?_, ?_⟩
    · intro k hk
      rw [List.mem_cons, not_or] at hk
      rw [hOther k hk.2, hHead.other k hk.1]
    · intro k
      by_cases hk : k = v
      · rw [hk, hOther v hn.1]
        exact hHead.legal
      · rw [← hHead.other k hk]
        exact hLegal k

theorem relievePressure_legal (hT : m.Tracked) (picked : List KvId)
    (hC : ReliefMovable S m picked) :
    (relievePressure S m picked).Tracked ∧ LegalChange m (relievePressure S m picked) := by
  obtain ⟨hTracked, -, hLegal⟩ :=
    relieve_legal (m.selectVictims picked) (nodup_selectVictims m picked) m hT hC
  exact ⟨hTracked, hLegal⟩

theorem place_states (hG : m.Grounded) (hT : m.Tracked) (req : CreateRequest) :
    (place S m req).1.Tracked ∧
    ∀ k, k ≠ ⟨m.drawn⟩ → (place S m req).1.stateOf k = m.stateOf k := by
  rcases place_cases (S := S) m req with
    ⟨dedup, ent, rec, -, -, hrec, -, hEq⟩ | ⟨dedup, -, hEq⟩
  · rw [hEq]
    have hSame : SameStates m (reuse { m with dedup := dedup } rec req) := by
      refine ⟨fun k => ?_, rfl⟩
      unfold stateOf
      rw [get_reuse]
      by_cases hk : k = rec.kvId
      · rw [if_pos hk, hk, KVRegistry.kvId_of_get hrec, hrec, Option.map_some, Option.map_some]
        rfl
      · rw [if_neg hk]
    exact ⟨hSame.tracked hT, fun k _ => hSame.states k⟩
  · rw [hEq]
    cases hOut : allocateNew S { m with dedup := dedup } req with
    | mk m₁ r =>
      have := allocateNew_outcome (S := S) { m with dedup := dedup } req
      rw [hOut] at this
      cases this with
      | refused e =>
        have hSame : SameStates m { m with dedup := dedup, drawn := m.drawn + 1 } :=
          sameStates_of_eq rfl rfl
        exact ⟨hSame.tracked hT, fun k _ => hSame.states k⟩
      | leaked e b dedup' hb hd =>
        have hSame : SameStates m
            { m with
              drawn := m.drawn + 1
              allocated := m.allocated + req.payload.length
              backends := b
              dedup := dedup' } := sameStates_of_eq rfl rfl
        exact ⟨hSame.tracked hT, fun k _ => hSame.states k⟩
      | installed p stored b dedup' dedupKey hpack hb hd =>
        have hSame : SameStates m
            { m with
              drawn := m.drawn + 1
              allocated := m.allocated + req.payload.length
              backends := b
              dedup := dedup' } := sameStates_of_eq rfl rfl
        have hAdv := advances_install (S := S) (hSame.tracked hT) hG.fresh req
          ⟨p, ⟨m.drawn⟩⟩ dedupKey
        exact ⟨hAdv.tracked, hAdv.other⟩

theorem place_legal {m₁ : KVManager} (hG : m.Grounded) (hG₁ : m₁.Grounded) (hT : m₁.Tracked)
    (hDrawn : m₁.drawn = m.drawn) (hL : LegalChange m m₁) (req : CreateRequest) :
    (place S m₁ req).1.Tracked ∧ LegalChange m (place S m₁ req).1 := by
  obtain ⟨hTracked, hSame⟩ := place_states (S := S) hG₁ hT req
  refine ⟨hTracked, fun k x hx => ?_⟩
  have hk : k ≠ ⟨m₁.drawn⟩ := by
    rintro rfl
    unfold stateOf at hx
    rw [hDrawn, hG.fresh] at hx
    cases hx
  rw [hSame k hk]
  exact hL k x hx

theorem create_legal (hG : m.Grounded) (hT : m.Tracked) (req : CreateRequest)
    (hC : req.env.accepted = false → ReliefMovable S m req.env.victims) :
    (create S m req).1.Tracked ∧ LegalChange m (create S m req).1 := by
  unfold create
  cases hAcc : req.env.accepted with
  | true => exact place_legal hG hG hT rfl (fun k => .refl _) req
  | false =>
    obtain ⟨hT₁, hL₁⟩ := relievePressure_legal hT req.env.victims (hC hAcc)
    dsimp only
    rw [if_neg Bool.false_ne_true]
    split
    · exact place_legal hG (hG.relievePressure _) hT₁ (drawn_relievePressure m _) hL₁ req
    · exact ⟨hT₁, hL₁⟩

theorem store_legal (hG : m.Grounded) (hT : m.Tracked) (key : Name) (data : Bytes) (env : Env)
    (hC : AsksAllowed S m (.store key data env)) :
    (store S m key data env).1.Tracked ∧ LegalChange m (store S m key data env).1 := by
  have hC : returned (packPayload S data) = true → (m.findBySession S key).isNone = true →
    env.accepted = false → ReliefMovable S m env.victims := hC
  have hSame : ∀ m₁, SameStates m m₁ → m₁.Tracked ∧ LegalChange m m₁ := fun m₁ h =>
    ⟨h.tracked hT, (h.advances hT ⟨0⟩).legalChange⟩
  have hOutcome := store_outcome (S := S) m key data env
  generalize store S m key data env = out at hOutcome ⊢
  cases hOutcome with
  | refused e => exact hSame m (sameStates_of_eq rfl rfl)
  | failed rec b e _ _ => exact hSame _ (sameStates_of_eq rfl rfl)
  | overwritten rec b stored hFound _ _ =>
    exact hSame _ (sameStates_of_upsert (resized rec data) rfl rfl (findBySession_get hFound)
      rfl rfl)
  | created stored r hFound hpack =>
    rw [hpack, hFound] at hC
    exact create_legal hG hT _ (hC rfl rfl)

theorem sweep_legal (now : Time) (recs : List KVRegistryRecord) (m₁ : KVManager)
    (hT : m₁.Tracked) (hSub : ∀ k x, m₁.stateOf k = some x → m.stateOf k = some x) :
    (recs.foldl (sweepOne S now) m₁).Tracked ∧
    ∀ k x, (recs.foldl (sweepOne S now) m₁).stateOf k = some x → m.stateOf k = some x := by
  induction recs generalizing m₁ with
  | nil => exact ⟨hT, hSub⟩
  | cons rec recs ih =>
    rw [List.foldl_cons]
    have hStep : (sweepOne S now m₁ rec).Tracked ∧
        ∀ k x, (sweepOne S now m₁ rec).stateOf k = some x → m₁.stateOf k = some x := by
      unfold sweepOne
      split
      · unfold delete
        cases hrec : m₁.registry.get rec.kvId with
        | none => exact ⟨hT, fun _ _ h => h⟩
        | some r =>
          dsimp only
          rw [if_neg (by simp)]
          have hAdv := advances_destroy (S := S) hT r
          refine ⟨hAdv.tracked, fun k x hx => ?_⟩
          by_cases hk : k = r.kvId
          · unfold stateOf destroy at hx
            dsimp only at hx
            rw [KVRegistry.get_delete, if_pos hk] at hx
            cases hx
          · rw [← hAdv.other k hk]
            exact hx
      · exact ⟨hT, fun _ _ h => h⟩
    exact ih _ hStep.1 fun k x hx => hSub k x (hStep.2 k x hx)

theorem cleanup_legal (hT : m.Tracked) (now : Time) :
    (cleanup S m now).Tracked ∧ LegalChange m (cleanup S m now) := by
  obtain ⟨hTracked, hSub⟩ :=
    sweep_legal (S := S) now (m.registry.allRecords S.rank) m hT fun _ _ h => h
  have hSame : SameStates _ (cleanup S m now) :=
    sameStates_of_eq (m := (m.registry.allRecords S.rank).foldl (sweepOne S now) m) rfl rfl
  refine ⟨hSame.tracked hTracked, fun k x hx y hy => ?_⟩
  rw [hSame.states] at hy
  rw [hSub k y hy] at hx
  exact .inl (Option.some.inj hx)

theorem step_legal (op : Op) (hG : m.Grounded) (hT : m.Tracked) (hC : AsksAllowed S m op) :
    (step S m op).Tracked ∧ LegalChange m (step S m op) := by
  have hOne : ∀ {k m₁}, Advances k m m₁ → m₁.Tracked ∧ LegalChange m m₁ := fun h =>
    ⟨h.tracked, h.legalChange⟩
  cases op with
  | create req => exact create_legal hG hT req hC
  | store key data env => exact store_legal hG hT key data env hC
  | share kvId consumer => exact hOne (advances_share hT kvId consumer)
  | release kvId agent => exact hOne (advances_release hT kvId agent)
  | migrate kvId target => exact hOne (advances_migrate hT kvId target hC)
  | delete kvId force => exact hOne (advances_delete hT kvId force)
  | pin kvId => exact hOne (advances_pin hT kvId hC)
  | unpin kvId => exact hOne (advances_unpin hT kvId hC)
  | warm kvId => exact hOne (advances_warm hT kvId)
  | cold kvId => exact hOne (advances_cold hT kvId)
  | cleanup now => exact cleanup_legal hT now
  | relievePressure picked => exact relievePressure_legal hT picked hC
  | pageOut kvId => exact hOne (advances_pageOut hT kvId hC)
  | pageIn kvId => exact hOne (advances_pageIn hT kvId hC)

-- ------ Runs

theorem tracked_init : (init S).Tracked := by
  intro k x hx
  cases hx

/-- In a run that asks for no forbidden transition the registry and the lifecycle
agree in every state visited, and every change of a registry state is one
`_TRANSITIONS` declares. -/
theorem statesAgree_along (ops : List Op)
    (hC : Run.Every (step S) (AsksAllowed S) (init S) ops) :
    Run.Along (step S) StatesAgree (init S) ops ∧
    Run.Every (step S) (fun m op => LegalChange m (step S m op)) (init S) ops := by
  have hStep : ∀ m op, m.Grounded ∧ m.Tracked → AsksAllowed S m op →
      (step S m op).Grounded ∧ (step S m op).Tracked := fun m op h hOp =>
    ⟨grounded_step op h.1, (step_legal op h.1 h.2 hOp).1⟩
  have hAlong := Run.along_of_every (I := fun m : KVManager => m.Grounded ∧ m.Tracked) hStep
    ⟨grounded_init, tracked_init⟩ hC
  refine ⟨hAlong.mono fun m h => h.2.statesAgree, ?_⟩
  exact Run.every_of_every hStep (fun m op h hOp => (step_legal op h.1 h.2 hOp).2)
    ⟨grounded_init, tracked_init⟩ hC

/-- A block that is shared before it migrates, and warmed, pinned and unpinned after. -/
theorem statesAgree_sharedThenMigrated :
    let ops : List Op :=
      [.create { payload := [1, 2], agentId := .text "a" }, .share ⟨0⟩ (.text "b"),
        .migrate ⟨0⟩ (.name .mmap), .warm ⟨0⟩, .pin ⟨0⟩, .unpin ⟨0⟩, .release ⟨0⟩ (.text "b"),
        .release ⟨0⟩ (.text "a"), .cleanup 5]
    Run.Along (step .onHost) StatesAgree (init .onHost) ops ∧
    Run.Every (step .onHost) (fun m op => LegalChange m (step .onHost m op)) (init .onHost) ops :=
  statesAgree_along _ (by decide +kernel)

/-- A block that migrates right after it was created: the registry says `MIGRATED`,
the lifecycle `ALLOCATED`, and `_TRANSITIONS` has no such change. -/
theorem not_statesAgree_createMigrate :
    ¬ (Run.Along (step .onHost) StatesAgree (init .onHost)
        [.create { payload := [1] }, .migrate ⟨0⟩ (.name .mmap)] ∧
      Run.Every (step .onHost) (fun m op => LegalChange m (step .onHost m op)) (init .onHost)
        [.create { payload := [1] }, .migrate ⟨0⟩ (.name .mmap)]) := by
  rintro ⟨hAgree, -⟩
  have hReg : ((Run.exec (step .onHost) (init .onHost)
      [.create { payload := [1] }, .migrate ⟨0⟩ (.name .mmap)]).stateOf ⟨0⟩) = some .migrated := by
    decide +kernel
  have hLife : ((Run.exec (step .onHost) (init .onHost)
      [.create { payload := [1] }, .migrate ⟨0⟩ (.name .mmap)]).lifecycle.get? ⟨0⟩) =
        some .allocated := by
    decide +kernel
  obtain ⟨rec, hrec, hState⟩ := Option.map_eq_some_iff.mp hReg
  have := hAgree.exec ⟨0⟩ rec hrec
  rw [hLife, hState] at this
  cases this

end KVManager

end Neuroswarm.Maks
