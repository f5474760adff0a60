import Neuroswarm.Maks.Grounded

/-!
# MAKS — byte accounting

`KVAllocator` counts the bytes of a block when it gives the block a location and
takes off `metadata.kv_size` when the block is deleted. In between nothing may
change what will be taken off. Two calls do:

* `store` on a block that exists rewrites `kv_size` and leaves the count;
* `create` counts before the payload is compressed, stored and indexed, so a
  call that raises there leaves bytes counted that no block owns.

* `accounted_along` — in a run without these the count is the sum of the sizes
  in the registry, in every state visited.
-/

namespace Neuroswarm.Maks

open Neuroswarm.Kv (Bytes Time encode)

namespace KVManager

variable {S : Setup} {m m' : KVManager} {kvId : KvId}

/-- The bytes of all live blocks. -/
def footprint (m : KVManager) : Nat :=
  m.registry.records.total fun _ rec => rec.metadata.kvSize

/-- `used_bytes` is the true footprint. -/
def Accounted (m : KVManager) : Prop := m.allocated = m.footprint

def sizeOf (m : KVManager) (k : KvId) : Option Nat :=
  (m.registry.get k).map fun rec => rec.metadata.kvSize

/-- Nothing a step did is visible in sizes and byte count. -/
structure SameSizes (m m' : KVManager) : Prop where
  sizes : ∀ k, m'.sizeOf k = m.sizeOf k
  allocated : m'.allocated = m.allocated

theorem SameSizes.accounted (h : SameSizes m m') (hA : m.Accounted) : m'.Accounted := by
  unfold Accounted footprint
  rw [h.allocated, hA]
  exact Dict.total_congr fun k => (h.sizes k).symm

theorem SameSizes.trans {m₁ m₂ : KVManager} (h : SameSizes m m₁) (h' : SameSizes m₁ m₂) :
    SameSizes m m₂ where
  sizes k := (h'.sizes k).trans (h.sizes k)
  allocated := h'.allocated.trans h.allocated

-- ------ The updates operations are made of

theorem sameSizes_of_eq (hreg : m'.registry = m.registry) (ha : m'.allocated = m.allocated) :
    SameSizes m m' :=
  ⟨fun k => by unfold sizeOf; rw [hreg], ha⟩

variable {rec : KVRegistryRecord}

theorem sameSizes_of_replace {rec' : KVRegistryRecord} (ha : m'.allocated = m.allocated)
    (hreg : ∀ k, m'.registry.get k = if k = kvId then some rec' else m.registry.get k)
    (hrec : m.registry.get kvId = some rec) (hs : rec'.metadata.kvSize = rec.metadata.kvSize) :
    SameSizes m m' := by
  refine ⟨fun k => ?_, ha⟩
  unfold sizeOf
  rw [hreg]
  by_cases hk : k = kvId
  · rw [if_pos hk, hk, hrec, Option.map_some, Option.map_some, hs]
  · rw [if_neg hk]

theorem sameSizes_writeState (m : KVManager) (kvId : KvId) (s : KVState) :
    SameSizes m (m.writeState kvId s) := by
  refine ⟨fun k => ?_, rfl⟩
  show ((m.registry.setState kvId s).get k).map _ = _
  rw [KVRegistry.get_setState]
  split
  · rw [Option.map_map]
    rfl
  · rfl

theorem sameSizes_setTier (m : KVManager) (kvId : KvId) (tier : KVTier) :
    SameSizes m { m with registry := m.registry.setTier kvId tier } := by
  refine ⟨fun k => ?_, rfl⟩
  show ((m.registry.setTier kvId tier).get k).map _ = _
  rw [KVRegistry.get_setTier]
  split
  · rw [Option.map_map]
    rfl
  · rfl

theorem Migrated.sameSizes {p : ProviderName} (hM : Migrated S m kvId p rec m') :
    SameSizes m m' :=
  sameSizes_of_replace hM.allocated hM.registry hM.found (placed_kvSize rec p)

theorem sameSizes_movedBehind (hrec : m.registry.get kvId = some rec) (p : ProviderName)
    (b : Backends) : SameSizes m (m.movedBehind rec p b) :=
  sameSizes_of_replace rfl (get_movedBehind hrec p b) hrec rfl

theorem Accounted.destroy (h : m.Accounted) (hrec : m.registry.get rec.kvId = some rec) :
    (destroy S m rec).Accounted := by
  have hTotal := Dict.total_erase (show m.registry.records.get? rec.kvId = some rec from hrec)
    fun _ rec => rec.metadata.kvSize
  have h : m.allocated = m.registry.records.total fun _ rec => rec.metadata.kvSize := h
  show m.allocated - rec.metadata.kvSize =
    (m.registry.records.erase rec.kvId).total fun _ rec => rec.metadata.kvSize
  omega

theorem Accounted.install (h : m.Accounted) (hNew : m.registry.get kvId = none)
    (m₁ : KVManager) (hreg : m₁.registry = m.registry) {req : CreateRequest}
    (ha : m₁.allocated = m.allocated + req.payload.length) (location : Location)
    (dedupKey : String) : (install S m₁ req kvId location dedupKey).Accounted := by
  have hTotal := Dict.total_set_of_none
    (show m.registry.records.get? kvId = none from hNew)
    (newRecord S req kvId location dedupKey) fun _ rec => rec.metadata.kvSize
  show m₁.allocated = (m₁.registry.records.set kvId
    (newRecord S req kvId location dedupKey)).total fun _ rec => rec.metadata.kvSize
  rw [hreg, ha, hTotal, h]
  rfl

theorem Accounted.delete (h : m.Accounted) (kvId : KvId) (force : Bool) :
    (delete S m kvId force).1.Accounted := by
  have hOutcome := delete_outcome (S := S) m kvId force
  generalize (KVManager.delete S m kvId force).1 = m' at hOutcome ⊢
  cases hOutcome with
  | kept _ => exact h
  | destroyed rec hrec => exact h.destroy hrec

-- ------ The condition

variable (S) in
/-- Once the provider gave a location, codec, backend and dedup index take the
payload too. -/
def takesNew (m : KVManager) (req : CreateRequest) : Bool :=
  match chooseProvider S m req.payload.length with
  | .error _ => true
  | .ok p =>
    match Backends.allocate S p ⟨m.drawn⟩ with
    | .error _ => true
    | .ok _ =>
      match packPayload S req.payload with
      | .error _ => false
      | .ok stored =>
        returned (m.backends.store S p ⟨m.drawn⟩ stored).2 &&
          returned (registerDedup S m req ⟨m.drawn⟩).2

variable (S) in
/-- The payload is reused, or taken as a new block. -/
def takes (m : KVManager) (req : CreateRequest) : Bool :=
  if req.canDedup S then
    match m.dedup.lookup S.hasher req.identity (req.dedupPrefix S) (req.contentHash S) with
    | (dedup, found) =>
      let m := { m with dedup := dedup }
      (m.reusable req found).isSome || takesNew S m req
  else takesNew S m req

variable (S) in
/-- The same for the state `create` reaches once ARMORA accepted. -/
def createTakes (m : KVManager) (req : CreateRequest) : Bool :=
  if req.env.accepted then takes S m req
  else if req.env.acceptedAgain then takes S (relievePressure S m req.env.victims) req
  else true

variable (S) in
/-- An overwrite that is written keeps the size of the block; a `store` that
creates is taken. -/
def storeKeeps (m : KVManager) (key : Name) (data : Bytes) (env : Env) : Bool :=
  match m.findBySession S key with
  | some rec => !returned (store S m key data env).2 || data.length == rec.metadata.kvSize
  | none =>
    !returned (packPayload S data) ||
      createTakes S m { payload := data, sessionId := key, agentId := key, env := env }

variable (S) in
/-- No `create` raises after its bytes were counted, and an overwrite that is
written keeps the size of the block. -/
def KeepsCount (m : KVManager) : Op → Prop
  | .create req => createTakes S m req = true
  | .store key data env => storeKeeps S m key data env = true
  | _ => True

instance (m : KVManager) : DecidablePred (KeepsCount S m)
  | .create req => inferInstanceAs (Decidable (createTakes S m req = true))
  | .store key data env => inferInstanceAs (Decidable (storeKeeps S m key data env = true))
  | .share _ _ => isTrue trivial
  | .release _ _ => isTrue trivial
  | .migrate _ _ => isTrue trivial
  | .delete _ _ => isTrue trivial
  | .pin _ => isTrue trivial
  | .unpin _ => isTrue trivial
  | .warm _ => isTrue trivial
  | .cold _ => isTrue trivial
  | .cleanup _ => isTrue trivial
  | .relievePressure _ => isTrue trivial
  | .pageOut _ => isTrue trivial
  | .pageIn _ => isTrue trivial

-- ------ Step lemmas

theorem accounted_allocateNew (hG : m.Grounded) (h : m.Accounted) (req : CreateRequest)
    (hC : takesNew S m req = true) : (allocateNew S m req).1.Accounted := by
  unfold takesNew at hC
  unfold allocateNew
  dsimp only
  have hChoose : chooseProvider S { m with drawn := m.drawn + 1 } req.payload.length =
      chooseProvider S m req.payload.length := rfl
  rw [hChoose]
  cases hp : chooseProvider S m req.payload.length with
  | error e => exact h
  | ok p =>
    rw [hp] at hC
    dsimp only at hC ⊢
    cases ha : Backends.allocate S p ⟨m.drawn⟩ with
    | error e => exact h
    | ok location =>
      rw [ha] at hC
      dsimp only at hC ⊢
      cases hpack : packPayload S req.payload with
      | error e => rw [hpack] at hC; cases hC
      | ok stored =>
        rw [hpack] at hC
        dsimp only at hC ⊢
        rw [Bool.and_eq_true] at hC
        rcases hb : m.backends.store S p ⟨m.drawn⟩ stored with ⟨b, rb⟩
        rw [hb] at hC
        cases rb with
        | error e => cases hC.1
        | ok _ =>
          have hReg : registerDedup S
              { m with
                drawn := m.drawn + 1
                allocated := m.allocated + req.payload.length
                backends := b } req ⟨m.drawn⟩ = registerDedup S m req ⟨m.drawn⟩ := rfl
          dsimp only
          rw [hReg]
          rcases hd : registerDedup S m req ⟨m.drawn⟩ with ⟨dedup, rd⟩
          rw [hd] at hC
          cases rd with
          | error e => cases hC.2
          | ok dedupKey =>
            refine h.install hG.fresh
              { m with
                drawn := m.drawn + 1
                allocated := m.allocated + req.payload.length
                backends := b
                dedup := dedup } rfl rfl location dedupKey

theorem sameSizes_reuse (hrec : m.registry.get rec.kvId = some rec) (req : CreateRequest) :
    SameSizes m (reuse m rec req) :=
  sameSizes_of_replace rfl (get_reuse m rec req) hrec rfl

theorem accounted_place (hG : m.Grounded) (h : m.Accounted) (req : CreateRequest)
    (hC : takes S m req = true) : (place S m req).1.Accounted := by
  unfold takes at hC
  unfold place
  by_cases hc : req.canDedup S = true
  · rw [if_pos hc] at hC ⊢
    have hNamed := hG.named.lookup S.hasher req.identity (req.dedupPrefix S) (req.contentHash S)
    rcases hl : m.dedup.lookup S.hasher req.identity (req.dedupPrefix S) (req.contentHash S) with
      ⟨dedup, found⟩
    rw [hl] at hC hNamed
    have hG' : Grounded { m with dedup := dedup } :=
      ⟨hG.drawn, hG.uncounted, hG.counts, hNamed, hG.owned⟩
    dsimp only at hC ⊢
    cases hr : reusable { m with dedup := dedup } req found with
    | none =>
      rw [hr] at hC
      exact accounted_allocateNew hG' h req hC
    | some rec =>
      have hrec : m.registry.get rec.kvId = some rec := by
        unfold reusable at hr
        cases found with
        | none => cases hr
        | some ent =>
          have hGet := (Option.filter_eq_some_iff.mp hr).1
          rw [KVRegistry.kvId_of_get hGet]
          exact hGet
      exact (sameSizes_reuse (m := { m with dedup := dedup }) hrec req).accounted h
  · rw [if_neg hc] at hC ⊢
    exact accounted_allocateNew hG h req hC

/-- What holds of a manager between calls. -/
structure Booked (m : KVManager) : Prop where
  grounded : m.Grounded
  accounted : m.Accounted

theorem Booked.relieveOne (h : m.Booked) (kvId : KvId) : (relieveOne S m kvId).Booked := by
  refine ⟨h.grounded.relieveOne kvId, ?_⟩
  have hR := relieveOne_relief (S := S) m kvId
  generalize reliefKind S m kvId = kind at hR
  generalize hEq : KVManager.relieveOne S m kvId = m₁ at hR
  cases hR with
  | left b hb => exact (sameSizes_of_eq rfl rfl).accounted h.accounted
  | pagedOut p rec m' hM => exact hM.sameSizes.accounted h.accounted
  | demoted rec p b₀ b hb₀ hrec hp hb =>
    exact (sameSizes_movedBehind hrec p b).accounted h.accounted
  | destroyed rec b hb hrec hpin =>
    obtain rfl := KVRegistry.kvId_of_get hrec
    exact Accounted.destroy (m := { m with backends := b }) h.accounted hrec

theorem Booked.relievePressure (h : m.Booked) (picked : List KvId) :
    (relievePressure S m picked).Booked :=
  Run.exec_of_invariant (I := Booked) (fun _ k hm => hm.relieveOne k) h _

theorem Booked.create (h : m.Booked) (req : CreateRequest) (hC : createTakes S m req = true) :
    (create S m req).1.Booked := by
  refine ⟨h.grounded.create req, ?_⟩
  unfold createTakes at hC
  unfold KVManager.create
  cases hAcc : req.env.accepted with
  | true =>
    rw [hAcc, if_pos rfl] at hC
    exact accounted_place h.grounded h.accounted req hC
  | false =>
    rw [hAcc, if_neg Bool.false_ne_true] at hC
    have hR := h.relievePressure (S := S) req.env.victims
    dsimp only
    rw [if_neg Bool.false_ne_true]
    cases hAgain : req.env.acceptedAgain with
    | true =>
      rw [hAgain, if_pos rfl] at hC
      exact accounted_place hR.grounded hR.accounted req hC
    | false => exact hR.accounted

theorem Booked.store (h : m.Booked) (key : Name) (data : Bytes) (env : Env)
    (hC : storeKeeps S m key data env = true) : (store S m key data env).1.Booked := by
  refine ⟨h.grounded.store key data env, ?_⟩
  unfold storeKeeps at hC
  have hOutcome := store_outcome (S := S) m key data env
  generalize KVManager.store S m key data env = out at hOutcome hC ⊢
  cases hOutcome with
  | refused e => exact h.accounted
  | failed rec b e _ _ => exact (sameSizes_of_eq rfl rfl).accounted h.accounted
  | overwritten rec b stored hFound _ _ =>
    rw [hFound] at hC
    have hLen : data.length = rec.metadata.kvSize := by
      simpa [returned] using hC
    have hSame : SameSizes m
        { m with backends := b, registry := m.registry.upsert (resized rec data) } :=
      sameSizes_of_replace rfl (get_upsert_resized _ rec data) (findBySession_get hFound) hLen
    exact hSame.accounted h.accounted
  | created stored r hFound hpack =>
    rw [hFound, hpack] at hC
    have hTakes : createTakes S m
        { payload := data, sessionId := key, agentId := key, env := env } = true := by
      simpa [returned] using hC
    exact (h.create _ hTakes).accounted

theorem Booked.sweepOne (h : m.Booked) (now : Time) (rec : KVRegistryRecord) :
    (sweepOne S now m rec).Booked := by
  refine ⟨h.grounded.sweepOne now rec, ?_⟩
  unfold KVManager.sweepOne
  split
  · exact h.accounted.delete rec.kvId true
  · exact h.accounted

theorem accounted_cleanup (h : m.Booked) (now : Time) : (cleanup S m now).Accounted := by
  have hFold : ((m.registry.allRecords S.rank).foldl (KVManager.sweepOne S now) m).Booked :=
    Run.exec_of_invariant (I := Booked) (fun _ rec hm => hm.sweepOne now rec) h _
  exact hFold.accounted

theorem sameSizes_granted (hrec : m.registry.get rec.kvId = some rec) (b : Backends)
    (consumer : Name) : SameSizes m (m.granted b rec consumer) :=
  sameSizes_of_replace rfl (KVRegistry.get_upsert _ _) hrec rfl

theorem sameSizes_dropped (hrec : m.registry.get rec.kvId = some rec) (agent : Name) :
    SameSizes m (m.dropped rec agent) :=
  sameSizes_of_replace rfl (KVRegistry.get_upsert _ _) hrec rfl

theorem sameSizes_flagged (hrec : m.registry.get rec.kvId = some rec) (flag : Bool) :
    SameSizes m (m.flagged rec flag) :=
  sameSizes_of_replace rfl (KVRegistry.get_upsert _ _) hrec rfl

theorem Edits.sameSizes {behind : Prop} (h : Edits S behind m m') : SameSizes m m' := by
  induction h with
  | refl => exact sameSizes_of_eq rfl rfl
  | tail _ hEdit ih =>
    refine ih.trans ?_
    cases hEdit with
    | backends b _ => exact sameSizes_of_eq rfl rfl
    | writeState kvId s => exact sameSizes_writeState _ _ _
    | setTier kvId tier => exact sameSizes_setTier _ kvId tier
    | granted rec b consumer hrec _ => exact sameSizes_granted hrec b consumer
    | dropped rec agent hrec => exact sameSizes_dropped hrec agent
    | flagged rec flag hrec => exact sameSizes_flagged hrec flag
    | migrated hM => exact hM.sameSizes
    | movedBehind rec p b _ hrec _ _ => exact sameSizes_movedBehind hrec p b

theorem booked_step (op : Op) (h : m.Booked) (hC : KeepsCount S m op) :
    (step S m op).Booked := by
  have hG := grounded_step (S := S) op h.grounded
  have hEdits : op.EditsOnly True → (step S m op).Booked := fun hOnly =>
    ⟨hG, (edits_step m op hOnly).sameSizes.accounted h.accounted⟩
  cases op with
  | create req => exact h.create req hC
  | store key data env => exact h.store key data env hC
  | delete kvId force => exact ⟨hG, h.accounted.delete kvId force⟩
  | cleanup now => exact ⟨hG, accounted_cleanup h now⟩
  | relievePressure picked => exact h.relievePressure picked
  | _ => exact hEdits trivial

-- ------ Runs

theorem booked_init : (init S).Booked := ⟨grounded_init, rfl⟩

/-- In a run whose creates are taken and whose overwrites keep the size,
`used_bytes` is the sum of the sizes in the registry in every state visited. -/
theorem accounted_along (ops : List Op) (hC : Run.Every (step S) (KeepsCount S) (init S) ops) :
    Run.Along (step S) Accounted (init S) ops :=
  (Run.along_of_every (I := Booked) (fun _ op h hOp => booked_step op h hOp) booked_init
    hC).mono fun _ h => h.accounted

/-- Two blocks, one overwritten in its size, moved and reclaimed. -/
theorem accounted_sameSizeStore :
    Run.Along (step .onHost) Accounted (init .onHost)
      [.store (.text "s") [1, 2, 3] {}, .create { payload := [4], agentId := .text "a" },
        .store (.text "s") [5, 6, 7] {}, .share ⟨1⟩ (.text "b"), .migrate ⟨0⟩ (.name .nvme),
        .release ⟨0⟩ (.text "s"), .cleanup 4, .delete ⟨1⟩ false] :=
  accounted_along _ (by decide +kernel)

/-- A session overwritten with a longer payload: three bytes live, one counted. -/
theorem not_accounted_longerStore :
    ¬ Run.Along (step .onHost) Accounted (init .onHost)
      [.store (.text "s") [1] {}, .store (.text "s") [1, 2, 3] {}] := by
  intro h
  have hCounted : (Run.exec (step .onHost) (init .onHost)
      [.store (.text "s") [1] {}, .store (.text "s") [1, 2, 3] {}]).allocated = 1 := by
    decide +kernel
  have hLive : (Run.exec (step .onHost) (init .onHost)
      [.store (.text "s") [1] {}, .store (.text "s") [1, 2, 3] {}]).footprint = 3 := by
    decide +kernel
  have hEq := h.exec
  unfold Accounted at hEq
  rw [hCounted, hLive] at hEq
  cases hEq

end KVManager

end Neuroswarm.Maks
