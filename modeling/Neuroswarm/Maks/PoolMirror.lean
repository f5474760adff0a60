import Neuroswarm.Maks.Grounded

/-!
# MAKS — the page pool mirrors the registry

The provider of a block is recorded in its registry record and on each of its
pages, its reference count in the reference counter, in the record and on each
page. The counts never drift. The providers drift where a block moves through
the migration engine directly, past `KVManager.migrate`, which is what tells the
pool: when `warm` promotes a block, and when `relieve_pressure` demotes a victim
the pager failed to page out.

* `PagesMirror` — the pages of a live block say what its record says.
* `mirrors_along` — it holds in every state of a run none of whose steps moves a
  block through the engine directly.
-/

namespace Neuroswarm.Maks

open Neuroswarm.Kv (Bytes Time encode)

namespace KVManager

variable {S : Setup} {m m' : KVManager} {kvId : KvId}

/-- Pages, reference counter and record of every live block agree. -/
def Mirrors (m : KVManager) : Prop :=
  ∀ k rec, m.registry.get k = some rec →
    (∀ page ∈ m.pool.pagesFor k, page.provider = rec.provider ∧
      page.refcount = ReferenceCounter.count m.refcount k) ∧
    ReferenceCounter.count m.refcount k = rec.refcount

/-- A page says what the record says. -/
def PageMirrors (rec : KVRegistryRecord) (page : PageMeta) : Prop :=
  page.provider = rec.provider ∧ page.refcount = rec.refcount

def PagesMirror (m : KVManager) : Prop :=
  ∀ k rec, m.registry.get k = some rec → ∀ page ∈ m.pool.pagesFor k, PageMirrors rec page

theorem PagesMirror.mirrors (h : m.PagesMirror) (hG : m.Grounded) : m.Mirrors := by
  intro k rec hrec
  refine ⟨fun page hp => ?_, hG.counts k rec hrec⟩
  rw [hG.counts k rec hrec]
  exact h k rec hrec page hp

-- ------ The updates operations are made of

variable {rec : KVRegistryRecord}

theorem PagesMirror.replace (h : m.PagesMirror) {rec' : KVRegistryRecord} {f : PageMeta → PageMeta}
    (hrec : m.registry.get kvId = some rec)
    (hreg : ∀ k, m'.registry.get k = if k = kvId then some rec' else m.registry.get k)
    (hpages : ∀ k, m'.pool.pagesFor k =
      if k = kvId then (m.pool.pagesFor k).map f else m.pool.pagesFor k)
    (hf : ∀ page, PageMirrors rec page → PageMirrors rec' (f page)) : m'.PagesMirror := by
  intro k r hr page hp
  rw [hreg] at hr
  rw [hpages] at hp
  by_cases hk : k = kvId
  · rw [if_pos hk] at hr hp
    obtain ⟨page₀, hp₀, rfl⟩ := List.mem_map.mp hp
    rw [← Option.some.inj hr]
    exact hf page₀ (h kvId rec hrec page₀ (by rw [← hk]; exact hp₀))
  · rw [if_neg hk] at hr hp
    exact h k r hr page hp

theorem PagesMirror.rewrite (h : m.PagesMirror) (rec' : KVRegistryRecord)
    (hrec : m.registry.get kvId = some rec)
    (hreg : ∀ k, m'.registry.get k = if k = kvId then some rec' else m.registry.get k)
    (hpool : m'.pool = m.pool) (hsame : rec'.provider = rec.provider ∧ rec'.refcount = rec.refcount)
    : m'.PagesMirror := by
  refine h.replace (f := id) hrec hreg (fun k => ?_) fun page hp => ?_
  · rw [hpool, List.map_id, ite_self]
  · unfold PageMirrors
    rw [hsame.1, hsame.2]
    exact hp

theorem PagesMirror.congr (h : m.PagesMirror) (hreg : m'.registry = m.registry)
    (hpool : m'.pool = m.pool) : m'.PagesMirror := by
  unfold PagesMirror
  rw [hreg, hpool]
  exact h

theorem PagesMirror.writeState (h : m.PagesMirror) (s : KVState) :
    (m.writeState kvId s).PagesMirror := by
  cases hrec : m.registry.get kvId with
  | none =>
    refine h.congr ?_ rfl
    show m.registry.setState kvId s = m.registry
    unfold KVRegistry.setState KVRegistry.modify
    rw [hrec]
  | some rec =>
    exact h.rewrite (KVRegistry.withState rec s) hrec (get_setState_of_get hrec s) rfl
      ⟨rfl, rfl⟩

theorem PagesMirror.setTier (h : m.PagesMirror) (kvId : KvId) (tier : KVTier) :
    PagesMirror { m with registry := m.registry.setTier kvId tier } := by
  intro k rec hrec page hp
  have hrec : (m.registry.setTier kvId tier).get k = some rec := hrec
  rw [KVRegistry.get_setTier] at hrec
  split at hrec
  · obtain ⟨rec₀, hrec₀, rfl⟩ := Option.map_eq_some_iff.mp hrec
    exact h k rec₀ hrec₀ page hp
  · exact h k rec hrec page hp

theorem Migrated.pagesMirror {p : ProviderName} (hM : Migrated S m kvId p rec m')
    (hO : m.pool.Owned) (h : m.PagesMirror) :
    m'.PagesMirror := by
  intro k r hr page hp
  obtain ⟨f, hRef, hProv, hId, hPages⟩ := hM.pages hO k
  rw [hPages] at hp
  obtain ⟨page₀, hp₀, rfl⟩ := List.mem_map.mp hp
  rw [hM.registry] at hr
  by_cases hk : k = kvId
  · rw [if_pos hk] at hr
    obtain ⟨-, hCount⟩ := h kvId rec hM.found page₀ (by rw [← hk]; exact hp₀)
    rw [← Option.some.inj hr]
    refine ⟨?_, ?_⟩
    · rw [hProv hk]
      exact (placed_provider rec p).symm
    · rw [hRef, hCount]
      exact (placed_refcount rec p).symm
  · rw [if_neg hk] at hr
    rw [hId hk]
    exact h k r hr page₀ hp₀

theorem PagesMirror.destroy (h : m.PagesMirror) (hO : m.pool.Owned) (rec : KVRegistryRecord) :
    (destroy S m rec).PagesMirror := by
  intro k r hr page hp
  have hr : (m.registry.delete rec.kvId).get k = some r := hr
  have hp : page ∈ (m.pool.release rec.kvId).pagesFor k := hp
  rw [KVRegistry.get_delete] at hr
  rw [GlobalPagePool.pagesFor_release hO] at hp
  split at hr
  · cases hr
  · next hk =>
    rw [if_neg hk] at hp
    exact h k r hr page hp

theorem PagesMirror.install (h : m.PagesMirror) (hO : m.pool.Owned) (req : CreateRequest)
    (location : Location) (dedupKey : String) :
    (install S m req kvId location dedupKey).PagesMirror := by
  obtain ⟨hOther, hNew⟩ :=
    GlobalPagePool.pagesFor_allocatePages hO (pageRequest S req kvId location)
  intro k r hr page hp
  have hr : (m.registry.upsert (newRecord S req kvId location dedupKey)).get k = some r := hr
  have hp : page ∈ (m.pool.allocatePages (pageRequest S req kvId location)).pagesFor k := hp
  rw [KVRegistry.get_upsert] at hr
  by_cases hk : k = kvId
  · rw [if_pos (show k = (newRecord S req kvId location dedupKey).kvId from hk)] at hr
    rw [← Option.some.inj hr]
    exact hNew page (by rw [hk] at hp; exact hp)
  · rw [if_neg (show ¬ k = (newRecord S req kvId location dedupKey).kvId from hk)] at hr
    rw [hOther k hk] at hp
    exact h k r hr page hp

-- ------ References

theorem count_increment_self (hG : m.Grounded) (hrec : m.registry.get rec.kvId = some rec)
    (owner : Name) (exclusive : Bool) :
    ReferenceCounter.count (ReferenceCounter.increment m.refcount rec.kvId owner exclusive)
      rec.kvId = rec.refcount + 1 := by
  rw [ReferenceCounter.count_increment, if_pos rfl, hG.counts _ rec hrec]

theorem PagesMirror.granted (h : m.PagesMirror) (hG : m.Grounded)
    (hrec : m.registry.get rec.kvId = some rec) (b : Backends) (consumer : Name) :
    (m.granted b rec consumer).PagesMirror := by
  refine h.replace hrec (KVRegistry.get_upsert _ _)
    (fun k => GlobalPagePool.pagesFor_forPages hG.owned rec.kvId k _) ?_
  intro page hp
  refine ⟨hp.1, ?_⟩
  dsimp only
  rw [hp.2, count_increment_self hG hrec]

theorem PagesMirror.reuse (h : m.PagesMirror) (hG : m.Grounded)
    (hrec : m.registry.get rec.kvId = some rec) (req : CreateRequest) :
    (reuse m rec req).PagesMirror := by
  refine h.replace hrec (get_reuse m rec req)
    (fun k => GlobalPagePool.pagesFor_forPages hG.owned rec.kvId k _) ?_
  intro page hp
  refine ⟨hp.1, ?_⟩
  show page.refcount + 1 = ReferenceCounter.count
    (ReferenceCounter.increment m.refcount rec.kvId (req.agentId.orElse rec.ownerAgent) false)
      rec.kvId
  rw [hp.2, count_increment_self hG hrec]

theorem PagesMirror.dropped (h : m.PagesMirror) (hG : m.Grounded)
    (hrec : m.registry.get rec.kvId = some rec) (agent : Name) :
    (m.dropped rec agent).PagesMirror := by
  refine h.replace hrec (KVRegistry.get_upsert _ _)
    (fun k => GlobalPagePool.pagesFor_forPages hG.owned rec.kvId k _) ?_
  intro page hp
  refine ⟨hp.1, ?_⟩
  dsimp only
  rw [hp.2, ReferenceCounter.count_decrement, if_pos rfl, hG.counts _ rec hrec]

theorem PagesMirror.flagged (h : m.PagesMirror) (hO : m.pool.Owned)
    (hrec : m.registry.get rec.kvId = some rec) (flag : Bool) :
    (m.flagged rec flag).PagesMirror := by
  refine h.replace (f := fun page => { page with pinned := flag }) hrec (KVRegistry.get_upsert _ _)
    (fun k => ?_) fun page hp => hp
  unfold KVManager.flagged
  cases flag with
  | true => exact GlobalPagePool.pagesFor_forPages hO rec.kvId k _
  | false => exact GlobalPagePool.pagesFor_forPages hO rec.kvId k _

-- ------ The condition

variable (S) in
/-- No victim is demoted through the engine. -/
def ReliefTold (m : KVManager) (picked : List KvId) : Prop :=
  Run.Every (relieveOne S) (fun m k => reliefKind S m k ≠ .demoted) m (m.selectVictims picked)

instance (m : KVManager) (picked : List KvId) : Decidable (ReliefTold S m picked) :=
  inferInstanceAs (Decidable (Run.Every _ _ _ _))

variable (S) in
/-- `warm` would promote the block: it is outside RAM and its hotter neighbour
takes it. -/
def promotes (m : KVManager) (kvId : KvId) : Bool :=
  match m.registry.get kvId with
  | none => false
  | some rec =>
    if rec.provider = .ram then false
    else
      match (promote S m kvId).2 with
      | .ok (some _) => true
      | _ => false

variable (S) in
/-- The operation moves no block through the migration engine directly. -/
def TellsPool (m : KVManager) : Op → Prop
  | .warm kvId => promotes S m kvId = false
  | .relievePressure picked => ReliefTold S m picked
  | .create req => req.env.accepted = false → ReliefTold S m req.env.victims
  | .store key _ env =>
    (m.findBySession S key).isNone = true → env.accepted = false → ReliefTold S m env.victims
  | _ => True

instance (m : KVManager) : DecidablePred (TellsPool S m)
  | .warm kvId => inferInstanceAs (Decidable (promotes S m kvId = false))
  | .relievePressure picked => inferInstanceAs (Decidable (ReliefTold S m picked))
  | .create req => inferInstanceAs (Decidable (_ → ReliefTold S m req.env.victims))
  | .store _ _ env => inferInstanceAs (Decidable (_ → _ → ReliefTold S m env.victims))
  | .share _ _ => isTrue trivial
  | .release _ _ => isTrue trivial
  | .migrate _ _ => isTrue trivial
  | .delete _ _ => isTrue trivial
  | .pin _ => isTrue trivial
  | .unpin _ => isTrue trivial
  | .cold _ => isTrue trivial
  | .cleanup _ => isTrue trivial
  | .pageOut _ => isTrue trivial
  | .pageIn _ => isTrue trivial

-- ------ Step lemmas

/-- The invariant of this module, with what every manager satisfies. -/
structure Mirrored (m : KVManager) : Prop where
  grounded : m.Grounded
  pages : m.PagesMirror

theorem Mirrored.backends (h : m.Mirrored) (b : Backends) : Mirrored { m with backends := b } :=
  ⟨h.grounded.backends b, h.pages.congr rfl rfl⟩

theorem Mirrored.delete (h : m.Mirrored) (kvId : KvId) (force : Bool) :
    (delete S m kvId force).1.Mirrored := by
  refine ⟨h.grounded.delete kvId force, ?_⟩
  have hOutcome := delete_outcome (S := S) m kvId force
  generalize (KVManager.delete S m kvId force).1 = m' at hOutcome ⊢
  cases hOutcome with
  | kept _ => exact h.pages
  | destroyed rec _ => exact h.pages.destroy h.grounded.owned rec

theorem Mirrored.relieveOne (h : m.Mirrored) (kvId : KvId) (hC : reliefKind S m kvId ≠ .demoted) :
    (relieveOne S m kvId).Mirrored := by
  refine ⟨h.grounded.relieveOne kvId, ?_⟩
  have hR := relieveOne_relief (S := S) m kvId
  generalize reliefKind S m kvId = kind at hR hC
  generalize hEq : KVManager.relieveOne S m kvId = m₁ at hR
  cases hR with
  | left b hb => exact h.pages.congr rfl rfl
  | pagedOut p rec m' hM => exact hM.pagesMirror h.grounded.owned h.pages
  | demoted rec p b₀ b hb₀ hrec hp hb => exact absurd rfl hC
  | destroyed rec b hb hrec hpin => exact (h.backends b).pages.destroy h.grounded.owned rec

theorem Mirrored.relievePressure (h : m.Mirrored) (picked : List KvId)
    (hC : ReliefTold S m picked) : (relievePressure S m picked).Mirrored :=
  (Run.along_of_every (I := Mirrored) (fun _ k hm hk => hm.relieveOne k hk) h hC).exec

theorem Mirrored.place (h : m.Mirrored) (req : CreateRequest) : (place S m req).1.Mirrored := by
  refine ⟨h.grounded.place req, ?_⟩
  rcases place_cases (S := S) m req with
    ⟨dedup, ent, rec, hl, -, hrec, -, hEq⟩ | ⟨dedup, -, hEq⟩
  · rw [hEq]
    have hNamed := h.grounded.named.lookup S.hasher req.identity (req.dedupPrefix S)
      (req.contentHash S)
    rw [hl] at hNamed
    have hG : Grounded { m with dedup := dedup } :=
      ⟨h.grounded.drawn, h.grounded.uncounted, h.grounded.counts, hNamed, h.grounded.owned⟩
    refine PagesMirror.reuse (m := { m with dedup := dedup }) (h.pages.congr rfl rfl) hG ?_ req
    rw [KVRegistry.kvId_of_get hrec]
    exact hrec
  · rw [hEq]
    cases hOut : allocateNew S { m with dedup := dedup } req with
    | mk m₁ r =>
      have := allocateNew_outcome (S := S) { m with dedup := dedup } req
      rw [hOut] at this
      cases this with
      | refused e => exact h.pages.congr rfl rfl
      | leaked e b dedup' hb hd => exact h.pages.congr rfl rfl
      | installed p stored b dedup' dedupKey hpack hb hd =>
        exact PagesMirror.install (m := { m with
          drawn := m.drawn + 1
          allocated := m.allocated + req.payload.length
          backends := b
          dedup := dedup' }) (h.pages.congr rfl rfl) h.grounded.owned req _ _

theorem Mirrored.create (h : m.Mirrored) (req : CreateRequest)
    (hC : req.env.accepted = false → ReliefTold S m req.env.victims) :
    (create S m req).1.Mirrored := by
  unfold KVManager.create
  cases hAcc : req.env.accepted with
  | true => exact h.place req
  | false =>
    have hR := h.relievePressure req.env.victims (hC hAcc)
    dsimp only
    rw [if_neg Bool.false_ne_true]
    split
    · exact hR.place req
    · exact hR

theorem Mirrored.store (h : m.Mirrored) (key : Name) (data : Bytes) (env : Env)
    (hC : (m.findBySession S key).isNone = true → env.accepted = false →
      ReliefTold S m env.victims) :
    (store S m key data env).1.Mirrored := by
  refine ⟨h.grounded.store key data env, ?_⟩
  have hOutcome := store_outcome (S := S) m key data env
  generalize KVManager.store S m key data env = out at hOutcome ⊢
  cases hOutcome with
  | refused e => exact h.pages
  | failed rec b e _ _ => exact h.pages.congr rfl rfl
  | overwritten rec b stored hFound _ _ =>
    exact h.pages.rewrite (resized rec data) (findBySession_get hFound)
      (KVRegistry.get_upsert _ _) rfl ⟨rfl, rfl⟩
  | created stored r hFound _ =>
    rw [hFound] at hC
    exact (h.create _ (hC rfl)).pages

theorem Mirrored.sweepOne (h : m.Mirrored) (now : Time) (rec : KVRegistryRecord) :
    (sweepOne S now m rec).Mirrored := by
  unfold KVManager.sweepOne
  split
  · exact h.delete rec.kvId true
  · exact h

theorem Mirrored.cleanup (h : m.Mirrored) (now : Time) : (cleanup S m now).Mirrored := by
  refine ⟨h.grounded.cleanup now, ?_⟩
  have hFold : ((m.registry.allRecords S.rank).foldl (KVManager.sweepOne S now) m).Mirrored :=
    Run.exec_of_invariant (I := Mirrored) (fun _ rec hm => hm.sweepOne now rec) h _
  exact hFold.pages.congr rfl rfl

theorem Edits.mirrored (hEdits : Edits S False m m') (h : m.Mirrored) : m'.Mirrored := by
  induction hEdits with
  | refl => exact h
  | tail _ hEdit ih =>
    refine ⟨hEdit.grounded ih.grounded, ?_⟩
    cases hEdit with
    | backends b _ => exact ih.pages.congr rfl rfl
    | writeState kvId s => exact ih.pages.writeState s
    | setTier kvId tier => exact ih.pages.setTier kvId tier
    | granted rec b consumer hrec _ => exact ih.pages.granted ih.grounded hrec b consumer
    | dropped rec agent hrec => exact ih.pages.dropped ih.grounded hrec agent
    | flagged rec flag hrec => exact ih.pages.flagged ih.grounded.owned hrec flag
    | migrated hM => exact hM.pagesMirror ih.grounded.owned ih.pages
    | movedBehind _ _ _ hBehind _ _ _ => exact hBehind.elim

theorem PagesMirror.warm (h : m.PagesMirror) (kvId : KvId) (hC : promotes S m kvId = false) :
    (warm S m kvId).1.PagesMirror := by
  unfold KVManager.warm
  unfold promotes at hC
  cases hrec : m.registry.get kvId with
  | none => exact h
  | some rec =>
    rw [hrec] at hC
    dsimp only at hC ⊢
    refine PagesMirror.setTier (PagesMirror.writeState ?_ _) kvId .hot
    by_cases hRam : rec.provider = .ram
    · rw [if_pos hRam]
      exact h
    · rw [if_neg hRam] at hC ⊢
      rcases promote_cases (S := S) m kvId with
        ⟨b, e, hb, hEq⟩ | hEq | ⟨rec', p, b, loc, -, -, -, hEq⟩
      · rw [hEq]
        exact h.congr rfl rfl
      · rw [hEq]
        exact h
      · rw [hEq] at hC
        cases hC

theorem mirrored_step (op : Op) (h : m.Mirrored) (hC : TellsPool S m op) :
    (step S m op).Mirrored := by
  have hEdits : op.EditsOnly False → (step S m op).Mirrored := fun hOnly =>
    (edits_step m op hOnly).mirrored h
  cases op with
  | create req => exact h.create req hC
  | store key data env => exact h.store key data env hC
  | delete kvId force => exact h.delete kvId force
  | warm kvId => exact ⟨grounded_step (.warm kvId) h.grounded, h.pages.warm kvId hC⟩
  | cleanup now => exact h.cleanup now
  | relievePressure picked => exact h.relievePressure picked hC
  | _ => exact hEdits trivial

-- ------ Runs

theorem mirrored_init : (init S).Mirrored :=
  ⟨grounded_init, fun _ _ h => by cases h⟩

/-- In a run that moves no block through the engine directly, the pages, the
reference counter and the record of every live block agree in every state. -/
theorem mirrors_along (ops : List Op) (hC : Run.Every (step S) (TellsPool S) (init S) ops) :
    Run.Along (step S) Mirrors (init S) ops :=
  (Run.along_of_every (I := Mirrored) (fun _ op h hOp => mirrored_step op h hOp) mirrored_init
    hC).mono fun _ h => h.pages.mirrors h.grounded

/-- A block that is shared, paged out and in, warmed in RAM and reclaimed. -/
theorem mirrors_pagedBlock :
    Run.Along (step .onHost) Mirrors (init .onHost)
      [.create { payload := [1, 2], agentId := .text "a" }, .share ⟨0⟩ (.text "b"),
        .pageOut ⟨0⟩, .migrate ⟨0⟩ (.value "nvme"), .pageIn ⟨0⟩, .pageIn ⟨0⟩, .pageIn ⟨0⟩,
        .warm ⟨0⟩, .relievePressure [⟨0⟩], .release ⟨0⟩ (.text "b"), .release ⟨0⟩ (.text "a"),
        .cleanup 3] :=
  mirrors_along _ (by decide +kernel)

/-- Warming a block that lies in mmap: the record says RAM, its page still says
mmap. -/
theorem not_mirrors_warmFromMmap :
    ¬ Run.Along (step .onHost) Mirrors (init .onHost)
      [.create { payload := [1] }, .migrate ⟨0⟩ (.name .mmap), .warm ⟨0⟩] := by
  intro h
  have hRec : ((Run.exec (step .onHost) (init .onHost)
      [.create { payload := [1] }, .migrate ⟨0⟩ (.name .mmap), .warm ⟨0⟩]).registry.get ⟨0⟩).map
        KVRegistryRecord.provider = some .ram := by
    decide +kernel
  have hPage : ((Run.exec (step .onHost) (init .onHost)
      [.create { payload := [1] }, .migrate ⟨0⟩ (.name .mmap), .warm ⟨0⟩]).pool.pagesFor ⟨0⟩).map
        PageMeta.provider = [.mmap] := by
    decide +kernel
  obtain ⟨rec, hrec, hProvider⟩ := Option.map_eq_some_iff.mp hRec
  obtain ⟨page, hPages, hMmap⟩ := List.map_eq_singleton_iff.mp hPage
  have hEq := ((h.exec ⟨0⟩ rec hrec).1 page (by rw [hPages]; exact List.mem_singleton_self _)).1
  rw [hMmap, hProvider] at hEq
  cases hEq

end KVManager

end Neuroswarm.Maks
