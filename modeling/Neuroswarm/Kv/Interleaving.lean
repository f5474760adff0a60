import Neuroswarm.Lib.Run
import Neuroswarm.Kv.Effects

/-!
# KV memory runtime — a migration interleaved with foreground calls

The background scheduler awaits `migrate_block(p, target)` in a thread of its
own while the foreground calls `write_cow(p, ·)`, `read_payload(p)` and
`release_session`, one after the other. Nothing but the table lookups is
locked, so every `await` is a point where the other side may run.

* `MigratorPc`, `CallerPc` — the await each side stands at, with the local
  variables it still uses.
* `Concurrent.step` — one side runs to its next await, or a call begins.
* `migrate_alone`, `write_alone`, `release_alone` — a side that is not
  interrupted does what `migrateBlock`, `writeCow` and `releaseSession` do.
-/

namespace Neuroswarm.Kv

open Run (exec)
open KVBlockManager (releaseTiers deleteFromTiers finishMigration releaseBlock)

-- ------ States

/-- Where `migrate_block` stands. `rec` is the record it found: its tier is the
source tier, whatever the record says later. -/
inductive MigratorPc where
  | idle
  /-- At `await src.get(rec.provider_key)`. -/
  | started (rec : PhysicalBlockRecord)
  /-- At `await dst.put(rec.provider_key, data)`. -/
  | fetched (rec : PhysicalBlockRecord) (data : Bytes)
  /-- At `await src.delete(rec.provider_key)`. -/
  | copied (rec : PhysicalBlockRecord) (data : Bytes)
  /-- The bytes are moved, the record is not. -/
  | moved (rec : PhysicalBlockRecord)
  /-- It has returned or raised. -/
  | done
  deriving DecidableEq

/-- Where the foreground stands. -/
inductive CallerPc where
  /-- Between two calls. -/
  | idle
  /-- `write_cow`, in place, at `await provider.put(rec.provider_key, payload)`. -/
  | writing (tier : StorageTier) (key : StableId) (payload : Bytes)
  /-- `write_cow`, in place, after it. -/
  | written (payload : Bytes)
  /-- `release_session`, before it drops the first of `todo`. -/
  | releasing (todo : List StableId)
  /-- `release_session`, at `await provider.exists(pid)` of the first of `tiers`. -/
  | probing (pid : StableId) (tiers : List StorageTier) (todo : List StableId)
  /-- `release_session`, at `await provider.delete(pid)`. -/
  | removing (pid : StableId) (tier : StorageTier) (tiers : List StorageTier)
      (todo : List StableId)
  deriving DecidableEq

/-- Both sides over one manager. -/
structure Concurrent where
  m : KVBlockManager
  migrator : MigratorPc
  caller : CallerPc
  /-- The most recently completed write to the block. -/
  lastWrite : Bytes
  /-- The outcome of every read of the live block, with the write it was due. -/
  reads : List (Except KvError Bytes × Bytes)

/-- One side moves: the foreground begins a call or goes on with the one it is
in (`resume`), or the migration goes on (`migrate`). -/
inductive Action where
  | writeCow (payload : Bytes)
  | readPayload (now : Time)
  | releaseSession (sessionId : String)
  | resume
  | migrate (now : Time)

namespace Concurrent

/-- A manager with no call under way, whose block holds `lastWrite`. -/
def start (m : KVBlockManager) (lastWrite : Bytes) : Concurrent :=
  { m, migrator := .idle, caller := .idle, lastWrite, reads := [] }

-- ------ The migration

/-- `migrate_block` up to its first await. -/
def beginMigration (m : KVBlockManager) (p : StableId) (target : StorageTier) : MigratorPc :=
  match m.physical.get p with
  | none => .done
  | some rec =>
    if rec.tier = target then .done
    else if target = .futureCxl ∨ target = .futureMte then .done
    else if (m.providers.getTier rec.tier).isNone ∨ (m.providers.getTier target).isNone then
      .done
    else .started rec

/-- `migrate_block` from one await to the next; an exception ends it. -/
def migrate (policy : TieringPolicy) (p : StableId) (target : StorageTier) (now : Time)
    (c : Concurrent) : Concurrent :=
  match c.migrator with
  | .idle => { c with migrator := beginMigration c.m p target }
  | .started rec =>
    match c.m.providers.get rec.tier rec.providerKey with
    | .error _ => { c with migrator := .done }
    | .ok data => { c with migrator := .fetched rec data }
  | .fetched rec data =>
    match c.m.providers.put target rec.providerKey data with
    | .error _ => { c with migrator := .done }
    | .ok providers => { c with m := { c.m with providers }, migrator := .copied rec data }
  | .copied rec _ =>
    match c.m.providers.delete rec.tier rec.providerKey with
    | .error _ => { c with migrator := .done }
    | .ok providers => { c with m := { c.m with providers }, migrator := .moved rec }
  | .moved rec =>
    match finishMigration policy c.m.physical rec target now with
    | none => { c with migrator := .done }
    | some physical => { c with m := { c.m with physical }, migrator := .done }
  | .done => c

-- ------ The foreground

/-- `write_cow` up to its first await. The clone branch runs to its end: what it
writes it registers itself, before its only await. -/
def beginWrite (sha : Sha256) (p : StableId) (payload : Bytes) (c : Concurrent) : Concurrent :=
  if c.m.needsCow p then
    match c.m.writeClone sha p payload with
    | (.error _, m) => { c with m }
    | (.ok clone, m) =>
      { c with m, lastWrite := if clone.physicalId = p then payload else c.lastWrite }
  else
    match c.m.physical.get p with
    | none => c
    | some rec =>
      match c.m.providers.forTier rec.tier with
      | .error _ => c
      | .ok _ => { c with caller := .writing rec.tier rec.providerKey payload }

/-- `read_payload`; it is logged when the block is registered. -/
def read (p : StableId) (now : Time) (c : Concurrent) : Concurrent :=
  let (result, m) := c.m.readPayload p now
  { c with
    m
    reads :=
      if (c.m.physical.get p).isSome then c.reads ++ [(result, c.lastWrite)] else c.reads }

/-- `release_session` up to the first block it drops. -/
def beginRelease (sessionId : String) (c : Concurrent) : Concurrent :=
  { c with
    m := c.m.popSession sessionId
    caller :=
      match c.m.sessions.get? sessionId with
      | none => .idle
      | some session => .releasing session.physicalIds }

/-- `rec.content_hash = …; rec.nbytes = …`, as the record is by then. -/
def restamp (sha : Sha256) (physical : PhysicalBlockTable) (p : StableId) (payload : Bytes) :
    PhysicalBlockTable :=
  match physical.get p with
  | none => physical
  | some rec =>
    physical.put { rec with contentHash := contentHash sha payload, nbytes := payload.length }

/-- The call under way, from one await to the next. -/
def resume (sha : Sha256) (p : StableId) (c : Concurrent) : Concurrent :=
  match c.caller with
  | .idle => c
  | .writing tier key payload =>
    match c.m.providers.put tier key payload with
    | .error _ => { c with caller := .idle }
    | .ok providers => { c with m := { c.m with providers }, caller := .written payload }
  | .written payload =>
    { c with
      m := { c.m with physical := restamp sha c.m.physical p payload }
      caller := .idle
      lastWrite := payload }
  | .releasing [] => { c with caller := .idle }
  | .releasing (pid :: todo) =>
    let (remaining, physical) := c.m.physical.release pid
    { c with
      m := { c.m with physical }
      caller := if remaining = 0 then .probing pid releaseTiers todo else .releasing todo }
  | .probing _ [] todo => { c with caller := .releasing todo }
  | .probing pid (tier :: tiers) todo =>
    match c.m.providers.existsKey tier pid with
    | .ok true => { c with caller := .removing pid tier tiers todo }
    | _ => { c with caller := .probing pid tiers todo }
  | .removing pid tier tiers todo =>
    match c.m.providers.delete tier pid with
    | .error _ => { c with caller := .probing pid tiers todo }
    | .ok providers => { c with m := { c.m with providers }, caller := .releasing todo }

-- ------ Steps

def step (sha : Sha256) (policy : TieringPolicy) (p : StableId) (target : StorageTier)
    (c : Concurrent) : Action → Concurrent
  | .writeCow payload => if c.caller = .idle then c.beginWrite sha p payload else c
  | .readPayload now => if c.caller = .idle then c.read p now else c
  | .releaseSession sessionId => if c.caller = .idle then c.beginRelease sessionId else c
  | .resume => c.resume sha p
  | .migrate now => c.migrate policy p target now

/-- No update is lost: every read of the live block has returned the most recent
write, and once a release has dropped the block and is over, no tier holds bytes
under its key. -/
def NoLostUpdate (p key : StableId) (c : Concurrent) : Prop :=
  (∀ entry ∈ c.reads, entry.1 = .ok entry.2) ∧
    (c.caller = .idle → c.m.physical.get p = none →
      ∀ tier, c.m.providers.content tier key = none)

-- ------ Each side alone

variable (sha : Sha256) (policy : TieringPolicy) (p : StableId) (target : StorageTier)

variable {c : Concurrent}

/-- **A migration nothing runs beside is `migrateBlock`**, wherever the caller stands. -/
theorem migrate_alone (c : Concurrent) (now : Time) :
    exec (step sha policy p target) { c with migrator := .idle }
        (List.replicate 5 (.migrate now)) =
      { c with m := (c.m.migrateBlock policy p target now).2, migrator := .done } := by
  obtain ⟨m, migrator, caller, lastWrite, reads⟩ := c
  simp only [List.replicate, exec, List.foldl_cons, List.foldl_nil, step]
  -- the checks decide whether the first await is reached, each operation whether the next is
  cases hp : m.physical.get p with
  | none => simp [migrate, beginMigration, KVBlockManager.migrateBlock, hp]
  | some rec =>
    have hId := PhysicalBlockTable.get_physicalId hp
    by_cases hTier : rec.tier = target
    · simp [migrate, beginMigration, KVBlockManager.migrateBlock, hp, hTier]
    by_cases hFuture : target = .futureCxl ∨ target = .futureMte
    · simp [migrate, beginMigration, KVBlockManager.migrateBlock, hp, hTier, hFuture]
    by_cases hMissing :
        (m.providers.getTier rec.tier).isNone ∨ (m.providers.getTier target).isNone
    · simp only [migrate, beginMigration, KVBlockManager.migrateBlock, hp, hTier, hFuture,
        hMissing, if_true, if_false]
    have hBegin : beginMigration m p target = .started rec := by
      simp only [beginMigration, hp, hTier, hFuture, hMissing, if_false]
    simp only [KVBlockManager.migrateBlock, hp, hTier, hFuture, hMissing, if_false]
    cases hGet : m.providers.get rec.tier rec.providerKey with
    | error e => simp only [migrate, hBegin, hGet]
    | ok data =>
      cases hPut : m.providers.put target rec.providerKey data with
      | error e => simp only [migrate, hBegin, hGet, hPut]
      | ok copied =>
        cases hDel : copied.delete rec.tier rec.providerKey with
        | error e => simp only [migrate, hBegin, hGet, hPut, hDel]
        | ok moved =>
          cases hFinish : finishMigration policy m.physical rec target now <;>
            simp only [migrate, hBegin, hGet, hPut, hDel, hFinish]

/-- **A write nothing runs beside is `writeCow`**, in place or to a clone, whether it returns
or raises. -/
theorem write_alone (c : Concurrent) (payload : Bytes) :
    (exec (step sha policy p target) { c with caller := .idle }
      [.writeCow payload, .resume, .resume]).m = (c.m.writeCow sha p payload).2 := by
  obtain ⟨m, migrator, caller, lastWrite, reads⟩ := c
  simp only [exec, List.foldl_cons, List.foldl_nil, step, if_true, beginWrite,
    KVBlockManager.writeCow]
  by_cases hCow : m.needsCow p = true
  · simp only [hCow, if_true]
    rcases m.writeClone sha p payload with ⟨r, m'⟩
    cases r <;> rfl
  simp only [hCow, Bool.false_eq_true, if_false, KVBlockManager.writeInPlace]
  cases hp : m.physical.get p with
  | none => rfl
  | some rec =>
    dsimp only
    cases hFor : m.providers.forTier rec.tier with
    | error e =>
      have hPut : m.providers.put rec.tier rec.providerKey payload = .error e := by
        rw [ProviderRegistry.put, hFor]
        rfl
      rw [hPut]
      rfl
    | ok provider =>
      cases hPut : m.providers.put rec.tier rec.providerKey payload with
      | error e => simp only [resume, hPut]
      | ok providers => simp only [resume, hPut, restamp, hp]

theorem probe_alone {pid : StableId} {tiers : List StorageTier} {todo : List StableId}
    (h : c.caller = .probing pid tiers todo) :
    ∃ n, exec (step sha policy p target) c (List.replicate n .resume) =
      { c with
        m := { c.m with providers := deleteFromTiers pid tiers c.m.providers }
        caller := .releasing todo } := by
  obtain ⟨m, migrator, caller, lastWrite, reads⟩ := c
  obtain rfl : caller = .probing pid tiers todo := h
  induction tiers with
  | nil => exact ⟨1, rfl⟩
  | cons tier tiers ih =>
    obtain ⟨n, hn⟩ := ih
    -- a tier without the key, or one that raises, is passed over
    have hNext : ∀ k, exec (step sha policy p target)
        ⟨m, migrator, .probing pid (tier :: tiers) todo, lastWrite, reads⟩
          (List.replicate k .resume) = ⟨m, migrator, .probing pid tiers todo, lastWrite, reads⟩ →
        deleteFromTiers pid (tier :: tiers) m.providers = deleteFromTiers pid tiers m.providers →
        ∃ n, exec (step sha policy p target)
          ⟨m, migrator, .probing pid (tier :: tiers) todo, lastWrite, reads⟩
            (List.replicate n .resume) =
          ⟨{ m with providers := deleteFromTiers pid (tier :: tiers) m.providers }, migrator,
            .releasing todo, lastWrite, reads⟩ := by
      intro k hExec hDel
      refine ⟨k + n, ?_⟩
      rw [List.replicate_add, Run.exec_append, hExec, hn, hDel]
    cases hEx : m.providers.existsKey tier pid with
    | error e =>
      refine hNext 1 ?_ ?_
      · simp [exec, step, resume, hEx]
      · simp [deleteFromTiers, hEx]
    | ok found =>
      cases found with
      | false =>
        refine hNext 1 ?_ ?_
        · simp [exec, step, resume, hEx]
        · simp [deleteFromTiers, hEx]
      | true =>
        cases hDel : m.providers.delete tier pid with
        | error e =>
          refine hNext 2 ?_ ?_
          · simp [exec, step, resume, hEx, hDel]
          · simp [deleteFromTiers, hEx, hDel]
        | ok providers =>
          refine ⟨2, ?_⟩
          simp [exec, step, resume, deleteFromTiers, hEx, hDel]

theorem drop_alone (todo : List StableId) (h : c.caller = .releasing todo) :
    ∃ n, exec (step sha policy p target) c (List.replicate n .resume) =
      { c with m := todo.foldl releaseBlock c.m, caller := .idle } := by
  induction todo generalizing c with
  | nil => exact ⟨1, by simp [exec, step, resume, h]⟩
  | cons pid todo ih =>
    -- after `pid` is dropped, with its bytes where it was the last reference
    have hOne : ∃ n, exec (step sha policy p target) c (List.replicate n .resume) =
        { c with m := c.m.releaseBlock pid, caller := .releasing todo } := by
      by_cases hLast : (c.m.physical.release pid).1 = 0
      · obtain ⟨n, hn⟩ := probe_alone sha policy p target
          (c := { c with
            m := { c.m with physical := (c.m.physical.release pid).2 }
            caller := .probing pid releaseTiers todo }) rfl
        refine ⟨n + 1, ?_⟩
        rw [List.replicate_succ, Run.exec_cons]
        have hStep : step sha policy p target c .resume =
            { c with
              m := { c.m with physical := (c.m.physical.release pid).2 }
              caller := .probing pid releaseTiers todo } := by
          simp [step, resume, h, hLast]
        rw [hStep, hn]
        simp [KVBlockManager.releaseBlock, hLast]
      · refine ⟨1, ?_⟩
        simp [exec, step, resume, h, hLast, KVBlockManager.releaseBlock]
    obtain ⟨k, hk⟩ := hOne
    obtain ⟨n, hn⟩ := ih (c := { c with m := c.m.releaseBlock pid, caller := .releasing todo }) rfl
    refine ⟨k + n, ?_⟩
    rw [List.replicate_add, Run.exec_append, hk, hn]
    rfl

/-- **A release nothing runs beside is `releaseSession`.** -/
theorem release_alone (c : Concurrent) (sessionId : String) :
    ∃ n, exec (step sha policy p target) { c with caller := .idle }
        (.releaseSession sessionId :: List.replicate n .resume) =
      { c with m := c.m.releaseSession sessionId, caller := .idle } := by
  obtain ⟨m, migrator, caller, lastWrite, reads⟩ := c
  cases hs : m.sessions.get? sessionId with
  | none =>
    refine ⟨0, ?_⟩
    simp [step, beginRelease, hs, KVBlockManager.releaseSession_of_none hs]
  | some session =>
    obtain ⟨n, hn⟩ := drop_alone sha policy p target session.physicalIds
      (c := ⟨m.popSession sessionId, migrator,
        .releasing session.physicalIds, lastWrite, reads⟩) rfl
    refine ⟨n, ?_⟩
    have hStep : step sha policy p target ⟨m, migrator, .idle, lastWrite, reads⟩
        (.releaseSession sessionId) = ⟨m.popSession sessionId, migrator,
          .releasing session.physicalIds, lastWrite, reads⟩ := by
      simp [step, beginRelease, hs]
    rw [Run.exec_cons, hStep, hn, KVBlockManager.releaseSession_of_some hs]

end Concurrent

end Neuroswarm.Kv
