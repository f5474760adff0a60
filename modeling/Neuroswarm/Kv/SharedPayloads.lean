import Neuroswarm.Kv.Runtime
import Neuroswarm.Lib.Run
import Mathlib.Data.Finset.Card

/-!
# KV memory runtime — shared payloads and their consumers

A consumer holds a share of a block from a `share` call that returns until it
calls `release` on the backend. `Tracked` follows a runtime manager together
with the consumers that hold a share of each key.

* `share_cases` — a `share` call leaves the backend alone, or resets the key to
  two references.
* `outlivesConsumers_along_iff` — a key is loadable and counts one reference
  more than it has consumers throughout a run, iff no key is shared while
  another consumer holds it, and no one releases a share held by others only.
-/

namespace Neuroswarm.Kv

open Run (exec Along Every)

/-- The call to `share` is authorized and the block can be read. -/
def KVRuntimeManager.CanShare (σ : KVRuntimeManager) (pid : StableId) (sessionId : String)
    (token : Option String) (now : Time) : Prop :=
  (token.getD "" ≠ "" ∧ sessionId ≠ "" →
      (σ.security.authorize (token.getD "") sessionId false true now).1 = true) ∧
    ∃ data, (σ.blockManager.readPayload pid now).1 = .ok data

/-- **What `share` does to the backend.** A call that is refused, or that cannot
read the block, raises and leaves it alone. Any other call returns and leaves
the payload with two references, whatever the key had before. -/
theorem share_cases (σ : KVRuntimeManager) (pid : StableId) (consumerId sessionId : String)
    (token : Option String) (created : Bool) (now : Time) :
    (¬ σ.CanShare pid sessionId token now ∧
      (σ.share pid consumerId sessionId token created now).1.isOk = false ∧
      (σ.share pid consumerId sessionId token created now).2.sharing = σ.sharing) ∨
    (σ.CanShare pid sessionId token now ∧
      (σ.share pid consumerId sessionId token created now).1.isOk = true ∧
      ∃ data b, (σ.share pid consumerId sessionId token created now).2.sharing = b ∧
        b.load pid = .ok data ∧ b.referenceCount pid = 2 ∧
        ∀ q, q ≠ pid → σ.sharing.SameAt b q) := by
  -- the outcome of the authorization, and what it leaves of the policy
  generalize hAuth : (if token.getD "" ≠ "" ∧ sessionId ≠ "" then
    σ.security.authorize (token.getD "") sessionId false true now
    else (true, σ.security)) = auth
  obtain ⟨granted, security⟩ := auth
  have hGranted : granted = true ↔ (token.getD "" ≠ "" ∧ sessionId ≠ "" →
      (σ.security.authorize (token.getD "") sessionId false true now).1 = true) := by
    split at hAuth
    · next hAsked => simp [hAuth, hAsked]
    · next hAsked =>
      obtain ⟨rfl, -⟩ := Prod.mk.inj hAuth
      exact ⟨fun _ h => absurd h hAsked, fun _ => rfl⟩
  unfold KVRuntimeManager.share
  dsimp only
  rw [hAuth]
  dsimp only
  cases granted with
  | false =>
    refine Or.inl ⟨fun hCan => ?_, rfl, rfl⟩
    exact absurd (hGranted.mpr hCan.1) (by decide)
  | true =>
    rw [if_neg (by decide)]
    cases hRead : σ.blockManager.readPayload pid now with
    | mk result m =>
      cases result with
      | error e =>
        refine Or.inl ⟨fun hCan => ?_, rfl, rfl⟩
        obtain ⟨data, hData⟩ := hCan.2
        rw [hRead] at hData
        exact absurd hData (by simp)
      | ok data =>
        obtain ⟨b, hShare, hLoad, hCount, hSame⟩ :=
          SharingBackend.store_share σ.sharing pid data created consumerId
        dsimp only
        rw [hShare]
        exact Or.inr ⟨⟨hGranted.mp rfl, data, by rw [hRead]⟩, rfl, data, b, rfl, hLoad, hCount,
          hSame⟩

-- ------ Runs

structure Tracked where
  runtime : KVRuntimeManager
  consumers : StableId → Finset String

namespace Tracked

/-- Nobody holds a share yet. -/
def start (σ : KVRuntimeManager) : Tracked := ⟨σ, fun _ => ∅⟩

/-- A `share` that returns adds its consumer, a backend `release` takes it out. -/
def step (sha : Sha256) (t : Tracked) (op : RuntimeOp) : Tracked where
  runtime := t.runtime.step sha op
  consumers :=
    match op with
    | .share pid consumerId sessionId token created now =>
      if (t.runtime.share pid consumerId sessionId token created now).1.isOk then
        Function.update t.consumers pid (insert consumerId (t.consumers pid))
      else t.consumers
    | .releaseShare key consumerId =>
      Function.update t.consumers key ((t.consumers key).erase consumerId)
    | _ => t.consumers

/-- A key that someone holds a share of can be loaded, and counts one reference
more than it has consumers. -/
def OutlivesConsumers (t : Tracked) : Prop :=
  ∀ p, t.consumers p ≠ ∅ →
    (∃ data, t.runtime.sharing.load p = .ok data) ∧
      t.runtime.sharing.referenceCount p = 1 + (t.consumers p).card

def OneAtATime (t : Tracked) : RuntimeOp → Prop
  | .share pid consumerId sessionId token _ now =>
    t.runtime.CanShare pid sessionId token now → t.consumers pid ⊆ {consumerId}
  | .releaseShare key consumerId => consumerId ∈ t.consumers key ∨ t.consumers key = ∅
  | _ => True

variable {sha : Sha256} {t t' : Tracked}

theorem OutlivesConsumers.load_ne_error (h : t.OutlivesConsumers) {p : StableId}
    (hSome : t.consumers p ≠ ∅) {e : KvError} : t.runtime.sharing.load p ≠ .error e := by
  obtain ⟨⟨data, hData⟩, -⟩ := h p hSome
  rw [hData]
  simp

theorem OutlivesConsumers.congr (h : t.OutlivesConsumers)
    (hSharing : t'.runtime.sharing = t.runtime.sharing) (hCons : t'.consumers = t.consumers) :
    t'.OutlivesConsumers := by
  unfold OutlivesConsumers
  rw [hSharing, hCons]
  exact h

theorem OutlivesConsumers.of_key (h : t.OutlivesConsumers) (key : StableId)
    (hOther : ∀ q, q ≠ key → t.runtime.sharing.SameAt t'.runtime.sharing q)
    (hCons : ∀ q, q ≠ key → t'.consumers q = t.consumers q)
    (hKey : t'.consumers key ≠ ∅ →
      (∃ data, t'.runtime.sharing.load key = .ok data) ∧
        t'.runtime.sharing.referenceCount key = 1 + (t'.consumers key).card) :
    t'.OutlivesConsumers := by
  intro q hq
  by_cases hEq : q = key
  · subst hEq
    exact hKey hq
  · obtain ⟨hLoad, hCount⟩ := hOther q hEq
    rw [hCons q hEq] at hq ⊢
    rw [hLoad, hCount]
    exact h q hq

theorem step_sharing (sha : Sha256) (t : Tracked) (op : RuntimeOp) (hShare : ∀ p c s tok cr n, op ≠ .share p c s tok cr n)
    (hRelease : ∀ p c, op ≠ .releaseShare p c) :
    (t.step sha op).runtime.sharing = t.runtime.sharing ∧
      (t.step sha op).consumers = t.consumers := by
  have hRestore : ∀ sessionId, (t.runtime.restore sha sessionId).2.sharing =
      t.runtime.sharing := by
    intro sessionId
    unfold KVRuntimeManager.restore
    dsimp only
    repeat' split
    all_goals rfl
  cases op with
  | share p c s tok cr n => exact absurd rfl (hShare p c s tok cr n)
  | releaseShare p c => exact absurd rfl (hRelease p c)
  | checkpoint sessionId now =>
    refine ⟨?_, rfl⟩
    show (t.runtime.checkpoint sha sessionId now).2.sharing = _
    unfold KVRuntimeManager.checkpoint
    repeat' split
    all_goals rfl
  | restore sessionId => exact ⟨hRestore sessionId, rfl⟩
  | resume sessionId =>
    refine ⟨?_, rfl⟩
    show (t.runtime.resume sha sessionId).2.sharing = _
    unfold KVRuntimeManager.resume
    split
    · rfl
    · exact hRestore sessionId
  | _ => exact ⟨rfl, rfl⟩

/-- After a `share` that returns: the consumers and the references of its key. -/
theorem step_share (sha : Sha256) (consumerId : String) (created : Bool) {pid : StableId}
    {sessionId : String} {token : Option String} {now : Time} (hCan : t.runtime.CanShare pid sessionId token now) :
    (t.step sha (.share pid consumerId sessionId token created now)).consumers =
        Function.update t.consumers pid (insert consumerId (t.consumers pid)) ∧
      ∃ data b, (t.step sha (.share pid consumerId sessionId token created now)).runtime.sharing
          = b ∧
        b.load pid = .ok data ∧ b.referenceCount pid = 2 ∧
        ∀ q, q ≠ pid → t.runtime.sharing.SameAt b q := by
  rcases share_cases t.runtime pid consumerId sessionId token created now with
    ⟨hNot, -⟩ | ⟨-, hOk, hBackend⟩
  · exact absurd hCan hNot
  · refine ⟨?_, hBackend⟩
    show (if _ then _ else _) = _
    rw [if_pos hOk]

theorem step_share_refused (sha : Sha256) (consumerId : String) (created : Bool)
    {pid : StableId} {sessionId : String} {token : Option String} {now : Time}
    (hCan : ¬ t.runtime.CanShare pid sessionId token now) :
    (t.step sha (.share pid consumerId sessionId token created now)).runtime.sharing =
        t.runtime.sharing ∧
      (t.step sha (.share pid consumerId sessionId token created now)).consumers =
        t.consumers := by
  rcases share_cases t.runtime pid consumerId sessionId token created now with
    ⟨-, hError, hSame⟩ | ⟨hYes, -⟩
  · refine ⟨hSame, ?_⟩
    show (if _ then _ else _) = _
    rw [hError]
    rfl
  · exact absurd hYes hCan

theorem OutlivesConsumers.step (h : t.OutlivesConsumers) {op : RuntimeOp}
    (hC : t.OneAtATime op) : (t.step sha op).OutlivesConsumers := by
  by_cases hShare : ∃ p c s tok cr n, op = .share p c s tok cr n
  · obtain ⟨pid, consumerId, sessionId, token, created, now, rfl⟩ := hShare
    by_cases hCan : t.runtime.CanShare pid sessionId token now
    · obtain ⟨hCons, data, b, hB, hLoad, hCount, hSame⟩ := step_share sha consumerId created hCan
      refine h.of_key pid (fun q hq => hB ▸ hSame q hq) (fun q hq => ?_) fun _ => ?_
      · rw [hCons, Function.update_of_ne hq]
      · -- the only consumer left is the one that has just shared
        have hOnly : insert consumerId (t.consumers pid) = {consumerId} :=
          Finset.Subset.antisymm
            (Finset.insert_subset (Finset.mem_singleton_self _) (hC hCan))
            (Finset.singleton_subset_iff.mpr (Finset.mem_insert_self _ _))
        rw [hB, hCons, Function.update_self, hOnly]
        exact ⟨⟨data, hLoad⟩, hCount⟩
    · obtain ⟨hSharing, hCons⟩ := step_share_refused sha consumerId created hCan
      exact h.congr hSharing hCons
  · by_cases hRelease : ∃ p c, op = .releaseShare p c
    · obtain ⟨key, consumerId, rfl⟩ := hRelease
      have hCons : (t.step sha (.releaseShare key consumerId)).consumers =
          Function.update t.consumers key ((t.consumers key).erase consumerId) := rfl
      refine h.of_key key (fun q hq => SharingBackend.release_ne _ hq _)
        (fun q hq => by rw [hCons, Function.update_of_ne hq]) fun hLeft => ?_
      rw [hCons, Function.update_self] at hLeft ⊢
      -- someone is left, so the one who releases was not alone
      rcases hC with hMem | hNone
      · obtain ⟨hLoad, hCount⟩ := h key (Finset.ne_empty_of_mem hMem)
        have hCard := Finset.card_erase_add_one hMem
        have hPos := Finset.card_pos.mpr (Finset.nonempty_iff_ne_empty.mpr hLeft)
        obtain ⟨hSame, hLess⟩ := SharingBackend.release_shared
          (show 2 ≤ t.runtime.sharing.referenceCount key by omega) consumerId
        refine ⟨hSame ▸ hLoad, ?_⟩
        show (t.runtime.sharing.release key consumerId).referenceCount key = _
        omega
      · rw [hNone] at hLeft
        exact absurd rfl hLeft
    · obtain ⟨hSharing, hCons⟩ := step_sharing sha t op
        (fun p c s tok cr n hEq => hShare ⟨p, c, s, tok, cr, n, hEq⟩)
        (fun p c hEq => hRelease ⟨p, c, hEq⟩)
      exact h.congr hSharing hCons

theorem OutlivesConsumers.not_step (h : t.OutlivesConsumers) {op : RuntimeOp}
    (hC : ¬ t.OneAtATime op) : ¬ (t.step sha op).OutlivesConsumers := by
  intro hAfter
  cases op with
  | share pid consumerId sessionId token created now =>
    -- the key counts two references, its consumers are at least two
    obtain ⟨hCan, hOther⟩ := Classical.not_imp.mp hC
    obtain ⟨hCons, data, b, hB, -, hCount, -⟩ := step_share sha consumerId created hCan
    obtain ⟨other, hMem, hNe⟩ := Finset.not_subset.mp hOther
    have hKey := hAfter pid (by
      rw [hCons, Function.update_self]
      exact Finset.insert_ne_empty _ _)
    have hTwo : 1 < (insert consumerId (t.consumers pid)).card :=
      Finset.one_lt_card.mpr ⟨consumerId, Finset.mem_insert_self _ _, other,
        Finset.mem_insert_of_mem hMem, fun hEq => hNe (Finset.mem_singleton.mpr hEq.symm)⟩
    rw [hB, hCount, hCons, Function.update_self] at hKey
    omega
  | releaseShare key consumerId =>
    -- the count drops, the consumers stay
    obtain ⟨hNotMem, hSome⟩ := not_or.mp hC
    have hCons : (t.step sha (.releaseShare key consumerId)).consumers key =
        t.consumers key := by
      show Function.update _ _ _ _ = _
      rw [Function.update_self, Finset.erase_eq_of_notMem hNotMem]
    have hPos := Finset.card_pos.mpr (Finset.nonempty_iff_ne_empty.mpr hSome)
    obtain ⟨-, hCount⟩ := h key hSome
    obtain ⟨-, hLess⟩ := SharingBackend.release_shared
      (show 2 ≤ t.runtime.sharing.referenceCount key by omega) consumerId
    obtain ⟨-, hCount'⟩ := hAfter key (hCons ▸ hSome)
    rw [hCons] at hCount'
    have hSame : (t.runtime.sharing.release key consumerId).referenceCount key =
        1 + (t.consumers key).card := hCount'
    omega
  | _ => exact hC trivial

end Tracked

/-- **When a shared payload outlives its consumers.** From any runtime manager
with any backend, and any calls in between: every key that someone holds a share
of is loadable and counts one reference more than it has consumers, throughout
the run, iff no key is shared while another consumer holds it and only its
consumers release it. -/
theorem outlivesConsumers_along_iff (sha : Sha256) (σ : KVRuntimeManager)
    (ops : List RuntimeOp) :
    Along (Tracked.step sha) Tracked.OutlivesConsumers (.start σ) ops ↔
      Every (Tracked.step sha) Tracked.OneAtATime (.start σ) ops :=
  Run.along_iff_every (fun _ h => h) (fun _ _ h hC => h.step hC) (fun _ _ h hC => h.not_step hC)
    (fun _ hSome => absurd rfl hSome) ops

def threeConsumers : List RuntimeOp :=
  [.allocate { sessionId := "s", payload := [1] } 0,
   .share ⟨.phys, 0⟩ "a" "" none true 1, .share ⟨.phys, 0⟩ "b" "" none true 2,
   .share ⟨.phys, 0⟩ "c" "" none true 3,
   .releaseShare ⟨.phys, 0⟩ "a", .releaseShare ⟨.phys, 0⟩ "b"]

theorem threeConsumers_lose {b : SharingBackend}
    (hb : b ∈ [SharingBackend.shm {}, .mmap {}, .lmdb {}]) :
    ¬ Along (Tracked.step .spelled) Tracked.OutlivesConsumers (.start (.new .plain b))
      threeConsumers := by
  have hHolds : ∀ b ∈ [SharingBackend.shm {}, .mmap {}, .lmdb {}],
      (exec (Tracked.step .spelled) (.start (.new .plain b))
        threeConsumers).consumers ⟨.phys, 0⟩ ≠ ∅ := by
    decide +kernel
  have hLost : ∀ b ∈ [SharingBackend.shm {}, .mmap {}, .lmdb {}],
      (exec (Tracked.step .spelled) (.start (.new .plain b))
        threeConsumers).runtime.sharing.load ⟨.phys, 0⟩ =
          .error (.missingPayload ⟨.phys, 0⟩) := by
    decide +kernel
  intro hAlong
  exact hAlong.exec.load_ne_error (hHolds b hb) (hLost b hb)

/-- So it goes on every backend. -/
theorem not_outlivesConsumers_three :
    ¬ Along (Tracked.step .spelled) Tracked.OutlivesConsumers (.start (.new .plain (.shm {})))
      threeConsumers ∧
    ¬ Along (Tracked.step .spelled) Tracked.OutlivesConsumers (.start (.new .plain (.mmap {})))
      threeConsumers ∧
    ¬ Along (Tracked.step .spelled) Tracked.OutlivesConsumers (.start (.new .plain (.lmdb {})))
      threeConsumers :=
  ⟨threeConsumers_lose (by simp), threeConsumers_lose (by simp), threeConsumers_lose (by simp)⟩

end Neuroswarm.Kv
