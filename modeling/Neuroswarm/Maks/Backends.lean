import Mathlib.Logic.Function.Basic
import Neuroswarm.Maks.Pool

/-!
# MAKS — storage backends and tiers

`backends/`, and the ladders of `tier_manager.py` and `migration.py`.

Every backend is a map from kv ids to bytes. They differ in whether they exist
on the host at all (`AVAILABLE`) and in the codec the NVMe one packs with. Any
call of a backend that exists may raise (an unreachable server, a full disk):
`Setup.ioFails` is the outcome of the n-th call, so a theorem over every setup
is one over every pattern of faults. Pinning, warming and cooling sets inside
the backends are left out: nothing reads them back.

`Backends.content` is what a load would return, decoded.
-/

namespace Neuroswarm.Maks

open Neuroswarm.Kv (Bytes Time encode)

structure Backend where
  /-- `AVAILABLE`. -/
  available : Bool
  codec : Option Codec

namespace Backend

def plain : Backend := { available := true, codec := none }

/-- `NVMeBackend.store` packs before it writes. -/
def pack (be : Backend) (data : Bytes) : Except CompressError Bytes :=
  match be.codec with
  | none => .ok data
  | some codec => codec.compress data

def unpack (be : Backend) (packed : Bytes) : Option Bytes :=
  match be.codec with
  | none => some packed
  | some codec => codec.decompress packed

def Lossless (be : Backend) : Prop := ∀ codec, be.codec = some codec → codec.Lossless

theorem Lossless.unpack_pack {be : Backend} (h : be.Lossless) {data packed : Bytes}
    (hp : be.pack data = .ok packed) : be.unpack packed = some data := by
  unfold pack at hp
  unfold unpack
  cases hc : be.codec with
  | none =>
    rw [hc] at hp
    rw [Except.ok.inj hp]
  | some codec =>
    rw [hc] at hp
    exact (h codec hc data).1 packed hp

end Backend

/-- What `KVManager.__init__` is given, and the world around it. -/
structure Setup where
  providers : ProviderName → Option Backend
  /-- Whether the n-th backend call raises. -/
  ioFails : ProviderName → Nat → Bool := fun _ _ => false
  /-- The place of an id among all spelled ids. -/
  rank : KvId → Nat := KvId.draw
  hasher : Hasher
  compression : Codec := .none
  capabilities : String → CapabilityFlags := fun _ => ⟨true, true⟩
  defaultProvider : ProviderName := .ram
  defaultBackendId : String := "opaque"
  ramBudgetBytes : Nat := 512 * 1024 * 1024
  pageBytes : Nat := 64 * 1024
  enableDedup : Bool := true
  defaultTtlS : Int := 0

/-- A host with the four backends that exist today, none of which fails. -/
def Setup.onHost : Setup where
  providers
    | .ram => some .plain
    | .mmap => some .plain
    | .redis => some .plain
    | .nvme => some .plain
    | .futureMte => some { Backend.plain with available := false }
    | .futureCxl => some { Backend.plain with available := false }
  hasher := .spelled

/-- What the backends hold, and how many calls they answered. -/
structure Backends where
  stores : ProviderName → Dict KvId Bytes := fun _ => Dict.empty
  calls : Nat := 0

namespace Backends

variable (S : Setup)

/-- `allocate(kv_id, size)`: a location, no storage. -/
def allocate (p : ProviderName) (kvId : KvId) : Except MAKSError Location :=
  match S.providers p with
  | none => .error (.providerKeyError p)
  | some be => if be.available then .ok ⟨p, kvId⟩ else .error (.providerUnavailable p)

def store (b : Backends) (p : ProviderName) (kvId : KvId) (data : Bytes) :
    Backends × Except MAKSError Unit :=
  match S.providers p with
  | none => (b, .error (.providerKeyError p))
  | some be =>
    if be.available then
      match be.pack data with
      | .error _ => (b, .error .codecError)
      | .ok packed =>
        if S.ioFails p b.calls then ({ b with calls := b.calls + 1 }, .error (.providerError p))
        else
          ({ stores := Function.update b.stores p ((b.stores p).set kvId packed)
             calls := b.calls + 1 }, .ok ())
    else (b, .error (.providerUnavailable p))

def load (b : Backends) (p : ProviderName) (kvId : KvId) : Backends × Except MAKSError Bytes :=
  match S.providers p with
  | none => (b, .error (.providerKeyError p))
  | some be =>
    if be.available then
      if S.ioFails p b.calls then ({ b with calls := b.calls + 1 }, .error (.providerError p))
      else
        ({ b with calls := b.calls + 1 },
          match (b.stores p).get? kvId with
          | none => .error (.notFound kvId)
          | some packed =>
            match be.unpack packed with
            | none => .error .codecError
            | some data => .ok data)
    else (b, .error (.providerUnavailable p))

def delete (b : Backends) (p : ProviderName) (kvId : KvId) : Backends × Except MAKSError Unit :=
  match S.providers p with
  | none => (b, .error (.providerKeyError p))
  | some be =>
    if be.available then
      if S.ioFails p b.calls then ({ b with calls := b.calls + 1 }, .error (.providerError p))
      else
        ({ stores := Function.update b.stores p ((b.stores p).erase kvId)
           calls := b.calls + 1 }, .ok ())
    else (b, .error (.providerUnavailable p))

/-- `share(kv_id, consumer)`: the RAM backend copies the payload into shared
memory, the others only spell a token. -/
def share (b : Backends) (p : ProviderName) : Backends × Except MAKSError Unit :=
  match S.providers p with
  | none => (b, .error (.providerKeyError p))
  | some _ =>
    if p = .ram then
      if S.ioFails p b.calls then ({ b with calls := b.calls + 1 }, .error (.providerError p))
      else ({ b with calls := b.calls + 1 }, .ok ())
    else (b, .ok ())

/-- `self._provider(name)`, for calls that only touch a backend's own sets. -/
def known (p : ProviderName) : Except MAKSError Unit :=
  match S.providers p with
  | none => .error (.providerKeyError p)
  | some _ => .ok ()

/-- What a load of `kv_id` from `p` returns when the call does not raise. -/
def content (b : Backends) (p : ProviderName) (kvId : KvId) : Option Bytes :=
  match S.providers p with
  | none => none
  | some be => ((b.stores p).get? kvId).bind be.unpack

variable {S} {b b' : Backends} {p : ProviderName} {kvId : KvId} {data : Bytes}

theorem store_spec {r : Except MAKSError Unit} (h : b.store S p kvId data = (b', r)) :
    (∀ q k, ¬ (q = p ∧ k = kvId) → (b'.stores q).get? k = (b.stores q).get? k) ∧
    (r ≠ .ok () → b'.stores = b.stores) ∧
    (r = .ok () → (∀ be, S.providers p = some be → be.Lossless) →
      b'.content S p kvId = some data) := by
  unfold store at h
  cases hp : S.providers p with
  | none =>
    rw [hp] at h
    cases h
    exact ⟨fun _ _ _ => rfl, fun _ => rfl, fun hr => by cases hr⟩
  | some be =>
    rw [hp] at h
    dsimp only at h
    by_cases ha : be.available
    · rw [if_pos ha] at h
      cases hd : be.pack data with
      | error e =>
        rw [hd] at h
        cases h
        exact ⟨fun _ _ _ => rfl, fun _ => rfl, fun hr => by cases hr⟩
      | ok packed =>
        rw [hd] at h
        dsimp only at h
        split at h
        · cases h
          exact ⟨fun _ _ _ => rfl, fun _ => rfl, fun hr => by cases hr⟩
        · cases h
          refine ⟨?_, fun hr => absurd rfl hr, ?_⟩
          · intro q k hqk
            by_cases hq : q = p
            · subst hq
              have hk : k ≠ kvId := fun hk => hqk ⟨rfl, hk⟩
              simp [Dict.get?_set_ne _ _ hk]
            · simp [hq]
          · intro _ hL
            unfold content
            rw [hp]
            simp [(hL be rfl).unpack_pack hd]
    · rw [if_neg ha] at h
      cases h
      exact ⟨fun _ _ _ => rfl, fun _ => rfl, fun hr => by cases hr⟩

theorem load_spec {r : Except MAKSError Bytes} (h : b.load S p kvId = (b', r)) :
    b'.stores = b.stores ∧ ∀ d, r = .ok d → b.content S p kvId = some d := by
  unfold load at h
  cases hp : S.providers p with
  | none =>
    rw [hp] at h
    cases h
    exact ⟨rfl, fun d hd => by cases hd⟩
  | some be =>
    rw [hp] at h
    dsimp only at h
    unfold content
    rw [hp]
    by_cases ha : be.available
    · rw [if_pos ha] at h
      split at h
      · cases h
        exact ⟨rfl, fun d hd => by cases hd⟩
      · cases h
        refine ⟨rfl, fun d hd => ?_⟩
        cases hs : (b.stores p).get? kvId with
        | none => rw [hs] at hd; cases hd
        | some packed =>
          rw [hs] at hd
          dsimp only at hd ⊢
          cases hu : be.unpack packed with
          | none => rw [hu] at hd; cases hd
          | some d' =>
            rw [hu] at hd
            rw [Option.bind_some, hu, ← Except.ok.inj hd]
    · rw [if_neg ha] at h
      cases h
      exact ⟨rfl, fun d hd => by cases hd⟩

theorem load_content {be : Backend} (hp : S.providers p = some be) (ha : be.available = true)
    (hc : b.content S p kvId = some data) (hio : S.ioFails p b.calls = false) :
    (b.load S p kvId).2 = .ok data := by
  unfold content at hc
  unfold load
  rw [hp] at hc ⊢
  dsimp only at hc ⊢
  rw [if_pos ha, hio]
  obtain ⟨packed, hs, hu⟩ := Option.bind_eq_some_iff.mp hc
  simp [hs, hu]

theorem delete_spec {r : Except MAKSError Unit} (h : b.delete S p kvId = (b', r)) :
    ∀ q k, ¬ (q = p ∧ k = kvId) → (b'.stores q).get? k = (b.stores q).get? k := by
  unfold delete at h
  intro q k hqk
  cases hp : S.providers p with
  | none =>
    rw [hp] at h
    cases h
    rfl
  | some be =>
    rw [hp] at h
    dsimp only at h
    split at h
    · split at h
      · cases h
        rfl
      · cases h
        by_cases hq : q = p
        · subst hq
          have hk : k ≠ kvId := fun hk => hqk ⟨rfl, hk⟩
          simp [Dict.get?_erase_ne _ hk]
        · simp [hq]
    · cases h
      rfl

theorem share_stores {r : Except MAKSError Unit} (h : b.share S p = (b', r)) :
    b'.stores = b.stores := by
  unfold share at h
  cases hp : S.providers p with
  | none => rw [hp] at h; cases h; rfl
  | some be =>
    rw [hp] at h
    dsimp only at h
    split at h
    · split at h <;> (cases h; rfl)
    · cases h; rfl

theorem content_congr (h : (b'.stores p).get? kvId = (b.stores p).get? kvId) :
    b'.content S p kvId = b.content S p kvId := by
  unfold content
  rw [h]

end Backends

-- ------ Tiers

def demoteLadder : List ProviderName := [.ram, .mmap, .redis, .nvme, .futureCxl]

/-- `PROMOTE_LADDER`: the demote ladder reversed, without CXL. -/
def promoteLadder : List ProviderName := demoteLadder.dropLast.reverse

def cooler : List ProviderName := [.ram, .mmap, .redis, .nvme]

/-- `_PROVIDER_TIER.get(name, WARM)`. -/
def providerTier : ProviderName → KVTier
  | .ram => .hot
  | .mmap => .warm
  | .redis => .warm
  | .nvme => .cold
  | _ => .warm

namespace TierManager

variable (S : Setup)

/-- The provider is configured and exists on this host. -/
def isAvailable (p : ProviderName) : Bool := ((S.providers p).map Backend.available).getD false

/-- The rungs of a ladder after `cur`; `none` when `cur` is not on it. -/
def rungsAfter (ladder : List ProviderName) (cur : ProviderName) : Option (List ProviderName) :=
  if cur ∈ ladder then some (ladder.drop (ladder.idxOf cur + 1)) else none

def nextDemote (cur : ProviderName) : Option ProviderName :=
  match rungsAfter demoteLadder cur with
  | none => some .mmap
  | some rungs => rungs.find? (isAvailable S)

def nextPromote (cur : ProviderName) : Option ProviderName :=
  match rungsAfter promoteLadder cur with
  | none => some .ram
  | some rungs =>
    match rungs.find? (isAvailable S) with
    | some nxt => some nxt
    | none => if cur ≠ .ram then some .ram else none

def tierForProvider : ProviderName → KVTier
  | .ram => .hot
  | .futureMte => .hot
  | .mmap => .warm
  | .redis => .warm
  | _ => .cold

end TierManager

end Neuroswarm.Maks
