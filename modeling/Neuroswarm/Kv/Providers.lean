import Neuroswarm.Kv.Types

/-!
# KV memory runtime — storage providers

`runtime/kv/providers/` and `runtime/kv/compression/`. Every backend is a map
from keys to bytes behind `put` / `get` / `delete` / `exists`; they differ in
the tier they serve, in whether they compress what they keep, and in that the
Redis one stays registered but raises on every call while no server answers.
A key is a `stable_id`, which the file backends use as a file name unchanged
(it holds no path separator).

`ProviderRegistry.content` and `ProviderRegistry.online` are the two views of a
registry the proofs use: what a read of a tier would return, and which tiers
answer at all.
-/

namespace Neuroswarm.Kv

-- ------ Compression

/-- A block codec. The codecs are third-party lossless compressors; that
decompression inverts compression is what the runtime relies on. -/
structure Compression where
  name : String
  compress : Bytes → Bytes
  decompress : Bytes → Bytes
  lossless : ∀ data, decompress (compress data) = data

def NoneCompression : Compression where
  name := "none"
  compress data := data
  decompress data := data
  lossless _ := rfl

-- ------ One provider

/-- Storage backend for opaque KV block payloads. -/
structure Provider where
  name : String
  tier : StorageTier
  available : Bool
  codec : Compression
  store : Dict StableId Bytes

namespace Provider

/-- A backend without entries that keeps payloads as they are. -/
def plain (name : String) (tier : StorageTier) : Provider :=
  { name, tier, available := true, codec := NoneCompression, store := Dict.empty }

def RAMProvider : Provider := plain "ram" .l1Ram

def CompressedRAMProvider (codec : Compression) : Provider :=
  { plain "compressed_ram" .l2CompressedRam with codec := codec }

def MemoryMappedProvider : Provider := plain "mmap" .l3MemoryMapped

def NVMeProvider : Provider := plain "nvme" .l3Nvme

def LMDBProvider : Provider := plain "lmdb" .l4Lmdb

/-- `available` tells whether a server answered the ping at construction. -/
def RedisProvider (available : Bool) : Provider :=
  { plain "redis" .l5Redis with available := available }

def put (p : Provider) (key : StableId) (data : Bytes) : Except KvError Provider :=
  if p.available then .ok { p with store := p.store.set key (p.codec.compress data) }
  else .error (.providerUnavailable p.tier)

def get (p : Provider) (key : StableId) : Except KvError Bytes :=
  if p.available then
    match p.store.get? key with
    | some data => .ok (p.codec.decompress data)
    | none => .error (.missingPayload key)
  else .error (.providerUnavailable p.tier)

def delete (p : Provider) (key : StableId) : Except KvError Provider :=
  if p.available then .ok { p with store := p.store.erase key }
  else .error (.providerUnavailable p.tier)

/-- `exists(key)`. -/
def existsKey (p : Provider) (key : StableId) : Except KvError Bool :=
  if p.available then .ok (p.store.contains key)
  else .error (.providerUnavailable p.tier)

end Provider

-- ------ The registry

/-- `_by_tier` of the provider registry: the future stubs are never in it. -/
structure ProviderRegistry where
  byTier : Dict StorageTier Provider

namespace ProviderRegistry

def getTier (reg : ProviderRegistry) (tier : StorageTier) : Option Provider :=
  reg.byTier.get? tier

def forTier (reg : ProviderRegistry) (tier : StorageTier) : Except KvError Provider :=
  match reg.byTier.get? tier with
  | some p => .ok p
  | none => .error (.noProvider tier)

def register (reg : ProviderRegistry) (p : Provider) : ProviderRegistry :=
  ⟨reg.byTier.set p.tier p⟩

/-- `for_tier(tier).put(key, data)`. -/
def put (reg : ProviderRegistry) (tier : StorageTier) (key : StableId) (data : Bytes) :
    Except KvError ProviderRegistry := do
  let p ← reg.forTier tier
  let p ← p.put key data
  return ⟨reg.byTier.set tier p⟩

/-- `for_tier(tier).get(key)`. -/
def get (reg : ProviderRegistry) (tier : StorageTier) (key : StableId) :
    Except KvError Bytes := do
  let p ← reg.forTier tier
  p.get key

/-- `for_tier(tier).delete(key)`. -/
def delete (reg : ProviderRegistry) (tier : StorageTier) (key : StableId) :
    Except KvError ProviderRegistry := do
  let p ← reg.forTier tier
  let p ← p.delete key
  return ⟨reg.byTier.set tier p⟩

/-- `for_tier(tier).exists(key)`. -/
def existsKey (reg : ProviderRegistry) (tier : StorageTier) (key : StableId) :
    Except KvError Bool := do
  let p ← reg.forTier tier
  p.existsKey key

/-! ### Content and availability -/

def online (reg : ProviderRegistry) (tier : StorageTier) : Bool :=
  ((reg.getTier tier).map Provider.available).getD false

def content (reg : ProviderRegistry) (tier : StorageTier) (key : StableId) : Option Bytes :=
  (reg.getTier tier).bind fun p => (p.store.get? key).map p.codec.decompress

variable {reg : ProviderRegistry} {tier : StorageTier}

theorem online_iff :
    reg.online tier = true ↔ ∃ p, reg.byTier.get? tier = some p ∧ p.available = true := by
  unfold online getTier
  cases reg.byTier.get? tier <;> simp

variable {key : StableId} {data : Bytes}

theorem get_eq_ok_iff :
    reg.get tier key = .ok data ↔ reg.online tier = true ∧ reg.content tier key = some data := by
  unfold get forTier online content getTier Provider.get
  cases reg.byTier.get? tier with
  | none => simp [bind, Except.bind]
  | some p =>
    by_cases ha : p.available = true
    · cases hs : p.store.get? key <;> simp [bind, Except.bind, ha, hs]
    · simp [bind, Except.bind, ha]

theorem put_ok (h : reg.online tier = true) (key : StableId) (data : Bytes) :
    ∃ reg', reg.put tier key data = .ok reg' := by
  obtain ⟨p, hp, ha⟩ := online_iff.mp h
  simp [put, forTier, Provider.put, hp, ha, bind, Except.bind, pure, Except.pure]

variable {reg' : ProviderRegistry}

/-- Another content in the provider of a tier. -/
theorem set_spec {p p' : Provider} {value : Option Bytes} (hp : reg.byTier.get? tier = some p)
    (hAvailable : p'.available = p.available)
    (hStore : ∀ k, (p'.store.get? k).map p'.codec.decompress =
      if k = key then value else (p.store.get? k).map p.codec.decompress) :
    (∀ t, online ⟨reg.byTier.set tier p'⟩ t = reg.online t) ∧
    ∀ t k, content ⟨reg.byTier.set tier p'⟩ t k =
      if t = tier ∧ k = key then value else reg.content t k := by
  refine ⟨fun t => ?_, fun t k => ?_⟩
  · unfold online getTier
    rw [Dict.get?_set]
    by_cases ht : t = tier
    · simp [ht, hp, hAvailable]
    · simp [ht]
  · unfold content getTier
    rw [Dict.get?_set]
    by_cases ht : t = tier
    · simp [ht, hp, hStore]
    · simp [ht]

theorem put_spec (h : reg.put tier key data = .ok reg') :
    reg.online tier = true ∧ (∀ t, reg'.online t = reg.online t) ∧
    ∀ t k, reg'.content t k = if t = tier ∧ k = key then some data else reg.content t k := by
  unfold put forTier Provider.put at h
  cases hp : reg.byTier.get? tier with
  | none => simp [hp, bind, Except.bind] at h
  | some p =>
    by_cases ha : p.available = true
    · simp only [hp, ha, bind, Except.bind, pure, Except.pure, if_true, Except.ok.injEq] at h
      subst h
      refine ⟨online_iff.mpr ⟨p, hp, ha⟩, set_spec hp ha.symm fun k => ?_⟩
      rw [Dict.get?_set]
      split
      · exact congrArg some (p.codec.lossless data)
      · rfl
    · simp [hp, ha, bind, Except.bind] at h

theorem delete_ok (h : reg.online tier = true) (key : StableId) :
    ∃ reg', reg.delete tier key = .ok reg' := by
  obtain ⟨p, hp, ha⟩ := online_iff.mp h
  simp [delete, forTier, Provider.delete, hp, ha, bind, Except.bind, pure, Except.pure]

theorem delete_spec (h : reg.delete tier key = .ok reg') :
    (∀ t, reg'.online t = reg.online t) ∧
    ∀ t k, reg'.content t k = if t = tier ∧ k = key then none else reg.content t k := by
  unfold delete forTier Provider.delete at h
  cases hp : reg.byTier.get? tier with
  | none => simp [hp, bind, Except.bind] at h
  | some p =>
    by_cases ha : p.available = true
    · simp only [hp, ha, bind, Except.bind, pure, Except.pure, if_true, Except.ok.injEq] at h
      subst h
      refine set_spec hp ha.symm fun k => ?_
      rw [Dict.get?_erase]
      split <;> rfl
    · simp [hp, ha, bind, Except.bind] at h

theorem put_content_ne {k : StableId} (h : reg.put tier key data = .ok reg') (hk : k ≠ key)
    (t : StorageTier) :
    reg'.content t k = reg.content t k := by
  rw [(put_spec h).2.2, if_neg fun hEq => hk hEq.2]

theorem put_content_self (h : reg.put tier key data = .ok reg') :
    reg'.content tier key = some data := by
  rw [(put_spec h).2.2, if_pos ⟨rfl, rfl⟩]

theorem moved_content_ne {reg₁ reg₂ : ProviderRegistry} {source target : StorageTier} {k : StableId}
    (hPut : reg.put target key data = .ok reg₁) (hDel : reg₁.delete source key = .ok reg₂)
    (hk : k ≠ key) (t : StorageTier) :
    reg₂.content t k = reg.content t k := by
  rw [(delete_spec hDel).2, if_neg fun hEq => hk hEq.2, put_content_ne hPut hk]

theorem moved_content_self {reg₁ reg₂ : ProviderRegistry} {source target : StorageTier}
    (hPut : reg.put target key data = .ok reg₁) (hDel : reg₁.delete source key = .ok reg₂)
    (hTier : source ≠ target) :
    reg₂.content target key = some data := by
  rw [(delete_spec hDel).2, if_neg fun hEq => hTier hEq.1.symm, put_content_self hPut]

theorem existsKey_spec {b : Bool} :
    reg.existsKey tier key = .ok b ↔
      reg.online tier = true ∧ (reg.content tier key).isSome = b := by
  unfold existsKey forTier online content getTier Provider.existsKey Dict.contains
  cases reg.byTier.get? tier with
  | none => simp [bind, Except.bind]
  | some p =>
    by_cases ha : p.available = true
    · simp [bind, Except.bind, ha]
    · simp [bind, Except.bind, ha]

end ProviderRegistry

-- ------ The default registry

/-- What the environment decides about the default providers. -/
structure ProviderConfig where
  compression : Compression
  /-- Whether the `lmdb` package is installed. -/
  lmdbInstalled : Bool
  /-- Whether a Redis server answers. -/
  redisAvailable : Bool

def buildDefaultProviders (cfg : ProviderConfig) : ProviderRegistry :=
  let reg : ProviderRegistry := ⟨Dict.empty⟩
  let reg := reg.register .RAMProvider
  let reg := reg.register (.CompressedRAMProvider cfg.compression)
  let reg := reg.register .MemoryMappedProvider
  let reg := reg.register .NVMeProvider
  let reg := if cfg.lmdbInstalled then reg.register .LMDBProvider else reg
  reg.register (.RedisProvider cfg.redisAvailable)

theorem buildDefaultProviders_online (cfg : ProviderConfig) :
    (buildDefaultProviders cfg).online .l1Ram = true := by
  cases h : cfg.lmdbInstalled <;> simp [buildDefaultProviders, h] <;> rfl

theorem buildDefaultProviders_content (cfg : ProviderConfig) (tier : StorageTier)
    (key : StableId) : (buildDefaultProviders cfg).content tier key = none := by
  cases h : cfg.lmdbInstalled <;> cases tier <;> simp [buildDefaultProviders, h] <;> rfl

end Neuroswarm.Kv
