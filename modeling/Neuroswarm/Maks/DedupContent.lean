import Neuroswarm.Lib.Delimited
import Neuroswarm.Maks.Grounded

/-!
# MAKS — dedup returns the caller's content

A dedup hit rests on three things: the digest in the key is the digest of what
the block holds, the block is still there, and an equal fingerprint means an
equal identity. The first fails once `store` overwrites an indexed block, because
the index keeps the digest of the old content; the third fails for identities
with a `|` in a field, because the fingerprint joins the fields with `|`.

* `Contents` — the invariant: every block can be read back, and every index
  entry speaks of what its block holds.
* `Keeps` — what most operations do: no block changes its content (`keeps_exec`).
* `createReturns_along` — with lossless codecs and an injective digest, every
  `create` of a run returns a block with the payload and the identity asked for,
  as long as no indexed block is overwritten with other bytes and no request has
  the fingerprint of another live identity.
-/

namespace Neuroswarm.Maks

open Neuroswarm.Kv (Bytes Time encode)

-- ------ Fingerprints and keys

namespace DeduplicationEngine

variable {hs : Hasher}

theorem contentHash_of_makeKey {i j : KVIdentity} {p q : Bytes} {c d : String}
    (hc : ':' ∉ c.toList) (h : makeKey hs i p c = makeKey hs j q d) : c = d := by
  have hPlain : ∀ k r, ':' ∉ (hs.hashIdentity k r).toList := fun k r => hs.hash_noColon _
  have hColon : ∀ a b : String, ':' ∈ (a ++ ":" ++ b).toList := by
    intro a b
    rw [String.toList_append, String.toList_append]
    simp
  unfold makeKey at h
  dsimp only at h
  by_cases hc0 : c = ""
  · by_cases hd0 : d = ""
    · rw [hc0, hd0]
    · rw [if_pos hc0, if_neg hd0] at h
      have hMem := hPlain i p
      rw [h] at hMem
      exact absurd (hColon _ d) hMem
  · by_cases hd0 : d = ""
    · rw [if_neg hc0, if_pos hd0] at h
      have hMem := hPlain j q
      rw [← h] at hMem
      exact absurd (hColon _ c) hMem
    · rw [if_neg hc0, if_neg hd0] at h
      exact Delimited.append_sep_injective (c := ':') (hPlain i p) hc h

theorem register_byKey (hs : Hasher) (eng : DeduplicationEngine) (kvId : KvId)
    (identity : KVIdentity) (promptPrefix : Bytes) (contentHash : String) (key : String)
    (ent : DedupEntry)
    (h : (eng.register hs kvId identity promptPrefix contentHash).1.byKey.get? key = some ent) :
    (∃ ent₀, eng.byKey.get? key = some ent₀ ∧ ent₀.kvId = ent.kvId ∧
      ent₀.contentHash = ent.contentHash) ∨
    (∃ e, (eng.register hs kvId identity promptPrefix contentHash).2 = .ok e) ∧
      key = makeKey hs identity promptPrefix contentHash ∧ ent.kvId = kvId ∧
      ent.contentHash = contentHash := by
  unfold register at h ⊢
  dsimp only at h ⊢
  cases hk : eng.byKey.get? (makeKey hs identity promptPrefix contentHash) with
  | none =>
    rw [hk] at h
    dsimp only at h ⊢
    rw [Dict.get?_set] at h
    split at h
    · next hkey =>
      cases h
      exact .inr ⟨⟨_, rfl⟩, hkey, rfl, rfl⟩
    · exact .inl ⟨ent, h, rfl, rfl⟩
  | some ent₀ =>
    rw [hk] at h
    dsimp only at h
    refine .inl ?_
    split at h
    · dsimp only at h
      rw [Dict.get?_set] at h
      split at h
      · next hkey =>
        cases h
        exact ⟨ent₀, by rw [hkey, hk], rfl, rfl⟩
      · exact ⟨ent, h, rfl, rfl⟩
    · dsimp only at h
      rw [Dict.get?_set] at h
      split at h
      · next hkey =>
        cases h
        exact ⟨ent₀, by rw [hkey, hk], rfl, rfl⟩
      · exact ⟨ent, h, rfl, rfl⟩

end DeduplicationEngine

namespace KVManager

variable {S : Setup} {m m' m₁ m₂ : KVManager} {kvId : KvId}

-- ------ Reading a block back

variable (S) in
/-- What `load_payload` makes of the bytes a backend returned. -/
def unpackPayload (compression : String) (data : Bytes) : Bytes :=
  if compression ≠ "" ∧ compression ≠ "none" then (S.compression.decompress data).getD data
  else data

variable (S) in
/-- What `load_payload` returns for the block of `rec` when no call raises. -/
def contentOf (m : KVManager) (rec : KVRegistryRecord) : Option Bytes :=
  if TierManager.isAvailable S rec.provider then
    (m.backends.content S rec.provider rec.kvId).map (unpackPayload S rec.metadata.compression)
  else none

/-- Codecs lose nothing: the manager's and those of the backends. -/
structure Lossless (S : Setup) : Prop where
  compression : S.compression.Lossless
  backends : ∀ p be, S.providers p = some be → be.Lossless

variable {data : Bytes}

theorem unpack_packPayload (hL : Lossless S) {stored : Bytes} (h : packPayload S data = .ok stored)
    :
    unpackPayload S S.compression.name stored = data := by
  unfold packPayload at h
  unfold unpackPayload
  by_cases hName : S.compression.name = "" ∨ S.compression.name = "none"
  · rw [if_pos hName] at h
    rw [if_neg (by tauto), Except.ok.inj h]
  · rw [if_neg hName] at h
    rw [if_pos (by tauto)]
    obtain ⟨hOk, hNot⟩ := hL.compression data
    cases hc : S.compression.compress data with
    | ok packed =>
      rw [hc] at h
      rw [← Except.ok.inj h, hOk packed hc, Option.getD_some]
    | error e =>
      rw [hc] at h
      cases e with
      | notImplemented => rw [← Except.ok.inj h, hNot hc, Option.getD_none]
      | failed => cases h

variable {p : ProviderName}

theorem available_iff :
    TierManager.isAvailable S p = true ↔ ∃ be, S.providers p = some be ∧ be.available = true := by
  unfold TierManager.isAvailable
  cases S.providers p <;> simp

variable {b : Backends}

theorem available_of_store {b' : Backends} (h : b.store S p kvId data = (b', .ok ())) :
    TierManager.isAvailable S p = true := by
  unfold Backends.store at h
  rw [available_iff]
  cases hp : S.providers p with
  | none => rw [hp] at h; cases h
  | some be =>
    rw [hp] at h
    dsimp only at h
    split at h
    · next ha => exact ⟨be, rfl, ha⟩
    · cases h

theorem available_of_load {b' : Backends} (h : b.load S p kvId = (b', .ok data)) :
    TierManager.isAvailable S p = true := by
  unfold Backends.load at h
  rw [available_iff]
  cases hp : S.providers p with
  | none => rw [hp] at h; cases h
  | some be =>
    rw [hp] at h
    dsimp only at h
    split at h
    · next ha => exact ⟨be, rfl, ha⟩
    · cases h

theorem available_of_transfer {b' : Backends} {src dst : ProviderName}
    (h : transfer S b src dst kvId = (b', .ok ())) :
    TierManager.isAvailable S src = true ∧ TierManager.isAvailable S dst = true := by
  unfold transfer at h
  rcases hl : b.load S src kvId with ⟨b₁, rl⟩
  rw [hl] at h
  cases rl with
  | error e => cases h
  | ok data =>
    refine ⟨available_of_load hl, ?_⟩
    dsimp only at h
    cases ha : Backends.allocate S dst kvId with
    | error e => rw [ha] at h; cases h
    | ok loc =>
      rw [ha] at h
      dsimp only at h
      rcases hs : b₁.store S dst kvId data with ⟨b₂, rs⟩
      rw [hs] at h
      cases rs with
      | error e => cases h
      | ok _ => exact available_of_store hs

variable {rec : KVRegistryRecord}

theorem load_of_contentOf (h : contentOf S m rec = some data)
    (hrec : m.registry.get rec.kvId = some rec)
    (hio : S.ioFails rec.provider m.backends.calls = false) :
    (loadPayload S m rec.kvId).2 = .ok data := by
  unfold contentOf at h
  split at h
  · next hAvail =>
    obtain ⟨be, hp, ha⟩ := available_iff.mp hAvail
    obtain ⟨packed, hContent, hUnpack⟩ := Option.map_eq_some_iff.mp h
    have hLoad := Backends.load_content hp ha hContent hio
    unfold loadPayload
    rw [hrec]
    dsimp only
    rcases hl : m.backends.load S rec.provider rec.kvId with ⟨b, r⟩
    rw [hl] at hLoad
    dsimp only at hLoad
    subst hLoad
    dsimp only
    unfold unpackPayload at hUnpack
    split at hUnpack
    · next hc => rw [if_pos hc, hUnpack]
    · next hc => rw [if_neg hc, hUnpack]
  · cases h

variable {rec' : KVRegistryRecord}

theorem contentOf_congr (hId : rec'.kvId = rec.kvId) (hp : rec'.provider = rec.provider)
    (hc : rec'.metadata.compression = rec.metadata.compression)
    (hb : (m'.backends.stores rec.provider).get? rec.kvId =
      (m.backends.stores rec.provider).get? rec.kvId) :
    contentOf S m' rec' = contentOf S m rec := by
  unfold contentOf
  rw [hId, hp, hc, Backends.content_congr hb]

-- ------ The invariant

variable (S) in
/-- An index entry speaks of what its block holds. -/
structure Indexed (m : KVManager) (key : String) (ent : DedupEntry) : Prop where
  key : ∃ i p, key = DeduplicationEngine.makeKey S.hasher i p ent.contentHash
  block : ∀ rec, m.registry.get ent.kvId = some rec → ∀ data, contentOf S m rec = some data →
    ent.contentHash = S.hasher.hash data

variable (S) in
structure Contents (m : KVManager) : Prop where
  grounded : m.Grounded
  readable : ∀ k rec, m.registry.get k = some rec → ∃ data, contentOf S m rec = some data
  compressed : ∀ k rec, m.registry.get k = some rec →
    rec.metadata.compression = S.compression.name
  indexed : ∀ key ent, m.dedup.byKey.get? key = some ent → Indexed S m key ent

variable (S) in
/-- No block was added or changed its identity or content, and no index entry was added. -/
structure Keeps (m m' : KVManager) : Prop where
  records : ∀ k rec', m'.registry.get k = some rec' → ∃ rec, m.registry.get k = some rec ∧
    rec'.identity = rec.identity ∧ rec'.metadata.compression = rec.metadata.compression ∧
    contentOf S m' rec' = contentOf S m rec
  entries : ∀ key ent', m'.dedup.byKey.get? key = some ent' → ∃ ent,
    m.dedup.byKey.get? key = some ent ∧ ent.kvId = ent'.kvId ∧ ent.contentHash = ent'.contentHash

theorem Keeps.trans (h : Keeps S m m₁) (h' : Keeps S m₁ m₂) : Keeps S m m₂ where
  records k rec₂ h₂ := by
    obtain ⟨rec₁, h₁, hI₁, hC₁, hR₁⟩ := h'.records k rec₂ h₂
    obtain ⟨rec, h₀, hI, hC, hR⟩ := h.records k rec₁ h₁
    exact ⟨rec, h₀, hI₁.trans hI, hC₁.trans hC, hR₁.trans hR⟩
  entries key ent₂ h₂ := by
    obtain ⟨ent₁, h₁, hK₁, hC₁⟩ := h'.entries key ent₂ h₂
    obtain ⟨ent, h₀, hK, hC⟩ := h.entries key ent₁ h₁
    exact ⟨ent, h₀, hK.trans hK₁, hC.trans hC₁⟩

theorem Keeps.contents (h : Keeps S m m') (hC : Contents S m) (hG : m'.Grounded) :
    Contents S m' where
  grounded := hG
  readable k rec' hrec' := by
    obtain ⟨rec, hrec, -, -, hR⟩ := h.records k rec' hrec'
    rw [hR]
    exact hC.readable k rec hrec
  compressed k rec' hrec' := by
    obtain ⟨rec, hrec, -, hComp, -⟩ := h.records k rec' hrec'
    rw [hComp]
    exact hC.compressed k rec hrec
  indexed key ent' hEnt' := by
    obtain ⟨ent, hEnt, hK, hHash⟩ := h.entries key ent' hEnt'
    have hI := hC.indexed key ent hEnt
    refine ⟨?_, ?_⟩
    · rw [← hHash]
      exact hI.key
    · intro rec' hrec' data hData
      obtain ⟨rec, hrec, -, -, hR⟩ := h.records _ rec' hrec'
      rw [← hHash]
      refine hI.block rec (by rw [hK]; exact hrec) data ?_
      rw [← hR]
      exact hData

-- ------ Operations that keep every content

theorem keeps_of_eq (hreg : m'.registry = m.registry) (hdedup : m'.dedup = m.dedup)
    (hb : m'.backends.stores = m.backends.stores) : Keeps S m m' where
  records k rec' hrec' := by
    rw [hreg] at hrec'
    exact ⟨rec', hrec', rfl, rfl, contentOf_congr rfl rfl rfl (by rw [hb])⟩
  entries key ent' hEnt' := by
    rw [hdedup] at hEnt'
    exact ⟨ent', hEnt', rfl, rfl⟩

/-- The record of one block is replaced by one with the same content. -/
theorem keeps_of_replace (hrec : m.registry.get kvId = some rec)
    (hreg : ∀ k, m'.registry.get k = if k = kvId then some rec' else m.registry.get k)
    (hdedup : m'.dedup = m.dedup)
    (hb : ∀ q k, k ≠ kvId → (m'.backends.stores q).get? k = (m.backends.stores q).get? k)
    (hIdent : rec'.identity = rec.identity)
    (hcomp : rec'.metadata.compression = rec.metadata.compression)
    (hcontent : contentOf S m' rec' = contentOf S m rec) : Keeps S m m' where
  records k r hr := by
    rw [hreg] at hr
    split at hr
    · next hk =>
      rw [← Option.some.inj hr, hk]
      exact ⟨rec, hrec, hIdent, hcomp, hcontent⟩
    · next hk =>
      refine ⟨r, hr, rfl, rfl, contentOf_congr rfl rfl rfl (hb _ _ ?_)⟩
      rw [KVRegistry.kvId_of_get hr]
      exact hk
  entries key ent' hEnt' := by
    rw [hdedup] at hEnt'
    exact ⟨ent', hEnt', rfl, rfl⟩

theorem keeps_of_rewrite (hrec : m.registry.get kvId = some rec)
    (hreg : ∀ k, m'.registry.get k = if k = kvId then some rec' else m.registry.get k)
    (hdedup : m'.dedup = m.dedup) (hb : m'.backends.stores = m.backends.stores)
    (hId : rec'.kvId = rec.kvId) (hp : rec'.provider = rec.provider)
    (hIdent : rec'.identity = rec.identity)
    (hcomp : rec'.metadata.compression = rec.metadata.compression) : Keeps S m m' :=
  keeps_of_replace hrec hreg hdedup (fun q k _ => by rw [hb]) hIdent hcomp
    (contentOf_congr hId hp hcomp (by rw [hb]))

theorem keeps_writeState (m : KVManager) (kvId : KvId) (s : KVState) :
    Keeps S m (m.writeState kvId s) where
  records k rec' hrec' := by
    have hrec' : (m.registry.setState kvId s).get k = some rec' := hrec'
    rw [KVRegistry.get_setState] at hrec'
    split at hrec'
    · obtain ⟨rec, hrec, rfl⟩ := Option.map_eq_some_iff.mp hrec'
      exact ⟨rec, hrec, rfl, rfl, contentOf_congr rfl rfl rfl rfl⟩
    · exact ⟨rec', hrec', rfl, rfl, contentOf_congr rfl rfl rfl rfl⟩
  entries key ent' hEnt' := ⟨ent', hEnt', rfl, rfl⟩

theorem keeps_setTier (m : KVManager) (kvId : KvId) (tier : KVTier) :
    Keeps S m { m with registry := m.registry.setTier kvId tier } where
  records k rec' hrec' := by
    have hrec' : (m.registry.setTier kvId tier).get k = some rec' := hrec'
    rw [KVRegistry.get_setTier] at hrec'
    split at hrec'
    · obtain ⟨rec, hrec, rfl⟩ := Option.map_eq_some_iff.mp hrec'
      exact ⟨rec, hrec, rfl, rfl, contentOf_congr rfl rfl rfl rfl⟩
    · exact ⟨rec', hrec', rfl, rfl, contentOf_congr rfl rfl rfl rfl⟩
  entries key ent' hEnt' := ⟨ent', hEnt', rfl, rfl⟩

theorem contentOf_transfer (hL : Lossless S) {b₀ : Backends} (hb₀ : b₀.stores = m.backends.stores)
    (hp : rec.provider ≠ p) (ht : transfer S b₀ rec.provider p rec.kvId = (m'.backends, .ok ()))
    (hId : rec'.kvId = rec.kvId) (hp' : rec'.provider = p)
    (hcomp : rec'.metadata.compression = rec.metadata.compression) :
    contentOf S m' rec' = contentOf S m rec := by
  obtain ⟨hSrc, hDst⟩ := available_of_transfer ht
  have hMoved := (transfer_spec ht).2.2 rfl hp (hL.backends p)
  have hRead : b₀.content S rec.provider rec.kvId = m.backends.content S rec.provider rec.kvId :=
    Backends.content_congr (by rw [hb₀])
  unfold contentOf
  rw [hp', hId, hcomp, if_pos hSrc, if_pos hDst, hMoved, hRead]

theorem Migrated.keeps (hL : Lossless S) (hM : Migrated S m kvId p rec m') : Keeps S m m' := by
  obtain rfl := KVRegistry.kvId_of_get hM.found
  rcases hM.backends with ⟨hp, hb⟩ | ⟨hp, ht⟩
  · exact keeps_of_rewrite hM.found hM.registry hM.dedup (by rw [hb]) (placed_kvId rec p)
      ((placed_provider rec p).trans hp.symm) (placed_identity rec p) (placed_compression rec p)
  · exact keeps_of_replace hM.found hM.registry hM.dedup (transfer_spec ht).1
      (placed_identity rec p) (placed_compression rec p)
      (contentOf_transfer hL rfl hp ht (placed_kvId rec p) (placed_provider rec p)
        (placed_compression rec p))

theorem keeps_movedBehind (hL : Lossless S) (hrec : m.registry.get kvId = some rec)
    (hp : rec.provider ≠ p) {b₀ : Backends} (hb₀ : b₀.stores = m.backends.stores)
    (ht : transfer S b₀ rec.provider p kvId = (b, .ok ())) :
    Keeps S m (m.movedBehind rec p b) := by
  obtain rfl := KVRegistry.kvId_of_get hrec
  refine keeps_of_replace hrec (get_movedBehind hrec p b) rfl ?_ rfl rfl
    (contentOf_transfer hL hb₀ hp ht rfl rfl rfl)
  intro q k hk
  rw [← hb₀]
  exact (transfer_spec ht).1 q k hk

theorem keeps_destroy (hb : b.stores = m.backends.stores) (rec : KVRegistryRecord) :
    Keeps S m (destroy S { m with backends := b } rec) where
  records k r hr := by
    have hr : (m.registry.delete rec.kvId).get k = some r := hr
    rw [KVRegistry.get_delete] at hr
    split at hr
    · cases hr
    · next hk =>
      refine ⟨r, hr, rfl, rfl, contentOf_congr rfl rfl rfl ?_⟩
      rcases hd : b.delete S rec.provider rec.kvId with ⟨b', r'⟩
      have hOther := Backends.delete_spec hd r.provider r.kvId
        fun hqk => hk ((KVRegistry.kvId_of_get hr).symm.trans hqk.2)
      have hDel : (destroy S { m with backends := b } rec).backends = b' := by
        show (b.delete S rec.provider rec.kvId).1 = b'
        rw [hd]
      rw [hDel, hOther, hb]
  entries key ent' hEnt' := by
    have hEnt' : (if rec.dedupKey = "" then m.dedup
        else m.dedup.forget rec.dedupKey).byKey.get? key = some ent' := hEnt'
    split at hEnt'
    · exact ⟨ent', hEnt', rfl, rfl⟩
    · unfold DeduplicationEngine.forget at hEnt'
      split at hEnt'
      · exact ⟨ent', hEnt', rfl, rfl⟩
      · exact ⟨ent', (Dict.get?_erase_eq_some.mp hEnt').2, rfl, rfl⟩

theorem keeps_delete (m : KVManager) (kvId : KvId) (force : Bool) :
    Keeps S m (delete S m kvId force).1 := by
  have hOutcome := delete_outcome (S := S) m kvId force
  generalize (delete S m kvId force).1 = m' at hOutcome ⊢
  cases hOutcome with
  | kept _ => exact keeps_of_eq rfl rfl rfl
  | destroyed rec _ => exact keeps_destroy (b := m.backends) rfl rec

theorem keeps_relieveOne (hL : Lossless S) (m : KVManager) (kvId : KvId) :
    Keeps S m (relieveOne S m kvId) := by
  have hR := relieveOne_relief (S := S) m kvId
  generalize reliefKind S m kvId = kind at hR
  generalize hEq : relieveOne S m kvId = m₁ at hR
  cases hR with
  | left b hb => exact keeps_of_eq rfl rfl hb
  | pagedOut p rec m' hM => exact hM.keeps hL
  | demoted rec p b₀ b hb₀ hrec hp hb => exact keeps_movedBehind hL hrec hp hb₀ hb
  | destroyed rec b hb hrec hpin => exact keeps_destroy hb rec

theorem keeps_relievePressure (hL : Lossless S) (m : KVManager) (picked : List KvId) :
    Keeps S m (relievePressure S m picked) :=
  Run.exec_of_invariant (I := Keeps S m) (fun m₁ k h => h.trans (keeps_relieveOne hL m₁ k))
    (keeps_of_eq rfl rfl rfl) _

theorem keeps_cleanup (m : KVManager) (now : Time) : Keeps S m (cleanup S m now) := by
  have hSweep : ∀ m₁ rec, Keeps S m₁ (sweepOne S now m₁ rec) := by
    intro m₁ rec
    unfold sweepOne
    split
    · exact keeps_delete m₁ rec.kvId true
    · exact keeps_of_eq rfl rfl rfl
  have hFold : Keeps S m ((m.registry.allRecords S.rank).foldl (sweepOne S now) m) :=
    Run.exec_of_invariant (I := Keeps S m) (fun m₁ rec h => h.trans (hSweep m₁ rec))
      (keeps_of_eq rfl rfl rfl) _
  unfold cleanup
  generalize (m.registry.allRecords S.rank).foldl (sweepOne S now) m = swept at hFold
  -- the counts are no part of what is kept
  exact hFold.trans (keeps_of_eq rfl rfl rfl)

theorem keeps_reuse (hrec : m.registry.get rec.kvId = some rec) (req : CreateRequest) :
    Keeps S m (reuse m rec req) :=
  keeps_of_rewrite hrec (get_reuse m rec req) rfl rfl rfl rfl rfl rfl

theorem keeps_granted (hrec : m.registry.get rec.kvId = some rec)
    (hb : b.stores = m.backends.stores) (consumer : Name) :
    Keeps S m (m.granted b rec consumer) :=
  keeps_of_rewrite hrec (KVRegistry.get_upsert _ _) rfl hb rfl rfl rfl rfl

theorem keeps_dropped (hrec : m.registry.get rec.kvId = some rec) (agent : Name) :
    Keeps S m (m.dropped rec agent) :=
  keeps_of_rewrite hrec (KVRegistry.get_upsert _ _) rfl rfl rfl rfl rfl rfl

theorem keeps_flagged (hrec : m.registry.get rec.kvId = some rec) (flag : Bool) :
    Keeps S m (m.flagged rec flag) :=
  keeps_of_rewrite hrec (KVRegistry.get_upsert _ _) rfl rfl rfl rfl rfl rfl

theorem Edits.keeps {behind : Prop} (hL : Lossless S) (h : Edits S behind m m') :
    Keeps S m m' := by
  induction h with
  | refl => exact keeps_of_eq rfl rfl rfl
  | tail _ hEdit ih =>
    refine ih.trans ?_
    cases hEdit with
    | backends b hb => exact keeps_of_eq rfl rfl hb
    | writeState kvId s => exact keeps_writeState _ _ _
    | setTier kvId tier => exact keeps_setTier _ kvId tier
    | granted rec b consumer hrec hb => exact keeps_granted hrec hb consumer
    | dropped rec agent hrec => exact keeps_dropped hrec agent
    | flagged rec flag hrec => exact keeps_flagged hrec flag
    | migrated hM => exact hM.keeps hL
    | movedBehind rec p b _ hrec hp hb => exact keeps_movedBehind hL hrec hp rfl hb

-- ------ Creating

variable (S) in
/-- The block is live, has the identity asked for, and loads as the payload
unless the call of the backend raises. -/
def Answers (m : KVManager) (req : CreateRequest) (kvId : KvId) :
    Option KVRegistryRecord → Prop
  | none => False
  | some rec => rec.identity = req.identity ∧
      (S.ioFails rec.provider m.backends.calls = false →
        (loadPayload S m kvId).2 = .ok req.payload)

instance (m : KVManager) (req : CreateRequest) (kvId : KvId) :
    DecidablePred (Answers S m req kvId)
  | none => isFalse not_false
  | some _ => inferInstanceAs (Decidable (_ ∧ _))

variable (S) in
/-- A `create` that returned gave back the content asked for. -/
def GivesBack (req : CreateRequest) : KVManager × Except MAKSError KVHandle → Prop
  | (_, .error _) => True
  | (m, .ok h) => Answers S m req h.kvId (m.registry.get h.kvId)

instance (req : CreateRequest) : DecidablePred (GivesBack S req)
  | (_, .error _) => isTrue trivial
  | (m, .ok h) => inferInstanceAs (Decidable (Answers S m req h.kvId (m.registry.get h.kvId)))

variable {req : CreateRequest}

theorem givesBack_of_content {h : KVHandle} (hrec : m.registry.get h.kvId = some rec)
    (hIdent : rec.identity = req.identity) (hContent : contentOf S m rec = some req.payload) :
    GivesBack S req (m, .ok h) := by
  have hId := KVRegistry.kvId_of_get hrec
  show Answers S m req h.kvId (m.registry.get h.kvId)
  rw [← hId] at hrec ⊢
  rw [hrec]
  exact ⟨hIdent, load_of_contentOf hContent hrec⟩

variable (S) in
/-- No live block has another identity under the fingerprint of the request. -/
def Distinct (m : KVManager) (req : CreateRequest) : Prop :=
  ∀ rec ∈ m.registry.allRecords S.rank,
    req.identity.compatibleWith rec.identity = true → rec.identity = req.identity

instance (m : KVManager) (req : CreateRequest) : Decidable (Distinct S m req) :=
  inferInstanceAs (Decidable (∀ rec ∈ _, _))

theorem Distinct.keeps (h : Distinct S m req) (hK : Keeps S m m') :
    Distinct S m' req := by
  intro rec' hMem hComp
  obtain ⟨rec, hrec, hIdent, -⟩ := hK.records _ _ (KVRegistry.mem_allRecords.mp hMem)
  rw [hIdent] at hComp ⊢
  refine h rec (KVRegistry.mem_allRecords.mpr ?_) hComp
  rw [KVRegistry.kvId_of_get hrec]
  exact hrec

theorem keeps_lookup (m : KVManager) (identity : KVIdentity) (promptPrefix : Bytes)
    (contentHash : String) :
    Keeps S m { m with dedup := (m.dedup.lookup S.hasher identity promptPrefix contentHash).1 } where
  records _ rec hrec := ⟨rec, hrec, rfl, rfl, contentOf_congr rfl rfl rfl rfl⟩
  entries := (DeduplicationEngine.lookup_byKey S.hasher m.dedup identity promptPrefix contentHash).1

variable {dedup : DeduplicationEngine}

theorem registerDedup_byKey {r : Except MAKSError String}
    (hd : registerDedup S m req kvId = (dedup, r)) {key : String} {ent : DedupEntry}
    (h : dedup.byKey.get? key = some ent) :
    (∃ ent₀, m.dedup.byKey.get? key = some ent₀ ∧ ent₀.kvId = ent.kvId ∧
      ent₀.contentHash = ent.contentHash) ∨
    returned r = true ∧
      key = DeduplicationEngine.makeKey S.hasher req.identity (req.dedupPrefix S)
        (req.contentHash S) ∧
      ent.kvId = kvId ∧ ent.contentHash = req.contentHash S := by
  unfold registerDedup at hd
  split at hd
  · have hReg := DeduplicationEngine.register_byKey S.hasher m.dedup kvId req.identity
      (req.dedupPrefix S) (req.contentHash S) key ent
    rcases hr : m.dedup.register S.hasher kvId req.identity (req.dedupPrefix S)
      (req.contentHash S) with ⟨dedup', r'⟩
    rw [hr] at hd hReg
    cases r' with
    | error e =>
      cases hd
      rcases hReg h with hOld | ⟨⟨e', he'⟩, -⟩
      · exact .inl hOld
      · cases he'
    | ok ent' =>
      cases hd
      rcases hReg h with hOld | ⟨-, hKey, hId, hHash⟩
      · exact .inl hOld
      · exact .inr ⟨rfl, hKey, hId, hHash⟩
  · cases hd
    exact .inl ⟨ent, h, rfl, rfl⟩

/-- A new block holds the payload, and the entry made for it says so. -/
theorem Contents.install (hL : Lossless S) (h : Contents S m) {stored : Bytes} {dedupKey : String}
    (hpack : packPayload S req.payload = .ok stored)
    (hb : m.backends.store S p ⟨m.drawn⟩ stored = (b, .ok ()))
    (hd : registerDedup S m req ⟨m.drawn⟩ = (dedup, .ok dedupKey)) (hreg : ∀ k, m'.registry.get k =
      if k = ⟨m.drawn⟩ then some (newRecord S req ⟨m.drawn⟩ ⟨p, ⟨m.drawn⟩⟩ dedupKey)
      else m.registry.get k) (hBack : m'.backends = b) (hDedup : m'.dedup = dedup)
    (hG : m'.Grounded) :
    Contents S m' ∧
      contentOf S m' (newRecord S req ⟨m.drawn⟩ ⟨p, ⟨m.drawn⟩⟩ dedupKey) = some req.payload := by
  obtain ⟨hOther, -, hStored⟩ := Backends.store_spec hb
  have hNew : contentOf S m' (newRecord S req ⟨m.drawn⟩ ⟨p, ⟨m.drawn⟩⟩ dedupKey) =
      some req.payload := by
    unfold contentOf newRecord
    dsimp only
    rw [if_pos (available_of_store hb), hBack, hStored rfl (hL.backends p), Option.map_some,
      unpack_packPayload hL hpack]
  have hOld : ∀ k rec, k ≠ ⟨m.drawn⟩ → m.registry.get k = some rec →
      contentOf S m' rec = contentOf S m rec := by
    intro _ rec hk hrec
    obtain rfl := KVRegistry.kvId_of_get hrec
    refine contentOf_congr rfl rfl rfl ?_
    rw [hBack]
    exact hOther _ _ fun hqk => hk hqk.2
  refine ⟨⟨hG, ?_, ?_, ?_⟩, hNew⟩
  · intro k rec hrec
    rw [hreg] at hrec
    split at hrec
    · cases hrec
      exact ⟨_, hNew⟩
    · next hk =>
      rw [hOld k rec hk hrec]
      exact h.readable k rec hrec
  · intro k rec hrec
    rw [hreg] at hrec
    split at hrec
    · cases hrec
      rfl
    · exact h.compressed k rec hrec
  · intro key ent hEnt
    rw [hDedup] at hEnt
    rcases registerDedup_byKey hd hEnt with ⟨ent₀, hEnt₀, hId, hHash⟩ | ⟨-, hKey, hId, hHash⟩
    · have hI := h.indexed key ent₀ hEnt₀
      -- an entry on file names an id drawn before, never the new one
      have hk : ent.kvId ≠ ⟨m.drawn⟩ := by
        intro hEq
        have hDraw := h.grounded.named key ent₀ hEnt₀
        rw [hId, hEq] at hDraw
        exact Nat.lt_irrefl _ hDraw
      refine ⟨?_, ?_⟩
      · rw [← hHash]
        exact hI.key
      · intro rec hrec data hData
        rw [hreg, if_neg hk] at hrec
        rw [hOld _ rec hk hrec] at hData
        rw [← hHash]
        exact hI.block rec (by rw [hId]; exact hrec) data hData
    · refine ⟨⟨req.identity, req.dedupPrefix S, by rw [hHash]; exact hKey⟩, ?_⟩
      intro rec hrec data hData
      rw [hreg, if_pos hId] at hrec
      cases hrec
      rw [hNew] at hData
      rw [hHash, ← Option.some.inj hData]
      rfl

theorem contents_allocateNew (hL : Lossless S) (h : Contents S m) (req : CreateRequest) :
    Contents S (allocateNew S m req).1 ∧ GivesBack S req (allocateNew S m req) := by
  have hG := h.grounded.allocateNew (S := S) req
  have hOut := allocateNew_outcome (S := S) m req
  generalize allocateNew S m req = out at hG hOut
  cases hOut with
  | refused e => exact ⟨Keeps.contents (m := m) (keeps_of_eq rfl rfl rfl) h hG, trivial⟩
  | leaked e b dedup hb hd =>
    refine ⟨Keeps.contents ⟨?_, ?_⟩ h hG, trivial⟩
    · intro k rec hrec
      refine ⟨rec, hrec, rfl, rfl, contentOf_congr rfl rfl rfl (hb _ _ ?_)⟩
      rintro hEq
      have hDraw := h.grounded.drawn k rec hrec
      rw [← KVRegistry.kvId_of_get hrec, hEq] at hDraw
      exact Nat.lt_irrefl _ hDraw
    · intro key ent hEnt
      rcases hd with rfl | ⟨e', hd⟩
      · exact ⟨ent, hEnt, rfl, rfl⟩
      · rcases registerDedup_byKey hd hEnt with hOld | ⟨hRet, -⟩
        · exact hOld
        · cases hRet
  | installed p stored b dedup dedupKey hpack hb hd =>
    obtain ⟨hC, hNew⟩ := h.install hL hpack hb hd (KVRegistry.get_upsert _ _) rfl rfl hG
    have hGet : ∀ reg : KVRegistry, (reg.upsert (newRecord S req ⟨m.drawn⟩ ⟨p, ⟨m.drawn⟩⟩
        dedupKey)).get ⟨m.drawn⟩ = some (newRecord S req ⟨m.drawn⟩ ⟨p, ⟨m.drawn⟩⟩ dedupKey) :=
      fun reg => (KVRegistry.get_upsert _ _ _).trans (if_pos rfl)
    exact ⟨hC, givesBack_of_content (hGet _) rfl hNew⟩

theorem content_of_hit (hInj : Function.Injective S.hasher.hash) (h : Contents S m)
    {ent : DedupEntry}
    (hl : m.dedup.lookup S.hasher req.identity (req.dedupPrefix S) (req.contentHash S) =
      (dedup, some ent)) (hrec : m.registry.get ent.kvId = some rec) :
    contentOf S m rec = some req.payload := by
  obtain ⟨ent₀, hEnt₀, hId, -⟩ := (DeduplicationEngine.lookup_byKey S.hasher m.dedup req.identity
    (req.dedupPrefix S) (req.contentHash S)).2 ent (by rw [hl])
  have hI := h.indexed _ ent₀ hEnt₀
  obtain ⟨i, q, hKey⟩ := hI.key
  have hHash := DeduplicationEngine.contentHash_of_makeKey (S.hasher.hash_noColon req.payload) hKey
  obtain ⟨data, hData⟩ := h.readable _ rec hrec
  have hSame := hI.block rec (by rw [hId]; exact hrec) data hData
  rw [hData, hInj (hHash.trans hSame)]

theorem contents_place (hL : Lossless S) (hInj : Function.Injective S.hasher.hash)
    (h : Contents S m) (req : CreateRequest) :
    Contents S (place S m req).1 ∧
      ((req.canDedup S = true → Distinct S m req) → GivesBack S req (place S m req)) := by
  have hLookup := keeps_lookup (S := S) m req.identity (req.dedupPrefix S) (req.contentHash S)
  have hNamed := h.grounded.named.lookup S.hasher req.identity (req.dedupPrefix S)
    (req.contentHash S)
  have hDedup : ∀ dedup, dedup.NamesDrawn m.drawn → Grounded { m with dedup := dedup } :=
    fun dedup hd => ⟨h.grounded.drawn, h.grounded.uncounted, h.grounded.counts, hd, h.grounded.owned⟩
  rcases place_cases (S := S) m req with
    ⟨dedup, ent, rec, hl, hCan, hrec, hcomp, hEq⟩ | ⟨dedup, hd, hEq⟩
  · rw [hEq]
    rw [hl] at hLookup hNamed
    have hGet : m.registry.get rec.kvId = some rec := by
      rw [KVRegistry.kvId_of_get hrec]
      exact hrec
    have hReuse := keeps_reuse (S := S) (m := { m with dedup := dedup }) hGet req
    refine ⟨(hLookup.trans hReuse).contents h ((hDedup dedup hNamed).reuse hGet req), ?_⟩
    intro hDistinct
    have hReused := (get_reuse { m with dedup := dedup } rec req rec.kvId).trans (if_pos rfl)
    have hContent : contentOf S (reuse { m with dedup := dedup } rec req)
        (reused { m with dedup := dedup } rec req) = some req.payload := by
      rw [← content_of_hit hInj h hl hrec]
      exact contentOf_congr rfl rfl rfl rfl
    exact givesBack_of_content hReused
      (hDistinct hCan rec (KVRegistry.mem_allRecords.mpr hGet) hcomp) hContent
  · rw [hEq]
    have hAlloc := fun hC => contents_allocateNew (m := { m with dedup := dedup }) hL hC req
    rcases hd with rfl | rfl
    · exact ⟨(hAlloc h).1, fun _ => (hAlloc h).2⟩
    · have hC := hLookup.contents h (hDedup _ hNamed)
      exact ⟨(hAlloc hC).1, fun _ => (hAlloc hC).2⟩

theorem contents_create (hL : Lossless S) (hInj : Function.Injective S.hasher.hash)
    (h : Contents S m) (req : CreateRequest) :
    Contents S (create S m req).1 ∧
      ((req.canDedup S = true → Distinct S m req) → GivesBack S req (create S m req)) := by
  unfold create
  split
  · exact contents_place hL hInj h req
  · have hK := keeps_relievePressure hL m req.env.victims
    have hC := hK.contents h (h.grounded.relievePressure _)
    dsimp only
    split
    · obtain ⟨hPlaced, hBack⟩ := contents_place hL hInj hC req
      exact ⟨hPlaced, fun hD => hBack fun hCan => (hD hCan).keeps hK⟩
    · exact ⟨hC, fun _ => trivial⟩

-- ------ Overwriting

variable (S) in
/-- Every index entry of the block has the digest of `data`. -/
def AgreesWith (m : KVManager) (kvId : KvId) (data : Bytes) : Prop :=
  ∀ ent ∈ m.dedup.byKey.values, ent.kvId = kvId → ent.contentHash = S.hasher.hash data

instance (m : KVManager) (kvId : KvId) (data : Bytes) : Decidable (AgreesWith S m kvId data) :=
  inferInstanceAs (Decidable (∀ ent ∈ _, _))

theorem Contents.overwrite (hL : Lossless S) (h : Contents S m) {stored : Bytes}
    (hrec : m.registry.get rec.kvId = some rec) (hpack : packPayload S data = .ok stored)
    (hb : m.backends.store S rec.provider rec.kvId stored = (b, .ok ()))
    (hAgree : AgreesWith S m rec.kvId data) :
    Contents S { m with backends := b, registry := m.registry.upsert (resized rec data) } := by
  have hG : Grounded
      { m with backends := b, registry := m.registry.upsert (resized rec data) } :=
    h.grounded.rewrite (resized rec data) hrec rfl (KVRegistry.get_upsert _ _) rfl rfl rfl
      h.grounded.owned
  have hreg : ∀ k, (m.registry.upsert (resized rec data)).get k =
      if k = rec.kvId then some (resized rec data) else m.registry.get k :=
    KVRegistry.get_upsert _ _
  generalize hm' : { m with backends := b, registry := m.registry.upsert (resized rec data) } = m'
    at hG ⊢
  have hBack : m'.backends = b := by rw [← hm']
  have hReg : m'.registry = m.registry.upsert (resized rec data) := by rw [← hm']
  have hDed : m'.dedup = m.dedup := by rw [← hm']
  obtain ⟨hOther, -, hStored⟩ := Backends.store_spec hb
  have hNew : contentOf S m' (resized rec data) = some data := by
    unfold contentOf resized
    dsimp only
    rw [if_pos (available_of_store hb), hBack, hStored rfl (hL.backends _), Option.map_some,
      h.compressed _ rec hrec, unpack_packPayload hL hpack]
  -- the other blocks are stored under other keys
  have hOld : ∀ k r, k ≠ rec.kvId → m.registry.get k = some r →
      contentOf S m' r = contentOf S m r := by
    intro k r hk hr
    obtain rfl : r.kvId = k := KVRegistry.kvId_of_get hr
    refine contentOf_congr rfl rfl rfl ?_
    rw [hBack]
    exact hOther _ _ fun hqk => hk hqk.2
  refine ⟨hG, ?_, ?_, ?_⟩
  · intro k r hr
    rw [hReg, hreg] at hr
    split at hr
    · cases hr
      exact ⟨data, hNew⟩
    · next hk =>
      rw [hOld k r hk hr]
      exact h.readable k r hr
  · intro k r hr
    rw [hReg, hreg] at hr
    split at hr
    · cases hr
      exact h.compressed _ rec hrec
    · exact h.compressed k r hr
  · intro key ent hEnt
    rw [hDed] at hEnt
    have hI := h.indexed key ent hEnt
    refine ⟨hI.key, ?_⟩
    intro r hr d hd
    rw [hReg, hreg] at hr
    split at hr
    · next hk =>
      cases hr
      rw [hNew] at hd
      rw [← Option.some.inj hd]
      -- the condition: the entry was made from these very bytes
      exact hAgree ent (Dict.mem_values_iff.mpr ⟨key, hEnt⟩) hk
    · next hk =>
      rw [hOld _ r hk hr] at hd
      exact hI.block r hr d hd

-- ------ Runs

variable (S) in
/-- An overwrite that is written leaves no index entry with another digest. -/
def storeAgrees (m : KVManager) (key : Name) (data : Bytes) (env : Env) : Prop :=
  match m.findBySession S key with
  | some rec => returned (store S m key data env).2 = true → AgreesWith S m rec.kvId data
  | none => True

instance (m : KVManager) (key : Name) (data : Bytes) (env : Env) :
    Decidable (storeAgrees S m key data env) := by
  unfold storeAgrees
  cases m.findBySession S key <;> infer_instance

variable (S) in
/-- No deduplicated request has the fingerprint of another live identity, and no
indexed block is overwritten with other bytes. -/
def KeepsIndex (m : KVManager) : Op → Prop
  | .create req => req.canDedup S = true → Distinct S m req
  | .store key data env => storeAgrees S m key data env
  | _ => True

instance (m : KVManager) : DecidablePred (KeepsIndex S m)
  | .create req => inferInstanceAs (Decidable (req.canDedup S = true → Distinct S m req))
  | .store key data env => inferInstanceAs (Decidable (storeAgrees S m key data env))
  | .share _ _ => isTrue trivial
  | .release _ _ => isTrue trivial
  | .migrate _ _ => isTrue trivial
  | .delete _ _ => isTrue trivial
  | .pin _ => isTrue trivial
  | .unpin _ => isTrue trivial
  | .warm _ => isTrue trivial
  | .cold _ => isTrue trivial
  | .cleanup _ => isTrue trivial
  | .relievePressure _ => isTrue trivial
  | .pageOut _ => isTrue trivial
  | .pageIn _ => isTrue trivial

variable (S) in
/-- A `create` of the run returns the caller's content. -/
def CreateReturns (m : KVManager) : Op → Prop
  | .create req => GivesBack S req (create S m req)
  | _ => True

theorem createReturns_create :
    CreateReturns S m (.create req) ↔ GivesBack S req (create S m req) := Iff.rfl

theorem Contents.store (hL : Lossless S) (hInj : Function.Injective S.hasher.hash)
    (h : Contents S m) (key : Name) (data : Bytes) (env : Env)
    (hC : storeAgrees S m key data env) : Contents S (store S m key data env).1 := by
  unfold storeAgrees at hC
  have hOutcome := store_outcome (S := S) m key data env
  generalize KVManager.store S m key data env = out at hOutcome hC ⊢
  cases hOutcome with
  | refused e => exact h
  | failed rec b e _ hb =>
    have hKeeps : Keeps S m { m with backends := b } := keeps_of_eq rfl rfl hb
    exact hKeeps.contents h (h.grounded.backends b)
  | overwritten rec b stored hFound hpack hb =>
    rw [hFound] at hC
    exact h.overwrite hL (findBySession_get hFound) hpack hb (hC rfl)
  | created stored r _ _ => exact (contents_create hL hInj h _).1

theorem contents_step (hL : Lossless S) (hInj : Function.Injective S.hasher.hash)
    (h : Contents S m) (op : Op) (hC : KeepsIndex S m op) : Contents S (step S m op) := by
  have hG := grounded_step (S := S) op h.grounded
  have hEdits : op.EditsOnly True → Contents S (step S m op) := fun hOnly =>
    ((edits_step m op hOnly).keeps hL).contents h hG
  cases op with
  | create req => exact (contents_create hL hInj h req).1
  | store key data env => exact h.store hL hInj key data env hC
  | delete kvId force => exact (keeps_delete m kvId force).contents h hG
  | cleanup now => exact (keeps_cleanup m now).contents h hG
  | relievePressure picked => exact (keeps_relievePressure hL m picked).contents h hG
  | _ => exact hEdits trivial

theorem contents_init : Contents S (init S) where
  grounded := grounded_init
  readable _ _ h := by cases h
  compressed _ _ h := by cases h
  indexed _ _ h := by cases h

/-- With lossless codecs and an injective digest every `create` of a run returns
the payload and the identity asked for, as long as no indexed block is
overwritten with other bytes and no request has the fingerprint of another live
identity. -/
theorem createReturns_along (hL : Lossless S) (hInj : Function.Injective S.hasher.hash)
    (ops : List Op) (hC : Run.Every (step S) (KeepsIndex S) (init S) ops) :
    Run.Every (step S) (CreateReturns S) (init S) ops := by
  refine Run.every_of_every (I := Contents S) (fun m op h hOp => contents_step hL hInj h op hOp)
    (fun m op h hOp => ?_) contents_init hC
  cases op with
  | create req => exact (contents_create hL hInj h req).2 hOp
  | _ => trivial

theorem lossless_onHost : Lossless .onHost where
  compression := Codec.none_lossless
  backends p be h := by
    intro codec hCodec
    cases p <;> (cases h; cases hCodec)

/-- Two hits: after a move, and after the block was overwritten with its own bytes. -/
theorem createReturns_movedBlock :
    Run.Every (step .onHost) (CreateReturns .onHost) (init .onHost)
      [.create { payload := [1, 2], identity := { modelId := "m" }, agentId := .text "a" },
        .migrate ⟨0⟩ (.name .nvme),
        .create { payload := [1, 2], identity := { modelId := "m" }, agentId := .text "b" },
        .store (.kv ⟨0⟩) [1, 2] {},
        .create { payload := [1, 2], identity := { modelId := "m" }, agentId := .text "c" }] :=
  createReturns_along lossless_onHost Kv.Sha256.spelled_injective _ (by decide +kernel)

/-- A block overwritten with other bytes is still found under its old digest:
the third call returns it, and it loads as `[2]`. -/
theorem not_createReturns_overwritten :
    ¬ Run.Every (step .onHost) (CreateReturns .onHost) (init .onHost)
      [.create { payload := [1], agentId := .text "a" }, .store (.kv ⟨0⟩) [2] {},
        .create { payload := [1], agentId := .text "b" }] := by
  intro h
  obtain ⟨-, -, hLast, -⟩ := h
  rw [createReturns_create] at hLast
  revert hLast
  decide +kernel

-- ------ Operations that write no block

/-- The operation neither makes a block nor writes one. -/
def Op.Manages : Op → Prop
  | .create _ | .store _ _ _ => False
  | _ => True

theorem keeps_step (hL : Lossless S) (m : KVManager) {op : Op} (hOp : op.Manages) :
    Keeps S m (step S m op) := by
  have hEdits : op.EditsOnly True → Keeps S m (step S m op) := fun hOnly =>
    (edits_step m op hOnly).keeps hL
  cases op with
  | create req => cases hOp
  | store key data env => cases hOp
  | delete kvId force => exact keeps_delete m kvId force
  | cleanup now => exact keeps_cleanup m now
  | relievePressure picked => exact keeps_relievePressure hL m picked
  | _ => exact hEdits trivial

/-- **Managing blocks never changes what they hold**: from any state, sharing, releasing, moving,
paging, relieving pressure, cleaning up and deleting leave the identity and the content of
every block that stays. -/
theorem keeps_exec (hL : Lossless S) (m : KVManager) (ops : List Op)
    (hOps : Run.Every (step S) (fun _ op => op.Manages) m ops) :
    Keeps S m (Run.exec (step S) m ops) :=
  (Run.along_of_every (I := Keeps S m) (fun _ _ h hOp => h.trans (keeps_step hL _ hOp))
    (keeps_of_eq rfl rfl rfl) hOps).exec

theorem keeps_exec_movedBlock :
    Keeps .onHost (step .onHost (init .onHost) (.create { payload := [1, 2] }))
      (Run.exec (step .onHost) (step .onHost (init .onHost) (.create { payload := [1, 2] }))
        [.migrate ⟨0⟩ (.name .nvme), .share ⟨0⟩ (.text "b"), .pageIn ⟨0⟩,
          .release ⟨0⟩ (.text "b")]) :=
  keeps_exec lossless_onHost _ _ ⟨trivial, trivial, trivial, trivial, trivial⟩

end KVManager

end Neuroswarm.Maks
