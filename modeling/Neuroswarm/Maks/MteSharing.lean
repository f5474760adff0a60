import Neuroswarm.Lib.Dict
import Neuroswarm.Lib.Run

/-!
# Shares of tagged memory

`MTEBackend` where MTE is available, with its `SharingEngine` and the tags of the native
module. Addresses come from `mmap`, which gives none that is mapped; the bytes themselves
are left out. Share tokens are drawn in turn, so none is drawn twice.

* `SharingEngine.Sound` — the tokens, tags and permissions agree; `Sound.revokeAll` — a
  block is revoked with all it has.
* `Session.Inv` — the tags given out for a block are one tag, the one its region has.
* `valid_along_iff` — the shares stay valid iff every tag drawn for a block is the one that
  its consumers have.
-/

namespace Neuroswarm.Maks.Mte

abbrev Token := ℕ

structure SharePermission where
  kvId : String
  owner : String
  consumer : String
  canRead : Bool := true
  canWrite : Bool := false
  token : Token
  deriving Repr, DecidableEq

def SharePermission.key (perm : SharePermission) : String × String := (perm.kvId, perm.consumer)

/-- Multi-reader, single-owner handles. -/
structure SharingEngine where
  perms : Dict Token SharePermission := .empty
  byKv : Dict String (List Token) := .empty
  mteTags : Dict (String × String) ℕ := .empty
  mteTokens : Dict (String × String) Token := .empty
  drawn : Token := 0
  deriving DecidableEq

namespace SharingEngine

variable (s : SharingEngine)

def tokensOf (kvId : String) : List Token := (s.byKv.get? kvId).getD []

def grant (kvId owner consumer : String) (canRead canWrite : Bool) :
    SharePermission × SharingEngine :=
  let perm : SharePermission :=
    { kvId, owner, consumer, canRead, canWrite, token := s.drawn }
  (perm, { s with
    perms := s.perms.set s.drawn perm
    byKv := s.byKv.set kvId (s.drawn :: s.tokensOf kvId)
    drawn := s.drawn + 1 })

/-- Grant read access with an MTE tag; reuses the token of the same `(kv_id, consumer)`. -/
def grantMte (kvId owner consumer : String) (tag : ℕ) : SharePermission × SharingEngine :=
  match (s.mteTokens.get? (kvId, consumer)).bind s.perms.get? with
  | some perm => (perm, { s with mteTags := s.mteTags.set (kvId, consumer) tag })
  | none =>
    let (perm, s) := s.grant kvId owner consumer true false
    (perm, { s with
      mteTags := s.mteTags.set (kvId, consumer) tag
      mteTokens := s.mteTokens.set (kvId, consumer) perm.token })

def drop (token : Token) : SharingEngine :=
  match s.perms.get? token with
  | none => s
  | some perm => { s with
    perms := s.perms.erase token
    mteTags := s.mteTags.erase perm.key
    mteTokens := s.mteTokens.erase perm.key }

def revokeAll (kvId : String) : SharingEngine :=
  (s.tokensOf kvId).foldl drop { s with byKv := s.byKv.erase kvId }

end SharingEngine

structure MteRegion where
  ptr : ℕ
  size : ℕ
  dataLen : ℕ := 0
  deriving Repr, DecidableEq

/-- What the n-th read of `/dev/urandom` gives (`none`: an `OSError`, or nothing) and the n-th
`mmap` (`none`: it fails). -/
structure World where
  urandom : ℕ → Option (Fin 256)
  mmap : ℕ → ℕ → List ℕ → Option ℕ
  mmap_fresh : ∀ call size mapped ptr, mmap call size mapped = some ptr → ptr ∉ mapped

/-- The backend; `tagByPtr` is the native module's, `mapped` what `mmap` has given. -/
structure MteBackend where
  regions : Dict String MteRegion := .empty
  sharing : SharingEngine := {}
  tagCounter : ℕ := 0
  tagByPtr : Dict ℕ ℕ := .empty
  mapped : List ℕ := []
  mmaps : ℕ := 0
  reads : ℕ := 0
  deriving DecidableEq

/-- `mte:{tag:02x}:{token}`. -/
structure ShareHandle where
  tag : ℕ
  token : Token
  deriving Repr, DecidableEq

def alignGranule (size : ℕ) : ℕ := (size + 15) / 16 * 16

/-- `stg_tag`, with `tag_share`. -/
def stgTag (tagByPtr : Dict ℕ ℕ) (ptr tag : ℕ) : Except String (Dict ℕ ℕ) :=
  if tag < 1 ∨ 15 < tag then .error ("MTE tag must be 1..15, got " ++ toString tag)
  else .ok (tagByPtr.set ptr tag)

/-- The tag check of `read_foreign`. -/
def readForeign (tagByPtr : Dict ℕ ℕ) (ptr tag : ℕ) : Except String Unit :=
  match tagByPtr.get? ptr with
  | none => .ok ()
  | some expected =>
    if expected = tag then .ok ()
    else .error ("MTE tag mismatch ptr=0x" ++ String.ofList (Nat.toDigits 16 ptr) ++
      " expected=" ++ toString expected ++ " got=" ++ toString tag)

namespace MteBackend

variable (w : World) (b : MteBackend)

/-- `_next_tag`: from the system's bytes, else from the counter. -/
def nextTag : ℕ × MteBackend :=
  let b := { b with reads := b.reads + 1 }
  match w.urandom (b.reads - 1) with
  | some byte => (byte % 15 + 1, b)
  | none =>
    let tag := b.tagCounter % 15 + 1
    (tag, { b with tagCounter := tag })

def allocate (kvId : String) (size : ℕ) : Except String Unit × MteBackend :=
  let aligned := alignGranule size
  match w.mmap b.mmaps aligned b.mapped with
  | none => (.error "mmap(PROT_MTE) failed", { b with mmaps := b.mmaps + 1 })
  | some ptr => (.ok (), { b with
    regions := b.regions.set kvId { ptr, size := aligned }
    mapped := ptr :: b.mapped
    mmaps := b.mmaps + 1 })

/-- `munmap` also forgets the tag of the address. -/
def delete (kvId : String) : MteBackend :=
  let unmapped := match b.regions.get? kvId with
    | none => b
    | some region => { b with
      regions := b.regions.erase kvId
      tagByPtr := b.tagByPtr.erase region.ptr
      mapped := b.mapped.filter (· ≠ region.ptr) }
  { unmapped with sharing := b.sharing.revokeAll kvId }

def written (kvId : String) (dataLen : ℕ) : MteBackend :=
  { b with regions := b.regions.modify kvId fun region => { region with dataLen } }

def store (kvId : String) (dataLen : ℕ) : Except String Unit × MteBackend :=
  let ensured := if (b.regions.get? kvId).isNone then b.allocate w kvId dataLen else (.ok (), b)
  match ensured with
  | (.error e, b) => (.error e, b)
  | (.ok (), b) =>
    if ∃ region ∈ b.regions.get? kvId, region.size < dataLen then
      match (b.delete kvId).allocate w kvId dataLen with
      | (.error e, b) => (.error e, b)
      | (.ok (), b) => (.ok (), b.written kvId dataLen)
    else (.ok (), b.written kvId dataLen)

/-- The handle that `share` has for the consumer already. -/
def cached (kvId consumerId : String) : Option ShareHandle :=
  match b.sharing.mteTokens.get? (kvId, consumerId), b.sharing.mteTags.get? (kvId, consumerId) with
  | some token, some tag => some { tag, token }
  | _, _ => none

def share (kvId consumerId : String) : Except String ShareHandle × MteBackend :=
  match b.regions.get? kvId with
  | none => (.error "ARM MTE not exposed in user-space on GCP Axion; use ram/mmap/redis/nvme", b)
  | some region =>
    match b.cached kvId consumerId with
    | some handle => (.ok handle, b)
    | none =>
      let (tag, b) := b.nextTag w
      match stgTag b.tagByPtr region.ptr tag with
      | .error e => (.error e, b)
      | .ok tagByPtr =>
        let (perm, sharing) := b.sharing.grantMte kvId "" consumerId tag
        (.ok { tag, token := perm.token }, { b with tagByPtr, sharing })

end MteBackend

-- ------ Runs

/-- A share that was returned. -/
structure Grant where
  kvId : String
  consumerId : String
  tag : ℕ
  deriving Repr, DecidableEq

inductive Op where
  | allocate (kvId : String) (size : ℕ)
  | store (kvId : String) (dataLen : ℕ)
  | share (kvId consumerId : String)
  | delete (kvId : String)
  deriving Repr, DecidableEq

/-- The backend, with the shares returned for blocks that have not been deleted since. -/
structure Session where
  backend : MteBackend := {}
  granted : List Grant := []
  deriving DecidableEq

namespace Session

def step (w : World) (s : Session) : Op → Session
  | .allocate kvId size => { s with backend := (s.backend.allocate w kvId size).2 }
  | .store kvId dataLen => { s with backend := (s.backend.store w kvId dataLen).2 }
  | .share kvId consumerId => match s.backend.share w kvId consumerId with
    | (.ok handle, backend) => ⟨backend, ⟨kvId, consumerId, handle.tag⟩ :: s.granted⟩
    | (.error _, backend) => { s with backend }
  | .delete kvId => ⟨s.backend.delete kvId, s.granted.filter (·.kvId ≠ kvId)⟩

/-- Every share passes the tag check of its block's region. -/
def Valid (s : Session) : Prop :=
  ∀ g ∈ s.granted, ∀ region, s.backend.regions.get? g.kvId = some region →
    readForeign s.backend.tagByPtr region.ptr g.tag = .ok ()

def Agrees (w : World) (s : Session) : Op → Prop
  | .share kvId consumerId =>
    (s.backend.regions.get? kvId).isSome → s.backend.cached kvId consumerId = none →
      ∀ g ∈ s.granted, g.kvId = kvId → g.tag = (s.backend.nextTag w).1
  | _ => True

end Session

-- ------ Sharing

namespace SharingEngine

variable {s : SharingEngine}

def keyOf (s : SharingEngine) (token : Token) : Option (String × String) :=
  (s.perms.get? token).map (·.key)

/-- A consumer has a tag iff it has a token, and the token is one of its block's. -/
structure Sound (s : SharingEngine) : Prop where
  token : ∀ key token, s.mteTokens.get? key = some token →
    s.keyOf token = some key ∧ token ∈ s.tokensOf key.1
  tagged : ∀ key, (s.mteTags.get? key).isSome = (s.mteTokens.get? key).isSome
  owner : ∀ kvId, ∀ token ∈ s.tokensOf kvId, ∃ key, s.keyOf token = some key ∧ key.1 = kvId
  fresh : ∀ token key, s.keyOf token = some key → token < s.drawn

theorem drop_eq (s : SharingEngine) (token : Token) (key : String × String) :
    (s.drop token).mteTags.get? key =
        (if s.keyOf token = some key then none else s.mteTags.get? key) ∧
      (s.drop token).mteTokens.get? key =
        (if s.keyOf token = some key then none else s.mteTokens.get? key) := by
  unfold drop keyOf
  cases s.perms.get? token with
  | none => simp
  | some perm => simp [Dict.get?_erase, eq_comm]

theorem keyOf_drop (s : SharingEngine) (token token' : Token) :
    (s.drop token).keyOf token' = if token' = token then none else s.keyOf token' := by
  unfold drop keyOf
  cases hPerm : s.perms.get? token with
  | none =>
    by_cases hEq : token' = token
    · simp [hEq, hPerm]
    · simp [hEq]
  | some perm =>
    by_cases hEq : token' = token
    · simp [hEq]
    · simp [Dict.get?_erase, hEq]

theorem foldl_drop (tokens : List Token) (s : SharingEngine) :
    let s' := tokens.foldl drop s
    (s'.byKv = s.byKv ∧ s'.drawn = s.drawn) ∧
      (∀ token, s'.keyOf token = if token ∈ tokens then none else s.keyOf token) ∧
      ∀ key, s'.mteTags.get? key = (if ∃ token ∈ tokens, s.keyOf token = some key then none
          else s.mteTags.get? key) ∧
        s'.mteTokens.get? key = if ∃ token ∈ tokens, s.keyOf token = some key then none
          else s.mteTokens.get? key := by
  induction tokens generalizing s with
  | nil => simp
  | cons token tokens ih =>
    obtain ⟨hFields, hKeyOf, hGet⟩ := ih (s.drop token)
    have hDrop : (s.drop token).byKv = s.byKv ∧ (s.drop token).drawn = s.drawn := by
      unfold drop
      split
      · exact ⟨rfl, rfl⟩
      · exact ⟨rfl, rfl⟩
    refine ⟨⟨hFields.1.trans hDrop.1, hFields.2.trans hDrop.2⟩, fun token' => ?_, fun key => ?_⟩
    · rw [List.foldl_cons, hKeyOf, keyOf_drop]
      by_cases hEq : token' = token
      · simp [hEq]
      · simp [hEq]
    · have hTail : (∃ token' ∈ tokens, (s.drop token).keyOf token' = some key) ∨
          s.keyOf token = some key ↔ ∃ token' ∈ token :: tokens, s.keyOf token' = some key := by
        simp only [keyOf_drop]
        grind
      have hOr : ∀ {p q : Prop} [Decidable p] [Decidable q] {α : Type} (a : Option α),
          (if p then none else if q then none else a) = if p ∨ q then none else a := by
        intro p q _ _ α a
        by_cases hp : p
        · simp [hp]
        · simp [hp]
      rw [List.foldl_cons, (hGet key).1, (hGet key).2, (drop_eq s token key).1,
        (drop_eq s token key).2, hOr, hOr]
      simp only [hTail, and_self]

theorem tokensOf_erase (kvId kvId' : String) :
    ({ s with byKv := s.byKv.erase kvId } : SharingEngine).tokensOf kvId' =
      if kvId' = kvId then [] else s.tokensOf kvId' := by
  unfold tokensOf
  by_cases hEq : kvId' = kvId
  · simp [hEq]
  · simp [Dict.get?_erase, hEq]

/-- **Revoking a block.** Its consumers have neither tag nor token; the others keep theirs. -/
theorem Sound.revokeAll (h : s.Sound) (kvId : String) :
    (s.revokeAll kvId).Sound ∧ ∀ key, (s.revokeAll kvId).mteTags.get? key =
      if key.1 = kvId then none else s.mteTags.get? key := by
  obtain ⟨⟨hByKv, hDrawn⟩, hKeyOf, hGet⟩ :=
    foldl_drop (s.tokensOf kvId) { s with byKv := s.byKv.erase kvId }
  have hHit : ∀ key, (∃ token ∈ s.tokensOf kvId, s.keyOf token = some key) → key.1 = kvId := by
    rintro key ⟨token, hToken, hKey⟩
    obtain ⟨key', hKey', rfl⟩ := h.owner kvId token hToken
    rw [Option.some.inj (hKey.symm.trans hKey')]
  have hMiss : ∀ key, key.1 = kvId → (s.mteTokens.get? key).isSome →
      ∃ token ∈ s.tokensOf kvId, s.keyOf token = some key := by
    rintro key rfl hSome
    obtain ⟨token, hToken⟩ := Option.isSome_iff_exists.mp hSome
    exact ⟨token, (h.token key token hToken).2, (h.token key token hToken).1⟩
  have hNone : ∀ key, (s.mteTokens.get? key).isSome = false → s.mteTags.get? key = none ∧
      s.mteTokens.get? key = none := by
    intro key hTokens
    exact ⟨Option.isSome_eq_false_iff.mp (h.tagged key ▸ hTokens) |> Option.isNone_iff_eq_none.mp,
      Option.isSome_eq_false_iff.mp hTokens |> Option.isNone_iff_eq_none.mp⟩
  have hLeft : ∀ key, (s.revokeAll kvId).mteTags.get? key =
        (if key.1 = kvId then none else s.mteTags.get? key) ∧
      (s.revokeAll kvId).mteTokens.get? key =
        if key.1 = kvId then none else s.mteTokens.get? key := by
    intro key
    obtain ⟨hTags, hTokens⟩ := hGet key
    by_cases hKey : ∃ token ∈ s.tokensOf kvId, s.keyOf token = some key
    · rw [if_pos (hHit key hKey), if_pos (hHit key hKey)]
      exact ⟨hTags.trans (if_pos hKey), hTokens.trans (if_pos hKey)⟩
    · refine ⟨(hTags.trans (if_neg hKey)).trans ?_, (hTokens.trans (if_neg hKey)).trans ?_⟩
      all_goals
        split
        · next hEq =>
          have hAbsent := hNone key (Bool.eq_false_iff.mpr fun hSome => hKey (hMiss key hEq hSome))
          first | exact hAbsent.1 | exact hAbsent.2
        · rfl
  have hTokensOf : ∀ kvId', (s.revokeAll kvId).tokensOf kvId' =
      if kvId' = kvId then [] else s.tokensOf kvId' := by
    intro kvId'
    rw [← tokensOf_erase kvId kvId', tokensOf, SharingEngine.revokeAll, hByKv]
    rfl
  have hKeep : ∀ token key, s.keyOf token = some key → key.1 ≠ kvId →
      (s.revokeAll kvId).keyOf token = some key := by
    intro token key hKey hNe
    refine (hKeyOf token).trans (if_neg fun hToken => ?_) |>.trans hKey
    exact hNe (hHit key ⟨token, hToken, hKey⟩)
  refine ⟨⟨fun key token hToken => ?_, fun key => ?_, fun kvId' token hToken => ?_,
    fun token key hKey => ?_⟩, fun key => (hLeft key).1⟩
  · rw [(hLeft key).2] at hToken
    split at hToken
    · cases hToken
    · next hNe =>
      rw [hTokensOf, if_neg hNe]
      obtain ⟨hKey, hMem⟩ := h.token key token hToken
      exact ⟨hKeep token key hKey hNe, hMem⟩
  · rw [(hLeft key).1, (hLeft key).2]
    split
    · rfl
    · exact h.tagged key
  · rw [hTokensOf] at hToken
    split at hToken
    · cases hToken
    · next hNe =>
      obtain ⟨key, hKey, rfl⟩ := h.owner kvId' token hToken
      exact ⟨key, hKeep token key hKey hNe, rfl⟩
  · have hOld := (hKeyOf token).symm.trans hKey
    split at hOld
    · cases hOld
    · exact hDrawn ▸ h.fresh token key hOld

/-- **Granting.** A consumer without a token gets one, with the tag. -/
theorem Sound.grantMte (h : s.Sound) {kvId consumer : String}
    (hNone : s.mteTokens.get? (kvId, consumer) = none) (owner : String) (tag : ℕ) :
    (s.grantMte kvId owner consumer tag).2.Sound ∧
      ∀ key, (s.grantMte kvId owner consumer tag).2.mteTags.get? key =
        if key = (kvId, consumer) then some tag else s.mteTags.get? key := by
  have hOld : ∀ token key, s.keyOf token = some key → token ≠ s.drawn :=
    fun token key hKey => Nat.ne_of_lt (h.fresh token key hKey)
  generalize hEngine : (s.grantMte kvId owner consumer tag).2 = s'
  simp only [SharingEngine.grantMte, hNone, Option.bind_none, grant] at hEngine
  have hKeyOf : ∀ token, s'.keyOf token =
      if token = s.drawn then some (kvId, consumer) else s.keyOf token := by
    intro token
    subst hEngine
    unfold keyOf
    rw [Dict.get?_set]
    split
    · rfl
    · rfl
  have hTokensOf : ∀ kvId', s'.tokensOf kvId' =
      if kvId' = kvId then s.drawn :: s.tokensOf kvId else s.tokensOf kvId' := by
    intro kvId'
    subst hEngine
    show ((s.byKv.set kvId (s.drawn :: s.tokensOf kvId)).get? kvId').getD [] = _
    rw [Dict.get?_set]
    split
    · rfl
    · rfl
  have hTags : ∀ key, s'.mteTags.get? key =
      if key = (kvId, consumer) then some tag else s.mteTags.get? key :=
    fun key => hEngine ▸ Dict.get?_set _ _ _ _
  have hTokens : ∀ key, s'.mteTokens.get? key =
      if key = (kvId, consumer) then some s.drawn else s.mteTokens.get? key :=
    fun key => hEngine ▸ Dict.get?_set _ _ _ _
  have hDrawn : s'.drawn = s.drawn + 1 := by rw [← hEngine]
  refine ⟨⟨fun key token hToken => ?_, fun key => ?_, fun kvId' token hToken => ?_,
    fun token key hKey => ?_⟩, hTags⟩
  · rw [hTokens] at hToken
    split at hToken
    · next hEq =>
      obtain rfl := Option.some.inj hToken
      rw [hKeyOf, hTokensOf, hEq, if_pos rfl, if_pos rfl]
      exact ⟨rfl, List.mem_cons_self⟩
    · obtain ⟨hKey, hMem⟩ := h.token key token hToken
      rw [hKeyOf, if_neg (hOld token key hKey), hTokensOf]
      refine ⟨hKey, ?_⟩
      split
      · next hEq => exact List.mem_cons_of_mem _ (hEq ▸ hMem)
      · exact hMem
  · rw [hTags, hTokens]
    split
    · rfl
    · exact h.tagged key
  · rw [hTokensOf] at hToken
    have hBefore : token ∈ s.tokensOf kvId' →
        ∃ key, s'.keyOf token = some key ∧ key.1 = kvId' := by
      intro hMem
      obtain ⟨key, hKey, hKv⟩ := h.owner kvId' token hMem
      exact ⟨key, by rw [hKeyOf, if_neg (hOld token key hKey), hKey], hKv⟩
    split at hToken
    · next hEq =>
      rcases List.mem_cons.mp hToken with rfl | hMem
      · exact ⟨(kvId, consumer), by rw [hKeyOf, if_pos rfl], hEq.symm⟩
      · exact hBefore (hEq ▸ hMem)
    · exact hBefore hToken
  · rw [hKeyOf] at hKey
    rw [hDrawn]
    split at hKey
    · next hEq => exact hEq ▸ Nat.lt_succ_self _
    · exact Nat.lt_succ_of_lt (h.fresh token key hKey)

end SharingEngine

-- ------ The invariant

namespace Session

/-- The tags given out for a block are one tag, which its region has if it has any, and the cached
ones are among them; every region and every tag has an address of its own that is mapped. -/
structure Inv (s : Session) : Prop where
  sound : s.backend.sharing.Sound
  cached : ∀ kvId consumerId tag, s.backend.sharing.mteTags.get? (kvId, consumerId) = some tag →
    ⟨kvId, consumerId, tag⟩ ∈ s.granted
  agree : ∀ g ∈ s.granted, ∀ g' ∈ s.granted, g.kvId = g'.kvId → g.tag = g'.tag
  tagged : ∀ g ∈ s.granted, ∀ region tag, s.backend.regions.get? g.kvId = some region →
    s.backend.tagByPtr.get? region.ptr = some tag → tag = g.tag
  regionMapped : ∀ kvId region, s.backend.regions.get? kvId = some region →
    region.ptr ∈ s.backend.mapped
  tagMapped : ∀ ptr tag, s.backend.tagByPtr.get? ptr = some tag → ptr ∈ s.backend.mapped
  apart : ∀ kvId kvId' region region', s.backend.regions.get? kvId = some region →
    s.backend.regions.get? kvId' = some region' → region.ptr = region'.ptr → kvId = kvId'

variable {s : Session} {w : World}

theorem readForeign_ok_iff {tagByPtr : Dict ℕ ℕ} {ptr tag : ℕ} :
    readForeign tagByPtr ptr tag = .ok () ↔ ∀ expected, tagByPtr.get? ptr = some expected →
      expected = tag := by
  unfold readForeign
  cases tagByPtr.get? ptr with
  | none => simp
  | some expected =>
    by_cases hEq : expected = tag
    · simp [hEq]
    · simp [hEq]

theorem Inv.valid (h : s.Inv) : s.Valid := fun g hg region hRegion =>
  readForeign_ok_iff.mpr fun tag hTag => h.tagged g hg region tag hRegion hTag

theorem Inv.allocate (h : s.Inv) (kvId : String) (size : ℕ) :
    Inv { s with backend := (s.backend.allocate w kvId size).2 } := by
  unfold MteBackend.allocate
  dsimp only
  split
  · exact { h with }
  · next ptr hMmap =>
    have hFresh := w.mmap_fresh _ _ _ _ hMmap
    have hGet := fun kvId' => Dict.get?_set s.backend.regions kvId kvId'
      { ptr, size := alignGranule size }
    -- a region is the new one, or one from before with another address
    have hCases : ∀ kvId' region, (s.backend.regions.set kvId
        { ptr, size := alignGranule size }).get? kvId' = some region →
        kvId' = kvId ∧ region.ptr = ptr ∨
          s.backend.regions.get? kvId' = some region ∧ region.ptr ≠ ptr := by
      intro kvId' region hRegion
      rw [hGet] at hRegion
      split at hRegion
      · next hEq => exact .inl ⟨hEq, by rw [← Option.some.inj hRegion]⟩
      · exact .inr ⟨hRegion, fun hPtr => hFresh (hPtr ▸ h.regionMapped kvId' region hRegion)⟩
    refine ⟨h.sound, h.cached, h.agree, fun g hg region tag hRegion hTag => ?_,
      fun kvId' region hRegion => ?_, fun ptr' tag hTag => ?_,
      fun kvId₁ kvId₂ region₁ region₂ hRegion₁ hRegion₂ hPtr => ?_⟩
    · rcases hCases _ region hRegion with ⟨-, hNew⟩ | ⟨hOld, -⟩
      · exact absurd (hNew ▸ h.tagMapped _ tag hTag) hFresh
      · exact h.tagged g hg region tag hOld hTag
    · rcases hCases kvId' region hRegion with ⟨-, hNew⟩ | ⟨hOld, -⟩
      · exact hNew ▸ List.mem_cons_self
      · exact List.mem_cons_of_mem _ (h.regionMapped kvId' region hOld)
    · exact List.mem_cons_of_mem _ (h.tagMapped ptr' tag hTag)
    · rcases hCases kvId₁ region₁ hRegion₁ with ⟨rfl, hNew₁⟩ | ⟨hOld₁, hNe₁⟩
      · rcases hCases kvId₂ region₂ hRegion₂ with ⟨rfl, -⟩ | ⟨-, hNe₂⟩
        · rfl
        · exact absurd (hPtr.symm.trans hNew₁) hNe₂
      · rcases hCases kvId₂ region₂ hRegion₂ with ⟨rfl, hNew₂⟩ | ⟨hOld₂, -⟩
        · exact absurd (hPtr.trans hNew₂) hNe₁
        · exact h.apart kvId₁ kvId₂ region₁ region₂ hOld₁ hOld₂ hPtr

theorem Inv.delete (h : s.Inv) (kvId : String) {granted : List Grant}
    (hSub : ∀ g ∈ granted, g ∈ s.granted) (hKeep : ∀ g ∈ s.granted, g.kvId ≠ kvId → g ∈ granted) :
    Inv ⟨s.backend.delete kvId, granted⟩ := by
  obtain ⟨hSound, hTags⟩ := h.sound.revokeAll kvId
  have hRegions : ∀ kvId' region, (s.backend.delete kvId).regions.get? kvId' = some region →
      kvId' ≠ kvId ∧ s.backend.regions.get? kvId' = some region := by
    intro kvId' region hRegion
    unfold MteBackend.delete at hRegion
    split at hRegion
    · next hNone => exact ⟨fun hEq => by simp [hEq, hNone] at hRegion, hRegion⟩
    · exact (Dict.get?_erase_eq_some.mp hRegion)
  have hTagByPtr : ∀ ptr tag, (s.backend.delete kvId).tagByPtr.get? ptr = some tag →
      s.backend.tagByPtr.get? ptr = some tag ∧
        ∀ region, s.backend.regions.get? kvId = some region → ptr ≠ region.ptr := by
    intro ptr tag hTag
    unfold MteBackend.delete at hTag
    split at hTag
    · next hNone => exact ⟨hTag, fun region hRegion => nomatch hNone.symm.trans hRegion⟩
    · next region hRegion =>
      obtain ⟨hNe, hOld⟩ := Dict.get?_erase_eq_some.mp hTag
      exact ⟨hOld, fun region' hRegion' => Option.some.inj (hRegion.symm.trans hRegion') ▸ hNe⟩
  have hMapped : ∀ ptr ∈ s.backend.mapped,
      (∀ region, s.backend.regions.get? kvId = some region → ptr ≠ region.ptr) →
        ptr ∈ (s.backend.delete kvId).mapped := by
    intro ptr hPtr hNe
    unfold MteBackend.delete
    split
    · exact hPtr
    · next region hRegion =>
      exact List.mem_filter.mpr ⟨hPtr, decide_eq_true (hNe region hRegion)⟩
  refine ⟨hSound, fun kvId' consumerId tag hTag => ?_, fun g hg g' hg' => ?_,
    fun g hg region tag hRegion hTag => ?_, fun kvId' region hRegion => ?_, fun ptr tag hTag => ?_,
    fun kvId₁ kvId₂ region₁ region₂ hRegion₁ hRegion₂ => ?_⟩
  · have hLeft := (hTags (kvId', consumerId)).symm.trans hTag
    split at hLeft
    · cases hLeft
    · next hNe => exact hKeep _ (h.cached kvId' consumerId tag hLeft) hNe
  · exact h.agree g (hSub g hg) g' (hSub g' hg')
  · exact h.tagged g (hSub g hg) region tag (hRegions _ region hRegion).2 (hTagByPtr _ tag hTag).1
  · obtain ⟨hNe, hOld⟩ := hRegions kvId' region hRegion
    refine hMapped _ (h.regionMapped kvId' region hOld) fun region' hRegion' hPtr => hNe ?_
    exact h.apart kvId' kvId region region' hOld hRegion' hPtr
  · obtain ⟨hOld, hNe⟩ := hTagByPtr ptr tag hTag
    exact hMapped ptr (h.tagMapped ptr tag hOld) hNe
  · exact h.apart kvId₁ kvId₂ region₁ region₂ (hRegions _ _ hRegion₁).2 (hRegions _ _ hRegion₂).2

theorem Inv.written (h : s.Inv) (kvId : String) (dataLen : ℕ) :
    Inv { s with backend := s.backend.written kvId dataLen } := by
  have hRegions : ∀ kvId' region, (s.backend.written kvId dataLen).regions.get? kvId' =
      some region → ∃ old, s.backend.regions.get? kvId' = some old ∧ region.ptr = old.ptr := by
    intro kvId' region hRegion
    unfold MteBackend.written at hRegion
    rw [Dict.get?_modify] at hRegion
    split at hRegion
    · next hEq =>
      obtain ⟨old, hOld, rfl⟩ := Option.map_eq_some_iff.mp hRegion
      exact ⟨old, hEq ▸ hOld, rfl⟩
    · exact ⟨region, hRegion, rfl⟩
  refine ⟨h.sound, h.cached, h.agree, fun g hg region tag hRegion hTag => ?_,
    fun kvId' region hRegion => ?_, h.tagMapped,
    fun kvId₁ kvId₂ region₁ region₂ hRegion₁ hRegion₂ hPtr => ?_⟩
  · obtain ⟨old, hOld, hPtr⟩ := hRegions _ region hRegion
    rw [hPtr] at hTag
    exact h.tagged g hg old tag hOld hTag
  · obtain ⟨old, hOld, hPtr⟩ := hRegions kvId' region hRegion
    rw [hPtr]
    exact h.regionMapped kvId' old hOld
  · obtain ⟨old₁, hOld₁, hPtr₁⟩ := hRegions kvId₁ region₁ hRegion₁
    obtain ⟨old₂, hOld₂, hPtr₂⟩ := hRegions kvId₂ region₂ hRegion₂
    exact h.apart kvId₁ kvId₂ old₁ old₂ hOld₁ hOld₂ (hPtr₁.symm.trans (hPtr.trans hPtr₂))

theorem Inv.store (h : s.Inv) (kvId : String) (dataLen : ℕ) :
    Inv { s with backend := (s.backend.store w kvId dataLen).2 } := by
  unfold MteBackend.store
  have hEnsured : Inv { s with backend := (if (s.backend.regions.get? kvId).isNone
      then s.backend.allocate w kvId dataLen else (.ok (), s.backend)).2 } := by
    split
    · exact h.allocate kvId dataLen
    · exact h
  revert hEnsured
  generalize (if (s.backend.regions.get? kvId).isNone
    then s.backend.allocate w kvId dataLen else (.ok (), s.backend)) = ensured
  obtain ⟨result, b⟩ := ensured
  intro hEnsured
  cases result with
  | error e => exact hEnsured
  | ok =>
    dsimp only
    split
    · have hGrown := (hEnsured.delete kvId (fun _ hg => hg) fun _ hg _ => hg).allocate
        (w := w) kvId dataLen
      revert hGrown
      obtain ⟨result, b'⟩ := (b.delete kvId).allocate w kvId dataLen
      intro hGrown
      cases result with
      | error e => exact hGrown
      | ok => exact hGrown.written kvId dataLen
    · exact hEnsured.written kvId dataLen

theorem nextTag_eq (w : World) (b : MteBackend) :
    (1 ≤ (b.nextTag w).1 ∧ (b.nextTag w).1 ≤ 15) ∧ ∃ tagCounter,
      (b.nextTag w).2 = { b with reads := b.reads + 1, tagCounter } := by
  unfold MteBackend.nextTag
  dsimp only
  split
  · exact ⟨by dsimp only; omega, b.tagCounter, rfl⟩
  · exact ⟨by dsimp only; omega, _, rfl⟩

theorem share_cases (w : World) (b : MteBackend) (kvId consumerId : String) :
    (b.regions.get? kvId = none ∧ ∃ e, b.share w kvId consumerId = (.error e, b)) ∨
      (∃ handle, b.cached kvId consumerId = some handle ∧
        b.share w kvId consumerId = (.ok handle, b)) ∨
      ∃ region token b', b.regions.get? kvId = some region ∧ b.cached kvId consumerId = none ∧
        b.share w kvId consumerId = (.ok { tag := (b.nextTag w).1, token }, b') ∧
        b'.regions = b.regions ∧ b'.mapped = b.mapped ∧
        b'.tagByPtr = b.tagByPtr.set region.ptr (b.nextTag w).1 ∧
        b'.sharing = (b.sharing.grantMte kvId "" consumerId (b.nextTag w).1).2 := by
  unfold MteBackend.share
  cases hRegion : b.regions.get? kvId with
  | none => exact .inl ⟨rfl, _, rfl⟩
  | some region =>
    cases hCached : b.cached kvId consumerId with
    | some handle => exact .inr (.inl ⟨handle, rfl, rfl⟩)
    | none =>
      have hTag := nextTag_eq w b
      revert hTag
      obtain ⟨tag, b₁⟩ := b.nextTag w
      rintro ⟨hRange, tagCounter, hNext⟩
      obtain rfl : b₁ = _ := hNext
      have hStg : stgTag b.tagByPtr region.ptr tag = .ok (b.tagByPtr.set region.ptr tag) :=
        if_neg (by dsimp only at hRange; omega)
      simp only [hStg]
      exact .inr (.inr ⟨region, _, _, rfl, trivial, rfl, rfl, rfl, rfl, rfl⟩)

theorem mem_of_cached {b : MteBackend} {kvId consumerId : String} {handle : ShareHandle}
    (h : b.cached kvId consumerId = some handle) :
    b.sharing.mteTags.get? (kvId, consumerId) = some handle.tag := by
  unfold MteBackend.cached at h
  split at h
  · next tag _ hTag =>
    obtain rfl := Option.some.inj h
    exact hTag
  · cases h

theorem token_of_not_cached {b : MteBackend} (hSound : b.sharing.Sound) {kvId consumerId : String}
    (h : b.cached kvId consumerId = none) :
    b.sharing.mteTokens.get? (kvId, consumerId) = none := by
  unfold MteBackend.cached at h
  have hTagged := hSound.tagged (kvId, consumerId)
  cases hToken : b.sharing.mteTokens.get? (kvId, consumerId) with
  | none => rfl
  | some token =>
    rw [hToken] at hTagged
    obtain ⟨tag, hTag⟩ := Option.isSome_iff_exists.mp hTagged
    rw [hToken, hTag] at h
    cases h

theorem Inv.share (h : s.Inv) {kvId consumerId : String}
    (hAgrees : s.Agrees w (.share kvId consumerId)) : (s.step w (.share kvId consumerId)).Inv := by
  rcases share_cases w s.backend kvId consumerId with ⟨-, e, hShare⟩ | ⟨handle, hCached, hShare⟩ |
    ⟨region, token, b', hRegion, hCached, hShare, hRegions, hMapped, hTagByPtr, hSharing⟩
  · simp only [step, hShare]
    exact h
  · -- the handle has been given out before
    simp only [step, hShare]
    have hMem := h.cached kvId consumerId handle.tag (mem_of_cached hCached)
    have hGranted : ∀ g, g ∈ (⟨kvId, consumerId, handle.tag⟩ : Grant) :: s.granted →
        g ∈ s.granted := by
      intro g hg
      rcases List.mem_cons.mp hg with rfl | hg
      · exact hMem
      · exact hg
    exact { h with
      cached := fun kvId consumerId tag hTag => List.mem_cons_of_mem _ (h.cached _ _ _ hTag)
      agree := fun g hg g' hg' => h.agree g (hGranted g hg) g' (hGranted g' hg')
      tagged := fun g hg => h.tagged g (hGranted g hg) }
  · simp only [step, hShare]
    have hSame := hAgrees (by rw [hRegion]; rfl) hCached
    obtain ⟨hSound, hTags⟩ := h.sound.grantMte (token_of_not_cached h.sound hCached) ""
      (s.backend.nextTag w).1
    revert hSame hTagByPtr hSharing hSound hTags
    generalize (s.backend.nextTag w).1 = tag
    intro hTagByPtr hSharing hSame hSound hTags
    have hBlock : ∀ g ∈ (⟨kvId, consumerId, tag⟩ : Grant) :: s.granted, g.kvId = kvId →
        g.tag = tag := by
      intro g hg hKv
      rcases List.mem_cons.mp hg with rfl | hg
      · rfl
      · exact hSame g hg hKv
    refine ⟨hSharing ▸ hSound, fun kvId' consumerId' tag' hTag => ?_, fun g hg g' hg' hKv => ?_,
      fun g hg region' tag' hRegion' hTag => ?_, fun kvId' region' hRegion' => ?_,
      fun ptr tag' hTag => ?_, ?_⟩
    · rw [hSharing, hTags] at hTag
      split at hTag
      · next hEq =>
        cases hEq
        obtain rfl := Option.some.inj hTag
        exact List.mem_cons_self
      · exact List.mem_cons_of_mem _ (h.cached kvId' consumerId' tag' hTag)
    · by_cases hEq : g.kvId = kvId
      · rw [hBlock g hg hEq, hBlock g' hg' (hKv ▸ hEq)]
      · have hOld : ∀ g ∈ (⟨kvId, consumerId, tag⟩ : Grant) :: s.granted, g.kvId ≠ kvId →
            g ∈ s.granted := fun g hg hNe => List.mem_of_ne_of_mem (fun hg => hNe (hg ▸ rfl)) hg
        exact h.agree g (hOld g hg hEq) g' (hOld g' hg' (hKv ▸ hEq)) hKv
    · rw [hRegions] at hRegion'
      rw [hTagByPtr, Dict.get?_set] at hTag
      split at hTag
      · next hPtr =>
        have hKv := h.apart g.kvId kvId region' region hRegion' hRegion hPtr
        rw [hBlock g hg hKv, ← Option.some.inj hTag]
      · next hPtr =>
        rcases List.mem_cons.mp hg with rfl | hg
        · exact absurd (congrArg MteRegion.ptr (Option.some.inj (hRegion'.symm.trans hRegion))) hPtr
        · exact h.tagged g hg region' tag' hRegion' hTag
    · rw [hMapped]
      exact h.regionMapped kvId' region' (hRegions ▸ hRegion')
    · rw [hTagByPtr, Dict.get?_set] at hTag
      rw [hMapped]
      split at hTag
      · next hPtr => exact hPtr ▸ h.regionMapped kvId region hRegion
      · exact h.tagMapped ptr tag' hTag
    · rw [hRegions]
      exact h.apart

theorem not_valid_of_differs {op : Op} (hDiffers : ¬ s.Agrees w op) :
    ¬ (s.step w op).Valid := by
  cases op with
  | share kvId consumerId =>
    simp only [Agrees, not_forall] at hDiffers
    obtain ⟨hSome, hNone, g, hg, hKv, hNe⟩ := hDiffers
    rcases share_cases w s.backend kvId consumerId with ⟨hRegion, -⟩ | ⟨handle, hCached, -⟩ |
      ⟨region, token, b', hRegion, -, hShare, hRegions, -, hTagByPtr, -⟩
    · rw [hRegion] at hSome
      cases hSome
    · rw [hNone] at hCached
      cases hCached
    · intro hValid
      simp only [step, hShare] at hValid
      have hRead := hValid g (List.mem_cons_of_mem _ hg) region (by rw [hRegions, hKv, hRegion])
      refine hNe (readForeign_ok_iff.mp hRead _ ?_).symm
      show b'.tagByPtr.get? region.ptr = _
      rw [hTagByPtr, Dict.get?_set_self]
  | _ => exact absurd trivial hDiffers

/-- **When shares stay valid.** In every run the shares of every block pass the tag check of its
region at every moment, all at once, iff every share that draws a tag draws the one that the
block's consumers have. -/
theorem valid_along_iff (w : World) (ops : List Op) :
    Run.Along (step w) Valid {} ops ↔ Run.Every (step w) (Agrees w) {} ops := by
  have hStart : Inv {} :=
    ⟨⟨nofun, fun _ => rfl, nofun, nofun⟩, nofun, nofun, nofun, nofun, nofun, nofun⟩
  refine Run.along_iff_every (I := Inv) (fun s h => h.valid) (fun s op h hAgrees => ?_)
    (fun s op _ => not_valid_of_differs) hStart ops
  cases op with
  | allocate kvId size => exact h.allocate kvId size
  | store kvId dataLen => exact h.store kvId dataLen
  | share kvId consumerId => exact h.share hAgrees
  | delete kvId =>
    refine h.delete kvId (fun g hg => List.mem_of_mem_filter hg) fun g hg hNe => ?_
    exact List.mem_filter.mpr ⟨hg, decide_eq_true hNe⟩

/-- Bytes 0, 1, 2, … and a new address each time. -/
def counting : World where
  urandom call := some (Fin.ofNat 256 call)
  mmap _ _ mapped := some (mapped.foldr max 0 + 4096)
  mmap_fresh call size mapped ptr hMmap hMem := by
    have hLe : ∀ l : List ℕ, ∀ p ∈ l, p ≤ l.foldr max 0 := by
      intro l
      induction l with
      | nil => exact nofun
      | cons a l ih =>
        intro p hp
        rw [List.foldr_cons]
        rcases List.mem_cons.mp hp with rfl | hp
        · exact Nat.le_max_left _ _
        · exact (ih p hp).trans (Nat.le_max_right _ _)
    have := hLe mapped ptr hMem
    have := Option.some.inj hMmap
    omega

/-- The second consumer's tag shuts the first one out. -/
theorem second_share_shuts_out :
    ¬ ∀ (w : World) (ops : List Op), Run.Along (step w) Valid {} ops := by
  intro h
  have hValid := (h counting [.allocate "kv" 16, .share "kv" "a", .share "kv" "b"]).exec
  have hRead := hValid ⟨"kv", "a", 1⟩ (by decide +kernel) ⟨4096, 16, 0⟩ (by decide +kernel)
  revert hRead
  decide +kernel

end Session

end Neuroswarm.Maks.Mte
