import Neuroswarm.Kv.DedupIndex
import Mathlib.Data.List.Forall2

/-!
# KV memory runtime — soundness of the prefix cache

A prefix match returns physical ids found under chained hashes. The cache is not
told when a block is released or overwritten, and its keys join a prefix hash and
a payload with `|`, so three kinds of call can make a later match wrong.

* `payload_eq_of_hash_eq` — the joined hash determines the payload, when the
  prefix hash does not itself extend a running hash by `|`.
* `prefixSound_along` — in a run in which no release drops the last reference to
  a cached block, no write in place changes a hash, and no allocation chains from
  such a prefix hash, every match returns live blocks with the matched payloads,
  and reusing it attaches exactly these.
-/

namespace Neuroswarm.Kv

open Run (exec Along Every)

-- ------ Joined hashes

theorem eq_of_append_cons_eq {α : Type*} {a b x y : List α} {c : α} (hb : c ∉ b)
    (ha : ¬ (b ++ [c]) <+: a) (h : a ++ c :: x = b ++ c :: y) : x = y := by
  rcases List.append_eq_append_iff.mp h with ⟨s, hs, hx⟩ | ⟨s, hs, hy⟩
  · cases s with
    | nil => exact (List.cons.inj hx).2
    | cons d s =>
      have hd : c = d := (List.cons.inj hx).1
      refine absurd ?_ hb
      rw [hs, hd]
      exact List.mem_append_right _ List.mem_cons_self
  · cases s with
    | nil => exact (List.cons.inj hy).2.symm
    | cons d s =>
      have hd : c = d := (List.cons.inj hy).1
      refine absurd ⟨s, ?_⟩ ha
      rw [hs, hd, List.append_assoc]
      rfl

theorem forall₂_comp {α β γ : Type*} {R : α → β → Prop} {S : β → γ → Prop} {l : List α}
    {u : List β} {v : List γ} (h : List.Forall₂ R l u) (h' : List.Forall₂ S u v) :
    List.Forall₂ (fun a c => ∃ b, R a b ∧ S b c) l v := by
  induction h generalizing v with
  | nil =>
    cases h'
    exact List.Forall₂.nil
  | cons hab _ ih =>
    cases h' with
    | cons hbc hRest => exact List.Forall₂.cons ⟨_, hab, hbc⟩ (ih hRest)

/-- What a match chains from: the empty string, then digests. -/
def Running (sha : Sha256) (running : String) : Prop :=
  running = "" ∨ ∃ data, running = sha.hexdigest data

/-- The prefix hash does not begin with a running hash followed by `|`. -/
def Unambiguous (sha : Sha256) (prefixHash : String) : Prop :=
  ∀ running, Running sha running → ¬ (encode running ++ [bar]) <+: encode prefixHash

theorem unambiguous_empty (sha : Sha256) : Unambiguous sha "" := by
  intro running _ hPrefix
  have hNil : encode "" = [] := rfl
  rw [hNil, List.prefix_nil] at hPrefix
  exact absurd hPrefix (by simp)

section

variable {sha : Sha256} {m m' : KVBlockManager}

/-- **The joined hash determines the payload.** -/
theorem payload_eq_of_hash_eq (hInj : Function.Injective sha.hexdigest)
    (hBar : ∀ data, bar ∉ encode (sha.hexdigest data)) {prefixHash running : String}
    {x y : Bytes} (hPrefix : Unambiguous sha prefixHash) (hRunning : Running sha running)
    (h : prefixBlockHash sha prefixHash x = prefixBlockHash sha running y) : x = y := by
  have hNoBar : bar ∉ encode running := by
    rcases hRunning with rfl | ⟨data, rfl⟩
    · exact List.not_mem_nil (a := bar)
    · exact hBar data
  exact eq_of_append_cons_eq hNoBar (hPrefix running hRunning) (hInj h)

-- ------ The invariant

/-- Every cache entry that a match can reach names a live block with the content
it was cached for. -/
structure CacheInv (sha : Sha256) (m : KVBlockManager) : Prop where
  inv : Inv m
  indexed : Indexed sha m.providers m.physical
  entries : ∀ running payload e, Running sha running →
    m.prefixCache.entries.get? (prefixBlockHash sha running payload) = some e →
    ∃ r, m.physical.get e.physicalId = some r ∧ r.contentHash = contentHash sha payload
  prefixes : ∀ p r, m.physical.get p = some r → Unambiguous sha r.prefixHash

def KeepsCache (sha : Sha256) (m : KVBlockManager) : Op → Prop
  | .releaseSession key => ∀ s, m.getSession key = some s → ∀ p r, m.physical.get p = some r →
      0 < s.refsTo p → r.refcount = 1 →
        ∀ h e, m.prefixCache.entries.get? h = some e → e.physicalId ≠ p
  | .allocate req _ => Unambiguous sha req.prefixHash
  | op => KeepsContentHash sha m op

theorem step_cache_get? (hInv : Inv m) {op : Op} (hOp : ∀ req now, op ≠ .allocate req now)
    (h : String) :
    (step sha m op).prefixCache.entries.get? h = m.prefixCache.entries.get? h := by
  cases op with
  | createSession key agentId now =>
    exact congrArg (·.entries.get? h) (createSession_opened hInv.sess key agentId now).prefixCache
  | allocate req now => exact absurd rfl (hOp req now)
  | reusePrefix key result agentId now =>
    have hOpened := createSession_opened hInv.sess key agentId now
    exact congrArg (·.entries.get? h) (reuseLoop_induct
      (motive := fun m' => m'.prefixCache = m.prefixCache)
      (fun _ _ _ _ _ hm _ hCache => hCache.trans hm) result.matchedBlocks [] hOpened.sess
      hOpened.isOpen hOpened.prefixCache)
  | releaseSession key =>
    show (m.releaseSession key).prefixCache.entries.get? h = _
    cases hs : m.sessions.get? key with
    | none => rw [KVBlockManager.releaseSession_of_none hs]; rfl
    | some s =>
      rw [KVBlockManager.releaseSession_of_some hs, (foldl_releaseBlock_frame _ _).2.2.1]
      rfl
  | readPayload p now =>
    show (m.readPayload p now).2.prefixCache.entries.get? h = _
    rcases readPayload_cases hInv.store p now with ⟨-, hEq⟩ | ⟨r, data, -, -, hEq⟩ <;> rw [hEq]
  | writeCow p payload =>
    show (m.writeCow sha p payload).2.prefixCache.entries.get? h = _
    unfold KVBlockManager.writeCow
    cases hp : m.physical.get p with
    | none =>
      rw [KVBlockManager.needsCow, hp, if_neg Bool.false_ne_true]
      unfold KVBlockManager.writeInPlace
      rw [hp]
    | some r =>
      split
      · obtain ⟨e, m', hEq, -, -, hCache, -⟩ := writeClone_cases sha hInv hp payload
        rw [hEq, hCache]
      · obtain ⟨providers, -, hEq⟩ := writeInPlace_ok sha hInv.store hp payload
        rw [hEq]
  | lookupPrefix blockPayloads =>
    exact PrefixCacheEngine.get?_longestPrefixMatch sha m.prefixCache blockPayloads h
  | migrateBlock policy p target now =>
    show (m.migrateBlock policy p target now).2.prefixCache.entries.get? h = _
    rcases migrateBlock_cases hInv.store policy p target now with
      hEq | ⟨r, data, reg₁, reg₂, r', -, -, -, -, -, -, hEq⟩ <;> rw [hEq]

theorem allocate_cacheInv (hInj : Function.Injective sha.hexdigest)
    (hBar : ∀ data, bar ∉ encode (sha.hexdigest data)) (h : CacheInv sha m)
    {req : AllocateRequest} (hC : Unambiguous sha req.prefixHash) (now : Time) :
    CacheInv sha (m.allocate sha req now).2 := by
  have hInv' : Inv (m.allocate sha req now).2 := (allocate_inv h.inv req now).1
  have hIndexed' := allocate_indexed h.inv h.indexed req now
  have hContent : KeepsContent (· = req.prefixHash) m (m.allocate sha req now).2 :=
    (allocate_keeps h.inv req now).2
  obtain ⟨r, b, m', hEq, hCase⟩ := allocate_cases sha h.inv.store h.inv.sess req now
  rw [hEq] at hInv' hIndexed' hContent ⊢
  -- the new entry names a record with the payload's hash, under such a prefix
  obtain ⟨prefixHash, tokenEnd, hPrefix, hCache, r', hr', hHash⟩ :
      ∃ prefixHash tokenEnd, Unambiguous sha prefixHash ∧
        m'.prefixCache = (m.prefixCache.insert sha prefixHash req.payload r.physicalId
          tokenEnd).2 ∧
        ∃ r', m'.physical.get r.physicalId = some r' ∧
          r'.contentHash = contentHash sha req.payload := by
    rcases hCase with ⟨hFound, hRet, tokenEnd, hCache⟩ | ⟨hAdm, tokenEnd, hCache⟩
    · obtain ⟨hr, hHash⟩ := h.indexed.agree.getByHash_eq_some_iff.mp hFound
      refine ⟨_, tokenEnd, ?_, hCache, { r with refcount := r.refcount + 1 }, ?_, hHash⟩
      · unfold KVBlockManager.requestPrefix
        split
        · exact h.prefixes _ r hr
        · exact hC
      · rw [hRet.physical, PhysicalBlockTable.get_put, if_pos rfl]
    · refine ⟨_, tokenEnd, hC, hCache, r, ?_, hAdm.recHash⟩
      rw [hAdm.physical, PhysicalBlockTable.get_insert, if_pos rfl]
  refine ⟨hInv', hIndexed', ?_, ?_⟩
  · intro running payload e hRunning he
    rw [hCache] at he
    rcases PrefixCacheEngine.get?_insert_of_some he with hOld | ⟨hKey, hPid⟩
    · obtain ⟨r₀, hr₀, hHash₀⟩ := h.entries running payload e hRunning hOld
      obtain ⟨r₁, hr₁, hHash₁⟩ := hContent.kept _ r₀ hr₀
      exact ⟨r₁, hr₁, hHash₁.trans hHash₀⟩
    · have hPayload := payload_eq_of_hash_eq hInj hBar hPrefix hRunning hKey.symm
      rw [hPid, ← hPayload]
      exact ⟨r', hr', hHash⟩
  · intro p s hs
    rcases hContent.prefixes p s hs with ⟨q, s₀, hq, hSame⟩ | hNew
    · rw [hSame]
      exact h.prefixes q s₀ hq
    · rw [hNew]
      exact hC

theorem releaseSession_cacheInv (h : CacheInv sha m) {key : String}
    (hC : KeepsCache sha m (.releaseSession key)) : CacheInv sha (m.releaseSession key) := by
  have hShrinks := releaseSession_shrinks h.inv key
  refine ⟨releaseSession_inv h.inv key, releaseSession_indexed h.inv h.indexed key, ?_, ?_⟩
  · intro running payload e hRunning he
    have hSame : ∀ hash, (step sha m (.releaseSession key)).prefixCache.entries.get? hash =
        m.prefixCache.entries.get? hash := step_cache_get? h.inv (by simp)
    have hOld : m.prefixCache.entries.get? (prefixBlockHash sha running payload) = some e := by
      rw [← he]
      exact (hSame _).symm
    obtain ⟨r, hr, hHash⟩ := h.entries running payload e hRunning hOld
    have hLives : (m.releaseSession key).physical.get e.physicalId ≠ none := by
      cases hs : m.sessions.get? key with
      | none =>
        rw [KVBlockManager.releaseSession_of_none hs]
        exact Option.ne_none_iff_exists'.mpr ⟨r, hr⟩
      | some s =>
        intro hNone
        obtain ⟨hTo, hOne⟩ := (releaseSession_get_none_iff h.inv hs hr).mp hNone
        exact hC s hs _ r hr hTo hOne _ e hOld rfl
    obtain ⟨r', hr'⟩ := Option.ne_none_iff_exists'.mp hLives
    obtain ⟨r₀, hr₀, -, -, hHash', -⟩ := hShrinks.record _ r' hr'
    obtain rfl := Option.some.inj (hr.symm.trans hr₀)
    exact ⟨r', hr', hHash'.trans hHash⟩
  · intro p r' hp'
    obtain ⟨r, hp, -, -, -, hPrefix⟩ := hShrinks.record p r' hp'
    rw [hPrefix]
    exact h.prefixes p r hp

theorem step_cacheInv (hInj : Function.Injective sha.hexdigest)
    (hBar : ∀ data, bar ∉ encode (sha.hexdigest data)) (h : CacheInv sha m) {op : Op}
    (hC : KeepsCache sha m op) : CacheInv sha (step sha m op) := by
  -- calls that neither cache nor release
  have hOther : (∀ req now, op ≠ .allocate req now) → (∀ key, op ≠ .releaseSession key) →
      KeepsContentHash sha m op → (∀ s, ¬ op.Brings s) → CacheInv sha (step sha m op) := by
    intro hNotAlloc hNotRelease hHash hBrings
    have hContent : KeepsContent op.Brings m (step sha m op) :=
      step_keepsContent h.inv hNotRelease hHash
    refine ⟨step_inv h.inv op, step_indexed h.inv h.indexed hHash, ?_, ?_⟩
    · intro running payload e hRunning he
      rw [step_cache_get? h.inv hNotAlloc] at he
      obtain ⟨r, hr, hIs⟩ := h.entries running payload e hRunning he
      obtain ⟨r', hr', hSame⟩ := hContent.kept _ r hr
      exact ⟨r', hr', hSame.trans hIs⟩
    · intro p r' hp'
      rcases hContent.prefixes p r' hp' with ⟨q, r, hq, hSame⟩ | hNew
      · rw [hSame]
        exact h.prefixes q r hq
      · exact absurd hNew (hBrings _)
  cases op with
  | allocate req now => exact allocate_cacheInv hInj hBar h hC now
  | releaseSession key => exact releaseSession_cacheInv h hC
  | _ => exact hOther (by simp) (by simp) hC fun _ hNew => hNew

theorem CacheInv.new (sha : Sha256) (cfg : KvConfig) : CacheInv sha (.new cfg) where
  inv := Inv.new cfg
  indexed := Indexed.new sha cfg
  entries running payload e _ he := by
    simp [KVBlockManager.new, PrefixCacheEngine.new] at he
  prefixes p r hp := by simp [KVBlockManager.new] at hp

-- ------ Matches

theorem matchLoop_forall₂ {R : StableId → Bytes → Prop} {entries₀ : Dict String PrefixCacheEntry}
    (hEntries : ∀ running payload e, Running sha running →
      entries₀.get? (prefixBlockHash sha running payload) = some e → R e.physicalId payload)
    (payloads : List Bytes) {running : String} (hRunning : Running sha running)
    {entries : Dict String PrefixCacheEntry} (hSame : ∀ h, entries.get? h = entries₀.get? h)
    (result : PrefixMatchResult) :
    ∃ ps, (PrefixCacheEngine.matchLoop sha running payloads entries result).1.matchedBlocks =
        result.matchedBlocks ++ ps ∧ List.Forall₂ R ps (payloads.take ps.length) := by
  induction payloads generalizing running entries result with
  | nil => exact ⟨[], (List.append_nil _).symm, List.Forall₂.nil⟩
  | cons payload rest ih =>
    rw [PrefixCacheEngine.matchLoop]
    split
    · exact ⟨[], (List.append_nil _).symm, List.Forall₂.nil⟩
    · next e he =>
      rw [hSame] at he
      have hNext : Running sha (prefixBlockHash sha running payload) := Or.inr ⟨_, rfl⟩
      obtain ⟨ps, hPs, hAll⟩ := ih hNext
        (fun h => (Dict.get?_moveToEnd entries (prefixBlockHash sha running payload) h).trans
          (hSame h))
        { result with
          matchedBlocks := result.matchedBlocks ++ [e.physicalId]
          matchedHashes := result.matchedHashes ++ [prefixBlockHash sha running payload]
          matchedTokens := e.tokenEnd }
      refine ⟨e.physicalId :: ps, ?_, List.Forall₂.cons (hEntries running payload e hRunning he) hAll⟩
      rw [hPs, List.append_assoc]
      rfl

theorem longestPrefixMatch_forall₂ {R : StableId → Bytes → Prop} {c : PrefixCacheEngine}
    (hEntries : ∀ running payload e, Running sha running →
      c.entries.get? (prefixBlockHash sha running payload) = some e → R e.physicalId payload)
    (payloads : List Bytes) :
    List.Forall₂ R (c.longestPrefixMatch sha payloads).1.matchedBlocks
      (payloads.take (c.longestPrefixMatch sha payloads).1.matchedBlocks.length) := by
  obtain ⟨ps, hPs, hAll⟩ := matchLoop_forall₂ hEntries payloads (Or.inl rfl) (fun _ => rfl) {}
  have hBlocks : (c.longestPrefixMatch sha payloads).1.matchedBlocks = ps := by
    unfold PrefixCacheEngine.longestPrefixMatch
    dsimp only
    split <;> exact hPs
  rw [hBlocks]
  exact hAll

theorem reuseLoop_ok {key : String} (pids : List StableId) (out : List Block)
    {m : KVBlockManager} (hSess : SessInv m) (hOpen : ∃ s, m.sessions.get? key = some s)
    (hLive : ∀ p ∈ pids, ∃ r, m.physical.get p = some r) (now : Time) :
    ∃ bs m', KVBlockManager.reuseLoop key now pids out m = (.ok (out ++ bs), m') ∧
      (∀ b, m.holds key b → m'.holds key b) ∧
      List.Forall₂ (fun b p => m'.holds key b ∧ b.physicalId = some p) bs pids := by
  induction pids generalizing out m with
  | nil =>
    refine ⟨[], m, ?_, fun _ h => h, List.Forall₂.nil⟩
    rw [KVBlockManager.reuseLoop, List.append_nil]
  | cons p rest ih =>
    obtain ⟨r, hr⟩ := hLive p List.mem_cons_self
    have hId : r.physicalId = p := PhysicalBlockTable.get_physicalId hr
    obtain ⟨b, m₁, hEq, hRet, -⟩ := retain_gained hSess hOpen (by rw [hId]; exact hr) rfl
      r.layer r.head r.tokenStart r.tokenEnd r.prefixHash now r.priority
    obtain ⟨s, hs, -⟩ := hRet.gained.holds
    have hRest : ∀ q ∈ rest, ∃ r, m₁.physical.get q = some r := by
      intro q hq
      obtain ⟨s, hs⟩ := hLive q (List.mem_cons_of_mem _ hq)
      obtain ⟨s', hs', -⟩ := hRet.keeps.1.kept q s hs
      exact ⟨s', hs'⟩
    obtain ⟨bs, m', hLoop, hKeeps, hAll⟩ := ih (out ++ [b]) hRet.gained.sess ⟨s, hs⟩ hRest
    refine ⟨b :: bs, m', ?_, fun b' hb' => hKeeps b' (hRet.gained.keeps b' hb'),
      List.Forall₂.cons ⟨hKeeps b hRet.gained.holds, hId ▸ hRet.gained.physicalId⟩ hAll⟩
    rw [KVBlockManager.reuseLoop, hr]
    dsimp only
    rw [PhysicalBlockTable.acquire_of_get hr]
    dsimp only
    rw [hEq]
    dsimp only
    rw [hLoop, List.append_assoc]
    rfl

/-- Every match returns live blocks that hold the matched payloads, and reusing
it attaches one block for each of them, with that content. -/
structure PrefixSound (sha : Sha256) (m : KVBlockManager) : Prop where
  matched : ∀ payloads : List Bytes,
    List.Forall₂ (fun p x => (∃ r, m.physical.get p = some r) ∧
        ∀ now, (m.readPayload p now).1 = .ok x)
      (m.lookupPrefix sha payloads).1.matchedBlocks
      (payloads.take (m.lookupPrefix sha payloads).1.matchedBlocks.length)
  reused : ∀ (payloads : List Bytes) (key agentId : String) (now : Time),
    ∃ out m', (m.lookupPrefix sha payloads).2.reusePrefix key
        (m.lookupPrefix sha payloads).1 agentId now = (.ok out, m') ∧
      List.Forall₂ (fun b x => m'.holds key b ∧
          ∃ p, b.physicalId = some p ∧ ∀ now', (m'.readPayload p now').1 = .ok x)
        out (payloads.take (m.lookupPrefix sha payloads).1.matchedBlocks.length)

theorem CacheInv.prefixSound (hInj : Function.Injective sha.hexdigest) (h : CacheInv sha m) :
    PrefixSound sha m := by
  have hMatch : ∀ payloads, List.Forall₂ (fun p x => ∃ r, m.physical.get p = some r ∧
      r.contentHash = contentHash sha x) (m.lookupPrefix sha payloads).1.matchedBlocks
      (payloads.take (m.lookupPrefix sha payloads).1.matchedBlocks.length) :=
    fun payloads => longestPrefixMatch_forall₂ h.entries payloads
  refine ⟨fun payloads => ?_, fun payloads key agentId now => ?_⟩
  · refine (hMatch payloads).imp ?_
    rintro p x ⟨r, hr, hHash⟩
    exact ⟨⟨r, hr⟩, readPayload_of_hash hInj h.inv.store h.indexed hr hHash⟩
  · have hInv₁ : Inv (m.lookupPrefix sha payloads).2 := (lookupPrefix_inv h.inv payloads).1
    have hOpened := createSession_opened hInv₁.sess key agentId now
    obtain ⟨hLive, -⟩ := (List.forall₂_and_left _ _).mp ((hMatch payloads).imp
      (S := fun p x => (∃ r, m.physical.get p = some r) ∧ ∃ r, m.physical.get p = some r ∧
        r.contentHash = contentHash sha x) fun p x hpx => ⟨⟨hpx.choose, hpx.choose_spec.1⟩, hpx⟩)
    obtain ⟨out, m', hLoop, -, hAll⟩ := reuseLoop_ok
      (m.lookupPrefix sha payloads).1.matchedBlocks [] hOpened.sess hOpened.isOpen
      (by rw [hOpened.physical]; exact hLive) now
    have hEq : (m.lookupPrefix sha payloads).2.reusePrefix key (m.lookupPrefix sha payloads).1
        agentId now = (.ok out, m') := hLoop
    -- the reuse keeps the index and the hash of every block
    obtain ⟨hInv', -⟩ := reusePrefix_inv hInv₁ key (m.lookupPrefix sha payloads).1 agentId now
    have hIndexed₁ : Indexed sha (m.lookupPrefix sha payloads).2.providers
        (m.lookupPrefix sha payloads).2.physical := h.indexed
    have hIndexed' := reusePrefix_indexed hInv₁ hIndexed₁ key
      (m.lookupPrefix sha payloads).1 agentId now
    have hKept := (reusePrefix_keeps hInv₁ key (m.lookupPrefix sha payloads).1 agentId now).2.kept
    rw [hEq] at hInv' hIndexed' hKept
    refine ⟨out, m', hEq, (forall₂_comp hAll (hMatch payloads)).imp ?_⟩
    rintro b x ⟨p, ⟨hHolds, hId⟩, r, hr, hHash⟩
    obtain ⟨r', hr', hSame⟩ := hKept p r hr
    exact ⟨hHolds, p, hId,
      readPayload_of_hash hInj hInv'.store hIndexed' hr' (hSame.trans hHash)⟩

end

/-- **When prefix matches are sound.** With collision-free digests that contain
no `|`: in a run in which no release drops the last reference to a cached block,
no write in place changes the hash of its block, and no allocation chains from a
prefix hash that extends a running hash by `|`, every match in every state
returns live blocks with the matched payloads, and reuse attaches these. -/
theorem prefixSound_along (sha : Sha256) (hInj : Function.Injective sha.hexdigest)
    (hBar : ∀ data, bar ∉ encode (sha.hexdigest data)) (cfg : KvConfig) (ops : List Op)
    (hOps : Every (step sha) (KeepsCache sha) (.new cfg) ops) :
    Along (step sha) (PrefixSound sha) (.new cfg) ops :=
  (Run.along_of_every (I := CacheInv sha) (fun _ _ h hC => step_cacheInv hInj hBar h hC) (CacheInv.new sha cfg)
    hOps).mono fun _ h => h.prefixSound hInj

theorem bar_notMem_spelled (data : Bytes) : bar ∉ encode (Sha256.spelled.hexdigest data) := by
  have hLetter : ∀ n < 256, bar ∉ String.utf8EncodeChar (Char.ofNat (n + 256)) := by
    decide +kernel
  have hEncode : ∀ l : List Char, encode (String.ofList l) = l.flatMap String.utf8EncodeChar := by
    intro l
    simp [encode, String.toUTF8, List.utf8Encode]
  unfold Sha256.spelled
  rw [hEncode, List.mem_flatMap]
  rintro ⟨c, hc, hBar⟩
  obtain ⟨b, -, rfl⟩ := List.mem_map.mp hc
  exact hLetter b.toNat b.toNat_lt hBar

/-- A prefix cached by one session is matched and reused by another. -/
theorem prefixSound_along_shared :
    Along (step .spelled) (PrefixSound .spelled) (.new .plain)
      [.allocate { sessionId := "a", payload := [1] } 0,
       .allocate { sessionId := "b", payload := [1] } 1, .lookupPrefix [[1], [2]]] :=
  prefixSound_along .spelled Sha256.spelled_injective bar_notMem_spelled .plain
    [.allocate { sessionId := "a", payload := [1] } 0,
     .allocate { sessionId := "b", payload := [1] } 1, .lookupPrefix [[1], [2]]]
    ⟨unambiguous_empty _, unambiguous_empty _, trivial, trivial⟩

/-- The only session that holds a block is released: the cache still leads to it. -/
theorem not_prefixSound_released :
    ¬ PrefixSound .spelled (exec (step .spelled) (.new .plain)
      [.allocate { sessionId := "a", payload := [1] } 0, .releaseSession "a"]) := by
  intro h
  have hMatched : ((exec (step .spelled) (.new .plain)
      [.allocate { sessionId := "a", payload := [1] } 0, .releaseSession "a"]).lookupPrefix
        .spelled [[1]]).1.matchedBlocks = [⟨.phys, 0⟩] := by decide +kernel
  have hGone : (exec (step .spelled) (.new .plain)
      [.allocate { sessionId := "a", payload := [1] } 0, .releaseSession "a"]).physical.get
        ⟨.phys, 0⟩ = none := by decide +kernel
  have hSound := h.matched [[1]]
  rw [hMatched] at hSound
  obtain ⟨⟨⟨r, hr⟩, -⟩, -⟩ := List.forall₂_cons.mp hSound
  rw [hGone] at hr
  exact absurd hr (by simp)

end Neuroswarm.Kv
