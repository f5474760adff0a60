import Neuroswarm.Armcascade.DraftTransparency

/-!
# ArmCascade — drafts that continue the prompt

A drafted token is a real continuation if it follows, earlier in the prompt and the draft
before it, the same words as those it is put after.

* `Follows`, `Continues` — real continuations, of one token and of a draft.
* `TableFollows`, `AlternativesFollow` — the two places where a draft can stop being one.
* `realContinuations_iff` — when a proposal is one.
-/

namespace Neuroswarm.Armcascade

-- ------ Continuations

section Continues

variable {α : Type*} {k : Nat} {seq draft : List α} {x : α}

/-- The last `k` words. -/
def lastWords (k : Nat) (seq : List α) : List α := seq.drop (seq.length - k)

/-- An earlier occurrence of the last `k` words is followed by `x`. -/
def Follows (seq : List α) (k : Nat) (x : α) : Prop :=
  ∃ i < seq.length - k, (seq.drop i).take k = lastWords k seq ∧ seq[i + k]? = some x

/-- Every token of the draft follows the `k` words before it. -/
def Continues (k : Nat) : List α → List α → Prop
  | _, [] => True
  | seq, x :: draft => Follows seq k x ∧ Continues k (seq ++ [x]) draft

theorem continues_append {rest : List α} :
    Continues k seq (draft ++ rest) ↔ Continues k seq draft ∧ Continues k (seq ++ draft) rest := by
  induction draft generalizing seq with
  | nil => simp [Continues]
  | cons x draft ih =>
    simp only [List.cons_append, Continues, ih, and_assoc, List.append_assoc, List.nil_append]

theorem continues_iff_getElem : Continues k seq draft ↔
    ∀ j x, draft[j]? = some x → Follows (seq ++ draft.take j) k x := by
  induction draft generalizing seq with
  | nil => simp [Continues]
  | cons x draft ih =>
    rw [Continues, ih]
    constructor
    · rintro ⟨hFirst, hRest⟩ j y hy
      cases j with
      | zero =>
        obtain rfl := Option.some.inj hy
        simpa using hFirst
      | succ j => simpa using hRest j y (by simpa using hy)
    · intro h
      refine ⟨by simpa using h 0 x rfl, fun j y hy => ?_⟩
      simpa using h (j + 1) y (by simpa using hy)

theorem Follows.mono {k' : Nat} (h : Follows seq k x) (hk : k' ≤ k) : Follows seq k' x := by
  obtain ⟨i, hi, hSame, hNext⟩ := h
  refine ⟨i + (k - k'), by omega, ?_, ?_⟩
  · have hTail := congrArg (List.drop (k - k')) hSame
    rw [List.drop_take, lastWords, List.drop_drop, List.drop_drop,
      show k - (k - k') = k' by omega] at hTail
    rw [hTail, lastWords]
    congr 1
    omega
  · rw [show i + (k - k') + k' = i + k by omega, hNext]

end Continues

theorem mem_linearScanNext_iff {words : List Text} {m : Nat} {tok : Text} :
    tok ∈ linearScanNext words (words.drop m) ↔ m < words.length ∧
      Follows words (words.length - m) tok := by
  unfold linearScanNext Follows lastWords
  rw [List.length_drop]
  by_cases hm : m < words.length
  · rw [show words.length - (words.length - m) = m by omega]
    split
    · next hStop =>
      rcases hStop with hNil | hLe
      · exact absurd (List.drop_eq_nil_iff.mp hNil) (by omega)
      · simp [show m = 0 by omega]
    · simp only [List.mem_filterMap, List.mem_range, Option.ite_none_right_eq_some, hm, true_and]
  · rw [if_pos (.inl (List.drop_eq_nil_iff.mpr (by omega)))]
    simp [hm]

-- ------ Tables

/-- Every token of the table follows its key in the words. -/
def TableOf (n : Nat) (words : List Text) (entries : NgramTable) : Prop :=
  ∀ key found, entries.get? key = some found → ∀ tok ∈ found,
    ∃ i, (words.drop i).take (n - 1) = key ∧ words[i + (n - 1)]? = some tok

namespace NgramCache

variable {c : NgramCache} {words : List Text} {entries : NgramTable}

theorem tableOf_addWindow (h : TableOf c.n words entries) {i : Nat} {nxt : Text}
    (hNext : words[i + (c.n - 1)]? = some nxt) :
    TableOf c.n words (c.addWindow entries ((words.drop i).take (c.n - 1)) nxt) := by
  intro key found hFound tok hTok
  rcases get?_addWindow hFound with ⟨hKey, old, hOld, rfl⟩ | hBefore
  · rcases List.mem_append.mp hTok with hTok | hTok
    · rcases hOld with hOld | rfl
      · exact h key old (hKey ▸ hOld) tok hTok
      · exact absurd hTok List.not_mem_nil
    · rw [List.mem_singleton.mp hTok]
      exact ⟨i, hKey.symm, hNext⟩
  · exact h key found hBefore tok hTok

theorem tableOf_add (text : Text) : TableOf c.n (split text) (c.add .empty text) := by
  have hEmpty : TableOf c.n (split text) .empty := fun _ _ h => nomatch h
  unfold add
  simp only
  split
  · exact hEmpty
  · next hLen =>
    have hTwo := c.two_le
    refine List.foldlRecOn (motive := TableOf c.n (split text)) _ _ hEmpty ?_
    intro entries hEntries i hi
    have hi := List.mem_range.mp hi
    have hLt : i + (c.n - 1) < (split text).length := by omega
    have hNext : (split text)[i + (c.n - 1)]? = some ((split text).getD (i + c.n - 1) []) := by
      rw [List.getD_eq_getElem?_getD, show i + c.n - 1 = i + (c.n - 1) by omega,
        List.getElem?_eq_getElem hLt, Option.getD_some]
    exact tableOf_addWindow hEntries hNext

end NgramCache

namespace SelfSpeculationConfig

variable (cfg : SelfSpeculationConfig)

/-- Each first token that the table gives, for the last words and the windows it leads to, also
follows these words in the sequence. -/
def TableFollows (entries : NgramTable) (k : Nat) : Nat → List Text → Prop
  | 0, _ => True
  | d + 1, seq =>
    match cfg.first entries (lastWords k seq) with
    | none => True
    | some tok => Follows seq k tok ∧ TableFollows entries k d (seq ++ [tok])

variable {cfg} {entries : NgramTable} {words seq : List Text}

theorem lastWords_concat {α : Type*} {k : Nat} {seq : List α} (hk : 1 ≤ k) (hLen : k ≤ seq.length)
    (x : α) : lastWords k (seq ++ [x]) = (lastWords k seq).drop 1 ++ [x] := by
  unfold lastWords
  rw [List.drop_append_of_le_length (by simp; omega), List.drop_drop, List.length_append,
    List.length_singleton]
  congr 2
  omega

theorem continues_chain_iff {k d : Nat} (hk : 1 ≤ k) (hLen : k ≤ seq.length) :
    Continues k seq (cfg.chain entries d (lastWords k seq)) ↔ cfg.TableFollows entries k d seq := by
  induction d generalizing seq with
  | zero => exact iff_of_true trivial trivial
  | succ d ih =>
    rw [chain_succ, TableFollows]
    cases hFirst : cfg.first entries (lastWords k seq) with
    | none => exact iff_of_true trivial trivial
    | some tok =>
      simp only [Continues, ← lastWords_concat hk hLen]
      rw [ih (by simp; omega)]

theorem follows_of_tableOf (hTable : TableOf cfg.cache.n words entries) {draft : List Text}
    {tok : Text}
    (hFirst : cfg.first entries (lastWords (cfg.cache.n - 1) (words ++ draft)) = some tok) :
    Follows (words ++ draft) (cfg.cache.n - 1) tok := by
  obtain ⟨found, hFound, hHead⟩ := Option.bind_eq_some_iff.mp hFirst
  obtain ⟨i, hKey, hNext⟩ :=
    hTable _ found (NgramCache.lookup_eq_some hFound) tok (List.mem_of_head? hHead)
  obtain ⟨hLt, -⟩ := List.getElem?_eq_some_iff.mp hNext
  refine ⟨i, by simp; omega, ?_, ?_⟩
  · rw [← hKey, List.drop_append_of_le_length (by omega),
      List.take_append_of_le_length (by rw [List.length_drop]; omega)]
  · rw [List.getElem?_append_left hLt, hNext]

theorem tableFollows_of_tableOf (hTable : TableOf cfg.cache.n words entries) (d : Nat)
    (draft : List Text) : cfg.TableFollows entries (cfg.cache.n - 1) d (words ++ draft) := by
  induction d generalizing draft with
  | zero => trivial
  | succ d ih =>
    rw [TableFollows]
    split
    · trivial
    · next tok hFirst =>
      refine ⟨follows_of_tableOf hTable hFirst, ?_⟩
      rw [List.append_assoc]
      exact ih (draft ++ [tok])

-- ------ Scans

theorem continues_extendScan {d : Nat} {draft : List Text}
    (hLen : cfg.cache.n - 1 ≤ words.length) :
    Continues (cfg.cache.n - 1) words (cfg.extendScan words d draft) ↔
      Continues (cfg.cache.n - 1) words draft := by
  induction d generalizing draft with
  | zero => exact Iff.rfl
  | succ d ih =>
    rw [extendScan]
    split
    · exact Iff.rfl
    · next tok toks hScan =>
      have hMem : tok ∈ linearScanNext (words ++ draft)
          ((words ++ draft).drop ((words ++ draft).length - (cfg.cache.n - 1))) := by
        rw [hScan]
        exact List.mem_cons_self
      obtain ⟨-, hFollows⟩ := mem_linearScanNext_iff.mp hMem
      rw [show (words ++ draft).length - ((words ++ draft).length - (cfg.cache.n - 1)) =
        cfg.cache.n - 1 by simp; omega] at hFollows
      rw [ih, continues_append]
      exact and_iff_left ⟨hFollows, trivial⟩

-- ------ Proposals

variable (cfg) in
/-- Every token of a draft from the cache or a scan follows the `seed_len` words before it. -/
def RealContinuations (words : List Text) (p : Proposal DraftMetadata) : Prop :=
  match p.metadata with
  | .promptTooShort => True
  | .drafted _ seedLen _ path => path ≠ .echo → ∀ j tok, p.tokens[j]? = some tok →
    Follows (words ++ p.tokens.take j) seedLen.toNat tok

/-- Of the alternatives that are taken at once, those after the first follow too. -/
def AlternativesFollow (k : Nat) (words alternatives : List Text) : Prop :=
  Continues k (words ++ alternatives.take 1) (alternatives.drop 1)

variable (cfg) in
/-- The draft length asked for, within bounds. -/
def draftLen (req : DraftRequest) : Int := max cfg.draftMin (min cfg.draftMax req.draftLen)

variable (cfg) in
/-- The cache is used as it stands. -/
def Reuses (s : SelfSpeculation) (words : List Text) : Prop :=
  cfg.contextShifted s.prevWords words = false ∧ s.entries.size ≠ 0

variable (cfg) in
/-- A cache in use from an earlier prompt leads to tokens that follow in this one. Where there is
no cache, or it has nothing for the end of the prompt, the alternatives of the scan follow each
other. -/
def KeepsToPrompt (s : SelfSpeculation) (req : DraftRequest) : Prop :=
  let words := split req.promptText
  let draftLen := cfg.draftLen req
  let alternatives (m : Int) := sliceTo (linearScanNext words (sliceFrom words m)) draftLen
  let nMeta : Int := min cfg.ngramSize words.length
  let k := cfg.cache.n - 1
  cfg.draftMin ≤ words.length →
    (cfg.cacheEnabled = false →
      AlternativesFollow (max 1 nMeta).toNat words (alternatives (-nMeta))) ∧
    (cfg.cacheEnabled = true → k ≤ words.length →
      (cfg.Reuses s words → cfg.TableFollows s.entries k draftLen.toNat words) ∧
      (draftLen ≤ 0 ∨
          cfg.first (cfg.ensureCache s words req.promptText) (lastWords k words) = none →
        AlternativesFollow k words (alternatives (-k))))

theorem continues_alternatives_iff {k : Nat} {alternatives : List Text}
    (h : ∀ tok, alternatives.head? = some tok → Follows words k tok) :
    Continues k words alternatives ↔ AlternativesFollow k words alternatives := by
  unfold AlternativesFollow
  cases alternatives with
  | nil => simp [Continues]
  | cons tok rest => simp [Continues, h tok rfl]

theorem realContinuations_proposalOf {draft : List Text} {hit : Bool} {path : LookupPath}
    {k : Nat} (hDraft : ∀ w ∈ draft, Words.IsWord isSpace w)
    (hSeed : path ≠ .echo → (max 1 (if entries.size ≠ 0 then (cfg.cache.n - 1 : Nat)
      else min cfg.ngramSize words.length) : Int).toNat = k) :
    RealContinuations words (cfg.proposalOf entries words draft hit path) ↔
      (path ≠ .echo → Continues k words draft) := by
  have hTokens : (cfg.proposalOf entries words draft hit path).tokens = draft :=
    fromText_tokens hDraft _ _ _ _
  unfold RealContinuations
  rw [hTokens]
  show (path ≠ .echo → _) ↔ _
  refine forall_congr' fun hPath => ?_
  rw [continues_iff_getElem, ← hSeed hPath, if_neg hPath]

theorem sliceFrom_neg {α : Type*} {l : List α} {k : Nat} (hk : 1 ≤ k) :
    sliceFrom l (-k) = lastWords k l := by
  unfold sliceFrom lastWords
  rw [if_neg (by omega), neg_neg, Int.toNat_natCast]

theorem head?_sliceTo {α : Type*} {l : List α} {m : Int} {x : α}
    (h : (sliceTo l m).head? = some x) : x ∈ l :=
  mem_sliceTo (List.mem_of_head? h)

theorem follows_of_scan {k : Nat} (hLen : k ≤ words.length) {m : Int} {tok : Text}
    (h : (sliceTo (linearScanNext words (lastWords k words)) m).head? = some tok) :
    Follows words k tok := by
  obtain ⟨-, hFollows⟩ := mem_linearScanNext_iff.mp (head?_sliceTo h)
  rwa [show words.length - (words.length - k) = k by omega] at hFollows

theorem scanOrEcho_eq (words : List Text) (L : Int) :
    cfg.scanOrEcho words L =
      if linearScanNext words (lastWords (cfg.cache.n - 1) words) = [] then
        (cfg.echo words L, .echo)
      else
        let first := sliceTo (linearScanNext words (lastWords (cfg.cache.n - 1) words)) L
        (cfg.extendScan words (L.toNat - first.length) first, .scan) := by
  have hSeed : (if cfg.cache.n - 1 ≤ words.length then words.drop (words.length - (cfg.cache.n - 1))
      else words) = lastWords (cfg.cache.n - 1) words := by
    unfold lastWords
    split
    · rfl
    · next hShort => rw [show words.length - (cfg.cache.n - 1) = 0 by omega, List.drop_zero]
  unfold scanOrEcho
  simp only [hSeed]
  cases linearScanNext words (lastWords (cfg.cache.n - 1) words) with
  | nil => rfl
  | cons tok toks => rfl

theorem scanOrEchoUncached_eq (words : List Text) (L : Int) :
    cfg.scanOrEchoUncached words L =
      let scanned := linearScanNext words (sliceFrom words (-(min cfg.ngramSize words.length)))
      if scanned = [] then (cfg.echo words L, .echo) else (sliceTo scanned L, .scan) := by
  unfold scanOrEchoUncached
  cases linearScanNext words (sliceFrom words (-(min cfg.ngramSize words.length))) with
  | nil => rfl
  | cons tok toks => rfl

theorem sliceTo_nil {α : Type*} (m : Int) : sliceTo ([] : List α) m = [] := by
  unfold sliceTo
  split <;> exact List.take_nil

theorem continues_scanOrEcho_iff (hLen : cfg.cache.n - 1 ≤ words.length) {L : Int} :
    ((cfg.scanOrEcho words L).2 ≠ .echo →
        Continues (cfg.cache.n - 1) words (cfg.scanOrEcho words L).1) ↔
      AlternativesFollow (cfg.cache.n - 1) words
        (sliceTo (linearScanNext words (lastWords (cfg.cache.n - 1) words)) L) := by
  rw [scanOrEcho_eq]
  by_cases hScan : linearScanNext words (lastWords (cfg.cache.n - 1) words) = []
  · rw [if_pos hScan, hScan, sliceTo_nil]
    exact iff_of_true (fun h => absurd rfl h) trivial
  · rw [if_neg hScan, ← continues_alternatives_iff fun _ => follows_of_scan hLen]
    rw [forall_prop_of_true (show LookupPath.scan ≠ .echo by decide)]
    exact continues_extendScan hLen

theorem continues_draftFrom_iff {L : Int} (hLen : cfg.cache.n - 1 ≤ words.length) :
    ((cfg.draftFrom entries words L).2.2 ≠ .echo →
        Continues (cfg.cache.n - 1) words (cfg.draftFrom entries words L).1) ↔
      cfg.TableFollows entries (cfg.cache.n - 1) L.toNat words ∧
        (L ≤ 0 ∨ cfg.first entries (lastWords (cfg.cache.n - 1) words) = none →
          AlternativesFollow (cfg.cache.n - 1) words
            (sliceTo (linearScanNext words (lastWords (cfg.cache.n - 1) words)) L)) := by
  have hTwo := cfg.cache.two_le
  have hChain : cfg.chainFromCache entries words L =
      cfg.chain entries L.toNat (lastWords (cfg.cache.n - 1) words) := by
    unfold chainFromCache
    simp only
    rw [if_neg (by omega)]
    rfl
  rw [← continues_chain_iff (by omega) hLen, ← hChain, ← continues_scanOrEcho_iff hLen]
  unfold draftFrom
  cases hDraft : cfg.chainFromCache entries words L with
  | nil =>
    -- the table has nothing for the last words
    have hNone : L ≤ 0 ∨ cfg.first entries (lastWords (cfg.cache.n - 1) words) = none := by
      by_cases hL : L ≤ 0
      · exact .inl hL
      · rw [hChain, show L.toNat = (L.toNat - 1) + 1 by omega, chain_succ] at hDraft
        cases hFirst : cfg.first entries (lastWords (cfg.cache.n - 1) words) with
        | none => exact .inr rfl
        | some tok => simp [hFirst] at hDraft
    rw [forall_prop_of_true hNone]
    exact (and_iff_right trivial).symm
  | cons tok toks =>
    have hSome : ¬ (L ≤ 0 ∨ cfg.first entries (lastWords (cfg.cache.n - 1) words) = none) := by
      rintro (hL | hFirst)
      · rw [hChain, Int.toNat_of_nonpos hL] at hDraft
        exact absurd hDraft (List.cons_ne_nil _ _).symm
      · cases hd : L.toNat with
        | zero => simp [hChain, hd, chain] at hDraft
        | succ d => simp [hChain, hd, chain_succ, hFirst] at hDraft
    rw [forall_prop_of_true (show LookupPath.cache ≠ .echo by decide),
      and_iff_left fun h => absurd h hSome]

theorem draftFrom_short {L : Int} (hShort : words.length < cfg.cache.n - 1) :
    (cfg.draftFrom entries words L).2.2 = .echo := by
  have hChain : cfg.chainFromCache entries words L = [] := by
    unfold chainFromCache
    simp only
    rw [if_pos hShort]
  have hScan : linearScanNext words (lastWords (cfg.cache.n - 1) words) = [] := by
    rw [linearScanNext, if_pos]
    right
    rw [lastWords, List.length_drop]
    omega
  unfold draftFrom
  rw [hChain]
  show (cfg.scanOrEcho words L).2 = .echo
  rw [scanOrEcho_eq, if_pos hScan]

variable {s : SelfSpeculation}

theorem size_ne_zero_of_draftFrom {text : Text} {L : Int}
    (h : (cfg.draftFrom (cfg.ensureCache s (split text) text) (split text) L).2.2 ≠ .echo) :
    (cfg.ensureCache s (split text) text).size ≠ 0 := by
  unfold ensureCache at h ⊢
  split at h
  · next hBuild =>
    rw [if_pos hBuild]
    exact fresh_size_ne_zero h
  · next hKeep =>
    rw [if_neg hKeep]
    exact fun hSize => hKeep (.inr hSize)

theorem wordTable_ensureCache (h : WordTable s.entries) (words : List Text) (text : Text) :
    WordTable (cfg.ensureCache s words text) := by
  unfold ensureCache
  split
  · exact NgramCache.wordTable_add wordTable_empty _
  · exact h

theorem tableFollows_ensureCache_iff {text : Text} {d : Nat} :
    cfg.TableFollows (cfg.ensureCache s (split text) text) (cfg.cache.n - 1) d (split text) ↔
      (cfg.Reuses s (split text) →
        cfg.TableFollows s.entries (cfg.cache.n - 1) d (split text)) := by
  unfold ensureCache Reuses
  split
  · next hBuild =>
    refine iff_of_true ?_ fun hReuses => ?_
    · have hFresh : cfg.TableFollows (cfg.cache.add .empty text) (cfg.cache.n - 1) d
          (split text ++ []) := tableFollows_of_tableOf (NgramCache.tableOf_add text) d []
      rwa [List.append_nil] at hFresh
    · rcases hBuild with hShift | hSize
      · exact absurd (hReuses.1.symm.trans hShift) (by decide)
      · exact absurd hSize hReuses.2
  · next hKeep =>
    obtain ⟨hShift, hSize⟩ := not_or.mp hKeep
    rw [forall_prop_of_true ⟨Bool.not_eq_true _ ▸ hShift, hSize⟩]

theorem follows_of_scanUncached {m : Int} (hm : m ≤ words.length) {L : Int} {tok : Text}
    (h : (sliceTo (linearScanNext words (sliceFrom words (-m))) L).head? = some tok) :
    Follows words (max 1 m).toNat tok := by
  have hMem := head?_sliceTo h
  unfold sliceFrom at hMem
  split at hMem
  · -- a size that is not positive: the seed is what is left of the words
    obtain ⟨hLt, hFollows⟩ := mem_linearScanNext_iff.mp hMem
    exact hFollows.mono (by omega)
  · obtain ⟨hLt, hFollows⟩ := mem_linearScanNext_iff.mp hMem
    exact hFollows.mono (by omega)

/-- **One proposal**: it continues the prompt iff its sources do. -/
theorem realContinuations_propose_iff (hWord : WordTable s.entries) (req : DraftRequest) :
    RealContinuations (split req.promptText) (cfg.propose s req).1 ↔ cfg.KeepsToPrompt s req := by
  have hTwo := cfg.cache.two_le
  have hWords : ∀ w ∈ split req.promptText, Words.IsWord isSpace w := fun w => isWord_of_mem_split
  have hDraftLen : max cfg.draftMin (min cfg.draftMax req.draftLen) = cfg.draftLen req := rfl
  unfold propose KeepsToPrompt
  simp only [hDraftLen]
  by_cases hMin : ((split req.promptText).length : Int) < cfg.draftMin
  · rw [if_pos hMin]
    exact iff_of_true trivial fun hLe => by omega
  rw [if_neg hMin, forall_prop_of_true (by omega)]
  by_cases hEnabled : cfg.cacheEnabled = true
  · rw [if_pos hEnabled]
    have hEntries : ∀ w ∈ (cfg.draftFrom (cfg.ensureCache s (split req.promptText) req.promptText)
        (split req.promptText) (cfg.draftLen req)).1, Words.IsWord isSpace w :=
      fun w => mem_draftFrom (wordTable_ensureCache hWord _ _) hWords
    refine (realContinuations_proposalOf (k := cfg.cache.n - 1) hEntries fun hPath => ?_).trans ?_
    · rw [if_pos (size_ne_zero_of_draftFrom hPath)]
      omega
    · rw [and_iff_right (fun h => absurd (hEnabled.symm.trans h) (by decide)),
        forall_prop_of_true hEnabled, sliceFrom_neg (by omega)]
      by_cases hLen : cfg.cache.n - 1 ≤ (split req.promptText).length
      · rw [forall_prop_of_true hLen, ← tableFollows_ensureCache_iff]
        exact continues_draftFrom_iff hLen
      · refine iff_of_true (fun hPath => ?_) fun hLe => absurd hLe hLen
        exact absurd (draftFrom_short (by omega)) hPath
  · rw [if_neg hEnabled, and_iff_left (fun h => absurd h hEnabled),
      forall_prop_of_true (Bool.not_eq_true _ ▸ hEnabled)]
    have hDraft : ∀ w ∈ (cfg.scanOrEchoUncached (split req.promptText) (cfg.draftLen req)).1,
        Words.IsWord isSpace w := by
      rw [scanOrEchoUncached_eq]
      simp only
      intro w hw
      split at hw
      · exact hWords w (mem_sliceFrom (mem_echoSeed hw))
      · exact hWords w (mem_linearScanNext (mem_sliceTo hw))
    refine (realContinuations_proposalOf hDraft fun _ => rfl).trans ?_
    rw [scanOrEchoUncached_eq, if_neg (show ¬ (Dict.empty : NgramTable).size ≠ 0 by decide)]
    simp only
    split
    · next hScan =>
      rw [hScan, sliceTo_nil]
      exact iff_of_true (fun h => absurd rfl h) trivial
    · rw [forall_prop_of_true (show LookupPath.scan ≠ .echo by decide)]
      exact continues_alternatives_iff fun _ =>
        follows_of_scanUncached (min_le_right _ _)

/-- **When drafts continue the prompt.** After any earlier prompts, the proposal for a prompt is a
real continuation of it iff what it is taken from keeps to that prompt. -/
theorem realContinuations_iff (cfg : SelfSpeculationConfig) (earlier : List DraftRequest)
    (req : DraftRequest) :
    RealContinuations (split req.promptText) (cfg.propose (Run.exec cfg.step {} earlier) req).1 ↔
      cfg.KeepsToPrompt (Run.exec cfg.step {} earlier) req := by
  have hWord : WordTable (Run.exec cfg.step {} earlier).entries :=
    Run.exec_of_invariant (I := fun s : SelfSpeculation => WordTable s.entries)
      (fun _ req h => step_wordTable h req) wordTable_empty earlier
  exact realContinuations_propose_iff hWord req

end SelfSpeculationConfig

/-- Two alternatives from different places are drafted one after the other. -/
theorem alternatives_drafted :
    ¬ ∀ (cfg : SelfSpeculationConfig) (earlier : List DraftRequest) (req : DraftRequest),
      SelfSpeculationConfig.RealContinuations (split req.promptText)
        (cfg.propose (Run.exec cfg.step {} earlier) req).1 := by
  intro h
  have hReal := h { ngramSize := 2, cacheEnabled := false } [] ⟨"x y a x y b x y".toList, 4⟩
  have hSecond := hReal (by decide) 1 "b".toList (by decide)
  obtain ⟨i, hi, hSame, hNext⟩ := hSecond
  revert i
  decide

end Neuroswarm.Armcascade
