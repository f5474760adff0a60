import Neuroswarm.Armcascade.Types
import Neuroswarm.Lib.Dict
import Neuroswarm.Lib.Run

/-!
# ArmCascade — when the n-gram cache is transparent

What a proposer drafts from its cache against what it would draft from the prompt alone.
A draft depends on the cache only through the first tokens it gives for the windows on
the way.

* `chain_eq_iff` — when two tables draft the same.
* `transparent_iff` — when a proposal is the one a fresh proposer would make.
* `transparent_every_iff` — along every sequence of prompts.
-/

/-!
## N-gram self-speculation

`NgramCache` and `SelfSpeculationProposer`. The cache is rebuilt when a heuristic takes
a prompt for a new context; within a context it is used as it was built, for a prompt
that may be another. `cache_bytes` and environment variables are left out.
-/

namespace Neuroswarm.Armcascade

-- ------ NgramCache

/-- The parameters of a cache; `__init__` sees to the bounds. -/
structure NgramCache where
  n : Nat
  maxEntries : Nat
  two_le : 2 ≤ n
  one_le : 1 ≤ maxEntries

/-- Its entries: (n-1)-gram to the tokens that follow it. -/
abbrev NgramTable := Dict (List Text) (List Text)

namespace NgramCache

/-- `NgramCache(n=..., max_entries=...)`. -/
def init (n maxEntries : Int) : NgramCache :=
  ⟨max 2 n.toNat, max 1 maxEntries.toNat, Nat.le_max_left _ _, Nat.le_max_left _ _⟩

variable (c : NgramCache)

/-- One window of `add`. -/
def addWindow (entries : NgramTable) (key : List Text) (nxt : Text) : NgramTable :=
  match entries.get? key with
  | some found => (entries.set key (found ++ [nxt])).moveToEnd key
  | none => (if c.maxEntries ≤ entries.size then entries.popFirst else entries).set key [nxt]

/-- `add(text)`: every window of `n` tokens. -/
def add (entries : NgramTable) (text : Text) : NgramTable :=
  let tokens := split text
  if tokens.length < c.n then entries
  else (List.range (tokens.length - c.n + 1)).foldl (fun entries i =>
    c.addWindow entries ((tokens.drop i).take (c.n - 1)) (tokens.getD (i + c.n - 1) [])) entries

def lookup (entries : NgramTable) (seed : List Text) : Option (List Text) :=
  if seed.length ≠ c.n - 1 then none
  else
    match entries.get? seed with
    | none | some [] => none
    | some found => some found

end NgramCache

-- ------ SelfSpeculationProposer

/-- What `initialize` sets. -/
structure SelfSpeculationConfig where
  name : String := "self_speculation"
  ngramSize : Int := 24
  draftMin : Int := 4
  draftMax : Int := 48
  cacheEnabled : Bool := true
  cache : NgramCache := .init 3 1000000
  contextShiftK : Int := 8

/-- What a proposer keeps from one prompt to the next. -/
structure SelfSpeculation where
  entries : NgramTable := .empty
  prevWords : List Text := []

/-- The fields of a `ProposalRequest` that are read. -/
structure DraftRequest where
  promptText : Text
  draftLen : Int

/-- Where the tokens of a draft come from. -/
inductive LookupPath where
  | cache
  | scan
  | echo
  deriving DecidableEq, Repr

inductive DraftMetadata where
  /-- `{"reason": "prompt_too_short"}` -/
  | promptTooShort
  | drafted (ngramSize seedLen : Int) (cacheHit : Bool) (lookupPath : LookupPath)
  deriving DecidableEq, Repr

def linearScanNext (words seed : List Text) : List Text :=
  if seed = [] ∨ words.length ≤ seed.length then []
  else (List.range (words.length - seed.length)).filterMap fun i =>
    if (words.drop i).take seed.length = seed then words[i + seed.length]? else none

def echoSeed (seed : List Text) (draftLen : Nat) : List Text :=
  if _h : draftLen = 0 ∨ seed = [] then []
  else seed.take draftLen ++
    if draftLen ≤ seed.length then [] else echoSeed seed (draftLen - seed.length)
termination_by draftLen
decreasing_by
  have := List.length_pos_of_ne_nil (not_or.mp ‹_›).2
  omega

namespace SelfSpeculationConfig

variable (cfg : SelfSpeculationConfig)

def contextShifted (prev words : List Text) : Bool :=
  let k := (max 1 cfg.contextShiftK).toNat
  let tail (l : List Text) := l.drop (l.length - k)
  prev = [] ∨ k < words.length - prev.length ∨ k < prev.length - words.length ∨
    tail words ≠ tail prev

/-- The entries after `_ensure_cache(words, text)`. -/
def ensureCache (s : SelfSpeculation) (words : List Text) (text : Text) : NgramTable :=
  if cfg.contextShifted s.prevWords words ∨ s.entries.size = 0 then cfg.cache.add .empty text
  else s.entries

/-- The loop of `_chain_from_cache` for `d` more tokens. -/
def chain (entries : NgramTable) : Nat → List Text → List Text
  | 0, _ => []
  | d + 1, window =>
    match cfg.cache.lookup entries window with
    | none | some [] => []
    | some (tok :: _) => tok :: chain entries d (window.drop 1 ++ [tok])

/-- `_chain_from_cache(words, draft_len)`; it is a hit iff there are tokens. -/
def chainFromCache (entries : NgramTable) (words : List Text) (draftLen : Int) : List Text :=
  let seedLen := cfg.cache.n - 1
  if words.length < seedLen then []
  else cfg.chain entries draftLen.toNat (words.drop (words.length - seedLen))

/-- Extend a draft by scanning with its own end, for `d` more tokens. -/
def extendScan (words : List Text) : Nat → List Text → List Text
  | 0, draft => draft
  | d + 1, draft =>
    let all := words ++ draft
    match linearScanNext all (all.drop (all.length - (cfg.cache.n - 1))) with
    | [] => draft
    | tok :: _ => extendScan words d (draft ++ [tok])

/-- The echo of the last `ngram_size` words. -/
def echo (words : List Text) (draftLen : Int) : List Text :=
  echoSeed (sliceFrom words (-(min cfg.ngramSize words.length))) draftLen.toNat

def scanOrEcho (words : List Text) (draftLen : Int) : List Text × LookupPath :=
  let seedLen := cfg.cache.n - 1
  let seed := if seedLen ≤ words.length then words.drop (words.length - seedLen) else words
  match linearScanNext words seed with
  | [] => (cfg.echo words draftLen, .echo)
  | scanned =>
    let first := sliceTo scanned draftLen
    (cfg.extendScan words (draftLen.toNat - first.length) first, .scan)

def scanOrEchoUncached (words : List Text) (draftLen : Int) : List Text × LookupPath :=
  match linearScanNext words (sliceFrom words (-(min cfg.ngramSize words.length))) with
  | [] => (cfg.echo words draftLen, .echo)
  | scanned => (sliceTo scanned draftLen, .scan)

def draftFrom (entries : NgramTable) (words : List Text) (draftLen : Int) :
    List Text × Bool × LookupPath :=
  match cfg.chainFromCache entries words draftLen with
  | [] => ((cfg.scanOrEcho words draftLen).1, false, (cfg.scanOrEcho words draftLen).2)
  | tok :: toks => (tok :: toks, true, .cache)

/-- The proposal for a draft; an empty cache counts as none for `seed_len`. -/
def proposalOf (entries : NgramTable) (words : List Text) (draft : List Text) (cacheHit : Bool)
    (path : LookupPath) : Proposal DraftMetadata :=
  let nMeta := min cfg.ngramSize words.length
  let seedLen :=
    if path = .echo then nMeta
    else max 1 (if entries.size ≠ 0 then (cfg.cache.n - 1 : Nat) else nMeta)
  .fromText (unwords draft) cfg.name 1 (min (9 / 10) (4 / 10 + 1 / 100 * min 50 words.length))
    (.drafted nMeta seedLen cacheHit path)

def propose (s : SelfSpeculation) (req : DraftRequest) :
    Proposal DraftMetadata × SelfSpeculation :=
  let words := split req.promptText
  let draftLen := max cfg.draftMin (min cfg.draftMax req.draftLen)
  if words.length < cfg.draftMin then (.fromText [] cfg.name 1 0 .promptTooShort, s)
  else if cfg.cacheEnabled then
    let entries := cfg.ensureCache s words req.promptText
    let draft := cfg.draftFrom entries words draftLen
    (cfg.proposalOf entries words draft.1 draft.2.1 draft.2.2, { entries, prevWords := words })
  else
    let draft := cfg.scanOrEchoUncached words draftLen
    (cfg.proposalOf .empty words draft.1 false draft.2, s)

end SelfSpeculationConfig

end Neuroswarm.Armcascade

/-! ## When the n-gram cache is transparent -/

namespace Neuroswarm.Armcascade

namespace SelfSpeculationConfig

variable (cfg : SelfSpeculationConfig)

def step (s : SelfSpeculation) (req : DraftRequest) : SelfSpeculation := (cfg.propose s req).2

/-- The proposal is the one that a freshly initialized proposer makes for the prompt. -/
def Transparent (s : SelfSpeculation) (req : DraftRequest) : Prop :=
  (cfg.propose s req).1 = (cfg.propose {} req).1

def first (entries : NgramTable) (window : List Text) : Option Text :=
  (cfg.cache.lookup entries window).bind List.head?

/-- Both tables give the same first token for each window on the way of `d` tokens. -/
def SameFirst (entries entries' : NgramTable) : Nat → List Text → Prop
  | 0, _ => True
  | d + 1, window =>
    cfg.first entries window = cfg.first entries' window ∧
      ∀ tok, cfg.first entries' window = some tok →
        SameFirst entries entries' d (window.drop 1 ++ [tok])

/-- If the cache is used as it stands, it gives the first tokens that the prompt itself gives,
for every window that the prompt's own draft goes through. -/
def Reusable (s : SelfSpeculation) (req : DraftRequest) : Prop :=
  let words := split req.promptText
  let seedLen := cfg.cache.n - 1
  cfg.cacheEnabled = true → cfg.draftMin ≤ words.length →
    cfg.contextShifted s.prevWords words = false → s.entries.size ≠ 0 → seedLen ≤ words.length →
    cfg.SameFirst s.entries (cfg.cache.add .empty req.promptText)
      (max cfg.draftMin (min cfg.draftMax req.draftLen)).toNat (words.drop (words.length - seedLen))

end SelfSpeculationConfig

-- ------ Tables hold words

def WordTable (entries : NgramTable) : Prop :=
  ∀ key found, entries.get? key = some found → ∀ w ∈ found, Words.IsWord isSpace w

theorem wordTable_empty : WordTable .empty := by
  intro key found h
  cases h

theorem isWord_of_mem_split {s w : Text} (h : w ∈ split s) : Words.IsWord isSpace w :=
  Words.isWord_of_mem_split h

theorem size_ne_zero_of_get? {entries : NgramTable} {key found : List Text}
    (h : entries.get? key = some found) : entries.size ≠ 0 := by
  have := List.length_pos_of_mem (Dict.mem_entries_iff.mpr h)
  exact Nat.pos_iff_ne_zero.mp this

namespace NgramCache

variable {c : NgramCache}

variable {entries : NgramTable}

theorem get?_addWindow {key key' found : List Text} {nxt : Text}
    (h : (c.addWindow entries key nxt).get? key' = some found) :
    (key' = key ∧ ∃ old, (entries.get? key = some old ∨ old = []) ∧ found = old ++ [nxt]) ∨
      entries.get? key' = some found := by
  unfold addWindow at h
  split at h
  · next old hOld =>
    rw [Dict.get?_moveToEnd, Dict.get?_set] at h
    split at h
    · next hKey =>
      cases h
      exact .inl ⟨hKey, old, .inl hOld, rfl⟩
    · exact .inr h
  · rw [Dict.get?_set] at h
    split at h
    · next hKey =>
      cases h
      exact .inl ⟨hKey, [], .inr rfl, rfl⟩
    · split at h
      · exact .inr (Dict.get?_popFirst_of_some h)
      · exact .inr h

theorem addWindow_size_ne_zero (entries : NgramTable) (key : List Text) (nxt : Text) :
    (c.addWindow entries key nxt).size ≠ 0 := by
  obtain ⟨found, hFound⟩ : ∃ found, (c.addWindow entries key nxt).get? key = some found := by
    unfold addWindow
    split
    · exact ⟨_, by rw [Dict.get?_moveToEnd, Dict.get?_set_self]⟩
    · exact ⟨_, Dict.get?_set_self _ _ _⟩
  exact size_ne_zero_of_get? hFound

theorem wordTable_addWindow (h : WordTable entries) {nxt : Text} (hNxt : Words.IsWord isSpace nxt)
    (key : List Text) :
    WordTable (c.addWindow entries key nxt) := by
  intro key' found hFound w hw
  rcases get?_addWindow hFound with ⟨-, old, hOld, rfl⟩ | hBefore
  · rcases List.mem_append.mp hw with hw | hw
    · rcases hOld with hOld | rfl
      · exact h key old hOld w hw
      · cases hw
    · rw [List.mem_singleton.mp hw]
      exact hNxt
  · exact h key' found hBefore w hw

theorem wordTable_add (h : WordTable entries) (text : Text) :
    WordTable (c.add entries text) := by
  unfold add
  simp only
  split
  · exact h
  · next hLen =>
    have hTwo := c.two_le
    refine List.foldlRecOn (motive := WordTable) _ _ h fun entries hEntries i hi => ?_
    have hi := List.mem_range.mp hi
    refine wordTable_addWindow hEntries (isWord_of_mem_split (s := text) ?_) _
    rw [List.getD_eq_getElem?_getD, List.getElem?_eq_getElem (by omega), Option.getD_some]
    exact List.getElem_mem _

theorem add_size_ne_zero {text : Text} (h : c.n ≤ (split text).length) (entries : NgramTable) :
    (c.add entries text).size ≠ 0 := by
  unfold add
  simp only
  rw [if_neg (Nat.not_lt.mpr h), List.range_succ, List.foldl_append, List.foldl_cons,
    List.foldl_nil]
  exact addWindow_size_ne_zero _ _ _

theorem lookup_eq_some {seed found : List Text} (h : c.lookup entries seed = some found) :
    entries.get? seed = some found := by
  unfold lookup at h
  split at h
  · cases h
  · split at h
    · cases h
    · cases h
    · next hGet =>
      cases h
      exact hGet

end NgramCache

-- ------ Drafts are words

theorem mem_sliceTo {α : Type*} {l : List α} {k : Int} {x : α} (h : x ∈ sliceTo l k) : x ∈ l := by
  unfold sliceTo at h
  split at h <;> exact List.mem_of_mem_take h

theorem mem_sliceFrom {α : Type*} {l : List α} {k : Int} {x : α} (h : x ∈ sliceFrom l k) :
    x ∈ l := by
  unfold sliceFrom at h
  split at h <;> exact List.mem_of_mem_drop h

theorem mem_linearScanNext {words seed : List Text} {w : Text}
    (h : w ∈ linearScanNext words seed) : w ∈ words := by
  unfold linearScanNext at h
  split at h
  · cases h
  · obtain ⟨i, -, hi⟩ := List.mem_filterMap.mp h
    split at hi
    · exact List.mem_of_getElem? hi
    · cases hi

theorem mem_echoSeed {seed : List Text} {n : Nat} {w : Text} (h : w ∈ echoSeed seed n) :
    w ∈ seed := by
  induction n using echoSeed.induct seed with
  | case1 n hStop =>
    rw [echoSeed, dif_pos hStop] at h
    cases h
  | case2 n hGo ih =>
    rw [echoSeed, dif_neg hGo] at h
    rcases List.mem_append.mp h with h | h
    · exact List.mem_of_mem_take h
    · split at h
      · cases h
      · next hLess => exact ih hLess h

namespace SelfSpeculationConfig

variable {cfg : SelfSpeculationConfig}

theorem chain_succ (entries : NgramTable) (d : Nat) (window : List Text) :
    cfg.chain entries (d + 1) window =
      match cfg.first entries window with
      | none => []
      | some tok => tok :: cfg.chain entries d (window.drop 1 ++ [tok]) := by
  rw [chain, first]
  rcases cfg.cache.lookup entries window with _ | _ | _ <;> rfl

variable {entries : NgramTable}

theorem mem_chain (h : WordTable entries) {d : Nat} {window : List Text} {w : Text}
    (hw : w ∈ cfg.chain entries d window) : Words.IsWord isSpace w := by
  induction d generalizing window with
  | zero => cases hw
  | succ d ih =>
    rw [chain_succ] at hw
    split at hw
    · cases hw
    · next tok hTok =>
      rcases List.mem_cons.mp hw with rfl | hw
      · obtain ⟨found, hFound, hHead⟩ := Option.bind_eq_some_iff.mp hTok
        exact h _ found (NgramCache.lookup_eq_some hFound) _ (List.mem_of_head? hHead)
      · exact ih hw

variable {words : List Text}

theorem mem_extendScan {draft : List Text} {d : Nat} {w : Text}
    (hw : w ∈ cfg.extendScan words d draft) : w ∈ words ∨ w ∈ draft := by
  induction d generalizing draft with
  | zero => exact .inr hw
  | succ d ih =>
    rw [extendScan] at hw
    split at hw
    · exact .inr hw
    · next tok toks hScan =>
      rcases ih hw with hw | hw
      · exact .inl hw
      · rcases List.mem_append.mp hw with hw | hw
        · exact .inr hw
        · have hTok := mem_linearScanNext (hScan ▸ List.mem_cons_self ..)
          rw [List.mem_singleton.mp hw]
          exact List.mem_append.mp hTok

variable {draftLen : Int}

theorem mem_scanOrEcho {w : Text} (hw : w ∈ (cfg.scanOrEcho words draftLen).1) : w ∈ words := by
  unfold scanOrEcho at hw
  simp only at hw
  split at hw
  · exact mem_sliceFrom (mem_echoSeed hw)
  · rcases mem_extendScan hw with hw | hw
    · exact hw
    · exact mem_linearScanNext (mem_sliceTo hw)

theorem mem_draftFrom (h : WordTable entries) (hWords : ∀ w ∈ words, Words.IsWord isSpace w)
    {w : Text} (hw : w ∈ (cfg.draftFrom entries words draftLen).1) : Words.IsWord isSpace w := by
  unfold draftFrom at hw
  split at hw
  · exact hWords w (mem_scanOrEcho hw)
  · next tok toks hChain =>
    have hMem : w ∈ cfg.chainFromCache entries words draftLen := hChain ▸ hw
    unfold chainFromCache at hMem
    simp only at hMem
    split at hMem
    · cases hMem
    · exact mem_chain h hMem

-- ------ Transparency

variable {entries' : NgramTable}

theorem chain_eq_iff {d : Nat} {window : List Text} :
    cfg.chain entries d window = cfg.chain entries' d window ↔
      cfg.SameFirst entries entries' d window := by
  induction d generalizing window with
  | zero => exact iff_of_true rfl trivial
  | succ d ih =>
    rw [chain_succ, chain_succ, SameFirst]
    cases h : cfg.first entries window with
    | none =>
      cases h' : cfg.first entries' window with
      | none => simp
      | some tok' => simp
    | some tok =>
      cases h' : cfg.first entries' window with
      | none => simp
      | some tok' =>
        simp only [List.cons.injEq, Option.some.injEq, forall_eq']
        constructor
        · rintro ⟨rfl, hRest⟩
          exact ⟨rfl, ih.mp hRest⟩
        · rintro ⟨rfl, hRest⟩
          exact ⟨rfl, ih.mpr hRest⟩

theorem draftFrom_congr
    (h : cfg.chainFromCache entries words draftLen = cfg.chainFromCache entries' words draftLen) :
    cfg.draftFrom entries words draftLen = cfg.draftFrom entries' words draftLen := by
  unfold draftFrom
  rw [h]

theorem chainFromCache_congr
    (h : (cfg.draftFrom entries words draftLen).1 = (cfg.draftFrom entries' words draftLen).1)
    (hHit : (cfg.draftFrom entries words draftLen).2.1 =
      (cfg.draftFrom entries' words draftLen).2.1) :
    cfg.chainFromCache entries words draftLen = cfg.chainFromCache entries' words draftLen := by
  unfold draftFrom at h hHit
  cases hChain : cfg.chainFromCache entries words draftLen with
  | nil =>
    cases hChain' : cfg.chainFromCache entries' words draftLen with
    | nil => rfl
    | cons tok' toks' => simp [hChain, hChain'] at hHit
  | cons tok toks =>
    cases hChain' : cfg.chainFromCache entries' words draftLen with
    | nil => simp [hChain, hChain'] at hHit
    | cons tok' toks' => simpa [hChain, hChain'] using h

theorem chainFromCache_eq_iff :
    cfg.chainFromCache entries words draftLen = cfg.chainFromCache entries' words draftLen ↔
      (cfg.cache.n - 1 ≤ words.length → cfg.SameFirst entries entries' draftLen.toNat
        (words.drop (words.length - (cfg.cache.n - 1)))) := by
  unfold chainFromCache
  simp only
  split
  · next h => exact iff_of_true rfl fun hLe => by omega
  · next h => rw [chain_eq_iff, forall_prop_of_true (by omega)]

theorem fresh_size_ne_zero {text : Text}
    (h : (cfg.draftFrom (cfg.cache.add .empty text) (split text) draftLen).2.2 ≠ .echo) :
    (cfg.cache.add .empty text).size ≠ 0 := by
  by_cases hLen : cfg.cache.n ≤ (split text).length
  · exact NgramCache.add_size_ne_zero hLen _
  · -- a shorter prompt has no entries, and its seed is the whole prompt
    refine absurd ?_ h
    have hTwo := cfg.cache.two_le
    have hAdd : cfg.cache.add .empty text = .empty := by
      unfold NgramCache.add
      simp only
      rw [if_pos (by omega)]
    have hNoFirst : ∀ window, cfg.first .empty window = none := by
      intro window
      unfold first NgramCache.lookup
      split <;> rfl
    have hChain : cfg.chainFromCache .empty (split text) draftLen = [] := by
      unfold chainFromCache
      simp only
      split
      · rfl
      · cases draftLen.toNat with
        | zero => rfl
        | succ d => rw [chain_succ, hNoFirst]
    have hScan : ∀ seed : List Text, (split text).length ≤ seed.length →
        linearScanNext (split text) seed = [] := by
      intro seed hSeed
      rw [linearScanNext, if_pos (.inr hSeed)]
    unfold draftFrom
    rw [hAdd, hChain]
    unfold scanOrEcho
    simp only
    rw [hScan]
    split
    · rw [List.length_drop]
      omega
    · exact Nat.le_refl _

theorem propose_fresh {req : DraftRequest} (hEnabled : cfg.cacheEnabled = true)
    (hMin : ¬ ((split req.promptText).length : Int) < cfg.draftMin) :
    (cfg.propose {} req).1 =
      let words := split req.promptText
      let fresh := cfg.cache.add .empty req.promptText
      let draft := cfg.draftFrom fresh words (max cfg.draftMin (min cfg.draftMax req.draftLen))
      cfg.proposalOf fresh words draft.1 draft.2.1 draft.2.2 := by
  unfold propose
  simp only
  rw [if_neg hMin, if_pos hEnabled]
  rfl

/-- **One proposal**: it is the fresh one iff the cache can be reused for the prompt. -/
theorem transparent_iff {s : SelfSpeculation} (hWord : WordTable s.entries) {req : DraftRequest} :
    cfg.Transparent s req ↔ cfg.Reusable s req := by
  unfold Transparent
  by_cases hMin : ((split req.promptText).length : Int) < cfg.draftMin
  · -- too short a prompt: no draft
    refine iff_of_true ?_ fun _ hLe => by omega
    unfold propose
    simp only
    rw [if_pos hMin, if_pos hMin]
  by_cases hEnabled : cfg.cacheEnabled = true
  · rw [propose_fresh hEnabled hMin]
    have hPropose : (cfg.propose s req).1 =
        let words := split req.promptText
        let entries := cfg.ensureCache s words req.promptText
        let draft := cfg.draftFrom entries words (max cfg.draftMin (min cfg.draftMax req.draftLen))
        cfg.proposalOf entries words draft.1 draft.2.1 draft.2.2 := by
      unfold propose
      simp only
      rw [if_neg hMin, if_pos hEnabled]
    rw [hPropose]
    unfold Reusable ensureCache
    simp only
    by_cases hBuild : cfg.contextShifted s.prevWords (split req.promptText) = true ∨
        s.entries.size = 0
    · -- the cache is rebuilt
      rw [if_pos hBuild]
      refine iff_of_true rfl fun _ _ hShift hSize => ?_
      rcases hBuild with hBuild | hBuild
      · rw [hShift] at hBuild
        cases hBuild
      · exact absurd hBuild hSize
    · rw [if_neg hBuild]
      obtain ⟨hShift, hSize⟩ := not_or.mp hBuild
      rw [forall_prop_of_true hEnabled, forall_prop_of_true (by omega),
        forall_prop_of_true (Bool.not_eq_true _ ▸ hShift), forall_prop_of_true hSize,
        ← chainFromCache_eq_iff]
      constructor
      · intro hEq
        have hTokens := congrArg Proposal.tokens hEq
        have hMeta := congrArg Proposal.metadata hEq
        unfold proposalOf at hTokens
        rw [fromText_tokens fun w => mem_draftFrom hWord fun w => isWord_of_mem_split,
          fromText_tokens fun w => mem_draftFrom (NgramCache.wordTable_add wordTable_empty _)
            fun w => isWord_of_mem_split] at hTokens
        refine chainFromCache_congr hTokens ?_
        exact (DraftMetadata.drafted.inj hMeta).2.2.1
      · intro hChain
        rw [draftFrom_congr hChain]
        -- only `seed_len` still looks at the entries, and not for an echo
        unfold proposalOf
        by_cases hEcho : (cfg.draftFrom (cfg.cache.add .empty req.promptText)
            (split req.promptText) (max cfg.draftMin (min cfg.draftMax req.draftLen))).2.2 = .echo
        · simp only [hEcho, if_true]
        · simp only [if_pos hSize, if_pos (fresh_size_ne_zero hEcho)]
  · -- without a cache nothing is kept
    refine iff_of_true ?_ fun h => absurd h hEnabled
    unfold propose
    simp only
    rw [if_neg hMin, if_neg hMin, if_neg hEnabled, if_neg hEnabled]

theorem step_wordTable {s : SelfSpeculation} (h : WordTable s.entries) (req : DraftRequest) :
    WordTable (cfg.step s req).entries := by
  unfold step propose
  simp only
  split
  · exact h
  · split
    · show WordTable (cfg.ensureCache s _ _)
      unfold ensureCache
      split
      · exact NgramCache.wordTable_add wordTable_empty _
      · exact h
    · exact h

/-- **The n-gram cache is transparent** exactly along the runs whose prompts can reuse it. -/
theorem transparent_every_iff (reqs : List DraftRequest) :
    Run.Every cfg.step cfg.Transparent {} reqs ↔ Run.Every cfg.step cfg.Reusable {} reqs := by
  have hKeep : ∀ (C : SelfSpeculation → DraftRequest → Prop) (s : SelfSpeculation)
      (req : DraftRequest), WordTable s.entries → C s req → WordTable (cfg.step s req).entries :=
    fun _ _ req h _ => step_wordTable h req
  constructor
  · exact Run.every_of_every (I := fun s => WordTable s.entries) (hKeep _)
      (fun s req hWord h => (transparent_iff hWord).mp h) wordTable_empty
  · exact Run.every_of_every (I := fun s => WordTable s.entries) (hKeep _)
      (fun s req hWord h => (transparent_iff hWord).mpr h) wordTable_empty

end SelfSpeculationConfig

/-- Two prompts with the same end: the second is drafted from the first. -/
theorem not_transparent_sharedEnd :
    ¬ Run.Every (SelfSpeculationConfig.step {}) (SelfSpeculationConfig.Transparent {}) {}
      [⟨"a b x 1 2 3 4 5 6 a b".toList, 8⟩, ⟨"a b y 1 2 3 4 5 6 a b".toList, 8⟩] := by
  intro h
  have hTokens := congrArg (fun p => p.tokens.head?) h.2.1
  revert hTokens
  decide

end Neuroswarm.Armcascade
