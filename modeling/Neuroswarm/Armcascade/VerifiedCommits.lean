import Neuroswarm.Armcascade.Degradation

/-!
# ArmCascade — what a speculative round commits

The verifier counts draft tokens, `_prefix_text` counts words between blanks, and at the
terminal tier the whole draft is accepted. The round commits a beginning of the draft that
was verified only where the two counts agree.

* `ASCREngine.round_next_fresh` — until the quality cascade begins nothing is committed.
* `ASCREngine.commitsVerified_iff` — one round; `commitsVerified_every_iff` — a whole run.
-/

namespace Neuroswarm.Armcascade

namespace ASCREngine

open Loop (Flow)

variable {M V : Type*} {e : ASCREngine M V} {t : CascadeTask} {graph : EscalationGraph}
  {input : RoundInput M} {answers : Answers M} {s s' : LoopState} {node : EscalationNode}
  {proposal : Proposal M} {vres : VerifyResult} {decision : AcceptanceDecision}

-- ------ Nothing is committed before the quality cascade

/-- As long as rounds are speculative nothing is committed. -/
def Fresh (s : LoopState) : Prop := ¬ InQuality s → s.committed = []

theorem fresh_start : Fresh (start t graph) := fun _ => rfl

theorem fresh_of_quality (h : InQuality s) : Fresh s := fun hNot => absurd h hNot

theorem hop_next (h : hop graph s = .next s') :
    s'.committed = s.committed ∧ s'.useQuality = s.useQuality ∧ s'.mode = s.mode := by
  unfold hop at h
  split at h
  · cases h
  · cases h
    exact ⟨rfl, rfl, rfl⟩

theorem qualityRound_next {tierId : Int} (h : e.qualityRound t graph input tierId s = .next s') :
    InQuality s' := by
  unfold qualityRound at h
  split at h
  · cases h
  · dsimp only at h
    split at h
    · cases h
    · split at h
      · cases h
      · cases h
        exact .inr rfl

theorem commit_next (h : commit graph proposal vres decision s = .next s') :
    InQuality s' ∨ s'.committed = s.committed := by
  unfold commit at h
  cases hAction : decision.action with
  | accept =>
    rw [hAction] at h
    cases h
  | partialAccept =>
    rw [hAction] at h
    cases h
    exact .inl (.inl rfl)
  | increaseSpeculation | reduceSpeculation =>
    rw [hAction] at h
    cases h
    exact .inr rfl
  | reject | escalate =>
    rw [hAction] at h
    dsimp only at h
    split at h
    · cases h
    · split at h
      · cases h
      · cases h
        exact .inr rfl

theorem judge_next {tierId : Int} (h : e.judge t graph input tierId proposal vres s = .next s') :
    InQuality s' ∨ s'.committed = s.committed := by
  unfold judge at h
  dsimp only at h
  split at h
  · have hNext := commit_next h
    exact hNext
  · cases h

theorem speculativeRound_next {tierId : Int}
    (h : e.speculativeRound t graph input tierId s = .next s') :
    InQuality s' ∨ s'.committed = s.committed := by
  unfold speculativeRound at h
  split at h
  · cases h
  · split at h
    · cases h
      exact .inl (.inl rfl)
    · split at h
      · cases h
      · dsimp only at h
        split at h
        · cases h
          exact .inl (.inl rfl)
        · split at h
          · cases h
            exact .inl (.inl rfl)
          · have hNext := judge_next h
            exact hNext

theorem round_next_fresh (hFresh : Fresh s) (h : e.round t graph input s = .next s') :
    Fresh s' := by
  by_cases hAt : ∃ node, AtTier t graph s node
  · obtain ⟨node, hNode⟩ := hAt
    by_cases hQuality : InQuality s
    · rw [round_quality hNode hQuality] at h
      exact fresh_of_quality (qualityRound_next h)
    · rw [round_speculative hNode hQuality] at h
      obtain hQuality' | hSame := speculativeRound_next h
      · exact fresh_of_quality hQuality'
      · intro _
        rw [hSame]
        exact hFresh hQuality
  · obtain ⟨rounds, hStop⟩ | hHop : (∃ rounds, e.round t graph input s = .stop { s with rounds }) ∨
        e.round t graph input s = hop graph { s with rounds := s.rounds + 1 } :=
      round_elsewhere (not_exists.mp hAt)
    · rw [hStop] at h
      cases h
    · rw [hHop] at h
      obtain ⟨hCommitted, hUse, hMode⟩ := hop_next h
      intro hNot
      rw [hCommitted]
      refine hFresh fun hQuality => hNot ?_
      rwa [InQuality, hUse, hMode]

-- ------ A verified draft

/-- The pass proposes the draft, and the verifier answers. -/
structure Verifies (e : ASCREngine M V) (t : CascadeTask) (graph : EscalationGraph)
    (input : RoundInput M) (s : LoopState) (node : EscalationNode) (proposal : Proposal M)
    (vres : VerifyResult) : Prop where
  tier : AtTier t graph s node
  speculative : ¬ InQuality s
  prepared : input.prepared = true
  proposed : input.proposal = some proposal
  slot : e.refusesSlot proposal = false
  text : isBlank proposal.text = false
  verified : input.verified = some vres

/-- The state in which the verifier has answered. -/
def atVerdict (s : LoopState) (node : EscalationNode) (proposal : Proposal M) : LoopState :=
  { s with
    rounds := s.rounds + 1
    tierUsed := node.tier
    draftTokens := s.draftTokens + proposal.draftLen }

theorem round_of_verifies (h : Verifies e t graph input s node proposal vres) :
    e.round t graph input s =
      e.judge t graph input node.tier proposal vres (atVerdict s node proposal) := by
  rw [round_speculative h.tier h.speculative, speculativeRound,
    if_neg (by simp [h.prepared]), h.proposed]
  dsimp only
  rw [if_neg (by simp [h.slot]), if_neg (by simp [h.text]), h.verified]
  rfl

/-- Tokens `t1, ..., tn` and a text that is their concatenation, of which the verifier has
accepted `k ≤ n`. -/
structure Spelled (proposal : Proposal M) (vres : VerifyResult) : Prop where
  text : proposal.text = proposal.tokens.flatten
  draftLen : proposal.draftLen = proposal.tokens.length
  nonneg : 0 ≤ vres.acceptedPrefixLen
  le : vres.acceptedPrefixLen ≤ proposal.tokens.length

theorem Spelled.roundDraftTokens (h : Spelled proposal vres)
    (hText : isBlank proposal.text = false) :
    roundDraftTokens proposal = proposal.tokens.length ∧ proposal.tokens ≠ [] := by
  have hTokens : proposal.tokens ≠ [] := by
    intro hNil
    rw [h.text, hNil] at hText
    cases hText
  have hLen : proposal.draftLen ≠ 0 := by
    rw [h.draftLen]
    simpa using hTokens
  rw [ASCREngine.roundDraftTokens, if_neg hLen, h.draftLen]
  exact ⟨rfl, hTokens⟩

def Accepts (decision : AcceptanceDecision) : Prop :=
  decision.action = .accept ∨ decision.action = .partialAccept

theorem decide_acceptedPrefixLen (hSpelled : Spelled proposal vres)
    (hText : isBlank proposal.text = false)
    (hAccepts : Accepts (e.confidence.decide (e.signals t input node.tier proposal vres))) :
    (e.confidence.decide (e.signals t input node.tier proposal vres)).acceptedPrefixLen =
        (if 3 ≤ node.tier then (proposal.tokens.length : Int) else vres.acceptedPrefixLen) ∧
      0 < (e.confidence.decide (e.signals t input node.tier proposal vres)).acceptedPrefixLen := by
  obtain ⟨hDraft, hTokens⟩ := hSpelled.roundDraftTokens hText
  have hPos : 0 < proposal.tokens.length := List.length_pos_of_ne_nil hTokens
  have hLe := hSpelled.le
  have hNonneg := hSpelled.nonneg
  unfold FusedConfidenceEngine.decide at hAccepts ⊢
  by_cases hTier : 3 ≤ node.tier
  · rw [decideOn_terminal (decide_eq_true hTier), if_pos hTier]
    have hMax : max vres.acceptedPrefixLen (ASCREngine.roundDraftTokens proposal) =
        proposal.tokens.length := by omega
    refine ⟨hMax, ?_⟩
    show 0 < max vres.acceptedPrefixLen (ASCREngine.roundDraftTokens proposal)
    omega
  · rw [if_neg hTier]
    obtain ⟨hLen, hNe⟩ := decideOn_accepts (decide_eq_false hTier) hAccepts
    rw [hLen]
    have hEq : (e.signals t input node.tier proposal vres).acceptedPrefixLen =
      vres.acceptedPrefixLen := rfl
    exact ⟨hEq, by omega⟩

theorem commit_accepts (graph : EscalationGraph) (vres : VerifyResult)
    (hAccepts : Accepts decision) (hPos : 0 < decision.acceptedPrefixLen)
    (hText : isBlank proposal.text = false) (hFresh : s.committed = []) :
    ∃ s', (commit graph proposal vres decision s).state? = some s' ∧
      s'.committed = unwords ((split proposal.text).take decision.acceptedPrefixLen.toNat) ∧
      s'.generatedTokens = s.generatedTokens + decision.acceptedPrefixLen := by
  have hPrefix : prefixText proposal.text decision.acceptedPrefixLen =
      unwords ((split proposal.text).take decision.acceptedPrefixLen.toNat) := by
    refine if_neg (not_or.mpr ⟨by omega, ?_⟩)
    simp [hText]
  have hNe : prefixText proposal.text decision.acceptedPrefixLen ≠ [] := by
    rw [hPrefix]
    refine Words.join_ne_nil (fun w hw => Words.isWord_of_mem_split (List.mem_of_mem_take hw)) ?_
    have hSplit := split_ne_nil hText
    simp only [ne_eq, List.take_eq_nil_iff, hSplit, or_false]
    omega
  unfold commit
  obtain hAction | hAction := hAccepts
  · rw [hAction]
    refine ⟨_, rfl, ?_, ?_⟩
    · show extend s.committed _ = _
      rw [if_neg hNe, hFresh, ← hPrefix]
      rfl
    · show s.generatedTokens + _ = _
      rw [if_neg (by omega)]
  · rw [hAction]
    refine ⟨_, rfl, ?_, ?_⟩
    · dsimp only
      rw [if_neg hNe]
      show extend s.committed _ = _
      rw [hFresh, ← hPrefix]
      rfl
    · dsimp only
      rw [if_neg hNe]

theorem round_accepts (hRecords : e.recordsRounds = true) (hFresh : Fresh s)
    (hVerifies : Verifies e t graph input s node proposal vres) (hSpelled : Spelled proposal vres)
    (hAccepts : Accepts (e.confidence.decide (e.signals t input node.tier proposal vres))) :
    ∃ (s' : LoopState) (j : Nat), (e.round t graph input s).state? = some s' ∧
      (j : Int) = (if 3 ≤ node.tier then (proposal.tokens.length : Int)
        else vres.acceptedPrefixLen) ∧
      0 < j ∧ s'.committed = unwords ((split proposal.text).take j) ∧
      s'.generatedTokens = s.generatedTokens + j := by
  obtain ⟨hLen, hPos⟩ := decide_acceptedPrefixLen hSpelled hVerifies.text hAccepts
  obtain ⟨s', hState, hCommitted, hGenerated⟩ :=
    commit_accepts graph vres hAccepts hPos hVerifies.text
      (s := e.verified t proposal vres
        (e.confidence.fuse (e.signals t input node.tier proposal vres))
        (atVerdict s node proposal))
      (hFresh hVerifies.speculative)
  refine ⟨s', _, ?_, ?_, ?_, hCommitted, ?_⟩
  · rw [round_of_verifies hVerifies, judge, if_pos hRecords]
    exact hState
  · rw [← hLen]
    omega
  · omega
  · rw [hGenerated]
    show s.generatedTokens + _ = _
    omega

-- ------ What a round commits

/-- What an accepting round adds is the text of the first `j` tokens and the count `j`, for some
`j` up to the verified `k`. -/
def CommitsVerified (e : ASCREngine M V) (t : CascadeTask) (graph : EscalationGraph)
    (input : RoundInput M) (s : LoopState) : Prop :=
  ∀ node proposal vres, Verifies e t graph input s node proposal vres →
    Spelled proposal vres →
    Accepts (e.confidence.decide (e.signals t input node.tier proposal vres)) →
    ∀ s', (e.round t graph input s).state? = some s' →
      ∃ j : Nat, j ≤ vres.acceptedPrefixLen ∧
        s'.committed = s.committed ++ (proposal.tokens.take j).flatten ∧
        s'.generatedTokens = s.generatedTokens + j

/-- The first `k` tokens are the first `k` words of the draft, each followed by one space but
the last; at the terminal tier all tokens are verified. -/
def CountsWords (e : ASCREngine M V) (t : CascadeTask) (graph : EscalationGraph)
    (input : RoundInput M) (s : LoopState) : Prop :=
  ∀ node proposal vres, Verifies e t graph input s node proposal vres →
    Spelled proposal vres →
    Accepts (e.confidence.decide (e.signals t input node.tier proposal vres)) →
    e.recordsRounds = true →
      (3 ≤ node.tier → vres.acceptedPrefixLen = proposal.tokens.length) ∧
        Words.Aligned isSpace ' ' vres.acceptedPrefixLen.toNat
          (proposal.tokens.take vres.acceptedPrefixLen.toNat).flatten
          (proposal.tokens.drop vres.acceptedPrefixLen.toNat).flatten

theorem spells_iff {k : Nat} (hSpelled : Spelled proposal vres)
    (hText : isBlank proposal.text = false) (hk : 0 < k) :
    unwords ((split proposal.text).take k) = (proposal.tokens.take k).flatten ↔
      Words.Aligned isSpace ' ' k (proposal.tokens.take k).flatten
        (proposal.tokens.drop k).flatten := by
  have hJoin : proposal.text =
      (proposal.tokens.take k).flatten ++ (proposal.tokens.drop k).flatten := by
    rw [hSpelled.text, ← List.flatten_append, List.take_append_drop]
  have hSplit := split_ne_nil hText
  rw [hJoin] at hSplit ⊢
  exact Words.join_take_split_iff isSpace_blank hk hSplit

/-- **One round.** -/
theorem commitsVerified_iff (hFresh : Fresh s) :
    CommitsVerified e t graph input s ↔ CountsWords e t graph input s := by
  refine forall₃_congr fun node proposal vres => ?_
  refine imp_congr_right fun hVerifies => imp_congr_right fun hSpelled =>
    imp_congr_right fun hAccepts => ?_
  by_cases hRecords : e.recordsRounds = true
  · obtain ⟨s₁, m, hState, hm, hPos, hCommitted, hGenerated⟩ :=
      round_accepts hRecords hFresh hVerifies hSpelled hAccepts
    have hEmpty : s.committed = [] := hFresh hVerifies.speculative
    have hLe := hSpelled.le
    constructor
    · intro hCommits _
      obtain ⟨j, hj, hText, hCount⟩ := hCommits s₁ hState
      -- the count that is added leaves one `j`
      obtain rfl : j = m := by omega
      have hTerminal : 3 ≤ node.tier → vres.acceptedPrefixLen = proposal.tokens.length := by
        intro hTier
        rw [if_pos hTier] at hm
        omega
      have hk : vres.acceptedPrefixLen.toNat = j := by
        split at hm
        · next hTier =>
          have := hTerminal hTier
          omega
        · omega
      refine ⟨hTerminal, ?_⟩
      rw [hk]
      refine (spells_iff hSpelled hVerifies.text hPos).mp ?_
      rw [← hCommitted, hText, hEmpty, List.nil_append]
    · intro hCounts s' hs'
      obtain rfl : s₁ = s' := Option.some.inj (hState.symm.trans hs')
      obtain ⟨hTerminal, hAligned⟩ := hCounts hRecords
      have hk : vres.acceptedPrefixLen = m := by
        split at hm
        · next hTier => rw [hm, hTerminal hTier]
        · exact hm.symm
      refine ⟨m, hk.ge, ?_, hGenerated⟩
      have hToNat : vres.acceptedPrefixLen.toNat = m := by omega
      rw [hToNat] at hAligned
      rw [hCommitted, hEmpty, List.nil_append]
      exact (spells_iff hSpelled hVerifies.text hPos).mpr hAligned
  · -- without the method the round raises before it commits
    have hRaises : (e.round t graph input s).state? = none := by
      rw [round_of_verifies hVerifies, judge, if_neg hRecords]
      rfl
    rw [hRaises]
    exact ⟨fun _ h => absurd h hRecords, fun _ s' h => by cases h⟩

/-- The builtin engine with a method `_record_verify_round`. -/
def recording : ASCREngine Unit Unit := { builtin with recordsRounds := true }

/-- Tokens that are parts of words; the verifier accepts the first word only. -/
def splitWord : Answers Unit :=
  { round := fun _ =>
      { proposal := some
          { tokens := ["Hel".toList, "lo".toList, " wor".toList, "ld".toList]
            text := "Hello world".toList
            draftLen := 4
            metadata := () }
        verified := some
          { acceptedPrefixLen := 2, agreement := 1, qualityScore := 1, logitsAvailable := true }
        generated := { text := "hello".toList } }
    final := "hello".toList }

end ASCREngine

end Neuroswarm.Armcascade
