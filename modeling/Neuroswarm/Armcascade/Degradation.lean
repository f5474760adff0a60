import Neuroswarm.Armcascade.Engine

/-!
# ArmCascade — when the cascade answers

`run` degrades a failing speculative step to the quality path only where `propose` or
`verify` raises. After a verification it calls a method that the class does not have, and
what else may raise stands outside the two `try` blocks.

* `ASCREngine.round_isSome_iff` — when a pass of the loop does not raise.
* `ASCREngine.answers_iff` — when a run returns a text.
-/

namespace Neuroswarm.Armcascade

namespace ASCREngine

open Loop (Flow)

variable {M V : Type*} {e : ASCREngine M V} {t : CascadeTask} {graph : EscalationGraph}
  {input : RoundInput M} {s : LoopState}

-- ------ Parts of a round

theorem hop_isSome : ((hop graph s).state?).isSome := by
  unfold hop
  split <;> rfl

theorem commit_isSome (proposal : Proposal M) (vres : VerifyResult)
    (decision : AcceptanceDecision) :
    ((commit graph proposal vres decision s).state?).isSome := by
  unfold commit
  cases decision.action with
  | accept => rfl
  | partialAccept => rfl
  | increaseSpeculation => rfl
  | reduceSpeculation => rfl
  | reject | escalate =>
    dsimp only
    split
    · rfl
    · split <;> rfl

theorem judge_isSome_iff {tierId : Int} {proposal : Proposal M} {vres : VerifyResult} :
    ((e.judge t graph input tierId proposal vres s).state?).isSome ↔ e.recordsRounds = true := by
  unfold judge
  dsimp only
  split
  · next hRecords => exact ⟨fun _ => hRecords, fun _ => commit_isSome ..⟩
  · next hRecords => simp [hRecords, Flow.state?]

def StreamReturns (e : ASCREngine M V) (t : CascadeTask) (input : RoundInput M) (tierId : Int) :
    Prop :=
  3 ≤ tierId → t.stream = true → e.streams (backendForTier t tierId) = true →
    input.streamed.isSome

theorem qualityRound_isSome_iff {tierId : Int} :
    ((e.qualityRound t graph input tierId s).state?).isSome ↔ e.StreamReturns t input tierId := by
  have hAnswer : (e.qualityAnswer t input tierId).isSome ↔ e.StreamReturns t input tierId := by
    unfold qualityAnswer StreamReturns
    split
    · next hStreams => simp [hStreams]
    · next hNot =>
      simp only [Option.isSome_some, true_iff]
      exact fun hTier hStream hDecode => absurd ⟨hTier, hStream, hDecode⟩ hNot
  rw [← hAnswer, qualityRound]
  cases e.qualityAnswer t input tierId with
  | none => simp [Flow.state?]
  | some result =>
    simp only [Option.isSome_some, iff_true]
    split
    · rfl
    · split <;> rfl

/-- The speculative step fails in a way that is caught, or is not reached. -/
structure SpeculationReturns (e : ASCREngine M V) (input : RoundInput M) : Prop where
  prepared : input.prepared = true
  slot : ∀ proposal, input.proposal = some proposal → e.refusesSlot proposal = false
  unverified : ∀ proposal, input.proposal = some proposal →
    isBlank proposal.text = true ∨ input.verified = none ∨ e.recordsRounds = true

theorem speculativeRound_isSome_iff {tierId : Int} :
    ((e.speculativeRound t graph input tierId s).state?).isSome ↔ e.SpeculationReturns input := by
  unfold speculativeRound
  by_cases hPrepared : input.prepared = false
  · rw [if_pos hPrepared]
    simp only [Flow.state?, Option.isSome_none, Bool.false_eq_true, false_iff]
    intro h
    rw [h.prepared] at hPrepared
    cases hPrepared
  rw [if_neg hPrepared]
  have hPrepared' : input.prepared = true := by simpa using hPrepared
  cases hProposal : input.proposal with
  | none =>
    simp only [Flow.state?, Option.isSome_some, true_iff]
    exact ⟨hPrepared', by simp [hProposal], by simp [hProposal]⟩
  | some proposal =>
    dsimp only
    have hThis : ∀ p, input.proposal = some p → p = proposal := fun p h =>
      (Option.some.inj (hProposal.symm.trans h)).symm
    by_cases hSlot : e.refusesSlot proposal = true
    · rw [if_pos hSlot]
      simp only [Flow.state?, Option.isSome_none, Bool.false_eq_true, false_iff]
      intro h
      rw [h.slot proposal hProposal] at hSlot
      cases hSlot
    rw [if_neg hSlot]
    -- what is left is whether the draft gets to a verification
    have hIff : e.SpeculationReturns input ↔
        isBlank proposal.text = true ∨ input.verified = none ∨ e.recordsRounds = true := by
      refine ⟨fun h => h.unverified proposal hProposal, fun h => ⟨hPrepared', ?_, ?_⟩⟩
      · intro p hp
        rw [hThis p hp]
        simpa using hSlot
      · intro p hp
        rw [hThis p hp]
        exact h
    rw [hIff]
    by_cases hBlank : isBlank proposal.text = true
    · rw [if_pos hBlank]
      simp [Flow.state?, hBlank]
    rw [if_neg hBlank]
    cases input.verified with
    | none => simp [Flow.state?]
    | some vres => simp [judge_isSome_iff, hBlank]

-- ------ A round

/-- The pass works at a tier node. -/
structure AtTier (t : CascadeTask) (graph : EscalationGraph) (s : LoopState)
    (node : EscalationNode) : Prop where
  unfinished : s.generatedTokens < max 1 t.maxTokens
  here : graph.nodes.get? s.escState.current = some node
  kind : node.kind ≠ "accept" ∧ node.kind ≠ "tool" ∧ node.kind ≠ "memory"

def InQuality (s : LoopState) : Prop := s.useQuality = true ∨ s.mode = .qualityCascade

theorem AtTier.round {node : EscalationNode} (h : AtTier t graph s node) :
    e.round t graph input s =
      if s.useQuality = true ∨ s.mode = .qualityCascade then
        e.qualityRound t graph input node.tier
          { s with rounds := s.rounds + 1, tierUsed := node.tier }
      else
        e.speculativeRound t graph input node.tier
          { s with rounds := s.rounds + 1, tierUsed := node.tier } := by
  obtain ⟨hUnfinished, hNode, hAccept, hTool, hMemory⟩ := h
  rw [ASCREngine.round, if_neg (not_le.mpr hUnfinished)]
  simp only [hNode]
  rw [if_neg hAccept, if_neg (not_or.mpr ⟨hTool, hMemory⟩)]

theorem round_quality {node : EscalationNode} (h : AtTier t graph s node) (hQuality : InQuality s) :
    e.round t graph input s =
      e.qualityRound t graph input node.tier
        { s with rounds := s.rounds + 1, tierUsed := node.tier } :=
  h.round.trans (if_pos hQuality)

theorem round_speculative {node : EscalationNode} (h : AtTier t graph s node)
    (hQuality : ¬ InQuality s) :
    e.round t graph input s =
      e.speculativeRound t graph input node.tier
        { s with rounds := s.rounds + 1, tierUsed := node.tier } :=
  h.round.trans (if_neg hQuality)

theorem round_elsewhere (h : ∀ node, ¬ AtTier t graph s node) :
    (∃ rounds, e.round t graph input s = .stop { s with rounds }) ∨
      e.round t graph input s = hop graph { s with rounds := s.rounds + 1 } := by
  unfold round
  split
  · exact .inl ⟨s.rounds, rfl⟩
  · next hUnfinished =>
    dsimp only
    cases hNode : graph.nodes.get? s.escState.current with
    | none => exact .inl ⟨s.rounds + 1, rfl⟩
    | some node =>
      dsimp only
      by_cases hAccept : node.kind = "accept"
      · rw [if_pos hAccept]
        exact .inl ⟨s.rounds + 1, rfl⟩
      · rw [if_neg hAccept]
        by_cases hHop : node.kind = "tool" ∨ node.kind = "memory"
        · rw [if_pos hHop]
          exact .inr rfl
        · have hKind := not_or.mp hHop
          exact absurd ⟨not_le.mp hUnfinished, hNode, hAccept, hKind.1, hKind.2⟩ (h node)

/-- What must not happen in the pass that begins in a state. -/
def RoundReturns (e : ASCREngine M V) (t : CascadeTask) (graph : EscalationGraph)
    (input : RoundInput M) (s : LoopState) : Prop :=
  ∀ node, AtTier t graph s node →
    (InQuality s → e.StreamReturns t input node.tier) ∧
    (¬ InQuality s → e.SpeculationReturns input)

/-- **A pass does not raise** iff nothing that is not caught goes wrong in it. -/
theorem round_isSome_iff :
    ((e.round t graph input s).state?).isSome ↔ e.RoundReturns t graph input s := by
  by_cases hAt : ∃ node, AtTier t graph s node
  · obtain ⟨node, hNode⟩ := hAt
    have hOnly : ∀ node', AtTier t graph s node' → node' = node := fun node' h =>
      Option.some.inj (h.here.symm.trans hNode.here)
    by_cases hQuality : InQuality s
    · rw [round_quality hNode hQuality, qualityRound_isSome_iff]
      constructor
      · intro h node' hNode'
        rw [hOnly node' hNode']
        exact ⟨fun _ => h, fun hNot => absurd hQuality hNot⟩
      · intro h
        exact (h node hNode).1 hQuality
    · rw [round_speculative hNode hQuality, speculativeRound_isSome_iff]
      constructor
      · intro h node' _
        exact ⟨fun hYes => absurd hYes hQuality, fun _ => h⟩
      · intro h
        exact (h node hNode).2 hQuality
  · have hNone : ∀ node, ¬ AtTier t graph s node := not_exists.mp hAt
    have hReturns : e.RoundReturns t graph input s := fun node h => absurd h (hNone node)
    obtain ⟨rounds, hStop⟩ | hHop : (∃ rounds, e.round t graph input s = .stop { s with rounds }) ∨
        e.round t graph input s = hop graph { s with rounds := s.rounds + 1 } :=
      round_elsewhere hNone
    · rw [hStop]
      exact ⟨fun _ => hReturns, fun _ => rfl⟩
    · rw [hHop]
      exact ⟨fun _ => hReturns, fun _ => hop_isSome⟩

-- ------ The whole request

variable {answers : Answers M}

theorem finish_text {result : GenerateResult} (h : finish t graph answers s = .ok result) :
    result.text = if s.committed = [] then answers.final else s.committed := by
  unfold finish at h
  dsimp only at h
  cases hStart : startTierNumber (resolveCascadeStartNode graph t.plan.cascadeStartTier) with
  | none =>
    rw [hStart] at h
    cases h
  | some n =>
    rw [hStart] at h
    cases h
    split <;> rfl

theorem finish_isOk_iff :
    (∃ result, finish t graph answers s = .ok result) ↔
      (startTierNumber (resolveCascadeStartNode graph t.plan.cascadeStartTier)).isSome := by
  unfold finish
  dsimp only
  cases startTierNumber (resolveCascadeStartNode graph t.plan.cascadeStartTier) with
  | none => simp
  | some n => simp

variable (e t answers) in
/-- What must not happen in a run. -/
structure RunReturns (graph : EscalationGraph) : Prop where
  chosen : e.graph? t = some graph
  bound : answers.bound = true
  startNode : (startTierNumber (resolveCascadeStartNode graph t.plan.cascadeStartTier)).isSome
  rounds : Loop.Every (e.passes t graph answers)
    (fun s => e.RoundReturns t graph (answers.round s.rounds) s) t.maxRounds (start t graph)

theorem run_text_ne_nil (hFinal : answers.final ≠ []) {result : GenerateResult}
    (h : e.run t answers = .ok result) : result.text ≠ [] := by
  unfold run at h
  split at h
  · cases h
  · split at h
    · split at h
      · cases h
      · rw [finish_text h]
        split
        · exact hFinal
        · assumption
    · cases h

theorem loop_isOk_iff :
    (∃ s, Loop.exec (e.passes t graph answers) t.maxRounds (start t graph) = .ok s) ↔
      Loop.Every (e.passes t graph answers)
        (fun s => e.RoundReturns t graph (answers.round s.rounds) s) t.maxRounds
        (start t graph) := by
  rw [Loop.isOk_exec_iff]
  exact Loop.every_congr (I := fun _ => True) (fun _ _ _ _ => trivial)
    (fun s _ => round_isSome_iff) trivial

theorem run_isOk_iff :
    (∃ result, e.run t answers = .ok result) ↔ ∃ graph, e.RunReturns t answers graph := by
  constructor
  · rintro ⟨result, hRun⟩
    unfold run at hRun
    cases hGraph : e.graph? t with
    | none =>
      rw [hGraph] at hRun
      cases hRun
    | some graph =>
      rw [hGraph] at hRun
      dsimp only at hRun
      split at hRun
      · next hBound =>
        split at hRun
        · cases hRun
        · next s hExec =>
          exact ⟨graph, hGraph, hBound, finish_isOk_iff.mp ⟨result, hRun⟩,
            loop_isOk_iff.mp ⟨s, hExec⟩⟩
      · cases hRun
  · rintro ⟨graph, hReturns⟩
    obtain ⟨s, hExec⟩ := loop_isOk_iff.mpr hReturns.rounds
    obtain ⟨result, hFinish⟩ : ∃ result, finish t graph answers s = .ok result :=
      finish_isOk_iff.mpr hReturns.startNode
    refine ⟨result, ?_⟩
    rw [run, hReturns.chosen]
    dsimp only
    rw [if_pos hReturns.bound, hExec]
    exact hFinish

/-- **A run answers with a text** iff there is a graph, proposer and verifier can be set up,
the number in the name of the start node is one for `int` and `float`, and in every round that
it comes to nothing goes wrong that is not caught. -/
theorem answers_iff (hFinal : answers.final ≠ []) :
    (∃ result, e.run t answers = .ok result ∧ result.text ≠ []) ↔
      ∃ graph, e.RunReturns t answers graph := by
  rw [← run_isOk_iff]
  constructor
  · rintro ⟨result, hRun, -⟩
    exact ⟨result, hRun⟩
  · rintro ⟨result, hRun⟩
    exact ⟨result, hRun, run_text_ne_nil hFinal hRun⟩

def builtin : ASCREngine Unit Unit :=
  { graphs := Dict.empty.set "default_linear" builtinLinearGraph
    textQualityScore := fun _ => 1
    slotId := fun _ => none
    toInt := fun _ => none }

def verifiedDraft : Answers Unit :=
  { round := fun _ =>
      { proposal := some (Proposal.fromText "hi".toList "draft_model" 1 (7 / 10) ())
        verified := some { acceptedPrefixLen := 1, agreement := 1, logitsAvailable := true }
        generated := { text := "hello".toList } }
    final := "hello".toList }

theorem answers_iff_verifiedDraft :
    (∃ result, builtin.run {} verifiedDraft = .ok result ∧ result.text ≠ []) ↔
      ∃ graph, builtin.RunReturns {} verifiedDraft graph :=
  answers_iff (by decide)

/-- A draft that is verified makes the run raise. -/
theorem not_answers_verifiedDraft :
    ¬ ∃ result, builtin.run {} verifiedDraft = .ok result ∧ result.text ≠ [] := by
  rintro ⟨result, hRun, -⟩
  have hRaises : builtin.run {} verifiedDraft = .error .recordVerifyRound := by rfl
  rw [hRaises] at hRun
  cases hRun

end ASCREngine

end Neuroswarm.Armcascade
