import Mathlib.Algebra.BigOperators.Group.Finset.Basic
import Mathlib.Algebra.Order.BigOperators.Group.Finset
import Neuroswarm.Lib.Run
import Neuroswarm.Rtg.Control

/-!
# Reasoning token governor — a bound on the tokens

Sessions are admitted, stream their chunks and complete, in any order. A session's
tokens count until it receives a terminal decision; with all of them the governor
should stay within the initial budgets plus one chunk for each session
(`Bounded`), as no `DECREASE_BUDGET` and no rebalancing adds tokens and an
exhausted session is stopped (`Sound`).

Calls can break this in two ways. A change of a budget is clamped to its minimum, so
it adds tokens where less than the minimum is left; memory pressure asks for such a
change before the rule for an exhausted budget has its turn. And a rebalancing
raises every share to the minimum, whatever the pool holds.

`bounded_of_calm`: a run without such calls keeps the bound. What carries it is that
the tokens left never exceed what the accounts still allow (`Inv`).
-/

theorem Dict.sum_values {K V M : Type*} [DecidableEq K] [AddCommMonoid M] (d : Dict K V)
    (f : V → M) : (d.values.map f).sum = ∑ k ∈ d.keys.toFinset, (d.get? k).elim 0 f := by
  have hNodup : d.keys.Nodup := d.nodup
  rw [List.sum_toFinset _ hNodup, Dict.values, Dict.keys, List.map_map, List.map_map]
  congr 1
  refine List.map_congr_left fun e he => ?_
  have hGet : d.get? e.1 = some e.2 := Dict.mem_entries_iff.mp he
  simp [hGet]

namespace Neuroswarm.Rtg

open Run Finset

/-- What a session was given, the tokens it has consumed before any terminal decision, and the
last chunk of these. -/
structure Account where
  initial : ℤ := 0
  counted : ℤ := 0
  chunk : ℤ := 0

def Account.slack (a : Account) : ℤ := a.initial + a.chunk - a.counted

def Account.add (a b : Account) : Account :=
  { initial := a.initial + b.initial
    counted := a.counted + b.counted
    chunk := a.chunk + b.chunk }

structure Governor where
  sessions : Dict String SessionState
  account : String → Account
  past : Account

inductive Call where
  | onAdmit (sid : String) (frame : TelemetryFrame)
  | onChunk (sid : String) (chunk : Chunk)
  | onComplete (sid : String)

namespace Governor

def start : Governor := { sessions := Dict.empty, account := fun _ => {}, past := {} }

def known (g : Governor) : Finset String := g.sessions.keys.toFinset

def pastWith (g : Governor) (sid : String) : Account :=
  if g.sessions.contains sid then g.past.add (g.account sid) else g.past

variable (cfg : RTGRuntimeConfig)

def admitSession (g : Governor) (sid : String) (frame : TelemetryFrame) : Governor :=
  { sessions := onAdmit cfg g.sessions sid frame
    account := Function.update g.account sid
      { initial := (initialBudget cfg frame).initialTokens }
    past := g.pastWith sid }

def ensure (g : Governor) (sid : String) (chunk : Chunk) : String × Governor :=
  if g.sessions.contains sid then (sid, g)
  else (chunk.admitSid, g.admitSession cfg chunk.admitSid chunk.admitFrame)

def charge (a : Account) (state : SessionState) (chunk : Chunk) : Account :=
  if state.phase = .finalize then a
  else { a with counted := a.counted + max 0 chunk.tokens, chunk := max 0 chunk.tokens }

def chunkOn (g : Governor) (sid : String) (chunk : Chunk) : Governor :=
  match g.sessions.get? sid with
  | none => g
  | some state =>
    { g with
      sessions :=
        g.sessions.set sid (decideChunk cfg (consumeChunk cfg state chunk) chunk.threshold).2
      account := Function.update g.account sid (charge (g.account sid) state chunk) }

def step (g : Governor) : Call → Governor
  | .onAdmit sid frame => g.admitSession cfg sid frame
  | .onChunk sid chunk =>
    let (sid, g) := g.ensure cfg sid chunk
    g.chunkOn cfg sid chunk
  | .onComplete sid =>
    { g with sessions := onComplete g.sessions sid, past := g.pastWith sid }

-- ------ The property and its condition

/-- The tokens consumed before a terminal decision stay within the initial budgets and one chunk
for each session. -/
def Bounded (g : Governor) : Prop :=
  g.past.counted + ∑ sid ∈ g.known, (g.account sid).counted ≤
    g.past.initial + ∑ sid ∈ g.known, (g.account sid).initial +
      (g.past.chunk + ∑ sid ∈ g.known, (g.account sid).chunk)

def admitted (g : Governor) (sid : String) (frame : TelemetryFrame) : Dict String SessionState :=
  g.sessions.set sid { phase := .streaming, budget := initialBudget cfg frame, frame }

def AdmitSound (g : Governor) (sid : String) (frame : TelemetryFrame) : Prop :=
  totalLeft (onAdmit cfg g.sessions sid frame) ≤ totalLeft (g.admitted cfg sid frame)

/-- A `DECREASE_BUDGET` adds no tokens, and an exhausted session has been stopped. -/
def ChunkSound (g : Governor) (sid : String) (chunk : Chunk) : Prop :=
  ∀ state, g.sessions.get? sid = some state →
    let before := consumeChunk cfg state chunk
    let (decision, after) := decideChunk cfg before chunk.threshold
    (decision.action = .decreaseBudget → after.budget.left ≤ before.budget.left) ∧
    (before.budget.remainingTokens ≤ 0 → after.phase = .finalize)

def Sound (g : Governor) : Call → Prop
  | .onAdmit sid frame => g.AdmitSound cfg sid frame
  | .onChunk sid chunk =>
    (g.sessions.contains sid = false → g.AdmitSound cfg chunk.admitSid chunk.admitFrame) ∧
    (g.ensure cfg sid chunk).2.ChunkSound cfg (g.ensure cfg sid chunk).1 chunk
  | .onComplete _ => True

end Governor

/-- Sessions share tokens. -/
def RTGRuntimeConfig.shares (cfg : RTGRuntimeConfig) : Bool := cfg.swarm && cfg.swarmEnabled

namespace Governor

variable (cfg : RTGRuntimeConfig)

/-- An admission gives a budget that is not negative, and rebalancing leaves no more tokens than
it finds. -/
def AdmitCalm (g : Governor) (sid : String) (frame : TelemetryFrame) : Prop :=
  0 ≤ (initialBudget cfg frame).initialTokens ∧
    (cfg.shares = true →
      totalLeft (rebalance cfg (g.admitted cfg sid frame)) ≤ totalLeft (g.admitted cfg sid frame))

/-- With nothing left the policies stop the session, if it was not stopped before; and they change
its budget only with at least the minimum left, or to end it where sessions share nothing. -/
def ChunkCalm (g : Governor) (sid : String) (chunk : Chunk) : Prop :=
  ∀ state, g.sessions.get? sid = some state →
    let before := consumeChunk cfg state chunk
    let decision := policyDecide cfg chunk.threshold before.frame before
    (before.budget.remainingTokens ≤ 0 → decision.terminal ∨ state.phase = .finalize) ∧
    (decision.Rebudgets → before.budget.minTokens ≤ before.budget.left ∨
      cfg.shares = false ∧ decision.terminal)

def Calm (g : Governor) : Call → Prop
  | .onAdmit sid frame => g.AdmitCalm cfg sid frame
  | .onChunk sid chunk =>
    (g.sessions.contains sid = false → g.AdmitCalm cfg chunk.admitSid chunk.admitFrame) ∧
    (g.ensure cfg sid chunk).2.ChunkCalm cfg (g.ensure cfg sid chunk).1 chunk
  | .onComplete _ => True

-- ------ The invariant

variable {cfg}

/-- What a session may still consume before a terminal decision, and the chunk that its account
keeps free until then. The tokens of a finished session count only where they can be shared. -/
def hold (cfg : RTGRuntimeConfig) (state : SessionState) (a : Account) : ℤ :=
  if state.phase = .finalize then
    if cfg.shares then state.budget.left else 0
  else
    state.budget.left + a.chunk

/-- By how much a session could exceed its account. -/
def debt (cfg : RTGRuntimeConfig) (g : Governor) (sid : String) : ℤ :=
  (g.sessions.get? sid).elim 0 fun state => hold cfg state (g.account sid) - (g.account sid).slack

/-- What the sessions may still consume is covered by the accounts. -/
structure Inv (cfg : RTGRuntimeConfig) (g : Governor) : Prop where
  covered : ∑ sid ∈ g.known, debt cfg g sid ≤ g.past.slack
  chunk_nonneg : ∀ sid, 0 ≤ (g.account sid).chunk

variable {g : Governor} {sid : String}

theorem mem_known :
    sid ∈ g.known ↔ (g.sessions.get? sid).isSome := by
  rw [known, List.mem_toFinset, Dict.mem_keys_iff]

theorem hold_nonneg (cfg : RTGRuntimeConfig) (state : SessionState) {a : Account}
    (h : 0 ≤ a.chunk) : 0 ≤ hold cfg state a := by
  have := left_nonneg state.budget
  unfold hold
  split
  · split
    · exact this
    · exact le_refl 0
  · omega

theorem debt_of_some {state : SessionState} (h : g.sessions.get? sid = some state) :
    debt cfg g sid = hold cfg state (g.account sid) - (g.account sid).slack := by
  rw [debt, h]
  rfl

theorem Inv.bounded (h : Inv cfg g) : g.Bounded := by
  have hEach : ∑ sid ∈ g.known, -(g.account sid).slack ≤ ∑ sid ∈ g.known, debt cfg g sid := by
    refine sum_le_sum fun sid hSid => ?_
    obtain ⟨state, hState⟩ := Option.isSome_iff_exists.mp (mem_known.mp hSid)
    rw [debt_of_some hState]
    have := hold_nonneg cfg state (h.chunk_nonneg sid)
    omega
  have hCovered := h.covered
  unfold Bounded
  unfold Account.slack at hEach hCovered
  simp only [sum_neg_distrib, sum_sub_distrib, sum_add_distrib] at hEach
  omega

-- ------ Completions and admissions

theorem Inv.covered_erase (h : Inv cfg g) (sid : String) :
    ∑ k ∈ g.known.erase sid, debt cfg g k ≤ (g.pastWith sid).slack := by
  have hCovered := h.covered
  by_cases hSid : sid ∈ g.known
  · have hContains : g.sessions.contains sid = true := mem_known.mp hSid
    obtain ⟨state, hState⟩ := Option.isSome_iff_exists.mp (mem_known.mp hSid)
    rw [← add_sum_erase g.known (debt cfg g) hSid, debt_of_some hState] at hCovered
    have := hold_nonneg cfg state (h.chunk_nonneg sid)
    rw [pastWith, if_pos hContains]
    unfold Account.slack at *
    simp only [Account.add]
    omega
  · have hContains : g.sessions.contains sid = false := by
      have := mem_known.not.mp hSid
      simpa [Dict.contains] using this
    rw [erase_eq_of_notMem hSid, pastWith, hContains]
    exact hCovered

theorem Inv.complete (h : Inv cfg g) (sid : String) :
    Inv cfg (g.step cfg (.onComplete sid)) := by
  refine ⟨?_, h.chunk_nonneg⟩
  have hKnown : (g.step cfg (.onComplete sid)).known = g.known.erase sid := by
    ext k
    have hSessions : (g.step cfg (.onComplete sid)).sessions = g.sessions.erase sid := rfl
    rw [mem_erase, mem_known, mem_known, hSessions, Dict.get?_erase]
    by_cases hk : k = sid
    · simp [hk]
    · simp [hk]
  rw [hKnown]
  refine le_trans (le_of_eq (sum_congr rfl fun k hk => ?_)) (h.covered_erase sid)
  have hne : k ≠ sid := (mem_erase.mp hk).1
  simp only [debt, step, onComplete]
  rw [Dict.get?_erase_ne _ hne]

def beforeRebalance (cfg : RTGRuntimeConfig) (g : Governor) (sid : String)
    (frame : TelemetryFrame) : Governor :=
  { g.admitSession cfg sid frame with sessions := g.admitted cfg sid frame }

theorem Inv.beforeRebalance (h : Inv cfg g) {frame : TelemetryFrame}
    (hInitial : 0 ≤ (initialBudget cfg frame).initialTokens) :
    Inv cfg (g.beforeRebalance cfg sid frame) := by
  have hKnown : (g.beforeRebalance cfg sid frame).known = insert sid g.known := by
    ext k
    rw [mem_insert, mem_known, mem_known, Governor.beforeRebalance, admitted, Dict.get?_set]
    by_cases hk : k = sid
    · simp [hk]
    · simp [hk]
  refine ⟨?_, fun k => ?_⟩
  · rw [hKnown, ← add_sum_erase _ _ (mem_insert_self sid g.known), erase_insert_eq_erase]
    have hNew : debt cfg (g.beforeRebalance cfg sid frame) sid = 0 := by
      rw [debt_of_some (Dict.get?_set_self _ _ _)]
      simp only [Governor.beforeRebalance, admitSession, Function.update_self, hold, Account.slack,
        BudgetEnvelope.left, initialBudget, reduceCtorEq, if_false]
      simp only [initialBudget] at hInitial
      omega
    have hOthers : ∑ k ∈ g.known.erase sid, debt cfg (g.beforeRebalance cfg sid frame) k =
        ∑ k ∈ g.known.erase sid, debt cfg g k := by
      refine sum_congr rfl fun k hk => ?_
      have hne : k ≠ sid := (mem_erase.mp hk).1
      simp only [debt, Governor.beforeRebalance, admitSession, admitted]
      rw [Dict.get?_set_ne _ _ hne, Function.update_of_ne hne]
    rw [hNew, hOthers, zero_add]
    exact h.covered_erase sid
  · show 0 ≤ (Function.update g.account sid
      ({ initial := (initialBudget cfg frame).initialTokens } : Account) k).chunk
    by_cases hk : k = sid
    · rw [hk, Function.update_self]
    · rw [Function.update_of_ne hk]
      exact h.chunk_nonneg k

theorem Inv.rebalance (h : Inv cfg g) (hShares : cfg.shares = true)
    (hLeft : totalLeft (rebalance cfg g.sessions) ≤ totalLeft g.sessions) :
    Inv cfg { g with sessions := Rtg.rebalance cfg g.sessions } := by
  by_cases hOff : !cfg.swarmEnabled ∨ g.sessions.size < 2
  · have hSame : Rtg.rebalance cfg g.sessions = g.sessions := if_pos hOff
    rw [hSame]
    exact h
  have hOn : Rtg.rebalance cfg g.sessions = g.sessions.mapValues fun _ st =>
      { st with budget := reallot st.budget (share cfg g.sessions st) } := if_neg hOff
  rw [hOn] at hLeft ⊢
  refine ⟨?_, h.chunk_nonneg⟩
  set sessions := g.sessions.mapValues fun _ st =>
    { st with budget := reallot st.budget (share cfg g.sessions st) } with hSessions
  have hKeys : sessions.keys = g.sessions.keys := by
    rw [hSessions, Dict.keys, Dict.mapValues, List.map_map]
    rfl
  -- a session's debt changes with what is left to it
  let left := fun (d : Dict String SessionState) sid => (d.get? sid).elim 0 fun st => st.budget.left
  have hDebt : ∀ sid, debt cfg { g with sessions } sid =
      debt cfg g sid + (left sessions sid - left g.sessions sid) := by
    intro sid
    simp only [debt, left, hSessions, Dict.get?_mapValues]
    cases g.sessions.get? sid with
    | none => rfl
    | some state =>
      simp only [Option.map_some, Option.elim_some, hold, hShares, if_true]
      split
      · omega
      · omega
  have hTotal : ∀ d : Dict String SessionState,
      totalLeft d = ∑ sid ∈ d.keys.toFinset, left d sid := fun d => Dict.sum_values d _
  have hKnown : known { g with sessions } = g.known := by
    rw [known, known, hKeys]
  have hCovered := h.covered
  rw [hTotal, hTotal, hKeys] at hLeft
  rw [hKnown, sum_congr rfl fun sid _ => hDebt sid, sum_add_distrib, sum_sub_distrib]
  unfold known at *
  show _ ≤ g.past.slack
  omega

theorem rebalance_of_not_shares (h : cfg.shares = false) (sessions : Dict String SessionState) :
    (if cfg.swarm then Rtg.rebalance cfg sessions else sessions) = sessions := by
  split
  · next hSwarm =>
    have hOff : cfg.swarmEnabled = false := by
      simpa [RTGRuntimeConfig.shares, hSwarm] using h
    exact if_pos (.inl (by simp [hOff]))
  · rfl

theorem onAdmit_eq (cfg : RTGRuntimeConfig) (g : Governor) (sid : String) (frame : TelemetryFrame) :
    onAdmit cfg g.sessions sid frame =
      if cfg.shares then Rtg.rebalance cfg (g.admitted cfg sid frame)
      else g.admitted cfg sid frame := by
  cases hShares : cfg.shares with
  | false => exact rebalance_of_not_shares hShares _
  | true =>
    have hSwarm : cfg.swarm = true := by
      unfold RTGRuntimeConfig.shares at hShares
      rw [Bool.and_eq_true] at hShares
      exact hShares.1
    rw [onAdmit, if_pos hSwarm, if_pos rfl]
    rfl

theorem Inv.admitSession (h : Inv cfg g) {frame : TelemetryFrame}
    (hCalm : g.AdmitCalm cfg sid frame) : Inv cfg (g.admitSession cfg sid frame) := by
  have hBefore : Inv cfg (g.beforeRebalance cfg sid frame) := h.beforeRebalance hCalm.1
  have hEq := onAdmit_eq cfg g sid frame
  have hAdmit : g.admitSession cfg sid frame =
      { g.beforeRebalance cfg sid frame with sessions := onAdmit cfg g.sessions sid frame } := rfl
  rw [hAdmit, hEq]
  cases hShares : cfg.shares with
  | false => exact hBefore
  | true => exact hBefore.rebalance hShares (hCalm.2 hShares)

theorem AdmitCalm.sound {frame : TelemetryFrame} (hCalm : g.AdmitCalm cfg sid frame) :
    g.AdmitSound cfg sid frame := by
  unfold AdmitSound
  rw [onAdmit_eq]
  cases hShares : cfg.shares with
  | false => exact le_refl _
  | true => exact hCalm.2 hShares

-- ------ Chunks

section

variable {state : SessionState} {chunk : Chunk}

theorem left_consumeChunk (cfg : RTGRuntimeConfig) (state : SessionState) (chunk : Chunk) :
    (consumeChunk cfg state chunk).budget.left ≤ state.budget.left ∧
    (0 < (consumeChunk cfg state chunk).budget.remainingTokens →
      (consumeChunk cfg state chunk).budget.left + max 0 chunk.tokens ≤ state.budget.left) := by
  simp only [consumeChunk, BudgetEnvelope.consume, BudgetEnvelope.left]
  omega

theorem left_decideChunk (threshold : ℚ)
    (hMin : (policyDecide cfg threshold state.frame state).Rebudgets →
      state.budget.minTokens ≤ state.budget.left) :
    (decideChunk cfg state threshold).2.budget.left ≤ state.budget.left :=
  left_applyDecision_le (policyDecide_lowers threshold state.frame state) hMin

/-- A calm chunk takes from its account at least what it takes from its session. -/
theorem hold_chunk {a : Account}
    (hStop : (consumeChunk cfg state chunk).budget.remainingTokens ≤ 0 →
      (decideChunk cfg (consumeChunk cfg state chunk) chunk.threshold).1.terminal ∨
        state.phase = .finalize)
    (hMin : (decideChunk cfg (consumeChunk cfg state chunk) chunk.threshold).1.Rebudgets →
      (consumeChunk cfg state chunk).budget.minTokens ≤ (consumeChunk cfg state chunk).budget.left ∨
        cfg.shares = false ∧
          (decideChunk cfg (consumeChunk cfg state chunk) chunk.threshold).1.terminal) :
    hold cfg (decideChunk cfg (consumeChunk cfg state chunk) chunk.threshold).2
        (charge a state chunk) - (charge a state chunk).slack ≤ hold cfg state a - a.slack := by
  obtain ⟨hLeft, hMore⟩ := left_consumeChunk cfg state chunk
  have hNonneg := left_nonneg state.budget
  have hPhase : (decideChunk cfg (consumeChunk cfg state chunk) chunk.threshold).2.phase =
      if (decideChunk cfg (consumeChunk cfg state chunk) chunk.threshold).1.terminal then .finalize
      else state.phase := rfl
  -- where tokens are shared, a change of the budget has the minimum under it
  have hShared : cfg.shares = true →
      (decideChunk cfg (consumeChunk cfg state chunk) chunk.threshold).2.budget.left ≤
        (consumeChunk cfg state chunk).budget.left := by
    intro hShares
    refine left_decideChunk chunk.threshold fun hChanges => (hMin hChanges).resolve_right ?_
    rintro ⟨hNot, -⟩
    rw [hShares] at hNot
    exact Bool.false_ne_true hNot.symm
  by_cases hFinal : state.phase = .finalize
  · -- the session was stopped before: nothing counts any more
    have hAfter : (decideChunk cfg (consumeChunk cfg state chunk) chunk.threshold).2.phase =
        .finalize := by
      rw [hPhase, hFinal, ite_self]
    simp only [hold, charge, hFinal, hAfter, if_true]
    split
    · next hShares =>
      have := hShared hShares
      omega
    · exact le_refl _
  cases hTerminal : (decideChunk cfg (consumeChunk cfg state chunk) chunk.threshold).1.terminal with
  | true =>
    -- the last chunk that counts: the account gives it free
    rw [hTerminal, if_pos rfl] at hPhase
    simp only [hold, charge, hPhase, if_neg hFinal, if_true, Account.slack]
    split
    · next hShares =>
      have := hShared hShares
      omega
    · omega
  | false =>
    rw [hTerminal] at hPhase
    have hAfter : (decideChunk cfg (consumeChunk cfg state chunk) chunk.threshold).2.phase ≠
        .finalize := by
      rw [hPhase]
      exact hFinal
    -- the session goes on, so something is left and the chunk came out of the budget
    have hPos : 0 < (consumeChunk cfg state chunk).budget.remainingTokens := by
      by_contra hZero
      rcases hStop (not_lt.mp hZero) with h | h
      · rw [hTerminal] at h
        exact Bool.false_ne_true h
      · exact hFinal h
    have hKeeps : (decideChunk cfg (consumeChunk cfg state chunk) chunk.threshold).2.budget.left ≤
        (consumeChunk cfg state chunk).budget.left := by
      refine left_decideChunk chunk.threshold fun hChanges => (hMin hChanges).resolve_right ?_
      rintro ⟨-, h⟩
      rw [hTerminal] at h
      exact Bool.false_ne_true h
    have := hMore hPos
    simp only [hold, charge, if_neg hAfter, if_neg hFinal, Account.slack]
    omega

end

theorem Inv.chunkOn (h : Inv cfg g) {chunk : Chunk} (hCalm : g.ChunkCalm cfg sid chunk) :
    Inv cfg (g.chunkOn cfg sid chunk) := by
  unfold Governor.chunkOn
  cases hState : g.sessions.get? sid with
  | none => exact h
  | some state =>
    obtain ⟨hStop, hMin⟩ := hCalm state hState
    dsimp only
    set after := (decideChunk cfg (consumeChunk cfg state chunk) chunk.threshold).2 with hAfter
    set g' : Governor := { g with
      sessions := g.sessions.set sid after
      account := Function.update g.account sid (charge (g.account sid) state chunk) } with hg'
    have hKnown : g'.known = g.known := by
      ext k
      rw [mem_known, mem_known, hg', Dict.get?_set]
      by_cases hk : k = sid
      · simp [hk, hState]
      · simp [hk]
    refine ⟨?_, fun k => ?_⟩
    · rw [hKnown]
      refine le_trans (sum_le_sum fun k _ => ?_) h.covered
      by_cases hk : k = sid
      · subst hk
        have hNew : g'.sessions.get? k = some after := Dict.get?_set_self _ _ _
        rw [debt_of_some hNew, debt_of_some hState]
        simp only [hg', Function.update_self]
        exact hold_chunk hStop hMin
      · simp only [debt, hg']
        rw [Dict.get?_set_ne _ _ hk, Function.update_of_ne hk]
    · show 0 ≤ (Function.update g.account sid (charge (g.account sid) state chunk) k).chunk
      by_cases hk : k = sid
      · rw [hk, Function.update_self]
        unfold charge
        split
        · exact h.chunk_nonneg sid
        · exact le_max_left _ _
      · rw [Function.update_of_ne hk]
        exact h.chunk_nonneg k

theorem ChunkCalm.sound {chunk : Chunk} (hCalm : g.ChunkCalm cfg sid chunk) :
    g.ChunkSound cfg sid chunk := by
  intro state hState
  obtain ⟨hStop, hMin⟩ := hCalm state hState
  refine ⟨fun hAction => ?_, fun hZero => ?_⟩
  · refine left_decideChunk chunk.threshold fun hChanges => (hMin hChanges).resolve_right ?_
    -- a decrease is not terminal
    rintro ⟨-, hTerminal⟩
    have hAction' : (policyDecide cfg chunk.threshold (consumeChunk cfg state chunk).frame
      (consumeChunk cfg state chunk)).action = .decreaseBudget := hAction
    simp [Decision.terminal, hAction'] at hTerminal
  · show (if (policyDecide cfg chunk.threshold (consumeChunk cfg state chunk).frame
      (consumeChunk cfg state chunk)).terminal then SessionPhase.finalize else state.phase) = _
    split
    · rfl
    · next hNot => exact (hStop hZero).resolve_left hNot

-- ------ Whole runs

theorem Inv.ensure (h : Inv cfg g) {chunk : Chunk}
    (hCalm : g.sessions.contains sid = false → g.AdmitCalm cfg chunk.admitSid chunk.admitFrame) :
    Inv cfg (g.ensure cfg sid chunk).2 := by
  unfold Governor.ensure
  split
  · exact h
  · next hUnknown => exact h.admitSession (hCalm (by simpa using hUnknown))

theorem Inv.step {call : Call} (h : Inv cfg g) (hCalm : g.Calm cfg call) :
    Inv cfg (g.step cfg call) := by
  cases call with
  | onAdmit sid frame => exact h.admitSession hCalm
  | onChunk sid chunk => exact (h.ensure hCalm.1).chunkOn hCalm.2
  | onComplete sid => exact h.complete sid

theorem Calm.sound {call : Call} (hCalm : g.Calm cfg call) : g.Sound cfg call := by
  cases call with
  | onAdmit sid frame => exact AdmitCalm.sound hCalm
  | onChunk sid chunk => exact ⟨fun hUnknown => (hCalm.1 hUnknown).sound, hCalm.2.sound⟩
  | onComplete sid => trivial

theorem inv_start (cfg : RTGRuntimeConfig) : Inv cfg start :=
  ⟨le_refl 0, fun _ => le_refl 0⟩

instance (cfg : RTGRuntimeConfig) (g : Governor) (sid : String) (frame : TelemetryFrame) :
    Decidable (g.AdmitCalm cfg sid frame) :=
  inferInstanceAs (Decidable (_ ∧ (_ → _)))

instance (cfg : RTGRuntimeConfig) (g : Governor) (sid : String) (chunk : Chunk) :
    Decidable (g.ChunkCalm cfg sid chunk) :=
  match hState : g.sessions.get? sid with
  | none => .isTrue fun _ h => nomatch hState.symm.trans h
  | some state =>
    let before := consumeChunk cfg state chunk
    let decision := policyDecide cfg chunk.threshold before.frame before
    decidable_of_iff
      ((before.budget.remainingTokens ≤ 0 → decision.terminal ∨ state.phase = .finalize) ∧
        (decision.Rebudgets → before.budget.minTokens ≤ before.budget.left ∨
          cfg.shares = false ∧ decision.terminal))
      (by simp [ChunkCalm, hState, before, decision])

instance (cfg : RTGRuntimeConfig) (g : Governor) : DecidablePred (g.Calm cfg)
  | .onAdmit sid frame => inferInstanceAs (Decidable (g.AdmitCalm cfg sid frame))
  | .onChunk sid chunk => inferInstanceAs (Decidable
      ((g.sessions.contains sid = false → g.AdmitCalm cfg chunk.admitSid chunk.admitFrame) ∧
        (g.ensure cfg sid chunk).2.ChunkCalm cfg (g.ensure cfg sid chunk).1 chunk))
  | .onComplete _ => inferInstanceAs (Decidable True)

instance (g : Governor) : Decidable g.Bounded := inferInstanceAs (Decidable (_ ≤ _))

def chunkOf64 (frame : TelemetryFrame) : Call :=
  .onChunk "a" { tokens := 64, frame, admitSid := "a", admitFrame := frame }

/-- Two sessions without any pressure. -/
def unpressured : List Call :=
  [.onAdmit "a" {}, chunkOf64 {}, .onAdmit "b" {}, chunkOf64 {}, .onComplete "a"]

/-- One session, and memory pressure that does not go away. -/
def pressured : List Call :=
  .onAdmit "a" { memoryPressure := 9 / 10 } ::
    List.replicate 6 (chunkOf64 { memoryPressure := 9 / 10 })

end Governor

end Neuroswarm.Rtg
