import Mathlib.Data.List.DropRight
import Mathlib.Data.List.MinMax
import Neuroswarm.Armcascade.Types

/-!
# Greedy verification by logits

`parse_logits_bundle` and `leviathan_accept`. The parser strips the target's tokens and
drops blank entries; the draft's tokens are compared as they are, or by their ids. Log
probabilities are any type with a comparison; what is computed with `exp` is a parameter.

* `argmaxEntry_parseFields` — which entry of a row counts, and as what.
* `acceptOne_greedy` — one position; `leviathanAccept_greedy` — how many are accepted.
* `acceptsCommon_iff` — when these are the common beginning of draft and target.
-/

namespace Neuroswarm.Armcascade.Logits

variable {P R : Type}

/-- A value of a decoded response, as far as its kinds are told apart. -/
inductive RawValue (P : Type) where
  | null
  | bool (b : Bool)
  | int (n : ℤ)
  | float (x : P)
  | str (s : Text)
  | list (items : List (RawValue P))
  | dict (fields : List (String × RawValue P))

abbrev Fields (P : Type) := List (String × RawValue P)

/-- What is computed on floats and by the interpreter: `str` of a value that is no text, `hash`,
`_entropy_top_n` and its two constants, whether `math.exp(q - p)` overflows, and the draws and
tests made with it. -/
structure Numerics (P R : Type) where
  ofInt : ℤ → P
  zero : P
  half : P
  one : P
  str : RawValue P → Text
  hash : Text → ℤ
  entropyTopN : List P → P
  expOverflows : P → P → Bool
  drawBelowRatio : P → P → R → Bool × R
  reachesTau : P → P → Bool

def strip (s : Text) : Text := (s.dropWhile isSpace).rdropWhile isSpace

structure LogitsTopEntry (P : Type) where
  token : Text
  logprob : P
  tokenId : Option ℤ := none
  deriving Repr, DecidableEq

structure LogitsStep (P : Type) where
  token : Text
  logprob : P
  tokenId : Option ℤ := none
  top : List (LogitsTopEntry P) := []
  deriving Repr, DecidableEq

structure ProposalToken (P : Type) where
  text : Text
  tokenId : Option ℤ := none
  logprob : Option P := none
  rank : ℤ := 0
  deriving Repr, DecidableEq

structure DraftToken (P : Type) where
  text : Text
  id : ℤ
  logprob : P
  rank : ℤ
  deriving Repr, DecidableEq

structure LogitsBundle (P : Type) where
  steps : List (LogitsStep P)
  draft : List (DraftToken P)
  topN : ℕ
  deriving Repr, DecidableEq

-- ------ Parsing

namespace RawValue

variable [DecidableEq P]

def truthy (zero : P) : RawValue P → Bool
  | .null => false
  | .bool b => b
  | .int n => n ≠ 0
  | .float x => x ≠ zero
  | .str s => s ≠ []
  | .list items => !items.isEmpty
  | .dict fields => !fields.isEmpty

/-- `str(value)`. -/
def toText (num : Numerics P R) : RawValue P → Text
  | .str s => s
  | value => num.str value

/-- The value of the first of `keys` that has a truthy one. -/
def getFirst (num : Numerics P R) (fields : Fields P) (keys : List String) : Option (RawValue P) :=
  keys.findSome? fun key => (fields.lookup key).filter (truthy num.zero)

end RawValue

section
variable [DecidableEq P] (num : Numerics P R)

/-- `str(entry.get("token") or entry.get("text") or entry.get("content") or "")`. -/
def rawToken (entry : Fields P) : Text :=
  ((RawValue.getFirst num entry ["token", "text", "content"]).map (·.toText num)).getD []

def entryLogprob (entry : Fields P) : P :=
  match entry.lookup "logprob" with
  | some (.float x) => x
  | some (.int n) => num.ofInt n
  | some (.bool b) => num.ofInt b.toInt
  | _ => num.zero

def entryId (entry : Fields P) : Option ℤ :=
  match entry.lookup "token_id" with
  | some (.int n) => some n
  | some (.bool b) => some b.toInt
  | _ => none

def parseTopEntry (entry : Fields P) : Option (LogitsTopEntry P) :=
  let token := strip (rawToken num entry)
  if token = [] then none
  else some { token, logprob := entryLogprob num entry, tokenId := entryId entry }

def topEntries (entry : Fields P) : List (Fields P) :=
  match RawValue.getFirst num entry ["top_logprobs", "top"] with
  | some (.list items) => items.filterMap fun
    | .dict fields => some fields
    | _ => none
  | _ => []

/-- `_parse_step` of a dictionary. -/
def parseFields (entry : Fields P) : LogitsStep P :=
  let token := strip (rawToken num entry)
  let logprob := entryLogprob num entry
  let tokenId := entryId entry
  let top := (topEntries num entry).filterMap (parseTopEntry num)
  { token, logprob, tokenId
    top := if top = [] ∧ token ≠ [] then [{ token, logprob, tokenId }] else top }

def parseStep : RawValue P → Option (LogitsStep P)
  | .str s =>
    let token := strip s
    if token = [] then none
    else some { token, logprob := num.zero, top := [{ token, logprob := num.zero }] }
  | .dict entry => some (parseFields num entry)
  | _ => none

/-- `choices[0]`, when the choices are a list that begins with a dictionary. -/
def firstChoice (raw : Fields P) : Option (Fields P) :=
  match raw.lookup "choices" with
  | some (.list (.dict c0 :: _)) => some c0
  | _ => none

/-- `choices[0].logprobs.content`. -/
def contentOf (c0 : Fields P) : List (RawValue P) :=
  match c0.lookup "logprobs" with
  | some (.dict logprobs) => match logprobs.lookup "content" with
    | some (.list content) => content
    | _ => []
  | _ => []

def legacyOf (c0 : Fields P) : List (RawValue P) :=
  match RawValue.getFirst num c0 ["completion_probabilities", "probs"] with
  | some (.list legacy) => legacy
  | _ => []

def parseSteps (raw : Fields P) : List (LogitsStep P) :=
  match firstChoice raw with
  | none => []
  | some c0 =>
    let steps := (contentOf c0).filterMap (parseStep num)
    if steps = [] then (legacyOf num c0).filterMap (parseStep num) else steps

def draftTokens (tokens : List (ProposalToken P)) (text : Text) : List (DraftToken P) :=
  if tokens = [] then
    (split text).map fun w => { text := w, id := num.hash w, logprob := num.zero, rank := 0 }
  else
    tokens.map fun t =>
      { text := t.text, id := t.tokenId.getD (num.hash t.text)
        logprob := t.logprob.getD num.zero, rank := t.rank }

def parseLogitsBundle (raw : Fields P) (tokens : List (ProposalToken P)) (text : Text)
    (topN : ℕ) : LogitsBundle P :=
  let steps := parseSteps num raw
  { steps, draft := draftTokens num tokens text
    topN := if topN = 0 then (steps.map (·.top.length)).foldl max 0 else topN }

end

-- ------ Acceptance

structure PositionAcceptResult (P : Type) where
  acceptedToken : Option Text := none
  isFinal : Bool := false
  residualOrBonus : Text := []
  topTauUsed : Bool := false
  entropy : P
  waiting : Bool := false
  deriving Repr, DecidableEq

structure LeviathanAcceptResult (P : Type) where
  acceptedPrefixLen : ℕ := 0
  entropy : P
  bonusToken : Text := []
  topTauUsed : Bool := false
  deriving Repr, DecidableEq

section
variable [Preorder P] [DecidableLT P] (num : Numerics P R)

def argmaxEntry (top : List (LogitsTopEntry P)) : Option (LogitsTopEntry P) :=
  top.argmax (·.logprob)

def findInTop (top : List (LogitsTopEntry P)) (token : Text) (tokenId : ℤ) :
    Option (LogitsTopEntry P) :=
  top.find? fun entry => entry.tokenId = some tokenId ∨ entry.token = token

def stepEntropy (step : LogitsStep P) : P :=
  num.entropyTopN (step.top.map (·.logprob))

def residual (step : LogitsStep P) : Text :=
  ((argmaxEntry step.top).map (·.token)).getD step.token

/-- `accept_one_draft_position` as `leviathan_accept` calls it. -/
def acceptOne (b : LogitsBundle P) (greedy : Bool) (tauFloor : P) (position : ℕ) (rng : R) :
    Except String (PositionAcceptResult P × R) :=
  if b.draft.length = 0 then .ok ({ isFinal := true, entropy := num.one }, rng)
  else if b.draft.length < position then .ok ({ isFinal := true, entropy := num.one }, rng)
  else
    match b.steps[position]?, b.draft[position]? with
    | none, _ => .ok ({ waiting := true, entropy := num.half }, rng)
    | some step, none => -- the bonus step
      .ok ({ isFinal := true, residualOrBonus := residual step, entropy := stepEntropy num step },
        rng)
    | some step, some draft =>
      let entropy := stepEntropy num step
      let accepted : PositionAcceptResult P :=
        { acceptedToken := some draft.text, isFinal := position = b.draft.length - 1, entropy }
      let rejected : PositionAcceptResult P :=
        { isFinal := true, residualOrBonus := residual step, entropy }
      match findInTop step.top draft.text draft.id with
      | none =>
        if num.zero < tauFloor ∧ num.reachesTau draft.logprob tauFloor then
          .ok ({ accepted with
            isFinal := true
            residualOrBonus := ((argmaxEntry step.top).map (·.token)).getD []
            topTauUsed := true }, rng)
        else .ok (rejected, rng)
      | some target =>
        -- the ratio is computed in greedy mode too
        if num.expOverflows target.logprob draft.logprob then .error "math range error"
        else if greedy then
          match argmaxEntry step.top with
          | none => .ok (rejected, rng)
          | some argmax =>
            if argmax.tokenId = some draft.id ∨ draft.text = argmax.token then .ok (accepted, rng)
            else .ok (rejected, rng)
        else
          match num.drawBelowRatio target.logprob draft.logprob rng with
          | (true, rng) => .ok (accepted, rng)
          | (false, rng) => .ok (rejected, rng)

/-- What the loop of `leviathan_accept` carries. -/
structure AcceptState (P : Type) where
  accepted : ℕ := 0
  topTauUsed : Bool := false
  rejectEntropy : P
  tauBonus : Text := []

def acceptLoop (b : LogitsBundle P) (greedy : Bool) (tauFloor : P) :
    List ℕ → AcceptState P → R → Except String (AcceptState P × R)
  | [], s, rng => .ok (s, rng)
  | i :: positions, s, rng =>
    match acceptOne num b greedy tauFloor i rng with
    | .error e => .error e
    | .ok (pos, rng) =>
      let s := { s with rejectEntropy := pos.entropy }
      if pos.waiting then .ok (s, rng)
      else if pos.topTauUsed then
        .ok ({ s with
          topTauUsed := true
          accepted := if pos.acceptedToken.isSome then s.accepted + 1 else s.accepted
          tauBonus := pos.residualOrBonus }, rng)
      else if pos.acceptedToken.isSome then
        acceptLoop b greedy tauFloor positions { s with accepted := s.accepted + 1 } rng
      else .ok (s, rng)

def bonusAfter (b : LogitsBundle P) (greedy : Bool) (tauFloor : P) (s : AcceptState P) (rng : R) :
    Except String Text :=
  if s.tauBonus = [] ∧ b.draft.length ≤ s.accepted ∧ b.draft.length < b.steps.length then
    match acceptOne num b greedy tauFloor b.draft.length rng with
    | .error e => .error e
    | .ok (pos, _) => .ok (if pos.waiting then s.tauBonus else pos.residualOrBonus)
  else .ok s.tauBonus

def leviathanAccept (b : LogitsBundle P) (greedy : Bool) (tauFloor : P) (rng : R) :
    Except String (LeviathanAcceptResult P) :=
  if b.draft.length = 0 ∨ b.steps = [] then .ok { entropy := num.one }
  else
    match acceptLoop num b greedy tauFloor (List.range b.draft.length)
      { rejectEntropy := num.half } rng with
    | .error e => .error e
    | .ok (s, rng) =>
      match bonusAfter num b greedy tauFloor s rng with
      | .error e => .error e
      | .ok bonusToken => .ok {
        acceptedPrefixLen := s.accepted
        entropy := if s.accepted < b.draft.length then s.rejectEntropy
          else (b.steps[min s.accepted (b.steps.length - 1)]?.map (stepEntropy num)).getD num.one
        bonusToken
        topTauUsed := s.topTauUsed }

end

-- ------ Its greedy form

def commonLength : List Text → List Text → ℕ
  | a :: l, b :: l' => if a = b then commonLength l l' + 1 else 0
  | _, _ => 0

section
variable [DecidableEq P] [Preorder P] [DecidableLT P] (num : Numerics P R)

/-- As many tokens are accepted as draft and target have in common, and a target that goes on
after the whole draft gives its next token as the bonus. -/
def AcceptsCommon (b : LogitsBundle P) (target : List Text) (rng : R) : Prop :=
  ∃ r, leviathanAccept num b true num.zero rng = .ok r ∧
    r.acceptedPrefixLen = commonLength (b.draft.map (·.text)) target ∧
    (r.acceptedPrefixLen = b.draft.length → ∀ t, target[b.draft.length]? = some t →
      r.bonusToken = t)

def Recognized (step : LogitsStep P) (draft : DraftToken P) : Prop :=
  ∃ top1, argmaxEntry step.top = some top1 ∧
    (top1.tokenId = some draft.id ∨ draft.text = top1.token)

/-- The ratio of the draft token's probabilities cannot be computed. -/
def Overflows (step : LogitsStep P) (draft : DraftToken P) : Prop :=
  ∃ target, findInTop step.top draft.text draft.id = some target ∧
    num.expOverflows target.logprob draft.logprob = true

/-- What counts of a row: the likeliest of its entries that are not blank, else the row itself. -/
def counted (entry : Fields P) : Option (Fields P) :=
  let top := (topEntries num entry).filter fun f => strip (rawToken num f) ≠ []
  if top = [] then if strip (rawToken num entry) = [] then none else some entry
  else top.argmax (entryLogprob num)

def Counts (entry : Fields P) (draft : DraftToken P) : Prop :=
  ∃ f, counted num entry = some f ∧
    (entryId f = some draft.id ∨ draft.text = strip (rawToken num f))

/-- The condition under which acceptance and the common beginning agree. -/
structure Faithful (entries : List (Fields P)) (legacy : List (RawValue P))
    (draft : List (DraftToken P)) (n : ℕ) : Prop where
  common : ∀ i < n, ∀ e d, entries[i]? = some e → draft[i]? = some d → Counts num e d
  differs : ∀ e d, entries[n]? = some e → draft[n]? = some d → ¬ Counts num e d
  finite : ∀ i ≤ n, ∀ e d, entries[i]? = some e → draft[i]? = some d →
    ¬ Overflows num (parseFields num e) d
  bonus : n = draft.length → ∀ e, entries[n]? = some e → rawToken num e =
    if n = 0 then [] else ((counted num e).map fun f => strip (rawToken num f)).getD []
  noLegacy : entries = [] → ∀ step d, (legacy.filterMap (parseStep num)).head? = some step →
    draft.head? = some d → ¬ Recognized step d ∧ ¬ Overflows num step d

end

-- ------ Rows

section
variable [DecidableEq P] [Preorder P] [DecidableLT P] {num : Numerics P R}

omit [DecidableEq P] in
theorem argmax_map {α : Type} (f : α → LogitsTopEntry P) (l : List α) :
    (l.map f).argmax (·.logprob) = (l.argmax fun a => (f a).logprob).map f := by
  induction l using List.reverseRecOn with
  | nil => rfl
  | append_singleton l a ih =>
    rw [List.map_append, List.map_singleton, List.argmax_concat, List.argmax_concat, ih]
    cases l.argmax fun a => (f a).logprob with
    | none => rfl
    | some c =>
      show (if (f c).logprob < (f a).logprob then some (f a) else some (f c)) =
        (if (f c).logprob < (f a).logprob then some a else some c).map f
      split
      · rfl
      · rfl

theorem argmaxEntry_parseFields (entry : Fields P) :
    argmaxEntry (parseFields num entry).top = (counted num entry).map fun f =>
      { token := strip (rawToken num f), logprob := entryLogprob num f, tokenId := entryId f } := by
  have hTop : ∀ l : List (Fields P), l.filterMap (parseTopEntry num) =
      (l.filter fun f => strip (rawToken num f) ≠ []).map fun f =>
        { token := strip (rawToken num f), logprob := entryLogprob num f, tokenId := entryId f } := by
    intro l
    induction l with
    | nil => rfl
    | cons f l ih =>
      by_cases hBlank : strip (rawToken num f) = []
      · rw [List.filterMap_cons_none (by simp [parseTopEntry, hBlank]), ih]
        simp [hBlank]
      · rw [List.filterMap_cons_some (by simp [parseTopEntry, hBlank]; rfl), ih]
        simp [hBlank]
  unfold parseFields counted argmaxEntry
  simp only [hTop, List.map_eq_nil_iff]
  generalize (topEntries num entry).filter (fun f => strip (rawToken num f) ≠ []) = top
  by_cases hNone : top = []
  · by_cases hBlank : strip (rawToken num entry) = []
    · simp [hNone, hBlank]
    · simp [hNone, hBlank]
  · simp only [hNone, false_and, if_false]
    rw [argmax_map]

theorem recognized_parseFields_iff {entry : Fields P} {draft : DraftToken P} :
    Recognized (parseFields num entry) draft ↔ Counts num entry draft := by
  unfold Recognized Counts
  rw [argmaxEntry_parseFields]
  cases counted num entry with
  | none => simp
  | some f => simp

theorem residual_parseFields (entry : Fields P) :
    residual (parseFields num entry) =
      ((counted num entry).map fun f => strip (rawToken num f)).getD [] := by
  unfold residual
  rw [argmaxEntry_parseFields]
  cases hCounted : counted num entry with
  | some f => rfl
  | none =>
    show strip (rawToken num entry) = []
    by_contra hToken
    unfold counted at hCounted
    rw [if_neg hToken] at hCounted
    dsimp only at hCounted
    split at hCounted
    · cases hCounted
    · next hTop => exact hTop (List.argmax_eq_none.mp hCounted)

-- ------ The loop

variable {b : LogitsBundle P} {rng : R}

/-- The step at a position accepts the draft token there. -/
def Takes (b : LogitsBundle P) (i : ℕ) : Prop :=
  ∃ step d, b.steps[i]? = some step ∧ b.draft[i]? = some d ∧ Recognized step d

def Fails (num : Numerics P R) (b : LogitsBundle P) (i : ℕ) : Prop :=
  ∃ step d, b.steps[i]? = some step ∧ b.draft[i]? = some d ∧ Overflows num step d

/-- From `i` on, the tokens up to `a` are accepted and no more, and nothing overflows. -/
structure Stops (num : Numerics P R) (b : LogitsBundle P) (i a : ℕ) : Prop where
  le : i ≤ a
  takes : ∀ j, i ≤ j → j < a → Takes b j
  stops : ¬ Takes b a
  finite : ∀ j, i ≤ j → j ≤ a → ¬ Fails num b j

omit [DecidableEq P] in
theorem stops_iff_of_not {i a : ℕ} (hTakes : ¬ Takes b i) (hFails : ¬ Fails num b i) :
    Stops num b i a ↔ i = a := by
  constructor
  · intro h
    by_contra hNe
    exact hTakes (h.takes i le_rfl (Nat.lt_of_le_of_ne h.le hNe))
  · rintro rfl
    refine ⟨le_rfl, fun j h h' => by omega, hTakes, fun j h h' => ?_⟩
    obtain rfl : j = i := by omega
    exact hFails

omit [DecidableEq P] in
theorem stops_iff_of_takes {i a : ℕ} (hTakes : Takes b i) (hFails : ¬ Fails num b i) :
    Stops num b i a ↔ Stops num b (i + 1) a := by
  constructor
  · intro h
    have hNe : i ≠ a := fun hEq => h.stops (hEq ▸ hTakes)
    have hLe := h.le
    exact ⟨by omega, fun j hj => h.takes j (by omega), h.stops, fun j hj => h.finite j (by omega)⟩
  · intro h
    have hLe := h.le
    refine ⟨by omega, fun j hj hLt => ?_, h.stops, fun j hj hLt => ?_⟩
    · by_cases hEq : j = i
      · exact hEq ▸ hTakes
      · exact h.takes j (by omega) hLt
    · by_cases hEq : j = i
      · exact hEq ▸ hFails
      · exact h.finite j (by omega) hLt

omit [DecidableEq P] in
theorem acceptOne_greedy (rng : R) {i : ℕ} {step : LogitsStep P} {d : DraftToken P}
    (hStep : b.steps[i]? = some step) (hDraft : b.draft[i]? = some d) :
    (Overflows num step d ∧ ∃ e, acceptOne num b true num.zero i rng = .error e) ∨
      ¬ Overflows num step d ∧ ∃ pos, acceptOne num b true num.zero i rng = .ok (pos, rng) ∧
        pos.waiting = false ∧ pos.topTauUsed = false ∧
        (pos.acceptedToken.isSome ↔ Recognized step d) := by
  have hLt : i < b.draft.length := (List.getElem?_eq_some_iff.mp hDraft).1
  unfold acceptOne
  rw [if_neg (by omega), if_neg (by omega), hStep, hDraft]
  dsimp only
  cases hFind : findInTop step.top d.text d.id with
  | none =>
    have hNot : ¬ Recognized step d := by
      rintro ⟨top1, hTop, hMatch⟩
      have hMem := List.find?_eq_none.mp hFind top1 (List.argmax_mem hTop)
      simp only [decide_eq_true_eq, not_or] at hMem
      exact hMatch.elim hMem.1 fun h => hMem.2 h.symm
    have hFinite : ¬ Overflows num step d := by
      rintro ⟨target, hTarget, -⟩
      cases hFind.symm.trans hTarget
    have hNoFloor : ¬ (num.zero < num.zero ∧ num.reachesTau d.logprob num.zero = true) :=
      fun h => lt_irrefl _ h.1
    refine .inr ⟨hFinite, _, if_neg hNoFloor, rfl, rfl, ?_⟩
    simp [hNot]
  | some target =>
    dsimp only
    by_cases hOver : num.expOverflows target.logprob d.logprob = true
    · exact .inl ⟨⟨target, hFind, hOver⟩, _, if_pos hOver⟩
    · have hFinite : ¬ Overflows num step d := by
        rintro ⟨target', hTarget, hOver'⟩
        rw [Option.some.inj (hFind.symm.trans hTarget)] at hOver
        exact hOver hOver'
      rw [if_neg hOver, if_pos rfl]
      refine .inr ⟨hFinite, ?_⟩
      unfold Recognized
      cases hTop : argmaxEntry step.top with
      | none => exact ⟨_, rfl, rfl, rfl, by simp⟩
      | some top1 =>
        dsimp only
        by_cases hMatch : top1.tokenId = some d.id ∨ d.text = top1.token
        · exact ⟨_, if_pos hMatch, rfl, rfl, by simp [hMatch]⟩
        · exact ⟨_, if_neg hMatch, rfl, rfl, by simp [hMatch]⟩

omit [DecidableEq P] in
theorem Stops.unique {i a a' : ℕ} (h : Stops num b i a) (h' : Stops num b i a') : a = a' := by
  rcases Nat.lt_trichotomy a a' with hLt | hEq | hLt
  · exact absurd (h'.takes a h.le hLt) h.stops
  · exact hEq
  · exact absurd (h.takes a' h'.le hLt) h'.stops

omit [DecidableEq P] in
theorem acceptLoop_greedy (n : ℕ) {i : ℕ} {s : AcceptState P} (rng : R)
    (hEnd : i + n = b.draft.length) (hAccepted : s.accepted = i) (hBonus : s.tauBonus = []) :
    match acceptLoop num b true num.zero (List.range' i n) s rng with
    | .error _ => ∀ a, ¬ Stops num b i a
    | .ok (s', rng') => rng' = rng ∧ s'.tauBonus = [] ∧ Stops num b i s'.accepted := by
  induction n generalizing i s with
  | zero =>
    have hNone : b.draft[i]? = none := List.getElem?_eq_none (by omega)
    have hTakes : ¬ Takes b i := fun ⟨_, _, _, hDraft, _⟩ => nomatch hNone.symm.trans hDraft
    have hFails : ¬ Fails num b i := fun ⟨_, _, _, hDraft, _⟩ => nomatch hNone.symm.trans hDraft
    exact ⟨rfl, hBonus, (stops_iff_of_not hTakes hFails).mpr hAccepted.symm⟩
  | succ n ih =>
    obtain ⟨d, hDraft⟩ : ∃ d, b.draft[i]? = some d :=
      ⟨_, List.getElem?_eq_getElem (show i < b.draft.length by omega)⟩
    rw [List.range'_succ, acceptLoop]
    cases hStep : b.steps[i]? with
    | none =>
      have hTakes : ¬ Takes b i := fun ⟨_, _, h, _⟩ => nomatch hStep.symm.trans h
      have hFails : ¬ Fails num b i := fun ⟨_, _, h, _⟩ => nomatch hStep.symm.trans h
      have hOne : acceptOne num b true num.zero i rng =
          .ok ({ waiting := true, entropy := num.half }, rng) := by
        rw [acceptOne, if_neg (by omega), if_neg (by omega), hStep]
      rw [hOne]
      exact ⟨rfl, hBonus, (stops_iff_of_not hTakes hFails).mpr hAccepted.symm⟩
    | some step =>
      have hHere : ∀ {Q : LogitsStep P → DraftToken P → Prop},
          (∃ step d, b.steps[i]? = some step ∧ b.draft[i]? = some d ∧ Q step d) ↔ Q step d := by
        intro Q
        simp [hStep, hDraft]
      rcases acceptOne_greedy rng hStep hDraft with ⟨hOver, e, hOne⟩ |
        ⟨hFinite, pos, hOne, hWaiting, hTau, hToken⟩
      · rw [hOne]
        exact fun a h => h.finite i le_rfl h.le (hHere.mpr hOver)
      · rw [hOne]
        simp only [hWaiting, hTau, Bool.false_eq_true, if_false]
        have hFails : ¬ Fails num b i := fun h => hFinite (hHere.mp h)
        by_cases hRecognized : Recognized step d
        · have hTakes : Takes b i := hHere.mpr hRecognized
          have hRest := @ih (i + 1)
            { s with rejectEntropy := pos.entropy, accepted := s.accepted + 1 } (by omega)
            (by rw [hAccepted]) hBonus
          simp only [hToken.mpr hRecognized, if_true, stops_iff_of_takes hTakes hFails]
          exact hRest
        · have hTakes : ¬ Takes b i := fun h => hRecognized (hHere.mp h)
          rw [if_neg (mt hToken.mp hRecognized)]
          exact ⟨rfl, hBonus, (stops_iff_of_not hTakes hFails).mpr hAccepted.symm⟩

omit [DecidableEq P] in
theorem leviathanAccept_greedy (b : LogitsBundle P) (rng : R) :
    match leviathanAccept num b true num.zero rng with
    | .error _ => ∀ a, ¬ Stops num b 0 a
    | .ok r => Stops num b 0 r.acceptedPrefixLen ∧ (r.acceptedPrefixLen = b.draft.length →
        r.bonusToken = if b.draft = [] then [] else
          (b.steps[b.draft.length]?.map residual).getD []) := by
  unfold leviathanAccept
  by_cases hEmpty : b.draft.length = 0 ∨ b.steps = []
  · rw [if_pos hEmpty]
    have hNone : ∀ {Q : LogitsStep P → DraftToken P → Prop},
        ¬ ∃ step d, b.steps[0]? = some step ∧ b.draft[0]? = some d ∧ Q step d := by
      rintro Q ⟨_, _, hStep, hDraft, -⟩
      rcases hEmpty with hEmpty | hEmpty
      · rw [List.length_eq_zero_iff.mp hEmpty] at hDraft
        cases hDraft
      · rw [hEmpty] at hStep
        cases hStep
    refine ⟨(stops_iff_of_not hNone hNone).mpr rfl, fun hAll => ?_⟩
    rw [if_pos (List.length_eq_zero_iff.mp hAll.symm)]
  · rw [if_neg hEmpty, List.range_eq_range']
    have hLoop := @acceptLoop_greedy P R _ _ num b b.draft.length 0
      { rejectEntropy := num.half } rng (Nat.zero_add _) rfl rfl
    revert hLoop
    cases acceptLoop num b true num.zero (List.range' 0 b.draft.length)
      { rejectEntropy := num.half } rng with
    | error e => exact id
    | ok result =>
      obtain ⟨s, rng'⟩ := result
      rintro ⟨rfl, hTau, hStops⟩
      have hDraft : b.draft ≠ [] := fun h => hEmpty (.inl (List.length_eq_zero_iff.mpr h))
      unfold bonusAfter
      by_cases hMore : b.draft.length ≤ s.accepted ∧ b.draft.length < b.steps.length
      · obtain ⟨step, hStep⟩ : ∃ step, b.steps[b.draft.length]? = some step :=
          ⟨_, List.getElem?_eq_getElem hMore.2⟩
        have hOne : ∃ pos, acceptOne num b true num.zero b.draft.length rng' = .ok (pos, rng') ∧
            pos.waiting = false ∧ pos.residualOrBonus = residual step := by
          rw [acceptOne, if_neg (by simpa using hDraft), if_neg (Nat.lt_irrefl _), hStep,
            List.getElem?_eq_none le_rfl]
          exact ⟨_, rfl, rfl, rfl⟩
        obtain ⟨pos, hOne, hWaiting, hResidual⟩ := hOne
        simp only [hTau, hMore, hOne, hWaiting, hResidual, and_self, if_true]
        exact ⟨hStops, fun _ => by simp [hDraft, hStep]⟩
      · simp only [hTau, hMore, and_false, if_false]
        refine ⟨hStops, fun hAll => ?_⟩
        have hNone : b.steps[b.draft.length]? = none :=
          List.getElem?_eq_none (by omega)
        simp [hNone]

omit [DecidableEq P] in
theorem acceptsCommon_iff_stops (b : LogitsBundle P) (target : List Text) (rng : R) {n : ℕ}
    (hCommon : commonLength (b.draft.map (·.text)) target = n) :
    AcceptsCommon num b target rng ↔ Stops num b 0 n ∧
      (n = b.draft.length → ∀ t, target[n]? = some t → t = if b.draft = [] then [] else
        (b.steps[n]?.map residual).getD []) := by
  have hRun := @leviathanAccept_greedy P R _ _ num b rng
  unfold AcceptsCommon
  rw [hCommon]
  revert hRun
  cases leviathanAccept num b true num.zero rng with
  | error e => exact fun hNone => iff_of_false (fun ⟨_, h, _⟩ => nomatch h) fun h => hNone n h.1
  | ok r =>
    rintro ⟨hStops, hBonus⟩
    constructor
    · rintro ⟨r', hRun, hLen, hNext⟩
      cases hRun
      refine ⟨hLen ▸ hStops, fun hAll t hTarget => ?_⟩
      have hEnd := hLen.trans hAll
      rw [← hNext hEnd t (hAll ▸ hTarget), hBonus hEnd, hAll]
    · rintro ⟨hStops', hNext⟩
      have hLen := hStops.unique hStops'
      refine ⟨r, rfl, hLen, fun hAll t hTarget => ?_⟩
      have hEnd := hLen.symm.trans hAll
      rw [hBonus hAll, hNext hEnd t (hEnd ▸ hTarget), hEnd]

-- ------ Draft and target

theorem commonLength_spec (l l' : List Text) : commonLength l l' ≤ l.length ∧
    (∀ i < commonLength l l', l[i]? = l'[i]?) ∧
    (commonLength l l' < l.length → l[commonLength l l']? ≠ l'[commonLength l l']?) := by
  induction l generalizing l' with
  | nil => cases l' <;> exact ⟨le_rfl, nofun, nofun⟩
  | cons a l ih =>
    cases l' with
    | nil => exact ⟨Nat.zero_le _, nofun, fun _ h => by simp [commonLength] at h⟩
    | cons b l' =>
      obtain ⟨hLe, hSame, hDiffers⟩ := ih l'
      unfold commonLength
      by_cases hEq : a = b
      · rw [if_pos hEq]
        refine ⟨Nat.succ_le_succ hLe, fun i hi => ?_, fun hLt => ?_⟩
        · cases i with
          | zero => simp [hEq]
          | succ i => exact hSame i (Nat.lt_of_succ_lt_succ hi)
        · exact hDiffers (Nat.lt_of_succ_lt_succ hLt)
      · rw [if_neg hEq]
        exact ⟨Nat.zero_le _, nofun, fun _ h => hEq (Option.some.inj h)⟩

omit [Preorder P] [DecidableLT P] in
theorem parseSteps_eq {raw c0 : Fields P} {entries : List (Fields P)}
    (hChoice : firstChoice raw = some c0) (hContent : contentOf c0 = entries.map .dict) :
    parseSteps num raw = if entries = [] then (legacyOf num c0).filterMap (parseStep num)
      else entries.map (parseFields num) := by
  have hSteps : (entries.map RawValue.dict).filterMap (parseStep num) =
      entries.map (parseFields num) := by
    rw [List.filterMap_map, ← List.filterMap_eq_map]
    rfl
  unfold parseSteps
  simp only [hChoice, hContent, hSteps, List.map_eq_nil_iff]

/-- **When exactly the common beginning is accepted.** In greedy mode without a floor, for every
draft and every response whose content is a list of dictionaries. -/
theorem acceptsCommon_iff {raw c0 : Fields P} {entries : List (Fields P)}
    (hChoice : firstChoice raw = some c0) (hContent : contentOf c0 = entries.map .dict)
    (tokens : List (ProposalToken P)) (text : Text) (topN : ℕ) (rng : R) :
    AcceptsCommon num (parseLogitsBundle num raw tokens text topN) (entries.map (rawToken num))
        rng ↔
      Faithful num entries (legacyOf num c0) (draftTokens num tokens text)
        (commonLength ((draftTokens num tokens text).map (·.text))
          (entries.map (rawToken num))) := by
  generalize hDraft : draftTokens num tokens text = draft
  have hBundle : (parseLogitsBundle num raw tokens text topN).draft = draft := hDraft
  have hSteps : (parseLogitsBundle num raw tokens text topN).steps = parseSteps num raw := rfl
  generalize parseLogitsBundle num raw tokens text topN = b at *
  generalize hCommon : commonLength (draft.map (·.text)) (entries.map (rawToken num)) = n
  rw [acceptsCommon_iff_stops b _ rng (hBundle ▸ hCommon)]
  rw [parseSteps_eq hChoice hContent] at hSteps
  by_cases hEmpty : entries = []
  · -- an empty content leaves the word to the older list
    subst hEmpty
    obtain rfl : n = 0 := by
      rw [← hCommon]
      cases draft.map (·.text) <;> rfl
    rw [if_pos rfl] at hSteps
    have hHere : ∀ {Q : LogitsStep P → DraftToken P → Prop},
        (∃ step d, b.steps[0]? = some step ∧ b.draft[0]? = some d ∧ Q step d) ↔
          ∃ step d, ((legacyOf num c0).filterMap (parseStep num)).head? = some step ∧
            draft.head? = some d ∧ Q step d := by
      intro Q
      rw [hSteps, hBundle, List.head?_eq_getElem?, List.head?_eq_getElem?]
    constructor
    · rintro ⟨hStops, -⟩
      refine ⟨nofun, nofun, nofun, nofun, fun _ step d hStep hD => ⟨fun h => ?_, fun h => ?_⟩⟩
      · exact hStops.stops (hHere.mpr ⟨step, d, hStep, hD, h⟩)
      · exact hStops.finite 0 le_rfl le_rfl (hHere.mpr ⟨step, d, hStep, hD, h⟩)
    · intro h
      refine ⟨(stops_iff_of_not (fun hTakes => ?_) fun hFails => ?_).mpr rfl, fun _ => nofun⟩
      · obtain ⟨step, d, hStep, hD, hQ⟩ := hHere.mp hTakes
        exact (h.noLegacy rfl step d hStep hD).1 hQ
      · obtain ⟨step, d, hStep, hD, hQ⟩ := hHere.mp hFails
        exact (h.noLegacy rfl step d hStep hD).2 hQ
  · rw [if_neg hEmpty] at hSteps
    have hHere : ∀ {Q : LogitsStep P → DraftToken P → Prop} {j : ℕ},
        (∃ step d, b.steps[j]? = some step ∧ b.draft[j]? = some d ∧ Q step d) ↔
          ∃ e d, entries[j]? = some e ∧ draft[j]? = some d ∧ Q (parseFields num e) d := by
      intro Q j
      simp [hSteps, hBundle]
    have hTakes : ∀ j, Takes b j ↔
        ∃ e d, entries[j]? = some e ∧ draft[j]? = some d ∧ Counts num e d := fun j =>
      hHere.trans (by simp only [recognized_parseFields_iff])
    have hSpec := commonLength_spec (draft.map (·.text)) (entries.map (rawToken num))
    rw [hCommon] at hSpec
    obtain ⟨hLe, hSame, -⟩ := hSpec
    have hBoth : ∀ j < n, ∃ e d, entries[j]? = some e ∧ draft[j]? = some d := by
      intro j hj
      have hDraftLt : j < draft.length := Nat.lt_of_lt_of_le hj (by simpa using hLe)
      have hText := hSame j hj
      have hEntriesLt : j < entries.length := by
        by_contra hOut
        simp [hDraftLt, hOut] at hText
      exact ⟨_, _, List.getElem?_eq_getElem hEntriesLt, List.getElem?_eq_getElem hDraftLt⟩
    have hBonus : (∀ t, (entries.map (rawToken num))[n]? = some t →
        t = if b.draft = [] then [] else (b.steps[n]?.map residual).getD []) ↔
        ∀ e, entries[n]? = some e → rawToken num e = if draft = [] then [] else
          ((counted num e).map fun f => strip (rawToken num f)).getD [] := by
      rw [hSteps, hBundle, List.getElem?_map, List.getElem?_map]
      cases entries[n]? with
      | none => exact iff_of_true nofun nofun
      | some e =>
        simp only [Option.map_some, Option.getD_some, Option.some.injEq, forall_eq',
          residual_parseFields]
    have hNil : n = draft.length → (n = 0 ↔ draft = []) := by
      intro hAll
      rw [hAll, List.length_eq_zero_iff]
    constructor
    · rintro ⟨hStops, hNext⟩
      refine ⟨fun i hi e d hE hD => ?_, fun e d hE hD h => ?_, fun i hi e d hE hD h => ?_,
        fun hAll => ?_, fun h => absurd h hEmpty⟩
      · obtain ⟨e', d', hE', hD', hCounts⟩ := (hTakes i).mp (hStops.takes i (Nat.zero_le i) hi)
        cases hE.symm.trans hE'
        cases hD.symm.trans hD'
        exact hCounts
      · exact hStops.stops ((hTakes n).mpr ⟨e, d, hE, hD, h⟩)
      · exact hStops.finite i (Nat.zero_le i) hi (hHere.mpr ⟨e, d, hE, hD, h⟩)
      · simp only [hNil hAll]
        exact hBonus.mp (hNext (hBundle ▸ hAll))
    · intro h
      refine ⟨⟨Nat.zero_le n, fun j _ hj => ?_, fun hTake => ?_, fun j _ hj hFails => ?_⟩,
        fun hAll => ?_⟩
      · obtain ⟨e, d, hE, hD⟩ := hBoth j hj
        exact (hTakes j).mpr ⟨e, d, hE, hD, h.common j hj e d hE hD⟩
      · obtain ⟨e, d, hE, hD, hCounts⟩ := (hTakes n).mp hTake
        exact h.differs e d hE hD hCounts
      · obtain ⟨e, d, hE, hD, hOver⟩ := hHere.mp hFails
        exact h.finite j hj e d hE hD hOver
      · rw [hBundle] at hAll
        have hNext := h.bonus hAll
        simp only [hNil hAll] at hNext
        exact hBonus.mpr hNext

end

local instance (priority := high) wholePreorder : Preorder ℤ := Int.instLinearOrder.toPreorder

/-- Log probabilities that are whole numbers, and one hash for all tokens. -/
def wholeNumerics : Numerics ℤ Unit where
  ofInt := id
  zero := 0
  half := 0
  one := 1
  str _ := []
  hash _ := 7
  entropyTopN _ := 0
  expOverflows q p := 709 < q - p
  drawBelowRatio q p rng := (p ≤ q, rng)
  reachesTau p tau := tau ≤ p

def certainRow (token : Text) : Fields ℤ :=
  let entry : Fields ℤ := [("token", .str token), ("logprob", .int 0)]
  entry ++ [("top_logprobs", .list [.dict entry])]

def certainChoice (token : Text) : Fields ℤ :=
  [("logprobs", .dict [("content", .list [.dict (certainRow token)])])]

/-- A token without blanks around it is accepted, and so the condition holds. -/
theorem faithful_plain :
    Faithful wholeNumerics [certainRow "on".toList] []
      (draftTokens wholeNumerics [{ text := "on".toList }] [])
      (commonLength ((draftTokens wholeNumerics [{ text := "on".toList }] []).map (·.text))
        ([certainRow "on".toList].map (rawToken wholeNumerics))) :=
  (@acceptsCommon_iff ℤ Unit _ _ _ wholeNumerics
    [("choices", .list [.dict (certainChoice "on".toList)])] (certainChoice "on".toList)
    [certainRow "on".toList] rfl rfl [{ text := "on".toList }] [] 0 ()).mp
    ⟨{ acceptedPrefixLen := 1, entropy := 0 }, by decide +kernel, by decide +kernel, fun _ => nofun⟩

/-- The draft gives the target's own token, with the space it begins with. -/
theorem leading_space_rejected :
    ¬ ∀ (raw c0 : Fields ℤ) (entries : List (Fields ℤ)) (tokens : List (ProposalToken ℤ)),
      firstChoice raw = some c0 → contentOf c0 = entries.map .dict →
      (∀ e ∈ entries, ((topEntries wholeNumerics e).argmax (entryLogprob wholeNumerics)).map
        (rawToken wholeNumerics) = some (rawToken wholeNumerics e)) →
      AcceptsCommon wholeNumerics (parseLogitsBundle wholeNumerics raw tokens [] 0)
        (entries.map (rawToken wholeNumerics)) () := by
  intro h
  obtain ⟨r, hRun, hLen, -⟩ := h [("choices", .list [.dict (certainChoice " on".toList)])]
    (certainChoice " on".toList) [certainRow " on".toList] [{ text := " on".toList }] rfl rfl
    (by decide +kernel)
  have hRejected : leviathanAccept wholeNumerics (parseLogitsBundle wholeNumerics
      [("choices", .list [.dict (certainChoice " on".toList)])] [{ text := " on".toList }] [] 0)
      true 0 () = .ok { acceptedPrefixLen := 0, entropy := 0, bonusToken := [] } := by
    decide +kernel
  rw [show wholeNumerics.zero = 0 from rfl, hRejected] at hRun
  cases hRun
  revert hLen
  decide +kernel

end Neuroswarm.Armcascade.Logits
