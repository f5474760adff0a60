import Neuroswarm.Lib.Replay

/-!
# GEPA — the Pareto front

`ParetoFront.update` of `gepa/pareto/front.py`. Candidates are compared on the objectives that
both have a value for, so dominance need not be transitive, and a candidate can go together
with the one that dominates it. Scores are any type with a comparison.

* `update_of_distinct` — what an update keeps.
* `sound_iff` — when the batches make no difference, and nothing is lost.
-/

namespace Neuroswarm.Evolution

variable {F : Type}

/-- What is computed on scores; `mean` is `sum(values) / len(values)`. -/
structure Scoring (F : Type) where
  zero : F
  ofLength : ℕ → F
  mean : List F → F

/-- The fields that a front reads. -/
structure TextCandidate (F : Type) where
  id : String
  components : Dict String String := Dict.empty
  scores : Dict String F := Dict.empty
  perTaskScores : Dict String F := Dict.empty

namespace TextCandidate

/-- Lower is better. -/
def minimize : List String :=
  ["latency", "cost", "reasoning_tokens", "tool_calls", "prompt_length", "context_length", "memory",
    "cpu"]

def meanScore (w : Scoring F) (c : TextCandidate F) : F :=
  match c.scores.get? "aggregate" with
  | some v => v
  | none =>
    if c.perTaskScores.entries ≠ [] then w.mean c.perTaskScores.values
    else if c.scores.entries ≠ [] then w.mean c.scores.values
    else w.zero

def objectiveValue (w : Scoring F) (c : TextCandidate F) (obj : String) : Option F :=
  match c.scores.get? obj with
  | some v => some v
  | none =>
    if obj = "aggregate" then some (c.meanScore w)
    else if obj = "prompt_length" then
      some (w.ofLength ((c.components.values.map String.length).sum))
    else none

variable [LT F] [DecidableLT F]

/-- The loop of `dominates`, with `better_or_eq` and `strict`. -/
def dominatesLoop (w : Scoring F) (a b : TextCandidate F) : List String → Bool → Bool → Bool
  | [], betterOrEq, strict => betterOrEq && strict
  | obj :: objectives, betterOrEq, strict =>
    match a.objectiveValue w obj, b.objectiveValue w obj with
    | some va, some vb =>
      let (worse, better) :=
        if obj ∈ minimize then (decide (vb < va), decide (va < vb))
        else (decide (va < vb), decide (vb < va))
      if worse then false else dominatesLoop w a b objectives true (strict || better)
    | _, _ => dominatesLoop w a b objectives betterOrEq strict

def dominates (w : Scoring F) (objectives : List String) (a b : TextCandidate F) : Bool :=
  dominatesLoop w a b objectives false false

end TextCandidate

variable [LT F] [DecidableLT F] (w : Scoring F) (objectives : List String)

def nondominated (items : List (TextCandidate F)) : List (TextCandidate F) :=
  items.filter fun c =>
    !items.any fun other => other.id ≠ c.id ∧ other.dominates w objectives c

/-- `update(candidates)`, of a front with these members. -/
def update (members candidates : List (TextCandidate F)) : List (TextCandidate F) :=
  nondominated w objectives
    (Dict.replay ((members ++ candidates).map fun c => (c.id, c))).values

/-- The members after these updates of a new front. -/
def front (batches : List (List (TextCandidate F))) : List (TextCandidate F) :=
  batches.foldl (update w objectives) []

/-- Some candidate of the list, another one, dominates this one. -/
def Dominated (given : List (TextCandidate F)) (c : TextCandidate F) : Prop :=
  ∃ other ∈ given, other.id ≠ c.id ∧ other.dominates w objectives c = true

instance (given : List (TextCandidate F)) : DecidablePred (Dominated w objectives given) :=
  fun c => inferInstanceAs (Decidable (∃ other ∈ given, other.id ≠ c.id ∧ _))

/-- A front after its updates. -/
structure Sound (batches : List (List (TextCandidate F))) : Prop where
  nonempty : batches.flatten ≠ [] → front w objectives batches ≠ []
  covers : ∀ c ∈ batches.flatten, c ∉ front w objectives batches →
    ∃ member ∈ front w objectives batches, member.dominates w objectives c = true
  once : front w objectives batches = front w objectives [batches.flatten]

/-- Whom another one dominates, one that none dominates dominates. -/
def Covered (given : List (TextCandidate F)) : Prop :=
  ∀ c ∈ given, Dominated w objectives given c →
    ∃ other ∈ given, ¬ Dominated w objectives given other ∧ other.dominates w objectives c = true

instance (given : List (TextCandidate F)) : Decidable (Covered w objectives given) :=
  inferInstanceAs (Decidable (∀ c ∈ given, Dominated w objectives given c →
    ∃ other ∈ given, ¬ Dominated w objectives given other ∧ _))

-- ------ One update

variable {w objectives}

theorem mem_nondominated {items : List (TextCandidate F)} {c : TextCandidate F} :
    c ∈ nondominated w objectives items ↔ c ∈ items ∧ ¬ Dominated w objectives items c := by
  simp [nondominated, Dominated]

/-- With distinct ids an update keeps what nothing else dominates, in the order it was given. -/
theorem update_of_distinct {members candidates : List (TextCandidate F)}
    (hIds : ((members ++ candidates).map TextCandidate.id).Nodup) :
    update w objectives members candidates =
      nondominated w objectives (members ++ candidates) := by
  have hEntries := Dict.entries_foldl_set ((members ++ candidates).map fun c => (c.id, c))
    Dict.empty (by simpa [Dict.empty, Function.comp_def] using hIds)
  unfold update Dict.values Dict.replay
  rw [hEntries]
  simp [Dict.empty, Function.comp_def]

-- ------ All updates

theorem front_concat (batches : List (List (TextCandidate F))) (batch : List (TextCandidate F)) :
    front w objectives (batches ++ [batch]) =
      update w objectives (front w objectives batches) batch := by
  unfold front
  rw [List.foldl_append, List.foldl_cons, List.foldl_nil]

theorem front_sublist (batches : List (List (TextCandidate F)))
    (hIds : (batches.flatten.map TextCandidate.id).Nodup) :
    (front w objectives batches).Sublist batches.flatten ∧ ∀ batch,
      ((batches.flatten ++ batch).map TextCandidate.id).Nodup →
      front w objectives (batches ++ [batch]) =
        nondominated w objectives (front w objectives batches ++ batch) := by
  have hNext : ∀ batches : List (List (TextCandidate F)),
      (front w objectives batches).Sublist batches.flatten → ∀ batch,
      ((batches.flatten ++ batch).map TextCandidate.id).Nodup →
      front w objectives (batches ++ [batch]) =
        nondominated w objectives (front w objectives batches ++ batch) := by
    intro batches hSub batch hIds
    rw [front_concat]
    exact update_of_distinct (hIds.sublist ((hSub.append (List.Sublist.refl batch)).map _))
  induction batches using List.reverseRecOn with
  | nil => exact ⟨.slnil, hNext [] .slnil⟩
  | append_singleton batches batch ih =>
    have hFlat : (batches ++ [batch]).flatten = batches.flatten ++ batch := by simp
    rw [hFlat] at hIds
    obtain ⟨hSub, hFront⟩ := ih (hIds.sublist ((List.sublist_append_left _ batch).map _))
    have hStep : (front w objectives (batches ++ [batch])).Sublist
        (batches ++ [batch]).flatten := by
      rw [hFront batch hIds, hFlat]
      exact List.filter_sublist.trans (hSub.append (List.Sublist.refl batch))
    exact ⟨hStep, hNext _ hStep⟩

theorem mem_front {batches : List (List (TextCandidate F))}
    (hIds : (batches.flatten.map TextCandidate.id).Nodup)
    {given : List (TextCandidate F)} (hGiven : batches.flatten ⊆ given) :
    (∀ c ∈ batches.flatten, ¬ Dominated w objectives given c → c ∈ front w objectives batches) ∧
      ∀ c ∈ front w objectives batches, ∀ other ∈ batches.flatten,
        ¬ Dominated w objectives given other → other.id ≠ c.id →
          other.dominates w objectives c = false := by
  induction batches using List.reverseRecOn with
  | nil => exact ⟨nofun, nofun⟩
  | append_singleton batches batch ih =>
    have hFlat : (batches ++ [batch]).flatten = batches.flatten ++ batch := by simp
    rw [hFlat] at hIds hGiven ⊢
    have hOld := hIds.sublist ((List.sublist_append_left _ batch).map _)
    obtain ⟨hSub, hFront⟩ := @front_sublist F _ _ w objectives batches hOld
    obtain ⟨hStays, -⟩ := ih hOld fun c hc => hGiven (List.mem_append_left _ hc)
    rw [hFront batch hIds]
    have hPool : ∀ c ∈ batches.flatten ++ batch, ¬ Dominated w objectives given c →
        c ∈ front w objectives batches ++ batch := by
      intro c hc hFree
      rcases List.mem_append.mp hc with hc | hc
      · exact List.mem_append_left _ (hStays c hc hFree)
      · exact List.mem_append_right _ hc
    constructor
    · intro c hc hFree
      refine mem_nondominated.mpr ⟨hPool c hc hFree, ?_⟩
      rintro ⟨other, hOther, hDominates⟩
      have hSubset := (hSub.append (List.Sublist.refl batch)).subset
      exact hFree ⟨other, hGiven (hSubset hOther), hDominates⟩
    · intro c hc other hOther hFree hNe
      by_contra hDominates
      exact (mem_nondominated.mp hc).2
        ⟨other, hPool other hOther hFree, hNe, by simpa using hDominates⟩

theorem eq_filter_of_sublist {α : Type} {p : α → Bool} {s l : List α} (hSub : s.Sublist l)
    (hNodup : l.Nodup) (h : ∀ a ∈ l, a ∈ s ↔ p a = true) : s = l.filter p := by
  induction hSub with
  | slnil => rfl
  | @cons s l a hSub ih =>
    obtain ⟨hNew, hNodup⟩ := List.nodup_cons.mp hNodup
    have hNot : ¬ p a = true := fun hp => hNew (hSub.subset ((h a List.mem_cons_self).mpr hp))
    rw [List.filter_cons_of_neg hNot]
    exact ih hNodup fun b hb => h b (List.mem_cons_of_mem a hb)
  | @cons_cons s l a _ ih =>
    obtain ⟨hNew, hNodup⟩ := List.nodup_cons.mp hNodup
    rw [List.filter_cons_of_pos ((h a List.mem_cons_self).mp List.mem_cons_self)]
    refine congrArg (a :: ·) (ih hNodup fun b hb => ?_)
    have hNe : b ≠ a := by
      rintro rfl
      exact hNew hb
    rw [← h b (List.mem_cons_of_mem a hb), List.mem_cons, or_iff_right hNe]

theorem id_ne_of_dominates {given : List (TextCandidate F)}
    (hIds : (given.map TextCandidate.id).Nodup) {c other : TextCandidate F} (hc : c ∈ given)
    (hOther : other ∈ given) (hDominated : Dominated w objectives given c)
    (hFree : ¬ Dominated w objectives given other) : other.id ≠ c.id := by
  intro hEq
  rw [List.inj_on_of_nodup_map hIds hOther hc hEq] at hFree
  exact hFree hDominated

/-- **When a front is complete and independent of the batches.** -/
theorem sound_iff (w : Scoring F) (objectives : List String)
    (batches : List (List (TextCandidate F)))
    (hIds : (batches.flatten.map TextCandidate.id).Nodup) :
    Sound w objectives batches ↔ Covered w objectives batches.flatten := by
  have hOnce : front w objectives [batches.flatten] = nondominated w objectives batches.flatten :=
    update_of_distinct hIds
  constructor
  · intro h c hc hDominated
    have hFront := h.once.trans hOnce
    have hGone : c ∉ front w objectives batches := by
      rw [hFront, mem_nondominated]
      exact fun hMem => hMem.2 hDominated
    obtain ⟨member, hMember, hDominates⟩ := h.covers c hc hGone
    rw [hFront, mem_nondominated] at hMember
    exact ⟨member, hMember.1, hMember.2, hDominates⟩
  · intro h
    obtain ⟨hStays, hDrives⟩ := @mem_front F _ _ w objectives batches hIds batches.flatten
      (List.Subset.refl _)
    have hMem : ∀ c ∈ batches.flatten,
        (c ∈ front w objectives batches ↔ ¬ Dominated w objectives batches.flatten c) := by
      intro c hc
      refine ⟨fun hFront hDominated => ?_, hStays c hc⟩
      obtain ⟨other, hOther, hFree, hDominates⟩ := h c hc hDominated
      have hNe := id_ne_of_dominates hIds hc hOther hDominated hFree
      rw [hDrives c hFront other hOther hFree hNe] at hDominates
      cases hDominates
    have hEq : front w objectives batches = nondominated w objectives batches.flatten := by
      refine eq_filter_of_sublist (front_sublist batches hIds).1 (List.Nodup.of_map _ hIds) ?_
      intro c hc
      rw [hMem c hc]
      constructor
      · intro hFree
        exact (List.mem_filter.mp (mem_nondominated.mpr ⟨hc, hFree⟩)).2
      · intro hKept
        exact (mem_nondominated.mp (List.mem_filter.mpr ⟨hc, hKept⟩)).2
    refine ⟨fun hSome => ?_, fun c hc hGone => ?_, hEq.trans hOnce.symm⟩
    · obtain ⟨c, hc⟩ := List.exists_mem_of_ne_nil _ hSome
      by_cases hDominated : Dominated w objectives batches.flatten c
      · obtain ⟨other, hOther, hFree, -⟩ := h c hc hDominated
        exact List.ne_nil_of_mem ((hMem other hOther).mpr hFree)
      · exact List.ne_nil_of_mem ((hMem c hc).mpr hDominated)
    · have hDominated : Dominated w objectives batches.flatten c := by
        by_contra hFree
        exact hGone ((hMem c hc).mpr hFree)
      obtain ⟨other, hOther, hFree, hDominates⟩ := h c hc hDominated
      exact ⟨other, (hMem other hOther).mpr hFree, hDominates⟩

def naturalScoring : Scoring ℕ := ⟨0, id, fun l => l.sum / l.length⟩

def scored (id : String) (scores : List (String × ℕ)) : TextCandidate ℕ :=
  { id, scores := Dict.replay scores }

/-- Two candidates with all their scores, given one by one. -/
theorem sound_oneByOne :
    Sound naturalScoring ["accuracy"] [[scored "a" [("accuracy", 1)]],
      [scored "b" [("accuracy", 2)]]] :=
  (sound_iff naturalScoring _ _ (by decide +kernel)).mpr (by decide +kernel)

/-- Each of three candidates is dominated by the next on the one score that the two share. -/
theorem front_empty_of_circle :
    ¬ ∀ batches : List (List (TextCandidate ℕ)), (batches.flatten.map TextCandidate.id).Nodup →
      Sound naturalScoring ["accuracy", "compression_ratio", "acceptance_rate"] batches := by
  intro h
  refine (h [[scored "a" [("accuracy", 2), ("acceptance_rate", 1)],
    scored "b" [("accuracy", 1), ("compression_ratio", 2)],
    scored "c" [("compression_ratio", 1), ("acceptance_rate", 2)]]] (by decide +kernel)).nonempty
    (by simp) ?_
  rw [← List.length_eq_zero_iff]
  decide +kernel

end Neuroswarm.Evolution
