import Mathlib.Tactic.Common

/-!
# Runs of a labelled transition function

A deterministic system is a function `step : σ → Op → σ`; a run executes a
list of operations from a start state. Two ways of quantifying over a run:

* `Along P` — `P` holds in every state the run visits, the first included;
* `Every C` — `C` holds of every operation together with the state in which
  it is taken.

`along_of_every` is the invariant rule relativized to a condition on steps;
`along_iff_every` adds the converse: when a step outside the condition always
destroys the property, the runs that keep it are exactly those whose steps all
meet the condition. `along_iff_every_of` is the same under assumptions on the steps.

`trace` is an infinite run. A measure that no step raises and that is lowered again
and again brings it to its goal (`eventually_of_measure`); where some step can always
lower it, a finite run gets there (`exists_run_of_measure`).
-/

namespace Run

variable {σ Op : Type*} (step : σ → Op → σ)

/-- The state after executing `ops` from `s`. -/
def exec (s : σ) (ops : List Op) : σ := ops.foldl step s

/-- `P` holds in every state visited by the run. -/
def Along (P : σ → Prop) : σ → List Op → Prop
  | s, [] => P s
  | s, op :: ops => P s ∧ Along P (step s op) ops

/-- `C` holds of every step of the run: the state before it and its operation. -/
def Every (C : σ → Op → Prop) : σ → List Op → Prop
  | _, [] => True
  | s, op :: ops => C s op ∧ Every C (step s op) ops

instance decidableEvery {C : σ → Op → Prop} [∀ s, DecidablePred (C s)] :
    (s : σ) → (ops : List Op) → Decidable (Every step C s ops)
  | _, [] => inferInstanceAs (Decidable True)
  | s, op :: ops =>
    have : Decidable (Every step C (step s op) ops) := decidableEvery (step s op) ops
    inferInstanceAs (Decidable (C s op ∧ Every step C (step s op) ops))

variable {step}

@[simp] theorem exec_nil (s : σ) : exec step s [] = s := rfl

@[simp] theorem exec_cons (s : σ) (op : Op) (ops : List Op) :
    exec step s (op :: ops) = exec step (step s op) ops := rfl

theorem exec_append (s : σ) (ops ops' : List Op) :
    exec step s (ops ++ ops') = exec step (exec step s ops) ops' :=
  List.foldl_append

variable {P : σ → Prop} {s : σ} {ops : List Op}

theorem along_iff_take :
    Along step P s ops ↔ ∀ n, P (exec step s (ops.take n)) := by
  induction ops generalizing s with
  | nil => simp [Along]
  | cons op ops ih =>
    rw [Along, ih]
    constructor
    · rintro ⟨hs, hrest⟩ n
      cases n with
      | zero => exact hs
      | succ n => exact hrest n
    · intro h
      exact ⟨h 0, fun n => h (n + 1)⟩

theorem Along.exec (h : Along step P s ops) :
    P (exec step s ops) := by
  have := along_iff_take.mp h ops.length
  rwa [List.take_length] at this

theorem Along.mono {Q : σ → Prop} (hPQ : ∀ s, P s → Q s) (h : Along step P s ops) :
    Along step Q s ops :=
  along_iff_take.mpr fun n => hPQ _ (along_iff_take.mp h n)

variable {I : σ → Prop} {C : σ → Op → Prop}

/-- **Invariant rule, conditional on steps.** -/
theorem along_of_every (hStep : ∀ s op, I s → C s op → I (step s op)) (h0 : I s)
    (hC : Every step C s ops) : Along step I s ops := by
  induction ops generalizing s with
  | nil => exact h0
  | cons op ops ih => exact ⟨h0, ih (hStep s op h0 hC.1) hC.2⟩

/-- **Invariant rule.** A property kept by every step holds after every run. -/
theorem exec_of_invariant (hStep : ∀ s op, I s → I (step s op)) (h0 : I s) (ops : List Op) :
    I (exec step s ops) := by
  induction ops generalizing s with
  | nil => exact h0
  | cons op ops ih => exact ih (hStep s op h0)

theorem every_of_every {D : σ → Op → Prop} (hStep : ∀ s op, I s → C s op → I (step s op))
    (hD : ∀ s op, I s → C s op → D s op) (h0 : I s) (hC : Every step C s ops) :
    Every step D s ops := by
  induction ops generalizing s with
  | nil => trivial
  | cons op ops ih => exact ⟨hD s op h0 hC.1, ih (hStep s op h0 hC.1) hC.2⟩

theorem every_append {ops' : List Op} :
    Every step C s (ops ++ ops') ↔ Every step C s ops ∧ Every step C (exec step s ops) ops' := by
  induction ops generalizing s with
  | nil => exact (and_iff_right trivial).symm
  | cons op ops ih => rw [List.cons_append, Every, ih, Every, exec_cons, and_assoc]

theorem Every.mono {D : σ → Op → Prop} (hCD : ∀ s op, C s op → D s op) (h : Every step C s ops) :
    Every step D s ops := by
  induction ops generalizing s with
  | nil => trivial
  | cons op ops ih => exact ⟨hCD s op h.1, ih h.2⟩

theorem Every.and {D : σ → Op → Prop} (hC : Every step C s ops) (hD : Every step D s ops) :
    Every step (fun s op => C s op ∧ D s op) s ops := by
  induction ops generalizing s with
  | nil => trivial
  | cons op ops ih => exact ⟨⟨hC.1, hD.1⟩, ih hC.2 hD.2⟩

/-- **Exact condition for a run, under assumptions on its steps.** If the invariant implies the
property, steps inside the condition keep the invariant and steps outside it break the
property, then a run has the property throughout iff all its steps meet the condition. -/
theorem along_iff_every_of {H : σ → Op → Prop} (hP : ∀ s, I s → P s)
    (hStep : ∀ s op, I s → H s op → C s op → I (step s op))
    (hBreak : ∀ s op, I s → H s op → ¬ C s op → ¬ P (step s op)) (h0 : I s)
    (hH : Every step H s ops) :
    Along step P s ops ↔ Every step C s ops := by
  induction ops generalizing s with
  | nil => exact iff_of_true (hP s h0) trivial
  | cons op ops ih =>
    by_cases hC : C s op
    · exact and_congr (iff_of_true (hP s h0) hC) (ih (hStep s op h0 hH.1 hC) hH.2)
    · -- the property fails in the next state
      refine iff_of_false (fun h => hBreak s op h0 hH.1 hC ?_) fun h => hC h.1
      cases ops with
      | nil => exact h.2
      | cons op' ops' => exact h.2.1

theorem every_true (ops : List Op) : Every step (fun _ _ => True) s ops := by
  induction ops generalizing s with
  | nil => trivial
  | cons op ops ih => exact ⟨trivial, ih⟩

/-- **Exact condition for a run.** -/
theorem along_iff_every (hP : ∀ s, I s → P s) (hStep : ∀ s op, I s → C s op → I (step s op))
    (hBreak : ∀ s op, I s → ¬ C s op → ¬ P (step s op)) (h0 : I s) (ops : List Op) :
    Along step P s ops ↔ Every step C s ops :=
  along_iff_every_of hP (fun s op h _ => hStep s op h) (fun s op h _ => hBreak s op h) h0
    (every_true ops)

-- ------ Measures

/-- The states of an infinite run. -/
def trace (step : σ → Op → σ) (s : σ) (ops : ℕ → Op) : ℕ → σ
  | 0 => s
  | t + 1 => step (trace step s ops t) (ops t)

theorem trace_of_invariant (hStep : ∀ s op, I s → I (step s op)) (h0 : I s) (ops : ℕ → Op) (t : ℕ) :
    I (trace step s ops t) := by
  induction t with
  | zero => exact h0
  | succ t ih => exact hStep _ _ ih

theorem trace_mono {ops : ℕ → Op}
    (hStep : ∀ t, P (trace step s ops t) → P (trace step s ops (t + 1))) {t t' : ℕ} (hLe : t ≤ t')
    (h : P (trace step s ops t)) : P (trace step s ops t') := by
  induction hLe with
  | refl => exact h
  | step _ ih => exact hStep _ ih

/-- **Fair runs end.** No step raises the measure, and as long as the goal is not reached
some later step lowers it. -/
theorem eventually_of_measure {μ : σ → ℕ} {ops : ℕ → Op}
    (hLe : ∀ t, μ (trace step s ops (t + 1)) ≤ μ (trace step s ops t))
    (hLt : ∀ t, ¬ P (trace step s ops t) →
      ∃ t' ≥ t, μ (trace step s ops (t' + 1)) < μ (trace step s ops t')) :
    ∃ t, P (trace step s ops t) := by
  have hMono : ∀ t t', t ≤ t' → μ (trace step s ops t') ≤ μ (trace step s ops t) := by
    intro t t' h
    induction h with
    | refl => exact (Nat.le_refl _)
    | step _ ih => exact Nat.le_trans (hLe _) ih
  suffices h : ∀ n t, μ (trace step s ops t) ≤ n → ∃ t, P (trace step s ops t) from
    h _ 0 (Nat.le_refl _)
  intro n
  -- induction on a bound of the measure; a lowering step leads below the bound
  induction n with
  | zero =>
    intro t ht
    by_contra hNone
    obtain ⟨t', htt', hLower⟩ := hLt t fun h => hNone ⟨t, h⟩
    have := hMono t t' htt'
    omega
  | succ n ih =>
    intro t ht
    by_cases hP : P (trace step s ops t)
    · exact ⟨t, hP⟩
    · obtain ⟨t', htt', hLower⟩ := hLt t hP
      have := hMono t t' htt'
      exact ih (t' + 1) (by omega)

theorem exists_run_of_measure {μ : σ → ℕ} (hStep : ∀ s op, I s → C s op → I (step s op))
    (hNext : ∀ s, I s → ¬ P s → ∃ op, C s op ∧ μ (step s op) < μ s) (h0 : I s) :
    ∃ ops, Every step C s ops ∧ P (exec step s ops) := by
  suffices h : ∀ n s, I s → μ s ≤ n → ∃ ops, Every step C s ops ∧ P (exec step s ops) from
    h _ s h0 (Nat.le_refl _)
  intro n
  induction n with
  | zero =>
    intro s hs hn
    by_cases hP : P s
    · exact ⟨[], trivial, hP⟩
    · obtain ⟨op, -, hLower⟩ := hNext s hs hP
      omega
  | succ n ih =>
    intro s hs hn
    by_cases hP : P s
    · exact ⟨[], trivial, hP⟩
    · obtain ⟨op, hC, hLower⟩ := hNext s hs hP
      obtain ⟨ops, hEvery, hGoal⟩ := ih (step s op) (hStep s op hs hC) (by omega)
      exact ⟨op :: ops, ⟨hC, hEvery⟩, hGoal⟩

end Run
