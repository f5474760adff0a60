import Mathlib.Tactic.Common

/-!
# Loops with a bound

A loop whose body goes on, breaks or raises, and which makes a bounded number of passes.

* `Every P` — `P` holds in every state in which a pass begins.
* `every_congr` — on a loop's invariant two properties of its passes agree.
* `isOk_exec_iff` — a loop returns iff none of its passes raises.
-/

namespace Loop

/-- What a pass of the body leads to. -/
inductive Flow (ε σ : Type*) where
  | next (s : σ)
  | stop (s : σ)
  | raised (e : ε)

variable {ε σ : Type*}

def Flow.state? : Flow ε σ → Option σ
  | .next s => some s
  | .stop s => some s
  | .raised _ => none

variable (body : σ → Flow ε σ)

/-- At most `n` passes. -/
def exec : Nat → σ → Except ε σ
  | 0, s => .ok s
  | n + 1, s =>
    match body s with
    | .next s' => exec n s'
    | .stop s' => .ok s'
    | .raised e => .error e

/-- `P` holds wherever one of `n` passes begins. -/
def Every (P : σ → Prop) : Nat → σ → Prop
  | 0, _ => True
  | n + 1, s => P s ∧ ∀ s', body s = .next s' → Every P n s'

variable {body}

/-- **Invariant rule.** What holds on an invariant of the body holds at every pass. -/
theorem every_of_invariant {I P : σ → Prop} (hStep : ∀ s s', I s → body s = .next s' → I s')
    (hP : ∀ s, I s → P s) {n : Nat} {s : σ} (h0 : I s) : Every body P n s := by
  induction n generalizing s with
  | zero => trivial
  | succ n ih => exact ⟨hP s h0, fun s' hNext => ih (hStep s s' h0 hNext)⟩

theorem Every.mono {P Q : σ → Prop} (hPQ : ∀ s, P s → Q s) {n : Nat} {s : σ}
    (h : Every body P n s) : Every body Q n s := by
  induction n generalizing s with
  | zero => trivial
  | succ n ih => exact ⟨hPQ s h.1, fun s' hNext => ih (h.2 s' hNext)⟩

theorem Every.and {P Q : σ → Prop} {n : Nat} {s : σ} (hP : Every body P n s)
    (hQ : Every body Q n s) : Every body (fun s => P s ∧ Q s) n s := by
  induction n generalizing s with
  | zero => trivial
  | succ n ih =>
    exact ⟨⟨hP.1, hQ.1⟩, fun s' hNext => ih (hP.2 s' hNext) (hQ.2 s' hNext)⟩

theorem every_congr {I P Q : σ → Prop} (hStep : ∀ s s', I s → body s = .next s' → I s')
    (hPQ : ∀ s, I s → (P s ↔ Q s)) {n : Nat} {s : σ} (h0 : I s) :
    Every body P n s ↔ Every body Q n s := by
  have hI : Every body I n s := every_of_invariant hStep (fun _ h => h) h0
  constructor
  · intro hP
    exact (hI.and hP).mono fun s' h => (hPQ s' h.1).mp h.2
  · intro hQ
    exact (hI.and hQ).mono fun s' h => (hPQ s' h.1).mpr h.2

/-- **A loop returns** iff none of its passes raises. -/
theorem isOk_exec_iff {n : Nat} {s : σ} :
    (∃ s', exec body n s = .ok s') ↔ Every body (fun s => ((body s).state?).isSome) n s := by
  induction n generalizing s with
  | zero => exact ⟨fun _ => trivial, fun _ => ⟨s, rfl⟩⟩
  | succ n ih =>
    rw [exec, Every]
    cases hBody : body s with
    | next s1 =>
      have hRest : (∀ s', Flow.next s1 = (Flow.next s' : Flow ε σ) →
          Every body (fun s => ((body s).state?).isSome) n s') ↔
          Every body (fun s => ((body s).state?).isSome) n s1 :=
        ⟨fun h => h s1 rfl, fun h s' hEq => by cases hEq; exact h⟩
      rw [hRest, ← ih]
      simp [Flow.state?]
    | stop s1 => simp [Flow.state?]
    | raised e => simp [Flow.state?]

end Loop
