import Mathlib.Tactic.Common

/-!
# Programs that change a state and may raise

`EStateM ε σ α` keeps the state at a raise, as the mutations of an imperative program
stay when it raises. `Keeps P m`: whether `m` returns or raises, it leaves a state of
`P` in a state of `P`.

* `keeps_bind`, `keeps_foldlM` — sequences and loops keep what their parts keep.
* `Ends` — what holds at the return and what holds at the raise; `ends_bind` puts the parts
  of a sequence together.
-/

namespace EStateM

universe u

variable {ε σ α β : Type u}

/-- The state a program leaves, at its return or at its raise. -/
def Result.state : Result ε σ α → σ
  | .ok _ s => s
  | .error _ s => s

def after (m : EStateM ε σ α) (s : σ) : σ := (m.run s).state

/-- `P` is kept, whether the program returns or raises. -/
def Keeps (P : σ → Prop) (m : EStateM ε σ α) : Prop := ∀ s, P s → P (m.after s)

variable {P : σ → Prop}

theorem keeps_pure (a : α) : Keeps P (pure a : EStateM ε σ α) := fun _ hs => hs

theorem keeps_throw (e : ε) : Keeps P (throw e : EStateM ε σ α) := fun _ hs => hs

theorem keeps_bind {m : EStateM ε σ α} {f : α → EStateM ε σ β} (hm : Keeps P m)
    (hf : ∀ a, Keeps P (f a)) : Keeps P (m >>= f) := by
  intro s hs
  have hFirst := hm s hs
  unfold after EStateM.run at *
  show P (EStateM.bind m f s).state
  unfold EStateM.bind
  cases hRun : m s with
  | ok a s' =>
    rw [hRun] at hFirst
    exact hf a s' hFirst
  | error e s' =>
    rw [hRun] at hFirst
    exact hFirst

theorem keeps_get_bind {f : σ → EStateM ε σ β} (hf : ∀ s, P s → P ((f s).after s)) :
    Keeps P (get >>= f) :=
  fun s hs => hf s hs

theorem keeps_modify {f : σ → σ} (hf : ∀ s, P s → P (f s)) :
    Keeps P (modify f : EStateM ε σ PUnit) := hf

theorem keeps_modifyGet {f : σ → α × σ} (hf : ∀ s, P s → P (f s).2) :
    Keeps P (modifyGet f : EStateM ε σ α) := hf

theorem keeps_tryCatch {m : EStateM ε σ α} {handler : ε → EStateM ε σ α} (hm : Keeps P m)
    (hHandler : ∀ e, Keeps P (handler e)) : Keeps P (tryCatch m handler) := by
  intro s hs
  have hFirst := hm s hs
  unfold after EStateM.run at *
  show P (EStateM.tryCatch m handler s).state
  unfold EStateM.tryCatch
  cases hRun : m s with
  | ok a s' =>
    rw [hRun] at hFirst
    exact hFirst
  | error e s' =>
    rw [hRun] at hFirst
    exact hHandler e s' hFirst

theorem keeps_forM {γ : Type*} {f : γ → EStateM ε σ PUnit} (l : List γ)
    (hf : ∀ c ∈ l, Keeps P (f c)) : Keeps P (l.forM f) := by
  induction l with
  | nil => exact keeps_pure PUnit.unit
  | cons c l ih =>
    exact keeps_bind (hf c List.mem_cons_self) fun _ =>
      ih fun c' hc' => hf c' (List.mem_cons_of_mem c hc')

theorem keeps_foldlM {γ : Type*} {f : β → γ → EStateM ε σ β} (l : List γ)
    (hf : ∀ b c, c ∈ l → Keeps P (f b c)) (b : β) : Keeps P (l.foldlM f b) := by
  induction l generalizing b with
  | nil => exact keeps_pure b
  | cons c l ih =>
    rw [List.foldlM_cons]
    exact keeps_bind (hf b c List.mem_cons_self)
      fun b' => ih (fun b'' c' hc' => hf b'' c' (List.mem_cons_of_mem c hc')) b'

-- ------ Both ends

/-- From `s` the program returns with `Q`, or raises with `E`. -/
def Ends (m : EStateM ε σ α) (s : σ) (Q : α → σ → Prop) (E : ε → σ → Prop) : Prop :=
  match m.run s with
  | .ok a s' => Q a s'
  | .error e s' => E e s'

variable {Q : α → σ → Prop} {E : ε → σ → Prop} {s : σ}

theorem ends_pure {a : α} (h : Q a s) : Ends (pure a) s Q E := h

theorem ends_throw {e : ε} (h : E e s) : Ends (throw e : EStateM ε σ α) s Q E := h

theorem Ends.mono {Q' : α → σ → Prop} {E' : ε → σ → Prop} {m : EStateM ε σ α} (h : Ends m s Q E)
    (hQ : ∀ a s', Q a s' → Q' a s') (hE : ∀ e s', E e s' → E' e s') : Ends m s Q' E' := by
  unfold Ends at *
  cases hRun : m.run s with
  | ok a s' =>
    rw [hRun] at h
    exact hQ a s' h
  | error e s' =>
    rw [hRun] at h
    exact hE e s' h

theorem Ends.raising {E' : ε → σ → Prop} {m : EStateM ε σ α} (h : Ends m s Q E)
    (hE : ∀ e s', E e s' → E' e s') : Ends m s Q E' :=
  h.mono (fun _ _ hQ => hQ) hE

theorem ends_self (m : EStateM ε σ α) (s : σ) :
    Ends m s (fun a s' => m.run s = .ok a s') fun e s' => m.run s = .error e s' := by
  unfold Ends
  cases m.run s with
  | ok a s' => rfl
  | error e s' => rfl

theorem ends_true (m : EStateM ε σ α) (s : σ) : Ends m s (fun _ _ => True) fun _ _ => True :=
  (ends_self m s).mono (fun _ _ _ => trivial) fun _ _ _ => trivial

theorem Ends.and {Q' : α → σ → Prop} {E' : ε → σ → Prop} {m : EStateM ε σ α} (h : Ends m s Q E)
    (h' : Ends m s Q' E') :
    Ends m s (fun a s' => Q a s' ∧ Q' a s') fun e s' => E e s' ∧ E' e s' := by
  unfold Ends at *
  cases hRun : m.run s with
  | ok a s' =>
    rw [hRun] at h h'
    exact ⟨h, h'⟩
  | error e s' =>
    rw [hRun] at h h'
    exact ⟨h, h'⟩

theorem ends_bind {Q' : β → σ → Prop} {m : EStateM ε σ α} {f : α → EStateM ε σ β}
    (hm : Ends m s Q E) (hf : ∀ a s', Q a s' → Ends (f a) s' Q' E) : Ends (m >>= f) s Q' E := by
  unfold Ends EStateM.run at *
  show match EStateM.bind m f s with
    | .ok b s' => Q' b s'
    | .error e s' => E e s'
  unfold EStateM.bind
  cases hRun : m s with
  | ok a s' =>
    rw [hRun] at hm
    exact hf a s' hm
  | error e s' =>
    rw [hRun] at hm
    exact hm

theorem ends_foldlM {γ : Type*} {I : σ → Prop} {f : β → γ → EStateM ε σ β} (l : List γ)
    (hf : ∀ b c s, c ∈ l → I s → Ends (f b c) s (fun _ => I) E) (b : β) (hs : I s) :
    Ends (l.foldlM f b) s (fun _ => I) E := by
  induction l generalizing b s with
  | nil => exact ends_pure hs
  | cons c l ih =>
    rw [List.foldlM_cons]
    refine ends_bind (hf b c s List.mem_cons_self hs) fun b' s' hs' => ?_
    exact ih (fun b'' c' s'' hc' => hf b'' c' s'' (List.mem_cons_of_mem c hc')) b' hs'

theorem ends_get_bind {f : σ → EStateM ε σ α} (h : Ends (f s) s Q E) :
    Ends (get >>= f) s Q E := h

theorem ends_modify {f : σ → σ} {Q : PUnit → σ → Prop} (h : Q ⟨⟩ (f s)) :
    Ends (modify f : EStateM ε σ PUnit) s Q E := h

theorem ends_modifyGet {f : σ → α × σ} (h : Q (f s).1 (f s).2) :
    Ends (modifyGet f : EStateM ε σ α) s Q E := h

theorem ends_tryCatch {m : EStateM ε σ α} {handler : ε → EStateM ε σ α} {E' : ε → σ → Prop}
    (hm : Ends m s Q E') (hHandler : ∀ e s', E' e s' → Ends (handler e) s' Q E) :
    Ends (tryCatch m handler) s Q E := by
  unfold Ends EStateM.run at *
  show match EStateM.tryCatch m handler s with
    | .ok b s' => Q b s'
    | .error e s' => E e s'
  unfold EStateM.tryCatch
  cases hRun : m s with
  | ok a s' =>
    rw [hRun] at hm
    exact hm
  | error e s' =>
    rw [hRun] at hm
    exact hHandler e s' hm

theorem Ends.ok {m : EStateM ε σ α} (h : Ends m s Q E) {a : α} {s' : σ}
    (hRun : m.run s = .ok a s') : Q a s' := by
  unfold Ends at h
  rwa [hRun] at h

theorem Ends.error {m : EStateM ε σ α} (h : Ends m s Q E) {e : ε} {s' : σ}
    (hRun : m.run s = .error e s') : E e s' := by
  unfold Ends at h
  rwa [hRun] at h

theorem Ends.after {m : EStateM ε σ α} (h : Ends m s (fun _ => P) fun _ => P) : P (m.after s) := by
  unfold Ends at h
  unfold EStateM.after
  cases hRun : m.run s with
  | ok a s' =>
    rw [hRun] at h
    exact h
  | error e s' =>
    rw [hRun] at h
    exact h

theorem Keeps.ends {m : EStateM ε σ α} (h : Keeps P m) (hs : P s) :
    Ends m s (fun _ => P) fun _ => P := by
  have hAfter := h s hs
  unfold after at hAfter
  unfold Ends
  cases hRun : m.run s with
  | ok a s' =>
    rw [hRun] at hAfter
    exact hAfter
  | error e s' =>
    rw [hRun] at hAfter
    exact hAfter

theorem keeps_adaptExcept {ε' : Type u} {m : EStateM ε σ α} (h : Keeps P m) (f : ε → ε') :
    Keeps P (m.adaptExcept f) := by
  intro s hs
  have hAfter := h s hs
  unfold after EStateM.run at *
  unfold EStateM.adaptExcept
  cases hRun : m s with
  | ok a s' =>
    rw [hRun] at hAfter
    exact hAfter
  | error e s' =>
    rw [hRun] at hAfter
    exact hAfter

end EStateM
