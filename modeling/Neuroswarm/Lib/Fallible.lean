import Mathlib.Data.List.Forall2
import Mathlib.Tactic.Common

/-!
# Computations that may fail

Inversion of sequences and of `mapM` in `Except`, and of `mapM` in `Option`.

* `bind_eq_ok` — both parts of a sequence succeed.
* `mem_of_mapM` — the results of `mapM`; `mapM_isOk` — when there are any.
* `foldlM_bind_eq_ok` — a loop whose steps read something first.
* `Option.mapM_eq_some_iff` — a mapped list, item by item.
* `Rel` — two computations fail alike or have related results; `Rel.bind`, `Rel.mapM`,
  `Rel.foldlM`.
-/

namespace Except

universe u v

variable {ε : Type u} {α β : Type v}

variable {f : α → Except ε β}

variable {x : Except ε α}

theorem bind_eq_ok {b : β} :
    (x >>= f) = .ok b ↔ ∃ a, x = .ok a ∧ f a = .ok b := by
  cases x with
  | error e => exact iff_of_false (fun h => nomatch h) (by simp)
  | ok a =>
    constructor
    · exact fun h => ⟨a, rfl, h⟩
    · rintro ⟨a', ha', h⟩
      cases ha'
      exact h

theorem map_eq_ok {f : α → β} {b : β} :
    x.map f = .ok b ↔ ∃ a, x = .ok a ∧ f a = b := by
  cases x with
  | error e => exact iff_of_false (fun h => nomatch h) (by simp)
  | ok a => simp [Except.map]

theorem isOk_iff : x.isOk = true ↔ ∃ a, x = .ok a := by
  cases x with
  | error e => exact iff_of_false (fun h => nomatch h) (by simp)
  | ok a => exact iff_of_true rfl ⟨a, rfl⟩

theorem toOption_eq_some {a : α} : x.toOption = some a ↔ x = .ok a := by
  cases x with
  | error e => exact iff_of_false (fun h => nomatch h) (fun h => nomatch h)
  | ok b => simp [Except.toOption]

variable {l : List α}

theorem mapM_cons_ok {a : α} {bs : List β} :
    (a :: l).mapM f = .ok bs ↔ ∃ b rest, f a = .ok b ∧ l.mapM f = .ok rest ∧ bs = b :: rest := by
  rw [List.mapM_cons, bind_eq_ok]
  refine exists_congr fun b => ?_
  rw [bind_eq_ok]
  constructor
  · rintro ⟨ha, rest, hRest, hEq⟩
    cases hEq
    exact ⟨rest, ha, hRest, rfl⟩
  · rintro ⟨rest, ha, hRest, rfl⟩
    exact ⟨ha, rest, hRest, rfl⟩

theorem mem_of_mapM {bs : List β} (h : l.mapM f = .ok bs) {b : β} :
    b ∈ bs ↔ ∃ a ∈ l, f a = .ok b := by
  induction l generalizing bs with
  | nil =>
    cases h
    simp
  | cons a l ih =>
    obtain ⟨b', rest, ha, hRest, rfl⟩ := mapM_cons_ok.mp h
    rw [List.mem_cons, ih hRest]
    constructor
    · rintro (rfl | ⟨a', ha', hOk⟩)
      · exact ⟨a, List.mem_cons_self, ha⟩
      · exact ⟨a', List.mem_cons_of_mem a ha', hOk⟩
    · rintro ⟨a', ha', hOk⟩
      rcases List.mem_cons.mp ha' with rfl | hMem
      · exact .inl (ok.inj (hOk.symm.trans ha))
      · exact .inr ⟨a', hMem, hOk⟩

theorem mapM_isOk :
    (l.mapM f).isOk = true ↔ ∀ a ∈ l, (f a).isOk = true := by
  simp only [isOk_iff]
  induction l with
  | nil => exact iff_of_true ⟨[], rfl⟩ (by simp)
  | cons a l ih =>
    rw [List.forall_mem_cons, ← ih]
    constructor
    · rintro ⟨bs, h⟩
      obtain ⟨b, rest, ha, hRest, -⟩ := mapM_cons_ok.mp h
      exact ⟨⟨b, ha⟩, rest, hRest⟩
    · rintro ⟨⟨b, ha⟩, rest, hRest⟩
      exact ⟨b :: rest, mapM_cons_ok.mpr ⟨b, rest, ha, hRest, rfl⟩⟩

theorem mapM_eq_ok {g : α → β} (h : ∀ a ∈ l, f a = .ok (g a)) :
    l.mapM f = .ok (l.map g) := by
  induction l with
  | nil => rfl
  | cons a l ih =>
    have hRest := ih fun a' ha' => h a' (List.mem_cons_of_mem a ha')
    exact mapM_cons_ok.mpr ⟨g a, l.map g, h a List.mem_cons_self, hRest, rfl⟩

theorem foldlM_bind_eq_ok {σ : Type v} {g : α → Except ε β} {h : σ → α → β → σ} {s s' : σ} :
    l.foldlM (fun s a => g a >>= fun b => .ok (h s a b)) s = .ok s' ↔
      ∃ bs, l.mapM g = .ok bs ∧ (l.zip bs).foldl (fun s p => h s p.1 p.2) s = s' := by
  induction l generalizing s with
  | nil =>
    constructor
    · intro hDone
      cases hDone
      exact ⟨[], rfl, rfl⟩
    · rintro ⟨bs, -, rfl⟩
      rfl
  | cons a l ih =>
    rw [List.foldlM_cons, bind_eq_ok]
    constructor
    · rintro ⟨s₁, hStep, hRest⟩
      obtain ⟨b, hb, hNext⟩ := bind_eq_ok.mp hStep
      cases hNext
      obtain ⟨bs, hBs, hFold⟩ := ih.mp hRest
      exact ⟨b :: bs, mapM_cons_ok.mpr ⟨b, bs, hb, hBs, rfl⟩, hFold⟩
    · rintro ⟨bs, hBs, hFold⟩
      obtain ⟨b, rest, hb, hRest, rfl⟩ := mapM_cons_ok.mp hBs
      exact ⟨h s a b, bind_eq_ok.mpr ⟨b, hb, rfl⟩, ih.mpr ⟨rest, hRest, hFold⟩⟩

theorem mapM_of_forall_error {e : ε} (h : ∀ a ∈ l, f a = .error e) (hNe : l ≠ []) :
    l.mapM f = .error e := by
  cases l with
  | nil => exact absurd rfl hNe
  | cons a l =>
    rw [List.mapM_cons, h a List.mem_cons_self]
    rfl

theorem foldlM_of_forall_error {σ : Type v} {f : σ → α → Except ε σ} {e : ε}
    (h : ∀ s, ∀ a ∈ l, f s a = .error e) (hNe : l ≠ []) (s : σ) : l.foldlM f s = .error e := by
  cases l with
  | nil => exact absurd rfl hNe
  | cons a l =>
    rw [List.foldlM_cons, h s a List.mem_cons_self]
    rfl

-- ------ Related computations

/-- The same error, or related results. -/
inductive Rel {α β : Type*} (R : α → β → Prop) : Except ε α → Except ε β → Prop
  | error (e : ε) : Rel R (.error e) (.error e)
  | ok {a : α} {b : β} (h : R a b) : Rel R (.ok a) (.ok b)

namespace Rel

variable {α' β' σ σ' : Type v} {R : α → α' → Prop} {S : β → β' → Prop} {T : σ → σ' → Prop}

theorem refl {R : α → α → Prop} (h : ∀ a, R a a) (x : Except ε α) : Rel R x x := by
  cases x with
  | error e => exact .error e
  | ok a => exact .ok (h a)

theorem eq {x y : Except ε α} (h : Rel (· = ·) x y) : x = y := by
  cases h with
  | error e => rfl
  | ok h => rw [h]

theorem of_map_eq {f : α → β} {x y : Except ε α} (h : x.map f = y.map f) :
    Rel (fun a b => f a = f b) x y := by
  cases x with
  | error e =>
    cases y with
    | error e' =>
      cases h
      exact .error e
    | ok b => cases h
  | ok a =>
    cases y with
    | error e' => cases h
    | ok b => exact .ok (Except.ok.inj h)

theorem bind {x : Except ε α} {y : Except ε α'} {f : α → Except ε β} {g : α' → Except ε β'}
    (h : Rel R x y) (hNext : ∀ a b, R a b → Rel S (f a) (g b)) : Rel S (x >>= f) (y >>= g) := by
  cases h with
  | error e => exact .error e
  | ok h => exact hNext _ _ h

theorem mapM {f : α → Except ε β} {g : α' → Except ε β'} {l : List α} {l' : List α'}
    (hList : List.Forall₂ R l l') (hStep : ∀ a b, R a b → Rel S (f a) (g b)) :
    Rel (List.Forall₂ S) (l.mapM f) (l'.mapM g) := by
  induction hList with
  | nil => exact .ok .nil
  | cons hHead _ ih =>
    rw [List.mapM_cons, List.mapM_cons]
    refine (hStep _ _ hHead).bind fun b b' hb => ?_
    exact ih.bind fun bs bs' hBs => .ok (.cons hb hBs)

theorem foldlM {f : σ → α → Except ε σ} {g : σ' → α' → Except ε σ'} {l : List α} {l' : List α'}
    (hList : List.Forall₂ R l l')
    (hStep : ∀ s s' a b, T s s' → R a b → Rel T (f s a) (g s' b)) {s : σ} {s' : σ'}
    (h : T s s') : Rel T (l.foldlM f s) (l'.foldlM g s') := by
  induction hList generalizing s s' with
  | nil => exact .ok h
  | cons hHead _ ih =>
    rw [List.foldlM_cons, List.foldlM_cons]
    exact (hStep _ _ _ _ h hHead).bind fun _ _ hNext => ih hNext

end Rel

end Except

namespace Option

theorem isSome_of_mapM {α β : Type*} {f : α → Option β} {l : List α} {bs : List β}
    (h : l.mapM f = some bs) : ∀ a ∈ l, (f a).isSome := by
  induction l generalizing bs with
  | nil => exact fun a ha => absurd ha List.not_mem_nil
  | cons b l ih =>
    rw [List.mapM_cons] at h
    obtain ⟨b', hb', h⟩ := Option.bind_eq_some_iff.mp h
    obtain ⟨bs', hbs', -⟩ := Option.bind_eq_some_iff.mp h
    intro a ha
    rcases List.mem_cons.mp ha with rfl | ha
    · exact hb' ▸ rfl
    · exact ih hbs' a ha

theorem mapM_eq_some_iff {α β : Type*} {f : α → Option β} {l : List α} {bs : List β} :
    l.mapM f = some bs ↔ List.Forall₂ (fun a b => f a = some b) l bs := by
  induction l generalizing bs with
  | nil => simp [eq_comm]
  | cons a l ih =>
    rw [List.mapM_cons, List.forall₂_cons_left_iff]
    constructor
    · intro h
      obtain ⟨b, hb, h⟩ := Option.bind_eq_some_iff.mp h
      obtain ⟨rest, hRest, h⟩ := Option.bind_eq_some_iff.mp h
      exact ⟨b, rest, hb, ih.mp hRest, (Option.some.inj h).symm⟩
    · rintro ⟨b, rest, hb, hRest, rfl⟩
      rw [hb, ih.mpr hRest]
      rfl

theorem exists_mapM_eq_some {α β : Type*} {f : α → Option β} {l : List α}
    (h : ∀ a ∈ l, ∃ b, f a = some b) : ∃ bs, l.mapM f = some bs := by
  induction l with
  | nil => exact ⟨[], rfl⟩
  | cons a l ih =>
    obtain ⟨b, hb⟩ := h a List.mem_cons_self
    obtain ⟨bs, hbs⟩ := ih fun a ha => h a (List.mem_cons_of_mem _ ha)
    refine ⟨b :: bs, ?_⟩
    rw [List.mapM_cons, hb, hbs]
    rfl

end Option
