import Mathlib.Data.List.Basic
import Mathlib.Tactic.Common

/-!
# Words of a text

A text over any alphabet, cut into words at runs of blanks: no word is empty and none
holds a blank.

* `split_append` — two texts are split one after the other where a blank separates them.
* `split_join`, `split_intercalate` — splitting undoes joining with blanks.
* `join_take_split_iff` — when the first words of a text spell a given beginning of it.
-/

namespace Words

variable {α : Type*} (blank : α → Bool)

/-- Put a word in front of others, unless it is empty. -/
def push : List α × List (List α) → List (List α)
  | ([], ws) => ws
  | (c :: w, ws) => (c :: w) :: ws

/-- What stands before the first blank, and the words after it. -/
def cut : List α → List α × List (List α)
  | [] => ([], [])
  | c :: s => if blank c then ([], push (cut s)) else (c :: (cut s).1, (cut s).2)

def split (s : List α) : List (List α) := push (cut blank s)

/-- Words set side by side with one separator between them. -/
def join (sep : α) (ws : List (List α)) : List α := [sep].intercalate ws

def IsWord (w : List α) : Prop := w ≠ [] ∧ ∀ c ∈ w, blank c = false

/-- The text is empty or starts with a blank. -/
def Starts (s : List α) : Prop := ∀ c, s.head? = some c → blank c = true

variable {blank}

-- ------ Splitting

@[simp] theorem split_nil : split blank [] = [] := rfl

theorem split_cons_blank {c : α} (hc : blank c = true) (s : List α) :
    split blank (c :: s) = split blank s := by
  rw [split, cut, if_pos hc]
  rfl

theorem cut_fst_of_starts {s : List α} (h : Starts blank s) : (cut blank s).1 = [] := by
  cases s with
  | nil => rfl
  | cons c s => rw [cut, if_pos (h c rfl)]

theorem push_append (w : List α) (ws ws' : List (List α)) :
    push (w, ws ++ ws') = push (w, ws) ++ ws' := by
  cases w <;> rfl

theorem split_append {s t : List α} (h : Starts blank t) :
    split blank (s ++ t) = split blank s ++ split blank t := by
  have hCut : cut blank (s ++ t) = ((cut blank s).1, (cut blank s).2 ++ split blank t) := by
    induction s with
    | nil =>
      rw [List.nil_append, cut, List.nil_append, split]
      rcases hEq : cut blank t with ⟨w, ws⟩
      obtain rfl : w = [] := by
        have := cut_fst_of_starts h
        rwa [hEq] at this
      rfl
    | cons c s ih =>
      rw [List.cons_append, cut, cut, ih]
      split
      · rw [push_append]
      · rfl
  unfold split
  rw [hCut, push_append]
  rfl

variable {w : List α}

theorem cut_letters_append (hw : ∀ c ∈ w, blank c = false) (s : List α) :
    cut blank (w ++ s) = (w ++ (cut blank s).1, (cut blank s).2) := by
  induction w with
  | nil => rfl
  | cons c w ih =>
    have hc : ¬ blank c = true := by simp [hw c (List.mem_cons_self ..)]
    rw [List.cons_append, cut, if_neg hc, ih fun c' h => hw c' (List.mem_cons_of_mem _ h)]
    rfl

theorem split_word_append (hw : IsWord blank w) (s : List α) :
    split blank (w ++ s) = (w ++ (cut blank s).1) :: (cut blank s).2 := by
  obtain ⟨c, w', rfl⟩ := List.exists_cons_of_ne_nil hw.1
  rw [split, cut_letters_append hw.2]
  rfl

theorem split_word (hw : IsWord blank w) : split blank w = [w] := by
  have := split_word_append hw []
  rwa [List.append_nil, cut, List.append_nil] at this

theorem isWord_of_mem_split {s : List α} (h : w ∈ split blank s) : IsWord blank w := by
  suffices hCut : (∀ c ∈ (cut blank s).1, blank c = false) ∧
      ∀ v ∈ (cut blank s).2, IsWord blank v by
    rw [split] at h
    rcases hEq : cut blank s with ⟨u, us⟩
    rw [hEq] at h hCut
    cases u with
    | nil => exact hCut.2 w h
    | cons c u =>
      rcases List.mem_cons.mp h with rfl | h
      · exact ⟨List.cons_ne_nil _ _, hCut.1⟩
      · exact hCut.2 w h
  clear h
  induction s with
  | nil => simp [cut]
  | cons c s ih =>
    rw [cut]
    split
    · -- the word that the blank ends moves to the words after it
      refine ⟨by simp, fun v hv => ?_⟩
      rcases hEq : cut blank s with ⟨u, us⟩
      rw [hEq] at hv ih
      cases u with
      | nil => exact ih.2 v hv
      | cons c' u =>
        rcases List.mem_cons.mp hv with rfl | hv
        · exact ⟨List.cons_ne_nil _ _, ih.1⟩
        · exact ih.2 v hv
    · next hc =>
      refine ⟨fun c' hc' => ?_, ih.2⟩
      rcases List.mem_cons.mp hc' with rfl | hc'
      · exact Bool.not_eq_true _ ▸ hc
      · exact ih.1 c' hc'

-- ------ Joining

variable {sep : α}

@[simp] theorem join_nil : join sep [] = [] := rfl

@[simp] theorem join_singleton (w : List α) : join sep [w] = w := by
  simp [join]

variable {ws : List (List α)}

theorem join_cons (h : ws ≠ []) :
    join sep (w :: ws) = w ++ sep :: join sep ws := by
  obtain ⟨w', ws', rfl⟩ := List.exists_cons_of_ne_nil h
  simp [join, List.intercalate_cons_cons]

theorem join_concat (h : ws ≠ []) :
    join sep (ws ++ [w]) = join sep ws ++ sep :: w := by
  induction ws with
  | nil => exact absurd rfl h
  | cons v ws ih =>
    by_cases hNil : ws = []
    · subst hNil
      rw [List.singleton_append, join_cons (List.cons_ne_nil _ _), join_singleton, join_singleton]
    · rw [List.cons_append, join_cons (by simp), ih hNil, join_cons hNil, List.append_assoc]
      rfl

theorem starts_cons {c : α} (hc : blank c = true) (s : List α) : Starts blank (c :: s) := by
  intro c' h
  cases h
  exact hc

theorem split_join (hSep : blank sep = true) (hws : ∀ w ∈ ws, IsWord blank w) :
    split blank (join sep ws) = ws := by
  induction ws with
  | nil => rfl
  | cons w ws ih =>
    have hw := hws w (List.mem_cons_self ..)
    have ih := ih fun v hv => hws v (List.mem_cons_of_mem _ hv)
    by_cases hNil : ws = []
    · subst hNil
      rw [join_singleton, split_word hw]
    · rw [join_cons hNil, split_append (starts_cons hSep _), split_word hw, split_cons_blank hSep,
        ih]
      rfl

theorem split_blanks_append {sep : List α} (hSep : ∀ c ∈ sep, blank c = true) (s : List α) :
    split blank (sep ++ s) = split blank s := by
  induction sep with
  | nil => rfl
  | cons c sep ih =>
    rw [List.cons_append, split_cons_blank (hSep c List.mem_cons_self)]
    exact ih fun c' h => hSep c' (List.mem_cons_of_mem c h)

theorem split_intercalate {sep : List α} (hNe : sep ≠ []) (hSep : ∀ c ∈ sep, blank c = true)
    (texts : List (List α)) :
    split blank (sep.intercalate texts) = texts.flatMap (split blank) := by
  induction texts with
  | nil => rfl
  | cons s texts ih =>
    rcases texts with _ | ⟨t, texts⟩
    · simp [List.intercalate]
    · have hStarts : Starts blank (sep ++ sep.intercalate (t :: texts)) := by
        obtain ⟨c, sep, rfl⟩ := List.exists_cons_of_ne_nil hNe
        exact starts_cons (hSep c List.mem_cons_self) _
      rw [List.intercalate_cons_cons, List.append_assoc, split_append hStarts,
        split_blanks_append hSep, ih]
      rfl

theorem join_ne_nil (hws : ∀ w ∈ ws, IsWord blank w) (h : ws ≠ []) :
    join sep ws ≠ [] := by
  obtain ⟨w, ws', rfl⟩ := List.exists_cons_of_ne_nil h
  have hw := (hws w (List.mem_cons_self ..)).1
  by_cases hNil : ws' = []
  · subst hNil
    rwa [join_singleton]
  · rw [join_cons hNil]
    simp [hw]

-- ------ Beginnings of a text

variable (blank) (sep) in
/-- The beginning `p` of the text `p ++ r` is its first `k` words: single separators and
nothing else between its words, no word goes on in `r`, and it has `k` words, or all there
are. -/
structure Aligned (k : Nat) (p r : List α) : Prop where
  spaced : join sep (split blank p) = p
  whole : Starts blank r
  length : (split blank p).length = k ∨ (split blank p).length < k ∧ split blank r = []

theorem starts_of_take_split {k : Nat} {p r : List α} (hSep : blank sep = true)
    (hNe : split blank p ≠ []) (hSpaced : join sep (split blank p) = p)
    (hTake : (split blank (p ++ r)).take k = split blank p) : Starts blank r := by
  intro c hc
  by_contra hLetter
  obtain ⟨r', rfl⟩ : ∃ r', r = c :: r' := by
    cases r with
    | nil => cases hc
    | cons c' r' =>
      cases hc
      exact ⟨r', rfl⟩
  obtain ⟨ws, w, hws⟩ := List.eq_nil_or_concat (split blank p) |>.resolve_left hNe
  rw [List.concat_eq_append] at hws
  have hw : IsWord blank w := isWord_of_mem_split (s := p) (by simp [hws])
  -- the last word of `p` is longer in `p ++ r`
  have hSplit : split blank (p ++ c :: r') =
      ws ++ (w ++ (cut blank (c :: r')).1) :: (cut blank (c :: r')).2 := by
    by_cases hNil : ws = []
    · subst hNil
      have hp : p = w := by rw [← hSpaced, hws, List.nil_append, join_singleton]
      rw [hp, split_word_append hw]
      rfl
    · have hp : p = join sep ws ++ sep :: w := by rw [← hSpaced, hws, join_concat hNil]
      have hJoin : split blank (join sep ws) = ws :=
        split_join hSep fun v hv => isWord_of_mem_split (s := p) (by simp [hws, hv])
      rw [hp, List.append_assoc, List.cons_append, split_append (starts_cons hSep _), hJoin,
        split_cons_blank hSep, split_word_append hw]
  have hFirst : (cut blank (c :: r')).1 = c :: (cut blank r').1 := by
    rw [cut, if_neg hLetter]
  rw [hSplit, hws, hFirst] at hTake
  have hAt := congrArg (fun l => l[ws.length]?) hTake
  simp only [List.getElem?_take, List.getElem?_concat_length] at hAt
  split at hAt
  · rw [List.getElem?_append_right (Nat.le_refl _), Nat.sub_self, List.getElem?_cons_zero,
      Option.some.injEq] at hAt
    have := congrArg List.length hAt
    simp at this
  · cases hAt

/-- **The first `k` words spell `p`** iff `p` is aligned with the words of the text. -/
theorem join_take_split_iff {k : Nat} {p r : List α} (hSep : blank sep = true) (hk : 0 < k)
    (hNe : split blank (p ++ r) ≠ []) :
    join sep ((split blank (p ++ r)).take k) = p ↔ Aligned blank sep k p r := by
  constructor
  · intro h
    have hWords : ∀ w ∈ (split blank (p ++ r)).take k, IsWord blank w := fun w hw =>
      isWord_of_mem_split (List.mem_of_mem_take hw)
    have hSplit : (split blank (p ++ r)).take k = split blank p := by
      rw [← split_join hSep hWords, h]
    have hSpaced : join sep (split blank p) = p := by rw [← hSplit, h]
    have hpNe : split blank p ≠ [] := by
      rw [← hSplit]
      simp [List.take_eq_nil_iff, hNe, Nat.pos_iff_ne_zero.mp hk]
    have hWhole : Starts blank r := starts_of_take_split hSep hpNe hSpaced hSplit
    refine ⟨hSpaced, hWhole, ?_⟩
    have hLen := congrArg List.length hSplit
    rw [split_append hWhole, List.length_take, List.length_append] at hLen
    by_cases hr : split blank r = []
    · rw [hr, List.length_nil] at hLen
      by_cases hEq : (split blank p).length = k
      · exact .inl hEq
      · exact .inr ⟨by omega, hr⟩
    · have := List.length_pos_of_ne_nil hr
      exact .inl (by omega)
  · rintro ⟨hSpaced, hWhole, hLen⟩
    rw [split_append hWhole]
    rcases hLen with hLen | ⟨hLen, hNil⟩
    · rw [← hLen, List.take_left', hSpaced]
      rfl
    · rw [hNil, List.append_nil, List.take_of_length_le (by omega), hSpaced]

end Words
