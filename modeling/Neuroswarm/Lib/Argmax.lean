import Mathlib.Data.List.MinMax
import Mathlib.Data.List.Sort

/-!
# The first greatest element of a changing list

`List.argmax` is what a scripting language's `max(l, key=..)` returns. Here is what
happens to it when the list grows at its end or loses elements, and where it stands in
the sorted list.

* `argmax_concat_eq_last` — when a new last element takes its place.
* `argmax_filter` — removing others does not change it.
* `head?_insertionSort` — it heads the list that is stably sorted by falling keys.
-/

namespace List

variable {α β : Type*} [LinearOrder β] {key : α → β}

theorem argmax_concat_eq_last {l : List α} {a : α} (ha : a ∉ l) :
    argmax key (l ++ [a]) = some a ↔ ∀ b ∈ l, key b < key a := by
  rw [argmax_concat]
  cases hMax : argmax key l with
  | none =>
    obtain rfl := argmax_eq_none.mp hMax
    simp
  | some c =>
    have hc : c ∈ l := argmax_mem hMax
    show (if key c < key a then some a else some c) = some a ↔ _
    by_cases hLt : key c < key a
    · rw [if_pos hLt]
      exact iff_of_true rfl fun b hb => (le_of_mem_argmax hb hMax).trans_lt hLt
    · rw [if_neg hLt]
      refine iff_of_false (fun h => ?_) fun h => hLt (h c hc)
      exact ha (Option.some.inj h ▸ hc)

theorem argmax_filter {l : List α} {a : α} {p : α → Bool} (h : argmax key l = some a)
    (ha : p a = true) : argmax key (l.filter p) = some a := by
  induction l generalizing a with
  | nil => simp at h
  | cons b l ih =>
    rw [argmax_cons] at h
    cases hRest : argmax key l with
    | none =>
      obtain rfl := argmax_eq_none.mp hRest
      simp only [hRest, Option.some.injEq] at h
      rw [h, filter_cons_of_pos ha]
      rfl
    | some c =>
      simp only [hRest] at h
      by_cases hLt : key b < key c
      · -- the first greatest element is in the tail, whether or not the head is kept
        rw [if_pos hLt] at h
        cases h
        by_cases hb : p b = true
        · rw [filter_cons_of_pos hb, argmax_cons, ih hRest ha]
          exact if_pos hLt
        · rw [filter_cons_of_neg hb]
          exact ih hRest ha
      · rw [if_neg hLt] at h
        cases h
        rw [filter_cons_of_pos ha, argmax_cons]
        cases hFilter : argmax key (l.filter p) with
        | none => rfl
        | some d =>
          have hd : d ∈ l := (mem_filter.mp (argmax_mem hFilter)).1
          exact if_neg fun h => hLt (h.trans_le (le_of_mem_argmax hd hRest))

theorem head?_insertionSort (l : List α) :
    (l.insertionSort fun a b => key b ≤ key a).head? = argmax key l := by
  induction l with
  | nil => rfl
  | cons a l ih =>
    rw [insertionSort_cons, argmax_cons, ← ih]
    cases hSorted : l.insertionSort fun a b => key b ≤ key a with
    | nil => rfl
    | cons b rest =>
      rw [orderedInsert_cons]
      show _ = if key a < key b then some b else some a
      by_cases h : key b ≤ key a
      · rw [if_pos h, if_neg (not_lt.mpr h)]
        rfl
      · rw [if_neg h, if_pos (not_le.mp h)]
        rfl

end List
