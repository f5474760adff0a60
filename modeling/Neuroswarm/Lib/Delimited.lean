import Mathlib.Algebra.BigOperators.Group.List.Basic
import Mathlib.Data.List.Basic
import Mathlib.Data.String.Basic

/-!
# Delimited text

When two parts joined by a delimiter can be told apart again.

* `append_cons_inj_of_free` — the first parts do not hold the delimiter.
* `append_sep_injective` — only the second parts are compared.
* `splitOn_map`, `mem_of_mem_splitOn`, `splitOn_concat` — the fields of a changed text, the
  letters of a text and of its fields, the last letter.
-/

namespace Delimited

variable {α : Type*} [DecidableEq α]

omit [DecidableEq α] in
theorem append_cons_inj_of_free {x : α} {a a' b b' : List α} (ha : x ∉ a) (ha' : x ∉ a') :
    a ++ x :: b = a' ++ x :: b' ↔ a = a' ∧ b = b' := by
  induction a generalizing a' with
  | nil =>
    cases a' with
    | nil => simp
    | cons y a' =>
      refine iff_of_false (fun h => ?_) (by simp)
      exact ha' ((List.cons.inj h).1 ▸ List.mem_cons_self)
  | cons y a ih =>
    cases a' with
    | nil =>
      refine iff_of_false (fun h => ?_) (by simp)
      exact ha ((List.cons.inj h).1 ▸ List.mem_cons_self)
    | cons y' a' =>
      rw [List.mem_cons, not_or] at ha ha'
      rw [List.cons_append, List.cons_append, List.cons.injEq, ih ha.2 ha'.2, List.cons.injEq,
        and_assoc]

theorem append_sep_injective {c : Char} {a a' b b' : String} (ha : c ∉ a.toList)
    (hb : c ∉ b.toList)
    (h : a ++ String.singleton c ++ b = a' ++ String.singleton c ++ b') : b = b' := by
  have hChars := congrArg String.toList h
  simp only [String.toList_append, String.toList_singleton, List.append_assoc,
    List.singleton_append] at hChars
  exact String.toList_inj.mp
    ((List.append_cons_inj_of_notMem ha hb).mp hChars).2.2

-- ------ The fields of a text

theorem splitOn_map {f : α → α} {x : α} (hf : ∀ a, f a = x ↔ a = x) (s : List α) :
    (s.map f).splitOn x = (s.splitOn x).map (List.map f) := by
  induction s with
  | nil => rfl
  | cons a s ih =>
    rw [List.map_cons, List.splitOn_cons_eq_if_modifyHead, List.splitOn_cons_eq_if_modifyHead, ih]
    by_cases ha : a = x
    · simp [ha, (hf x).mpr rfl]
    · have hfa : f a ≠ x := fun h => ha ((hf a).mp h)
      simp only [beq_iff_eq, ha, hfa, if_false]
      cases s.splitOn x with
      | nil => rfl
      | cons p ps => rfl

theorem mem_of_mem_splitOn {a x : α} {s : List α} (h : a ∈ s) :
    a = x ∨ ∃ p ∈ s.splitOn x, a ∈ p := by
  induction s with
  | nil => exact absurd h List.not_mem_nil
  | cons b s ih =>
    rw [List.splitOn_cons_eq_if_modifyHead]
    obtain ⟨q, qs, hSplit⟩ := List.exists_cons_of_ne_nil (List.splitOn_ne_nil x s)
    rw [hSplit] at ih ⊢
    by_cases hb : b = x
    · rcases List.mem_cons.mp h with rfl | h
      · exact .inl hb
      · refine (ih h).imp_right ?_
        rintro ⟨p, hp, hap⟩
        exact ⟨p, by simp only [hb, beq_self_eq_true, if_true]; exact List.mem_cons_of_mem _ hp, hap⟩
    · simp only [beq_iff_eq, hb, if_false, List.modifyHead_cons]
      rcases List.mem_cons.mp h with rfl | h
      · exact .inr ⟨a :: q, List.mem_cons_self, List.mem_cons_self⟩
      · refine (ih h).imp_right ?_
        rintro ⟨p, hp, hap⟩
        rcases List.mem_cons.mp hp with rfl | hp
        · exact ⟨b :: p, List.mem_cons_self, List.mem_cons_of_mem b hap⟩
        · exact ⟨p, List.mem_cons_of_mem _ hp, hap⟩

theorem splitOn_concat {a x : α} (ha : a ≠ x) (s : List α) :
    ∃ ps p, (s ++ [a]).splitOn x = ps ++ [p ++ [a]] := by
  induction s with
  | nil =>
    refine ⟨[], [], ?_⟩
    rw [List.nil_append, List.splitOn_cons_eq_if_modifyHead]
    simp [ha]
  | cons b s ih =>
    obtain ⟨ps, p, hSplit⟩ := ih
    rw [List.cons_append, List.splitOn_cons_eq_if_modifyHead, hSplit]
    by_cases hb : b = x
    · exact ⟨[] :: ps, p, by simp [hb]⟩
    · cases ps with
      | nil => exact ⟨[], b :: p, by simp [hb]⟩
      | cons q ps => exact ⟨(b :: q) :: ps, p, by simp [hb]⟩

end Delimited
