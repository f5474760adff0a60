import Mathlib.Data.List.Basic
import Mathlib.Data.List.Nodup
import Mathlib.Data.Nat.Init
import Mathlib.Logic.Function.Basic

/-!
# The clock: replacement with a second chance

A ring of keys, some of them marked. The hand takes the key at the front: a key that is not
live is dropped, a marked one loses its mark and goes to the back, any other is a victim.
What the hand takes, in two rounds at most, is known beforehand (`sweep_eq`): the live keys
without a mark, then the live keys with one, each in the order of the ring.
-/

namespace SecondChance

variable {κ : Type*} [DecidableEq κ]

/-- The victims of a sweep that ends after `count` of them or `scans` keys. -/
def sweep (live : κ → Bool) : (count scans : Nat) → List κ → (κ → Bool) → List κ
  | 0, _, _, _ => []
  | _, 0, _, _ => []
  | _, _, [], _ => []
  | count + 1, scans + 1, k :: ring, marked =>
    -- whatever the hand takes is no longer marked
    let cleared := Function.update marked k false
    if live k then
      if marked k then sweep live (count + 1) scans (ring ++ [k]) cleared
      else k :: sweep live count scans ring cleared
    else sweep live (count + 1) scans ring cleared

/-- The order in which a sweep comes to the live keys. -/
def order (live marked : κ → Bool) (ring : List κ) : List κ :=
  ring.filter (fun k => live k && !marked k) ++ ring.filter fun k => live k && marked k

omit [DecidableEq κ] in
theorem perm_order (live marked : κ → Bool) (ring : List κ) :
    (order live marked ring).Perm (ring.filter live) := by
  have hParts := List.filter_append_perm marked (ring.filter live)
  simp only [List.filter_filter] at hParts
  refine (List.perm_append_comm.trans ?_).trans hParts
  simp [Bool.and_comm]

theorem update_eq_false {marked : κ → Bool} {k x : κ} (h : marked x = false) :
    Function.update marked k false x = false := by
  unfold Function.update
  split <;> simp [h]

theorem sweep_unmarked {live marked : κ → Bool} (ring : List κ) (count scans : Nat)
    (hRing : ∀ k ∈ ring, live k ∧ marked k = false) (hScans : ring.length ≤ scans) :
    sweep live count scans ring marked = ring.take count := by
  induction ring generalizing count scans marked with
  | nil => cases count <;> cases scans <;> simp [sweep]
  | cons k ring ih =>
    obtain ⟨hLive, hMark⟩ := hRing k List.mem_cons_self
    obtain ⟨scans, rfl⟩ : ∃ n, scans = n + 1 := ⟨scans - 1, by simp at hScans; omega⟩
    cases count with
    | zero => simp [sweep]
    | succ count =>
      have hLater : ∀ x ∈ ring, live x ∧ Function.update marked k false x = false :=
        fun x hx => (hRing x (List.mem_cons_of_mem _ hx)).imp_right update_eq_false
      have hRest := ih count scans hLater (by simpa using hScans)
      simp [sweep, hLive, hMark, hRest]

theorem sweep_append {live marked : κ → Bool} (ahead behind : List κ) (count scans : Nat)
    (hNodup : (ahead ++ behind).Nodup) (hBehind : ∀ k ∈ behind, live k ∧ marked k = false)
    (hScans : 2 * ahead.length + behind.length ≤ scans) :
    sweep live count scans (ahead ++ behind) marked =
      (ahead.filter (fun k => live k && !marked k) ++ behind
        ++ ahead.filter fun k => live k && marked k).take count := by
  induction ahead generalizing behind count scans marked with
  | nil => simpa using sweep_unmarked behind count scans hBehind (by simpa using hScans)
  | cons k ahead ih =>
    obtain ⟨scans, rfl⟩ : ∃ n, scans = n + 1 := ⟨scans - 1, by simp at hScans; omega⟩
    have hFuel : 2 * ahead.length + behind.length + 1 ≤ scans := by
      simp only [List.length_cons] at hScans
      omega
    obtain ⟨hNew, hRest⟩ := List.nodup_cons.mp hNodup
    -- clearing the mark of the key changes nothing for the keys ahead
    have hOther : ∀ x ∈ ahead, Function.update marked k false x = marked x := by
      intro x hx
      apply Function.update_of_ne
      rintro rfl
      exact hNew (List.mem_append_left _ hx)
    have hFresh : ahead.filter (fun x => live x && !Function.update marked k false x) =
        ahead.filter fun x => live x && !marked x :=
      List.filter_congr fun x hx => by rw [hOther x hx]
    have hMarked : ahead.filter (fun x => live x && Function.update marked k false x) =
        ahead.filter fun x => live x && marked x :=
      List.filter_congr fun x hx => by rw [hOther x hx]
    have hKept : ∀ x ∈ behind, live x ∧ Function.update marked k false x = false :=
      fun x hx => (hBehind x hx).imp_right update_eq_false
    cases count with
    | zero => simp [sweep]
    | succ count =>
      cases hLive : live k with
      | false =>
        have hSame := ih behind (count + 1) scans hRest hKept (by omega)
        rw [hFresh, hMarked] at hSame
        simp [sweep, hLive, hSame]
      | true =>
        cases hMark : marked k with
        | false =>
          have hSame := ih behind count scans hRest hKept (by omega)
          rw [hFresh, hMarked] at hSame
          simp [sweep, hLive, hMark, hSame]
        | true =>
          have hPut : ∀ x ∈ behind ++ [k], live x ∧ Function.update marked k false x = false := by
            intro x hx
            rcases List.mem_append.mp hx with hOld | hLast
            · exact hKept x hOld
            · rw [List.mem_singleton.mp hLast]
              exact ⟨hLive, Function.update_self k false marked⟩
          have hMoved : (ahead ++ (behind ++ [k])).Nodup := by
            rw [← List.append_assoc]
            exact List.nodup_append_comm.mp (by simpa using ⟨by simpa using hNew, hRest⟩)
          have hSame := ih (behind ++ [k]) (count + 1) scans hMoved hPut (by simp; omega)
          rw [hFresh, hMarked] at hSame
          simp [sweep, hLive, hMark, hSame]

theorem sweep_eq {live marked : κ → Bool} {ring : List κ} {scans : Nat} (count : Nat)
    (hNodup : ring.Nodup) (hScans : 2 * ring.length ≤ scans) :
    sweep live count scans ring marked = (order live marked ring).take count := by
  have hRing : (ring ++ []).Nodup := by simpa using hNodup
  have hBehind : ∀ k ∈ ([] : List κ), live k ∧ marked k = false := by simp
  have hSweep := sweep_append ring [] count scans hRing hBehind (by simpa using hScans)
  simpa [order] using hSweep

end SecondChance
