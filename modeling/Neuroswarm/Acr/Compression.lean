import Mathlib.Data.List.Sort
import Neuroswarm.Acr.Kernel
import Neuroswarm.Lib.Run

/-!
# Context compression — the progressive pass

`_progressive` and `_pack` of `CompressionEngine`. `_progressive` moves the items with an entity
or a topic to the front, and `_pack` sorts all of them by score again.

* `relevant_step` — what an item does to the packed items that have an entity or a topic.
* `filter_progressive_iff` — when the other items displace none of them.
-/

namespace Neuroswarm.Acr

open Armcascade (Text)

variable {F : Type}

/-- The fields of a memory or knowledge item that the pass reads. -/
structure ScoredItem (F : Type) where
  content : Text
  score : F
  tokens : ℕ := 0
  deriving DecidableEq

/-- `getattr(obj, "tokens", 0) or _tokens(getattr(obj, "content", ""))`. -/
def ScoredItem.weight (item : ScoredItem F) : ℕ :=
  if item.tokens = 0 then Acr.tokens item.content else item.tokens

/-- The tags `"m"` and `"k"`. -/
inductive Bundle where
  | memory
  | knowledge
  deriving DecidableEq

/-- `used`, `out_m` and `out_k`. -/
structure Packed (F : Type) where
  used : ℕ := 0
  memory : List (ScoredItem F) := []
  knowledge : List (ScoredItem F) := []

namespace Packed

def of (s : Packed F) : Bundle → List (ScoredItem F)
  | .memory => s.memory
  | .knowledge => s.knowledge

def append (s : Packed F) (item : ScoredItem F) : Bundle → Packed F
  | .memory => { s with used := s.used + item.weight, memory := s.memory ++ [item] }
  | .knowledge => { s with used := s.used + item.weight, knowledge := s.knowledge ++ [item] }

/-- The test of the loop: the item is over the budget, and not the first one. -/
def Skips (budget : ℤ) (s : Packed F) (item : ScoredItem F) : Prop :=
  s.used + item.weight > budget ∧ (s.memory ≠ [] ∨ s.knowledge ≠ [])

instance (budget : ℤ) (s : Packed F) (item : ScoredItem F) : Decidable (Skips budget s item) :=
  inferInstanceAs (Decidable (_ ∧ _))

def step (budget : ℤ) (s : Packed F) (x : Bundle × ScoredItem F) : Packed F :=
  if Skips budget s x.2 then s else s.append x.2 x.1

end Packed

open Packed

/-- `combined.sort(key=lambda x: -x[1])`. -/
def combined [LinearOrder F] (mem know : List (ScoredItem F)) : List (Bundle × ScoredItem F) :=
  (mem.map (Bundle.memory, ·) ++ know.map (Bundle.knowledge, ·)).insertionSort
    fun x y => y.2.score ≤ x.2.score

def pack [LinearOrder F] (budget : ℤ) (mem know : List (ScoredItem F)) : Packed F :=
  Run.exec (step budget) {} (combined mem know)

/-- `covers(text)`, with the entities and topics in lower case. -/
def covers (lower : Text → Text) (must : List Text) (item : ScoredItem F) : Bool :=
  must.any fun m => lower m <:+: lower item.content

/-- What is packed is the memory and the knowledge in this order. -/
def prioritized (lower : Text → Text) (must : List Text) (items : List (ScoredItem F)) :
    List (ScoredItem F) :=
  if must = [] then items
  else items.filter (covers lower must) ++ items.filter (!covers lower must ·)

def progressive [LinearOrder F] (lower : Text → Text) (budget : ℤ) (must : List Text)
    (mem know : List (ScoredItem F)) : Packed F :=
  pack budget (prioritized lower must mem) (prioritized lower must know)

namespace Packed

/-- What is packed of the items that `p` holds of. -/
def only (p : ScoredItem F → Bool) (s : Packed F) : Packed F :=
  let memory := s.memory.filter p
  let knowledge := s.knowledge.filter p
  ⟨((memory ++ knowledge).map ScoredItem.weight).sum, memory, knowledge⟩

/-- A relevant item that is passed over would not fit beside the relevant ones alone either. -/
def Spares (p : ScoredItem F → Bool) (budget : ℤ) (s : Packed F) (x : Bundle × ScoredItem F) :
    Prop :=
  p x.2 = true → Skips budget s x.2 → Skips budget (s.only p) x.2

instance (p : ScoredItem F → Bool) (budget : ℤ) (s : Packed F) :
    DecidablePred (Spares p budget s) :=
  fun _ => inferInstanceAs (Decidable (_ → _ → _))

-- ------ One item

/-- `used` is the sum over the two lists. -/
def Counted (s : Packed F) : Prop :=
  s.used = ((s.memory ++ s.knowledge).map ScoredItem.weight).sum

variable {p : ScoredItem F → Bool} {budget : ℤ} {s : Packed F}

theorem Counted.step (h : s.Counted) (x : Bundle × ScoredItem F) : (s.step budget x).Counted := by
  obtain ⟨bundle, item⟩ := x
  unfold Packed.step
  split
  · exact h
  · cases bundle <;> simp [Counted, append] at h ⊢ <;> omega

theorem sum_filter_le (p : ScoredItem F → Bool) (items : List (ScoredItem F)) :
    ((items.filter p).map ScoredItem.weight).sum ≤ (items.map ScoredItem.weight).sum :=
  (List.filter_sublist.map _).sum_le_sum fun _ _ => Nat.zero_le _

theorem only_used_le (h : s.Counted) : (s.only p).used ≤ s.used := by
  have hSum := sum_filter_le p (s.memory ++ s.knowledge)
  rw [List.filter_append] at hSum
  exact hSum.trans h.ge

variable {item : ScoredItem F}

/-- What is passed over with the relevant items alone is passed over with all of them. -/
theorem skips_of_only (h : s.Counted) (hSkips : Skips budget (s.only p) item) :
    Skips budget s item := by
  have hUsed : (s.only p).used ≤ s.used := only_used_le h
  obtain ⟨hOver, hSome⟩ := hSkips
  refine ⟨by omega, hSome.imp (fun hm hNil => hm ?_) fun hk hNil => hk ?_⟩
  · show s.memory.filter p = []
    rw [hNil, List.filter_nil]
  · show s.knowledge.filter p = []
    rw [hNil, List.filter_nil]

theorem only_append_pos (hp : p item = true) (bundle : Bundle) :
    (s.append item bundle).only p = (s.only p).append item bundle := by
  cases bundle <;> simp [only, append, hp] <;> omega

theorem only_append_neg (hp : ¬ p item = true) (bundle : Bundle) :
    (s.append item bundle).only p = s.only p := by
  cases bundle <;> simp [only, append, hp]

theorem relevant_step (h : s.Counted) {x : Bundle × ScoredItem F} (hSpares : Spares p budget s x) :
    (s.step budget x).only p =
      if p x.2 then (s.only p).step budget x else s.only p := by
  unfold Packed.step
  split
  · next hSkips =>
    split
    · next hp => rw [if_pos (hSpares hp hSkips)]
    · rfl
  · next hSkips =>
    split
    · next hp =>
      rw [if_neg fun hOnly => hSkips (skips_of_only h hOnly)]
      exact only_append_pos hp _
    · next hp => exact only_append_neg hp _

theorem of_only (bundle : Bundle) : (s.only p).of bundle = (s.of bundle).filter p := by
  cases bundle <;> rfl

-- ------ An item that is passed over

variable [DecidableEq F]

theorem step_of_skips (hSkips : Skips budget s item) (x : Bundle × ScoredItem F) :
    Skips budget (s.step budget x) item ∧
      ∀ bundle, ((s.step budget x).of bundle).count item = (s.of bundle).count item := by
  unfold Packed.step
  split
  · exact ⟨hSkips, fun _ => rfl⟩
  · next hx =>
    have hNe : x.2 ≠ item := by
      rintro rfl
      exact hx hSkips
    obtain ⟨hOver, hSome⟩ := hSkips
    obtain ⟨_ | _, other⟩ := x
    · refine ⟨⟨by simp [append]; omega, by simp [append]⟩, ?_⟩
      rintro (_ | _) <;> simp [append, of, hNe]
    · refine ⟨⟨by simp [append]; omega, by simp [append]⟩, ?_⟩
      rintro (_ | _) <;> simp [append, of, hNe]

theorem count_exec_of_skips (hSkips : Skips budget s item) (xs : List (Bundle × ScoredItem F))
    (bundle : Bundle) :
    ((Run.exec (step budget) s xs).of bundle).count item = (s.of bundle).count item := by
  induction xs generalizing s with
  | nil => rfl
  | cons x xs ih =>
    obtain ⟨hSkips, hCount⟩ := step_of_skips hSkips x
    rw [Run.exec_cons, ih hSkips, hCount]

theorem count_le_exec (item : ScoredItem F) (xs : List (Bundle × ScoredItem F)) (bundle : Bundle) :
    (s.of bundle).count item ≤ ((Run.exec (step budget) s xs).of bundle).count item := by
  induction xs generalizing s with
  | nil => rfl
  | cons x xs ih =>
    refine le_trans ?_ ih
    unfold Packed.step
    split
    · rfl
    · obtain ⟨_ | _, other⟩ := x <;> cases bundle <;> simp [append, of]

-- ------ All items

theorem exec_filter_iff (h : s.Counted) (xs : List (Bundle × ScoredItem F)) :
    (∀ bundle, ((Run.exec (step budget) s xs).of bundle).filter p =
      (Run.exec (step budget) (s.only p) (xs.filter (p ·.2))).of bundle) ↔
      Run.Every (step budget) (Spares p budget) s xs := by
  induction xs generalizing s with
  | nil => exact iff_of_true (fun bundle => (of_only bundle).symm) trivial
  | cons x xs ih =>
    rw [Run.Every, Run.exec_cons]
    by_cases hSpares : Spares p budget s x
    · rw [and_iff_right hSpares, ← ih (h.step x), relevant_step h hSpares]
      by_cases hp : p x.2 = true
      · rw [List.filter_cons_of_pos (by simpa using hp), if_pos hp, Run.exec_cons]
      · rw [List.filter_cons_of_neg (by simpa using hp), if_neg hp]
    · refine iff_of_false (fun hAll => ?_) fun hEvery => hSpares hEvery.1
      obtain ⟨bundle, item⟩ := x
      simp only [Spares, Classical.not_imp] at hSpares
      obtain ⟨hp, hSkips, hOnly⟩ := hSpares
      have hKeeps : (s.only p).step budget (bundle, item) = (s.only p).append item bundle :=
        if_neg hOnly
      have hPasses : s.step budget (bundle, item) = s := if_pos hSkips
      have hHere := congrArg (List.count item) (hAll bundle)
      rw [List.count_filter hp, hPasses, count_exec_of_skips hSkips,
        List.filter_cons_of_pos (by simpa using hp), Run.exec_cons, hKeeps] at hHere
      have hMore : (s.of bundle).count item < (((s.only p).append item bundle).of bundle).count
          item := by
        cases bundle <;> simp [append, of, only, List.count_filter hp]
      have hStays := @count_le_exec F budget ((s.only p).append item bundle) _ item
        (xs.filter (p ·.2)) bundle
      omega

end Packed

-- ------ The order of the items

theorem filter_orderedInsert {α : Type} {r : α → α → Prop} [DecidableRel r] [IsTrans α r]
    (p : α → Bool) (a : α) {l : List α} (hSorted : l.Pairwise r) :
    (l.orderedInsert r a).filter p =
      if p a then (l.filter p).orderedInsert r a else l.filter p := by
  have hFront : ∀ l : List α, (∀ b ∈ l, r a b) → l.orderedInsert r a = a :: l := by
    rintro (_ | ⟨b, l⟩) h
    · rfl
    · exact List.orderedInsert_cons_of_le r l (h b List.mem_cons_self)
  induction l with
  | nil => cases hp : p a <;> simp [hp]
  | cons b l ih =>
    obtain ⟨hFirst, hRest⟩ := List.pairwise_cons.mp hSorted
    by_cases hab : r a b
    · rw [List.orderedInsert_cons_of_le r l hab, List.filter_cons]
      have hAll : ∀ c ∈ (b :: l).filter p, r a c := by
        intro c hc
        rcases List.mem_cons.mp (List.mem_of_mem_filter hc) with rfl | hc
        · exact hab
        · exact trans_of r hab (hFirst c hc)
      rw [hFront _ hAll]
    · rw [List.orderedInsert_of_not_le r l hab, List.filter_cons, ih hRest]
      cases hb : p b <;> cases hp : p a <;> simp [hb, hab]

theorem filter_insertionSort {α : Type} {r : α → α → Prop} [DecidableRel r] [IsTrans α r]
    [Std.Total r] (p : α → Bool) (l : List α) :
    (l.insertionSort r).filter p = (l.filter p).insertionSort r := by
  induction l with
  | nil => rfl
  | cons a l ih =>
    rw [List.insertionSort_cons, filter_orderedInsert p a (List.pairwise_insertionSort r l), ih,
      List.filter_cons]
    split <;> rfl

theorem filter_prioritized (lower : Text → Text) (must : List Text)
    (items : List (ScoredItem F)) :
    (prioritized lower must items).filter (covers lower must) =
      prioritized lower must (items.filter (covers lower must)) := by
  unfold prioritized
  split
  · rfl
  · simp [List.filter_filter]

variable [LinearOrder F]

instance : IsTrans (Bundle × ScoredItem F) fun x y => y.2.score ≤ x.2.score :=
  ⟨fun _ _ _ hab hbc => hbc.trans hab⟩

instance : Std.Total fun x y : Bundle × ScoredItem F => y.2.score ≤ x.2.score :=
  ⟨fun x y => le_total y.2.score x.2.score⟩

theorem filter_combined (p : ScoredItem F → Bool) (mem know : List (ScoredItem F)) :
    (combined mem know).filter (p ·.2) = combined (mem.filter p) (know.filter p) := by
  unfold combined
  rw [filter_insertionSort, List.filter_append, List.filter_map, List.filter_map]
  rfl

variable (lower : Text → Text) (budget : ℤ) (must : List Text) (mem know : List (ScoredItem F))

/-- **When no item with an entity or a topic gives way to another one.** -/
theorem filter_progressive_iff :
    ((progressive lower budget must mem know).memory.filter (covers lower must) =
        (progressive lower budget must (mem.filter (covers lower must))
          (know.filter (covers lower must))).memory ∧
      (progressive lower budget must mem know).knowledge.filter (covers lower must) =
        (progressive lower budget must (mem.filter (covers lower must))
          (know.filter (covers lower must))).knowledge) ↔
      Run.Every (step budget) (Spares (covers lower must) budget) {}
        (combined (prioritized lower must mem) (prioritized lower must know)) := by
  rw [← @exec_filter_iff F (covers lower must) budget {} _ rfl]
  unfold progressive pack
  rw [filter_combined, filter_prioritized, filter_prioritized]
  constructor
  · rintro ⟨hMemory, hKnowledge⟩ (_ | _)
    · exact hMemory
    · exact hKnowledge
  · intro h
    exact ⟨h .memory, h .knowledge⟩

/-- An item of four words with a high score takes the place of the one about the topic. -/
theorem displaced_by_score :
    ¬ ∀ (budget : ℤ) (must : List Text) (mem know : List (ScoredItem ℕ)), must ≠ [] →
      (progressive id budget must mem know).memory.filter (covers id must) =
          (progressive id budget must (mem.filter (covers id must))
            (know.filter (covers id must))).memory ∧
        (progressive id budget must mem know).knowledge.filter (covers id must) =
          (progressive id budget must (mem.filter (covers id must))
            (know.filter (covers id must))).knowledge := by
  intro h
  have hKept := congrArg List.length (h 4 ["arm".toList]
    [⟨"arm".toList, 1, 0⟩, ⟨"x".toList, 2, 4⟩] [] (by simp)).1
  revert hKept
  decide +kernel

end Neuroswarm.Acr
