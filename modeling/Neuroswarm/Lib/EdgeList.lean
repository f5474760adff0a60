import Mathlib.Data.List.Nodup
import Mathlib.Logic.Relation
import Mathlib.Order.WellFoundedSet
import Neuroswarm.Lib.Dict

/-!
# Finite directed graphs as edge lists

A graph is a list of edges, with repetitions. Two algorithms, as programs write
them: a depth-first search with an explicit stack, and Kahn's algorithm with
in-degrees and a queue.

* `exists_minimal` — an acyclic relation has a minimal element in every nonempty
  list.
* `mem_reach` — the search finds exactly what is reachable.
* `arrangedOrder_spec` — Kahn's algorithm lists exactly the vertices that settle, each
  after the sources of its edges; with all edges between listed vertices it lists all
  of them iff the graph is acyclic (`kahn_complete_iff`).
-/

namespace EdgeList

variable {α : Type*}

-- ------ Acyclicity

/-- The edge relation of an edge list. -/
def Adj (E : List (α × α)) (u v : α) : Prop := (u, v) ∈ E

/-- No nonempty path returns to its start. -/
def Acyclic (r : α → α → Prop) : Prop := ∀ a, ¬ Relation.TransGen r a a

variable {r : α → α → Prop}

theorem Acyclic.mono {s : α → α → Prop} (h : Acyclic s) (hrs : ∀ a b, r a b → s a b) :
    Acyclic r :=
  fun a ha => h a (Relation.TransGen.mono hrs a a ha)

theorem Acyclic.irrefl (h : Acyclic r) (a : α) : ¬ r a a :=
  fun ha => h a (.single ha)

theorem Acyclic.of_map {β : Type*} {s : β → β → Prop} (h : Acyclic s) (f : α → β)
    (hf : ∀ a b, r a b → s (f a) (f b)) : Acyclic r :=
  fun a ha => h (f a) (ha.lift f hf)

theorem Acyclic.image {β : Type*} {s : β → β → Prop} (h : Acyclic r) {f : α → β} {D : Set α}
    (hInj : D.InjOn f) (hD : ∀ a b, r a b → a ∈ D ∧ b ∈ D)
    (hs : ∀ x y, s x y → ∃ a b, r a b ∧ f a = x ∧ f b = y) : Acyclic s := by
  have hLift : ∀ {x y}, Relation.TransGen s x y →
      ∃ a b, a ∈ D ∧ b ∈ D ∧ f a = x ∧ f b = y ∧ Relation.TransGen r a b := by
    intro x y hxy
    induction hxy with
    | single hStep =>
      obtain ⟨a, b, hab, rfl, rfl⟩ := hs _ _ hStep
      exact ⟨a, b, (hD a b hab).1, (hD a b hab).2, rfl, rfl, .single hab⟩
    | tail _ hStep ih =>
      obtain ⟨a, b, ha, hb, rfl, rfl, hPath⟩ := ih
      obtain ⟨b', c, hbc, hEq, rfl⟩ := hs _ _ hStep
      -- both steps meet in one vertex of `r`
      obtain rfl := hInj (hD b' c hbc).1 hb hEq
      exact ⟨a, c, ha, (hD b' c hbc).2, rfl, rfl, hPath.tail hbc⟩
  intro x hx
  obtain ⟨a, b, ha, hb, rfl, hEq, hPath⟩ := hLift hx
  obtain rfl := hInj hb ha hEq
  exact h b hPath

theorem Acyclic.glue {s t : α → α → Prop} (hr : Acyclic r) (hs : Acyclic s) (V : Set α)
    (ht : ∀ a b, t a b → (a ∈ V ∧ b ∈ V ∧ r a b) ∨ (a ∉ V ∧ b ∉ V ∧ s a b)) : Acyclic t := by
  have hSide : ∀ {a b}, Relation.TransGen t a b →
      (a ∈ V ∧ b ∈ V ∧ Relation.TransGen r a b) ∨ (a ∉ V ∧ b ∉ V ∧ Relation.TransGen s a b) := by
    intro a b hab
    induction hab with
    | single hStep =>
      rcases ht _ _ hStep with ⟨ha, hb, h⟩ | ⟨ha, hb, h⟩
      · exact .inl ⟨ha, hb, .single h⟩
      · exact .inr ⟨ha, hb, .single h⟩
    | tail _ hStep ih =>
      rcases ih with ⟨ha, hb, hPath⟩ | ⟨ha, hb, hPath⟩
      · rcases ht _ _ hStep with ⟨-, hc, h⟩ | ⟨hb', -, -⟩
        · exact .inl ⟨ha, hc, hPath.tail h⟩
        · exact absurd hb hb'
      · rcases ht _ _ hStep with ⟨hb', -, -⟩ | ⟨-, hc, h⟩
        · exact absurd hb' hb
        · exact .inr ⟨ha, hc, hPath.tail h⟩
  intro a ha
  rcases hSide ha with ⟨-, -, h⟩ | ⟨-, -, h⟩
  · exact hr a h
  · exact hs a h

theorem exists_minimal (h : Acyclic r) {s : List α} (hs : s ≠ []) :
    ∃ a ∈ s, ∀ b ∈ s, ¬ r b a := by
  have hOrder : IsStrictOrder α (Relation.TransGen r) :=
    { irrefl := h, trans := fun _ _ _ => Relation.TransGen.trans }
  have hWf : Set.WellFoundedOn {a | a ∈ s} (Relation.TransGen r) :=
    (List.finite_toSet s).wellFoundedOn
  obtain ⟨x, hx⟩ := List.exists_mem_of_ne_nil s hs
  obtain ⟨a, ha, hMin⟩ := hWf.has_min Set.univ ⟨⟨x, hx⟩, trivial⟩
  refine ⟨a.1, a.2, fun b hb hba => ?_⟩
  exact hMin ⟨b, hb⟩ trivial (.single hba)

-- ------ Search

variable [DecidableEq α]

/-- The targets of the edges out of `u`, in the order of the edges. -/
def successors (E : List (α × α)) (u : α) : List α :=
  (E.filter fun e => e.1 = u).map Prod.snd

/-- The sources of the edges into `v`. -/
def predecessors (E : List (α × α)) (v : α) : List α :=
  (E.filter fun e => e.2 = v).map Prod.fst

variable {E : List (α × α)}

theorem mem_successors {u v : α} : v ∈ successors E u ↔ Adj E u v := by
  unfold successors Adj
  rw [List.mem_map]
  constructor
  · rintro ⟨⟨a, b⟩, h, rfl⟩
    obtain ⟨hMem, hEq⟩ := List.mem_filter.mp h
    rw [← of_decide_eq_true hEq]
    exact hMem
  · intro h
    exact ⟨(u, v), List.mem_filter.mpr ⟨h, decide_eq_true rfl⟩, rfl⟩

theorem mem_predecessors {u v : α} : u ∈ predecessors E v ↔ Adj E u v := by
  unfold predecessors Adj
  rw [List.mem_map]
  constructor
  · rintro ⟨⟨a, b⟩, h, rfl⟩
    obtain ⟨hMem, hEq⟩ := List.mem_filter.mp h
    rw [← of_decide_eq_true hEq]
    exact hMem
  · intro h
    exact ⟨(u, v), List.mem_filter.mpr ⟨h, decide_eq_true rfl⟩, rfl⟩

/-- Pop, mark, push the successors; the top of the stack is the head. -/
def search (E : List (α × α)) : Nat → List α → List α → List α
  | 0, _, seen => seen
  | _ + 1, [], seen => seen
  | n + 1, u :: stack, seen =>
    if u ∈ seen then search E n stack seen
    else search E n ((successors E u).reverse ++ stack) (u :: seen)

/-- What is reachable from `u`; every edge pushes at most once. -/
def reach (E : List (α × α)) (u : α) : List α := search E (E.length + 1) [u] []

/-- The edges whose source is not marked yet. -/
def unseen (E : List (α × α)) (seen : List α) : Nat := E.countP fun e => e.1 ∉ seen

theorem unseen_cons {u : α} {seen : List α} (hu : u ∉ seen) :
    unseen E (u :: seen) + (successors E u).length = unseen E seen := by
  unfold unseen successors
  rw [List.length_map, ← List.countP_eq_length_filter]
  induction E with
  | nil => rfl
  | cons e E ih =>
    rw [List.countP_cons, List.countP_cons, List.countP_cons, ← ih]
    by_cases he : e.1 = u
    · simp [he, hu]
      omega
    · simp [he]
      omega

theorem search_sound {a : α} (n : Nat) (stack seen : List α)
    (hStack : ∀ v ∈ stack, Relation.ReflTransGen (Adj E) a v)
    (hSeen : ∀ v ∈ seen, Relation.ReflTransGen (Adj E) a v) :
    ∀ v ∈ search E n stack seen, Relation.ReflTransGen (Adj E) a v := by
  induction n generalizing stack seen with
  | zero => exact hSeen
  | succ n ih =>
    cases stack with
    | nil => exact hSeen
    | cons u stack =>
      have hu := hStack u (List.mem_cons_self ..)
      unfold search
      split
      · exact ih _ _ (fun v hv => hStack v (List.mem_cons_of_mem _ hv)) hSeen
      · refine ih _ _ (fun v hv => ?_) (fun v hv => ?_)
        · rcases List.mem_append.mp hv with hv | hv
          · exact hu.tail (mem_successors.mp (List.mem_reverse.mp hv))
          · exact hStack v (List.mem_cons_of_mem _ hv)
        · rcases List.mem_cons.mp hv with rfl | hv
          · exact hu
          · exact hSeen v hv

theorem search_closed (n : Nat) (stack seen : List α) (hFuel : stack.length + unseen E seen ≤ n)
    (hClosed : ∀ u ∈ seen, ∀ v, Adj E u v → v ∈ seen ∨ v ∈ stack) :
    (∀ v, v ∈ seen ∨ v ∈ stack → v ∈ search E n stack seen) ∧
      ∀ u ∈ search E n stack seen, ∀ v, Adj E u v → v ∈ search E n stack seen := by
  induction n generalizing stack seen with
  | zero =>
    have hNil : stack = [] := List.length_eq_zero_iff.mp (by omega)
    subst hNil
    refine ⟨fun v hv => ?_, fun u hu v huv => ?_⟩
    · simpa [search] using hv
    · simpa [search] using hClosed u hu v huv
  | succ n ih =>
    cases stack with
    | nil =>
      refine ⟨fun v hv => ?_, fun u hu v huv => ?_⟩
      · simpa [search] using hv
      · simpa [search] using hClosed u hu v huv
    | cons u stack =>
      rw [List.length_cons] at hFuel
      unfold search
      split
      · next hu =>
        -- already marked: the stack shrinks and nothing else changes
        obtain ⟨hSub, hNext⟩ := ih stack seen (by omega) fun w hw v hwv => by
          rcases hClosed w hw v hwv with h | h
          · exact .inl h
          · rcases List.mem_cons.mp h with rfl | h
            · exact .inl hu
            · exact .inr h
        refine ⟨fun v hv => hSub v ?_, hNext⟩
        rcases hv with hv | hv
        · exact .inl hv
        · rcases List.mem_cons.mp hv with rfl | hv
          · exact .inl hu
          · exact .inr hv
      · next hu =>
        have hUnseen := unseen_cons (E := E) hu
        obtain ⟨hSub, hNext⟩ := ih ((successors E u).reverse ++ stack) (u :: seen)
          (by rw [List.length_append, List.length_reverse]; omega) fun w hw v hwv => by
            rcases List.mem_cons.mp hw with rfl | hw
            · exact .inr (List.mem_append_left _ (List.mem_reverse.mpr (mem_successors.mpr hwv)))
            · rcases hClosed w hw v hwv with h | h
              · exact .inl (List.mem_cons_of_mem _ h)
              · rcases List.mem_cons.mp h with rfl | h
                · exact .inl (List.mem_cons_self ..)
                · exact .inr (List.mem_append_right _ h)
        refine ⟨fun v hv => hSub v ?_, hNext⟩
        rcases hv with hv | hv
        · exact .inl (List.mem_cons_of_mem _ hv)
        · rcases List.mem_cons.mp hv with rfl | hv
          · exact .inl (List.mem_cons_self ..)
          · exact .inr (List.mem_append_right _ hv)

theorem mem_reach {u v : α} :
    v ∈ reach E u ↔ Relation.ReflTransGen (Adj E) u v := by
  have hFuel : [u].length + unseen E [] ≤ E.length + 1 := by
    have : unseen E [] ≤ E.length := List.countP_le_length
    rw [List.length_singleton]
    omega
  obtain ⟨hSub, hNext⟩ := search_closed (E := E) (E.length + 1) [u] [] hFuel
    fun w hw => absurd hw (List.not_mem_nil)
  constructor
  · refine search_sound (E.length + 1) [u] [] (fun w hw => ?_) (fun w hw => ?_) v
    · rw [List.mem_singleton.mp hw]
    · exact absurd hw (List.not_mem_nil)
  · intro h
    induction h with
    | refl => exact hSub u (.inr (List.mem_singleton_self u))
    | tail _ hAdj ih => exact hNext _ ih _ hAdj

-- ------ Kahn's algorithm

/-- One more edge into `v`. -/
def countEdge (indeg : Dict α Nat) (v : α) : Dict α Nat :=
  indeg.set v ((indeg.get? v).getD 0 + 1)

/-- The in-degrees: zero for the vertices, then one more for every edge. -/
def indegrees (V : List α) (E : List (α × α)) : Dict α Nat :=
  (E.map Prod.snd).foldl countEdge (V.foldl (fun d v => d.set v 0) Dict.empty)

/-- One edge into `v` is gone; `v` enters the queue with its last one. -/
def release (st : Dict α Nat × List α) (v : α) : Dict α Nat × List α :=
  let d := (st.1.get? v).getD 0 - 1
  (st.1.set v d, if d = 0 then st.2 ++ [v] else st.2)

def kahnLoop (E : List (α × α)) : Nat → Dict α Nat → List α → List α → List α
  | 0, _, _, order => order
  | _ + 1, _, [], order => order
  | n + 1, indeg, u :: queue, order =>
    let st := (successors E u).foldl release (indeg, queue)
    kahnLoop E n st.1 st.2 (order ++ [u])

def kahn (V : List α) (E : List (α × α)) : List α :=
  let indeg := indegrees V E
  kahnLoop E (V.length + E.length) indeg (indeg.keys.filter fun v => indeg.get? v = some 0) []

/-- The queue loop, with the successors of a vertex in the order that `next` gives. -/
def orderLoop (next : α → List α) : Nat → Dict α Nat → List α → List α → List α
  | 0, _, _, order => order
  | _ + 1, _, [], order => order
  | n + 1, indeg, u :: queue, order =>
    let st := (next u).foldl release (indeg, queue)
    orderLoop next n st.1 st.2 (order ++ [u])

/-- Kahn's algorithm with the first queue and the successors arranged, as by sorting. -/
def arrangedOrder (arrange : List α → List α) (V : List α) (E : List (α × α)) : List α :=
  let indeg := indegrees V E
  orderLoop (fun u => arrange (successors E u)) (V.length + E.length) indeg
    (arrange (indeg.keys.filter fun v => indeg.get? v = some 0)) []

theorem kahnLoop_eq_orderLoop (E : List (α × α)) (n : Nat) (indeg : Dict α Nat)
    (queue order : List α) :
    kahnLoop E n indeg queue order = orderLoop (successors E) n indeg queue order := by
  induction n generalizing indeg queue order with
  | zero => rfl
  | succ n ih =>
    cases queue with
    | nil => rfl
    | cons u queue => exact ih _ _ _

theorem kahn_eq_arrangedOrder (V : List α) (E : List (α × α)) :
    kahn V E = arrangedOrder id V E :=
  kahnLoop_eq_orderLoop E _ _ _ _

/-- The vertices the algorithm knows: those listed, and the targets of edges. -/
def Known (V : List α) (E : List (α × α)) (v : α) : Prop := v ∈ V ∨ v ∈ E.map Prod.snd

/-- Every edge into `v` comes from a vertex that settled before. -/
inductive Settles (V : List α) (E : List (α × α)) : α → Prop
  | intro (v : α) (hv : Known V E v) (hpred : ∀ u, Adj E u v → Settles V E u) : Settles V E v

/-- The edges into `v` from outside `order`. -/
def waiting (E : List (α × α)) (order : List α) (v : α) : Nat :=
  E.countP fun e => e.2 = v ∧ e.1 ∉ order

variable {order : List α}

theorem waiting_eq_zero {v : α} :
    waiting E order v = 0 ↔ ∀ u, Adj E u v → u ∈ order := by
  unfold waiting Adj
  rw [List.countP_eq_zero]
  constructor
  · intro h u hu
    by_contra hNot
    exact h (u, v) hu (decide_eq_true ⟨rfl, hNot⟩)
  · rintro h ⟨u, w⟩ he hw
    obtain ⟨rfl, hNot⟩ := of_decide_eq_true hw
    exact hNot (h u he)

theorem waiting_append {u : α} (hu : u ∉ order) (v : α) :
    waiting E (order ++ [u]) v + (successors E u).count v = waiting E order v := by
  unfold waiting successors
  rw [List.count, List.countP_map, List.countP_filter]
  induction E with
  | nil => rfl
  | cons e E ih =>
    rw [List.countP_cons, List.countP_cons, List.countP_cons, ← ih]
    by_cases hv : e.2 = v
    · by_cases he : e.1 = u
      · simp [hv, he, hu]
        omega
      · simp [hv, he]
        omega
    · simp [hv]

theorem get?_countEdges (indeg : Dict α Nat) (ts : List α) (v : α) :
    (ts.foldl countEdge indeg).get? v =
      if v ∈ ts then some ((indeg.get? v).getD 0 + ts.count v) else indeg.get? v := by
  induction ts generalizing indeg with
  | nil => simp
  | cons t ts ih =>
    rw [List.foldl_cons, ih]
    unfold countEdge
    rw [Dict.get?_set]
    by_cases ht : v = t
    · subst ht
      by_cases hv : v ∈ ts
      · simp [hv]
        omega
      · simp [hv, List.count_eq_zero_of_not_mem hv]
    · have ht' : t ≠ v := fun h => ht h.symm
      by_cases hv : v ∈ ts
      · simp [hv, ht, List.count_cons_of_ne ht']
      · simp [hv, ht]

theorem get?_zeros (V : List α) (d : Dict α Nat) (v : α) :
    (V.foldl (fun d v => d.set v 0) d).get? v = if v ∈ V then some 0 else d.get? v := by
  induction V generalizing d with
  | nil => simp
  | cons w V ih =>
    rw [List.foldl_cons, ih, Dict.get?_set]
    by_cases hw : v = w
    · simp [hw]
    · simp [hw]

theorem get?_indegrees (V : List α) (E : List (α × α)) (v : α) (n : Nat) :
    (indegrees V E).get? v = some n ↔ Known V E v ∧ n = waiting E [] v := by
  have hCount : (E.map Prod.snd).count v = waiting E [] v := by
    unfold waiting
    rw [List.count, List.countP_map]
    congr 1
    funext e
    simp [beq_eq_decide]
  unfold indegrees Known
  rw [get?_countEdges, get?_zeros, hCount]
  by_cases hT : v ∈ E.map Prod.snd
  · rw [if_pos hT]
    by_cases hV : v ∈ V
    · simp [hV, hT, eq_comm]
    · simp [hV, hT, eq_comm]
  · have hZero : waiting E [] v = 0 := by
      rw [← hCount]
      exact List.count_eq_zero_of_not_mem hT
    rw [if_neg hT, hZero]
    by_cases hV : v ∈ V
    · simp [hV, hT, eq_comm]
    · simp [hV, hT]

/-- The queue and the order so far, seen against the in-degrees: `w v` edges
into `v` are not accounted for yet. -/
structure Balanced (V : List α) (E : List (α × α)) (w : α → Nat) (indeg : Dict α Nat)
    (queue order : List α) : Prop where
  degree : ∀ v n, indeg.get? v = some n ↔ Known V E v ∧ n = w v
  nodup : (order ++ queue).Nodup
  ready : ∀ v, v ∈ order ++ queue ↔ Known V E v ∧ w v = 0

variable {V : List α} {indeg : Dict α Nat}

theorem Balanced.releaseOne {w w' : α → Nat} {queue : List α} (h : Balanced V E w indeg queue order)
    {t : α} (ht : Known V E t) (hw : w t = w' t + 1) (hw' : ∀ v, v ≠ t → w v = w' v) :
    Balanced V E w' (release (indeg, queue) t).1 (release (indeg, queue) t).2 order := by
  have hGet : indeg.get? t = some (w t) := (h.degree t _).mpr ⟨ht, rfl⟩
  have hNew : t ∉ order ++ queue := by
    rw [h.ready t]
    omega
  unfold EdgeList.release
  rw [hGet, Option.getD_some, hw, Nat.add_sub_cancel]
  refine ⟨fun v n => ?_, ?_, fun v => ?_⟩
  · dsimp only
    rw [Dict.get?_set]
    by_cases hv : v = t
    · subst hv
      simp [ht, eq_comm]
    · rw [if_neg hv, h.degree, hw' v hv]
  · dsimp only
    split
    · rw [← List.append_assoc]
      exact h.nodup.append (List.nodup_singleton t) (by simpa using hNew)
    · exact h.nodup
  · dsimp only
    by_cases hv : v = t
    · subst hv
      split
      · next hz => simp [hz, ht]
      · next hz => simpa [hz] using hNew
    · have hSame : v ∈ order ++ (if w' t = 0 then queue ++ [t] else queue) ↔
          v ∈ order ++ queue := by
        split
        · simp [hv]
        · exact Iff.rfl
      rw [hSame, h.ready, hw' v hv]

theorem Balanced.releaseAll {w : α → Nat} {queue : List α} (ts : List α)
    (hts : ∀ t ∈ ts, Known V E t) (h : Balanced V E (fun v => w v + ts.count v) indeg queue order) :
    Balanced V E w (ts.foldl release (indeg, queue)).1 (ts.foldl release (indeg, queue)).2
      order := by
  induction ts generalizing indeg queue with
  | nil => simpa using h
  | cons t ts ih =>
    rw [List.foldl_cons]
    refine ih (fun x hx => hts x (List.mem_cons_of_mem _ hx)) ?_
    refine h.releaseOne (hts t (List.mem_cons_self ..)) ?_ fun v hv => ?_
    · rw [List.count_cons_self]
      omega
    · rw [List.count_cons_of_ne fun hEq => hv hEq.symm]

theorem Balanced.perm {w : α → Nat} {queue queue' : List α} (h : Balanced V E w indeg queue order)
    (hPerm : queue'.Perm queue) : Balanced V E w indeg queue' order := by
  have hAll : (order ++ queue').Perm (order ++ queue) := hPerm.append_left order
  exact ⟨h.degree, hAll.nodup_iff.mpr h.nodup, fun v => hAll.mem_iff.trans (h.ready v)⟩

theorem Balanced.step {u : α} {queue ts : List α}
    (h : Balanced V E (waiting E order) indeg (u :: queue) order) (hts : ts.Perm (successors E u)) :
    Balanced V E (waiting E (order ++ [u])) (ts.foldl release (indeg, queue)).1
      (ts.foldl release (indeg, queue)).2 (order ++ [u]) := by
  have hu : u ∉ order := by
    have hNodup := h.nodup
    rw [List.nodup_append] at hNodup
    exact fun hu => hNodup.2.2 u hu u (List.mem_cons_self ..) rfl
  have hShift : order ++ u :: queue = order ++ [u] ++ queue := by simp
  have hBal : Balanced V E (fun v => waiting E (order ++ [u]) v + ts.count v) indeg queue
      (order ++ [u]) := by
    refine ⟨fun v m => ?_, ?_, fun v => ?_⟩
    · rw [hts.count_eq, waiting_append hu]
      exact h.degree v m
    · rw [← hShift]
      exact h.nodup
    · rw [← hShift, hts.count_eq, waiting_append hu]
      exact h.ready v
  refine hBal.releaseAll _ fun t ht => .inr ?_
  exact List.mem_map.mpr ⟨(u, t), mem_successors.mp (hts.subset ht), rfl⟩

/-- Every edge into a listed vertex comes from a vertex listed before it. -/
def Forward (E : List (α × α)) (order : List α) : Prop :=
  ∀ before v after, order = before ++ v :: after → ∀ u, Adj E u v → u ∈ before

omit [DecidableEq α] in
theorem Forward.concat {v : α} (h : Forward E order) (hv : ∀ u, Adj E u v → u ∈ order) :
    Forward E (order ++ [v]) := by
  intro before w after hEq u hu
  rcases List.eq_nil_or_concat after with rfl | ⟨after', z, rfl⟩
  · obtain ⟨rfl, hSingle⟩ := List.append_inj' hEq rfl
    cases hSingle
    exact hv u hu
  · have hInit : order = before ++ w :: after' := by
      have hEq' : order ++ [v] = (before ++ w :: after') ++ [z] := by
        rw [hEq]
        simp
      exact (List.append_inj' hEq' rfl).1
    exact h before w after' hInit u hu

omit [DecidableEq α] in
theorem Forward.settles (h : Forward E order) (hKnown : ∀ v ∈ order, Known V E v) :
    ∀ v ∈ order, Settles V E v := by
  induction order using List.reverseRecOn with
  | nil => exact fun v hv => absurd hv List.not_mem_nil
  | append_singleton order v ih =>
    have hInit : Forward E order := fun before w after hEq u hu =>
      h before w (after ++ [v]) (by rw [hEq]; simp) u hu
    have hSettles := ih hInit fun w hw => hKnown w (List.mem_append_left _ hw)
    intro w hw
    rcases List.mem_append.mp hw with hw | hw
    · exact hSettles w hw
    · obtain rfl := List.mem_singleton.mp hw
      exact .intro w (hKnown w (List.mem_append_right _ (List.mem_singleton_self w)))
        fun u hu => hSettles u (h order w [] rfl u hu)

theorem orderLoop_spec {K : List α} {next : α → List α}
    (hNext : ∀ u, (next u).Perm (successors E u)) (hK : ∀ v, Known V E v → v ∈ K) (n : Nat)
    (indeg : Dict α Nat) (queue order : List α)
    (h : Balanced V E (waiting E order) indeg queue order) (hOrder : Forward E order)
    (hFuel : K.length ≤ n + order.length) :
    ∃ indeg', Balanced V E (waiting E (orderLoop next n indeg queue order)) indeg' []
      (orderLoop next n indeg queue order) ∧ Forward E (orderLoop next n indeg queue order) := by
  induction n generalizing indeg queue order with
  | zero =>
    -- the order already lists every known vertex, so nothing is queued
    have hSub : order ++ queue ⊆ K := fun v hv => hK v ((h.ready v).mp hv).1
    have hLen := (List.subperm_of_subset h.nodup hSub).length_le
    rw [List.length_append] at hLen
    have hNil : queue = [] := List.length_eq_zero_iff.mp (by omega)
    subst hNil
    exact ⟨indeg, h, hOrder⟩
  | succ n ih =>
    cases queue with
    | nil => exact ⟨indeg, h, hOrder⟩
    | cons u queue =>
      have hReady := (h.ready u).mp (List.mem_append_right _ (List.mem_cons_self ..))
      refine ih _ _ _ (h.step (hNext u)) (hOrder.concat (waiting_eq_zero.mp hReady.2)) ?_
      rw [List.length_append, List.length_singleton]
      omega

theorem balanced_start (V : List α) (E : List (α × α)) :
    Balanced V E (waiting E []) (indegrees V E)
      ((indegrees V E).keys.filter fun v => (indegrees V E).get? v = some 0) [] := by
  have hKeys : ∀ v, v ∈ (indegrees V E).keys.filter
      (fun v => (indegrees V E).get? v = some 0) ↔ Known V E v ∧ waiting E [] v = 0 := by
    intro v
    rw [List.mem_filter, Dict.mem_keys_iff, decide_eq_true_eq, get?_indegrees]
    constructor
    · rintro ⟨-, hKnown, hZero⟩
      exact ⟨hKnown, hZero.symm⟩
    · rintro ⟨hKnown, hZero⟩
      have hGet := (get?_indegrees V E v 0).mpr ⟨hKnown, hZero.symm⟩
      exact ⟨by rw [hGet]; rfl, hKnown, hZero.symm⟩
  refine ⟨get?_indegrees V E, ?_, fun v => ?_⟩
  · rw [List.nil_append]
    exact (indegrees V E).nodup.filter _
  · rw [List.nil_append, hKeys]

theorem Balanced.mem_iff_settles (h : Balanced V E (waiting E order) indeg [] order)
    (hForward : Forward E order) (v : α) : v ∈ order ↔ Settles V E v := by
  have hReady : ∀ v, v ∈ order ↔ Known V E v ∧ waiting E order v = 0 := by
    intro v
    rw [← h.ready v, List.append_nil]
  refine ⟨hForward.settles (fun v hv => ((hReady v).mp hv).1) v, fun hv => ?_⟩
  induction hv with
  | intro v hv hpred ih => exact (hReady v).mpr ⟨hv, waiting_eq_zero.mpr ih⟩

/-- **Kahn's algorithm**, however it is arranged, lists every vertex that settles, once and
after the sources of its edges. -/
theorem arrangedOrder_spec {arrange : List α → List α} (hArrange : ∀ l, (arrange l).Perm l)
    (V : List α) (E : List (α × α)) :
    (arrangedOrder arrange V E).Nodup ∧ Forward E (arrangedOrder arrange V E) ∧
      ∀ v, v ∈ arrangedOrder arrange V E ↔ Settles V E v := by
  obtain ⟨indeg', hEnd, hForward⟩ := orderLoop_spec (K := V ++ E.map Prod.snd)
    (fun u => hArrange (successors E u)) (fun v hv => List.mem_append.mpr hv)
    (V.length + E.length) _ _ [] ((balanced_start V E).perm (hArrange _))
    (fun before v after hEq => by simp at hEq)
    (by rw [List.length_append, List.length_map]; rfl)
  have hNodup := hEnd.nodup
  rw [List.append_nil] at hNodup
  exact ⟨hNodup, hForward, hEnd.mem_iff_settles hForward⟩

theorem kahn_spec (V : List α) (E : List (α × α)) :
    (kahn V E).Nodup ∧ ∀ v, v ∈ kahn V E ↔ Settles V E v := by
  have hId : ∀ l : List α, (id l).Perm l := fun l => List.Perm.refl l
  rw [kahn_eq_arrangedOrder]
  obtain ⟨hNodup, -, hMem⟩ := arrangedOrder_spec hId V E
  exact ⟨hNodup, hMem⟩

theorem kahn_length_congr {V' : List α} {E' : List (α × α)}
    (h : ∀ v, Settles V E v ↔ Settles V' E' v) : (kahn V E).length = (kahn V' E').length := by
  obtain ⟨hNodup, hMem⟩ := kahn_spec V E
  obtain ⟨hNodup', hMem'⟩ := kahn_spec V' E'
  refine (List.perm_of_nodup_nodup_toFinset_eq hNodup hNodup' ?_).length_eq
  ext v
  rw [List.mem_toFinset, List.mem_toFinset, hMem, hMem', h]

omit [DecidableEq α] in
theorem Settles.irrefl {v : α} (h : Settles V E v) :
    ¬ Relation.TransGen (Adj E) v v := by
  have hAcc : Acc (Relation.TransGen (Adj E)) v := by
    refine Acc.transGen ?_
    induction h with
    | intro v _ _ ih => exact .intro v ih
  clear h
  induction hAcc with
  | intro v _ ih => exact fun hv => ih v hv hv

theorem kahn_complete_iff (hV : V.Nodup) (hE : ∀ u v, Adj E u v → u ∈ V ∧ v ∈ V) :
    (kahn V E).length = V.length ↔ Acyclic (Adj E) := by
  obtain ⟨hNodup, hMem⟩ := kahn_spec V E
  have hSub : kahn V E ⊆ V := by
    intro v hv
    cases (hMem v).mp hv with
    | intro v hKnown _ =>
      rcases hKnown with h | h
      · exact h
      · obtain ⟨⟨u, w⟩, he, rfl⟩ := List.mem_map.mp h
        exact (hE u w he).2
  constructor
  · intro hLen v hv
    have hAll : V ⊆ kahn V E :=
      (List.subperm_of_subset hNodup hSub).perm_of_length_le hLen.ge |>.symm.subset
    have hMemV : v ∈ V := by
      obtain ⟨w, hvw, -⟩ := Relation.TransGen.head'_iff.mp hv
      exact (hE v w hvw).1
    exact ((hMem v).mp (hAll hMemV)).irrefl hv
  · intro hAcyclic
    have hAll : V ⊆ kahn V E := by
      intro v hv
      by_contra hNot
      -- among the vertices left out, one has no predecessor left out
      obtain ⟨a, ha, hMin⟩ := exists_minimal hAcyclic
        (s := V.filter (· ∉ kahn V E)) (List.ne_nil_of_mem
          (List.mem_filter.mpr ⟨hv, decide_eq_true hNot⟩))
      obtain ⟨haV, haNot⟩ := List.mem_filter.mp ha
      refine of_decide_eq_true haNot ((hMem a).mpr (.intro a (.inl haV) fun u hu => ?_))
      by_contra hu'
      refine hMin u (List.mem_filter.mpr ⟨(hE u a hu).1, decide_eq_true fun h => ?_⟩) hu
      exact hu' ((hMem u).mp h)
    exact Nat.le_antisymm (List.subperm_of_subset hNodup hSub).length_le
      (List.subperm_of_subset hV hAll).length_le

end EdgeList
