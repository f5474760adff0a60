import Neuroswarm.Lib.EdgeList

/-!
# Levels of a finite graph

Kahn's algorithm layer by layer: a layer is what was released while the layer before it
was swept.

* `layers_spec` — the layers hold what settles, and the index of a vertex's layer is the
  number of edges on the longest path that ends at it.
-/

namespace EdgeList

variable {α : Type*}

/-- A path of so many edges ends at the vertex. -/
inductive EndsAt (r : α → α → Prop) : Nat → α → Prop
  | start (v : α) : EndsAt r 0 v
  | step {n : Nat} {u v : α} (h : EndsAt r n u) (huv : r u v) : EndsAt r (n + 1) v

/-- The longest path that ends at `v` has `n` edges. -/
structure Height (r : α → α → Prop) (v : α) (n : Nat) : Prop where
  reached : EndsAt r n v
  longest : ∀ m, EndsAt r m v → m ≤ n

variable {r : α → α → Prop}

theorem Height.unique {v : α} {n m : Nat} (hn : Height r v n) (hm : Height r v m) : n = m :=
  Nat.le_antisymm (hm.longest n hn.reached) (hn.longest m hm.reached)

theorem Height.lt {u v : α} {n m : Nat} (hu : Height r u n) (hv : Height r v m) (h : r u v) :
    n < m :=
  hv.longest (n + 1) (hu.reached.step h)

theorem height_zero {v : α} (h : ∀ u, ¬ r u v) : Height r v 0 := by
  refine ⟨.start v, fun m hm => ?_⟩
  cases hm with
  | start => exact Nat.le_refl 0
  | step _ huv => exact absurd huv (h _)

theorem height_succ {u v : α} {n : Nat} (hu : Height r u n) (huv : r u v)
    (h : ∀ u', r u' v → ∃ m ≤ n, Height r u' m) : Height r v (n + 1) := by
  refine ⟨hu.reached.step huv, fun m hm => ?_⟩
  cases hm with
  | start => exact Nat.zero_le _
  | step hEnds hStep =>
    obtain ⟨k, hk, hHeight⟩ := h _ hStep
    have hLe := hHeight.longest _ hEnds
    omega

theorem endsAt_iff_chain {n : Nat} {v : α} :
    EndsAt r n v ↔ ∃ path : List α, (path ++ [v]).IsChain r ∧ path.length = n := by
  constructor
  · intro h
    induction h with
    | start v => exact ⟨[], List.isChain_singleton v, rfl⟩
    | @step n u v _ huv ih =>
      obtain ⟨path, hChain, hLen⟩ := ih
      refine ⟨path ++ [u], List.isChain_append.mpr ⟨hChain, List.isChain_singleton v, ?_⟩, ?_⟩
      · intro x hx y hy
        simp only [List.getLast?_append, List.getLast?_singleton, Option.some_or,
          Option.mem_some_iff] at hx
        simp only [List.head?_cons, Option.mem_some_iff] at hy
        rw [← hx, ← hy]
        exact huv
      · rw [List.length_append, hLen, List.length_singleton]
  · rintro ⟨path, hChain, rfl⟩
    induction path using List.reverseRecOn generalizing v with
    | nil => exact .start v
    | append_singleton path u ih =>
      obtain ⟨hInit, -, hJoin⟩ := List.isChain_append.mp hChain
      rw [List.length_append, List.length_singleton]
      refine (ih hInit).step (hJoin u ?_ v rfl)
      simp

theorem settles_of_chain {V : List α} {E : List (α × α)} {path : List α} {v : α}
    (h : (path ++ [v]).IsChain (Adj E)) (hv : Settles V E v) : ∀ x ∈ path ++ [v], Settles V E x := by
  induction path using List.reverseRecOn generalizing v with
  | nil => simpa using hv
  | append_singleton path u ih =>
    obtain ⟨hInit, -, hJoin⟩ := List.isChain_append.mp h
    have huv : Adj E u v := hJoin u (by simp) v rfl
    have hu : Settles V E u := by
      cases hv with
      | intro _ _ hSources => exact hSources u huv
    intro x hx
    rcases List.mem_append.mp hx with hx | hx
    · exact ih hInit hu x hx
    · rw [List.mem_singleton.mp hx]
      exact hv

-- ------ Layers

variable [DecidableEq α]

def sweep (E : List (α × α)) (st : Dict α Nat × List α) (layer : List α) : Dict α Nat × List α :=
  layer.foldl (fun st u => (successors E u).foldl release st) st

def layersLoop (arrange : List α → List α) (E : List (α × α)) :
    Nat → Dict α Nat → List α → List (List α)
  | 0, _, _ => []
  | _ + 1, _, [] => []
  | n + 1, indeg, u :: layer =>
    let st := sweep E (indeg, []) (u :: layer)
    (u :: layer) :: layersLoop arrange E n st.1 (arrange st.2)

def layers (arrange : List α → List α) (V : List α) (E : List (α × α)) : List (List α) :=
  let indeg := indegrees V E
  layersLoop arrange E (V.length + E.length) indeg
    (arrange (indeg.keys.filter fun v => indeg.get? v = some 0))

theorem foldl_release_append (ts : List α) (indeg : Dict α Nat) (queue next : List α) :
    ts.foldl release (indeg, queue ++ next) =
      ((ts.foldl release (indeg, next)).1, queue ++ (ts.foldl release (indeg, next)).2) := by
  induction ts generalizing indeg next with
  | nil => rfl
  | cons t ts ih =>
    have hOne : release (indeg, queue ++ next) t =
        ((release (indeg, next) t).1, queue ++ (release (indeg, next) t).2) := by
      by_cases hd : (indeg.get? t).getD 0 - 1 = 0
      · simp [release, hd]
      · simp [release, hd]
    rw [List.foldl_cons, List.foldl_cons, hOne, ih]

variable {layer order : List α}

theorem Balanced.sweep {V : List α} {E : List (α × α)} {indeg : Dict α Nat} {next : List α}
    (h : Balanced V E (waiting E order) indeg (layer ++ next) order) :
    Balanced V E (waiting E (order ++ layer)) (sweep E (indeg, next) layer).1
      (EdgeList.sweep E (indeg, next) layer).2 (order ++ layer) := by
  induction layer generalizing indeg next order with
  | nil => simpa [EdgeList.sweep] using h
  | cons u layer ih =>
    rw [List.cons_append] at h
    have hStep := h.step (List.Perm.refl (successors E u))
    rw [foldl_release_append] at hStep
    have hRest := ih hStep
    rw [List.append_assoc, List.singleton_append] at hRest
    exact hRest

/-- The layers swept so far are `order`, and `layer` is the one with index `k`. -/
structure Levelled (V : List α) (E : List (α × α)) (indeg : Dict α Nat) (k : Nat)
    (layer order : List α) : Prop where
  balanced : Balanced V E (waiting E order) indeg layer order
  forward : Forward E order
  below : ∀ v ∈ order, ∃ n < k, Height (Adj E) v n
  level : ∀ v ∈ layer, Height (Adj E) v k

theorem Levelled.perm {V : List α} {E : List (α × α)} {indeg : Dict α Nat} {k : Nat}
    {layer' : List α} (h : Levelled V E indeg k layer order) (hPerm : layer'.Perm layer) :
    Levelled V E indeg k layer' order :=
  ⟨h.balanced.perm hPerm, h.forward, h.below, fun v hv => h.level v (hPerm.subset hv)⟩

omit [DecidableEq α] in
theorem Forward.append {E : List (α × α)} (h : Forward E order)
    (hLayer : ∀ v ∈ layer, ∀ u, Adj E u v → u ∈ order) : Forward E (order ++ layer) := by
  induction layer using List.reverseRecOn with
  | nil => simpa using h
  | append_singleton layer v ih =>
    rw [← List.append_assoc]
    refine (ih fun w hw => hLayer w (List.mem_append_left _ hw)).concat fun u hu => ?_
    exact List.mem_append_left _
      (hLayer v (List.mem_append_right _ (List.mem_singleton_self v)) u hu)

theorem Levelled.sweep {V : List α} {E : List (α × α)} {indeg : Dict α Nat} {k : Nat}
    (h : Levelled V E indeg k layer order) :
    Levelled V E (sweep E (indeg, []) layer).1 (k + 1) (EdgeList.sweep E (indeg, []) layer).2
      (order ++ layer) := by
  have hStart : Balanced V E (waiting E order) indeg (layer ++ []) order := by
    rw [List.append_nil]
    exact h.balanced
  have hBalanced := hStart.sweep
  have hSources : ∀ v ∈ layer, ∀ u, Adj E u v → u ∈ order := fun v hv =>
    waiting_eq_zero.mp ((h.balanced.ready v).mp (List.mem_append_right _ hv)).2
  have hBelow : ∀ v ∈ order ++ layer, ∃ n ≤ k, Height (Adj E) v n := by
    intro v hv
    rcases List.mem_append.mp hv with hv | hv
    · obtain ⟨n, hn, hHeight⟩ := h.below v hv
      exact ⟨n, hn.le, hHeight⟩
    · exact ⟨k, Nat.le_refl k, h.level v hv⟩
  refine ⟨hBalanced, h.forward.append hSources, fun v hv => ?_, fun v hv => ?_⟩
  · obtain ⟨n, hn, hHeight⟩ := hBelow v hv
    exact ⟨n, Nat.lt_succ_of_le hn, hHeight⟩
  · obtain ⟨hKnown, hZero⟩ := (hBalanced.ready v).mp (List.mem_append_right _ hv)
    have hNew : v ∉ order ++ layer := fun hOld =>
      (List.nodup_append.mp hBalanced.nodup).2.2 v hOld v hv rfl
    -- a source in `layer` kept `v` waiting until now
    have hSource : ∃ u ∈ layer, Adj E u v := by
      by_contra hNone
      refine hNew ((h.balanced.ready v).mpr ⟨hKnown, waiting_eq_zero.mpr fun u hu => ?_⟩)
      rcases List.mem_append.mp (waiting_eq_zero.mp hZero u hu) with hu' | hu'
      · exact hu'
      · exact absurd ⟨u, hu', hu⟩ hNone
    obtain ⟨u, hu, huv⟩ := hSource
    exact height_succ (h.level u hu) huv fun u' hu' => hBelow u' (waiting_eq_zero.mp hZero u' hu')

/-- What the loop returns from layer `k` on. -/
structure Layered (V : List α) (E : List (α × α)) (k : Nat) (order : List α)
    (result : List (List α)) : Prop where
  nodup : (order ++ result.flatten).Nodup
  complete : ∀ v, v ∈ order ++ result.flatten ↔ Settles V E v
  height : ∀ i layer, result[i]? = some layer → ∀ v ∈ layer, Height (Adj E) v (k + i)
  nonempty : [] ∉ result

theorem layersLoop_spec {V : List α} {E : List (α × α)} {K : List α}
    {arrange : List α → List α} (hArrange : ∀ l, (arrange l).Perm l)
    (hK : ∀ v, Known V E v → v ∈ K) (n k : Nat) (indeg : Dict α Nat) (layer order : List α)
    (h : Levelled V E indeg k layer order) (hFuel : K.length ≤ n + order.length) :
    Layered V E k order (layersLoop arrange E n indeg layer) := by
  have hDone : ∀ {indeg order k}, Levelled V E indeg k [] order → Layered V E k order [] := by
    intro indeg order k hEnd
    have hNodup := hEnd.balanced.nodup
    rw [List.append_nil] at hNodup
    refine ⟨by simpa using hNodup, fun v => ?_, fun i layer hi => by simp at hi, by simp⟩
    simpa using hEnd.balanced.mem_iff_settles hEnd.forward v
  induction n generalizing k indeg layer order with
  | zero =>
    -- the order already lists every known vertex, so nothing is queued
    have hSub : order ++ layer ⊆ K := fun v hv => hK v ((h.balanced.ready v).mp hv).1
    have hLen := (List.subperm_of_subset h.balanced.nodup hSub).length_le
    rw [List.length_append] at hLen
    have hNil : layer = [] := List.length_eq_zero_iff.mp (by omega)
    subst hNil
    exact hDone h
  | succ n ih =>
    cases layer with
    | nil => exact hDone h
    | cons u layer =>
      have hRest := ih (k + 1) _ _ (order ++ u :: layer) (h.sweep.perm (hArrange _)) (by
        rw [List.length_append, List.length_cons]
        omega)
      have hFlat : order ++ ((u :: layer) :: layersLoop arrange E n
          (EdgeList.sweep E (indeg, []) (u :: layer)).1
          (arrange (EdgeList.sweep E (indeg, []) (u :: layer)).2)).flatten =
          order ++ u :: layer ++ (layersLoop arrange E n
            (EdgeList.sweep E (indeg, []) (u :: layer)).1
            (arrange (EdgeList.sweep E (indeg, []) (u :: layer)).2)).flatten := by
        rw [List.flatten_cons, List.append_assoc]
      refine ⟨hFlat ▸ hRest.nodup, fun v => hFlat ▸ hRest.complete v, fun i l hi v hv => ?_, ?_⟩
      · cases i with
        | zero =>
          have hEq : u :: layer = l := by simpa [layersLoop] using hi
          rw [← hEq] at hv
          exact h.level v hv
        | succ i =>
          have hHeight := hRest.height i l (by simpa [layersLoop] using hi) v hv
          rw [Nat.add_right_comm, Nat.add_assoc] at hHeight
          exact hHeight
      · intro hMem
        rcases List.mem_cons.mp hMem with hMem | hMem
        · cases hMem
        · exact hRest.nonempty hMem

/-- **Layers.** What settles is split into layers by the length of the longest path. -/
theorem layers_spec {arrange : List α → List α} (hArrange : ∀ l, (arrange l).Perm l)
    (V : List α) (E : List (α × α)) : Layered V E 0 [] (layers arrange V E) := by
  have hStart : Levelled V E (indegrees V E) 0
      ((indegrees V E).keys.filter fun v => (indegrees V E).get? v = some 0) [] := by
    have hBalanced := balanced_start V E
    refine ⟨hBalanced, fun before v after hEq => by simp at hEq,
      fun v hv => absurd hv List.not_mem_nil, fun v hv => height_zero fun u hu => ?_⟩
    have hZero := ((hBalanced.ready v).mp hv).2
    exact absurd (waiting_eq_zero.mp hZero u hu) List.not_mem_nil
  exact layersLoop_spec (K := V ++ E.map Prod.snd) hArrange (fun v hv => List.mem_append.mpr hv)
    _ 0 _ _ [] (hStart.perm (hArrange _)) (by rw [List.length_append, List.length_map]; rfl)

namespace Layered

variable {V : List α} {E : List (α × α)} {result : List (List α)}

omit [DecidableEq α] in
theorem height_at (h : Layered V E 0 [] result) {i : Nat} {layer : List α}
    (hi : result[i]? = some layer) {v : α} (hv : v ∈ layer) : Height (Adj E) v i := by
  have hAt := h.height i layer hi v hv
  rw [Nat.zero_add] at hAt
  exact hAt

omit [DecidableEq α] in
theorem exists_index (h : Layered V E 0 [] result) {v : α} (hv : Settles V E v) :
    ∃ (i : Nat) (layer : List α), result[i]? = some layer ∧ v ∈ layer := by
  obtain ⟨layer, hLayer, hvLayer⟩ := List.mem_flatten.mp ((h.complete v).mpr hv)
  obtain ⟨i, hi⟩ := List.getElem?_of_mem hLayer
  exact ⟨i, layer, hi, hvLayer⟩

omit [DecidableEq α] in
theorem mem_iff (h : Layered V E 0 [] result) {i : Nat} {layer : List α}
    (hi : result[i]? = some layer) (v : α) :
    v ∈ layer ↔ Settles V E v ∧ Height (Adj E) v i := by
  constructor
  · intro hv
    exact ⟨(h.complete v).mp (List.mem_flatten.mpr ⟨layer, List.mem_of_getElem? hi, hv⟩),
      h.height_at hi hv⟩
  · rintro ⟨hv, hAt⟩
    obtain ⟨j, layer', hj, hv'⟩ := h.exists_index hv
    obtain rfl := hAt.unique (h.height_at hj hv')
    obtain rfl := Option.some.inj (hi.symm.trans hj)
    exact hv'

omit [DecidableEq α] in
theorem length_chain_le (h : Layered V E 0 [] result) {path : List α}
    (hChain : path.IsChain (Adj E)) (hSettles : ∀ v ∈ path, Settles V E v) :
    path.length ≤ result.length := by
  induction path using List.reverseRecOn with
  | nil => exact Nat.zero_le _
  | append_singleton path v _ =>
    have hv := hSettles v (List.mem_append_right _ (List.mem_singleton_self v))
    obtain ⟨i, layer, hi, hvLayer⟩ := h.exists_index hv
    have hLe := (h.height_at hi hvLayer).longest _ (endsAt_iff_chain.mpr ⟨path, hChain, rfl⟩)
    have hLt := (List.getElem?_eq_some_iff.mp hi).1
    rw [List.length_append, List.length_singleton]
    omega

omit [DecidableEq α] in
theorem exists_chain (h : Layered V E 0 [] result) :
    ∃ path : List α, path.IsChain (Adj E) ∧ (∀ v ∈ path, Settles V E v) ∧
      path.length = result.length := by
  induction result using List.reverseRecOn with
  | nil => exact ⟨[], List.isChain_nil, fun v hv => absurd hv List.not_mem_nil, rfl⟩
  | append_singleton init layer _ =>
    have hLast : (init ++ [layer])[init.length]? = some layer := by simp
    have hNonempty : layer ≠ [] := fun hEmpty =>
      h.nonempty (hEmpty ▸ List.mem_of_getElem? hLast)
    obtain ⟨v, hv⟩ := List.exists_mem_of_ne_nil layer hNonempty
    obtain ⟨hSettles, hAt⟩ := (h.mem_iff hLast v).mp hv
    obtain ⟨path, hChain, hLen⟩ := endsAt_iff_chain.mp hAt.reached
    refine ⟨path ++ [v], hChain, settles_of_chain hChain hSettles, ?_⟩
    rw [List.length_append, List.length_append, hLen, List.length_singleton,
      List.length_singleton]

end Layered

end EdgeList
