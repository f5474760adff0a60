import Mathlib.Algebra.BigOperators.Group.List.Basic
import Mathlib.Algebra.Order.Group.Defs
import Mathlib.Algebra.Order.Monoid.Defs
import Mathlib.Data.List.Chain
import Mathlib.Data.List.MinMax
import Neuroswarm.Lib.EdgeList
import Neuroswarm.Lib.TopologicalOrder

/-!
# Longest paths by relaxation

Edges have weights; a table holds for every vertex the weight of a path to it and the vertex
before it on that path. Edges are relaxed along a topological order, then the path to a
vertex is walked back.

* `pathWeight` — the sum of the weights along a path.
* `exists_foldlM_along` — what a fold along a topological order establishes.
* `longest_relaxed` — after all edges the table is relaxed.
* `Relaxed.isLongest` — the path that is walked back from a greatest entry is a longest one.
* `exists_isLongest` — an acyclic graph has a longest path.
-/

namespace EdgeList

variable {α W : Type*} [AddCommGroup W]

def pathWeight (w : α → α → W) : List α → W
  | u :: v :: path => w u v + pathWeight w (v :: path)
  | _ => 0

/-- For every vertex the weight of a path to it, and the vertex before it. -/
structure Table (α W : Type*) where
  dist : α → W
  pred : α → Option α

namespace Table

def start : Table α W := ⟨fun _ => 0, fun _ => none⟩

/-- The vertices back from `v`, at most `n` steps. -/
def walkBack (t : Table α W) : Nat → α → List α
  | 0, v => [v]
  | n + 1, v =>
    match t.pred v with
    | some u => walkBack t n u ++ [v]
    | none => [v]

variable [DecidableEq α]

/-- The path to `v` goes over `u`. -/
def settle (w : α → α → W) (u : α) (t : Table α W) (v : α) : Table α W :=
  ⟨Function.update t.dist v (t.dist u + w u v), Function.update t.pred v (some u)⟩

variable [LinearOrder W]

/-- The edge from `u` to `v`. -/
def relax (w : α → α → W) (u : α) (t : Table α W) (v : α) : Table α W :=
  if t.dist v < t.dist u + w u v then
    ⟨Function.update t.dist v (t.dist u + w u v), Function.update t.pred v (some u)⟩
  else t

/-- The edges out of `u`. -/
def visit (E : List (α × α)) (w : α → α → W) (t : Table α W) (u : α) : Table α W :=
  (successors E u).foldl (relax w u) t

end Table

def longest [LinearOrder W] [DecidableEq α] (E : List (α × α)) (w : α → α → W)
    (order : List α) : Table α W :=
  order.foldl (Table.visit E w) .start

-- ------ Weights of paths

theorem pathWeight_concat (w : α → α → W) (path : List α) (u v : α) :
    pathWeight w (path ++ [u] ++ [v]) = pathWeight w (path ++ [u]) + w u v := by
  induction path with
  | nil => simp [pathWeight]
  | cons a path ih =>
    cases path with
    | nil => simp [pathWeight]
    | cons b path =>
      simp only [List.cons_append, pathWeight] at ih ⊢
      rw [ih, add_assoc]

theorem pathWeight_source (f : α → W) (path : List α) (v : α) :
    pathWeight (fun u _ => f u) (path ++ [v]) = (path.map f).sum := by
  induction path using List.reverseRecOn generalizing v with
  | nil => rfl
  | append_singleton path u ih => rw [pathWeight_concat, ih, List.map_append, List.sum_append,
      List.map_singleton, List.sum_singleton]

omit [AddCommGroup W] in
theorem Acyclic.nodup_of_chain {r : α → α → Prop} (h : Acyclic r) {path : List α}
    (hChain : path.IsChain r) : path.Nodup := by
  have hTrans : path.IsChain (Relation.TransGen r) :=
    hChain.imp fun _ _ hStep => Relation.TransGen.single hStep
  refine (List.isChain_iff_pairwise.mp hTrans).imp fun {a b} hab hEq => ?_
  subst hEq
  exact h a hab

omit [AddCommGroup W] in
theorem subset_of_isChain {r : α → α → Prop} {V : List α} (hWithin : ∀ u v, r u v → u ∈ V)
    {path : List α} {v : α} (hv : v ∈ V) (hChain : (path ++ [v]).IsChain r) :
    path ++ [v] ⊆ V := by
  induction path using List.reverseRecOn generalizing v with
  | nil => simpa using hv
  | append_singleton path u ih =>
    obtain ⟨hInit, -, hJoin⟩ := List.isChain_append.mp hChain
    have huv : r u v := hJoin u (by simp) v rfl
    exact List.append_subset.mpr ⟨ih (hWithin u v huv) hInit, by simpa using hv⟩

-- ------ The invariant

variable [LinearOrder W]

/-- `done u v` says that the edge from `u` to `v` has been relaxed. -/
structure Relaxed (w : α → α → W) (done : α → α → Prop) (t : Table α W) : Prop where
  nonneg : ∀ v, 0 ≤ t.dist v
  grows : ∀ u v, done u v → t.dist u + w u v ≤ t.dist v
  source : ∀ v, t.pred v = none → t.dist v = 0
  tight : ∀ u v, t.pred v = some u → done u v ∧ t.dist v = t.dist u + w u v

section

variable {w : α → α → W} {done : α → α → Prop} {t : Table α W}

theorem Relaxed.congr (h : Relaxed w done t) {done' : α → α → Prop}
    (hDone : ∀ u v, done u v ↔ done' u v) : Relaxed w done' t where
  nonneg := h.nonneg
  grows u v huv := h.grows u v ((hDone u v).mpr huv)
  source := h.source
  tight u v huv := ⟨(hDone u v).mp (h.tight u v huv).1, (h.tight u v huv).2⟩

theorem Relaxed.keep (h : Relaxed w done t) {u v : α} (hLe : t.dist u + w u v ≤ t.dist v) :
    Relaxed w (fun a b => done a b ∨ (a = u ∧ b = v)) t := by
  refine ⟨h.nonneg, fun a b hab => ?_, h.source, fun a x hx => ?_⟩
  · rcases hab with hab | ⟨rfl, rfl⟩
    · exact h.grows a b hab
    · exact hLe
  · exact ⟨.inl (h.tight a x hx).1, (h.tight a x hx).2⟩

variable [DecidableEq α]

theorem Relaxed.settle (h : Relaxed w done t) {u v : α} (huv : u ≠ v) (hNew : ∀ x, ¬ done v x)
    (hLe : t.dist v ≤ t.dist u + w u v) :
    Relaxed w (fun a b => done a b ∨ (a = u ∧ b = v)) (t.settle w u v) := by
  refine ⟨fun x => ?_, fun a b hab => ?_, fun x hx => ?_, fun a x hx => ?_⟩
  · show 0 ≤ Function.update t.dist v _ x
    by_cases hx : x = v
    · rw [hx, Function.update_self]
      exact (h.nonneg v).trans hLe
    · rw [Function.update_of_ne hx]
      exact h.nonneg x
  · show Function.update t.dist v _ a + w a b ≤ Function.update t.dist v _ b
    rcases hab with hab | ⟨rfl, rfl⟩
    · have ha : a ≠ v := fun hEq => hNew b (hEq ▸ hab)
      rw [Function.update_of_ne ha]
      by_cases hb : b = v
      · rw [hb, Function.update_self]
        exact (h.grows a v (hb ▸ hab)).trans hLe
      · rw [Function.update_of_ne hb]
        exact h.grows a b hab
    · rw [Function.update_of_ne huv, Function.update_self]
  · show Function.update t.dist v _ x = 0
    have hNone : Function.update t.pred v (some u) x = none := hx
    by_cases hEq : x = v
    · rw [hEq, Function.update_self] at hNone
      cases hNone
    · rw [Function.update_of_ne hEq] at hNone ⊢
      exact h.source x hNone
  · have hSome : Function.update t.pred v (some u) x = some a := hx
    show _ ∧ Function.update t.dist v _ x = Function.update t.dist v _ a + w a x
    by_cases hEq : x = v
    · rw [hEq, Function.update_self] at hSome
      cases hSome
      rw [hEq, Function.update_self, Function.update_of_ne huv]
      exact ⟨.inr ⟨rfl, rfl⟩, rfl⟩
    · rw [Function.update_of_ne hEq] at hSome
      obtain ⟨hDone, hTight⟩ := h.tight a x hSome
      have ha : a ≠ v := fun hav => hNew x (hav ▸ hDone)
      rw [Function.update_of_ne hEq, Function.update_of_ne ha]
      exact ⟨.inl hDone, hTight⟩

theorem Relaxed.relax (h : Relaxed w done t) {u v : α} (huv : u ≠ v) (hNew : ∀ x, ¬ done v x) :
    Relaxed w (fun a b => done a b ∨ (a = u ∧ b = v)) (t.relax w u v) := by
  unfold Table.relax
  split
  · next hLt => exact h.settle huv hNew hLt.le
  · next hLt => exact h.keep (not_lt.mp hLt)

end

theorem relaxed_start {w : α → α → W} :
    Relaxed w (fun _ _ => False) (.start : Table α W) where
  nonneg _ := le_rfl
  grows _ _ h := h.elim
  source _ _ := rfl
  tight _ _ h := nomatch h

-- ------ Along the order

section

variable {ε σ : Type*} {Inv : (α → α → Prop) → σ → Prop} {done : α → α → Prop} {s : σ}

/-- The edges from `u`, one by one. -/
theorem exists_foldlM_targets (step : σ → α → Except ε σ) {u : α} (targets : List α)
    (hStep : ∀ v ∈ targets, ∀ {done s}, Inv done s → (∀ x, ¬ done v x) →
      ∃ s', step s v = .ok s' ∧ Inv (fun a b => done a b ∨ (a = u ∧ b = v)) s')
    (hu : u ∉ targets) (hNew : ∀ v ∈ targets, ∀ x, ¬ done v x) (h : Inv done s) :
    ∃ s', targets.foldlM step s = .ok s' ∧
      Inv (fun a b => done a b ∨ (a = u ∧ b ∈ targets)) s' := by
  induction targets generalizing done s with
  | nil => exact ⟨s, rfl, by simpa using h⟩
  | cons v targets ih =>
    rw [List.mem_cons, not_or] at hu
    obtain ⟨s₁, hFirst, h₁⟩ := hStep v (List.mem_cons_self ..) h (hNew v (List.mem_cons_self ..))
    obtain ⟨s₂, hRest, h₂⟩ := ih (fun x hx => hStep x (List.mem_cons_of_mem _ hx)) hu.2
      (fun x hx y => by
        rintro (hDone | ⟨rfl, -⟩)
        · exact hNew x (List.mem_cons_of_mem _ hx) y hDone
        · exact hu.2 hx) h₁
    refine ⟨s₂, ?_, ?_⟩
    · rw [List.foldlM_cons, hFirst]
      exact hRest
    · convert h₂ using 3 with a b
      rw [List.mem_cons]
      tauto

/-- **Along a topological order** every edge is met once, after all edges into its source. -/
theorem exists_foldlM_along [DecidableEq α] {E : List (α × α)} (hAcyclic : Acyclic (Adj E))
    (visit : σ → α → Except ε σ) (rest before : List α)
    (hVisit : ∀ u ∈ rest, ∀ {done s}, Inv done s →
      (∀ v ∈ successors E u, ∀ x, ¬ done v x) → u ∉ successors E u →
      ∃ s', visit s u = .ok s' ∧ Inv (fun a b => done a b ∨ (a = u ∧ b ∈ successors E u)) s')
    (hForward : Forward E (before ++ rest)) (hNodup : (before ++ rest).Nodup)
    (h : Inv (fun u v => u ∈ before ∧ Adj E u v) s) :
    ∃ s', rest.foldlM visit s = .ok s' ∧
      Inv (fun u v => u ∈ before ++ rest ∧ Adj E u v) s' := by
  induction rest generalizing before s with
  | nil => exact ⟨s, rfl, by simpa using h⟩
  | cons u rest ih =>
    have hLater : ∀ v, Adj E u v → v ∉ before := by
      -- what comes before `u` has its sources before `u`
      intro v huv hv
      obtain ⟨l, l', rfl⟩ := List.append_of_mem hv
      have hSource := hForward l v (l' ++ u :: rest) (by simp) u huv
      exact (List.nodup_append.mp hNodup).2.2 u (List.mem_append_left _ hSource) u
        (List.mem_cons_self ..) rfl
    obtain ⟨s₁, hFirst, h₁⟩ := hVisit u (List.mem_cons_self ..) h
      (fun v hv x hx => hLater v (mem_successors.mp hv) hx.1)
      fun hu => hAcyclic.irrefl u (mem_successors.mp hu)
    have hAppend : before ++ u :: rest = before ++ [u] ++ rest := by simp
    rw [hAppend] at hForward hNodup ⊢
    obtain ⟨s₂, hRest, h₂⟩ := ih (before ++ [u])
      (fun x hx => hVisit x (List.mem_cons_of_mem _ hx)) hForward hNodup (by
        convert h₁ using 3 with a b
        rw [List.mem_append, List.mem_singleton, mem_successors, or_and_right]
        exact or_congr_right (and_congr_right fun hEq => by rw [hEq]))
    refine ⟨s₂, ?_, h₂⟩
    rw [List.foldlM_cons, hFirst]
    exact hRest

end

theorem longest_relaxed [DecidableEq α] {V : List α} {E : List (α × α)} {order : List α}
    (w : α → α → W) (hAcyclic : Acyclic (Adj E)) (hOrder : Topological V E order) :
    Relaxed w (Adj E) (longest E w order) := by
  have hStart : Relaxed w (fun u v => u ∈ [] ∧ Adj E u v) (.start : Table α W) :=
    relaxed_start.congr fun u v => by simp
  obtain ⟨t, hFold, hAll⟩ := exists_foldlM_along hAcyclic
    (fun t u => (pure (t.visit E w u) : Except Empty _)) order [] (fun u _ done t h hNew hu => by
      obtain ⟨t', hFold, h'⟩ := exists_foldlM_targets
        (fun t v => (pure (t.relax w u v) : Except Empty _)) (successors E u)
        (fun v hv _ _ h hNew => ⟨_, rfl, h.relax (fun hEq => hu (hEq ▸ hv)) hNew⟩) hu hNew h
      rw [List.foldlM_pure] at hFold
      cases hFold
      exact ⟨_, rfl, h'⟩) hOrder.forward hOrder.nodup hStart
  rw [List.foldlM_pure] at hFold
  cases hFold
  refine hAll.congr fun u v => ?_
  rw [List.nil_append]
  exact ⟨And.right, fun huv => ⟨(hOrder.complete u).mpr (.inr ⟨v, .inr huv⟩), huv⟩⟩

-- ------ Paths and the table

section

variable {w : α → α → W} {r : α → α → Prop} {t : Table α W}

/-- **No path to `v` weighs more than the table says.** -/
theorem Relaxed.pathWeight_le [IsOrderedAddMonoid W] (h : Relaxed w r t) {path : List α} {v : α}
    (hChain : (path ++ [v]).IsChain r) : pathWeight w (path ++ [v]) ≤ t.dist v := by
  induction path using List.reverseRecOn generalizing v with
  | nil => exact h.nonneg v
  | append_singleton path u ih =>
    obtain ⟨hInit, -, hJoin⟩ := List.isChain_append.mp hChain
    have huv : r u v := hJoin u (by simp) v rfl
    calc pathWeight w (path ++ [u] ++ [v]) = pathWeight w (path ++ [u]) + w u v :=
          pathWeight_concat w path u v
      _ ≤ t.dist u + w u v := by
        have hInitLe := ih hInit
        gcongr
      _ ≤ t.dist v := h.grows u v huv

theorem Relaxed.exists_walkBack (h : Relaxed w r t) (n : Nat) (v : α) :
    ∃ before, t.walkBack n v = before ++ [v] ∧ (before ++ [v]).IsChain r ∧
      (before.length = n ∨ pathWeight w (before ++ [v]) = t.dist v) := by
  induction n generalizing v with
  | zero => exact ⟨[], rfl, List.isChain_singleton v, .inl rfl⟩
  | succ n ih =>
    unfold Table.walkBack
    cases hPred : t.pred v with
    | none => exact ⟨[], rfl, List.isChain_singleton v, .inr (h.source v hPred).symm⟩
    | some u =>
      obtain ⟨hDone, hTight⟩ := h.tight u v hPred
      obtain ⟨before, hWalk, hChain, hWeight⟩ := ih u
      refine ⟨before ++ [u], congrArg (· ++ [v]) hWalk, ?_, ?_⟩
      · refine List.isChain_append.mpr ⟨hChain, List.isChain_singleton v, fun x hx y hy => ?_⟩
        simp only [List.getLast?_append, List.getLast?_singleton, Option.some_or,
          Option.mem_some_iff] at hx
        simp only [List.head?_cons, Option.mem_some_iff] at hy
        rw [← hx, ← hy]
        exact hDone
      · rcases hWeight with hLength | hWeight
        · left
          rw [List.length_append, hLength, List.length_singleton]
        · right
          rw [pathWeight_concat, hWeight, hTight]

/-- **The path that is walked back** to a vertex weighs what the table says. -/
theorem Relaxed.walkBack_spec (h : Relaxed w r t) (hAcyclic : Acyclic r) {V : List α}
    (hWithin : ∀ u v, r u v → u ∈ V) {v : α} (hv : v ∈ V) :
    ∃ before, t.walkBack V.length v = before ++ [v] ∧ (before ++ [v]).IsChain r ∧
      pathWeight w (before ++ [v]) = t.dist v := by
  obtain ⟨before, hWalk, hChain, hLength | hWeight⟩ := h.exists_walkBack V.length v
  · -- a path does not repeat a vertex, so the steps do not run out
    have hSubset : before ++ [v] ⊆ V := subset_of_isChain hWithin hv hChain
    have hShort := (List.subperm_of_subset (hAcyclic.nodup_of_chain hChain) hSubset).length_le
    rw [List.length_append, hLength, List.length_singleton] at hShort
    omega
  · exact ⟨before, hWalk, hChain, hWeight⟩

end

-- ------ Longest paths

/-- A path of the graph, empty only where the graph is, that no other path outweighs. -/
structure IsLongest (V : List α) (E : List (α × α)) (w : α → α → W)
    (path : List α) : Prop where
  joined : path.IsChain (Adj E)
  within : ∀ v ∈ path, Vertex V E v
  nonempty : ∀ v, Vertex V E v → path ≠ []
  longest : ∀ other, other.IsChain (Adj E) → (∀ v ∈ other, Vertex V E v) →
    pathWeight w other ≤ pathWeight w path

section

variable {V : List α} {E E' : List (α × α)} {w : α → α → W} {path : List α}

theorem IsLongest.congr (h : IsLongest V E w path) (hEdges : ∀ u v, Adj E u v ↔ Adj E' u v) :
    IsLongest V E' w path := by
  have hAdj : Adj E = Adj E' := by
    funext u v
    exact propext (hEdges u v)
  have hVertex : ∀ v, Vertex V E v ↔ Vertex V E' v := fun v => by simp [Vertex, hEdges]
  refine ⟨hAdj ▸ h.joined, fun v hv => (hVertex v).mp (h.within v hv),
    fun v hv => h.nonempty v ((hVertex v).mpr hv), fun other hJoined hWithin => ?_⟩
  exact h.longest other (hAdj ▸ hJoined) fun v hv => (hVertex v).mpr (hWithin v hv)

/-- **A longest path**: walked back from a vertex whose entry is greatest. -/
theorem Relaxed.isLongest [IsOrderedAddMonoid W] {t : Table α W} (h : Relaxed w (Adj E) t)
    (hAcyclic : Acyclic (Adj E)) {U : List α} (hU : ∀ v, v ∈ U ↔ Vertex V E v) {v : α}
    (hv : U.argmax t.dist = some v) : IsLongest V E w (t.walkBack U.length v) := by
  have hWithin : ∀ a b, Adj E a b → a ∈ U := fun a b hab => (hU a).mpr (.inr ⟨b, .inr hab⟩)
  have hMem : v ∈ U := List.argmax_mem hv
  obtain ⟨before, hWalk, hChain, hWeight⟩ := h.walkBack_spec hAcyclic hWithin hMem
  rw [hWalk]
  refine ⟨hChain, fun x hx => (hU x).mp (subset_of_isChain hWithin hMem hChain hx), by simp,
    fun other hJoined hOther => ?_⟩
  rw [hWeight]
  rcases List.eq_nil_or_concat' other with rfl | ⟨path, u, rfl⟩
  · exact h.nonneg v
  · have hu : u ∈ U := (hU u).mpr (hOther u (by simp))
    exact (h.pathWeight_le hJoined).trans (List.le_of_mem_argmax hu hv)

end

theorem exists_isLongest [DecidableEq α] [IsOrderedAddMonoid W] (V : List α)
    {E : List (α × α)} (w : α → α → W) (hAcyclic : Acyclic (Adj E)) :
    ∃ path, IsLongest V E w path := by
  have hOrder : Topological (vertices V E) E (arrangedOrder id (vertices V E) E) :=
    arrangedOrder_topological (fun l => List.Perm.refl l) (within_vertices V E) hAcyclic
  have hRelaxed := longest_relaxed w hAcyclic hOrder
  cases hBest : (vertices V E).argmax (longest E w (arrangedOrder id (vertices V E) E)).dist with
  | none =>
    have hNone : ∀ v, ¬ Vertex V E v := by
      intro v hv
      have hMem := mem_vertices.mpr hv
      rw [List.argmax_eq_none.mp hBest] at hMem
      cases hMem
    refine ⟨[], List.isChain_nil, by simp, fun v hv => absurd hv (hNone v), fun other _ hWithin => ?_⟩
    cases other with
    | nil => exact le_rfl
    | cons v other => exact absurd (hWithin v (List.mem_cons_self ..)) (hNone v)
  | some v => exact ⟨_, hRelaxed.isLongest hAcyclic (fun v => mem_vertices) hBest⟩

end EdgeList
