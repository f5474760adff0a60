import Mathlib.Data.Set.Card
import Neuroswarm.Lib.EdgeList

/-!
# Topological orders

What it means for a list to order a graph, and when Kahn's algorithm, which counts what it
ordered and compares the count with the number of listed vertices, agrees with that. Edges
may lead to and from vertices that are not listed.

* `kahn_length_iff` — the count is right exactly when as many vertices settle that are not
  listed as are listed and do not.
* `arrangedOrder_agrees_iff` — when the verdict and the order are those of the graph.
* `within_vertices` — with the ends of edges listed too, they always are.
-/

namespace EdgeList

variable {α : Type*}

def Vertex (V : List α) (E : List (α × α)) (v : α) : Prop :=
  v ∈ V ∨ ∃ u, Adj E u v ∨ Adj E v u

/-- Every vertex once, after the sources of its edges. -/
structure Topological (V : List α) (E : List (α × α)) (order : List α) : Prop where
  nodup : order.Nodup
  complete : ∀ v, v ∈ order ↔ Vertex V E v
  forward : Forward E order

/-- The edges join listed vertices. -/
def Within (V : List α) (E : List (α × α)) : Prop := ∀ u v, Adj E u v → u ∈ V ∧ v ∈ V

variable {V : List α} {E : List (α × α)}

theorem Within.vertex_iff (h : Within V E) {v : α} :
    Vertex V E v ↔ v ∈ V := by
  constructor
  · rintro (hv | ⟨u, huv | hvu⟩)
    · exact hv
    · exact (h u v huv).2
    · exact (h v u hvu).1
  · exact .inl

theorem Within.settles_iff (h : Within V E) (hAcyclic : Acyclic (Adj E)) {v : α} :
    Settles V E v ↔ v ∈ V := by
  classical
  constructor
  · intro hv
    cases hv with
    | intro v hKnown _ =>
      rcases hKnown with hv | hv
      · exact hv
      · obtain ⟨⟨u, w⟩, he, rfl⟩ := List.mem_map.mp hv
        exact (h u w he).2
  · intro hv
    by_contra hNot
    -- among the listed vertices that do not settle, one has no such source
    obtain ⟨a, ha, hMin⟩ := exists_minimal hAcyclic (s := V.filter fun v => ¬ Settles V E v)
      (List.ne_nil_of_mem (List.mem_filter.mpr ⟨hv, decide_eq_true hNot⟩))
    obtain ⟨haV, haNot⟩ := List.mem_filter.mp ha
    refine of_decide_eq_true haNot (.intro a (.inl haV) fun u hu => ?_)
    by_contra hu'
    exact hMin u (List.mem_filter.mpr ⟨(h u a hu).1, decide_eq_true hu'⟩) hu

def Strays (V : List α) (E : List (α × α)) : Set α := {v | v ∉ V ∧ Settles V E v}

def Stuck (V : List α) (E : List (α × α)) : Set α := {v | v ∈ V ∧ ¬ Settles V E v}

variable [DecidableEq α]

theorem kahn_length_iff (hV : V.Nodup) :
    (kahn V E).length = V.length ↔ (Strays V E).ncard = (Stuck V E).ncard := by
  obtain ⟨hNodup, hMem⟩ := kahn_spec V E
  have hStrays : Strays V E = ↑((kahn V E).toFinset \ V.toFinset) := by
    ext v
    simp [Strays, hMem, and_comm]
  have hStuck : Stuck V E = ↑(V.toFinset \ (kahn V E).toFinset) := by
    ext v
    simp [Stuck, hMem]
  rw [hStrays, hStuck, Set.ncard_coe_finset, Set.ncard_coe_finset]
  have hLeft := Finset.card_sdiff_add_card_inter (kahn V E).toFinset V.toFinset
  have hRight := Finset.card_sdiff_add_card_inter V.toFinset (kahn V E).toFinset
  rw [List.toFinset_card_of_nodup hNodup] at hLeft
  rw [List.toFinset_card_of_nodup hV, Finset.inter_comm] at hRight
  omega

theorem arrangedOrder_topological {arrange : List α → List α} (hArrange : ∀ l, (arrange l).Perm l)
    (h : Within V E) (hAcyclic : Acyclic (Adj E)) :
    Topological V E (arrangedOrder arrange V E) := by
  obtain ⟨hNodup, hForward, hMem⟩ := arrangedOrder_spec hArrange V E
  refine ⟨hNodup, fun v => ?_, hForward⟩
  rw [hMem, h.settles_iff hAcyclic, h.vertex_iff]

omit [DecidableEq α] in
theorem Topological.within {order : List α} (h : Topological V E order) (hV : V.Nodup)
    (hLen : order.length = V.length) : Within V E := by
  have hSub : V ⊆ order := fun v hv => (h.complete v).mpr (.inl hv)
  have hPerm := (List.subperm_of_subset hV hSub).perm_of_length_le hLen.le
  intro u v huv
  exact ⟨hPerm.symm.subset ((h.complete u).mpr (.inr ⟨v, .inr huv⟩)),
    hPerm.symm.subset ((h.complete v).mpr (.inr ⟨u, .inl huv⟩))⟩

/-- Where counting the ordered vertices decides acyclicity: the edges of an acyclic graph join
listed vertices, and in a cyclic one the count is not right by chance. -/
structure CountDecides (V : List α) (E : List (α × α)) : Prop where
  acyclic : Acyclic (Adj E) → Within V E
  cyclic : ¬ Acyclic (Adj E) → (Strays V E).ncard ≠ (Stuck V E).ncard

theorem arrangedOrder_agrees_iff {arrange : List α → List α} (hArrange : ∀ l, (arrange l).Perm l)
    (hV : V.Nodup) :
    (((kahn V E).length = V.length ↔ Acyclic (Adj E)) ∧
      (Acyclic (Adj E) → Topological V E (arrangedOrder arrange V E))) ↔ CountDecides V E := by
  have hLength : (arrangedOrder arrange V E).length = (kahn V E).length := by
    obtain ⟨hNodup, hMem⟩ := kahn_spec V E
    obtain ⟨hNodup', -, hMem'⟩ := arrangedOrder_spec hArrange V E
    refine (List.perm_of_nodup_nodup_toFinset_eq hNodup' hNodup ?_).length_eq
    ext v
    rw [List.mem_toFinset, List.mem_toFinset, hMem, hMem']
  constructor
  · rintro ⟨hVerdict, hOrder⟩
    refine ⟨fun hAcyclic => ?_, fun hCyclic hCount => ?_⟩
    · exact (hOrder hAcyclic).within hV (hLength.trans (hVerdict.mpr hAcyclic))
    · exact hCyclic (hVerdict.mp ((kahn_length_iff hV).mpr hCount))
  · intro h
    refine ⟨⟨fun hLen => ?_, fun hAcyclic => ?_⟩, fun hAcyclic => ?_⟩
    · by_contra hNot
      exact h.cyclic hNot ((kahn_length_iff hV).mp hLen)
    · exact (kahn_complete_iff hV (h.acyclic hAcyclic)).mpr hAcyclic
    · exact arrangedOrder_topological hArrange (h.acyclic hAcyclic) hAcyclic

-- ------ The ends of edges as vertices

/-- The listed vertices and the ends of edges, once each. -/
def vertices (V : List α) (E : List (α × α)) : List α :=
  (V ++ E.map Prod.fst ++ E.map Prod.snd).dedup

theorem nodup_vertices (V : List α) (E : List (α × α)) : (vertices V E).Nodup :=
  List.nodup_dedup _

theorem mem_vertices {v : α} :
    v ∈ vertices V E ↔ Vertex V E v := by
  unfold vertices Vertex Adj
  rw [List.mem_dedup, List.mem_append, List.mem_append, List.mem_map, List.mem_map, or_assoc]
  refine or_congr Iff.rfl ?_
  constructor
  · rintro (⟨⟨a, b⟩, he, rfl⟩ | ⟨⟨a, b⟩, he, rfl⟩)
    · exact ⟨b, .inr he⟩
    · exact ⟨a, .inl he⟩
  · rintro ⟨u, he | he⟩
    · exact .inr ⟨(u, v), he, rfl⟩
    · exact .inl ⟨(v, u), he, rfl⟩

theorem within_vertices (V : List α) (E : List (α × α)) : Within (vertices V E) E := fun u v huv =>
  ⟨mem_vertices.mpr (.inr ⟨v, .inr huv⟩), mem_vertices.mpr (.inr ⟨u, .inl huv⟩)⟩

theorem Topological.of_vertices {order : List α} (h : Topological (vertices V E) E order) :
    Topological V E order := by
  refine ⟨h.nodup, fun v => ?_, h.forward⟩
  rw [h.complete, (within_vertices V E).vertex_iff, mem_vertices]

omit [DecidableEq α] in
theorem Topological.congr {E' : List (α × α)} {order : List α} (h : Topological V E order)
    (hAdj : ∀ u v, Adj E u v ↔ Adj E' u v) :
    Topological V E' order := by
  refine ⟨h.nodup, fun v => ?_, fun before v after hEq u huv => ?_⟩
  · rw [h.complete]
    unfold Vertex
    simp only [hAdj]
  · exact h.forward before v after hEq u ((hAdj u v).mpr huv)

end EdgeList
