import Mathlib.Data.List.Chain
import Mathlib.Data.List.Perm.Subperm
import Mathlib.Logic.Relation
import Neuroswarm.Okf.Pipeline

/-!
# Knowledge compiler — `detect_cycles`

* `dfs_spec` — while no cycle is found, what the search leaves is accessible: every walk from
  there ends.
* `detectCycles_spec` — a cycle is found exactly where there is one, and each is a closed walk.

A predicate that cannot be hashed raises; `optimize_graph`, which runs first, hashes them all.
-/

namespace Neuroswarm.Okf

open Armcascade (Text)
open Relation (TransGen)

-- ------ The edges

def Edge.counts (e : Edge) : Bool :=
  match e.pred with
  | .str pred => pred = "depends_on".toList ∨ pred = "extends".toList
  | _ => false

/-- An edge that counts leads from `u` to `v`. -/
def Depends (edges : List Edge) (u v : Text) : Prop :=
  ∃ e ∈ edges, e.counts = true ∧ e.src = u ∧ e.dst = v

def Next (adj : Dict Text (List Text)) (u v : Text) : Prop := v ∈ (adj.get? u).getD []

/-- One step of the loop that fills `adj`. -/
def addEdge (adj : Dict Text (List Text)) (e : Edge) : Dict Text (List Text) :=
  if e.counts then adj.set e.src ((adj.get? e.src).getD [] ++ [e.dst]) else adj

theorem adjacency_eq {edges : List Edge} (hPred : ∀ e ∈ edges, unhashable e.pred = none) :
    adjacency edges = .ok (edges.foldl addEdge Dict.empty) := by
  unfold adjacency
  generalize (Dict.empty : Dict Text (List Text)) = adj
  induction edges generalizing adj with
  | nil => rfl
  | cons e edges ih =>
    have ih := ih fun e he => hPred e (List.mem_cons_of_mem _ he)
    have hHash := hPred e List.mem_cons_self
    rw [List.foldlM_cons, List.foldl_cons, ← ih]
    unfold addEdge Edge.counts
    cases hValue : e.pred with
    | list => simp [hValue, unhashable] at hHash
    | dict => simp [hValue, unhashable] at hHash
    | str pred =>
      by_cases hCounts : pred = "depends_on".toList ∨ pred = "extends".toList
      · simp only [if_pos hCounts, decide_eq_true hCounts, if_true]
        rfl
      · simp only [if_neg hCounts, decide_eq_false hCounts, Bool.false_eq_true, if_false]
        rfl
    | _ => rfl

theorem mem_keys_of_next {adj : Dict Text (List Text)} {u v : Text} (h : Next adj u v) :
    u ∈ adj.keys := by
  rw [Dict.mem_keys_iff]
  unfold Next at h
  cases hGet : adj.get? u with
  | none => simp [hGet] at h
  | some next => rfl

theorem next_addEdge {adj : Dict Text (List Text)} {e : Edge} {u v : Text} :
    Next (addEdge adj e) u v ↔ Next adj u v ∨ e.counts = true ∧ e.src = u ∧ e.dst = v := by
  unfold addEdge Next
  split
  · next hCounts =>
    rw [Dict.get?_set]
    by_cases hu : u = e.src
    · subst hu
      simp [hCounts, eq_comm]
    · simp [hu, Ne.symm hu]
  · next hCounts => simp [hCounts]

theorem size_addEdge_le (adj : Dict Text (List Text)) (e : Edge) :
    (addEdge adj e).size ≤ adj.size + 1 := by
  unfold addEdge
  split
  · cases h : adj.get? e.src with
    | none => exact (Dict.size_set_of_none h _).le
    | some old => exact (Dict.size_set_of_some h _).le.trans (Nat.le_succ _)
  · exact Nat.le_succ _

theorem foldl_addEdge_spec (edges : List Edge) (adj : Dict Text (List Text)) :
    (edges.foldl addEdge adj).size ≤ adj.size + edges.length ∧
      ∀ u v, Next (edges.foldl addEdge adj) u v ↔ Next adj u v ∨ Depends edges u v := by
  induction edges generalizing adj with
  | nil => exact ⟨le_rfl, fun u v => by simp [Depends]⟩
  | cons e edges ih =>
    obtain ⟨hSize, hNext⟩ := ih (addEdge adj e)
    have hStep := size_addEdge_le adj e
    rw [List.foldl_cons, List.length_cons]
    refine ⟨by omega, fun u v => ?_⟩
    rw [hNext, next_addEdge, or_assoc]
    simp [Depends]

-- ------ Walks

/-- A walk back to where it started, through no other node twice. -/
def ClosedWalk (r : Text → Text → Prop) (walk : List Text) : Prop :=
  ∃ n rest, walk = n :: (rest ++ [n]) ∧ (n :: rest).Nodup ∧ walk.IsChain r

variable {r : Text → Text → Prop}

theorem transGen_of_isChain {u v : Text} {mid : List Text} (h : (u :: (mid ++ [v])).IsChain r) :
    TransGen r u v := by
  induction mid generalizing u with
  | nil => exact .single (List.isChain_cons_cons.mp h).1
  | cons w mid ih =>
    obtain ⟨hFirst, hRest⟩ := List.isChain_cons_cons.mp h
    exact .head hFirst (ih hRest)

/-- Where no walk goes on for ever, none comes back. -/
theorem not_transGen_of_acc {u : Text} (h : Acc (flip r) u) :
    ¬ TransGen r u u := by
  induction h with
  | intro u _ ih =>
    intro hCycle
    obtain ⟨v, hFirst, hBack⟩ := TransGen.head'_iff.mp hCycle
    exact ih v hFirst (TransGen.tail' hBack hFirst)

-- ------ The search

variable {adj : Dict Text (List Text)}

structure Search.Inv (adj : Dict Text (List Text)) (s : Search) : Prop where
  chain : s.path.IsChain (Next adj)
  nodup : s.path.Nodup
  walks : ∀ c ∈ s.cycles, ClosedWalk (Next adj) c
  left : s.cycles = [] → ∀ n ∈ s.visited, n ∉ s.path → Acc (flip (Next adj)) n

/-- What a search from these nodes, one after the other, does. -/
def Searched (adj : Dict Text (List Text)) (s s' : Search) (ns : List Text) : Prop :=
  s'.Inv adj ∧ s'.path = s.path ∧
    (s'.cycles = [] → s.cycles = [] ∧ ∀ n ∈ ns, Acc (flip (Next adj)) n)

theorem Search.Inv.length_path_le {s : Search} (h : s.Inv adj) :
    s.path.length ≤ adj.size + 1 := by
  obtain hNil | ⟨init, last, hPath⟩ := List.eq_nil_or_concat' s.path
  · rw [hNil]
    exact Nat.zero_le _
  have hChain := h.chain
  have hNodup := h.nodup
  rw [hPath] at hChain hNodup ⊢
  have hKeys : init ⊆ adj.keys := by
    intro n hn
    obtain ⟨before, after, rfl⟩ := List.append_of_mem hn
    rw [List.append_assoc] at hChain
    obtain ⟨v, hNext, -⟩ :=
      TransGen.head'_iff.mp (transGen_of_isChain hChain.right_of_append)
    exact mem_keys_of_next hNext
  have hLength := (List.subperm_of_subset hNodup.of_append_left hKeys).length_le
  have hSize : adj.keys.length = adj.size := List.length_map _
  rw [List.length_append, List.length_singleton]
  omega

theorem foldl_searched {f : Search → Text → Search} {p : List Text}
    (hOne : ∀ s n, s.Inv adj → s.path = p → (∀ last ∈ p.getLast?, Next adj last n) →
      Searched adj s (f s n) [n])
    (ns : List Text) (hNext : ∀ n ∈ ns, ∀ last ∈ p.getLast?, Next adj last n)
    {s : Search} (h : s.Inv adj) (hPath : s.path = p) : Searched adj s (ns.foldl f s) ns := by
  induction ns generalizing s with
  | nil => exact ⟨h, rfl, fun hNil => ⟨hNil, nofun⟩⟩
  | cons n ns ih =>
    obtain ⟨hInv, hSame, hFirst⟩ := hOne s n h hPath (hNext n List.mem_cons_self)
    obtain ⟨hInv', hSame', hRest⟩ :=
      ih (fun m hm => hNext m (List.mem_cons_of_mem n hm)) hInv (hSame.trans hPath)
    refine ⟨hInv', hSame'.trans hSame, fun hNil => ?_⟩
    obtain ⟨hNil, hAll⟩ := hRest hNil
    obtain ⟨hNil, hHead⟩ := hFirst hNil
    exact ⟨hNil, List.forall_mem_cons.mpr ⟨hHead n List.mem_cons_self, hAll⟩⟩

/-- The walk that is reported where the search comes back to its path. -/
theorem closedWalk_of_mem {path : List Text} {n : Text} (hChain : path.IsChain r)
    (hNodup : path.Nodup) (hn : n ∈ path) (hNext : ∀ last ∈ path.getLast?, r last n) :
    ClosedWalk r (path.dropWhile (· ≠ n) ++ [n]) := by
  obtain ⟨before, after, rfl⟩ := List.append_of_mem hn
  have hNew : n ∉ before := fun hMem =>
    (List.nodup_append.mp hNodup).2.2 n hMem n List.mem_cons_self rfl
  have hDrop : (before ++ n :: after).dropWhile (· ≠ n) = n :: after := by
    rw [List.dropWhile_append_of_pos]
    · simp
    · intro m hm
      have hNe : m ≠ n := by
        rintro rfl
        exact hNew hm
      simpa using hNe
  rw [hDrop]
  refine ⟨n, after, rfl, hNodup.of_append_right, ?_⟩
  refine hChain.right_of_append.append (.singleton n) ?_
  intro last hLast m hm
  obtain rfl : n = m := by simpa using hm
  refine hNext last ?_
  rwa [List.getLast?_append_of_ne_nil _ (List.cons_ne_nil _ _)]

theorem searched_leave {s s' : Search} {n : Text} (h : s.Inv adj) (hInv : s'.Inv adj)
    (hSame : s'.path = s.path ++ [n])
    (hAll : s'.cycles = [] → s.cycles = [] ∧ ∀ m, Next adj n m → Acc (flip (Next adj)) m) :
    Searched adj s { s' with path := s'.path.dropLast } [n] := by
  have hPop : s'.path.dropLast = s.path := by rw [hSame, List.dropLast_concat]
  have hDone : s'.cycles = [] → Acc (flip (Next adj)) n := fun hNil => .intro n (hAll hNil).2
  rw [hPop]
  refine ⟨⟨h.chain, h.nodup, hInv.walks, fun hNil m hm hOff => ?_⟩, rfl, fun hNil => ?_⟩
  · by_cases hEq : m = n
    · rw [hEq]
      exact hDone hNil
    · refine hInv.left hNil m hm ?_
      rw [hSame, List.mem_append, List.mem_singleton]
      exact fun hOn => hOn.elim hOff hEq
  · refine ⟨(hAll hNil).1, fun m hm => ?_⟩
    rw [List.mem_singleton.mp hm]
    exact hDone hNil

theorem dfs_spec (fuel : ℕ) (s : Search) (n : Text) (h : s.Inv adj)
    (hFuel : adj.size + 1 < fuel + s.path.length)
    (hNext : ∀ last ∈ s.path.getLast?, Next adj last n) :
    Searched adj s (dfs adj fuel n s) [n] := by
  induction fuel generalizing s n with
  | zero =>
    have hShort := h.length_path_le
    omega
  | succ fuel ih =>
    rw [dfs]
    split
    · next hPath =>
      refine ⟨⟨h.chain, h.nodup, ?_, fun hNil => by simp at hNil⟩, rfl, fun hNil => by
        simp at hNil⟩
      intro c hc
      rcases List.mem_append.mp hc with hc | hc
      · exact h.walks c hc
      · rw [List.mem_singleton.mp hc]
        exact closedWalk_of_mem h.chain h.nodup hPath hNext
    split
    · next hPath hVisited =>
      refine ⟨h, rfl, fun hNil => ⟨hNil, fun m hm => ?_⟩⟩
      rw [List.mem_singleton.mp hm]
      exact h.left hNil n hVisited hPath
    next hPath hVisited =>
    have hEnter : Search.Inv adj
        { s with visited := s.visited ++ [n], path := s.path ++ [n] } := by
      refine ⟨h.chain.append (.singleton n) ?_, ?_, h.walks, fun hNil m hm hOff => ?_⟩
      · intro last hLast m hm
        obtain rfl : n = m := by simpa using hm
        exact hNext last hLast
      · refine List.nodup_append.mpr ⟨h.nodup, List.nodup_singleton n, fun m hm m' hm' => ?_⟩
        rintro rfl
        exact hPath (List.mem_singleton.mp hm' ▸ hm)
      · rw [List.mem_append, not_or] at hOff
        exact h.left hNil m ((List.mem_append.mp hm).resolve_right hOff.2) hOff.1
    obtain ⟨hInv, hSame, hAll⟩ := foldl_searched (p := s.path ++ [n])
      (fun s' m hInv hSame hLast => ih s' m hInv (by rw [hSame]; simp; omega) (hSame ▸ hLast))
      ((adj.get? n).getD []) (fun m hm last hLast => by
        obtain rfl : n = last := by simpa using hLast
        exact hm) hEnter rfl
    exact searched_leave h hInv hSame hAll

/-- **Cycles are found exactly where there are some.** -/
theorem detectCycles_spec (edges : List Edge) (hPred : ∀ e ∈ edges, unhashable e.pred = none) :
    ∃ cycles, detectCycles edges = .ok cycles ∧
      (cycles ≠ [] ↔ ∃ n, TransGen (Depends edges) n n) ∧
      ∀ walk ∈ cycles, ClosedWalk (Depends edges) walk := by
  obtain ⟨hSize, hNext⟩ := foldl_addEdge_spec edges Dict.empty
  generalize hAdj : edges.foldl addEdge Dict.empty = adj at hSize hNext
  have hEdges : Next adj = Depends edges := by
    funext u v
    rw [hNext]
    simp [Next]
  have hStart : Search.Inv adj {} := ⟨.nil, List.nodup_nil, nofun, nofun⟩
  obtain ⟨hInv, -, hAll⟩ := foldl_searched (p := []) (fun s n h hPath hLast =>
    dfs_spec (edges.length + 2) s n h (by
      have hEmpty : (Dict.empty : Dict Text (List Text)).size = 0 := rfl
      omega) (hPath ▸ hLast)) adj.keys nofun hStart rfl
  refine ⟨_, by rw [detectCycles, adjacency_eq hPred, hAdj]; rfl, ?_, hEdges ▸ hInv.walks⟩
  constructor
  · intro hSome
    obtain ⟨walk, hWalk⟩ := List.exists_mem_of_ne_nil _ hSome
    obtain ⟨n, rest, hEq, -, hChain⟩ := hInv.walks walk hWalk
    rw [hEq] at hChain
    exact ⟨n, hEdges ▸ transGen_of_isChain hChain⟩
  · rintro ⟨n, hCycle⟩ hNil
    rw [← hEdges] at hCycle
    obtain ⟨v, hFirst, -⟩ := TransGen.head'_iff.mp hCycle
    exact not_transGen_of_acc ((hAll hNil).2 n (mem_keys_of_next hFirst)) hCycle

/-- Two documents that depend on each other, one of them on itself too. -/
def pairEdges : List Edge :=
  [⟨"a".toList, "b".toList, .str "depends_on".toList, 10, none⟩,
    ⟨"b".toList, "b".toList, .str "extends".toList, 10, none⟩,
    ⟨"b".toList, "a".toList, .str "extends".toList, 10, none⟩]

theorem detectCycles_spec_pair :
    ∃ cycles, detectCycles pairEdges = .ok cycles ∧
      (cycles ≠ [] ↔ ∃ n, TransGen (Depends pairEdges) n n) ∧
      ∀ walk ∈ cycles, ClosedWalk (Depends pairEdges) walk :=
  detectCycles_spec pairEdges (by simp [pairEdges, unhashable])

/-- The graph that the compiler searches. -/
theorem unhashable_of_optimizeGraph {P : Platform} {graph : Graph} {docs : List DocumentNode}
    {g : OptimizedGraph} (h : optimizeGraph P graph docs = .ok g) :
    ∀ e ∈ g.edges, unhashable e.pred = none := by
  obtain ⟨edges, hEdges, hGraph⟩ := Except.bind_eq_ok.mp h
  cases hGraph
  suffices hKeep : ∀ kept : List Edge, (∀ e ∈ kept, unhashable e.pred = none) →
      graph.edges.foldlM (keepEdge P) kept = .ok edges → ∀ e ∈ edges, unhashable e.pred = none from
    hKeep [] nofun hEdges
  clear hEdges h
  induction graph.edges with
  | nil =>
    intro kept hKept hEdges
    cases hEdges
    exact hKept
  | cons e rest ih =>
    intro kept hKept hEdges
    rw [List.foldlM_cons] at hEdges
    obtain ⟨kept', hStep, hEdges⟩ := Except.bind_eq_ok.mp hEdges
    refine ih kept' ?_ hEdges
    unfold keepEdge at hStep
    split at hStep
    · cases hStep
      exact hKept
    split at hStep
    · cases hStep
    · next hHash =>
      split at hStep <;> cases hStep
      · exact hKept
      · intro e' he'
        rcases List.mem_append.mp he' with he' | he'
        · exact hKept e' he'
        · rw [List.mem_singleton.mp he']
          exact hHash

end Neuroswarm.Okf
