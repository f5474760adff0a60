import Mathlib.Data.List.Induction
import Mathlib.Data.List.Perm.Basic
import Neuroswarm.Lib.Dict

/-!
# Dictionaries laid over each other

`Dict.update` puts the entries of one dictionary over those of another. At one key,
a fold of updates takes the last value there is: `overlay x vs` for the value `x`
below and the values `vs` above it.

Branches that start from a copy of the base carry its value along: at most one of
them has another one, but all of them have one if the base does. `overlay_perm_iff`
says when the order of such branches does not matter, `overlay_eq` what then is
found at the top.

`overwrite w σ` writes some places of a state: `overwrite_eq_iff` says when that restores an
earlier state.
-/

namespace Dict

variable {K V : Type*} [DecidableEq K]

def update (d d' : Dict K V) : Dict K V := d'.entries.foldl (fun acc e => acc.set e.1 e.2) d

theorem get?_foldl_set {l : List (K × V)} (h : (l.map Prod.fst).Nodup) (d : Dict K V) (k : K) :
    (l.foldl (fun acc e => acc.set e.1 e.2) d).get? k = (l.lookup k).or (d.get? k) := by
  induction l generalizing d with
  | nil => rfl
  | cons e l ih =>
    obtain ⟨hHead, hTail⟩ := List.nodup_cons.mp h
    rw [List.foldl_cons, ih hTail, lookup_cons_ite, get?_set]
    by_cases hEq : e.1 = k
    · -- the key comes up once only
      have hNone : l.lookup k = none := by
        cases hLookup : l.lookup k with
        | none => rfl
        | some v =>
          have hMem := (lookup_eq_some_iff hTail).mp hLookup
          exact absurd (List.mem_map_of_mem hMem) (hEq ▸ hHead)
      rw [hNone, if_pos hEq, if_pos hEq.symm]
      rfl
    · rw [if_neg hEq, if_neg (Ne.symm hEq)]

theorem get?_foldl_set_if {p : K → Bool} {l : List (K × V)} (h : (l.map Prod.fst).Nodup)
    (d : Dict K V) (k : K) :
    (l.foldl (fun acc e => if p e.1 then acc.set e.1 e.2 else acc) d).get? k =
      if p k then (l.lookup k).or (d.get? k) else d.get? k := by
  have hFilter : l.foldl (fun acc e => if p e.1 then acc.set e.1 e.2 else acc) d =
      (l.filter fun e => p e.1).foldl (fun acc e => acc.set e.1 e.2) d :=
    List.foldl_filter.symm
  have hNodup : ((l.filter fun e => p e.1).map Prod.fst).Nodup :=
    h.sublist (List.filter_sublist.map Prod.fst)
  have hLookup := get?_filterKeys ⟨l, h⟩ p k
  rw [hFilter, get?_foldl_set hNodup]
  show ((filterKeys ⟨l, h⟩ p).get? k).or (d.get? k) = _
  rw [hLookup]
  split
  · rfl
  · rfl

@[simp] theorem get?_update (d d' : Dict K V) (k : K) :
    (d.update d').get? k = (d'.get? k).or (d.get? k) :=
  get?_foldl_set d'.nodup d k

end Dict

-- ------ The last value there is

section

variable {V β : Type*}

/-- The last value of a list of values laid over `x`. -/
def overlay (x : Option V) (vs : List (Option V)) : Option V :=
  vs.foldl (fun below v => v.or below) x

@[simp] theorem overlay_nil (x : Option V) : overlay x [] = x := rfl

@[simp] theorem overlay_cons (x v : Option V) (vs : List (Option V)) :
    overlay x (v :: vs) = overlay (v.or x) vs := rfl

@[simp] theorem overlay_concat (x v : Option V) (vs : List (Option V)) :
    overlay x (vs ++ [v]) = v.or (overlay x vs) := by
  unfold overlay
  rw [List.foldl_append]
  rfl

theorem overlay_append (x : Option V) (vs vs' : List (Option V)) :
    overlay x (vs ++ vs') = overlay (overlay x vs) vs' :=
  List.foldl_append

variable {vs : List (Option V)}

theorem overlay_of_isSome (h : ∃ v ∈ vs, v.isSome) (x y : Option V) :
    overlay x vs = overlay y vs := by
  induction vs using List.reverseRecOn with
  | nil =>
    obtain ⟨v, hv, -⟩ := h
    cases hv
  | append_singleton vs v ih =>
    rw [overlay_concat, overlay_concat]
    cases v with
    | some a => rfl
    | none =>
      obtain ⟨w, hw, hSome⟩ := h
      rcases List.mem_append.mp hw with hIn | hLast
      · rw [ih ⟨w, hIn, hSome⟩]
      · rw [List.mem_singleton.mp hLast] at hSome
        cases hSome

theorem overlay_of_forall_none {x : Option V} (h : ∀ v ∈ vs, v = none) :
    overlay x vs = x := by
  induction vs with
  | nil => rfl
  | cons v vs ih =>
    rw [overlay_cons, h v List.mem_cons_self, Option.none_or]
    exact ih fun w hw => h w (List.mem_cons_of_mem _ hw)

theorem overlay_eq_or (x : Option V) (vs : List (Option V)) :
    overlay x vs = (overlay none vs).or x := by
  induction vs using List.reverseRecOn with
  | nil => rfl
  | append_singleton vs v ih => rw [overlay_concat, overlay_concat, ih, Option.or_assoc]

theorem overlay_isSome {x : Option V} :
    (overlay x vs).isSome ↔ x.isSome ∨ ∃ v ∈ vs, v.isSome := by
  induction vs generalizing x with
  | nil => simp
  | cons v vs ih =>
    rw [overlay_cons, ih, Option.isSome_or, Bool.or_eq_true, List.exists_mem_cons_iff]
    constructor
    · rintro ((hv | hx) | hRest)
      · exact .inr (.inl hv)
      · exact .inl hx
      · exact .inr (.inr hRest)
    · rintro (hx | hv | hRest)
      · exact .inl (.inr hx)
      · exact .inl (.inl hv)
      · exact .inr hRest

theorem overlay_of_forall_eq {x : Option V} (h : ∀ v ∈ vs, v = x) :
    overlay x vs = x := by
  induction vs with
  | nil => rfl
  | cons v vs ih =>
    rw [overlay_cons, h v (List.mem_cons_self ..), Option.or_self]
    exact ih fun w hw => h w (List.mem_cons_of_mem _ hw)

theorem overlay_of_agree {x : Option V} {a : V} (h : ∀ v ∈ vs, v = none ∨ v = some a)
    (hMem : some a ∈ vs) : overlay x vs = some a := by
  induction vs using List.reverseRecOn with
  | nil => cases hMem
  | append_singleton vs v ih =>
    rw [overlay_concat]
    rcases h v (List.mem_append_right _ (List.mem_singleton_self v)) with hNone | hSame
    · rw [hNone, Option.none_or]
      rcases List.mem_append.mp hMem with hIn | hLast
      · exact ih (fun w hw => h w (List.mem_append_left _ hw)) hIn
      · rw [List.mem_singleton, hNone] at hLast
        cases hLast
    · rw [hSame, Option.some_or]

-- ------ Branches that carry the base along

variable {x : Option V} {f : β → Option V} {l : List β}

theorem overlay_eq (hCarry : ∀ b ∈ l, x ≠ none → f b ≠ none)
    (hAlone : l.length ≤ 1 ∨ ∀ b ∈ l, x = none ∨ f b = x) {b : β} (hb : b ∈ l)
    (hOthers : ∀ b' ∈ l, f b' = x ∨ f b' = f b) : overlay x (l.map f) = f b := by
  by_cases hSame : f b = x
  · rw [hSame]
    refine overlay_of_forall_eq fun v hv => ?_
    obtain ⟨b', hb', rfl⟩ := List.mem_map.mp hv
    rcases hOthers b' hb' with h | h
    · exact h
    · exact h.trans hSame
  · rcases hAlone with hLen | hNew
    · obtain ⟨b', rfl⟩ := List.length_eq_one_iff.mp
        (Nat.le_antisymm hLen (List.length_pos_of_mem hb))
      obtain rfl := List.mem_singleton.mp hb
      rw [List.map_singleton, overlay_cons, overlay_nil]
      cases hValue : f b with
      | some a => rfl
      | none =>
        -- then the base has no value either
        by_contra hNone
        exact hCarry b hb hNone hValue
    · have hNone : x = none := (hNew b hb).resolve_right hSame
      obtain ⟨a, hValue⟩ := Option.ne_none_iff_exists'.mp (hNone ▸ hSame)
      rw [hValue]
      refine overlay_of_agree (fun v hv => ?_) (hValue ▸ List.mem_map_of_mem hb)
      obtain ⟨b', hb', rfl⟩ := List.mem_map.mp hv
      rcases hOthers b' hb' with h | h
      · exact .inl (h.trans hNone)
      · exact .inr (h.trans hValue)

theorem eq_base_of_ne (hOne : l.Pairwise fun b b' => f b = x ∨ f b' = x) {b : β} {rest : List β}
    (hPerm : l.Perm (b :: rest)) (hNe : f b ≠ x) : ∀ b' ∈ rest, f b' = x := by
  have hPair := (hPerm.pairwise_iff fun h => h.symm).mp hOne
  intro b' hb'
  exact ((List.pairwise_cons.mp hPair).1 b' hb').resolve_left hNe

/-- **Order of branches.** With at most one branch that has another value than the base, the order
does not matter if and only if there is one branch at most, or no branch has another value than
one the base has. -/
theorem overlay_perm_iff (hCarry : ∀ b ∈ l, x ≠ none → f b ≠ none)
    (hOne : l.Pairwise fun b b' => f b = x ∨ f b' = x) :
    (∀ l' : List β, l'.Perm l → overlay x (l'.map f) = overlay x (l.map f)) ↔
      l.length ≤ 1 ∨ ∀ b ∈ l, x = none ∨ f b = x := by
  constructor
  · intro hOrder
    by_contra hNot
    obtain ⟨hLen, hChange⟩ := not_or.mp hNot
    push Not at hChange
    obtain ⟨b, hb, hBase, hNe⟩ := hChange
    obtain ⟨s, t, rfl⟩ := List.append_of_mem hb
    -- another branch, which has the value of the base
    obtain ⟨b', rest, hRest⟩ : ∃ b' rest, (s ++ t).Perm (b' :: rest) := by
      cases hEq : s ++ t with
      | nil =>
        have hLen' := congrArg List.length hEq
        simp only [List.length_append, List.length_cons, List.length_nil] at hLen hLen'
        omega
      | cons b' rest => exact ⟨b', rest, List.Perm.refl _⟩
    have hPerm : (s ++ b :: t).Perm (b :: b' :: rest) := List.perm_middle.trans (hRest.cons b)
    have hOther : f b' = x := eq_base_of_ne hOne hPerm hNe b' (List.mem_cons_self ..)
    have hLast : ((b' :: rest) ++ [b]).Perm (s ++ b :: t) :=
      (List.perm_append_singleton b (b' :: rest)).trans hPerm.symm
    have hLast' : ((b :: rest) ++ [b']).Perm (s ++ b :: t) :=
      ((List.perm_append_singleton b' (b :: rest)).trans (.swap b b' rest)).trans hPerm.symm
    have hEq := (hOrder _ hLast).trans (hOrder _ hLast').symm
    rw [List.map_append, List.map_append, List.map_singleton, List.map_singleton, overlay_concat,
      overlay_concat, hOther] at hEq
    obtain ⟨a, hValue⟩ := Option.ne_none_iff_exists'.mp (hCarry b hb hBase)
    obtain ⟨a', hValue'⟩ := Option.ne_none_iff_exists'.mp hBase
    rw [hValue, hValue', Option.some_or, Option.some_or] at hEq
    exact hNe (by rw [hValue, hValue', hEq])
  · intro hAlone l' hPerm
    have hAlone' : l'.length ≤ 1 ∨ ∀ b ∈ l', x = none ∨ f b = x := by
      rcases hAlone with hLen | hNew
      · exact .inl (hPerm.length_eq ▸ hLen)
      · exact .inr fun b hb => hNew b (hPerm.mem_iff.mp hb)
    by_cases hAll : ∀ b ∈ l, f b = x
    · have hValues : ∀ l'' : List β, l''.Perm l → overlay x (l''.map f) = x := by
        intro l'' hPerm
        refine overlay_of_forall_eq fun v hv => ?_
        obtain ⟨b, hb, rfl⟩ := List.mem_map.mp hv
        exact hAll b (hPerm.mem_iff.mp hb)
      rw [hValues l' hPerm, hValues l (.refl l)]
    · push Not at hAll
      obtain ⟨b, hb, hNe⟩ := hAll
      have hOthers : ∀ b' ∈ l, f b' = x ∨ f b' = f b := by
        obtain ⟨s, t, rfl⟩ := List.append_of_mem hb
        intro b' hb'
        rcases List.mem_cons.mp (List.perm_middle.mem_iff.mp hb') with rfl | hRest
        · exact .inr rfl
        · exact .inl (eq_base_of_ne hOne List.perm_middle hNe b' hRest)
      have hCarry' : ∀ b ∈ l', x ≠ none → f b ≠ none := fun b hb => hCarry b (hPerm.mem_iff.mp hb)
      rw [overlay_eq hCarry hAlone hb hOthers,
        overlay_eq hCarry' hAlone' (hPerm.mem_iff.mpr hb) fun b' hb' =>
          hOthers b' (hPerm.mem_iff.mp hb')]

end

-- ------ Overwriting some places

section

variable {X V : Type*}

def overwrite (w : X → Option V) (σ : X → V) : X → V := fun x => (w x).getD (σ x)

/-- The values already are those that are written. -/
def Reflects (w : X → Option V) (σ : X → V) : Prop := ∀ x v, w x = some v → σ x = v

theorem foldl_overwrite (ws : List (X → Option V)) (σ : X → V) :
    ws.foldl (fun σ w => overwrite w σ) σ =
      overwrite (fun x => overlay none (ws.map fun w => w x)) σ := by
  induction ws generalizing σ with
  | nil => rfl
  | cons w ws ih =>
    rw [List.foldl_cons, ih]
    funext x
    show (overlay none _).getD ((w x).getD (σ x)) = (overlay none (w x :: _)).getD (σ x)
    rw [overlay_cons, Option.or_none, overlay_eq_or (w x), Option.getD_or]

theorem reflects_overwrite (w : X → Option V) (σ : X → V) : Reflects w (overwrite w σ) := by
  intro x v hv
  rw [overwrite, hv]
  rfl

theorem overwrite_eq_self_iff {w : X → Option V} {σ : X → V} :
    (∀ x, overwrite w σ x = σ x) ↔ Reflects w σ := by
  refine forall_congr' fun x => ?_
  unfold overwrite
  cases w x with
  | none => simp
  | some v =>
    constructor
    · rintro hSame v' ⟨⟩
      exact hSame.symm
    · exact fun h => (h v rfl).symm

theorem overwrite_eq_iff {w : X → Option V} {σ τ : X → V} (h : Reflects w σ) :
    (∀ x, overwrite w τ x = σ x) ↔ ∀ x, w x = none → τ x = σ x := by
  refine forall_congr' fun x => ?_
  unfold overwrite
  cases hx : w x with
  | none => simp
  | some v => exact iff_of_true (h x v hx).symm (fun hNone => nomatch hNone)

end
