import Mathlib.Data.List.Nodup
import Mathlib.Algebra.Order.BigOperators.Group.List
import Mathlib.Algebra.Order.Monoid.Canonical.Defs
import Mathlib.Algebra.Order.Ring.Nat

/-!
# Insertion-ordered dictionaries

A finite map that remembers the order in which its keys were first inserted:
the semantics of a scripting-language dictionary, and, with `moveToEnd` and
`popFirst`, of an ordered dictionary used as an LRU list. `AList` moves an
updated key to the front, so the order of iteration would be wrong here.

* `Dict K V` carries the proof that its keys are distinct, so a dictionary
  with two entries for one key cannot be built.
* `get?_set`, `get?_erase`, `get?_moveToEnd` — what every operation does to
  every lookup.
* `total` — the sum of a weight over all entries, with the accounting
  identities `total_set_of_none`, `total_set_of_some`, `total_erase`.
-/

/-- An insertion-ordered dictionary with distinct keys. -/
structure Dict (K V : Type*) where
  entries : List (K × V)
  nodup : (entries.map Prod.fst).Nodup

namespace Dict

variable {K V W : Type*}

/-- The dictionary without entries. -/
def empty : Dict K V := ⟨[], List.nodup_nil⟩

instance : Inhabited (Dict K V) := ⟨empty⟩

instance [DecidableEq K] [DecidableEq V] : DecidableEq (Dict K V) := fun d d' =>
  decidable_of_iff (d.entries = d'.entries) (by cases d; cases d'; simp)

def keys (d : Dict K V) : List K := d.entries.map Prod.fst

/-- The values, oldest first. -/
def values (d : Dict K V) : List V := d.entries.map Prod.snd

def size (d : Dict K V) : Nat := d.entries.length

/-- Sum of `w k v` over all entries. -/
def total (d : Dict K V) (w : K → V → Nat) : Nat :=
  (d.entries.map fun e => w e.1 e.2).sum

/-- Drop the oldest entry. -/
def popFirst (d : Dict K V) : Dict K V :=
  ⟨d.entries.tail, by
    have h := d.nodup
    cases hl : d.entries with
    | nil => simp
    | cons e l =>
      rw [hl] at h
      exact (List.nodup_cons.mp h).2⟩

/-- Drop the oldest entries until at most `cap` are left. -/
def trim (d : Dict K V) (cap : Nat) : Dict K V := popFirst^[d.size - cap] d

variable [DecidableEq K]

/-- The value stored at a key. -/
def get? (d : Dict K V) (k : K) : Option V := d.entries.lookup k

/-- Whether a key is present. -/
def contains (d : Dict K V) (k : K) : Bool := (d.get? k).isSome

-- ------ Updating the entry list

/-- Overwrite the entry of `k` where it stands, or append it. -/
def setEntry (k : K) (v : V) : List (K × V) → List (K × V)
  | [] => [(k, v)]
  | e :: l => if e.1 = k then (k, v) :: l else e :: setEntry k v l

theorem map_fst_setEntry (k : K) (v : V) (l : List (K × V)) :
    (setEntry k v l).map Prod.fst =
      if k ∈ l.map Prod.fst then l.map Prod.fst else l.map Prod.fst ++ [k] := by
  induction l with
  | nil => simp [setEntry]
  | cons e l ih =>
    rw [setEntry]
    by_cases he : e.1 = k
    · simp [he]
    · have hk : ¬ k = e.1 := fun h => he h.symm
      rw [if_neg he, List.map_cons, ih]
      by_cases hm : k ∈ l.map Prod.fst
      · simp [hm]
      · simp [hm, hk]

variable {k : K} {l : List (K × V)}

theorem setEntry_of_notMem (v : V) (h : k ∉ l.map Prod.fst) :
    setEntry k v l = l ++ [(k, v)] := by
  induction l with
  | nil => rfl
  | cons e l ih =>
    rw [List.map_cons, List.mem_cons, not_or] at h
    rw [setEntry, if_neg (Ne.symm h.1), ih h.2]
    rfl

variable {v : V}

theorem nodup_setEntry (h : (l.map Prod.fst).Nodup) : ((setEntry k v l).map Prod.fst).Nodup := by
  rw [map_fst_setEntry]
  split
  · exact h
  · next hk => simpa using h.concat hk

theorem lookup_cons_ite (k : K) (e : K × V) (l : List (K × V)) :
    (e :: l).lookup k = if e.1 = k then some e.2 else l.lookup k := by
  obtain ⟨a, b⟩ := e
  rw [List.lookup_cons]
  by_cases h : a = k
  · simp [h]
  · have hb : (k == a) = false := beq_eq_false_iff_ne.mpr (Ne.symm h)
    simp only [hb, if_neg h]

theorem lookup_setEntry (k k' : K) (v : V) (l : List (K × V)) :
    (setEntry k v l).lookup k' = if k' = k then some v else l.lookup k' := by
  induction l with
  | nil =>
    rw [setEntry, lookup_cons_ite, List.lookup_nil]
    simp only [eq_comm]
  | cons e l ih =>
    rw [setEntry]
    by_cases he : e.1 = k
    · rw [if_pos he, lookup_cons_ite, lookup_cons_ite, he]
      by_cases h : k' = k
      · simp [h]
      · simp [h, Ne.symm h]
    · rw [if_neg he, lookup_cons_ite, lookup_cons_ite, ih]
      by_cases h : k' = k
      · rw [if_pos h, h, if_neg he, if_pos rfl]
      · rw [if_neg h, if_neg h]

theorem setEntry_setEntry (k : K) (v w : V) (l : List (K × V)) :
    setEntry k w (setEntry k v l) = setEntry k w l := by
  induction l with
  | nil => simp [setEntry]
  | cons e l ih =>
    by_cases he : e.1 = k
    · simp [setEntry, he]
    · simp [setEntry, he, ih]

theorem lookup_filter (k k' : K) (l : List (K × V)) :
    (l.filter fun e => e.1 ≠ k).lookup k' = if k' = k then none else l.lookup k' := by
  induction l with
  | nil => simp
  | cons e l ih =>
    by_cases he : e.1 = k
    · rw [List.filter_cons_of_neg (by simp [he]), ih, lookup_cons_ite, he]
      by_cases h : k' = k
      · simp [h]
      · simp [h, Ne.symm h]
    · rw [List.filter_cons_of_pos (by simp [he]), lookup_cons_ite, ih, lookup_cons_ite]
      by_cases h : k' = k
      · rw [if_pos h, h, if_neg he, if_pos rfl]
      · rw [if_neg h, if_neg h]

theorem lookup_eq_some_iff (h : (l.map Prod.fst).Nodup) :
    l.lookup k = some v ↔ (k, v) ∈ l := by
  induction l with
  | nil => simp
  | cons e l ih =>
    rw [List.map_cons, List.nodup_cons] at h
    rw [lookup_cons_ite, List.mem_cons]
    by_cases he : e.1 = k
    · have hv : (k, v) ∉ l := fun hm => h.1 (he ▸ List.mem_map_of_mem (f := Prod.fst) hm)
      rw [if_pos he, Option.some.injEq]
      constructor
      · intro hEq
        exact Or.inl (by rw [← he, ← hEq])
      · rintro (hEq | hm)
        · rw [← hEq]
        · exact absurd hm hv
    · rw [if_neg he, ih h.2]
      have hne : (k, v) ≠ e := fun hEq => he (by rw [← hEq])
      simp [hne]

-- ------ The operations

/-- `d[k] = v`. -/
def set (d : Dict K V) (k : K) (v : V) : Dict K V :=
  ⟨setEntry k v d.entries, nodup_setEntry d.nodup⟩

/-- `d.pop(k, None)`. -/
def erase (d : Dict K V) (k : K) : Dict K V :=
  ⟨d.entries.filter fun e => e.1 ≠ k,
    d.nodup.sublist ((List.filter_sublist (l := d.entries)).map Prod.fst)⟩

/-- The entries whose key passes. -/
def filterKeys (d : Dict K V) (p : K → Bool) : Dict K V :=
  ⟨d.entries.filter fun e => p e.1,
    d.nodup.sublist ((List.filter_sublist (l := d.entries)).map Prod.fst)⟩

/-- `d.move_to_end(k)`; no change when `k` is absent. -/
def moveToEnd (d : Dict K V) (k : K) : Dict K V :=
  match d.get? k with
  | some v => (d.erase k).set k v
  | none => d

/-- Apply `f` to the value at `k`; no change when `k` is absent. -/
def modify (d : Dict K V) (k : K) (f : V → V) : Dict K V :=
  match d.get? k with
  | some v => d.set k (f v)
  | none => d

/-- `for k, w in u.items(): if k in d: d[k] = f(k, w, d[k])`. -/
def modifyEach (d : Dict K V) (u : Dict K W) (f : K → W → V → V) : Dict K V :=
  u.entries.foldl (fun d e => d.modify e.1 (f e.1 e.2)) d

/-- `for k, v in d.items(): d[k] = f(k, v)`. -/
def mapValues (d : Dict K V) (f : K → V → W) : Dict K W :=
  ⟨d.entries.map fun e => (e.1, f e.1 e.2), by
    rw [List.map_map]
    exact d.nodup⟩

@[simp] theorem get?_empty (k : K) : (empty : Dict K V).get? k = none := rfl

theorem get?_set (d : Dict K V) (k k' : K) (v : V) :
    (d.set k v).get? k' = if k' = k then some v else d.get? k' :=
  lookup_setEntry k k' v d.entries

@[simp] theorem get?_set_self (d : Dict K V) (k : K) (v : V) :
    (d.set k v).get? k = some v := by
  rw [get?_set, if_pos rfl]

variable {d : Dict K V}

theorem exists_get?_set (h : d.get? k = some v) (k' : K) (w : V) :
    ∃ v', (d.set k' w).get? k = some v' := by
  rw [get?_set]
  split
  · exact ⟨w, rfl⟩
  · exact ⟨v, h⟩

theorem set_set (d : Dict K V) (k : K) (v w : V) : (d.set k v).set k w = d.set k w := by
  unfold set
  simp only [setEntry_setEntry]

theorem get?_set_ne (d : Dict K V) {k' : K} (v : V) (h : k' ≠ k) :
    (d.set k v).get? k' = d.get? k' := by
  rw [get?_set, if_neg h]

theorem get?_erase (d : Dict K V) (k k' : K) :
    (d.erase k).get? k' = if k' = k then none else d.get? k' :=
  lookup_filter k k' d.entries

theorem get?_erase_eq_some {k' : K} :
    (d.erase k).get? k' = some v ↔ k' ≠ k ∧ d.get? k' = some v := by
  rw [get?_erase]
  split
  · next h => simp [h]
  · next h => simp [h]

@[simp] theorem get?_erase_self (d : Dict K V) (k : K) : (d.erase k).get? k = none := by
  rw [get?_erase, if_pos rfl]

theorem get?_erase_ne (d : Dict K V) {k' : K} (h : k' ≠ k) :
    (d.erase k).get? k' = d.get? k' := by
  rw [get?_erase, if_neg h]

@[simp] theorem contains_empty (k : K) : (empty : Dict K V).contains k = false := rfl

theorem contains_set (d : Dict K V) (k k' : K) (v : V) :
    (d.set k v).contains k' ↔ k' = k ∨ d.contains k' := by
  unfold contains
  rw [get?_set]
  split
  · next h => simp [h]
  · next h => simp [h]

theorem contains_erase (d : Dict K V) (k k' : K) :
    (d.erase k).contains k' ↔ k' ≠ k ∧ d.contains k' := by
  unfold contains
  rw [get?_erase]
  split
  · next h => simp [h]
  · next h => simp [h]

theorem get?_filterKeys (d : Dict K V) (p : K → Bool) (k : K) :
    (d.filterKeys p).get? k = if p k then d.get? k else none := by
  show (d.entries.filter fun e => p e.1).lookup k = if p k then d.entries.lookup k else none
  induction d.entries with
  | nil => simp
  | cons e l ih =>
    by_cases hp : p e.1 = true
    · rw [List.filter_cons_of_pos (by simpa using hp), lookup_cons_ite, lookup_cons_ite, ih]
      by_cases he : e.1 = k
      · rw [if_pos he, if_pos he, ← he, if_pos hp]
      · rw [if_neg he, if_neg he]
    · rw [List.filter_cons_of_neg (by simpa using hp), lookup_cons_ite, ih]
      by_cases he : e.1 = k
      · rw [if_pos he, ← he, if_neg hp, if_neg hp]
      · rw [if_neg he]

@[simp] theorem get?_moveToEnd (d : Dict K V) (k k' : K) :
    (d.moveToEnd k).get? k' = d.get? k' := by
  unfold moveToEnd
  split
  · next v hv =>
    rw [get?_set, get?_erase]
    by_cases h : k' = k
    · rw [if_pos h, h, hv]
    · rw [if_neg h, if_neg h]
  · rfl

@[simp] theorem contains_moveToEnd (d : Dict K V) (k k' : K) :
    (d.moveToEnd k).contains k' = d.contains k' := by
  rw [contains, get?_moveToEnd, contains]

theorem modify_of_some (h : d.get? k = some v) (f : V → V) :
    d.modify k f = d.set k (f v) := by
  rw [modify, h]

theorem get?_modify (d : Dict K V) (k k' : K) (f : V → V) :
    (d.modify k f).get? k' = if k' = k then (d.get? k).map f else d.get? k' := by
  unfold modify
  split
  · next v hv => rw [get?_set, hv]; rfl
  · next hv =>
    by_cases h : k' = k
    · rw [if_pos h, h, hv]; rfl
    · rw [if_neg h]

theorem get?_modifyEach (d : Dict K V) (u : Dict K W) (f : K → W → V → V) (k : K) :
    (d.modifyEach u f).get? k =
      (d.get? k).map fun v => (u.get? k).elim v fun w => f k w v := by
  obtain ⟨l, hNodup⟩ := u
  show (l.foldl (fun d e => d.modify e.1 (f e.1 e.2)) d).get? k =
    (d.get? k).map fun v => (l.lookup k).elim v fun w => f k w v
  induction l generalizing d with
  | nil => simp
  | cons e l ih =>
    rw [List.map_cons, List.nodup_cons] at hNodup
    rw [List.foldl_cons, ih _ hNodup.2, get?_modify, lookup_cons_ite]
    by_cases hk : k = e.1
    · -- the key does not occur again
      have hNone : l.lookup e.1 = none := by
        rw [List.lookup_eq_none_iff]
        intro p hp
        have hne : e.1 ≠ p.1 := fun h => hNodup.1 (h ▸ List.mem_map_of_mem (f := Prod.fst) hp)
        simpa using hne
      subst hk
      simp [hNone, Function.comp_def]
    · simp [hk, Ne.symm hk]

-- ------ Entries

theorem mem_entries_iff :
    (k, v) ∈ d.entries ↔ d.get? k = some v :=
  (lookup_eq_some_iff d.nodup).symm

theorem get?_mapValues (d : Dict K V) (f : K → V → W) (k : K) :
    (d.mapValues f).get? k = (d.get? k).map (f k) := by
  unfold mapValues get?
  dsimp only
  induction d.entries with
  | nil => rfl
  | cons e l ih =>
    rw [List.map_cons, lookup_cons_ite, lookup_cons_ite, ih]
    split
    · next hEq =>
      rw [← hEq]
      rfl
    · rfl

theorem mem_values_iff :
    v ∈ d.values ↔ ∃ k, d.get? k = some v := by
  unfold values
  rw [List.mem_map]
  constructor
  · rintro ⟨⟨k, v'⟩, hm, rfl⟩
    exact ⟨k, mem_entries_iff.mp hm⟩
  · rintro ⟨k, hk⟩
    exact ⟨(k, v), mem_entries_iff.mpr hk, rfl⟩

theorem mem_keys_iff : k ∈ d.keys ↔ (d.get? k).isSome := by
  unfold keys
  rw [List.mem_map, Option.isSome_iff_exists]
  constructor
  · rintro ⟨⟨k', v⟩, hm, rfl⟩
    exact ⟨v, mem_entries_iff.mp hm⟩
  · rintro ⟨v, hv⟩
    exact ⟨(k, v), mem_entries_iff.mpr hv, rfl⟩

theorem notMem_of_none (h : d.get? k = none) :
    k ∉ d.entries.map Prod.fst := by
  intro hm
  have := mem_keys_iff.mp (show k ∈ d.keys from hm)
  rw [h] at this
  exact Bool.false_ne_true this

theorem forall_mem_entries_iff {P : K → V → Prop} :
    (∀ e ∈ d.entries, P e.1 e.2) ↔ ∀ k v, d.get? k = some v → P k v :=
  ⟨fun h k v hGet => h (k, v) (mem_entries_iff.mpr hGet),
    fun h e he => h e.1 e.2 (mem_entries_iff.mp he)⟩

theorem perm_entries_erase (h : d.get? k = some v) :
    d.entries.Perm ((k, v) :: (d.erase k).entries) := by
  have hNodup : ((k, v) :: (d.erase k).entries).Nodup := by
    refine List.nodup_cons.mpr ⟨fun hm => ?_, List.Nodup.of_map Prod.fst (d.erase k).nodup⟩
    have := mem_entries_iff.mp hm
    rw [get?_erase_self] at this
    exact Option.some_ne_none v this.symm
  rw [List.perm_ext_iff_of_nodup (List.Nodup.of_map Prod.fst d.nodup) hNodup]
  rintro ⟨k', v'⟩
  rw [List.mem_cons, mem_entries_iff, mem_entries_iff, get?_erase_eq_some, Prod.mk.injEq]
  by_cases hk : k' = k
  · subst hk
    rw [h]
    simp [eq_comm]
  · simp [hk]

theorem entries_set_of_none (h : d.get? k = none) (v : V) :
    (d.set k v).entries = d.entries ++ [(k, v)] :=
  setEntry_of_notMem v (notMem_of_none h)

theorem setEntry_append_cons {before : List (K × V)} (h : k ∉ before.map Prod.fst) (w v : V)
    (after : List (K × V)) :
    setEntry k v (before ++ (k, w) :: after) = before ++ (k, v) :: after := by
  induction before with
  | nil => simp [setEntry]
  | cons e before ih =>
    rw [List.map_cons, List.mem_cons, not_or] at h
    rw [List.cons_append, setEntry, if_neg (Ne.symm h.1), ih h.2]
    rfl

theorem entries_set_of_entries {w : V} {before after : List (K × V)}
    (h : d.entries = before ++ (k, w) :: after) (v : V) :
    (d.set k v).entries = before ++ (k, v) :: after := by
  have hNodup := d.nodup
  rw [h, List.map_append, List.map_cons] at hNodup
  have hBefore : k ∉ before.map Prod.fst := fun hMem =>
    (List.nodup_append.mp hNodup).2.2 k hMem k List.mem_cons_self rfl
  show setEntry k v d.entries = _
  rw [h, setEntry_append_cons hBefore]

theorem values_set_of_none (h : d.get? k = none) (v : V) :
    (d.set k v).values = d.values ++ [v] := by
  simp [values, entries_set_of_none h]

theorem get?_popFirst_of_some (h : d.popFirst.get? k = some v) : d.get? k = some v :=
  mem_entries_iff.mp (List.mem_of_mem_tail (mem_entries_iff.mpr h))

theorem get?_trim_of_some {cap : Nat} (h : (d.trim cap).get? k = some v) : d.get? k = some v := by
  unfold trim at h
  generalize d.size - cap = n at h
  induction n generalizing d with
  | zero => exact h
  | succ n ih => exact get?_popFirst_of_some (ih h)

-- ------ Accounting

theorem sum_setEntry_of_notMem (w : K → V → Nat) (v : V) (h : k ∉ l.map Prod.fst) :
    ((setEntry k v l).map fun e => w e.1 e.2).sum =
      (l.map fun e => w e.1 e.2).sum + w k v := by
  induction l with
  | nil => simp [setEntry]
  | cons e l ih =>
    rw [List.map_cons, List.mem_cons, not_or] at h
    rw [setEntry, if_neg (Ne.symm h.1), List.map_cons, List.map_cons, List.sum_cons,
      List.sum_cons, ih h.2]
    omega

theorem sum_setEntry_of_mem (w : K → V → Nat) {old : V} (h : l.lookup k = some old) :
    ((setEntry k v l).map fun e => w e.1 e.2).sum + w k old =
      (l.map fun e => w e.1 e.2).sum + w k v := by
  induction l with
  | nil => simp at h
  | cons e l ih =>
    rw [lookup_cons_ite] at h
    rw [setEntry]
    by_cases he : e.1 = k
    · rw [if_pos he, Option.some.injEq] at h
      rw [if_pos he, List.map_cons, List.map_cons, List.sum_cons, List.sum_cons, he, h]
      dsimp only
      omega
    · rw [if_neg he] at h
      have := ih h
      rw [if_neg he, List.map_cons, List.map_cons, List.sum_cons, List.sum_cons]
      omega

theorem sum_filter_of_mem (w : K → V → Nat) {old : V} (hn : (l.map Prod.fst).Nodup)
    (h : l.lookup k = some old) :
    ((l.filter fun e => e.1 ≠ k).map fun e => w e.1 e.2).sum + w k old =
      (l.map fun e => w e.1 e.2).sum := by
  induction l with
  | nil => simp at h
  | cons e l ih =>
    rw [List.map_cons, List.nodup_cons] at hn
    rw [lookup_cons_ite] at h
    by_cases he : e.1 = k
    · rw [if_pos he, Option.some.injEq] at h
      have hrest : (l.filter fun e => e.1 ≠ k) = l := by
        rw [List.filter_eq_self]
        intro x hx
        have hxk : x.1 ≠ k := fun hxk =>
          hn.1 (he ▸ hxk ▸ List.mem_map_of_mem (f := Prod.fst) hx)
        simpa using hxk
      rw [List.filter_cons_of_neg (by simp [he]), hrest, List.map_cons, List.sum_cons, he, h]
      omega
    · rw [if_neg he] at h
      have := ih hn.2 h
      rw [List.filter_cons_of_pos (by simp [he]), List.map_cons, List.map_cons, List.sum_cons,
        List.sum_cons]
      omega

theorem total_set_of_none (h : d.get? k = none) (v : V) (w : K → V → Nat) :
    (d.set k v).total w = d.total w + w k v :=
  sum_setEntry_of_notMem w v (notMem_of_none h)

theorem total_set_of_some {old : V} (h : d.get? k = some old) (v : V) (w : K → V → Nat) :
    (d.set k v).total w + w k old = d.total w + w k v :=
  sum_setEntry_of_mem w h

theorem total_erase {old : V} (h : d.get? k = some old) (w : K → V → Nat) :
    (d.erase k).total w + w k old = d.total w :=
  sum_filter_of_mem w d.nodup h

theorem mem_weights_iff {w : K → V → Nat} {n : Nat} :
    (k, n) ∈ d.entries.map (fun e => (e.1, w e.1 e.2)) ↔ (d.get? k).map (w k) = some n := by
  rw [List.mem_map, Option.map_eq_some_iff]
  constructor
  · rintro ⟨⟨k', v⟩, hm, hEq⟩
    cases hEq
    exact ⟨v, mem_entries_iff.mp hm, rfl⟩
  · rintro ⟨v, hv, rfl⟩
    exact ⟨(k, v), mem_entries_iff.mpr hv, rfl⟩

omit [DecidableEq K] in
theorem nodup_weights (d : Dict K V) (w : K → V → Nat) :
    (d.entries.map fun e => (e.1, w e.1 e.2)).Nodup := by
  refine List.Nodup.of_map Prod.fst ?_
  rw [List.map_map]
  exact d.nodup

theorem total_congr {d' : Dict K W} {w : K → V → Nat} {w' : K → W → Nat}
    (h : ∀ k, (d.get? k).map (w k) = (d'.get? k).map (w' k)) : d.total w = d'.total w' := by
  have hPerm : (d.entries.map fun e => (e.1, w e.1 e.2)).Perm
      (d'.entries.map fun e => (e.1, w' e.1 e.2)) := by
    rw [List.perm_ext_iff_of_nodup (d.nodup_weights w) (d'.nodup_weights w')]
    rintro ⟨k, n⟩
    rw [mem_weights_iff, mem_weights_iff, h]
  have hSum := (hPerm.map Prod.snd).sum_eq
  rw [List.map_map, List.map_map] at hSum
  exact hSum

theorem erase_of_none (h : d.get? k = none) : d.erase k = d := by
  have hk : k ∉ d.entries.map Prod.fst := notMem_of_none h
  have hEq : (d.entries.filter fun e => e.1 ≠ k) = d.entries := by
    rw [List.filter_eq_self]
    intro x hx
    have hxk : x.1 ≠ k := fun hxk => hk (hxk ▸ List.mem_map_of_mem (f := Prod.fst) hx)
    simpa using hxk
  cases d
  simpa [erase] using hEq

theorem le_total (h : d.get? k = some v) (w : K → V → Nat) :
    w k v ≤ d.total w :=
  List.le_sum_of_mem (List.mem_map.mpr ⟨(k, v), mem_entries_iff.mpr h, rfl⟩)

theorem add_le_total {k' : K} {v' : V} (hk : k ≠ k') (h : d.get? k = some v)
    (h' : d.get? k' = some v') (w : K → V → Nat) : w k v + w k' v' ≤ d.total w := by
  have hErase := total_erase h' w
  have hLe := le_total ((d.get?_erase_ne hk).trans h) w
  omega

theorem exists_of_total_pos {w : K → V → Nat} (h : 0 < d.total w) :
    ∃ k v, d.get? k = some v ∧ 0 < w k v := by
  by_contra hNone
  push Not at hNone
  have : d.total w = 0 := by
    refine List.sum_eq_zero fun x hx => ?_
    obtain ⟨⟨k, v⟩, hm, rfl⟩ := List.mem_map.mp hx
    exact Nat.le_zero.mp (hNone k v (mem_entries_iff.mp hm))
  omega

-- ------ Size

omit [DecidableEq K] in
theorem size_eq_total (d : Dict K V) : d.size = d.total fun _ _ => 1 := by
  simp [size, total]

theorem size_set_of_none (h : d.get? k = none) (v : V) :
    (d.set k v).size = d.size + 1 := by
  rw [size_eq_total, size_eq_total, total_set_of_none h]

theorem size_set_of_some {old : V} (h : d.get? k = some old) (v : V) :
    (d.set k v).size = d.size := by
  have hTotal := total_set_of_some h v fun _ _ => 1
  rw [size_eq_total, size_eq_total]
  omega

theorem size_erase_of_some {old : V} (h : d.get? k = some old) :
    (d.erase k).size + 1 = d.size := by
  have hTotal := total_erase h fun _ _ => 1
  rw [size_eq_total, size_eq_total]
  omega

theorem size_erase_le (d : Dict K V) (k : K) : (d.erase k).size ≤ d.size := by
  cases h : d.get? k with
  | none => rw [erase_of_none h]
  | some v =>
    have := size_erase_of_some h
    omega

theorem size_moveToEnd (d : Dict K V) (k : K) : (d.moveToEnd k).size = d.size := by
  rw [size_eq_total, size_eq_total]
  exact total_congr fun k' => by rw [get?_moveToEnd]

omit [DecidableEq K] in
theorem eq_empty_of_size (h : d.size = 0) : d = empty := by
  cases d with
  | mk entries nodup =>
    cases List.eq_nil_of_length_eq_zero h
    rfl

theorem popFirst_of_entries {rest : List (K × V)} (h : d.entries = (k, v) :: rest) :
    d.popFirst = d.erase k := by
  have hNodup := d.nodup
  rw [h, List.map_cons, List.nodup_cons] at hNodup
  have hRest : rest.filter (fun e => e.1 ≠ k) = rest := by
    rw [List.filter_eq_self]
    intro e he
    have hMem : e.1 ∈ rest.map Prod.fst := List.mem_map_of_mem he
    have hKey : e.1 ≠ k := by
      rintro rfl
      exact hNodup.1 hMem
    simpa using hKey
  have hEntries : d.popFirst.entries = (d.erase k).entries := by
    show d.entries.tail = d.entries.filter fun e => e.1 ≠ k
    rw [h, List.filter_cons_of_neg (by simp), hRest]
    rfl
  cases hPop : d.popFirst with
  | mk entries nodup =>
    cases hErase : d.erase k with
    | mk entries' nodup' =>
      rw [hPop, hErase] at hEntries
      cases hEntries
      rfl

end Dict
