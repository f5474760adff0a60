import Mathlib.Data.List.Sort
import Mathlib.Data.String.Basic
import Neuroswarm.Lib.Dict
import Neuroswarm.Lib.JsonText

/-!
# The canonical text of arguments

`canonical_json` and `_make_key` of `runtime/router/tool_output_cache.py`: the members of
every object sorted by key, and the text of that. Arguments are JSON values with string
keys; a tuple is a list, and what is not JSON (a NaN, an infinity, an object of another
type) is not an argument, as the source raises on it.

* `same_iff_normalize_eq` — two values are the same up to the order of members iff they are
  normalized alike.
* `keyText_eq_iff` — the text that is hashed tells the tool and the arguments.
-/

namespace Neuroswarm.Router

/-- Arguments of a tool: an object has one member of each key. -/
structure Args where
  value : Json
  keyed : value.Keyed

/-- Members in the order of their keys. -/
def sortKeys (ms : List (String × Json)) : List (String × Json) :=
  ms.insertionSort fun m n => m.1 ≤ n.1

mutual

def normalize : Json → Json
  | .list xs => .list (normalizeItems xs)
  | .dict ms => .dict (sortKeys (normalizeMembers ms))
  | j => j

def normalizeItems : List Json → List Json
  | [] => []
  | x :: xs => normalize x :: normalizeItems xs

def normalizeMembers : List (String × Json) → List (String × Json)
  | [] => []
  | (k, v) :: ms => (k, normalize v) :: normalizeMembers ms

end

def canonicalJson (args : Args) : List Char := (normalize args.value).dumps

/-- The text that `_make_key` hashes. -/
def keyText (toolId : String) (args : Args) : List Char :=
  toolId.toList ++ '|' :: canonicalJson args

/-- The same arguments up to the order of members. -/
def Args.Same (args args' : Args) : Prop := args.value.Same args'.value

-- ------ Normal forms

theorem normalizeItems_eq (xs : List Json) : normalizeItems xs = xs.map normalize := by
  induction xs with
  | nil => rfl
  | cons x xs ih => rw [normalizeItems, ih, List.map_cons]

variable (ms : List (String × Json))

theorem normalizeMembers_eq :
    normalizeMembers ms = ms.map fun m => (m.1, normalize m.2) := by
  induction ms with
  | nil => rfl
  | cons m ms ih => rw [normalizeMembers, ih, List.map_cons]

theorem map_fst_normalizeMembers :
    (normalizeMembers ms).map Prod.fst = ms.map Prod.fst := by
  rw [normalizeMembers_eq, List.map_map]
  rfl

theorem perm_sortKeys : (sortKeys ms).Perm ms :=
  List.perm_insertionSort _ ms

theorem pairwise_sortKeys :
    (sortKeys ms).Pairwise fun m n => m.1 ≤ n.1 := by
  have hTotal : Std.Total fun m n : String × Json => m.1 ≤ n.1 := ⟨fun m n => le_total m.1 n.1⟩
  have hTrans : IsTrans (String × Json) fun m n => m.1 ≤ n.1 := ⟨fun _ _ _ => le_trans⟩
  exact List.pairwise_insertionSort _ ms

theorem sortKeys_eq_iff {ms ns : List (String × Json)} (h : (ms.map Prod.fst).Nodup) :
    sortKeys ms = sortKeys ns ↔ ms.Perm ns := by
  constructor
  · intro hEq
    exact (perm_sortKeys ms).symm.trans (hEq ▸ perm_sortKeys ns)
  · intro hPerm
    have hSorted : (sortKeys ms).Perm (sortKeys ns) :=
      (perm_sortKeys ms).trans (hPerm.trans (perm_sortKeys ns).symm)
    refine hSorted.eq_of_pairwise ?_ (pairwise_sortKeys ms) (pairwise_sortKeys ns)
    intro m n hm hn hLe hGe
    have hmMem : m ∈ ms := (perm_sortKeys ms).subset hm
    have hnMem : n ∈ ms := hPerm.symm.subset ((perm_sortKeys ns).subset hn)
    exact List.inj_on_of_nodup_map h hmMem hnMem (le_antisymm hLe hGe)

-- ------ Same values

theorem same_list_iff {xs ys : List Json}
    (ih : ∀ x ∈ xs, ∀ y ∈ ys, x.Same y ↔ normalize x = normalize y) :
    List.Forall₂ Json.Same xs ys ↔ xs.map normalize = ys.map normalize := by
  induction xs generalizing ys with
  | nil => cases ys <;> simp
  | cons x xs ihTail =>
    cases ys with
    | nil => simp
    | cons y ys =>
      have hHead := ih x List.mem_cons_self y List.mem_cons_self
      have hTail : List.Forall₂ Json.Same xs ys ↔ xs.map normalize = ys.map normalize :=
        ihTail fun x hx y hy => ih x (List.mem_cons_of_mem _ hx) y (List.mem_cons_of_mem _ hy)
      simp [hHead, hTail]

theorem same_dict_iff {ms ns : List (String × Json)} (hms : (ms.map Prod.fst).Nodup)
    (hns : (ns.map Prod.fst).Nodup)
    (ih : ∀ m ∈ ms, ∀ n ∈ ns, m.2.Same n.2 ↔ normalize m.2 = normalize n.2) :
    Json.Same (.dict ms) (.dict ns) ↔ (normalizeMembers ms).Perm (normalizeMembers ns) := by
  have hmsNormal : ((normalizeMembers ms).map Prod.fst).Nodup := by
    rwa [map_fst_normalizeMembers]
  have hLength : ∀ ms : List (String × Json), (normalizeMembers ms).length = ms.length := by
    intro ms
    rw [normalizeMembers_eq, List.length_map]
  rw [Json.same_dict]
  constructor
  · rintro ⟨hSize, hMembers⟩
    -- distinct members, none of them new, and as many of them
    have hSubset : normalizeMembers ms ⊆ normalizeMembers ns := by
      intro e he
      rw [normalizeMembers_eq, List.mem_map] at he
      obtain ⟨m, hm, rfl⟩ := he
      obtain ⟨w, hLookup, hSame⟩ := hMembers m hm
      have hn : (m.1, w) ∈ ns := (Dict.lookup_eq_some_iff hns).mp hLookup
      rw [normalizeMembers_eq, List.mem_map]
      exact ⟨(m.1, w), hn, by rw [(ih m hm _ hn).mp hSame]⟩
    refine (List.subperm_of_subset (List.Nodup.of_map _ hmsNormal) hSubset).perm_of_length_le ?_
    rw [hLength, hLength, hSize]
  · intro hPerm
    refine ⟨by rw [← hLength ms, ← hLength ns, hPerm.length_eq], fun m hm => ?_⟩
    have hMem : (m.1, normalize m.2) ∈ normalizeMembers ns := by
      refine hPerm.subset ?_
      rw [normalizeMembers_eq]
      exact List.mem_map_of_mem hm
    rw [normalizeMembers_eq, List.mem_map] at hMem
    obtain ⟨⟨k, w⟩, hn, hEq⟩ := hMem
    obtain ⟨hKey, hValue⟩ := Prod.mk.inj hEq
    exact ⟨w, (Dict.lookup_eq_some_iff hns).mpr (hKey ▸ hn), (ih m hm _ hn).mpr hValue.symm⟩

/-- **Normal forms decide sameness.** -/
theorem same_iff_normalize_eq {j j' : Json} (h : j.Keyed) (h' : j'.Keyed) :
    j.Same j' ↔ normalize j = normalize j' := by
  induction j using Json.induct generalizing j' with
  | list xs ih =>
    rw [Json.keyed_list] at h
    cases j' with
    | list ys =>
      rw [Json.keyed_list] at h'
      have hItems := same_list_iff fun x hx y hy => ih x hx (h x hx) (h' y hy)
      rw [Json.same_list, hItems]
      simp [normalize, normalizeItems_eq]
    | _ => simp [Json.Same, normalize]
  | dict ms ih =>
    rw [Json.keyed_dict] at h
    cases j' with
    | dict ns =>
      rw [Json.keyed_dict] at h'
      have hMembers := same_dict_iff h.1 h'.1 fun m hm n hn => ih m hm (h.2 m hm) (h'.2 n hn)
      have hNodup : ((normalizeMembers ms).map Prod.fst).Nodup := by
        rw [map_fst_normalizeMembers]
        exact h.1
      rw [hMembers, ← sortKeys_eq_iff hNodup]
      simp [normalize]
    | _ => simp [Json.Same, normalize]
  | _ => cases j' <;> simp [Json.Same, normalize]

theorem canonicalJson_eq_iff {args args' : Args} :
    canonicalJson args = canonicalJson args' ↔ args.Same args' := by
  rw [Args.Same, same_iff_normalize_eq args.keyed args'.keyed]
  exact Json.dumps_injective.eq_iff

/-- **The key tells the tool and the arguments**, up to the order of members. -/
theorem keyText_eq_iff {toolId toolId' : String} {args args' : Args} :
    keyText toolId args = keyText toolId' args' ↔ toolId = toolId' ∧ args.Same args' := by
  rw [← canonicalJson_eq_iff]
  constructor
  · intro h
    have hBar : Json.Separates '|' := by decide
    obtain ⟨hTool, hValue⟩ := Json.tagged_dumps_inj hBar h
    exact ⟨String.toList_inj.mp hTool, congrArg Json.dumps hValue⟩
  · rintro ⟨rfl, hArgs⟩
    rw [keyText, keyText, hArgs]

example :
    (normalize (.dict [("b", .int (-1)),
        ("a", .list [.dict [("d", .null), ("c", .str "x|\"")]])])).dumps =
      "\x7b\"a\":[\x7b\"c\":\"x|\\\"\",\"d\":null\x7d],\"b\":-1\x7d".toList := by
  decide +kernel

end Neuroswarm.Router
