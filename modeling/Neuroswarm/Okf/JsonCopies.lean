import Mathlib.Data.List.Sort
import Mathlib.Data.String.Basic
import Neuroswarm.Okf.Documents

/-!
# Knowledge compiler — values written as JSON and read back

`_jsonable` of the build cache, and what `json.dumps(..., sort_keys=True)` and `json.loads` make
of a value. How `sorted` orders keys of which one is no text is a parameter.

* `arranged` — the value with the members of every mapping in the order of their keys.
* `reload_jsonable` — a value that JSON has comes back arranged.
* `get?_arranged` — a lookup does not see the order of keys.
-/

namespace Neuroswarm.Okf

open Armcascade (Text)

namespace Yaml

@[elab_as_elim]
theorem induct {P : Yaml → Prop} (null : P .null) (bool : ∀ b, P (.bool b))
    (int : ∀ n, P (.int n)) (float : ∀ r, P (.float r)) (str : ∀ s, P (.str s))
    (date : ∀ d, P (.date d)) (datetime : ∀ d, P (.datetime d)) (bytes : ∀ b, P (.bytes b))
    (list : ∀ xs, (∀ x ∈ xs, P x) → P (.list xs)) (tuple : ∀ xs, P (.tuple xs))
    (dict : ∀ ms, (∀ m ∈ ms, P m.2) → P (.dict ms)) (set : ∀ xs, P (.set xs)) (v : Yaml) : P v :=
  @Yaml.rec P (fun xs => ∀ x ∈ xs, P x) (fun ms => ∀ m ∈ ms, P m.2) (fun m => P m.2)
    null bool int float str date datetime bytes list (fun xs _ => tuple xs) dict
    (fun xs _ => set xs) (by simp)
    (fun _ _ hHead hTail => List.forall_mem_cons.mpr ⟨hHead, hTail⟩) (by simp)
    (fun _ _ hHead hTail => List.forall_mem_cons.mpr ⟨hHead, hTail⟩) (fun _ _ _ h => h) v

def isText : Yaml → Bool
  | .str _ => true
  | _ => false

def keyText : Yaml → Text
  | .str s => s
  | _ => []

theorem str_keyText {v : Yaml} (h : v.isText = true) : .str v.keyText = v := by
  cases v with
  | str s => rfl
  | _ => cases h

end Yaml

-- ------ Writing and reading

/-- `s.replace(old, new)`. -/
def replaceAll (old new : Text) : ℕ → Text → Text
  | 0, t => t
  | _ + 1, [] => []
  | fuel + 1, c :: rest =>
    if old.isPrefixOf (c :: rest) then
      new ++ replaceAll old new fuel ((c :: rest).drop old.length)
    else c :: replaceAll old new fuel rest

mutual

/-- `_jsonable(value)`. A tuple stays as it is. -/
def jsonable : Yaml → Yaml
  | .datetime iso => .str (replaceAll "+00:00".toList "Z".toList (iso.length + 1) iso)
  | .date iso => .str iso
  | .dict ms => .dict (jsonableMembers ms)
  | .list xs => .list (jsonableItems xs)
  | v => v

def jsonableItems : List Yaml → List Yaml
  | [] => []
  | x :: xs => jsonable x :: jsonableItems xs

def jsonableMembers : List (Yaml × Yaml) → List (Yaml × Yaml)
  | [] => []
  | (k, v) :: ms => (k, jsonable v) :: jsonableMembers ms

end

def jsonKey : Yaml → Except Raised Text
  | .str s => .ok s
  | .float r =>
    .ok (if r = "nan".toList then "NaN".toList
      else if r = "inf".toList then "Infinity".toList
      else if r = "-inf".toList then "-Infinity".toList
      else r)
  | .bool b => .ok (if b then "true".toList else "false".toList)
  | .null => .ok "null".toList
  | .int n => .ok (toString n).toList
  | v => .error (.other
      s!"keys must be str, int, float, bool or None, not {v.typeName}".toList)

section

variable {β : Type}

/-- `sorted(d.items())`, where every key is a text. -/
def byKey (ms : List (Yaml × β)) : List (Yaml × β) :=
  ms.insertionSort fun m n => m.1.keyText ≤ n.1.keyText

/-- `sorted(d.items())`, with the order of keys of which one is no text, if they have one. -/
def sortMembers (mixed : List Yaml → Except Raised (Yaml → Yaml → Bool))
    (ms : List (Yaml × β)) : Except Raised (List (Yaml × β)) :=
  if ms.all fun m => m.1.isText then .ok (byKey ms)
  else do
    let le ← mixed (ms.map Prod.fst)
    .ok (ms.insertionSort fun m n => le m.1 n.1 = true)

end

mutual

/-- `json.loads(json.dumps(v, sort_keys=True))`. -/
def reload (mixed : List Yaml → Except Raised (Yaml → Yaml → Bool)) : Yaml → Except Raised Yaml
  | .null => .ok .null
  | .bool b => .ok (.bool b)
  | .int n => .ok (.int n)
  | .float r => .ok (.float r)
  | .str s => .ok (.str s)
  | .list xs => (reloadItems mixed xs).map .list
  | .tuple xs => (reloadItems mixed xs).map .list
  | .dict ms => do
    let ms ← sortMembers mixed (reloadMembers mixed ms)
    let ms ← ms.mapM fun m => do
      let k ← jsonKey m.1
      let v ← m.2
      .ok (.str k, v)
    .ok (.dict ms)
  | v => .error (.other s!"Object of type {v.typeName} is not JSON serializable".toList)

def reloadItems (mixed : List Yaml → Except Raised (Yaml → Yaml → Bool)) :
    List Yaml → Except Raised (List Yaml)
  | [] => .ok []
  | x :: xs => do
    let x ← reload mixed x
    let xs ← reloadItems mixed xs
    .ok (x :: xs)

def reloadMembers (mixed : List Yaml → Except Raised (Yaml → Yaml → Bool)) :
    List (Yaml × Yaml) → List (Yaml × Except Raised Yaml)
  | [] => []
  | (k, v) :: ms => (k, reload mixed v) :: reloadMembers mixed ms

end

-- ------ Members in order

mutual

/-- The members of every mapping in the order of their keys. -/
def arranged : Yaml → Yaml
  | .list xs => .list (arrangedItems xs)
  | .dict ms => .dict (byKey (arrangedMembers ms))
  | v => v

def arrangedItems : List Yaml → List Yaml
  | [] => []
  | x :: xs => arranged x :: arrangedItems xs

def arrangedMembers : List (Yaml × Yaml) → List (Yaml × Yaml)
  | [] => []
  | (k, v) :: ms => (k, arranged v) :: arrangedMembers ms

end

/-- A dict with its members, and those inside, in the order of their keys. -/
def Mapping.arranged (d : Mapping) : Mapping := byKey (arrangedMembers d)

mutual

/-- A value that JSON has: no date, timestamp, bytes, tuple or set, and no key that is no text. -/
def plain : Yaml → Bool
  | .null => true
  | .bool _ => true
  | .int _ => true
  | .float _ => true
  | .str _ => true
  | .list xs => plainItems xs
  | .dict ms => plainMembers ms
  | _ => false

def plainItems : List Yaml → Bool
  | [] => true
  | x :: xs => plain x && plainItems xs

def plainMembers : List (Yaml × Yaml) → Bool
  | [] => true
  | (k, v) :: ms => k.isText && plain v && plainMembers ms

end

theorem arrangedItems_eq (xs : List Yaml) : arrangedItems xs = xs.map arranged := by
  induction xs with
  | nil => rfl
  | cons x xs ih => rw [arrangedItems, ih, List.map_cons]

theorem arrangedMembers_eq (ms : List (Yaml × Yaml)) :
    arrangedMembers ms = ms.map fun m => (m.1, arranged m.2) := by
  induction ms with
  | nil => rfl
  | cons m ms ih => rw [arrangedMembers, ih, List.map_cons]

theorem jsonableItems_eq (xs : List Yaml) : jsonableItems xs = xs.map jsonable := by
  induction xs with
  | nil => rfl
  | cons x xs ih => rw [jsonableItems, ih, List.map_cons]

theorem jsonableMembers_eq (ms : List (Yaml × Yaml)) :
    jsonableMembers ms = ms.map fun m => (m.1, jsonable m.2) := by
  induction ms with
  | nil => rfl
  | cons m ms ih => rw [jsonableMembers, ih, List.map_cons]

theorem reloadMembers_eq (mixed : List Yaml → Except Raised (Yaml → Yaml → Bool))
    (ms : List (Yaml × Yaml)) :
    reloadMembers mixed ms = ms.map fun m => (m.1, reload mixed m.2) := by
  induction ms with
  | nil => rfl
  | cons m ms ih => rw [reloadMembers, ih, List.map_cons]

theorem plain_list {xs : List Yaml} : plain (.list xs) = true ↔ ∀ x ∈ xs, plain x = true := by
  show plainItems xs = true ↔ _
  induction xs with
  | nil => simp [plainItems]
  | cons x xs ih => simp [plainItems, ih]

theorem plain_dict {ms : List (Yaml × Yaml)} :
    plain (.dict ms) = true ↔ ∀ m ∈ ms, m.1.isText = true ∧ plain m.2 = true := by
  show plainMembers ms = true ↔ _
  induction ms with
  | nil => simp [plainMembers]
  | cons m ms ih => simp [plainMembers, ih]

-- ------ Sorting by key

section

variable {β γ : Type}

theorem perm_byKey (ms : List (Yaml × β)) : (byKey ms).Perm ms := List.perm_insertionSort _ ms

theorem pairwise_byKey (ms : List (Yaml × β)) :
    (byKey ms).Pairwise fun m n => m.1.keyText ≤ n.1.keyText := by
  have hTotal : Std.Total fun m n : Yaml × β => m.1.keyText ≤ n.1.keyText :=
    ⟨fun m n => le_total m.1.keyText n.1.keyText⟩
  have hTrans : IsTrans (Yaml × β) fun m n => m.1.keyText ≤ n.1.keyText :=
    ⟨fun _ _ _ => le_trans⟩
  exact List.pairwise_insertionSort _ ms

theorem byKey_byKey (ms : List (Yaml × β)) : byKey (byKey ms) = byKey ms :=
  (pairwise_byKey ms).insertionSort_eq

theorem byKey_map (f : β → γ) (ms : List (Yaml × β)) :
    byKey (ms.map fun m => (m.1, f m.2)) = (byKey ms).map fun m => (m.1, f m.2) := by
  have hMap := List.map_insertionSort (fun m n : Yaml × β => m.1.keyText ≤ n.1.keyText)
    (fun m n : Yaml × γ => m.1.keyText ≤ n.1.keyText) (fun m : Yaml × β => (m.1, f m.2)) ms
    fun _ _ _ _ => Iff.rfl
  exact hMap.symm

theorem find?_byKey (k : Text) (ms : List (Yaml × β)) :
    (byKey ms).find? (fun m => m.1.isKey k) = ms.find? fun m => m.1.isKey k := by
  have hText : ∀ v : Yaml, v.isKey k = true → v.keyText = k := by
    intro v hv
    cases v with
    | str s => exact beq_iff_eq.mp hv
    | _ => cases hv
  have hInsert : ∀ (m : Yaml × β) (l : List (Yaml × β)),
      (l.orderedInsert (fun m n => m.1.keyText ≤ n.1.keyText) m).find? (fun m => m.1.isKey k) =
        (m :: l).find? fun m => m.1.isKey k := by
    intro m l
    induction l with
    | nil => rfl
    | cons n l ih =>
      rw [List.orderedInsert_cons]
      split
      · rfl
      · rename_i hBefore
        rw [List.find?_cons, ih, List.find?_cons, List.find?_cons, List.find?_cons]
        cases hn : n.1.isKey k with
        | false => rfl
        | true =>
          cases hm : m.1.isKey k with
          | false => rfl
          | true => exact absurd (hText _ hm ▸ hText _ hn ▸ le_refl k) hBefore
  induction ms with
  | nil => rfl
  | cons m ms ih =>
    show (List.orderedInsert _ m (byKey ms)).find? _ = _
    rw [hInsert, List.find?_cons, List.find?_cons, ih]

end

-- ------ What comes back

theorem arranged_arranged (v : Yaml) : arranged (arranged v) = arranged v := by
  induction v using Yaml.induct with
  | list xs ih =>
    simp only [arranged, arrangedItems_eq, List.map_map]
    exact congrArg Yaml.list (List.map_congr_left ih)
  | dict ms ih =>
    have hTwice : ((arrangedMembers ms).map fun m => (m.1, arranged m.2)) = arrangedMembers ms := by
      rw [arrangedMembers_eq, List.map_map]
      exact List.map_congr_left fun m hm => congrArg (m.1, ·) (ih m hm)
    show Yaml.dict (byKey (arrangedMembers (byKey (arrangedMembers ms)))) = _
    rw [arrangedMembers_eq (byKey _), ← byKey_map, hTwice, byKey_byKey]
    rfl
  | _ => rfl

theorem reload_jsonable (mixed : List Yaml → Except Raised (Yaml → Yaml → Bool)) {v : Yaml}
    (h : plain v = true) : reload mixed (jsonable v) = .ok (arranged v) := by
  induction v using Yaml.induct with
  | list xs ih =>
    rw [plain_list] at h
    have hItems : ∀ xs : List Yaml, (∀ x ∈ xs, reload mixed (jsonable x) = .ok (arranged x)) →
        reloadItems mixed (xs.map jsonable) = .ok (xs.map arranged) := by
      intro xs
      induction xs with
      | nil => exact fun _ => rfl
      | cons x xs ihTail =>
        intro hAll
        obtain ⟨hHead, hTail⟩ := List.forall_mem_cons.mp hAll
        rw [List.map_cons, reloadItems, hHead, ihTail hTail]
        rfl
    rw [jsonable, jsonableItems_eq, reload, hItems xs fun x hx => ih x hx (h x hx), arranged,
      arrangedItems_eq]
    rfl
  | dict ms ih =>
    rw [plain_dict] at h
    have hMembers : (reloadMembers mixed (jsonableMembers ms)) =
        (arrangedMembers ms).map fun m => (m.1, .ok m.2) := by
      rw [reloadMembers_eq, jsonableMembers_eq, arrangedMembers_eq, List.map_map, List.map_map]
      exact List.map_congr_left fun m hm => congrArg (m.1, ·) (ih m hm (h m hm).2)
    have hText : ((arrangedMembers ms).map fun m =>
        ((m.1, .ok m.2) : Yaml × Except Raised Yaml)).all (fun m => m.1.isText) = true := by
      rw [arrangedMembers_eq]
      simpa [List.all_eq_true] using fun k v hm => (h (k, v) hm).1
    have hKey : ∀ m ∈ byKey (arrangedMembers ms), Yaml.str m.1.keyText = m.1 := by
      intro m hm
      rw [(perm_byKey _).mem_iff, arrangedMembers_eq, List.mem_map] at hm
      obtain ⟨n, hn, rfl⟩ := hm
      exact Yaml.str_keyText (h n hn).1
    have hRead : (byKey (arrangedMembers ms)).mapM
        (fun m => jsonKey m.1 >>= fun k => Except.ok (Yaml.str k, m.2)) =
          .ok ((byKey (arrangedMembers ms)).map id) := by
      refine Except.mapM_eq_ok fun m hm => ?_
      obtain ⟨k, v⟩ := m
      have hk : Yaml.str k.keyText = k := hKey _ hm
      rw [← hk]
      rfl
    rw [List.map_id] at hRead
    simp only [jsonable, reload, hMembers, sortMembers, hText, if_true, arranged]
    rw [byKey_map]
    show (List.mapM _ (List.map _ _) >>= fun ms => Except.ok (Yaml.dict ms)) = _
    rw [List.mapM_map]
    exact congrArg (· >>= fun ms => Except.ok (Yaml.dict ms)) hRead
  | date | datetime | bytes | tuple | set => cases h
  | _ => rfl

-- ------ Reading an arranged value

namespace Yaml

@[simp] theorem isKey_arranged (k : Text) (v : Yaml) :
    (Okf.arranged v).isKey k = v.isKey k := by
  cases v <;> rfl

@[simp] theorem truthy_arranged (v : Yaml) : (Okf.arranged v).truthy = v.truthy := by
  cases v with
  | list xs =>
    rw [Okf.arranged, arrangedItems_eq]
    cases xs <;> rfl
  | dict ms =>
    have hLength : (byKey (arrangedMembers ms)).length = ms.length := by
      rw [(perm_byKey _).length_eq, arrangedMembers_eq, List.length_map]
    have hEmpty : ∀ l : List (Yaml × Yaml), l.isEmpty = (l.length == 0) := fun l => by
      cases l <;> rfl
    show (!(byKey (arrangedMembers ms)).isEmpty) = !ms.isEmpty
    rw [hEmpty, hEmpty, hLength]
  | _ => rfl

end Yaml

namespace Mapping

@[simp] theorem get?_arranged (d : Mapping) (k : String) :
    d.arranged.get? k = (d.get? k).map Okf.arranged := by
  unfold get? arranged
  rw [find?_byKey, arrangedMembers_eq, List.find?_map]
  cases hFind : d.find? fun m => m.1.isKey k.toList with
  | none =>
    have hFind' : d.find? ((fun m : Yaml × Yaml => m.1.isKey k.toList) ∘
        fun m => (m.1, Okf.arranged m.2)) = none := hFind
    rw [hFind']
    rfl
  | some m =>
    have hFind' : d.find? ((fun m : Yaml × Yaml => m.1.isKey k.toList) ∘
        fun m => (m.1, Okf.arranged m.2)) = some m := hFind
    rw [hFind']
    rfl

@[simp] theorem get_arranged (d : Mapping) (k : String) :
    d.arranged.get k = Okf.arranged (d.get k) := by
  rw [get, get?_arranged, get]
  cases d.get? k <;> rfl

end Mapping

end Neuroswarm.Okf
