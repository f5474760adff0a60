import Mathlib.Data.Int.Notation
import Mathlib.Data.List.Forall2
import Mathlib.Data.List.Nodup
import Mathlib.Tactic.Common

/-!
# JSON values

A JSON value as a program holds it: integers and floats are different kinds of number, and
the members of an object have an order.

* `Json.induct` — induction with the hypothesis for every item and every member.
* `Json.Keyed` — no object has two members of one key.
* `Json.Same` — equal up to the order of members.
-/

/-- The characters that a number is written with. -/
def isNumeral (c : Char) : Bool :=
  c.isDigit || c == '-' || c == '+' || c == '.' || c == 'e'

/-- A finite float, given by its shortest text. A point or an exponent tells it from an
integer. -/
structure FloatText where
  text : List Char
  numeral : ∀ c ∈ text, isNumeral c
  marked : '.' ∈ text ∨ 'e' ∈ text
deriving DecidableEq

inductive Json where
  | null
  | bool (b : Bool)
  | int (n : ℤ)
  | float (x : FloatText)
  | str (s : String)
  | list (items : List Json)
  | dict (members : List (String × Json))

namespace Json

@[elab_as_elim]
theorem induct {P : Json → Prop} (null : P .null) (bool : ∀ b, P (.bool b))
    (int : ∀ n, P (.int n)) (float : ∀ x, P (.float x)) (str : ∀ s, P (.str s))
    (list : ∀ xs, (∀ x ∈ xs, P x) → P (.list xs))
    (dict : ∀ ms, (∀ m ∈ ms, P m.2) → P (.dict ms)) (j : Json) : P j :=
  @Json.rec P (fun xs => ∀ x ∈ xs, P x) (fun ms => ∀ m ∈ ms, P m.2) (fun m => P m.2)
    null bool int float str list dict (by simp)
    (fun _ _ hHead hTail => List.forall_mem_cons.mpr ⟨hHead, hTail⟩) (by simp)
    (fun _ _ hHead hTail => List.forall_mem_cons.mpr ⟨hHead, hTail⟩) (fun _ _ h => h) j

-- ------ Distinct keys

mutual

/-- The keys of every object in the value are distinct. -/
def Keyed : Json → Prop
  | .list xs => KeyedItems xs
  | .dict ms => (ms.map Prod.fst).Nodup ∧ KeyedMembers ms
  | _ => True

def KeyedItems : List Json → Prop
  | [] => True
  | x :: xs => x.Keyed ∧ KeyedItems xs

def KeyedMembers : List (String × Json) → Prop
  | [] => True
  | (_, v) :: ms => v.Keyed ∧ KeyedMembers ms

end

theorem keyed_list {xs : List Json} : Keyed (.list xs) ↔ ∀ x ∈ xs, x.Keyed := by
  show KeyedItems xs ↔ _
  induction xs with
  | nil => simp [KeyedItems]
  | cons x xs ih => simp [KeyedItems, ih]

theorem keyed_dict {ms : List (String × Json)} :
    Keyed (.dict ms) ↔ (ms.map Prod.fst).Nodup ∧ ∀ m ∈ ms, m.2.Keyed := by
  have hMembers : KeyedMembers ms ↔ ∀ m ∈ ms, m.2.Keyed := by
    induction ms with
    | nil => simp [KeyedMembers]
    | cons m ms ih => simp [KeyedMembers, ih]
  rw [← hMembers]
  rfl

-- ------ Equality up to the order of members

mutual

/-- Equal up to the order of members, at every depth. -/
def Same : Json → Json → Prop
  | .list xs, .list ys => SameItems xs ys
  | .dict ms, .dict ns => ms.length = ns.length ∧ SameMembers ms ns
  | j, j' => j = j'

def SameItems : List Json → List Json → Prop
  | [], [] => True
  | x :: xs, y :: ys => Same x y ∧ SameItems xs ys
  | _, _ => False

/-- Every member has one of its key and the same value on the other side. -/
def SameMembers : List (String × Json) → List (String × Json) → Prop
  | [], _ => True
  | (k, v) :: ms, ns => (∃ w, ns.lookup k = some w ∧ Same v w) ∧ SameMembers ms ns

end

theorem same_list {xs ys : List Json} :
    Same (.list xs) (.list ys) ↔ List.Forall₂ Same xs ys := by
  rw [Same]
  induction xs generalizing ys with
  | nil => cases ys <;> simp [SameItems]
  | cons x xs ih => cases ys <;> simp [SameItems, ih]

theorem same_dict {ms ns : List (String × Json)} :
    Same (.dict ms) (.dict ns) ↔
      ms.length = ns.length ∧ ∀ m ∈ ms, ∃ w, ns.lookup m.1 = some w ∧ Same m.2 w := by
  have hMembers : SameMembers ms ns ↔ ∀ m ∈ ms, ∃ w, ns.lookup m.1 = some w ∧ Same m.2 w := by
    induction ms with
    | nil => simp [SameMembers]
    | cons m ms ih => simp [SameMembers, ih]
  rw [← hMembers]
  rw [Same]

end Json
