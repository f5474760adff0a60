import Mathlib.Algebra.Order.Ring.Rat
import Neuroswarm.Lib.Words

/-!
# ArmCascade — texts, tokens and proposals

The helpers on texts and the shared types of `armcascade/interfaces/types.py`. Texts
are lists of characters, and a token of a draft is its text; token ids, log
probabilities and ranks are left out. Floats are rationals.
-/

namespace Neuroswarm.Armcascade

abbrev Text := List Char

instance : LawfulBEq Text := inferInstance

def isSpace (c : Char) : Bool :=
  (9 ≤ c.toNat ∧ c.toNat ≤ 13) ∨ (28 ≤ c.toNat ∧ c.toNat ≤ 32) ∨
    c.toNat ∈ [0x85, 0xa0, 0x1680, 0x2028, 0x2029, 0x202f, 0x205f, 0x3000] ∨
    (0x2000 ≤ c.toNat ∧ c.toNat ≤ 0x200a)

def split (s : Text) : List Text := Words.split isSpace s

/-- `" ".join(words)`. -/
def unwords (words : List Text) : Text := Words.join ' ' words

/-- `not s.strip()`. -/
def isBlank (s : Text) : Bool := s.all isSpace

def approxTokens (text : Text) : Nat := if isBlank text then 0 else max 1 (split text).length

/-- `l[:k]`. -/
def sliceTo {α : Type*} (l : List α) (k : Int) : List α :=
  if 0 ≤ k then l.take k.toNat else l.take (l.length - (-k).toNat)

/-- `l[k:]`. -/
def sliceFrom {α : Type*} (l : List α) (k : Int) : List α :=
  if 0 ≤ k then l.drop k.toNat else l.drop (l.length - (-k).toNat)

/-- A draft, with metadata in `M`. -/
structure Proposal (M : Type*) where
  tokens : List Text := []
  text : Text := []
  strategy : String := ""
  draftLen : Nat := 0
  confidence : ℚ := 0
  sourceTier : Nat := 1
  metadata : M
  deriving DecidableEq

def Proposal.fromText {M : Type*} (text : Text) (strategy : String) (sourceTier : Nat)
    (confidence : ℚ) (metadata : M) : Proposal M :=
  let tokens := if isBlank text then [] else split text
  { tokens, text, strategy, draftLen := tokens.length, confidence, sourceTier, metadata }

-- ------ Lemmas

theorem isSpace_blank : isSpace ' ' = true := by decide

theorem split_eq_nil {s : Text} (h : isBlank s = true) : split s = [] := by
  induction s with
  | nil => rfl
  | cons c s ih =>
    rw [isBlank, List.all_cons, Bool.and_eq_true] at h
    rw [split, Words.split_cons_blank h.1]
    exact ih h.2

theorem split_ne_nil {s : Text} (h : isBlank s = false) : split s ≠ [] := by
  induction s with
  | nil => cases h
  | cons c s ih =>
    by_cases hc : isSpace c = true
    · rw [split, Words.split_cons_blank hc]
      rw [isBlank, List.all_cons, hc, Bool.true_and] at h
      exact ih h
    · rw [split, Words.split, Words.cut, if_neg hc]
      exact List.cons_ne_nil _ _

theorem split_unwords {words : List Text} (h : ∀ w ∈ words, Words.IsWord isSpace w) :
    split (unwords words) = words :=
  Words.split_join isSpace_blank h

theorem fromText_tokens {M : Type*} {words : List Text}
    (h : ∀ w ∈ words, Words.IsWord isSpace w) (strategy : String) (tier : Nat) (confidence : ℚ)
    (metadata : M) :
    (Proposal.fromText (unwords words) strategy tier confidence metadata).tokens = words := by
  show (if isBlank (unwords words) then [] else split (unwords words)) = words
  split
  · next hBlank => rw [← split_unwords h, split_eq_nil hBlank]
  · exact split_unwords h

end Neuroswarm.Armcascade
