import Mathlib.Data.Char
import Neuroswarm.Lib.Json

/-!
# The text of a JSON value

Compact text without blanks; in a string, quotes, backslashes and control characters are
escaped and nothing else is.

* `unescape_escapeChar` — an escaped character reads back.
* `dumps_append_inj` — a text and what follows it come apart in one way only.
* `Place.after_dumps` — a reader who starts outside every string ends there.
* `tagged_dumps_inj` — a text after any tag and a character that never stands outside a
  string: the tag may hold the character itself.
-/

namespace Json

-- ------ Printing

def intText : ℤ → List Char
  | .ofNat n => Nat.toDigits 10 n
  | .negSucc n => '-' :: Nat.toDigits 10 (n + 1)

def shortEscape (c : Char) : Option Char :=
  if c = '\"' then some '\"'
  else if c = '\\' then some '\\'
  else if c = '\n' then some 'n'
  else if c = '\r' then some 'r'
  else if c = '\t' then some 't'
  else if c = '\x0c' then some 'f'
  else if c = '\x08' then some 'b'
  else none

def escapeChar (c : Char) : List Char :=
  match shortEscape c with
  | some e => ['\\', e]
  | none =>
    if c.toNat < 32 then
      ['\\', 'u', '0', '0', Nat.digitChar (c.toNat / 16), Nat.digitChar (c.toNat % 16)]
    else [c]

def quote (s : String) : List Char := '\"' :: (s.toList.flatMap escapeChar ++ ['\"'])

mutual

/-- The compact text of a value. -/
def dumps : Json → List Char
  | .null => ['n', 'u', 'l', 'l']
  | .bool true => ['t', 'r', 'u', 'e']
  | .bool false => ['f', 'a', 'l', 's', 'e']
  | .int n => intText n
  | .float x => x.text
  | .str s => quote s
  | .list xs => dumpsList xs
  | .dict ms => dumpsDict ms

def dumpsList : List Json → List Char
  | [] => ['[', ']']
  | x :: xs => '[' :: (dumps x ++ dumpsItems xs)

def dumpsItems : List Json → List Char
  | [] => [']']
  | x :: xs => ',' :: (dumps x ++ dumpsItems xs)

def dumpsDict : List (String × Json) → List Char
  | [] => ['\x7b', '\x7d']
  | (k, v) :: ms => '\x7b' :: (quote k ++ ':' :: (dumps v ++ dumpsMembers ms))

def dumpsMembers : List (String × Json) → List Char
  | [] => ['\x7d']
  | (k, v) :: ms => ',' :: (quote k ++ ':' :: (dumps v ++ dumpsMembers ms))

end

-- ------ Strings

/-- The character that a two-character escape stands for. -/
def longChar (e : Char) : Option Char :=
  if e = '\"' then some '\"'
  else if e = '\\' then some '\\'
  else if e = 'n' then some '\n'
  else if e = 'r' then some '\r'
  else if e = 't' then some '\t'
  else if e = 'f' then some '\x0c'
  else if e = 'b' then some '\x08'
  else none

def hexValue (c : Char) : Nat :=
  if c.isDigit then c.toNat - '0'.toNat else c.toNat - 'a'.toNat + 10

/-- Read one character of a string. -/
def unescape : List Char → Option (Char × List Char)
  | '\\' :: 'u' :: _ :: _ :: x :: y :: r => some (Char.ofNat (hexValue x * 16 + hexValue y), r)
  | '\\' :: e :: r => (longChar e).map fun c => (c, r)
  | c :: r => some (c, r)
  | [] => none

theorem longChar_of_shortEscape {c e : Char} (h : shortEscape c = some e) :
    e ≠ 'u' ∧ longChar e = some c := by
  unfold shortEscape at h
  split_ifs at h <;> cases h <;> subst c <;> decide

theorem shortEscape_eq_none {c : Char} (h : shortEscape c = none) : c ≠ '\"' ∧ c ≠ '\\' := by
  constructor
  · rintro rfl
    exact absurd h (by decide)
  · rintro rfl
    exact absurd h (by decide)

theorem hexValue_digitChar : ∀ n < 16, hexValue (Nat.digitChar n) = n := by decide

theorem unescape_escapeChar (c : Char) (r : List Char) :
    unescape (escapeChar c ++ r) = some (c, r) := by
  unfold escapeChar
  split
  · next e hShort =>
    obtain ⟨hLetter, hLong⟩ := longChar_of_shortEscape hShort
    show unescape ('\\' :: e :: r) = _
    rw [unescape]
    · rw [hLong]
      rfl
    · rintro _ _ _ _ _ rfl
      exact absurd rfl hLetter
  · next hShort =>
    obtain ⟨-, hBackslash⟩ := shortEscape_eq_none hShort
    split
    · next hControl =>
      have hHigh : hexValue (Nat.digitChar (c.toNat / 16)) = c.toNat / 16 :=
        hexValue_digitChar _ (by omega)
      have hLow : hexValue (Nat.digitChar (c.toNat % 16)) = c.toNat % 16 :=
        hexValue_digitChar _ (by omega)
      have hCode : c.toNat / 16 * 16 + c.toNat % 16 = c.toNat := by omega
      show some (Char.ofNat _, r) = _
      rw [hHigh, hLow, hCode, Char.ofNat_toNat]
    · show unescape (c :: r) = _
      rw [unescape]
      · intro _ _ _ _ _ hEq
        exact absurd hEq hBackslash
      · intro _ _ hEq
        exact absurd hEq hBackslash

variable {r r' : List Char}

theorem escapeChar_append_inj {c c' : Char} (h : escapeChar c ++ r = escapeChar c' ++ r') :
    c = c' ∧ r = r' := by
  have hRead := congrArg unescape h
  rw [unescape_escapeChar, unescape_escapeChar] at hRead
  simpa using hRead

theorem escapeChar_append_ne (c : Char) (r r' : List Char) : escapeChar c ++ r ≠ '\"' :: r' := by
  unfold escapeChar
  split
  · simp
  · next hShort =>
    split
    · simp
    · simp [(shortEscape_eq_none hShort).1]

theorem flatMap_escapeChar_inj {cs cs' : List Char}
    (h : cs.flatMap escapeChar ++ '\"' :: r = cs'.flatMap escapeChar ++ '\"' :: r') :
    cs = cs' ∧ r = r' := by
  induction cs generalizing cs' with
  | nil =>
    cases cs' with
    | nil => simpa using h
    | cons c' cs' =>
      rw [List.flatMap_cons, List.append_assoc] at h
      exact absurd h.symm (escapeChar_append_ne c' _ _)
  | cons c cs ih =>
    rw [List.flatMap_cons, List.append_assoc] at h
    cases cs' with
    | nil => exact absurd h (escapeChar_append_ne c _ _)
    | cons c' cs' =>
      rw [List.flatMap_cons, List.append_assoc] at h
      obtain ⟨rfl, hRest⟩ := escapeChar_append_inj h
      obtain ⟨rfl, rfl⟩ := ih hRest
      exact ⟨rfl, rfl⟩

theorem quote_append_inj {s s' : String} (h : quote s ++ r = quote s' ++ r') :
    s = s' ∧ r = r' := by
  have hBody : s.toList.flatMap escapeChar ++ '\"' :: r =
      s'.toList.flatMap escapeChar ++ '\"' :: r' := by simpa [quote] using h
  obtain ⟨hChars, rfl⟩ := flatMap_escapeChar_inj hBody
  exact ⟨String.toList_inj.mp hChars, rfl⟩

-- ------ Numbers

/-- A text that does not go on with a number. -/
def Ends (r : List Char) : Prop := ∀ c ∈ r.head?, isNumeral c = false

theorem isNumeral_intText {n : ℤ} : ∀ c ∈ intText n, isNumeral c := by
  have hDigits : ∀ m : ℕ, ∀ c ∈ Nat.toDigits 10 m, isNumeral c := by
    intro m c hc
    have hDigit : c.isDigit := Nat.isDigit_of_mem_toDigits (by decide) (by decide) hc
    simp [isNumeral, hDigit]
  cases n with
  | ofNat n => exact hDigits n
  | negSucc n => exact List.forall_mem_cons.mpr ⟨by decide, hDigits (n + 1)⟩

theorem numerals_append_inj {t t' : List Char} (ht : ∀ c ∈ t, isNumeral c)
    (ht' : ∀ c ∈ t', isNumeral c) (hr : Ends r) (hr' : Ends r') (h : t ++ r = t' ++ r') :
    t = t' ∧ r = r' := by
  have hTake : ∀ {r : List Char}, Ends r → r.takeWhile isNumeral = [] := by
    intro r hr
    cases r with
    | nil => rfl
    | cons c r => simp [hr c rfl]
  have hEq := congrArg (List.takeWhile isNumeral) h
  rw [List.takeWhile_append_of_pos ht, List.takeWhile_append_of_pos ht', hTake hr, hTake hr',
    List.append_nil, List.append_nil] at hEq
  subst t'
  exact ⟨rfl, List.append_cancel_left h⟩

theorem intText_injective : Function.Injective intText := by
  have hDigits : Function.Injective (Nat.toDigits 10) := fun m m' h => by
    rw [← Nat.ofDigitChars_toDigits (b := 10) (n := m) (by decide) (by decide), h,
      Nat.ofDigitChars_toDigits (by decide) (by decide)]
  have hMinus : ∀ (m : ℕ) (t : List Char), Nat.toDigits 10 m ≠ '-' :: t := by
    intro m t h
    have hDigit : ('-').isDigit :=
      Nat.isDigit_of_mem_toDigits (b := 10) (n := m) (by decide) (by decide) (by simp [h])
    exact absurd hDigit (by decide)
  intro n n' h
  cases n with
  | ofNat n =>
    cases n' with
    | ofNat n' => rw [hDigits h]
    | negSucc n' => exact absurd h (hMinus n _)
  | negSucc n =>
    cases n' with
    | ofNat n' => exact absurd h.symm (hMinus n' _)
    | negSucc n' => rw [Nat.succ.inj (hDigits (List.cons.inj h).2)]

theorem intText_ne (n : ℤ) (x : FloatText) : intText n ≠ x.text := by
  have hBare : ∀ m : ℕ, ∀ c ∈ Nat.toDigits 10 m, c ≠ '.' ∧ c ≠ 'e' := by
    intro m c hc
    have hDigit : c.isDigit := Nat.isDigit_of_mem_toDigits (by decide) (by decide) hc
    constructor
    · rintro rfl
      exact absurd hDigit (by decide)
    · rintro rfl
      exact absurd hDigit (by decide)
  have hInt : ∀ c ∈ intText n, c ≠ '.' ∧ c ≠ 'e' := by
    cases n with
    | ofNat n => exact hBare n
    | negSucc n => exact List.forall_mem_cons.mpr ⟨by decide, hBare (n + 1)⟩
  intro h
  rcases x.marked with hPoint | hExponent
  · exact (hInt '.' (h ▸ hPoint)).1 rfl
  · exact (hInt 'e' (h ▸ hExponent)).2 rfl

-- ------ Values

/-- What the first character of a text tells: the two booleans apart, the numbers together. -/
def kind : Json → Nat
  | .null => 0
  | .bool true => 1
  | .bool false => 2
  | .int _ => 3
  | .float _ => 3
  | .str _ => 4
  | .list _ => 5
  | .dict _ => 6

def kindOf (c : Char) : Option Nat :=
  if c = 'n' then some 0
  else if c = 't' then some 1
  else if c = 'f' then some 2
  else if isNumeral c then some 3
  else if c = '\"' then some 4
  else if c = '[' then some 5
  else if c = '\x7b' then some 6
  else none

theorem ne_of_isNumeral {c : Char} (h : isNumeral c) : c ≠ 'n' ∧ c ≠ 't' ∧ c ≠ 'f' := by
  refine ⟨?_, ?_, ?_⟩ <;> rintro rfl <;> exact absurd h (by decide)

theorem kindOf_numerals {t : List Char} (hNil : t ≠ []) (ht : ∀ c ∈ t, isNumeral c) :
    t.head?.bind kindOf = some 3 := by
  cases t with
  | nil => exact absurd rfl hNil
  | cons c t =>
    have hNumeral := ht c List.mem_cons_self
    obtain ⟨hNull, hTrue, hFalse⟩ := ne_of_isNumeral hNumeral
    simp [kindOf, hNull, hTrue, hFalse, hNumeral]

theorem intText_ne_nil (n : ℤ) : intText n ≠ [] := by
  cases n with
  | ofNat n => exact Nat.toDigits_ne_nil
  | negSucc n => exact List.cons_ne_nil _ _

theorem floatText_ne_nil (x : FloatText) : x.text ≠ [] := by
  rcases x.marked with h | h
  · exact List.ne_nil_of_mem h
  · exact List.ne_nil_of_mem h

theorem kindOf_dumps (j : Json) : (dumps j).head?.bind kindOf = some j.kind := by
  cases j with
  | null => decide
  | bool b => cases b <;> decide
  | int n => exact kindOf_numerals (intText_ne_nil n) isNumeral_intText
  | float x => exact kindOf_numerals (floatText_ne_nil x) x.numeral
  | str s => rfl
  | list xs => cases xs <;> rfl
  | dict ms => cases ms <;> rfl

theorem kind_eq {j j' : Json} (h : dumps j ++ r = dumps j' ++ r') :
    j.kind = j'.kind := by
  have hHead : ∀ (j : Json) (r : List Char), (dumps j ++ r).head?.bind kindOf = some j.kind := by
    intro j r
    have hKind := kindOf_dumps j
    cases hText : dumps j with
    | nil => simp [hText] at hKind
    | cons c t => simpa [hText] using hKind
  have hEq := hHead j r
  rw [h, hHead j' r'] at hEq
  exact (Option.some.inj hEq).symm

/-- Text of the value and what follows it come apart in one way. -/
def Parses (j : Json) : Prop :=
  ∀ (j' : Json) (r r' : List Char), Ends r → Ends r' → dumps j ++ r = dumps j' ++ r' →
    j = j' ∧ r = r'

theorem ends_dumpsItems (xs : List Json) (r : List Char) : Ends (dumpsItems xs ++ r) := by
  cases xs <;> simp [Ends, dumpsItems] <;> decide

theorem ends_dumpsMembers (ms : List (String × Json)) (r : List Char) :
    Ends (dumpsMembers ms ++ r) := by
  cases ms <;> simp [Ends, dumpsMembers] <;> decide

theorem dumps_append_ne (j : Json) (r r' : List Char) : dumps j ++ r ≠ ']' :: r' := by
  intro h
  have hKind := kindOf_dumps j
  cases hText : dumps j with
  | nil => simp [hText] at hKind
  | cons c t =>
    rw [hText] at h hKind
    cases (List.cons.inj h).1
    have hNone : kindOf ']' = none := by decide
    simp [hNone] at hKind

theorem dumpsItems_append_inj {xs ys : List Json} (hxs : ∀ x ∈ xs, Parses x)
    (h : dumpsItems xs ++ r = dumpsItems ys ++ r') : xs = ys ∧ r = r' := by
  induction xs generalizing ys with
  | nil =>
    cases ys with
    | nil => simpa [dumpsItems] using h
    | cons y ys => simp [dumpsItems] at h
  | cons x xs ih =>
    cases ys with
    | nil => simp [dumpsItems] at h
    | cons y ys =>
      simp only [dumpsItems, List.cons_append, List.append_assoc, List.cons.injEq, true_and] at h
      obtain ⟨rfl, hRest⟩ := hxs x List.mem_cons_self y _ _ (ends_dumpsItems xs r)
        (ends_dumpsItems ys r') h
      obtain ⟨rfl, rfl⟩ := ih (fun x hx => hxs x (List.mem_cons_of_mem _ hx)) hRest
      exact ⟨rfl, rfl⟩

theorem dumpsList_append_inj {xs ys : List Json} (hxs : ∀ x ∈ xs, Parses x)
    (h : dumpsList xs ++ r = dumpsList ys ++ r') : xs = ys ∧ r = r' := by
  cases xs with
  | nil =>
    cases ys with
    | nil => simpa [dumpsList] using h
    | cons y ys =>
      simp only [dumpsList, List.cons_append, List.append_assoc, List.cons.injEq, true_and,
        List.nil_append] at h
      exact absurd h.symm (dumps_append_ne y _ _)
  | cons x xs =>
    cases ys with
    | nil =>
      simp only [dumpsList, List.cons_append, List.append_assoc, List.cons.injEq, true_and,
        List.nil_append] at h
      exact absurd h (dumps_append_ne x _ _)
    | cons y ys =>
      simp only [dumpsList, List.cons_append, List.append_assoc, List.cons.injEq, true_and] at h
      obtain ⟨rfl, hRest⟩ := hxs x List.mem_cons_self y _ _ (ends_dumpsItems xs r)
        (ends_dumpsItems ys r') h
      obtain ⟨rfl, rfl⟩ :=
        dumpsItems_append_inj (fun x hx => hxs x (List.mem_cons_of_mem _ hx)) hRest
      exact ⟨rfl, rfl⟩

theorem member_append_inj {k k' : String} {v v' : Json} (hv : Parses v) (hr : Ends r)
    (hr' : Ends r') (h : quote k ++ ':' :: (dumps v ++ r) = quote k' ++ ':' :: (dumps v' ++ r')) :
    (k, v) = (k', v') ∧ r = r' := by
  obtain ⟨rfl, hValue⟩ := quote_append_inj h
  obtain ⟨rfl, rfl⟩ := hv v' r r' hr hr' (List.cons.inj hValue).2
  exact ⟨rfl, rfl⟩

theorem dumpsMembers_append_inj {ms ns : List (String × Json)} (hms : ∀ m ∈ ms, Parses m.2)
    (h : dumpsMembers ms ++ r = dumpsMembers ns ++ r') :
    ms = ns ∧ r = r' := by
  induction ms generalizing ns with
  | nil =>
    cases ns with
    | nil => simpa [dumpsMembers] using h
    | cons n ns => simp [dumpsMembers] at h
  | cons m ms ih =>
    cases ns with
    | nil => simp [dumpsMembers] at h
    | cons n ns =>
      simp only [dumpsMembers, List.cons_append, List.append_assoc, List.cons.injEq,
        true_and] at h
      obtain ⟨hMember, hRest⟩ := member_append_inj (hms m List.mem_cons_self)
        (ends_dumpsMembers ms r) (ends_dumpsMembers ns r') h
      obtain ⟨rfl, rfl⟩ := ih (fun m hm => hms m (List.mem_cons_of_mem _ hm)) hRest
      exact ⟨congrArg (· :: ms) hMember, rfl⟩

theorem dumpsDict_append_inj {ms ns : List (String × Json)} (hms : ∀ m ∈ ms, Parses m.2)
    (h : dumpsDict ms ++ r = dumpsDict ns ++ r') :
    ms = ns ∧ r = r' := by
  cases ms with
  | nil =>
    cases ns with
    | nil => simpa [dumpsDict] using h
    | cons n ns => simp [dumpsDict, quote] at h
  | cons m ms =>
    cases ns with
    | nil => simp [dumpsDict, quote] at h
    | cons n ns =>
      -- but for the character that opens it
      exact dumpsMembers_append_inj hms (congrArg (',' :: ·) (List.cons.inj h).2)

/-- **The text determines the value**, and where it ends. -/
theorem dumps_append_inj (j : Json) : Parses j := by
  induction j using induct with
  | null =>
    intro j' r r' _ _ h
    have hKind := kind_eq h
    cases j' with
    | null => exact ⟨rfl, List.append_cancel_left h⟩
    | bool b => cases b <;> cases hKind
    | _ => cases hKind
  | bool b =>
    intro j' r r' _ _ h
    have hKind := kind_eq h
    cases j' with
    | bool b' =>
      have hEq : b = b' := by cases b <;> cases b' <;> first | rfl | cases hKind
      subst b'
      exact ⟨rfl, List.append_cancel_left h⟩
    | _ => cases b <;> cases hKind
  | int n =>
    intro j' r r' hr hr' h
    have hKind := kind_eq h
    cases j' with
    | int n' =>
      obtain ⟨hText, rfl⟩ := numerals_append_inj isNumeral_intText isNumeral_intText hr hr' h
      exact ⟨congrArg Json.int (intText_injective hText), rfl⟩
    | float x =>
      obtain ⟨hText, -⟩ := numerals_append_inj isNumeral_intText x.numeral hr hr' h
      exact absurd hText (intText_ne n x)
    | bool b => cases b <;> cases hKind
    | _ => cases hKind
  | float x =>
    intro j' r r' hr hr' h
    have hKind := kind_eq h
    cases j' with
    | int n =>
      obtain ⟨hText, -⟩ := numerals_append_inj x.numeral isNumeral_intText hr hr' h
      exact absurd hText.symm (intText_ne n x)
    | float x' =>
      obtain ⟨hText, rfl⟩ := numerals_append_inj x.numeral x'.numeral hr hr' h
      cases x
      cases x'
      cases hText
      exact ⟨rfl, rfl⟩
    | bool b => cases b <;> cases hKind
    | _ => cases hKind
  | str s =>
    intro j' r r' _ _ h
    have hKind := kind_eq h
    cases j' with
    | str s' =>
      obtain ⟨rfl, rfl⟩ := quote_append_inj h
      exact ⟨rfl, rfl⟩
    | bool b => cases b <;> cases hKind
    | _ => cases hKind
  | list xs hxs =>
    intro j' r r' _ _ h
    have hKind := kind_eq h
    cases j' with
    | list ys =>
      obtain ⟨rfl, rfl⟩ := dumpsList_append_inj hxs h
      exact ⟨rfl, rfl⟩
    | bool b => cases b <;> cases hKind
    | _ => cases hKind
  | dict ms hms =>
    intro j' r r' _ _ h
    have hKind := kind_eq h
    cases j' with
    | dict ns =>
      obtain ⟨rfl, rfl⟩ := dumpsDict_append_inj hms h
      exact ⟨rfl, rfl⟩
    | bool b => cases b <;> cases hKind
    | _ => cases hKind

theorem dumps_injective : Function.Injective dumps := by
  intro j j' h
  have hNil : Ends [] := by simp [Ends]
  exact (dumps_append_inj j j' [] [] hNil hNil (by rw [h])).1

instance : DecidableEq Json := dumps_injective.decidableEq

-- ------ Inside and outside of strings

/-- Where a reader of the text stands: outside every string, inside one, after a backslash
in one, or at a character that cannot stand there. -/
inductive Place where
  | outside
  | inside
  | escaped
  | broken
deriving DecidableEq

/-- The characters of a text outside its strings, quotes apart. -/
def isBare (c : Char) : Bool :=
  isNumeral c ||
    ['[', ']', '\x7b', '\x7d', ',', ':', 'n', 'u', 'l', 't', 'r', 'f', 'a', 's'].contains c

namespace Place

def next : Place → Char → Place
  | outside, c => if c = '\"' then inside else if isBare c then outside else broken
  | inside, c => if c = '\"' then outside else if c = '\\' then escaped else inside
  | escaped, c => if c = 'u' ∨ (longChar c).isSome then inside else broken
  | broken, _ => broken

def after (p : Place) (t : List Char) : Place := t.foldl next p

@[simp] theorem after_nil (p : Place) : p.after [] = p := rfl

@[simp] theorem after_cons (p : Place) (c : Char) (t : List Char) :
    p.after (c :: t) = (p.next c).after t := rfl

@[simp] theorem after_append (p : Place) (t t' : List Char) :
    p.after (t ++ t') = (p.after t).after t' := List.foldl_append

@[simp] theorem after_broken (t : List Char) : broken.after t = broken := by
  induction t with
  | nil => rfl
  | cons c t ih => exact ih

theorem after_numerals {t : List Char} (ht : ∀ c ∈ t, isNumeral c) : outside.after t = outside := by
  induction t with
  | nil => rfl
  | cons c t ih =>
    have hc : isNumeral c := ht c List.mem_cons_self
    have hQuote : c ≠ '\"' := by
      rintro rfl
      exact absurd hc (by decide)
    have hNext : outside.next c = outside := by simp [next, hQuote, isBare, hc]
    rw [after_cons, hNext]
    exact ih fun c hc => ht c (List.mem_cons_of_mem _ hc)

theorem next_digitChar : ∀ n < 16, inside.next (Nat.digitChar n) = inside := by decide

theorem after_escapeChar (c : Char) : inside.after (escapeChar c) = inside := by
  unfold escapeChar
  split
  · next e hShort =>
    have hNext : escaped.next e = inside := by simp [next, (longChar_of_shortEscape hShort).2]
    show (escaped.next e).after [] = inside
    rw [hNext]
    rfl
  · next hShort =>
    obtain ⟨hQuote, hBackslash⟩ := shortEscape_eq_none hShort
    split
    · next hControl =>
      show ((inside.next _).next _).after [] = inside
      rw [next_digitChar _ (by omega), next_digitChar _ (by omega)]
      rfl
    · simp [next, hQuote, hBackslash]

theorem after_quote (s : String) : outside.after (quote s) = outside := by
  have hBody : ∀ cs : List Char, inside.after (cs.flatMap escapeChar) = inside := by
    intro cs
    induction cs with
    | nil => rfl
    | cons c cs ih => rw [List.flatMap_cons, after_append, after_escapeChar, ih]
  show inside.after (_ ++ ['\"']) = outside
  rw [after_append, hBody]
  rfl

theorem after_dumps (j : Json) : outside.after (dumps j) = outside := by
  induction j using induct with
  | null => decide
  | bool b => cases b <;> decide
  | int n => exact after_numerals isNumeral_intText
  | float x => exact after_numerals x.numeral
  | str s => exact after_quote s
  | list xs hxs =>
    have hItems : ∀ xs : List Json, (∀ x ∈ xs, outside.after (dumps x) = outside) →
        outside.after (dumpsItems xs) = outside := by
      intro xs hxs
      induction xs with
      | nil => decide
      | cons x xs ih =>
        have hComma : outside.next ',' = outside := by decide
        rw [dumpsItems, after_cons, hComma, after_append, hxs x List.mem_cons_self]
        exact ih fun x hx => hxs x (List.mem_cons_of_mem _ hx)
    cases xs with
    | nil => decide
    | cons x xs =>
      have hOpen : outside.next '[' = outside := by decide
      rw [dumps, dumpsList, after_cons, hOpen, after_append, hxs x List.mem_cons_self]
      exact hItems xs fun x hx => hxs x (List.mem_cons_of_mem _ hx)
  | dict ms hms =>
    have hColon : outside.next ':' = outside := by decide
    have hMembers : ∀ ms : List (String × Json), (∀ m ∈ ms, outside.after (dumps m.2) = outside) →
        outside.after (dumpsMembers ms) = outside := by
      intro ms hms
      induction ms with
      | nil => decide
      | cons m ms ih =>
        have hComma : outside.next ',' = outside := by decide
        rw [dumpsMembers, after_cons, hComma, after_append, after_quote, after_cons, hColon,
          after_append, hms m List.mem_cons_self]
        exact ih fun m hm => hms m (List.mem_cons_of_mem _ hm)
    cases ms with
    | nil => decide
    | cons m ms =>
      have hOpen : outside.next '\x7b' = outside := by decide
      rw [dumps, dumpsDict, after_cons, hOpen, after_append, after_quote, after_cons, hColon,
        after_append, hms m List.mem_cons_self]
      exact hMembers ms fun m hm => hms m (List.mem_cons_of_mem _ hm)

/-- Two readers of one text of whom at most one is inside a string, unless one of them is
lost. -/
def Opposite (p q : Place) : Prop :=
  p = broken ∨ q = broken ∨ p = outside ∧ q = inside ∨ p = inside ∧ q = outside

theorem opposite_next (c : Char) : Opposite (outside.next c) (inside.next c) := by
  by_cases hQuote : c = '\"'
  · simp [Opposite, next, hQuote]
  · by_cases hBare : isBare c
    · have hBackslash : c ≠ '\\' := by
        rintro rfl
        exact absurd hBare (by decide)
      simp [Opposite, next, hQuote, hBare, hBackslash]
    · simp [Opposite, next, hQuote, hBare]

theorem Opposite.symm {p q : Place} (h : Opposite p q) : Opposite q p := by
  unfold Opposite at h ⊢
  tauto

theorem Opposite.after {p q : Place} (h : Opposite p q) (t : List Char) :
    Opposite (p.after t) (q.after t) := by
  induction t generalizing p q with
  | nil => exact h
  | cons c t ih =>
    refine ih ?_
    rcases h with rfl | rfl | ⟨rfl, rfl⟩ | ⟨rfl, rfl⟩
    · exact Or.inl rfl
    · exact Or.inr (Or.inl rfl)
    · exact opposite_next c
    · exact (opposite_next c).symm

theorem after_dumps_inside (j : Json) : inside.after (dumps j) ≠ outside := by
  intro h
  have hOpposite := (show Opposite outside inside by simp [Opposite]).after (dumps j)
  rw [after_dumps, h] at hOpposite
  revert hOpposite
  simp [Opposite]

end Place

-- ------ Tagged text

/-- A character that a text has in its strings only, and unescaped. -/
def Separates (sep : Char) : Prop :=
  Place.outside.next sep = .broken ∧ Place.inside.next sep = .inside ∧
    Place.escaped.next sep = .broken

instance (sep : Char) : Decidable (Separates sep) :=
  inferInstanceAs (Decidable (_ ∧ _ ∧ _))

theorem dumps_ne_append {sep : Char} (hSep : Separates sep) (j j' : Json) (u : List Char) :
    dumps j ≠ u ++ sep :: dumps j' := by
  obtain ⟨hOutside, hInside, hEscaped⟩ := hSep
  intro h
  have hAfter := Place.after_dumps j
  rw [h, Place.after_append, Place.after_cons] at hAfter
  cases hPlace : Place.outside.after u with
  | outside => simp [hPlace, hOutside] at hAfter
  | inside =>
    rw [hPlace, hInside] at hAfter
    exact Place.after_dumps_inside j' hAfter
  | escaped => simp [hPlace, hEscaped] at hAfter
  | broken => simp [hPlace, Place.next] at hAfter

/-- **Tag and value come apart in one way**, though the tag may hold the separator. -/
theorem tagged_dumps_inj {sep : Char} (hSep : Separates sep) {t t' : List Char} {j j' : Json}
    (h : t ++ sep :: dumps j = t' ++ sep :: dumps j') : t = t' ∧ j = j' := by
  rcases List.append_eq_append_iff.mp h with ⟨u, rfl, hRest⟩ | ⟨u, rfl, hRest⟩
  · cases u with
    | nil => exact ⟨(List.append_nil t).symm, dumps_injective (List.cons.inj hRest).2⟩
    | cons c u => exact absurd (List.cons.inj hRest).2 (dumps_ne_append hSep j j' u)
  · cases u with
    | nil => exact ⟨List.append_nil t', (dumps_injective (List.cons.inj hRest).2).symm⟩
    | cons c u => exact absurd (List.cons.inj hRest).2 (dumps_ne_append hSep j' j u)

end Json
