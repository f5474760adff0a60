import Neuroswarm.Mcp.Addresses
import Neuroswarm.Mcp.Casing
import Neuroswarm.Lib.Fallible

/-!
# Address literals

* `ipAddress_cases` — a literal without a scope id is made of hexadecimal digits, colons
  and dots, and does not end in a dot.
* `ipv4_lower_eq`, `ipv6FromString_lower` — small letters name the same address.
-/

namespace Neuroswarm.Mcp

open Armcascade (Text isSpace)

-- ------ The letters of a literal

/-- A letter that an address without a scope id can have. -/
def IsAddressLetter (c : Char) : Prop := c = ':' ∨ c = '.' ∨ (hexDigit c).isSome

variable {c : Char}

theorem lt_of_isSome_hexDigit (h : (hexDigit c).isSome) :
    (48 ≤ c.toNat ∧ c.toNat ≤ 57) ∨ (65 ≤ c.toNat ∧ c.toNat ≤ 70) ∨
      (97 ≤ c.toNat ∧ c.toNat ≤ 102) := by
  unfold hexDigit digit digitFrom at h
  by_contra hNone
  have h₁ : ¬ (48 ≤ c.toNat ∧ c.toNat ≤ 57) := fun hc => hNone (.inl hc)
  have h₂ : ¬ (65 ≤ c.toNat ∧ c.toNat ≤ 70) := fun hc => hNone (.inr (.inl hc))
  have h₃ : ¬ (97 ≤ c.toNat ∧ c.toNat ≤ 102) := fun hc => hNone (.inr (.inr hc))
  simp [h₁, h₂, h₃] at h

theorem IsAddressLetter.range (h : IsAddressLetter c) :
    46 ≤ c.toNat ∧ c.toNat < 128 ∧ c.toNat ≠ 47 := by
  rcases h with rfl | rfl | h
  · decide
  · decide
  · have := lt_of_isSome_hexDigit h
    omega

theorem IsAddressLetter.not_space (h : IsAddressLetter c) : isSpace c = false := by
  have hRange := h.range
  have hNot : ¬ (isSpace c = true) := by
    unfold isSpace
    simp only [decide_eq_true_eq, List.mem_cons, List.not_mem_nil, or_false]
    omega
  exact Bool.eq_false_iff.mpr hNot

theorem IsAddressLetter.ne_percent (h : IsAddressLetter c) : c ≠ '%' := by
  rintro rfl
  exact absurd h.range (by decide)

theorem isSome_hexDigit_of_digit (h : (digit c).isSome) : (hexDigit c).isSome := by
  unfold hexDigit
  rw [Option.isSome_or, h, Bool.true_or]

variable {n : Nat}

theorem letters_of_parseOctet {octet : Text} (h : parseOctet octet = some n) :
    octet ≠ [] ∧ ∀ c ∈ octet, (digit c).isSome := by
  unfold parseOctet at h
  obtain ⟨digits, hDigits, h⟩ := Option.bind_eq_some_iff.mp h
  dsimp only at h
  split at h
  · cases h
  · next hBad =>
    refine ⟨fun hNil => hBad (.inl hNil), ?_⟩
    exact Option.isSome_of_mapM hDigits

variable {s : Text}

theorem letters_of_ipv4FromString (h : ipv4FromString s = some n) :
    (∀ c ∈ s, c = '.' ∨ (digit c).isSome) ∧ s ≠ [] ∧ s.getLast? ≠ some '.' := by
  unfold ipv4FromString at h
  dsimp only at h
  split at h
  · cases h
  next hLength =>
  obtain ⟨values, hValues, -⟩ := Option.map_eq_some_iff.mp h
  have hOctets : ∀ octet ∈ s.splitOn '.', octet ≠ [] ∧ ∀ c ∈ octet, (digit c).isSome := by
    intro octet hOctet
    obtain ⟨n, hn⟩ := Option.isSome_iff_exists.mp (Option.isSome_of_mapM hValues octet hOctet)
    exact letters_of_parseOctet hn
  refine ⟨fun c hc => ?_, ?_, ?_⟩
  · refine (Delimited.mem_of_mem_splitOn hc).imp_right ?_
    rintro ⟨octet, hOctet, hc⟩
    exact (hOctets octet hOctet).2 c hc
  · rintro rfl
    exact (hOctets [] (by simp)).1 rfl
  · intro hLast
    obtain ⟨front, rfl⟩ := List.getLast?_eq_some_iff.mp hLast
    -- after the last dot there is an empty octet
    refine (hOctets [] ?_).1 rfl
    rw [List.splitOn_append_cons_self]
    simp

/-- A part that an IPv6 address can have. -/
def Piece.Valid (p : Piece) : Prop := p.isEmpty ∨ p.value.isSome

theorem valid_of_hextets {ps : List Piece} (h : hextets ps = some n) :
    ∀ p ∈ ps, p.value.isSome := by
  obtain ⟨values, hValues, -⟩ := Option.map_eq_some_iff.mp h
  exact Option.isSome_of_mapM hValues

theorem valid_of_ipv6WithSkip {ps : List Piece} {k : Nat} (hk : k ∈ skips ps)
    (h : ipv6WithSkip ps k = some n) : ∀ p ∈ ps, p.Valid := by
  obtain ⟨hRange, hEmpty⟩ := List.mem_filter.mp hk
  have hBounds := List.mem_range'_1.mp hRange
  unfold ipv6WithSkip at h
  dsimp only at h
  split at h
  · cases h
  next hPlaced =>
  obtain ⟨high, hHigh, h⟩ := Option.bind_eq_some_iff.mp h
  obtain ⟨low, hLow, -⟩ := Option.bind_eq_some_iff.mp h
  have hLeading : startsEmpty ps = true → partsHi ps k = 0 := by
    intro hStarts
    by_contra hNot
    exact hPlaced (.inl ⟨hStarts, hNot⟩)
  have hTrailing : endsEmpty ps = true → partsLo ps k = 0 := by
    intro hEnds
    by_contra hNot
    exact hPlaced (.inr (.inl ⟨hEnds, hNot⟩))
  intro p hp
  obtain ⟨i, hi, rfl⟩ := List.getElem_of_mem hp
  rcases Nat.lt_trichotomy i k with hBefore | rfl | hAfter
  · by_cases hStarts : startsEmpty ps = true
    · -- an empty first part stands right before the skipped one
      have hZero := hLeading hStarts
      rw [partsHi, if_pos hStarts] at hZero
      have : i = 0 := by omega
      subst this
      rw [startsEmpty, List.head?_eq_getElem?, List.getElem?_eq_getElem hi] at hStarts
      exact .inl hStarts
    · rw [partsHi, if_neg hStarts] at hHigh
      refine .inr (valid_of_hextets hHigh _ ?_)
      exact List.mem_take_iff_getElem.mpr ⟨i, by omega, rfl⟩
  · rw [List.getElem?_eq_getElem hi] at hEmpty
    exact .inl hEmpty
  · by_cases hEnds : endsEmpty ps = true
    · have hZero := hTrailing hEnds
      rw [partsLo, if_pos hEnds] at hZero
      have : i = ps.length - 1 := by omega
      subst this
      rw [endsEmpty, List.getLast?_eq_getElem?, List.getElem?_eq_getElem hi] at hEnds
      exact .inl hEnds
    · rw [partsLo, if_neg hEnds] at hLow
      refine .inr (valid_of_hextets hLow _ ?_)
      refine List.mem_drop_iff_getElem.mpr ⟨i - (k + 1), by omega, ?_⟩
      congr 1
      omega

theorem valid_of_ipv6FromParts {ps : List Piece} (h : ipv6FromParts ps = some n) :
    ∀ p ∈ ps, p.Valid := by
  unfold ipv6FromParts at h
  split at h
  · cases h
  split at h
  · split at h
    · cases h
    · exact fun p hp => .inr (valid_of_hextets h p hp)
  · next k hSkips => exact valid_of_ipv6WithSkip (hSkips ▸ List.mem_singleton_self k) h
  · cases h

theorem letters_of_valid {t : Text} (h : (Piece.ofText t).Valid) :
    ∀ c ∈ t, (hexDigit c).isSome := by
  rcases h with hEmpty | hValue
  · rw [List.isEmpty_iff.mp hEmpty]
    exact fun c hc => absurd hc List.not_mem_nil
  · obtain ⟨n, hn⟩ := Option.isSome_iff_exists.mp hValue
    obtain ⟨digits, hDigits, -⟩ := Option.bind_eq_some_iff.mp hn
    exact Option.isSome_of_mapM hDigits

theorem letters_of_ipv6FromString (h : ipv6FromString s = some n) :
    (∀ c ∈ s, IsAddressLetter c) ∧ s ≠ [] ∧ s.getLast? ≠ some '.' := by
  obtain ⟨ps, hParts, h⟩ := Option.bind_eq_some_iff.mp h
  have hValid := valid_of_ipv6FromParts h
  unfold parts at hParts
  dsimp only at hParts
  split at hParts
  · cases hParts
  next hLength =>
  have hNonempty : s ≠ [] := by
    rintro rfl
    exact hLength (by simp)
  have hTexts := List.splitOn_ne_nil ':' s
  have hLastD : (s.splitOn ':').getLastD [] = (s.splitOn ':').getLast hTexts := by
    rw [List.getLastD_eq_getLast?, List.getLast?_eq_some_getLast hTexts, Option.getD_some]
  split at hParts
  · next hDot =>
    obtain ⟨m, hm, rfl⟩ := Option.map_eq_some_iff.mp hParts
    obtain ⟨hLetters, -, hEnd⟩ := letters_of_ipv4FromString hm
    refine ⟨fun c hc => ?_, hNonempty, ?_⟩
    · rcases Delimited.mem_of_mem_splitOn hc with hColon | ⟨t, ht, hct⟩
      · exact .inl hColon
      · rw [← List.dropLast_append_getLast hTexts, ← hLastD] at ht
        rcases List.mem_append.mp ht with ht | ht
        · refine .inr (.inr (letters_of_valid (hValid _ ?_) c hct))
          exact List.mem_append_left _ (List.mem_map_of_mem ht)
        · rw [List.mem_singleton.mp ht] at hct
          exact .inr ((hLetters c hct).imp_right isSome_hexDigit_of_digit)
    · intro hLast
      obtain ⟨front, rfl⟩ := List.getLast?_eq_some_iff.mp hLast
      obtain ⟨ts, t, hSplit⟩ := @Delimited.splitOn_concat _ _ '.' ':' (by decide) front
      rw [hSplit] at hEnd
      exact hEnd (by simp)
  · next hDot =>
    cases hParts
    refine ⟨fun c hc => ?_, hNonempty, ?_⟩
    · rcases Delimited.mem_of_mem_splitOn hc with hColon | ⟨t, ht, hct⟩
      · exact .inl hColon
      · exact .inr (.inr (letters_of_valid (hValid _ (List.mem_map_of_mem ht)) c hct))
    · intro hLast
      obtain ⟨front, rfl⟩ := List.getLast?_eq_some_iff.mp hLast
      obtain ⟨ts, t, hSplit⟩ := @Delimited.splitOn_concat _ _ '.' ':' (by decide) front
      rw [hSplit] at hDot
      exact hDot (by simp)

-- ------ Small letters

theorem hexDigit_toLower (c : Char) : hexDigit c.toLower = hexDigit c := by
  unfold hexDigit digit digitFrom
  rw [toNat_toLower]
  by_cases h : 65 ≤ c.toNat ∧ c.toNat ≤ 90
  · rw [if_pos h]
    have h₁ : ¬ (48 ≤ c.toNat + 32 ∧ c.toNat + 32 ≤ 57) := by omega
    have h₂ : ¬ (65 ≤ c.toNat + 32 ∧ c.toNat + 32 ≤ 70) := by omega
    have h₃ : ¬ (48 ≤ c.toNat ∧ c.toNat ≤ 57) := by omega
    have h₄ : ¬ (97 ≤ c.toNat ∧ c.toNat ≤ 102) := by omega
    have h₅ : (97 ≤ c.toNat + 32 ∧ c.toNat + 32 ≤ 102) ↔ (65 ≤ c.toNat ∧ c.toNat ≤ 70) := by omega
    have h₆ : c.toNat + 32 - 97 = c.toNat - 65 := by omega
    simp only [h₁, h₂, h₃, h₄, h₅, h₆, if_false, Option.none_or, Option.or_none]
  · rw [if_neg h]

theorem parseHextet_lower (t : Text) : parseHextet (t.map Char.toLower) = parseHextet t := by
  unfold parseHextet
  have hDigit : (hexDigit ∘ Char.toLower) = hexDigit := funext hexDigit_toLower
  simp only [List.mapM_map, hDigit, List.length_map, List.map_eq_nil_iff]

theorem ofText_lower (t : Text) : Piece.ofText (t.map Char.toLower) = Piece.ofText t := by
  unfold Piece.ofText
  rw [parseHextet_lower, List.isEmpty_map]

theorem ipv4_lower_eq (h : ipv4FromString s = some n) :
    s.map Char.toLower = s := by
  have hLetters := (letters_of_ipv4FromString h).1
  have hFixed : ∀ c ∈ s, c.toLower = c := by
    intro c hc
    have hNat : ¬ (65 ≤ c.toNat ∧ c.toNat ≤ 90) := by
      rcases hLetters c hc with rfl | hDigit
      · decide
      · unfold digit digitFrom at hDigit
        split at hDigit
        · omega
        · cases hDigit
    refine Char.toNat_inj.mp ?_
    rw [toNat_toLower, if_neg hNat]
  exact List.map_congr_left hFixed |>.trans (List.map_id s)

theorem ipv6FromString_lower (h : ipv6FromString s = some n) :
    ipv6FromString (s.map Char.toLower) = some n := by
  obtain ⟨ps, hParts, h⟩ := Option.bind_eq_some_iff.mp h
  refine Option.bind_eq_some_iff.mpr ⟨ps, ?_, h⟩
  have hColon : ∀ c : Char, c.toLower = ':' ↔ c = ':' := fun c => eq_of_toLower (by decide)
  have hDot : ∀ t : Text, '.' ∈ t.map Char.toLower ↔ '.' ∈ t := by
    intro t
    rw [List.mem_map]
    constructor
    · rintro ⟨c, hc, hLower⟩
      exact (eq_of_toLower (by decide)).mp hLower ▸ hc
    · intro hMem
      exact ⟨'.', hMem, rfl⟩
  have hMap : Piece.ofText ∘ List.map Char.toLower = Piece.ofText := funext ofText_lower
  unfold parts at hParts ⊢
  dsimp only at hParts ⊢
  have hLast : ((s.splitOn ':').map (List.map Char.toLower)).getLastD [] =
      ((s.splitOn ':').getLastD []).map Char.toLower := by
    rw [List.getLastD_eq_getLast?, List.getLastD_eq_getLast?, List.getLast?_map]
    cases (s.splitOn ':').getLast? <;> rfl
  rw [Delimited.splitOn_map hColon, List.length_map, hLast]
  simp only [hDot, ← List.map_dropLast, List.map_map, hMap]
  split at hParts
  · cases hParts
  next hLength =>
  rw [if_neg hLength]
  split at hParts
  · next hSuffix =>
    obtain ⟨m, hm, rfl⟩ := Option.map_eq_some_iff.mp hParts
    rw [if_pos hSuffix, ipv4_lower_eq hm, hm]
    rfl
  · next hSuffix =>
    rw [if_neg hSuffix, hParts]

-- ------ Normalised literals

/-- A scope id of which nothing is left when blanks and then dots are taken off its end. -/
def IsHollow (scopeId : Text) : Prop := rstripDots (scopeId.rdropWhile isSpace) = []

theorem rdropWhile_append_cons {α : Type*} {p : α → Bool} {x : α} (hx : p x = false)
    (s t : List α) : (s ++ x :: t).rdropWhile p = s ++ x :: t.rdropWhile p := by
  induction t using List.reverseRecOn with
  | nil => rw [List.rdropWhile_concat_neg _ _ _ (by simp [hx]), List.rdropWhile_nil]
  | append_singleton t y ih =>
    have hAssoc : s ++ x :: (t ++ [y]) = (s ++ x :: t) ++ [y] := by simp
    rw [hAssoc, List.rdropWhile_concat, List.rdropWhile_concat]
    split
    · exact ih
    · exact hAssoc.symm

theorem rdropWhile_eq_self {α : Type*} {p : α → Bool} {s : List α} (h : ∀ c ∈ s, p c = false) :
    s.rdropWhile p = s := by
  refine List.rdropWhile_eq_self_iff.mpr fun hs => ?_
  rw [h _ (List.getLast_mem hs)]
  exact Bool.false_ne_true

theorem dropWhile_eq_self {α : Type*} {p : α → Bool} {s : List α} (h : ∀ c ∈ s, p c = false)
    (t : List α) (hs : s ≠ []) : (s ++ t).dropWhile p = s ++ t := by
  obtain ⟨c, s, rfl⟩ := List.exists_cons_of_ne_nil hs
  rw [List.cons_append, List.dropWhile_cons, h c List.mem_cons_self]
  rfl

/-- The letters of an address stay when it is normalised. -/
structure IsAddressText (addr : Text) : Prop where
  letters : ∀ c ∈ addr, IsAddressLetter c
  nonempty : addr ≠ []
  last : addr.getLast? ≠ some '.'

namespace IsAddressText

variable {addr : Text}

theorem of_ipv4 {n : Nat} (h : ipv4FromString addr = some n) : IsAddressText addr := by
  obtain ⟨hLetters, hNonempty, hLast⟩ := letters_of_ipv4FromString h
  refine ⟨fun c hc => .inr ?_, hNonempty, hLast⟩
  exact (hLetters c hc).imp_right isSome_hexDigit_of_digit

theorem of_ipv6 {n : Nat} (h : ipv6FromString addr = some n) : IsAddressText addr := by
  obtain ⟨hLetters, hNonempty, hLast⟩ := letters_of_ipv6FromString h
  exact ⟨hLetters, hNonempty, hLast⟩

theorem not_space (h : IsAddressText addr) : ∀ c ∈ addr, isSpace c = false :=
  fun c hc => (h.letters c hc).not_space

theorem lower (h : IsAddressText addr) (casing : Casing) :
    casing.lower addr = addr.map Char.toLower :=
  casing.lower_ascii addr fun c hc => (h.letters c hc).range.2.1

theorem normalise (h : IsAddressText addr) (casing : Casing) :
    casing.normalise addr = addr.map Char.toLower := by
  have hStrip : strip addr = addr := by
    have hDrop := dropWhile_eq_self h.not_space [] h.nonempty
    rw [List.append_nil] at hDrop
    rw [strip, hDrop, rdropWhile_eq_self h.not_space]
  rw [Casing.normalise, hStrip, h.lower casing, rstripDots]
  refine List.rdropWhile_eq_self_iff.mpr fun hNonempty hDot => h.last ?_
  rw [List.getLast_map, beq_iff_eq, eq_of_toLower (by decide)] at hDot
  rw [List.getLast?_eq_some_getLast h.nonempty, hDot]

theorem normalise_scope (h : IsAddressText addr) (casing : Casing) (scopeId : Text) :
    casing.normalise (addr ++ '%' :: scopeId) =
      addr.map Char.toLower ++ '%' :: rstripDots (casing.lower (scopeId.rdropWhile isSpace)) := by
  have hPercent : isSpace '%' = false := by decide
  rw [Casing.normalise, strip, dropWhile_eq_self h.not_space _ h.nonempty,
    rdropWhile_append_cons hPercent, casing.lower_percent, h.lower casing, rstripDots,
    rdropWhile_append_cons (by decide)]
  rfl

theorem percent_notMem (h : IsAddressText addr) : '%' ∉ addr :=
  fun hMem => (h.letters _ hMem).ne_percent rfl

theorem slash_notMem (h : IsAddressText addr) : '/' ∉ addr :=
  fun hMem => (h.letters _ hMem).range.2.2 rfl

end IsAddressText

theorem splitPercent_cons (c : Char) (s : Text) : splitPercent (c :: s) =
    if c = '%' then ([], some s) else (c :: (splitPercent s).1, (splitPercent s).2) := by
  unfold splitPercent
  by_cases hc : c = '%'
  · simp [hc]
  · simp [hc]

theorem splitPercent_eq_none (h : (splitPercent s).2 = none) :
    (splitPercent s).1 = s := by
  induction s with
  | nil => rfl
  | cons c s ih =>
    rw [splitPercent_cons] at h ⊢
    split at h
    · cases h
    · next hc =>
      rw [if_neg hc]
      exact congrArg (c :: ·) (ih h)

theorem splitPercent_eq_some {scopeId : Text} (h : (splitPercent s).2 = some scopeId) :
    s = (splitPercent s).1 ++ '%' :: scopeId := by
  induction s with
  | nil => cases h
  | cons c s ih =>
    rw [splitPercent_cons] at h ⊢
    split at h
    · next hc =>
      cases h
      rw [if_pos hc, hc]
      rfl
    · next hc =>
      rw [if_neg hc, List.cons_append, ← ih h]

theorem splitPercent_append {addr : Text} (h : '%' ∉ addr) (scopeId : Text) :
    splitPercent (addr ++ '%' :: scopeId) = (addr, some scopeId) := by
  induction addr with
  | nil => rw [List.nil_append, splitPercent_cons, if_pos rfl]
  | cons c addr ih =>
    obtain ⟨hc, hAddr⟩ := List.mem_cons.not.trans not_or |>.mp h
    rw [List.cons_append, splitPercent_cons, if_neg (Ne.symm hc), ih hAddr]

theorem splitPercent_of_notMem (h : '%' ∉ s) : splitPercent s = (s, none) := by
  induction s with
  | nil => rfl
  | cons c s ih =>
    obtain ⟨hc, hRest⟩ := List.mem_cons.not.trans not_or |>.mp h
    rw [splitPercent_cons, if_neg (Ne.symm hc), ih hRest]

theorem ipv4FromString_eq_none (hc : c ∈ s) (hDot : c ≠ '.') (hDigit : (digit c).isSome = false) :
    ipv4FromString s = none := by
  by_contra hSome
  obtain ⟨n, hn⟩ := Option.ne_none_iff_exists'.mp hSome
  rcases (letters_of_ipv4FromString hn).1 c hc with h | h
  · exact hDot h
  · rw [hDigit] at h
    cases h

theorem colon_mem (h : ipv6FromString s = some n) : ':' ∈ s := by
  by_contra hColon
  obtain ⟨ps, hParts, -⟩ := Option.bind_eq_some_iff.mp h
  unfold parts at hParts
  rw [List.splitOn_eq_singleton hColon] at hParts
  cases hParts

theorem ipAddress_v6 (h : ipv6FromString s = some n) :
    ipAddress s = some (.v6 n none) := by
  have hText := IsAddressText.of_ipv6 h
  have hSplit := splitPercent_of_notMem hText.percent_notMem
  rw [ipAddress, ipv4FromString_eq_none (colon_mem h) (by decide) (by decide), ipv6Address, hSplit]
  dsimp only
  rw [if_neg, h]
  · rfl
  · rintro (hSlash | hScope)
    · exact hText.slash_notMem hSlash
    · cases hScope

theorem ipAddress_scoped {addr scopeId : Text} (h : ipv6FromString addr = some n)
    (hNonempty : scopeId ≠ []) (hPercent : '%' ∉ scopeId) (hSlash : '/' ∉ scopeId) :
    ipAddress (addr ++ '%' :: scopeId) = some (.v6 n (some scopeId)) := by
  have hText := IsAddressText.of_ipv6 h
  have hSplit := splitPercent_append hText.percent_notMem scopeId
  have hMem : '%' ∈ addr ++ '%' :: scopeId := by simp
  rw [ipAddress, ipv4FromString_eq_none hMem (by decide) (by decide), ipv6Address, hSplit]
  dsimp only
  rw [if_neg, h]
  · rfl
  · rintro (hMem | hScope)
    · rcases List.mem_append.mp hMem with hMem | hMem
      · exact hText.slash_notMem hMem
      · rcases List.mem_cons.mp hMem with hMem | hMem
        · cases hMem
        · exact hSlash hMem
    · simp [hNonempty, hPercent] at hScope

theorem ipAddress_cases {a : IpAddress} (h : ipAddress s = some a) :
    (∃ n, a = .v4 n ∧ ipv4FromString s = some n) ∨
      (∃ n, a = .v6 n none ∧ ipv6FromString s = some n) ∨
      ∃ n addr scopeId, a = .v6 n (some scopeId) ∧ s = addr ++ '%' :: scopeId ∧
        ipv6FromString addr = some n ∧ '%' ∉ scopeId ∧ '/' ∉ scopeId := by
  unfold ipAddress at h
  cases h4 : ipv4FromString s with
  | some n =>
    rw [h4] at h
    cases h
    exact .inl ⟨n, rfl, rfl⟩
  | none =>
    rw [h4] at h
    replace h : ipv6Address s = some a := h
    unfold ipv6Address at h
    dsimp only at h
    split at h
    · cases h
    next hNot =>
    obtain ⟨n, hn, rfl⟩ := Option.map_eq_some_iff.mp h
    cases hScope : (splitPercent s).2 with
    | none =>
      rw [splitPercent_eq_none hScope] at hn
      exact .inr (.inl ⟨n, rfl, hn⟩)
    | some scopeId =>
      have hText := splitPercent_eq_some hScope
      refine .inr (.inr ⟨n, _, scopeId, rfl, hText, hn, ?_, ?_⟩)
      · intro hPercent
        exact hNot (.inr (by simp [hScope, hPercent]))
      · intro hSlash
        refine hNot (.inl ?_)
        rw [hText]
        exact List.mem_append_right _ (List.mem_cons_of_mem _ hSlash)

theorem ipAddress_normalise (casing : Casing) {host : Text} {a : IpAddress}
    (h : ipAddress host = some a) :
    (∃ b, ipAddress (casing.normalise host) = some b ∧ b.isBlocked = a.isBlocked) ∨
      ∃ n scopeId, a = .v6 n (some scopeId) ∧ IsHollow scopeId := by
  obtain ⟨n, rfl, hn⟩ | ⟨n, rfl, hn⟩ | ⟨n, addr, scopeId, rfl, rfl, hn, hPercent, hSlash⟩ :=
    ipAddress_cases h
  · refine .inl ⟨.v4 n, ?_, rfl⟩
    rw [(IsAddressText.of_ipv4 hn).normalise casing, ipv4_lower_eq hn, h]
  · refine .inl ⟨.v6 n none, ?_, rfl⟩
    rw [(IsAddressText.of_ipv6 hn).normalise casing]
    exact ipAddress_v6 (ipv6FromString_lower hn)
  · by_cases hHollow : IsHollow scopeId
    · exact .inr ⟨n, scopeId, rfl, hHollow⟩
    · have hNormal := (IsAddressText.of_ipv6 hn).normalise_scope casing scopeId
      refine .inl ⟨.v6 n (some (rstripDots (casing.lower (scopeId.rdropWhile isSpace)))), ?_,
        IpAddress.isBlocked_scope _ _ _⟩
      rw [hNormal]
      -- what is left of the scope id is some of its letters in small form
      have hMem : ∀ c ∈ ['%', '/'], c ∈ rstripDots (casing.lower (scopeId.rdropWhile isSpace)) →
          c ∈ scopeId := by
        intro c hc hLeft
        have hLower := (List.rdropWhile_prefix _ _).subset hLeft
        have hStripped := casing.mem_lower _ c hc hLower
        exact (List.rdropWhile_prefix _ _).subset hStripped
      refine ipAddress_scoped (ipv6FromString_lower hn) ?_ ?_ ?_
      · intro hNil
        refine hHollow (List.rdropWhile_eq_nil_iff.mpr fun c hc => ?_)
        have hDots := (casing.lower_dots (scopeId.rdropWhile isSpace)).mp fun c hc =>
          beq_iff_eq.mp (List.rdropWhile_eq_nil_iff.mp hNil c hc)
        exact beq_iff_eq.mpr (hDots c hc)
      · exact fun hLeft => hPercent (hMem _ (by simp) hLeft)
      · exact fun hLeft => hSlash (hMem _ (by simp) hLeft)

end Neuroswarm.Mcp
