import Mathlib.Data.List.Chain
import Neuroswarm.Okf.Documents

/-!
# Knowledge compiler — sections

`parse_sections`. A line is one of `body.splitlines()`, of which the text of a section is made.

* `headings_within` — headings stand in order, each on a line of the body.
* `parseSections_lossless_iff` — when the sections are the body.
-/

namespace Neuroswarm.Okf

open Armcascade (Text isSpace isBlank)
open Mcp (strip)

/-- `body.splitlines()`. -/
def linesOf (body : Text) : List Text := splitLines (body.length + 1) body

/-- The line of this number, from 1 on, is in the section's range. -/
def SectionNode.holds (s : SectionNode) (n : ℕ) : Bool := s.startLine ≤ n ∧ n ≤ s.endLine

/-- The sections are the body. -/
structure Lossless (body : Text) (sections : List SectionNode) : Prop where
  consecutive : sections.IsChain fun s s' => s'.startLine = s.endLine + 1
  covered : ∀ n line, (linesOf body)[n]? = some line → isBlank line = false →
    sections.countP (·.holds (n + 1)) = 1
  texts : ∀ s ∈ sections, s.startLine ≤ s.endLine ∧ s.text =
    strip (['\n'].intercalate (((linesOf body).take s.endLine).drop (s.startLine - 1)))

/-- Only blank lines stand before the first heading. A body without one is stripped, and its
lines end in line feeds only. -/
def LeavesNothing (body : Text) : Prop :=
  match headings (body.length + 1) 0 body with
  | [] => strip body = body ∧ ∀ c ∈ body, isLineEnd c = true → c = '\n'
  | h :: _ => ∀ line ∈ (linesOf body).take h.line, isBlank line = true

-- ------ Lines

theorem splitLines_eq {fuel fuel' : ℕ} {t : Text} (h : t.length < fuel) (h' : t.length < fuel') :
    splitLines fuel t = splitLines fuel' t := by
  induction fuel generalizing fuel' t with
  | zero => omega
  | succ fuel ih =>
    obtain ⟨fuel', rfl⟩ : ∃ k, fuel' = k + 1 := ⟨fuel' - 1, by omega⟩
    rcases t with _ | ⟨c, cs⟩
    · rfl
    rw [splitLines, splitLines]
    have hDrop := (List.dropWhile_sublist (fun c => !isLineEnd c) (l := c :: cs)).length_le
    split
    · rfl
    · next rest hRest =>
      rw [hRest] at hDrop
      simp only [List.length_cons] at hDrop h h'
      rw [@ih fuel' rest (by omega) (by omega)]
    · next d rest _ hRest =>
      rw [hRest] at hDrop
      simp only [List.length_cons] at hDrop h h'
      rw [@ih fuel' rest (by omega) (by omega)]

theorem linesOf_eq {fuel : ℕ} {t : Text} (h : t.length < fuel) : splitLines fuel t = linesOf t :=
  splitLines_eq h (Nat.lt_succ_self _)

theorem exists_lineEnd (t : Text) :
    (∀ c ∈ t, isLineEnd c = false) ∨ ∃ line c rest, t = line ++ c :: rest ∧
      (∀ c ∈ line, isLineEnd c = false) ∧ isLineEnd c = true := by
  induction t with
  | nil => exact .inl nofun
  | cons c t ih =>
    cases hc : isLineEnd c with
    | true => exact .inr ⟨[], c, t, rfl, nofun, hc⟩
    | false =>
      rcases ih with hAll | ⟨line, d, rest, rfl, hLine, hd⟩
      · exact .inl (List.forall_mem_cons.mpr ⟨hc, hAll⟩)
      · exact .inr ⟨c :: line, d, rest, rfl, List.forall_mem_cons.mpr ⟨hc, hLine⟩, hd⟩

theorem linesOf_line {line : Text} (h : ∀ c ∈ line, isLineEnd c = false) (hNe : line ≠ []) :
    linesOf line = [line] := by
  obtain ⟨c, cs, rfl⟩ := List.exists_cons_of_ne_nil hNe
  have hDrop : (c :: cs).dropWhile (fun c => !isLineEnd c) = [] := by
    simpa [List.dropWhile_eq_nil_iff] using h
  have hTake : (c :: cs).takeWhile (fun c => !isLineEnd c) = c :: cs := by
    simpa [List.takeWhile_eq_self_iff] using h
  unfold linesOf
  rw [splitLines, hDrop, hTake]

theorem linesOf_append {line : Text} {c : Char} (rest : Text) (h : ∀ c ∈ line, isLineEnd c = false)
    (hc : isLineEnd c = true) :
    linesOf (line ++ c :: rest) =
      line :: linesOf (if c = '\r' ∧ rest.head? = some '\n' then rest.tail else rest) := by
  have hDrop : (line ++ c :: rest).dropWhile (fun c => !isLineEnd c) = c :: rest := by
    rw [List.dropWhile_append_of_pos (by simpa using h), List.dropWhile_cons_of_neg (by simp [hc])]
  have hTake : (line ++ c :: rest).takeWhile (fun c => !isLineEnd c) = line := by
    rw [List.takeWhile_append_of_pos (by simpa using h), List.takeWhile_cons_of_neg (by simp [hc]),
      List.append_nil]
  obtain ⟨d, ds, hText⟩ : ∃ d ds, line ++ c :: rest = d :: ds := by
    cases line <;> exact ⟨_, _, rfl⟩
  have hLength : rest.length < (line ++ c :: rest).length := by simp; omega
  unfold linesOf
  rw [hText] at hDrop hTake hLength ⊢
  rw [splitLines, hDrop, hTake]
  split
  · next hEq => cases hEq
  · next after hEq =>
    cases hEq
    rw [if_pos ⟨rfl, rfl⟩]
    simp only [List.length_cons] at hLength ⊢
    rw [linesOf_eq (by omega)]
    rfl
  · next after hOther hEq =>
    cases hEq
    rw [if_neg, linesOf_eq hLength]
    · rfl
    · rintro ⟨rfl, hHead⟩
      obtain ⟨after', rfl⟩ := List.head?_eq_some_iff.mp hHead
      exact hOther after' rfl rfl

theorem length_linesOf_append (u v : Text) :
    countLines u + 1 + (linesOf v).length ≤ (linesOf (u ++ '\n' :: v)).length := by
  have hZero : ∀ line : Text, (∀ c ∈ line, isLineEnd c = false) → countLines line = 0 := by
    intro line h
    refine List.count_eq_zero.mpr fun hMem => ?_
    have hEnd : isLineEnd '\n' = false := h _ hMem
    exact absurd hEnd (by decide)
  induction hn : u.length using Nat.strongRecOn generalizing u with
  | ind n ih =>
    rcases exists_lineEnd u with hAll | ⟨line, c, rest, rfl, hLine, hc⟩
    · rw [linesOf_append v hAll (by decide), if_neg (by simp), hZero u hAll, List.length_cons]
      omega
    have hCount : countLines (line ++ c :: rest) = countLines (c :: rest) := by
      have hNone := hZero line hLine
      unfold countLines at hNone ⊢
      rw [List.count_append]
      omega
    have hText : line ++ c :: rest ++ '\n' :: v = line ++ c :: (rest ++ '\n' :: v) := by simp
    rw [hText, linesOf_append _ hLine hc, hCount, List.length_cons]
    simp only [List.length_append, List.length_cons] at hn
    split
    · next hPair =>
      obtain ⟨rfl, hHead⟩ := hPair
      rcases rest with _ | ⟨d, rest⟩
      · show countLines ['\r'] + 1 + _ ≤ (linesOf v).length + 1
        have hReturn : countLines ['\r'] = 0 := rfl
        omega
      · obtain rfl : d = '\n' := by simpa using hHead
        have hRest := ih rest.length (by simp at hn; omega) rest rfl
        have hFeed : countLines ('\r' :: '\n' :: rest) = countLines rest + 1 := by
          simp [countLines]
        show _ ≤ (linesOf (rest ++ '\n' :: v)).length + 1
        omega
    · have hRest := ih rest.length (by omega) rest rfl
      have hFeed : countLines (c :: rest) ≤ countLines rest + 1 := by
        unfold countLines
        rw [List.count_cons]
        split <;> omega
      omega

/-- Line feeds only: the lines put together again. -/
theorem intercalate_linesOf {t : Text} (hEnds : ∀ c ∈ t, isLineEnd c = true → c = '\n')
    (hLast : t.getLast? ≠ some '\n') :
    ['\n'].intercalate (linesOf t) = t ∧ (linesOf t).length ≤ countLines t + 1 := by
  induction hn : t.length using Nat.strongRecOn generalizing t with
  | ind n ih =>
    rcases exists_lineEnd t with hAll | ⟨line, c, rest, rfl, hLine, hc⟩
    · by_cases hNil : t = []
      · subst hNil
        exact ⟨rfl, Nat.zero_le _⟩
      · rw [linesOf_line hAll hNil]
        exact ⟨by simp [List.intercalate], by simp⟩
    obtain rfl := hEnds c (by simp) hc
    have hNe : rest ≠ [] := by
      rintro rfl
      simp at hLast
    have hRestLast : rest.getLast? ≠ some '\n' := by
      rw [List.getLast?_append_of_ne_nil _ (List.cons_ne_nil _ _),
        List.getLast?_cons_of_ne_nil hNe] at hLast
      exact hLast
    obtain ⟨hJoin, hCount⟩ := ih rest.length (by simp at hn; omega)
      (fun c hMem => hEnds c (by simp [hMem])) hRestLast rfl
    rw [linesOf_append rest hLine hc, if_neg (by simp)]
    have hSome : linesOf rest ≠ [] := by
      intro hNil
      rw [hNil] at hJoin
      exact hNe hJoin.symm
    obtain ⟨l, ls, hLs⟩ := List.exists_cons_of_ne_nil hSome
    rw [hLs] at hJoin hCount ⊢
    rw [List.intercalate_cons_cons, hJoin]
    refine ⟨by simp, ?_⟩
    simp only [countLines, List.count_append, List.count_cons_self, List.length_cons] at hCount ⊢
    omega

-- ------ Headings

theorem headings_nil (fuel line : ℕ) : headings fuel line [] = [] := by
  cases fuel <;> rfl

theorem eq_of_dropWhile {t next : Text} {c : Char}
    (h : t.dropWhile (· ≠ '\n') = c :: next) : ∃ pre, t = pre ++ '\n' :: next := by
  induction t with
  | nil => cases h
  | cons d t ih =>
    by_cases hd : d = '\n'
    · rw [List.dropWhile_cons_of_neg (by simpa using hd)] at h
      cases h
      exact ⟨[], by rw [hd]; rfl⟩
    · rw [List.dropWhile_cons_of_pos (by simpa using hd)] at h
      obtain ⟨pre, rfl⟩ := ih h
      exact ⟨d :: pre, rfl⟩

theorem headings_within (fuel line : ℕ) (t : Text) :
    (headings fuel line t).IsChain (fun h h' => h.line < h'.line) ∧
      ∀ h ∈ headings fuel line t, line ≤ h.line ∧ h.line < line + (linesOf t).length := by
  induction fuel generalizing line t with
  | zero => exact ⟨.nil, nofun⟩
  | succ fuel ih =>
    rw [headings]
    split
    · next hMatch =>
      have hSome : 0 < (linesOf t).length := by
        have hNe : t ≠ [] := by
          rintro rfl
          simp at hMatch
        rcases exists_lineEnd t with hAll | ⟨u, c, rest, rfl, hLine, hc⟩
        · rw [linesOf_line hAll hNe]
          exact Nat.one_pos
        · rw [linesOf_append rest hLine hc]
          exact Nat.succ_pos _
      generalize hBlanks : (t.dropWhile (· = '#')).takeWhile isSpace = blanks
      generalize hAfter : (t.dropWhile (· = '#')).dropWhile isSpace = after
      -- the lines that the heading and the blanks in it take
      have hRest : ∀ h ∈ headings fuel (line + countLines blanks + 1)
          ((after.dropWhile (· ≠ '\n')).drop 1), line < h.line ∧
            h.line < line + (linesOf t).length := by
        cases hDrop : after.dropWhile (· ≠ '\n') with
        | nil =>
          intro h hh
          rw [List.drop_nil, headings_nil] at hh
          cases hh
        | cons c next =>
          intro h hh
          obtain ⟨pre, hPre⟩ := eq_of_dropWhile hDrop
          have hText : t = t.takeWhile (· = '#') ++ (blanks ++ pre) ++ '\n' :: next := by
            rw [List.append_assoc, List.append_assoc, ← hPre, ← hBlanks, ← hAfter,
              List.takeWhile_append_dropWhile, List.takeWhile_append_dropWhile]
          have hLines := length_linesOf_append (t.takeWhile (· = '#') ++ (blanks ++ pre)) next
          rw [← hText] at hLines
          simp only [countLines, List.count_append] at hLines
          have hIn := (ih (line + countLines blanks + 1) next).2 h hh
          simp only [countLines] at hIn
          omega
      refine ⟨List.isChain_cons.mpr ⟨fun h hh => (hRest h (List.mem_of_mem_head? hh)).1,
        (ih _ _).1⟩, ?_⟩
      refine List.forall_mem_cons.mpr ⟨⟨le_rfl, by simpa using hSome⟩, fun h hh => ?_⟩
      exact ⟨(hRest h hh).1.le, (hRest h hh).2⟩
    · split
      · exact ⟨.nil, nofun⟩
      · next c next hDrop =>
        obtain ⟨pre, hPre⟩ := eq_of_dropWhile hDrop
        have hLines := length_linesOf_append pre next
        rw [← hPre] at hLines
        refine ⟨(ih _ _).1, fun h hh => ?_⟩
        have hIn := (ih (line + 1) next).2 h hh
        omega

-- ------ Ranges

theorem holds_sectionOf (lines : List Text) (h : Heading) (stop n : ℕ) :
    (sectionOf lines h stop).holds (n + 1) = true ↔ h.line ≤ n ∧ n < stop := by
  rw [SectionNode.holds, decide_eq_true_iff]
  show h.line + 1 ≤ n + 1 ∧ n + 1 ≤ stop ↔ _
  omega

/-- The sections of a body with headings. -/
def sectionsOf (lines : List Text) (h : Heading) (hs : List Heading) : List SectionNode :=
  List.zipWith (sectionOf lines) (h :: hs) (hs.map Heading.line ++ [lines.length])

theorem sectionsOf_cons (lines : List Text) (h h' : Heading) (hs : List Heading) :
    sectionsOf lines h (h' :: hs) = sectionOf lines h h'.line :: sectionsOf lines h' hs := rfl

theorem sectionsOf_spec {lines : List Text} (h : Heading) (hs : List Heading)
    (hChain : (h :: hs).IsChain fun h h' => h.line < h'.line)
    (hIn : ∀ h' ∈ h :: hs, h'.line < lines.length) :
    (∀ s ∈ (sectionsOf lines h hs).head?, s.startLine = h.line + 1) ∧
      ((sectionsOf lines h hs).IsChain fun s s' => s'.startLine = s.endLine + 1) ∧
      (∀ n < lines.length, (sectionsOf lines h hs).countP (·.holds (n + 1)) =
        if h.line ≤ n then 1 else 0) ∧
      ∀ s ∈ sectionsOf lines h hs, s.startLine ≤ s.endLine ∧ s.text =
        strip (['\n'].intercalate ((lines.take s.endLine).drop (s.startLine - 1))) := by
  have hLine := hIn h List.mem_cons_self
  induction hs generalizing h with
  | nil =>
    have hOne : sectionsOf lines h [] = [sectionOf lines h lines.length] := rfl
    rw [hOne]
    refine ⟨by simp [sectionOf], .singleton _, fun n hn => ?_, fun s hs => ?_⟩
    · rw [List.countP_singleton]
      simp only [holds_sectionOf, hn, and_true]
    · rw [List.mem_singleton.mp hs]
      exact ⟨hLine, rfl⟩
  | cons h' hs ih =>
    obtain ⟨hFirst, hRest⟩ := List.isChain_cons_cons.mp hChain
    obtain ⟨hStart, hNext, hCount, hTexts⟩ := ih h' hRest
      (fun h'' hh => hIn h'' (List.mem_cons_of_mem h hh)) (hIn h' (by simp))
    rw [sectionsOf_cons]
    refine ⟨by simp [sectionOf], List.isChain_cons.mpr ⟨hStart, hNext⟩, fun n hn => ?_,
      List.forall_mem_cons.mpr ⟨⟨hFirst, rfl⟩, hTexts⟩⟩
    rw [List.countP_cons, hCount n hn]
    simp only [holds_sectionOf]
    split <;> split <;> split <;> omega

-- ------ The whole body

theorem strip_strip (t : Text) : strip (strip t) = strip t := by
  unfold strip
  have hDrop : ((t.dropWhile isSpace).rdropWhile isSpace).dropWhile isSpace =
      (t.dropWhile isSpace).rdropWhile isSpace := by
    rcases hCut : (t.dropWhile isSpace).rdropWhile isSpace with _ | ⟨c, cs⟩
    · rfl
    · obtain ⟨rest, hRest⟩ := List.rdropWhile_prefix isSpace (t.dropWhile isSpace)
      rw [hCut] at hRest
      have hHead := List.head_dropWhile_not isSpace (l := t) (by simp [← hRest])
      simp only [← hRest, List.cons_append, List.head_cons] at hHead
      rw [List.dropWhile_cons_of_neg (by simp [hHead])]
  rw [hDrop, List.rdropWhile_idempotent]

theorem mem_intercalate {c : Char} {ls : List Text} (h : c ∈ ['\n'].intercalate ls) :
    c = '\n' ∨ ∃ line ∈ ls, c ∈ line := by
  induction ls with
  | nil => cases h
  | cons l ls ih =>
    rcases ls with _ | ⟨l', ls⟩
    · exact .inr ⟨l, List.mem_cons_self, by simpa [List.intercalate] using h⟩
    · rw [List.intercalate_cons_cons] at h
      simp only [List.mem_append, List.mem_singleton] at h
      rcases h with (h | h) | h
      · exact .inr ⟨l, List.mem_cons_self, h⟩
      · exact .inl h
      · exact (ih h).imp_right fun ⟨line, hLine, hc⟩ => ⟨line, List.mem_cons_of_mem l hLine, hc⟩

theorem lineEnd_notMem_linesOf (t : Text) :
    ∀ line ∈ linesOf t, ∀ c ∈ line, isLineEnd c = false := by
  induction hn : t.length using Nat.strongRecOn generalizing t with
  | ind n ih =>
    rcases exists_lineEnd t with hAll | ⟨line, c, rest, rfl, hLine, hc⟩
    · by_cases hNil : t = []
      · subst hNil
        exact nofun
      · rw [linesOf_line hAll hNil]
        simpa using hAll
    · rw [linesOf_append rest hLine hc]
      refine List.forall_mem_cons.mpr ⟨hLine, ih _ ?_ _ rfl⟩
      simp only [List.length_append, List.length_cons] at hn
      split
      · rw [List.length_tail]
        omega
      · omega

/-- **When the sections lose nothing of a body.** -/
theorem parseSections_lossless_iff (body : Text) :
    Lossless body (parseSections body) ↔ LeavesNothing body := by
  unfold LeavesNothing parseSections
  cases hHeadings : headings (body.length + 1) 0 body with
  | nil =>
    constructor
    · intro hLossless
      have hText : body = strip (['\n'].intercalate (((linesOf body).take _).drop _)) :=
        (hLossless.texts _ List.mem_cons_self).2
      constructor
      · rw [hText, strip_strip]
      · intro c hc hEnd
        rw [hText] at hc
        have hc := ((List.rdropWhile_prefix _ _).sublist.trans (List.dropWhile_sublist _)).subset hc
        refine (mem_intercalate hc).resolve_right ?_
        rintro ⟨line, hLine, hMem⟩
        have hLine := List.mem_of_mem_take (List.mem_of_mem_drop hLine)
        rw [lineEnd_notMem_linesOf body line hLine c hMem] at hEnd
        cases hEnd
    · rintro ⟨hStrip, hEnds⟩
      have hLast : body.getLast? ≠ some '\n' := by
        intro hLast
        obtain ⟨pre, rfl⟩ := List.getLast?_eq_some_iff.mp hLast
        have hNot := List.rdropWhile_last_not isSpace ((pre ++ ['\n']).dropWhile isSpace)
        unfold strip at hStrip
        simp only [hStrip, List.getLast_append_singleton] at hNot
        exact hNot (by simp) (by decide)
      obtain ⟨hJoin, hCount⟩ := intercalate_linesOf hEnds hLast
      refine ⟨.singleton _, fun n line hGet _ => ?_, fun s hs => ?_⟩
      · obtain ⟨hn, -⟩ := List.getElem?_eq_some_iff.mp hGet
        rw [List.countP_singleton, if_pos]
        simp only [SectionNode.holds, decide_eq_true_eq]
        omega
      · rw [List.mem_singleton.mp hs]
        refine ⟨Nat.succ_le_succ (Nat.zero_le _), ?_⟩
        show body = strip (['\n'].intercalate ((linesOf body).take (countLines body + 1)))
        rw [List.take_of_length_le hCount, hJoin, hStrip]
  | cons h hs =>
    obtain ⟨hChain, hIn⟩ := headings_within (body.length + 1) 0 body
    rw [hHeadings] at hChain hIn
    obtain ⟨-, hConsecutive, hCount, hTexts⟩ := sectionsOf_spec h hs hChain
      fun h' hh => by simpa using (hIn h' hh).2
    constructor
    · intro hLossless line hMem
      obtain ⟨n, hn, hGet⟩ := List.mem_iff_getElem.mp hMem
      rw [List.length_take] at hn
      rw [List.getElem_take] at hGet
      by_contra hText
      have hOnce := hLossless.covered n line (by simp [← hGet]) (by simpa using hText)
      have hNone := hCount n (by omega)
      rw [if_neg (by omega)] at hNone
      exact absurd (hOnce.symm.trans hNone) (by decide)
    · intro hBlank
      refine ⟨hConsecutive, fun n line hGet hText => ?_, hTexts⟩
      obtain ⟨hn, hLine⟩ := List.getElem?_eq_some_iff.mp hGet
      refine (hCount n hn).trans (if_pos ?_)
      by_contra hBefore
      have hMem : line ∈ (linesOf body).take h.line := by
        refine List.mem_iff_getElem.mpr ⟨n, by rw [List.length_take]; omega, ?_⟩
        rw [List.getElem_take, hLine]
      rw [hBlank line hMem] at hText
      cases hText

/-- The first line is in no section. -/
theorem intro_lost : ¬ ∀ body, Lossless body (parseSections body) := by
  intro h
  have hOnce := (h "intro\n# A\n".toList).covered 0 "intro".toList (by decide +kernel)
    (by decide +kernel)
  revert hOnce
  decide +kernel

end Neuroswarm.Okf
