import Neuroswarm.Okf.References

/-!
# Knowledge compiler — frontmatter

`split_frontmatter` looks for the closing `---` in the text, not among the lines.

* `cutDashes_append` — what the search finds where there are no other dashes.
* `splitOfficial_iff` — when it undoes the writing of a document, and when it leaves a text alone.
-/

namespace Neuroswarm.Okf

open Armcascade (Text)

/-- `split_frontmatter(raw)`. -/
def splitOfficial (L : Libraries) (raw : Text) : Except Raised (Mapping × Text × Bool) :=
  if "---".toList.isPrefixOf raw then
    match cutDashes (raw.drop 3) with
    | none => .ok ([], raw, false)
    | some (block, rest) => do
      let fm ← L.safeLoad block
      let body := rest.dropWhile (· = '\n')
      match fm with
      | .dict ms => .ok (ms, body, true)
      | _ => .ok ([], body, true)
  else .ok ([], raw, false)

/-- What `parse_file` makes of it. -/
theorem splitFrontmatter_eq (L : Libraries) (raw : Text) :
    splitFrontmatter L raw =
      (splitOfficial L raw).map fun r => (r.1, if r.2.2 then r.2.1 else raw) := by
  unfold splitFrontmatter splitOfficial
  split
  · cases cutDashes (raw.drop 3) with
    | none => rfl
    | some r =>
      show (L.safeLoad r.1 >>= _) = (L.safeLoad r.1 >>= _).map _
      cases L.safeLoad r.1 with
      | error e => rfl
      | ok fm => cases fm <;> rfl
  · rfl

def written (dumped body : Text) : Text :=
  "---\n".toList ++ dumped ++ "---\n".toList ++ body

-- ------ The first dashes

theorem cutDashes_cons_pos {c : Char} {s : Text} (h : "---".toList <+: c :: s) :
    cutDashes (c :: s) = some ([], s.drop 2) := by
  rw [cutDashes, if_pos (by simpa using h)]

theorem cutDashes_cons_neg {c : Char} {s : Text} (h : ¬ "---".toList <+: c :: s) :
    cutDashes (c :: s) = (cutDashes s).map fun r => (c :: r.1, r.2) := by
  rw [cutDashes, if_neg (by simpa using h)]

theorem cutDashes_append {block : Text} (rest : Text)
    (h : ¬ "---".toList <:+: block ++ "--".toList) :
    cutDashes (block ++ "---".toList ++ rest) = some (block, rest) := by
  induction block with
  | nil => exact cutDashes_cons_pos ⟨rest, rfl⟩
  | cons c block ih =>
    have hHere : ¬ "---".toList <+: c :: (block ++ "---".toList ++ rest) := by
      intro hPrefix
      have hEarly : c :: block ++ "--".toList <+: c :: (block ++ "---".toList ++ rest) :=
        ⟨'-' :: rest, by simp⟩
      have hLength : "---".toList.length ≤ (c :: block ++ "--".toList).length := by simp
      exact h (List.prefix_of_prefix_length_le hPrefix hEarly hLength).isInfix
    have hRest := ih fun hInfix => h (List.infix_cons hInfix)
    show cutDashes (c :: (block ++ "---".toList ++ rest)) = _
    rw [cutDashes_cons_neg hHere, hRest]
    rfl

theorem exists_cutDashes (before after : Text) :
    ∃ block rest, cutDashes (before ++ "---".toList ++ after) = some (block, rest) ∧
      block.length ≤ before.length := by
  induction before with
  | nil => exact ⟨[], after, cutDashes_cons_pos ⟨after, rfl⟩, le_rfl⟩
  | cons c before ih =>
    obtain ⟨block, rest, hCut, hLength⟩ := ih
    by_cases hHere : "---".toList <+: c :: (before ++ "---".toList ++ after)
    · exact ⟨[], _, cutDashes_cons_pos hHere, Nat.zero_le _⟩
    · refine ⟨c :: block, rest, ?_, Nat.succ_le_succ hLength⟩
      show cutDashes (c :: (before ++ "---".toList ++ after)) = _
      rw [cutDashes_cons_neg hHere, hCut]
      rfl

theorem eq_of_cutDashes {s block rest : Text} (h : cutDashes s = some (block, rest)) :
    s = block ++ "---".toList ++ rest := by
  induction s generalizing block with
  | nil => cases h
  | cons c s ih =>
    by_cases hHere : "---".toList <+: c :: s
    · rw [cutDashes_cons_pos hHere] at h
      cases h
      obtain ⟨rest, hRest⟩ := hHere
      rw [← hRest]
      cases hRest
      rfl
    · rw [cutDashes_cons_neg hHere] at h
      obtain ⟨⟨block', rest'⟩, hCut, hEq⟩ := Option.map_eq_some_iff.mp h
      cases hEq
      rw [ih hCut]
      rfl

theorem cutDashes_eq_none {s : Text} : cutDashes s = none ↔ ¬ "---".toList <:+: s := by
  constructor
  · rintro hNone ⟨before, after, rfl⟩
    obtain ⟨block, rest, hCut, -⟩ := exists_cutDashes before after
    rw [hNone] at hCut
    cases hCut
  · intro h
    cases hCut : cutDashes s with
    | none => rfl
    | some r => exact absurd ⟨r.1, r.2, (eq_of_cutDashes hCut).symm⟩ h

-- ------ Splitting

variable {L : Libraries}

theorem splitOfficial_of_cut {s block rest : Text} (h : cutDashes s = some (block, rest)) :
    splitOfficial L ("---".toList ++ s) = L.safeLoad block >>= fun fm =>
      match fm with
      | .dict ms => .ok (ms, rest.dropWhile (· = '\n'), true)
      | _ => .ok ([], rest.dropWhile (· = '\n'), true) := by
  have hDrop : ("---".toList ++ s).drop 3 = s := rfl
  unfold splitOfficial
  rw [if_pos (by simp), hDrop, h]

theorem body_of_cut {s block rest : Text} (h : cutDashes s = some (block, rest)) {fm : Mapping}
    {body : Text} {has : Bool}
    (hSplit : splitOfficial L ("---".toList ++ s) = .ok (fm, body, has)) :
    body = rest.dropWhile (· = '\n') := by
  rw [splitOfficial_of_cut h] at hSplit
  obtain ⟨v, -, hValue⟩ := Except.bind_eq_ok.mp hSplit
  cases v <;> cases hValue <;> rfl

theorem lt_length_dropWhile (z t : Text) :
    t.length < ((z ++ '-' :: t).dropWhile (· = '\n')).length := by
  induction z with
  | nil => simp
  | cons c z ih =>
    rw [List.cons_append, List.dropWhile_cons]
    split
    · exact ih
    · simp
      omega

/-- A document whose frontmatter has dashes is split too early. -/
theorem split_early {dumped body : Text} (h : "---".toList <:+: dumped ++ "--".toList)
    {fm : Mapping} {has : Bool} :
    splitOfficial L (written dumped body) ≠ .ok (fm, body, has) := by
  intro hSplit
  obtain ⟨before, after, hDashes⟩ := h
  have hText : '\n' :: dumped ++ "---\n".toList ++ body =
      '\n' :: before ++ "---".toList ++ (after ++ "-\n".toList ++ body) := by
    have hMore := congrArg (· ++ ("-\n".toList ++ body)) hDashes
    simpa using hMore.symm
  obtain ⟨block, rest, hCut, hLength⟩ :=
    exists_cutDashes ('\n' :: before) (after ++ "-\n".toList ++ body)
  rw [← hText] at hCut
  have hWhole := eq_of_cutDashes hCut
  have hShort : before.length < dumped.length := by
    have hLengths := congrArg List.length hDashes
    simp at hLengths
    omega
  have hRest : '-' :: '\n' :: body <:+ rest := by
    have hTail : '-' :: '\n' :: body <:+ '\n' :: dumped ++ "---\n".toList ++ body :=
      ⟨'\n' :: dumped ++ "--".toList, by simp⟩
    refine List.suffix_of_suffix_length_le hTail ⟨block ++ "---".toList, hWhole.symm⟩ ?_
    have hLengths := congrArg List.length hWhole
    simp at hLengths hLength ⊢
    omega
  obtain ⟨z, rfl⟩ := hRest
  have hBody := body_of_cut hCut (show splitOfficial L ("---".toList ++ _) = _ from hSplit)
  have hLonger := lt_length_dropWhile z ('\n' :: body)
  rw [← hBody, List.length_cons] at hLonger
  omega

/-- **When a document is split as it was written**, and when a text is left alone. -/
theorem splitOfficial_iff (L : Libraries) (dump : Mapping → Text) :
    (∀ fm body, L.safeLoad ('\n' :: dump fm) = .ok (.dict fm) → body.head? ≠ some '\n' →
      (splitOfficial L (written (dump fm) body) = .ok (fm, body, true) ↔
        ¬ "---".toList <:+: dump fm ++ "--".toList)) ∧
      ∀ raw, (∃ fm has, splitOfficial L raw = .ok (fm, raw, has)) ↔
        ¬ ("---".toList <+: raw ∧ "---".toList <:+: raw.drop 3) := by
  refine ⟨fun fm body hLoad hBody =>
    ⟨fun hSplit hDashes => split_early hDashes hSplit, fun h => ?_⟩, fun raw => ?_⟩
  · have hNone : ¬ "---".toList <:+: '\n' :: dump fm ++ "--".toList := by
      intro hInfix
      rcases List.infix_cons_iff.mp hInfix with hPrefix | hInfix
      · cases (List.cons_prefix_cons.mp hPrefix).1
      · exact h hInfix
    have hCut := cutDashes_append ('\n' :: body) hNone
    have hText : written (dump fm) body =
        "---".toList ++ ('\n' :: dump fm ++ "---".toList ++ '\n' :: body) := by
      simp [written]
    rw [hText, splitOfficial_of_cut hCut, hLoad]
    show Except.ok (fm, ('\n' :: body).dropWhile (· = '\n'), true) = _
    have hKeep : body.dropWhile (· = '\n') = body := by
      cases body with
      | nil => rfl
      | cons c body =>
        rw [List.dropWhile_cons_of_neg]
        simpa using hBody
    rw [List.dropWhile_cons_of_pos (by simp), hKeep]
  · by_cases hOpens : "---".toList <+: raw
    · obtain ⟨s, rfl⟩ := hOpens
      have hDrop : ("---".toList ++ s).drop 3 = s := rfl
      rw [hDrop, and_iff_right ⟨s, rfl⟩, ← cutDashes_eq_none]
      constructor
      · rintro ⟨fm, has, hSplit⟩
        cases hCut : cutDashes s with
        | none => rfl
        | some r =>
          have hBody := congrArg List.length (body_of_cut hCut hSplit)
          have hWhole := congrArg List.length (eq_of_cutDashes hCut)
          have hShort := (List.dropWhile_sublist (· = '\n') (l := r.2)).length_le
          simp at hBody hWhole
          omega
      · intro hNone
        exact ⟨[], false, by rw [splitOfficial, if_pos (by simp), hDrop, hNone]⟩
    · refine iff_of_true ⟨[], false, ?_⟩ fun h => hOpens h.1
      rw [splitOfficial, if_neg (by simpa using hOpens)]

/-- What the loader reads of the two documents below. -/
def titleLibraries : Libraries :=
  { sampleLibraries with
    safeLoad := fun block => .ok (
      if block = "\ntitle: a---b\n".toList then .dict [(.str "title".toList, .str "a---b".toList)]
      else if block = "\ntitle: a\n".toList ∨ block = "\ntitle: a".toList then
        .dict [(.str "title".toList, .str ['a'])]
      else .null) }

theorem splitOfficial_iff_plain :
    splitOfficial titleLibraries (written "title: a\n".toList "text".toList) =
        .ok ([(.str "title".toList, .str ['a'])], "text".toList, true) ↔
      ¬ "---".toList <:+: "title: a\n".toList ++ "--".toList :=
  (splitOfficial_iff titleLibraries fun _ => "title: a\n".toList).1
    [(.str "title".toList, .str ['a'])] "text".toList (by rfl) (by decide)

/-- The value has dashes. -/
theorem split_within_value :
    ¬ ∀ (L : Libraries) (dump : Mapping → Text) fm body,
      L.safeLoad ('\n' :: dump fm) = .ok (.dict fm) → body.head? ≠ some '\n' →
        splitOfficial L (written (dump fm) body) = .ok (fm, body, true) := by
  intro h
  have hSplit := h titleLibraries (fun _ => "title: a---b\n".toList)
    [(.str "title".toList, .str "a---b".toList)] [] (by rfl) (by decide)
  have hBody := congrArg (fun r => r.toOption.map fun r => r.2.1.length) hSplit
  revert hBody
  decide +kernel

end Neuroswarm.Okf
