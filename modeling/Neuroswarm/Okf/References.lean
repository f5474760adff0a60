import Neuroswarm.Okf.Graph

/-!
# Knowledge compiler — references by name

A document is named by its id, by its path with or without `.md`, and by the aliases it
declares. `validate_bundle` compares ids with ids and aliases with aliases.

* `conceptId_eq_of_removeMd_eq` — what a path without `.md` says about the concept id.
* `consistent_iff_separate` — in an accepted bundle two documents can share a name in two ways.
* `resolves_iff` — references by name end at the right documents exactly where none do.
-/

namespace Neuroswarm.Okf

open Armcascade (Text)

variable {L : Libraries}

-- ------ Names

def Declares (L : Libraries) (d : DocumentNode) (a : Text) : Prop :=
  ∃ aliases, d.declared L = .ok aliases ∧ a ∈ aliases

def Names (L : Libraries) (d : DocumentNode) (n : Text) : Prop :=
  n = d.id ∨ Declares L d n ∨ n = d.relPath ∨ n = removeMd d.relPath

/-- References by a name of a document end at it: in the alias map, and in the edges of links
and of ontology relations. -/
structure Resolves (L : Libraries) (docs : List DocumentNode) (aliases : Dict Text Text) :
    Prop where
  names : ∀ d ∈ docs, ∀ n, Names L d n → aliases.get? n = some d.id
  links : ∀ d ∈ docs, ∀ doc ∈ docs, ∀ link ∈ doc.links, Names L d link.target →
    ∀ e, seeAlso aliases (byRel docs) doc link = some e → e.dst = d.id
  relations : ∀ d ∈ docs, ∀ doc ∈ docs, ∀ rels, relations doc = .ok rels → ∀ rel ∈ rels,
    ∀ obj, rel.attr "obj" = .ok obj → Names L d (L.str obj) →
    ∀ e, relationEdge L aliases doc rel = .ok (some e) → e.dst = d.id

/-- No alias is the id or the path, with or without `.md`, of another document, and no path is
the id of another document or its path without `.md`. -/
def Separate (L : Libraries) (docs : List DocumentNode) : Prop :=
  ∀ d ∈ docs, ∀ d' ∈ docs, d.id ≠ d'.id →
    (∀ a, Declares L d a → a ≠ d'.id ∧ a ≠ d'.relPath ∧ a ≠ removeMd d'.relPath) ∧
    d.relPath ≠ d'.id ∧ d.relPath ≠ removeMd d'.relPath

theorem mem_entriesOf {d : DocumentNode} {declared : List Text}
    (h : d.declared L = .ok declared) {e : Text × Text} :
    e ∈ entriesOf (d, declared) ↔ Names L d e.1 ∧ e.2 = d.id := by
  have hDeclares : ∀ a, Declares L d a ↔ a ∈ declared := by
    intro a
    constructor
    · rintro ⟨aliases, hAliases, ha⟩
      cases h.symm.trans hAliases
      exact ha
    · exact fun ha => ⟨declared, h, ha⟩
  obtain ⟨n, owner⟩ := e
  simp only [entriesOf, Names, hDeclares, List.cons_append, List.mem_cons, List.mem_append,
    List.mem_map, Prod.mk.injEq, List.not_mem_nil, or_false]
  constructor
  · rintro (⟨hn, ho⟩ | ⟨a, ha, hn, ho⟩ | ⟨hn, ho⟩ | ⟨hn, ho⟩)
    · exact ⟨.inl hn, ho⟩
    · exact ⟨.inr (.inl (hn ▸ ha)), ho.symm⟩
    · exact ⟨.inr (.inr (.inl hn)), ho⟩
    · exact ⟨.inr (.inr (.inr hn)), ho⟩
  · rintro ⟨hn | ha | hn | hn, ho⟩
    · exact .inl ⟨hn, ho⟩
    · exact .inr (.inl ⟨n, ha, rfl, ho.symm⟩)
    · exact .inr (.inr (.inl ⟨hn, ho⟩))
    · exact .inr (.inr (.inr ⟨hn, ho⟩))

variable {docs : List DocumentNode}

theorem mem_entries {ds : List (List Text)} (h : docs.mapM (DocumentNode.declared L) = .ok ds)
    {e : Text × Text} :
    e ∈ (docs.zip ds).flatMap entriesOf ↔ ∃ d ∈ docs, Names L d e.1 ∧ e.2 = d.id := by
  induction docs generalizing ds with
  | nil => simp
  | cons d docs ih =>
    obtain ⟨declared, rest, hDeclared, hRest, rfl⟩ := Except.mapM_cons_ok.mp h
    rw [List.zip_cons_cons, List.flatMap_cons, List.mem_append, ih hRest,
      mem_entriesOf hDeclared]
    simp only [List.mem_cons, or_and_right, exists_or, exists_eq_left]

-- ------ Paths and ids

theorem slashes_eq_iff {t : Text} (hBack : '\\' ∉ t) (hSlash : '/' ∉ t) (s : Text) :
    slashes s = t ↔ s = t := by
  unfold slashes
  induction s generalizing t with
  | nil => exact Iff.rfl
  | cons c s ih =>
    cases t with
    | nil => simp
    | cons c' t =>
      rw [List.mem_cons, not_or] at hBack hSlash
      rw [List.map_cons, List.cons.injEq, List.cons.injEq, ih hBack.2 hSlash.2]
      refine and_congr_left fun _ => ?_
      split
      · next hc =>
        subst hc
        exact iff_of_false hSlash.1 hBack.1
      · rfl

theorem isSuffixOf_md_slashes (s : Text) :
    ".md".toList.isSuffixOf (slashes s) = ".md".toList.isSuffixOf s := by
  have hMd : ∀ l : Text, ".md".toList <:+ l ↔ l.drop (l.length - 3) = ".md".toList := by
    intro l
    rw [List.suffix_iff_eq_drop]
    exact eq_comm
  have hDrop : (slashes s).drop ((slashes s).length - 3) = slashes (s.drop (s.length - 3)) := by
    simp [slashes]
  rw [Bool.eq_iff_iff, List.isSuffixOf_iff_suffix, List.isSuffixOf_iff_suffix, hMd, hMd, hDrop,
    slashes_eq_iff (by decide) (by decide)]

theorem conceptId_eq (s : Text) : conceptId s = slashes (removeMd s) := by
  unfold conceptId removeMd
  rw [isSuffixOf_md_slashes]
  split
  · simp [slashes]
  · rfl

theorem slashes_slashes (s : Text) : slashes (slashes s) = slashes s := by
  unfold slashes
  rw [List.map_map]
  refine List.map_congr_left fun c _ => ?_
  by_cases h : c = '\\'
  · simp [h]
  · simp [h]

theorem conceptId_eq_of_removeMd {s s' : Text} (h : removeMd s = removeMd s') :
    conceptId s = conceptId s' := by
  rw [conceptId_eq, conceptId_eq, h]

theorem conceptId_eq_of_removeMd_eq {s s' : Text} (h : removeMd s = conceptId s') :
    conceptId s = conceptId s' := by
  rw [conceptId_eq, h, conceptId_eq, slashes_slashes]

-- ------ Names that two documents share

theorem consistent_entries_iff {ds : List (List Text)}
    (h : docs.mapM (DocumentNode.declared L) = .ok ds) :
    Dict.Consistent ((docs.zip ds).flatMap entriesOf) ↔
      ∀ d ∈ docs, ∀ d' ∈ docs, ∀ n, Names L d n → Names L d' n → d.id = d'.id := by
  constructor
  · intro hConsistent d hd d' hd' n hn hn'
    exact hConsistent (n, d.id) ((mem_entries h).mpr ⟨d, hd, hn, rfl⟩)
      (n, d'.id) ((mem_entries h).mpr ⟨d', hd', hn', rfl⟩) rfl
  · intro hOne e he e' he' hKey
    obtain ⟨d, hd, hn, hOwner⟩ := (mem_entries h).mp he
    obtain ⟨d', hd', hn', hOwner'⟩ := (mem_entries h).mp he'
    rw [hOwner, hOwner']
    exact hOne d hd d' hd' e.1 hn (hKey ▸ hn')

theorem id_eq_of_declares {names : List (List Text)} (hNames : docs.mapM (candidates L) = .ok names)
    (hClaims : Dict.Consistent ((docs.zip names).flatMap claimsOf)) {d d' : DocumentNode}
    (hd : d ∈ docs) (hd' : d' ∈ docs) {a : Text} (h : Declares L d a) (h' : Declares L d' a) :
    d.id = d'.id := by
  have hMem : ∀ d ∈ docs, Declares L d a → (a, d.id) ∈ (docs.zip names).flatMap claimsOf := by
    clear hClaims hd hd' h h'
    intro d hd
    rintro ⟨declared, hDeclared, ha⟩
    induction docs generalizing names with
    | nil => exact absurd hd List.not_mem_nil
    | cons d₀ docs ih =>
      obtain ⟨claimed, rest, hClaimed, hRest, rfl⟩ := Except.mapM_cons_ok.mp hNames
      rw [List.zip_cons_cons, List.flatMap_cons, List.mem_append]
      rcases List.mem_cons.mp hd with rfl | hd
      · unfold candidates at hClaimed
        rw [hDeclared] at hClaimed
        cases hClaimed
        exact .inl (List.mem_map.mpr ⟨a, List.mem_append_right _ ha, rfl⟩)
      · exact .inr (ih hRest hd)
  exact hClaims _ (hMem d hd h) _ (hMem d' hd' h') rfl

theorem consistent_iff_separate (hDocs : ∀ d ∈ docs, Compiled L d) {names : List (List Text)}
    (hNames : docs.mapM (candidates L) = .ok names)
    (hClaims : Dict.Consistent ((docs.zip names).flatMap claimsOf)) :
    (∀ d ∈ docs, ∀ d' ∈ docs, ∀ n, Names L d n → Names L d' n → d.id = d'.id) ↔
      Separate L docs := by
  constructor
  · intro hOne d hd d' hd' hIds
    have hApart : ∀ n, Names L d n → ¬ Names L d' n := fun n hn hn' =>
      hIds (hOne d hd d' hd' n hn hn')
    refine ⟨fun a ha => ⟨?_, ?_, ?_⟩, ?_, ?_⟩
    · exact fun h => hApart a (.inr (.inl ha)) (.inl h)
    · exact fun h => hApart a (.inr (.inl ha)) (.inr (.inr (.inl h)))
    · exact fun h => hApart a (.inr (.inl ha)) (.inr (.inr (.inr h)))
    · exact fun h => hApart _ (.inr (.inr (.inl rfl))) (.inl h)
    · exact fun h => hApart _ (.inr (.inr (.inl rfl))) (.inr (.inr (.inr h)))
  · intro hSeparate d hd d' hd' n hn hn'
    have hId := (hDocs d hd).id_eq
    have hId' := (hDocs d' hd').id_eq
    by_contra hIds
    obtain ⟨hAlias, hPathId, hPathMd⟩ := hSeparate d hd d' hd' hIds
    obtain ⟨hAlias', hPathId', hPathMd'⟩ := hSeparate d' hd' d hd (Ne.symm hIds)
    rcases hn with rfl | ha | rfl | rfl
    · rcases hn' with h | ha' | h | h
      · exact hIds h
      · exact (hAlias' _ ha').1 rfl
      · exact hPathId' h.symm
      · exact hIds (by
          rw [hId, hId', conceptId_eq_of_removeMd_eq (h.symm.trans hId)])
    · rcases hn' with h | ha' | h | h
      · exact (hAlias n ha).1 h
      · exact hIds (id_eq_of_declares hNames hClaims hd hd' ha ha')
      · exact (hAlias n ha).2.1 h
      · exact (hAlias n ha).2.2 h
    · rcases hn' with h | ha' | h | h
      · exact hPathId h
      · exact (hAlias' _ ha').2.1 rfl
      · exact hIds (by rw [hId, hId', h])
      · exact hPathMd h
    · rcases hn' with h | ha' | h | h
      · exact hIds (by
          rw [hId, hId', conceptId_eq_of_removeMd_eq (h.trans hId')])
      · exact (hAlias' _ ha').2.2 rfl
      · exact hPathMd' h.symm
      · exact hIds (by rw [hId, hId', conceptId_eq_of_removeMd h])

-- ------ References

theorem resolves_of_names {aliases : Dict Text Text}
    (h : ∀ d ∈ docs, ∀ n, Names L d n → aliases.get? n = some d.id) :
    Resolves L docs aliases where
  names := h
  links := by
    intro d hd doc _ link _ hTarget e hEdge
    unfold seeAlso resolveTarget at hEdge
    rw [h d hd _ hTarget] at hEdge
    dsimp only at hEdge
    split at hEdge
    · cases hEdge
    · cases hEdge
      rfl
  relations := by
    intro d hd doc _ rels _ rel _ obj hObj hTarget e hEdge
    unfold relationEdge at hEdge
    obtain ⟨obj', hObj', hEdge⟩ := Except.bind_eq_ok.mp hEdge
    cases hObj.symm.trans hObj'
    by_cases hTruthy : obj.truthy = true
    · simp only [hTruthy, if_true] at hEdge
      cases hEdge
      show (aliases.get? (L.str obj)).getD (L.str obj) = d.id
      rw [h d hd _ hTarget]
      rfl
    · simp [hTruthy] at hEdge

/-- In an accepted bundle references by name end at the right documents exactly when no alias is
another document's id or path, and no path another document's id or path without `.md`. -/
theorem resolves_iff {docs : List DocumentNode} (hDocs : ∀ d ∈ docs, Compiled L d)
    {aliases : Dict Text Text} (hAliases : buildAliasMap L docs = .ok aliases) {graph : Graph}
    {diag diag' : Diagnostics} (hValid : validateBundle L docs graph aliases diag = .ok diag')
    (hOk : diag'.ok = true) : Resolves L docs aliases ↔ Separate L docs := by
  obtain ⟨ds, hDs, hReplay⟩ := buildAliasMap_eq_ok.mp hAliases
  obtain ⟨-, names, hNames, hClaims⟩ := validateBundle_ok hValid hOk
  rw [← consistent_iff_separate hDocs hNames hClaims, ← consistent_entries_iff hDs,
    ← Dict.replay_faithful_iff, hReplay]
  constructor
  · intro hResolves e he
    obtain ⟨d, hd, hn, hOwner⟩ := (mem_entries hDs).mp he
    rw [hOwner]
    exact hResolves.names d hd e.1 hn
  · intro hFound
    refine resolves_of_names fun d hd n hn => ?_
    exact hFound (n, d.id) ((mem_entries hDs).mpr ⟨d, hd, hn, rfl⟩)

/-- Libraries as far as the files below need them. -/
def sampleLibraries : Libraries where
  readText data := .ok (data.map fun b => Char.ofNat b.toNat)
  safeLoad block := .ok (
    if block = "\ntype: concept\n".toList then
      .dict [(.str "type".toList, .str "concept".toList)]
    else if block = "\ntype: concept\naliases: [a]\n".toList then
      .dict [(.str "type".toList, .str "concept".toList),
        (.str "aliases".toList, .list [.str ['a']])]
    else .null)
  str v := match v with
    | .str s => s
    | v => v.typeName.toList
  str_str _ := rfl
  int v := match v with
    | .int n => .ok n
    | v => .error (.other v.typeName.toList)
  title s := s.map Char.toUpper
  contentHash s := s

def sampleDocuments (files : List (String × String)) : List DocumentNode :=
  files.filterMap fun f => (compileFile sampleLibraries f.1.toList
    (f.2.toList.map fun c => UInt8.ofNat c.toNat)).toOption

theorem compiled_sampleDocuments {files : List (String × String)} :
    ∀ d ∈ sampleDocuments files, Compiled sampleLibraries d := by
  intro d hd
  obtain ⟨f, -, hFile⟩ := List.mem_filterMap.mp hd
  exact ⟨f.1.toList, _, Except.toOption_eq_some.mp hFile⟩

/-- The second document declares the id of the first one as an alias. -/
def borrowedId : List DocumentNode :=
  sampleDocuments [("a.md", "---\ntype: concept\n---\n"),
    ("b.md", "---\ntype: concept\naliases: [a]\n---\n")]

theorem exists_accepted (docs : List DocumentNode)
    (h : ((do
      let aliases ← buildAliasMap sampleLibraries docs
      let graph ← buildGraph sampleLibraries docs aliases
      validateBundle sampleLibraries docs graph aliases []).toOption.map Diagnostics.ok) =
        some true) :
    ∃ aliases graph diag, buildAliasMap sampleLibraries docs = .ok aliases ∧
      buildGraph sampleLibraries docs aliases = .ok graph ∧
      validateBundle sampleLibraries docs graph aliases [] = .ok diag ∧ diag.ok = true := by
  obtain ⟨diag, hDiag, hOk⟩ := Option.map_eq_some_iff.mp h
  obtain ⟨aliases, hAliases, hRest⟩ := Except.bind_eq_ok.mp (Except.toOption_eq_some.mp hDiag)
  obtain ⟨graph, hGraph, hValid⟩ := Except.bind_eq_ok.mp hRest
  exact ⟨aliases, graph, diag, hAliases, hGraph, hValid, hOk⟩

theorem resolves_iff_borrowedId :
    ∃ aliases, buildAliasMap sampleLibraries borrowedId = .ok aliases ∧
      (Resolves sampleLibraries borrowedId aliases ↔ Separate sampleLibraries borrowedId) := by
  obtain ⟨aliases, graph, diag, hAliases, -, hValid, hOk⟩ :=
    exists_accepted borrowedId (by decide +kernel)
  exact ⟨aliases, hAliases, resolves_iff compiled_sampleDocuments hAliases hValid hOk⟩

/-- The bundle is accepted, and the id of the first document leads to the second. -/
theorem borrowedId_misled :
    ∃ aliases graph diag, buildAliasMap sampleLibraries borrowedId = .ok aliases ∧
      buildGraph sampleLibraries borrowedId aliases = .ok graph ∧
      validateBundle sampleLibraries borrowedId graph aliases [] = .ok diag ∧ diag.ok = true ∧
      (∀ d ∈ borrowedId, Compiled sampleLibraries d) ∧
      ¬ Resolves sampleLibraries borrowedId aliases := by
  obtain ⟨aliases, graph, diag, hAliases, hGraph, hValid, hOk⟩ :=
    exists_accepted borrowedId (by decide +kernel)
  refine ⟨aliases, graph, diag, hAliases, hGraph, hValid, hOk, compiled_sampleDocuments,
    fun hResolves => ?_⟩
  have hLed : ((buildAliasMap sampleLibraries borrowedId).toOption.bind (·.get? ['a'])) =
      some ['b'] := by decide +kernel
  have hFirst : borrowedId.head?.map DocumentNode.id = some ['a'] := by decide +kernel
  obtain ⟨d, hd, hId⟩ := Option.map_eq_some_iff.mp hFirst
  have hRight := hResolves.names d (List.mem_of_mem_head? hd) ['a'] (.inl hId.symm)
  rw [hAliases] at hLed
  rw [hId] at hRight
  exact absurd (hLed.symm.trans hRight) (by decide)

end Neuroswarm.Okf
