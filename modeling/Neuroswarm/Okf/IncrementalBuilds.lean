import Neuroswarm.Lib.Run
import Neuroswarm.Okf.KeyOrder
import Neuroswarm.Okf.References

/-!
# Knowledge compiler — incremental builds

A cached document is taken when the index has the digest of the file and there is a document
under the file's flattened name. The two are written apart: the index for every file that is
parsed, and only where a run comes to its end, the document by incremental runs as soon as it is
parsed, under a name that two paths can share, and as JSON.

* `Stored` — every document in the cache was made of some file and survived as JSON has it.
* `Trusted` — what is taken is the document of the file, and what is not can be stored.
* `incremental_as_clean` — runs whose steps are trusted give what clean builds give.
-/

namespace Neuroswarm.Okf

open Armcascade (Text)
open Run (Every)

variable (L : Libraries) (P : Platform)

-- ------ What the cache holds

/-- The documents in the cache are documents of files, read back. -/
def Stored (c : BuildCache) : Prop :=
  ∀ name cached, c.docs.get? name = some cached →
    ∃ rel data doc, compileFile L rel data = .ok doc ∧ revive P doc = .ok cached

variable {L P}

theorem stored_empty : Stored L P {} := fun _ _ h => nomatch h

variable {c : BuildCache} {doc : DocumentNode}

variable {rel : Text} {data : List UInt8}

theorem Stored.storeDoc (h : Stored L P c) (hDoc : compileFile L rel data = .ok doc) (digest : Text)
    :
    Stored L P (c.storeDoc P rel doc digest).1 := by
  unfold BuildCache.storeDoc
  cases hWritten : BuildCache.written P rel doc with
  | error e => exact h
  | ok stored =>
    intro name cached hGet
    rw [Dict.get?_set] at hGet
    split at hGet
    · cases hGet
      obtain ⟨revived, hRevived, hName⟩ := Except.bind_eq_ok.mp hWritten
      refine ⟨rel, data, doc, hDoc, ?_⟩
      split at hName
      · cases hName
      · cases hName
        exact hRevived
    · exact h name cached hGet

theorem Stored.parseStep {s : Loop} (h : Stored L P s.cache) (incremental : Bool) (rel : Text)
    (data : List UInt8) : Stored L P (parseStep L P incremental s rel data).cache := by
  unfold Okf.parseStep
  cases hDoc : compileFile L rel data with
  | error e => exact h
  | ok doc =>
    cases incremental with
    | false => exact h
    | true =>
      have hStore := h.storeDoc hDoc (cacheKey P rel data)
      simp only [if_true]
      split
      · rename_i heq
        rwa [heq] at hStore
      · rename_i heq
        rwa [heq] at hStore

theorem Stored.compileStep {s : Loop} (h : Stored L P s.cache) (incremental : Bool)
    (file : Text × List UInt8) : Stored L P (compileStep L P incremental s file).cache := by
  unfold Okf.compileStep
  split
  · split
    · exact h
    · exact h
    · exact h.parseStep true file.1 file.2
  · exact h.parseStep false file.1 file.2

theorem Stored.compileBundle (h : Stored L P c) (run : CompileRun) :
    Stored L P (compileBundle L P c run).2 := by
  have hLoop : Stored L P
      (run.tree.entries.foldl (Okf.compileStep L P run.incremental) { cache := c }).cache :=
    Run.exec_of_invariant (I := fun s : Loop => Stored L P s.cache)
      (fun s file hs => hs.compileStep run.incremental file) h run.tree.entries
  simp only [Okf.compileBundle]
  split
  · exact h
  · split
    · exact hLoop
    · split
      · exact hLoop
      · exact hLoop

-- ------ Taking a document

theorem compileFile_congr {data' : List UInt8} (h : L.readText data = L.readText data') :
    compileFile L rel data = compileFile L rel data' := by
  unfold compileFile parseFile
  rw [h]

theorem compileFile_eq_ok (h : compileFile L rel data = .ok doc) :
    doc.relPath = rel ∧ L.readText data = .ok doc.raw := by
  obtain ⟨parsed, hParsed, rfl⟩ := Except.map_eq_ok.mp h
  unfold parseFile at hParsed
  obtain ⟨raw, hRaw, hParsed⟩ := Except.bind_eq_ok.mp hParsed
  obtain ⟨⟨fm, body⟩, -, hParsed⟩ := Except.bind_eq_ok.mp hParsed
  obtain ⟨fm', -, hParsed⟩ := Except.bind_eq_ok.mp hParsed
  cases hParsed
  exact ⟨rfl, hRaw⟩

theorem revive_eq_ok {revived : DocumentNode} (h : revive P doc = .ok revived) :
    revived.relPath = doc.relPath ∧ revived.raw = doc.raw := by
  obtain ⟨fm, -, hFm⟩ := Except.bind_eq_ok.mp h
  split at hFm
  · cases hFm
    exact ⟨rfl, rfl⟩
  · cases hFm
    exact ⟨rfl, rfl⟩

theorem revive_of_survives (h : Survives L doc) :
    revive P doc = .ok doc.arranged := by
  unfold revive
  rw [reload_jsonable P.mixed h.plain]
  rfl

variable (L P)

inductive Trusted (s : Loop) (file : Text × List UInt8) : Prop
  | taken {cached : DocumentNode}
    (hFind : s.cache.find P file.1 (cacheKey P file.1 file.2) = .ok (some cached))
    (hPath : cached.relPath = file.1) (hText : L.readText file.2 = .ok cached.raw)
    (hSurvives : ∀ doc, compileFile L file.1 file.2 = .ok doc → Survives L doc)
  | parsed (hFind : s.cache.find P file.1 (cacheKey P file.1 file.2) = .ok none)
    (hStored : ∀ doc, compileFile L file.1 file.2 = .ok doc →
      (BuildCache.written P file.1 doc).isOk = true)

/-- Alike documents, and the same diagnostics. -/
structure LoopAlike (s t : Loop) : Prop where
  docs : List.Forall₂ (Alike L) s.docs t.docs
  diag : s.diag = t.diag

variable {L P}

theorem BuildCache.find_eq_ok {digest : Text} {cached : DocumentNode}
    (h : c.find P rel digest = .ok (some cached)) : c.docs.get? (docPath rel) = some cached := by
  unfold find at h
  split at h
  · split at h
    · cases h
    · exact Except.ok.inj h
  · cases h

theorem alike_of_trusted (h : Stored L P c) {digest : Text} {cached : DocumentNode}
    (hFind : c.find P rel digest = .ok (some cached)) (hRel : cached.relPath = rel)
    (hRaw : L.readText data = .ok cached.raw)
    (hSurvives : ∀ doc, compileFile L rel data = .ok doc → Survives L doc) :
    ∃ doc, compileFile L rel data = .ok doc ∧ Alike L cached doc := by
  obtain ⟨rel', data', doc, hDoc, hRevived⟩ := h _ cached (BuildCache.find_eq_ok hFind)
  obtain ⟨hRel', hRaw'⟩ := compileFile_eq_ok hDoc
  obtain ⟨hSameRel, hSameRaw⟩ := revive_eq_ok hRevived
  -- it was made of the same path and text
  have hPath : rel' = rel := by rw [← hRel', ← hSameRel, hRel]
  have hText : L.readText data' = L.readText data := by rw [hRaw', hRaw, hSameRaw]
  rw [compileFile_congr hText, hPath] at hDoc
  refine ⟨doc, hDoc, .inr ⟨?_, hSurvives doc hDoc⟩⟩
  exact Except.ok.inj (hRevived.symm.trans (revive_of_survives (hSurvives doc hDoc)))

theorem LoopAlike.step {s t : Loop} (h : LoopAlike L s t) (hStored : Stored L P s.cache)
    {file : Text × List UInt8} (hTrusted : Trusted L P s file) :
    LoopAlike L (compileStep L P true s file) (compileStep L P false t file) := by
  simp only [compileStep, if_true, Bool.false_eq_true, if_false]
  cases hTrusted with
  | taken hFind hPath hText hSurvives =>
    rw [hFind]
    obtain ⟨doc, hDoc, hAlike⟩ := alike_of_trusted hStored hFind hPath hText hSurvives
    unfold parseStep
    rw [hDoc]
    exact
      { docs := List.rel_append h.docs (.cons hAlike .nil)
        diag := h.diag }
  | parsed hFind hWritten =>
    rw [hFind]
    unfold parseStep
    cases hDoc : compileFile L file.1 file.2 with
    | error e =>
      exact
        { docs := h.docs
          diag := congrArg (fun diag : Diagnostics => diag.error "PARSE" e.text (some file.1))
            h.diag }
    | ok doc =>
      obtain ⟨stored, hStore⟩ := Except.isOk_iff.mp (hWritten doc hDoc)
      simp only [BuildCache.storeDoc, hStore, if_true]
      exact
        { docs := List.rel_append h.docs (.cons (.inl rfl) .nil)
          diag := h.diag }

theorem LoopAlike.loop {s t : Loop} (h : LoopAlike L s t) (hStored : Stored L P s.cache)
    {files : List (Text × List UInt8)}
    (hTrusted : Every (compileStep L P true) (Trusted L P) s files) :
    LoopAlike L (files.foldl (compileStep L P true) s)
      (files.foldl (compileStep L P false) t) := by
  induction files generalizing s t with
  | nil => exact h
  | cons file files ih =>
    exact ih (h.step hStored hTrusted.1) (hStored.compileStep true file) hTrusted.2

-- ------ Runs

/-- The same result, up to the order of keys in frontmatters. -/
inductive OutcomeAlike : Outcome → Outcome → Prop
  | rejected (diag : Diagnostics) : OutcomeAlike (.rejected diag) (.rejected diag)
  | raised (e : Raised) : OutcomeAlike (.raised e) (.raised e)
  | built {b' b : Build} (h : BuildAlike b' b) : OutcomeAlike (.built b') (.built b)

/-- The result, where the official validation let the files through. -/
def Outcome.ofBuild : Except Raised Build → Outcome
  | .error e => .raised e
  | .ok b => .built b

theorem OutcomeAlike.ofBuild {x y : Except Raised Build} (h : Except.Rel BuildAlike x y) :
    OutcomeAlike (.ofBuild x) (.ofBuild y) := by
  cases h with
  | error e => exact .raised e
  | ok hAlike => exact .built hAlike

variable (L P)

def nextCache (c : BuildCache) (run : CompileRun) : BuildCache := (compileBundle L P c run).2

/-- An incremental run gives what a full one gives on an empty cache. -/
def AsClean (c : BuildCache) (run : CompileRun) : Prop :=
  run.incremental = true →
    OutcomeAlike (compileBundle L P c run).1
      (compileBundle L P {} { run with incremental := false }).1

/-- In an incremental run that the official validation lets through, every file is trusted when
its turn comes. -/
def AllTrusted (c : BuildCache) (run : CompileRun) : Prop :=
  run.incremental = true → ¬ (run.requireOfficial = true ∧ officialDiagnostics L run.tree ≠ []) →
    Every (compileStep L P true) (Trusted L P) { cache := c } run.tree.entries

variable {L P}

theorem compileBundle_rejected (c : BuildCache) (run : CompileRun)
    (h : run.requireOfficial = true ∧ officialDiagnostics L run.tree ≠ []) :
    (compileBundle L P c run).1 = .rejected (officialDiagnostics L run.tree) := by
  unfold compileBundle
  rw [if_pos h]

theorem compileBundle_assembled (c : BuildCache) (run : CompileRun)
    (h : ¬ (run.requireOfficial = true ∧ officialDiagnostics L run.tree ≠ [])) {s : Loop}
    (hLoop : run.tree.entries.foldl (compileStep L P run.incremental) { cache := c } = s) :
    (compileBundle L P c run).1 = .ofBuild (assemble L P run.ontology s.docs s.diag) := by
  subst hLoop
  simp only [compileBundle, if_neg h]
  split
  · rename_i hError
    rw [hError]
    rfl
  · rename_i hOk
    rw [hOk]
    rfl

theorem asClean_of_allTrusted (hInt : ∀ v, L.int (arranged v) = L.int v) (hStored : Stored L P c)
    {run : CompileRun} (h : AllTrusted L P c run) : AsClean L P c run := by
  intro hIncremental
  by_cases hOfficial : run.requireOfficial = true ∧ officialDiagnostics L run.tree ≠ []
  · rw [compileBundle_rejected c run hOfficial,
      compileBundle_rejected {} { run with incremental := false } hOfficial]
    exact .rejected _
  · have hStart : LoopAlike L { cache := c } { cache := {} } := { docs := .nil, diag := rfl }
    have hLoop := hStart.loop hStored (h hIncremental hOfficial)
    have hBuild := assemble_alike P hInt run.ontology hLoop.docs
      (run.tree.entries.foldl (compileStep L P true) { cache := c }).diag
    rw [compileBundle_assembled c run hOfficial (by rw [hIncremental]),
      compileBundle_assembled {} { run with incremental := false } hOfficial rfl, ← hLoop.diag]
    exact .ofBuild hBuild

/-- **Incremental builds.** If in every incremental run every file is trusted when its turn comes,
every incremental run gives what a full one gives on an empty cache. -/
theorem incremental_as_clean (hInt : ∀ v, L.int (arranged v) = L.int v) {runs : List CompileRun}
    (h : Every (nextCache L P) (AllTrusted L P) {} runs) :
    Every (nextCache L P) (AsClean L P) {} runs :=
  Run.every_of_every (I := Stored L P) (fun _ run hStored _ => hStored.compileBundle run)
    (fun _ _ hStored hTrusted => asClean_of_allTrusted hInt hStored hTrusted) stored_empty h

-- ------ Sample builds

def sampleFile (f : String × String) : Text × List UInt8 :=
  (f.1.toList, f.2.toList.map fun c => UInt8.ofNat c.toNat)

/-- A platform on which every file name will do. -/
def samplePlatform : Platform where
  eq v w := match v, w with
    | .str s, .str t => s = t
    | _, _ => false
  mixed _ := .ok fun _ _ => true
  digest data := data.map fun b => Char.ofNat b.toNat
  version := "1.0.0".toList
  refuses _ := none

def sampleRun (files : List (String × String)) (incremental : Bool) : CompileRun where
  tree := Dict.replay (files.map sampleFile)
  incremental
  ontology := { classes := [], predicates := [], typeMap := Dict.empty }
  writable _ := true

theorem sampleLibraries_int (v : Yaml) :
    sampleLibraries.int (arranged v) = sampleLibraries.int v := by
  cases v <;> rfl

/-- The file `a.md` of a concept. -/
def conceptFile : String × String := ("a.md", "---\ntype: concept\n---\n")

theorem survives_conceptFile
    (h : compileFile sampleLibraries (sampleFile conceptFile).1 (sampleFile conceptFile).2 =
      .ok doc) : Survives sampleLibraries doc := by
  have hFrontmatter : (compileFile sampleLibraries (sampleFile conceptFile).1
      (sampleFile conceptFile).2).map DocumentNode.frontmatter =
        .ok
          [(.str "type".toList, .str "concept".toList), (.str "title".toList, .str "A".toList),
            (.str "visibility".toList, .str "internal".toList),
            (.str "status".toList, .str "approved".toList), (.str "priority".toList, .int 50),
            (.str "tags".toList, .list []), (.str "aliases".toList, .list []),
            (.str "concept_id".toList, .str "a".toList)] := rfl
  rw [h] at hFrontmatter
  have hFm := Except.ok.inj hFrontmatter
  have hRelations : relations doc = .ok [] := by
    simp only [relations, hFm]
    rfl
  refine survives_of_ordered (by rw [hFm]; rfl) ?_ fun rels hRels rel hRel => ?_
  · intro k hk
    rw [hFm]
    simp only [List.mem_cons, List.not_mem_nil, or_false] at hk
    rcases hk with rfl | rfl | rfl | rfl
    · rfl
    · rfl
    · rfl
    · rfl
  · rw [hRelations] at hRels
    cases hRels
    cases hRel

theorem entries_conceptRun :
    (sampleRun [conceptFile] true).tree.entries = [sampleFile conceptFile] := by
  decide +kernel

theorem trusted_conceptFile
    (h : (c.find samplePlatform (sampleFile conceptFile).1 (cacheKey samplePlatform
      (sampleFile conceptFile).1 (sampleFile conceptFile).2)).toOption.all (Option.all fun cached =>
      cached.relPath = conceptFile.1.toList ∧ cached.raw = conceptFile.2.toList) = true)
    (hNamed : (c.find samplePlatform (sampleFile conceptFile).1 (cacheKey samplePlatform
      (sampleFile conceptFile).1 (sampleFile conceptFile).2)).isOk = true) :
    Trusted sampleLibraries samplePlatform { cache := c } (sampleFile conceptFile) := by
  obtain ⟨found, hFind⟩ := Except.isOk_iff.mp hNamed
  rw [hFind] at h
  cases found with
  | none =>
    have hWritten : ((compileFile sampleLibraries (sampleFile conceptFile).1
        (sampleFile conceptFile).2).toOption.all fun doc =>
          (BuildCache.written samplePlatform (sampleFile conceptFile).1 doc).isOk) = true := by
      decide +kernel
    refine .parsed hFind fun doc hDoc => ?_
    rw [hDoc] at hWritten
    exact hWritten
  | some cached =>
    obtain ⟨hPath, hText⟩ := of_decide_eq_true h
    have hRaw : sampleLibraries.readText (sampleFile conceptFile).2 = .ok conceptFile.2.toList := by
      decide +kernel
    exact .taken hFind hPath (hRaw.trans (congrArg Except.ok hText.symm)) fun doc hDoc =>
      survives_conceptFile hDoc

theorem incremental_as_clean_twice :
    Every (nextCache sampleLibraries samplePlatform) (AsClean sampleLibraries samplePlatform) {}
      [sampleRun [conceptFile] true, sampleRun [conceptFile] true] := by
  refine incremental_as_clean sampleLibraries_int ⟨?_, ?_, trivial⟩
  · intro _ _
    rw [entries_conceptRun]
    exact ⟨trusted_conceptFile (by decide +kernel) (by decide +kernel), trivial⟩
  · intro _ _
    rw [entries_conceptRun]
    exact ⟨trusted_conceptFile (by decide +kernel) (by decide +kernel), trivial⟩

def Outcome.sources : Outcome → List (Text × Text)
  | .built b => b.docs.map fun doc => (doc.relPath, doc.raw)
  | _ => []

theorem OutcomeAlike.sources_eq {o' o : Outcome} (h : OutcomeAlike o' o) :
    o'.sources = o.sources := by
  cases h with
  | rejected | raised => rfl
  | built hAlike =>
    have hDocs := congrArg (List.map fun doc : DocumentNode => (doc.relPath, doc.raw)) hAlike.docs
    rw [List.map_map, List.map_map] at hDocs
    exact hDocs

/-- Two paths share a file name in the cache; and a full build between two incremental ones leaves
an old document behind. -/
theorem stale_documents :
    ¬ Every (nextCache sampleLibraries samplePlatform) (AsClean sampleLibraries samplePlatform) {}
      (List.replicate 2 (sampleRun
        [("a/b.md", "---\ntype: concept\n---\n"), ("a__b.md", "---\ntype: concept\n---\n")]
        true)) ∧
    ¬ Every (nextCache sampleLibraries samplePlatform) (AsClean sampleLibraries samplePlatform) {}
      [sampleRun [conceptFile] true,
        sampleRun [("a.md", "---\ntype: concept\n---\nnew\n")] false,
        sampleRun [("a.md", "---\ntype: concept\n---\nnew\n")] true] := by
  constructor
  · rintro ⟨-, hSecond, -⟩
    have hSources := (hSecond rfl).sources_eq
    revert hSources
    decide +kernel
  · rintro ⟨-, -, hThird, -⟩
    have hSources := (hThird rfl).sources_eq
    revert hSources
    decide +kernel

end Neuroswarm.Okf
