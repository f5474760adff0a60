import Neuroswarm.Lib.Replay
import Neuroswarm.Okf.Documents

/-!
# Knowledge compiler — alias map, graph and validation

`build_alias_map`, `build_graph`, `optimize_graph` and `validate_bundle`. The recursion limit
of the interpreter, which `detect_cycles` can reach, is left out.

* `buildAliasMap_eq_ok` — the map is the replay of what every document writes.
* `validateBundle_ok` — what an accepted bundle fulfils.
-/

namespace Neuroswarm.Okf

open Armcascade (Text)

variable (L : Libraries)

-- ------ The alias map

namespace DocumentNode

/-- The aliases that a document declares: `str(a)` of each `a` in its frontmatter's `aliases`. -/
def declared (doc : DocumentNode) : Except Raised (List Text) :=
  (doc.frontmatter.get "aliases").itemsOrNone.map fun xs => xs.map L.str

end DocumentNode

def buildAliasMap (docs : List DocumentNode) : Except Raised (Dict Text Text) :=
  docs.foldlM
    (fun out doc => do
      let out := out.set doc.id doc.id
      let declared ← doc.declared L
      let out := declared.foldl (fun out a => out.set a doc.id) out
      .ok ((out.set doc.relPath doc.id).set (removeMd doc.relPath) doc.id))
    Dict.empty

-- ------ Paths

/-- `Path(p).as_posix()`. -/
def asPosix (p : Text) : Text :=
  let parts := (p.splitOn '/').filter fun part => part ≠ [] ∧ part ≠ ['.']
  let root :=
    if "//".toList.isPrefixOf p ∧ ¬ "///".toList.isPrefixOf p then "//".toList
    else if "/".toList.isPrefixOf p then "/".toList
    else []
  match root ++ ['/'].intercalate parts with
  | [] => ['.']
  | path => path

/-- `Path(rel_path).parent.as_posix()`. -/
def parent (relPath : Text) : Text :=
  match (relPath.splitOn '/').dropLast with
  | [] => ['.']
  | parts => ['/'].intercalate parts

/-- `(Path(base) / target).as_posix()`. -/
def joinPath (base target : Text) : Text :=
  if "/".toList.isPrefixOf target then asPosix target else asPosix (base ++ '/' :: target)

-- ------ The graph

structure Node where
  id : Text
  path : Text
  docType : Text
  title : Text
  priority : Yaml
  tags : List Yaml
  visibility : Yaml
  ns : Yaml
  tokenBudget : Yaml

inductive EdgeKind where
  | md
  | wiki
  | ontology
  deriving DecidableEq

structure Edge where
  src : Text
  dst : Text
  pred : Yaml
  /-- In tenths. -/
  weight : ℕ
  kind : Option EdgeKind

structure Graph where
  nodes : List Node
  edges : List Edge

def nodeOf (doc : DocumentNode) : Except Raised Node := do
  let fm := doc.frontmatter
  let tags ← (fm.get "tags").itemsOrNone
  .ok
    { id := doc.id
      path := doc.relPath
      docType := doc.docType
      title := doc.title
      priority := (fm.get? "priority").getD (.int 50)
      tags
      visibility := (fm.get? "visibility").getD (.str "internal".toList)
      ns := fm.get "namespace"
      tokenBudget := fm.get "token_budget" }

/-- `{d.rel_path: d for d in docs}`, with the ids. -/
def byRel (docs : List DocumentNode) : Dict Text Text :=
  Dict.replay (docs.map fun d => (d.relPath, d.id))

def containsEdge (rels : Dict Text Text) (doc : DocumentNode) : Option Edge :=
  let parent := parent doc.relPath
  if parent = ['.'] then none
  else (rels.get? (parent ++ "/index.md".toList)).map fun index =>
    { src := index, dst := doc.id, pred := .str "contains".toList, weight := 10, kind := none }

def resolveTarget (aliases rels : Dict Text Text) (doc : DocumentNode) (target : Text) :
    Option Text :=
  match aliases.get? target with
  | some id => some id
  | none =>
    match rels.get? (joinPath (parent doc.relPath) target) with
    | some id => some id
    | none => rels.get? target

def seeAlso (aliases rels : Dict Text Text) (doc : DocumentNode) (link : LinkNode) :
    Option Edge :=
  match resolveTarget aliases rels doc link.target with
  | none => none
  | some dst =>
    if dst = [] then none
    else some
      { src := doc.id
        dst
        pred := .str "see_also".toList
        weight := 8
        kind := some (match link.kind with | .md => .md | .wiki => .wiki) }

/-- `(doc.frontmatter.get("ontology") or {}).get("relations") or []`. -/
def relations (doc : DocumentNode) : Except Raised (List Yaml) := do
  let ontology := (doc.frontmatter.get "ontology").orElse (.dict [])
  let rels ← ontology.attr "relations"
  rels.itemsOrNone

def relationEdge (aliases : Dict Text Text) (doc : DocumentNode) (rel : Yaml) :
    Except Raised (Option Edge) := do
  let obj ← rel.attr "obj"
  let pred := match rel with
    | .dict ms => (Mapping.get? ms "pred").getD (.str "depends_on".toList)
    | _ => .null
  if obj.truthy then
    .ok (some
      { src := doc.id
        dst := (aliases.get? (L.str obj)).getD (L.str obj)
        pred
        weight := 10
        kind := some .ontology })
  else .ok none

def edgesOf (aliases rels : Dict Text Text) (doc : DocumentNode) : Except Raised (List Edge) := do
  let relations ← relations doc
  let ontology ← relations.mapM (relationEdge L aliases doc)
  .ok ((containsEdge rels doc).toList ++ doc.links.filterMap (seeAlso aliases rels doc) ++
    ontology.filterMap id)

def buildGraph (docs : List DocumentNode) (aliases : Dict Text Text) : Except Raised Graph := do
  let nodes ← docs.mapM nodeOf
  let edges ← docs.mapM (edgesOf L aliases (byRel docs))
  .ok { nodes, edges := edges.flatten }

-- ------ Cycles

/-- `adj.setdefault(e["src"], []).append(e["dst"])`, for the edges that count. -/
def adjacency (edges : List Edge) : Except Raised (Dict Text (List Text)) :=
  edges.foldlM
    (fun adj e =>
      match e.pred with
      | .str pred =>
        if pred = "depends_on".toList ∨ pred = "extends".toList then
          .ok (adj.set e.src ((adj.get? e.src).getD [] ++ [e.dst]))
        else .ok adj
      | .list _ => .error (.unhashable "list")
      | .dict _ => .error (.unhashable "dict")
      | _ => .ok adj)
    Dict.empty

structure Search where
  cycles : List (List Text) := []
  visited : List Text := []
  /-- The nodes of `stack`, in order. -/
  path : List Text := []

def dfs (adj : Dict Text (List Text)) : ℕ → Text → Search → Search
  | 0, _, s => s
  | fuel + 1, n, s =>
    if n ∈ s.path then
      { s with cycles := s.cycles ++ [s.path.dropWhile (· ≠ n) ++ [n]] }
    else if n ∈ s.visited then s
    else
      let s := { s with visited := s.visited ++ [n], path := s.path ++ [n] }
      let s := ((adj.get? n).getD []).foldl (fun s next => dfs adj fuel next s) s
      { s with path := s.path.dropLast }

/-- `detect_cycles(graph)`. A path has the source of an edge in each place but its last, and no
node twice, so that the fuel is enough. -/
def detectCycles (edges : List Edge) : Except Raised (List (List Text)) := do
  let adj ← adjacency edges
  .ok (adj.keys.foldl (fun s n => dfs adj (edges.length + 2) n s) {}).cycles

-- ------ Validation

inductive Severity where
  | error
  | warning
  deriving DecidableEq

structure Diagnostic where
  severity : Severity
  code : String
  message : Text
  path : Option Text
  deriving DecidableEq

abbrev Diagnostics := List Diagnostic

namespace Diagnostics

def error (code : String) (message : Text) (path : Option Text) (diag : Diagnostics) :
    Diagnostics :=
  diag ++ [{ severity := .error, code, message, path }]

def warning (code : String) (message : Text) (path : Option Text) (diag : Diagnostics) :
    Diagnostics :=
  diag ++ [{ severity := .warning, code, message, path }]

def ok (diag : Diagnostics) : Bool := diag.all fun d => d.severity ≠ .error

end Diagnostics

/-- The names that a document claims besides its id. -/
def candidates (doc : DocumentNode) : Except Raised (List Text) := do
  let ids := [doc.frontmatter.get "nexus_id", doc.frontmatter.get "id"].filterMap fun v =>
    if v.truthy ∧ L.str v ≠ doc.id then some (L.str v) else none
  let declared ← doc.declared L
  .ok (ids ++ declared)

/-- One name, after those of the documents before. -/
def checkAlias (doc : DocumentNode) (s : Dict Text Text × Diagnostics) (a : Text) :
    Dict Text Text × Diagnostics :=
  let diag :=
    match s.1.get? a with
    | none => s.2
    | some owner =>
      if owner ≠ doc.id then
        s.2.error "DUP_ID" ("Duplicate NEXUS alias ".toList ++ a ++ " for ".toList ++ owner ++
          " and ".toList ++ doc.id) (some doc.relPath)
      else s.2
  (s.1.set a doc.id, diag)

/-- The names of every document, against `seen_aliases`. -/
def checkAliases (docs : List DocumentNode) (diag : Diagnostics) :
    Except Raised (Dict Text Text × Diagnostics) :=
  docs.foldlM
    (fun s doc => do
      let names ← candidates L doc
      .ok (names.foldl (checkAlias doc) s))
    (Dict.empty, diag)

/-- `int(tb) > int(th)`, where both are given. -/
def exceedsHard (fm : Mapping) : Except Raised Bool :=
  match fm.get "token_budget", fm.get "token_budget_hard" with
  | .null, _ => .ok false
  | _, .null => .ok false
  | tb, th => do
    let tb ← L.int tb
    let th ← L.int th
    .ok (tb > th)

/-- The type, the budgets and the visibility of a document. -/
def checkMeta (diag : Diagnostics) (doc : DocumentNode) : Except Raised Diagnostics :=
  if doc.reserved then .ok diag
  else do
    let fm := doc.frontmatter
    let diag :=
      if ¬ (fm.get "type").truthy ∧ doc.docType = [] then
        diag.error "MISSING_META" "Missing type".toList (some doc.relPath)
      else diag
    let exceeds ← exceedsHard L fm
    let diag :=
      if exceeds then
        diag.error "TOKEN_BUDGET" "token_budget exceeds token_budget_hard".toList
          (some doc.relPath)
      else diag
    .ok (if ((fm.get? "visibility").getD (.str "internal".toList)).isKey "restricted".toList ∧
        ¬ (fm.get "permissions").truthy then
      diag.warning "VISIBILITY" "restricted doc without permissions".toList (some doc.relPath)
    else diag)

/-- A document that nothing refers to. -/
def checkOrphan (graph : Graph) (diag : Diagnostics) (doc : DocumentNode) : Diagnostics :=
  if doc.reserved ∨ doc.relPath = "index.md".toList then diag
  else if doc.id ∉ graph.edges.map Edge.dst ∧ doc.docType ≠ "domain".toList ∧
      doc.docType ≠ "ontology".toList ∧ '/' ∉ doc.relPath then
    diag.warning "ORPHAN" ("Possibly orphan document ".toList ++ doc.id) (some doc.relPath)
  else diag

def validateBundle (docs : List DocumentNode) (graph : Graph) (aliases : Dict Text Text)
    (diag : Diagnostics) : Except Raised Diagnostics := do
  let diag :=
    if (docs.map DocumentNode.id).Nodup then diag
    else diag.error "DUP_ID" "Duplicate official concept ids present".toList none
  let (_, diag) ← checkAliases L docs diag
  let diag := graph.edges.foldl
    (fun diag e =>
      if e.dst ∉ graph.nodes.map Node.id ∧ ¬ aliases.contains e.dst then
        diag.warning "DEAD_REF" ("Edge to missing node ".toList ++ e.dst) none
      else diag)
    diag
  let diag ← docs.foldlM (checkMeta L) diag
  let diag := docs.foldl (checkOrphan graph) diag
  let cycles ← detectCycles graph.edges
  .ok (cycles.foldl
    (fun diag cycle =>
      diag.error "GRAPH_CYCLE" ("Cycle detected: ".toList ++ " -> ".toList.intercalate cycle) none)
    diag)

-- ------ What the alias map holds

/-- What a document that declares these aliases writes. -/
def entriesOf (p : DocumentNode × List Text) : List (Text × Text) :=
  (p.1.id, p.1.id) :: (p.2.map fun a => (a, p.1.id)) ++
    [(p.1.relPath, p.1.id), (removeMd p.1.relPath, p.1.id)]

variable {L}

variable {docs : List DocumentNode}

theorem buildAliasMap_eq_ok {aliases : Dict Text Text} :
    buildAliasMap L docs = .ok aliases ↔
      ∃ ds, docs.mapM (DocumentNode.declared L) = .ok ds ∧
        Dict.replay ((docs.zip ds).flatMap entriesOf) = aliases := by
  unfold buildAliasMap
  rw [Except.foldlM_bind_eq_ok]
  refine exists_congr fun ds => and_congr_right fun _ => ?_
  unfold Dict.replay
  rw [List.foldl_flatMap]
  simp only [entriesOf, List.cons_append, List.foldl_cons, List.foldl_append, List.foldl_map,
    List.foldl_nil]

-- ------ What an accepted bundle fulfils

namespace Diagnostics

@[simp] theorem ok_error (code : String) (message : Text) (path : Option Text)
    (diag : Diagnostics) : (diag.error code message path).ok = false := by
  simp [ok, error]

@[simp] theorem ok_warning (code : String) (message : Text) (path : Option Text)
    (diag : Diagnostics) : (diag.warning code message path).ok = diag.ok := by
  simp [ok, warning]

theorem ok_of_foldl {α : Type*} {f : Diagnostics → α → Diagnostics}
    (hStep : ∀ diag a, (f diag a).ok = true → diag.ok = true) {l : List α} {diag : Diagnostics}
    (h : (l.foldl f diag).ok = true) : diag.ok = true := by
  induction l generalizing diag with
  | nil => exact h
  | cons a l ih => exact hStep diag a (ih h)

theorem ok_of_foldlM {α : Type*} {f : Diagnostics → α → Except Raised Diagnostics}
    (hStep : ∀ diag a diag', f diag a = .ok diag' → diag'.ok = true → diag.ok = true)
    {l : List α} {diag diag' : Diagnostics} (hRun : l.foldlM f diag = .ok diag')
    (h : diag'.ok = true) : diag.ok = true := by
  induction l generalizing diag with
  | nil =>
    cases hRun
    exact h
  | cons a l ih =>
    rw [List.foldlM_cons] at hRun
    obtain ⟨diag₁, hStep₁, hRest⟩ := Except.bind_eq_ok.mp hRun
    exact hStep diag a diag₁ hStep₁ (ih hRest)

end Diagnostics

/-- After these claims of names, an accepted bundle has them without conflict. -/
structure Seen (claims : List (Text × Text)) (s : Dict Text Text × Diagnostics) : Prop where
  aliases : s.1 = Dict.replay claims
  consistent : s.2.ok = true → Dict.Consistent claims

variable {s : Dict Text Text × Diagnostics}

theorem Seen.checkAlias {claims : List (Text × Text)} (h : Seen claims s) (doc : DocumentNode)
    (a : Text) :
    Seen (claims ++ [(a, doc.id)]) (checkAlias doc s a) ∧
      ((Okf.checkAlias doc s a).2.ok = true → s.2.ok = true) := by
  unfold Okf.checkAlias
  have hReplay : s.1.set a doc.id = Dict.replay (claims ++ [(a, doc.id)]) := by
    rw [Dict.replay_concat, h.aliases]
  cases hOwner : s.1.get? a with
  | none =>
    refine ⟨⟨hReplay, fun hOk => ?_⟩, id⟩
    rw [Dict.consistent_concat (h.consistent hOk), ← h.aliases, hOwner]
    exact fun w hw => nomatch hw
  | some owner =>
    by_cases hSame : owner = doc.id
    · simp only [hSame, ne_eq, not_true_eq_false, if_false]
      refine ⟨⟨hReplay, fun hOk => ?_⟩, id⟩
      rw [Dict.consistent_concat (h.consistent hOk), ← h.aliases, hOwner]
      rintro w ⟨⟩
      exact hSame
    · simp only [ne_eq, hSame, not_false_eq_true, if_true]
      exact ⟨⟨hReplay, fun hOk => by simp at hOk⟩, fun hOk => by simp at hOk⟩

theorem Seen.names {claims : List (Text × Text)} (h : Seen claims s) (doc : DocumentNode)
    (names : List Text) :
    Seen (claims ++ names.map fun a => (a, doc.id)) (names.foldl (Okf.checkAlias doc) s) ∧
      ((names.foldl (Okf.checkAlias doc) s).2.ok = true → s.2.ok = true) := by
  induction names generalizing claims s with
  | nil => simpa using h
  | cons a names ih =>
    obtain ⟨hSeen, hOk⟩ := h.checkAlias doc a
    obtain ⟨hRest, hOk'⟩ := ih hSeen
    refine ⟨?_, fun h => hOk (hOk' h)⟩
    simpa using hRest

def claimsOf (p : DocumentNode × List Text) : List (Text × Text) := p.2.map fun a => (a, p.1.id)

variable {diag : Diagnostics}

theorem checkAliases_spec (h : checkAliases L docs diag = .ok s) (hOk : s.2.ok = true) :
    diag.ok = true ∧ ∃ names, docs.mapM (candidates L) = .ok names ∧
      Dict.Consistent ((docs.zip names).flatMap claimsOf) := by
  unfold checkAliases at h
  obtain ⟨names, hNames, hFold⟩ := Except.foldlM_bind_eq_ok.mp h
  have hRun : ∀ (l : List (DocumentNode × List Text)) claims s₀, Seen claims s₀ →
      Seen (claims ++ l.flatMap claimsOf)
        (l.foldl (fun s p => p.2.foldl (Okf.checkAlias p.1) s) s₀) ∧
      ((l.foldl (fun s p => p.2.foldl (Okf.checkAlias p.1) s) s₀).2.ok = true →
        s₀.2.ok = true) := by
    intro l
    induction l with
    | nil => simp
    | cons p l ih =>
      intro claims s₀ h₀
      obtain ⟨hSeen, hBack⟩ := h₀.names p.1 p.2
      obtain ⟨hRest, hBack'⟩ := ih _ _ hSeen
      refine ⟨?_, fun h => hBack (hBack' h)⟩
      simpa [claimsOf] using hRest
  obtain ⟨hSeen, hBack⟩ := hRun (docs.zip names) [] (Dict.empty, diag)
    ⟨rfl, fun _ e he => absurd he List.not_mem_nil⟩
  rw [hFold] at hSeen hBack
  refine ⟨hBack hOk, names, hNames, ?_⟩
  simpa using hSeen.consistent hOk

theorem checkMeta_ok {diag' : Diagnostics} {doc : DocumentNode}
    (h : checkMeta L diag doc = .ok diag') (hOk : diag'.ok = true) : diag.ok = true := by
  unfold checkMeta at h
  split at h
  · cases h
    exact hOk
  · obtain ⟨exceeds, -, h⟩ := Except.bind_eq_ok.mp h
    cases h
    revert hOk
    split_ifs <;> simp

theorem checkOrphan_ok {graph : Graph} {doc : DocumentNode}
    (h : (checkOrphan graph diag doc).ok = true) : diag.ok = true := by
  unfold checkOrphan at h
  split_ifs at h <;> simpa using h

theorem validateBundle_ok {graph : Graph} {aliases : Dict Text Text} {diag' : Diagnostics}
    (h : validateBundle L docs graph aliases diag = .ok diag') (hOk : diag'.ok = true) :
    (docs.map DocumentNode.id).Nodup ∧ ∃ names, docs.mapM (candidates L) = .ok names ∧
      Dict.Consistent ((docs.zip names).flatMap claimsOf) := by
  unfold validateBundle at h
  obtain ⟨s, hAliases, h⟩ := Except.bind_eq_ok.mp h
  obtain ⟨diag₁, hMeta, h⟩ := Except.bind_eq_ok.mp h
  obtain ⟨cycles, -, h⟩ := Except.bind_eq_ok.mp h
  cases h
  -- no check takes an error back
  have hOrphans := Diagnostics.ok_of_foldl (by simp) hOk
  have hMetas := Diagnostics.ok_of_foldl (fun _ _ => checkOrphan_ok) hOrphans
  have hDead := Diagnostics.ok_of_foldlM (fun _ _ _ => checkMeta_ok) hMeta hMetas
  have hSeen : s.2.ok = true := by
    refine Diagnostics.ok_of_foldl (fun diag e hStep => ?_) hDead
    split_ifs at hStep <;> simpa using hStep
  obtain ⟨hFirst, hNames⟩ := checkAliases_spec hAliases hSeen
  refine ⟨?_, hNames⟩
  by_contra hDup
  simp [hDup] at hFirst

end Neuroswarm.Okf
