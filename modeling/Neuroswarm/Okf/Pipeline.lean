import Neuroswarm.Okf.Graph
import Neuroswarm.Okf.JsonCopies

/-!
# Knowledge compiler — the pipeline and its cache

`compile_bundle` with `BuildCache`: the official validation, the loop over the files, what is
made of the documents. The ontology is one whose `classes`, `predicates` and `type_map` have texts
as keys. That the artifacts can be written is a parameter; it decides whether the index of the
cache is saved.
-/

namespace Neuroswarm.Okf

open Armcascade (Text)
open Mcp (strip)

-- ------ Official validation

/-- `has_frontmatter_block`. -/
def hasFrontmatter (raw : Text) : Bool :=
  "---".toList.isPrefixOf raw && (cutDashes (raw.drop 3)).isSome

def isRootIndex (relPath : Text) : Bool :=
  relPath = "index.md".toList ∨ slashes relPath = "index.md".toList

variable (L : Libraries)

/-- `_validate_index(doc, report)`: the errors, with code and message. -/
def officialIndex (relPath : Text) (fm : Mapping) (block : Bool) : List (String × Text) :=
  if isRootIndex relPath then
    let illegal := (fm.map Prod.fst).filter fun k => !k.isKey "okf_version".toList
    if block ∧ illegal ≠ [] then
      [("INDEX_FM", "Root index.md frontmatter may only contain okf_version; found ".toList ++
        L.str (.list illegal))]
    else []
  else if block then [("INDEX_FM", "index.md must not contain frontmatter (SPEC §6)".toList)]
  else []

/-- `_validate_log(doc, report)`. -/
def officialLog (block : Bool) : List (String × Text) :=
  if block then [("LOG_FM", "log.md must not contain frontmatter (SPEC §7)".toList)] else []

/-- `_validate_concept(doc, report)`. -/
def officialConcept (fm : Mapping) (block : Bool) : List (String × Text) :=
  if block then
    let missing := match fm.get "type" with
      | .null => true
      | .str s => strip s = []
      | _ => false
    if missing then
      [("MISSING_TYPE",
        "Frontmatter must contain a non-empty type field (SPEC §4.1 / §9)".toList)]
    else []
  else
    [("MISSING_FRONTMATTER",
      "Concept documents must have parseable YAML frontmatter (SPEC §9)".toList)]

def officialErrors (relPath : Text) (data : List UInt8) : List (String × Text) :=
  let parsed := do
    let raw ← L.readText data
    let (fm, _) ← splitFrontmatter L raw
    .ok (fm, hasFrontmatter raw)
  match parsed with
  | .error e => [("PARSE", e.text)]
  | .ok (fm, block) =>
    if fileName relPath = "index.md".toList then officialIndex L relPath fm block
    else if fileName relPath = "log.md".toList then officialLog block
    else officialConcept fm block

/-- The files that `discover_markdown` finds, in its order, with their bytes. -/
abbrev Tree := Dict Text (List UInt8)

/-- The errors of `validate_official`, as `compile_bundle` reports them. -/
def officialDiagnostics (tree : Tree) : Diagnostics :=
  tree.entries.flatMap fun f =>
    (officialErrors L f.1 f.2).map fun e =>
      { severity := .error, code := "OFFICIAL_" ++ e.1, message := e.2, path := some f.1 }

-- ------ Ontology

structure Ontology where
  classes : List Text
  predicates : List Text
  typeMap : Dict Text Text

mutual

/-- The type that `hash(v)` complains about. -/
def unhashable : Yaml → Option String
  | .list _ => some "list"
  | .dict _ => some "dict"
  | .set _ => some "set"
  | .tuple xs => unhashableItem xs
  | _ => none

def unhashableItem : List Yaml → Option String
  | [] => none
  | x :: xs => (unhashable x).or (unhashableItem xs)

end

def checkPredicate (ontology : Ontology) (doc : DocumentNode) (diag : Diagnostics) (rel : Yaml) :
    Except Raised Diagnostics := do
  let pred ← rel.attr "pred"
  if pred.truthy then
    match unhashable pred with
    | some t => .error (.unhashable t)
    | none =>
      if (ontology.predicates.any fun p => pred.isKey p) ∨ ontology.predicates = [] then .ok diag
      else .ok (diag.warning "UNKNOWN_PRED" ("Unknown predicate ".toList ++ L.str pred)
        (some doc.relPath))
  else .ok diag

def checkClass (ontology : Ontology) (doc : DocumentNode) (diag : Diagnostics) : Diagnostics :=
  match ontology.typeMap.get? doc.docType with
  | none => diag
  | some cls =>
    if cls ≠ [] ∧ cls ∉ ontology.classes ∧ ontology.classes ≠ [] then
      diag.warning "UNKNOWN_CLASS" ("Type ".toList ++ doc.docType ++
        " maps to unknown class ".toList ++ cls) (some doc.relPath)
    else diag

/-- One document of `check_ontology`. -/
def checkOntologyOf (ontology : Ontology) (diag : Diagnostics) (doc : DocumentNode) :
    Except Raised Diagnostics :=
  if doc.reserved ∧ isReserved (fileName doc.relPath) then .ok diag
  else if (doc.frontmatter.get? "type").isNone ∧ ¬ doc.reserved then
    .ok (diag.error "MISSING_TYPE" "Missing required frontmatter field: type".toList
      (some doc.relPath))
  else do
    let rels ← relations doc
    let diag ← rels.foldlM (checkPredicate L ontology doc) (checkClass ontology doc diag)
    .ok (if doc.docType = "agent".toList ∧ ¬ (doc.frontmatter.get "title").truthy then
      diag.error "MISSING_META" "Agent documents require title".toList (some doc.relPath)
    else diag)

def checkOntology (docs : List DocumentNode) (ontology : Ontology) (diag : Diagnostics) :
    Except Raised Diagnostics :=
  docs.foldlM (checkOntologyOf L ontology) diag

-- ------ Optimization

structure OptimizedGraph extends Graph where
  /-- The documents of `optimize_hints`. -/
  hints : List Text

/-- What is used of the interpreter's values and of the file system. -/
structure Platform where
  /-- `v == w`, of values that can be hashed. -/
  eq : Yaml → Yaml → Bool
  /-- How `sorted` orders keys of which one is no text, or what it raises. -/
  mixed : List Yaml → Except Raised (Yaml → Yaml → Bool)
  /-- `content_hash` of bytes. -/
  digest : List UInt8 → Text
  /-- `__version__`. -/
  version : Text
  /-- What `stat` and `open` raise on a file name in the cache, as for one that is too long. -/
  refuses : Text → Option Raised

variable (P : Platform)

def keepEdge (kept : List Edge) (e : Edge) : Except Raised (List Edge) :=
  if e.src = e.dst then .ok kept
  else
    match unhashable e.pred with
    | some t => .error (.unhashable t)
    | none =>
      if kept.any fun k => k.src = e.src ∧ k.dst = e.dst ∧ P.eq k.pred e.pred then .ok kept
      else .ok (kept ++ [e])

def optimizeGraph (graph : Graph) (docs : List DocumentNode) : Except Raised OptimizedGraph := do
  let edges ← graph.edges.foldlM (keepEdge P) []
  .ok
    { nodes := graph.nodes
      edges
      hints := (docs.filter fun doc => doc.sections.length > 12).map DocumentNode.id }

-- ------ The cache

def utf8 (t : Text) : List UInt8 := t.flatMap String.utf8EncodeChar

/-- `cache.key(rel, data, "1.0", __version__)`. -/
def cacheKey (rel : Text) (data : List UInt8) : Text :=
  P.digest (utf8 rel ++ utf8 ['|'] ++ data ++ utf8 "1.0".toList ++ utf8 P.version)

/-- `_doc_path(rel)`, within `docs`. -/
def docPath (rel : Text) : Text :=
  rel.flatMap (fun c => if c = '/' then "__".toList else [c]) ++ ".json".toList

/-- `_doc_from_dict(json.loads(json.dumps(_doc_to_dict(doc))))`: texts and numbers come back as
they were. -/
def revive (doc : DocumentNode) : Except Raised DocumentNode := do
  let fm ← reload P.mixed (jsonable (.dict doc.frontmatter))
  match fm with
  | .dict ms => .ok { doc with frontmatter := ms }
  | _ => .ok { doc with frontmatter := [] }

structure BuildCache where
  index : Dict Text Text := Dict.empty
  /-- The files in `docs`, as they are read back. -/
  docs : Dict Text DocumentNode := Dict.empty

namespace BuildCache

/-- `has_doc(rel, digest)` and `load_doc(rel)`. -/
def find (c : BuildCache) (rel digest : Text) : Except Raised (Option DocumentNode) :=
  if c.index.get? rel = some digest then
    match P.refuses (docPath rel) with
    | some e => .error e
    | none => .ok (c.docs.get? (docPath rel))
  else .ok none

def put (c : BuildCache) (rel digest : Text) : BuildCache :=
  { c with index := c.index.set rel digest }

/-- What `store_doc` writes, if it can. -/
def written (rel : Text) (doc : DocumentNode) : Except Raised DocumentNode := do
  let doc ← revive P doc
  match P.refuses (docPath rel) with
  | some e => .error e
  | none => .ok doc

/-- `store_doc(rel, doc, digest)`, with what it raises. -/
def storeDoc (c : BuildCache) (rel : Text) (doc : DocumentNode) (digest : Text) :
    BuildCache × Option Raised :=
  match written P rel doc with
  | .error e => (c.put rel digest, some e)
  | .ok stored => ({ c.put rel digest with docs := c.docs.set (docPath rel) stored }, none)

end BuildCache

-- ------ The loop over the files

structure Loop where
  cache : BuildCache
  docs : List DocumentNode := []
  diag : Diagnostics := []

/-- `diag.error("PARSE", str(exc), rel)`. -/
def Loop.parseError (s : Loop) (rel : Text) (e : Raised) : Loop :=
  { s with diag := s.diag.error "PARSE" e.text (some rel) }

def parseStep (incremental : Bool) (s : Loop) (rel : Text) (data : List UInt8) : Loop :=
  match compileFile L rel data with
  | .error e => s.parseError rel e
  | .ok doc =>
    let s := { s with docs := s.docs ++ [doc] }
    if incremental then
      match s.cache.storeDoc P rel doc (cacheKey P rel data) with
      | (cache, none) => { s with cache }
      | (cache, some e) => { s with cache }.parseError rel e
    else { s with cache := s.cache.put rel (cacheKey P rel data) }

def compileStep (incremental : Bool) (s : Loop) (file : Text × List UInt8) : Loop :=
  if incremental then
    match s.cache.find P file.1 (cacheKey P file.1 file.2) with
    | .error e => s.parseError file.1 e
    | .ok (some cached) => { s with docs := s.docs ++ [cached] }
    | .ok none => parseStep L P true s file.1 file.2
  else parseStep L P false s file.1 file.2

-- ------ compile_bundle

/-- What the artifacts are written from. -/
structure Build where
  docs : List DocumentNode
  aliases : Dict Text Text
  graph : OptimizedGraph
  diag : Diagnostics

def assemble (ontology : Ontology) (docs : List DocumentNode) (diag : Diagnostics) :
    Except Raised Build := do
  let aliases ← buildAliasMap L docs
  let diag ← checkOntology L docs ontology diag
  let graph ← buildGraph L docs aliases
  let graph ← optimizeGraph P graph docs
  let diag ← validateBundle L docs graph.toGraph aliases diag
  .ok { docs, aliases, graph, diag }

inductive Outcome where
  /-- The official validation failed. -/
  | rejected (diag : Diagnostics)
  | raised (e : Raised)
  | built (b : Build)

/-- One call of `compile_bundle`. -/
structure CompileRun where
  tree : Tree
  incremental : Bool := true
  requireOfficial : Bool := true
  ontology : Ontology
  /-- The artifacts can be written. -/
  writable : Build → Bool

/-- `compile_bundle(...)`: the result, and the cache on disk after it. -/
def compileBundle (cache : BuildCache) (run : CompileRun) : Outcome × BuildCache :=
  let official := officialDiagnostics L run.tree
  if run.requireOfficial ∧ official ≠ [] then (.rejected official, cache)
  else
    let s := run.tree.entries.foldl (compileStep L P run.incremental) { cache }
    -- an index that is not saved is lost, the documents are on disk
    let unsaved := { s.cache with index := cache.index }
    match assemble L P run.ontology s.docs s.diag with
    | .error e => (.raised e, unsaved)
    | .ok b => (.built b, if run.writable b then s.cache else unsaved)

end Neuroswarm.Okf
