import Mathlib
import Neuroswarm.Armcascade.Types
import Neuroswarm.Lib.Fallible
import Neuroswarm.Mcp.Casing

/-!
# Knowledge compiler — documents

`parse_file` and `normalize_document`: a markdown file with its YAML frontmatter becomes a
`DocumentNode`. Paths are texts relative to the source root, and `DocumentNode.path`, which is
the root and `rel_path`, is left out.

* `Yaml` — the values of a frontmatter.
* `headings`, `mdLinks`, `wikiLinks` — what the regular expressions find, without backtracking.
* `Compiled.id_eq` — the id of a parsed and normalized document is its official concept id.
-/

namespace Neuroswarm.Okf

open Armcascade (Text isSpace split)
open Mcp (strip)

-- ------ Values of a frontmatter

/-- What `yaml.safe_load` gives. A float is its `repr`, a timestamp its `isoformat()`. -/
inductive Yaml where
  | null
  | bool (b : Bool)
  | int (n : ℤ)
  | float (repr : Text)
  | str (s : Text)
  | date (iso : Text)
  | datetime (iso : Text)
  | bytes (b : List UInt8)
  | list (xs : List Yaml)
  | tuple (xs : List Yaml)
  | dict (ms : List (Yaml × Yaml))
  | set (xs : List Yaml)

/-- An exception, with what its text depends on. -/
inductive Raised where
  | notIterable (typeName : String)
  | noAttribute (typeName name : String)
  | unhashable (typeName : String)
  /-- Raised by the interpreter's or a library's own reading of a value. -/
  | other (text : Text)
  deriving DecidableEq

/-- `str(exc)`. -/
def Raised.text : Raised → Text
  | .notIterable t => s!"'{t}' object is not iterable".toList
  | .noAttribute t a => s!"'{t}' object has no attribute '{a}'".toList
  | .unhashable t => s!"unhashable type: '{t}'".toList
  | .other t => t

namespace Yaml

/-- `type(v).__name__`. -/
def typeName : Yaml → String
  | .null => "NoneType"
  | .bool _ => "bool"
  | .int _ => "int"
  | .float _ => "float"
  | .str _ => "str"
  | .date _ => "date"
  | .datetime _ => "datetime"
  | .bytes _ => "bytes"
  | .list _ => "list"
  | .tuple _ => "tuple"
  | .dict _ => "dict"
  | .set _ => "set"

/-- `bool(v)`. -/
def truthy : Yaml → Bool
  | .null => false
  | .bool b => b
  | .int n => n ≠ 0
  | .float r => r ≠ "0.0".toList ∧ r ≠ "-0.0".toList
  | .str s => !s.isEmpty
  | .date _ => true
  | .datetime _ => true
  | .bytes b => !b.isEmpty
  | .list xs => !xs.isEmpty
  | .tuple xs => !xs.isEmpty
  | .dict ms => !ms.isEmpty
  | .set xs => !xs.isEmpty

/-- `list(v)`. -/
def items : Yaml → Except Raised (List Yaml)
  | .str s => .ok (s.map fun c => .str [c])
  | .bytes b => .ok (b.map fun x => .int x.toNat)
  | .list xs => .ok xs
  | .tuple xs => .ok xs
  | .dict ms => .ok (ms.map Prod.fst)
  | .set xs => .ok xs
  | v => .error (.notIterable v.typeName)

def isKey (k : Text) : Yaml → Bool
  | .str s => s == k
  | _ => false

end Yaml

/-- A dict of the interpreter, in the order of its keys. -/
abbrev Mapping := List (Yaml × Yaml)

namespace Mapping

/-- `d.get(k)`, where `None` is as good as no entry. -/
def get? (d : Mapping) (k : String) : Option Yaml :=
  (d.find? fun m => m.1.isKey k.toList).map Prod.snd

def get (d : Mapping) (k : String) : Yaml := (d.get? k).getD .null

/-- `d[k] = v`. -/
def set (d : Mapping) (k : String) (v : Yaml) : Mapping :=
  if (d.get? k).isSome then d.map fun m => if m.1.isKey k.toList then (m.1, v) else m
  else d ++ [(.str k.toList, v)]

def setDefault (d : Mapping) (k : String) (v : Yaml) : Mapping :=
  if (d.get? k).isSome then d else d ++ [(.str k.toList, v)]

end Mapping

namespace Yaml

/-- `v.get(k)`, of a dict. -/
def attr (v : Yaml) (k : String) : Except Raised Yaml :=
  match v with
  | .dict ms => .ok (Mapping.get ms k)
  | v => .error (.noAttribute v.typeName "get")

/-- `v or other`. -/
def orElse (v other : Yaml) : Yaml := if v.truthy then v else other

/-- `list(v or [])`. -/
def itemsOrNone (v : Yaml) : Except Raised (List Yaml) :=
  if v.truthy then v.items else .ok []

end Yaml

/-- What is used of PyYAML, of the file system and of the interpreter's tables. -/
structure Libraries where
  /-- `read_text(encoding="utf-8")` of a file with these bytes. -/
  readText : List UInt8 → Except Raised Text
  /-- `yaml.safe_load`. -/
  safeLoad : Text → Except Raised Yaml
  /-- `str(v)`. -/
  str : Yaml → Text
  str_str : ∀ s, str (.str s) = s
  /-- `int(v)`. -/
  int : Yaml → Except Raised ℤ
  /-- `s.title()`. -/
  title : Text → Text
  /-- `content_hash`. -/
  contentHash : Text → Text

-- ------ Concept ids and frontmatter

/-- `s.removesuffix(".md")`. -/
def removeMd (s : Text) : Text :=
  if ".md".toList.isSuffixOf s then s.take (s.length - 3) else s

/-- `s.replace("\\", "/")`. -/
def slashes (s : Text) : Text := s.map fun c => if c = '\\' then '/' else c

def conceptId (relPath : Text) : Text := removeMd (slashes relPath)

/-- `path.name`. -/
def fileName (relPath : Text) : Text := (relPath.splitOn '/').getLastD []

def isReserved (name : Text) : Bool := name = "index.md".toList ∨ name = "log.md".toList

/-- `path.stem`: the name without its last suffix. -/
def stem (name : Text) : Text :=
  let upToDot := name.rdropWhile (· ≠ '.')
  if upToDot.length ≤ 1 ∨ upToDot.length = name.length then name else upToDot.dropLast

/-- What stands before the first `---` of a text, and what after it. -/
def cutDashes : Text → Option (Text × Text)
  | [] => none
  | c :: rest =>
    if "---".toList.isPrefixOf (c :: rest) then some ([], rest.drop 2)
    else (cutDashes rest).map fun r => (c :: r.1, r.2)

/-- `split_frontmatter(raw)`, with `body` as `parse_file` takes it. -/
def splitFrontmatter (L : Libraries) (raw : Text) : Except Raised (Mapping × Text) :=
  if "---".toList.isPrefixOf raw then
    match cutDashes (raw.drop 3) with
    | none => .ok ([], raw)
    | some (block, rest) => do
      let fm ← L.safeLoad block
      let body := rest.dropWhile (· = '\n')
      match fm with
      | .dict ms => .ok (ms, body)
      | _ => .ok ([], body)
  else .ok ([], raw)

-- ------ Sections

structure SectionNode where
  id : Text
  title : Text
  level : ℕ
  startLine : ℕ
  endLine : ℕ
  text : Text
  tokenEstimate : ℕ
  deriving DecidableEq

structure Heading where
  level : ℕ
  title : Text
  /-- The number of line ends before it. -/
  line : ℕ

def countLines (t : Text) : ℕ := t.count '\n'

/-- `HEADING_RE.finditer(body)`, from a position at the start of a line. -/
def headings : ℕ → ℕ → Text → List Heading
  | 0, _, _ => []
  | fuel + 1, line, t =>
    let hashes := t.takeWhile (· = '#')
    let rest := t.dropWhile (· = '#')
    let blanks := rest.takeWhile isSpace
    let after := rest.dropWhile isSpace
    if 1 ≤ hashes.length ∧ hashes.length ≤ 6 ∧ blanks ≠ [] ∧
        (after ≠ [] ∨ ∃ c ∈ blanks.tail, c ≠ '\n') then
      -- `\s+` runs over the ends of lines, `.+?` does not; where only blanks follow, the last
      -- blank that ends no line is the title
      { level := hashes.length
        title := strip (after.takeWhile (· ≠ '\n'))
        line } ::
        headings fuel (line + countLines blanks + 1) ((after.dropWhile (· ≠ '\n')).drop 1)
    else
      match t.dropWhile (· ≠ '\n') with
      | [] => []
      | _ :: next => headings fuel (line + 1) next

/-- A letter, a digit, a hyphen or a blank. -/
def isSlugChar (c : Char) : Bool :=
  ('a' ≤ c ∧ c ≤ 'z') ∨ ('A' ≤ c ∧ c ≤ 'Z') ∨ ('0' ≤ c ∧ c ≤ '9') ∨ c = '-' ∨ isSpace c

def slug (text : Text) : Text :=
  let s := (['-'].intercalate (split (text.filter isSlugChar))).map Char.toLower
  if s = [] then "section".toList else s

def tokenEstimate (text : Text) : ℕ := max 1 (split text).length

/-- The ends of lines for `str.splitlines`. -/
def isLineEnd (c : Char) : Bool :=
  c.toNat ∈ [0x0a, 0x0b, 0x0c, 0x0d, 0x1c, 0x1d, 0x1e, 0x85, 0x2028, 0x2029]

def splitLines : ℕ → Text → List Text
  | 0, _ => []
  | _ + 1, [] => []
  | fuel + 1, c :: cs =>
    let t := c :: cs
    let line := t.takeWhile fun c => !isLineEnd c
    match t.dropWhile fun c => !isLineEnd c with
    | [] => [line]
    | '\r' :: '\n' :: rest => line :: splitLines fuel rest
    | _ :: rest => line :: splitLines fuel rest

/-- The section of a heading, up to the line `stop`. -/
def sectionOf (lines : List Text) (h : Heading) (stop : ℕ) : SectionNode :=
  let text := strip (['\n'].intercalate ((lines.take stop).drop h.line))
  { id := slug h.title
    title := h.title
    level := h.level
    startLine := h.line + 1
    endLine := stop
    text
    tokenEstimate := tokenEstimate text }

def parseSections (body : Text) : List SectionNode :=
  match headings (body.length + 1) 0 body with
  | [] =>
    [{ id := "body".toList
       title := "Body".toList
       level := 1
       startLine := 1
       endLine := countLines body + 1
       text := body
       tokenEstimate := tokenEstimate body }]
  | h :: hs =>
    let lines := splitLines (body.length + 1) body
    List.zipWith (sectionOf lines) (h :: hs) (hs.map Heading.line ++ [lines.length])

-- ------ Links

inductive LinkKind where
  | md
  | wiki
  deriving DecidableEq

structure LinkNode where
  text : Text
  target : Text
  kind : LinkKind
  sectionId : Option Text
  deriving DecidableEq

/-- A group `([^c]+)` with the `c` after it: the text of the group and what follows. -/
def upTo (c : Char) (t : Text) : Option (Text × Text) :=
  match t.dropWhile (· ≠ c) with
  | _ :: rest => if t.takeWhile (· ≠ c) = [] then none else some (t.takeWhile (· ≠ c), rest)
  | [] => none

/-- A markdown link at the start of the text, and what follows. -/
def mdLinkAt : Text → Option ((Text × Text) × Text)
  | '[' :: rest =>
    match upTo ']' rest with
    | some (text, '(' :: rest) => (upTo ')' rest).map fun r => ((text, r.1), r.2)
    | _ => none
  | _ => none

/-- `MD_LINK_RE.finditer(body)`. -/
def mdLinks : ℕ → Text → List (Text × Text)
  | 0, _ => []
  | _ + 1, [] => []
  | fuel + 1, c :: rest =>
    match mdLinkAt (c :: rest) with
    | some (link, after) => link :: mdLinks fuel after
    | none => mdLinks fuel rest

def wikiLinkAt : Text → Option (Text × Text)
  | '[' :: '[' :: rest =>
    match upTo ']' rest with
    | some (text, ']' :: rest) => some (text, rest)
    | _ => none
  | _ => none

/-- `WIKI_LINK_RE.finditer(body)`. -/
def wikiLinks : ℕ → Text → List Text
  | 0, _ => []
  | _ + 1, [] => []
  | fuel + 1, c :: rest =>
    match wikiLinkAt (c :: rest) with
    | some (link, after) => link :: wikiLinks fuel after
    | none => wikiLinks fuel rest

/-- `target.split("#", 1)`, where there is one. -/
def cutSection (target : Text) : Text × Option Text :=
  match target.dropWhile (· ≠ '#') with
  | [] => (target, none)
  | _ :: fragment => (target.takeWhile (· ≠ '#'), some fragment)

/-- A markdown link that is kept. -/
def isReference (target : Text) : Bool :=
  ["http://", "https://", "mcp://", "./", "../", "/"].any (fun p => p.toList.isPrefixOf target) ||
    [".md", ".yaml", ".yml"].any (fun s => s.toList.isSuffixOf target) || target.contains '/'

def parseLinks (body : Text) : List LinkNode :=
  let md := (mdLinks (body.length + 1) body).filterMap fun m =>
    let (target, sectionId) := cutSection (strip m.2)
    if isReference target then some { text := m.1, target, kind := .md, sectionId } else none
  let wiki := (wikiLinks (body.length + 1) body).map fun m =>
    let (target, sectionId) := cutSection (strip m)
    { text := target, target, kind := .wiki, sectionId }
  md ++ wiki

-- ------ Documents

structure DocumentNode where
  relPath : Text
  frontmatter : Mapping
  body : Text
  id : Text
  docType : Text
  title : Text
  sections : List SectionNode
  links : List LinkNode
  reserved : Bool
  checksum : Text
  raw : Text

variable (L : Libraries)

/-- The optional `id` of a frontmatter becomes an alias. -/
def withNexusAlias (fm : Mapping) (officialId : Text) : Except Raised Mapping :=
  let nexusAlias := fm.get "id"
  if nexusAlias.truthy ∧ L.str nexusAlias ≠ officialId then do
    let aliases ← (fm.get "aliases").itemsOrNone
    let declared := L.str nexusAlias
    let aliases := if aliases.any (Yaml.isKey declared) then aliases else aliases ++ [.str declared]
    .ok ((fm.set "aliases" (.list aliases)).set "nexus_id" (.str declared))
  else .ok fm

/-- `parse_file(path, root)`, of a file with these bytes. -/
def parseFile (relPath : Text) (data : List UInt8) : Except Raised DocumentNode := do
  let raw ← L.readText data
  let (fm, body) ← splitFrontmatter L raw
  let name := fileName relPath
  let reserved := isReserved name
  let officialId := conceptId relPath
  let fm ← withNexusAlias L fm officialId
  let declaredType := L.str ((fm.get "type").orElse (.str []))
  let docType :=
    if reserved then
      if (fm.get "type").truthy then declaredType
      else if name = "index.md".toList then "index".toList
      else "log".toList
    else declaredType
  let title :=
    if (fm.get "title").truthy then L.str (fm.get "title")
    else L.title ((stem name).map fun c => if c = '-' then ' ' else c)
  .ok
    { relPath
      frontmatter := fm
      body
      id := officialId
      docType
      title
      sections := parseSections body
      links := parseLinks body
      reserved
      checksum := L.contentHash raw
      raw }

/-- A section id that is not among those seen: `base`, or the first free `base-n`. -/
def freshId (seen : List Text) (base : Text) : Text :=
  if base ∈ seen then
    let numbered := (List.range (seen.length + 1)).map fun n => base ++ s!"-{n + 2}".toList
    (numbered.find? fun id => id ∉ seen).getD base
  else base

def freshIds : List Text → List SectionNode → List SectionNode
  | _, [] => []
  | seen, s :: rest =>
    let id := freshId seen s.id
    { s with id } :: freshIds (seen ++ [id]) rest

def normalizeDocument (doc : DocumentNode) : DocumentNode :=
  let fm := doc.frontmatter
  let fm := if doc.docType ≠ [] then fm.setDefault "type" (.str doc.docType) else fm
  let fm := fm.setDefault "title" (.str doc.title)
  let fm := fm.setDefault "visibility" (.str "internal".toList)
  let fm := fm.setDefault "status" (.str "approved".toList)
  let fm := fm.setDefault "priority" (.int 50)
  let fm := fm.setDefault "tags" (.list [])
  let fm := fm.setDefault "aliases" (.list [])
  let fm := fm.setDefault "concept_id" (.str doc.id)
  { doc with
    frontmatter := fm
    docType := if (fm.get "type").truthy then L.str (fm.get "type") else doc.docType
    title := if (fm.get "title").truthy then L.str (fm.get "title") else doc.title
    sections := freshIds [] doc.sections }

/-- `normalize_document(parse_file(path, source_root))`. -/
def compileFile (relPath : Text) (data : List UInt8) : Except Raised DocumentNode :=
  (parseFile L relPath data).map (normalizeDocument L)

/-- A parsed and normalized document. -/
def Compiled (doc : DocumentNode) : Prop := ∃ relPath data, compileFile L relPath data = .ok doc

variable {L}

theorem parseFile_eq_ok {relPath : Text} {data : List UInt8} {doc : DocumentNode}
    (h : parseFile L relPath data = .ok doc) :
    doc.relPath = relPath ∧ doc.id = conceptId relPath := by
  unfold parseFile at h
  obtain ⟨raw, -, h⟩ := Except.bind_eq_ok.mp h
  obtain ⟨⟨fm, body⟩, -, h⟩ := Except.bind_eq_ok.mp h
  obtain ⟨fm', -, h⟩ := Except.bind_eq_ok.mp h
  cases h
  exact ⟨rfl, rfl⟩

theorem Compiled.id_eq {doc : DocumentNode} (h : Compiled L doc) :
    doc.id = conceptId doc.relPath := by
  obtain ⟨relPath, data, hFile⟩ := h
  obtain ⟨parsed, hParsed, rfl⟩ := Except.map_eq_ok.mp hFile
  obtain ⟨hRel, hId⟩ := parseFile_eq_ok hParsed
  show parsed.id = conceptId parsed.relPath
  rw [hId, hRel]

end Neuroswarm.Okf
