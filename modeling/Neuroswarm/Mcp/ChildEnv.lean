import Neuroswarm.Lib.Overlay
import Neuroswarm.Mcp.Casing

/-!
# The environment of a child process

`build_mcp_child_env` of `runtime/router/mcp_env.py`: what is let through for every server, the
variables of the server, the overlays of a tenant, `extra`, and the repository on `PYTHONPATH`.
-/

namespace Neuroswarm.Mcp

open Armcascade (Text isSpace)

def baseRuntime : List Text :=
  [text "PATH", text "PATHEXT", text "SYSTEMROOT", text "WINDIR", text "HOME",
    text "USERPROFILE", text "TMP", text "TEMP", text "TMPDIR", text "LANG", text "LC_ALL",
    text "PYTHONPATH", text "VIRTUAL_ENV", text "PLAYWRIGHT_BROWSERS_PATH",
    text "PLAYWRIGHT_SKIP_BROWSER_DOWNLOAD"]

def serverAllow : List (Text × List Text) :=
  [(text "github", [text "GITHUB_TOKEN", text "GITHUB_API"]),
    (text "slack", [text "SLACK_BOT_TOKEN"]),
    (text "postgres", [text "DATABASE_URL", text "DATABASE_URL_READONLY",
      text "NSA_MCP_PG_STATEMENT_TIMEOUT_MS", text "NSA_MCP_PG_MAX_RESULT_BYTES"]),
    (text "s3", [text "AWS_ACCESS_KEY_ID", text "AWS_SECRET_ACCESS_KEY",
      text "AWS_SESSION_TOKEN", text "AWS_REGION", text "AWS_DEFAULT_REGION", text "S3_BUCKET",
      text "AWS_S3_BUCKET", text "S3_ENDPOINT_URL"]),
    (text "browser", [text "NSA_MCP_BROWSER_HOST_ALLOWLIST",
      text "NSA_MCP_BROWSER_MAX_REDIRECTS", text "NSA_MCP_BROWSER_MAX_BYTES",
      text "NSA_MCP_TENANT_ID"]),
    (text "web-search", [text "SERPAPI_API_KEY", text "SERP_API_KEY", text "NSA_MCP_TENANT_ID",
      text "NSA_MCP_BROWSER_HOST_ALLOWLIST"])]

/-- `allowed`. -/
def allowedNames (serverId : Text) : List Text :=
  baseRuntime ++ (serverAllow.lookup serverId).getD []

/-- `key in allowed or (server_id == "s3" and key.startswith("AWS_"))`. -/
def passes (serverId key : Text) : Bool :=
  key ∈ allowedNames serverId ∨ (serverId = text "s3" ∧ (text "AWS_").isPrefixOf key)

/-- What the process has: its variables in their order, the separator of its paths, and the root
of the repository as the module's own path gives it. -/
structure ParentProcess where
  casing : Casing := .ascii
  environ : Dict Text Text := .empty
  pathsep : Char := ':'
  root : Text := []

/-- `NSA_MCP_TENANT_<tenant_id>_`. -/
def overlayPrefix (tenantId : Text) : Text := text "NSA_MCP_TENANT_" ++ tenantId ++ ['_']

/-- The names that the overlay `key` of a tenant is written to: none if it is no overlay of the
tenant. -/
def overlayNames (casing : Casing) (serverId tenantId key : Text) : List Text :=
  let short := key.drop (overlayPrefix tenantId).length
  if ¬ (casing.upper (overlayPrefix tenantId)).isPrefixOf (casing.upper key) ∨ short = [] then []
  else
    short :: (allowedNames serverId).filter (fun name => casing.upper name = casing.upper short) ++
      if casing.upper short ∈
          [text "BROWSER_HOST_ALLOWLIST", text "NSA_MCP_BROWSER_HOST_ALLOWLIST"] then
        [text "NSA_MCP_BROWSER_HOST_ALLOWLIST"]
      else []

/-- `out[name] = val` for these names. -/
def writeAll (out : Dict Text Text) (names : List Text) (val : Text) : Dict Text Text :=
  names.foldl (fun out name => out.set name val) out

/-- The variables that are let through. -/
def basePass (serverId : Text) (environ : Dict Text Text) : Dict Text Text :=
  environ.entries.foldl (fun out e => if passes serverId e.1 then out.set e.1 e.2 else out) .empty

def overlayPass (casing : Casing) (serverId tenantId : Text) (environ out : Dict Text Text) :
    Dict Text Text :=
  environ.entries.foldl
    (fun out e => writeAll out (overlayNames casing serverId tenantId e.1) e.2) out

/-- `PYTHONPATH` with the repository in it. -/
def withRepo (pathsep : Char) (repo prev : Text) : Text :=
  let parts := (prev.splitOn pathsep).filter (· ≠ [])
  [pathsep].intercalate (if repo ∈ parts then parts else repo :: parts)

namespace ParentProcess

variable (p : ParentProcess)

/-- `os.environ.get("NSA_REPO_ROOT")`, or the root of the module. -/
def repo : Text :=
  let own := (p.environ.get? (text "NSA_REPO_ROOT")).getD []
  if own = [] then p.root else own

/-- The environment before the repository is put on the path. -/
def childVariables (serverId : Text) (tenantId : Option Text) (extra : List (Text × Text)) :
    Dict Text Text :=
  let base := basePass serverId p.environ
  let tenant := tenantId.getD []
  let overlaid := if tenant = [] then base
    else overlayPass p.casing serverId tenant p.environ
      (base.set (text "NSA_MCP_TENANT_ID") tenant)
  extra.foldl (fun out e => if passes serverId e.1 then out.set e.1 e.2 else out) overlaid

def buildMcpChildEnv (serverId : Text) (tenantId : Option Text)
    (extra : List (Text × Text) := []) : Dict Text Text :=
  let out := p.childVariables serverId tenantId extra
  if p.repo = [] then out
  else out.set (text "PYTHONPATH")
    (withRepo p.pathsep p.repo ((out.get? (text "PYTHONPATH")).getD []))

end ParentProcess

-- ------ What the passes write

theorem get?_writeAll (out : Dict Text Text) (names : List Text) (val name : Text) :
    (writeAll out names val).get? name = if name ∈ names then some val else out.get? name := by
  unfold writeAll
  induction names generalizing out with
  | nil => simp
  | cons n names ih =>
    rw [List.foldl_cons, ih, Dict.get?_set]
    by_cases hMem : name ∈ names
    · simp [hMem]
    · simp [hMem]

def overlayValue (casing : Casing) (serverId tenantId name : Text) (e : Text × Text) :
    Option Text :=
  if name ∈ overlayNames casing serverId tenantId e.1 then some e.2 else none

theorem get?_overlayPass (casing : Casing) (serverId tenantId : Text)
    (environ out : Dict Text Text) (name : Text) :
    (overlayPass casing serverId tenantId environ out).get? name =
      overlay (out.get? name)
        (environ.entries.map (overlayValue casing serverId tenantId name)) := by
  unfold overlayPass
  induction environ.entries generalizing out with
  | nil => rfl
  | cons e entries ih =>
    rw [List.foldl_cons, ih, List.map_cons, overlay_cons, get?_writeAll, overlayValue]
    split
    · rfl
    · rfl

theorem get?_basePass (serverId : Text) (environ : Dict Text Text) (name : Text) :
    (basePass serverId environ).get? name =
      if passes serverId name then environ.get? name else none := by
  rw [basePass, Dict.get?_foldl_set_if environ.nodup, Dict.get?_empty, Option.or_none]
  rfl

end Neuroswarm.Mcp

/-!
## What an overlay can reach

When the environment of a child process holds only names its server may have, and when the
overlays of one tenant leave the environment of another alone: `isolates_iff`, for every process
environment and any two tenants.
-/

namespace Neuroswarm.Mcp

open Armcascade (Text isSpace)

-- ------ Names of overlays

def tableNames : List Text := baseRuntime ++ serverAllow.flatMap Prod.snd

theorem allowedNames_subset {serverId name : Text} (h : name ∈ allowedNames serverId) :
    name ∈ tableNames := by
  rcases List.mem_append.mp h with hBase | hServer
  · exact List.mem_append_left _ hBase
  · refine List.mem_append_right _ (List.mem_flatMap.mpr ?_)
    cases hLookup : serverAllow.lookup serverId with
    | none =>
      rw [hLookup] at hServer
      cases hServer
    | some names =>
      rw [hLookup] at hServer
      obtain ⟨before, after, hSplit, -⟩ := List.lookup_eq_some_iff.mp hLookup
      refine ⟨(serverId, names), ?_, hServer⟩
      rw [hSplit]
      exact List.mem_append_right _ List.mem_cons_self

theorem tableNames_underscore : tableNames.all (fun name =>
    !(text "NSA_MCP_TENANT_").isPrefixOf name || !(name.drop 15).contains '_') = true := by
  decide +kernel

theorem passes_of_mem {serverId key : Text} (h : key ∈ allowedNames serverId) :
    passes serverId key = true := by
  unfold passes
  exact decide_eq_true (.inl h)

theorem passes_pythonpath (serverId : Text) : passes serverId (text "PYTHONPATH") = true := by
  have hBase : text "PYTHONPATH" ∈ baseRuntime := by decide +kernel
  have hAllowed : text "PYTHONPATH" ∈ allowedNames serverId := List.mem_append_left _ hBase
  exact passes_of_mem hAllowed

theorem overlayPrefix_append (u k : Text) :
    overlayPrefix u ++ k = text "NSA_MCP_TENANT_" ++ (u ++ '_' :: k) := by
  rw [overlayPrefix, List.append_assoc, List.append_assoc, List.singleton_append]

theorem passes_overlay (serverId u k : Text) : passes serverId (overlayPrefix u ++ k) = false := by
  have hMark := overlayPrefix_append u k
  rw [passes, decide_eq_false_iff_not]
  rintro (hAllowed | ⟨-, hAws⟩)
  · have hTable := List.all_eq_true.mp tableNames_underscore _ (allowedNames_subset hAllowed)
    have hBegins : (text "NSA_MCP_TENANT_").isPrefixOf (overlayPrefix u ++ k) = true := by
      rw [hMark]
      exact List.isPrefixOf_iff_prefix.mpr (List.prefix_append _ _)
    have hRest : (overlayPrefix u ++ k).drop 15 = u ++ '_' :: k := by
      rw [hMark]
      exact List.drop_left' (by decide +kernel)
    rw [hBegins, hRest] at hTable
    simp at hTable
  · have hFour := List.prefix_iff_eq_take.mp (List.isPrefixOf_iff_prefix.mp hAws)
    have hLength : (text "AWS_").length ≤ (text "NSA_MCP_TENANT_").length := by decide +kernel
    rw [hMark, List.take_append_of_le_length hLength] at hFour
    exact absurd hFour (by decide +kernel)

theorem overlay_ne_root (u k : Text) : text "NSA_REPO_ROOT" ≠ overlayPrefix u ++ k := by
  intro h
  rw [overlayPrefix_append] at h
  have hFive := congrArg (List.take 5) h
  have hLength : 5 ≤ (text "NSA_MCP_TENANT_").length := by decide +kernel
  rw [List.take_append_of_le_length hLength] at hFive
  exact absurd hFive (by decide +kernel)

-- ------ The paths

theorem withRepo_of_path {pathsep : Char} (repo : Text) {path : Text} (hPath : path ≠ [])
    (hSep : pathsep ∉ path) :
    withRepo pathsep repo path = if repo = path then path else repo ++ pathsep :: path := by
  rw [withRepo, List.splitOn_eq_singleton hSep]
  by_cases hRepo : repo = path
  · simp [hPath, hRepo]
  · simp [hPath, hRepo, List.intercalate]

theorem exists_withRepo_ne (pathsep : Char) (repo : Text) :
    ∃ path path', withRepo pathsep repo path ≠ withRepo pathsep repo path' := by
  obtain ⟨c, hc⟩ : ∃ c : Char, pathsep ≠ c := by
    by_cases h : pathsep = 'a'
    · exact ⟨'b', by rw [h]; decide⟩
    · exact ⟨'a', h⟩
  refine ⟨[c], [c, c], fun hEq => ?_⟩
  rw [withRepo_of_path repo (by simp) (by simpa using hc),
    withRepo_of_path repo (by simp) (by simpa using hc)] at hEq
  have hLength := congrArg List.length hEq
  by_cases h₁ : repo = [c]
  · simp [h₁] at hLength
  · by_cases h₂ : repo = [c, c]
    · simp [h₂] at hLength
    · simp [h₁, h₂] at hLength

-- ------ Lookups in a child environment

namespace ParentProcess

variable (p : ParentProcess) (serverId : Text) {t : Text}

def belowOverlays (t name : Text) : Option Text :=
  ((basePass serverId p.environ).set (text "NSA_MCP_TENANT_ID") t).get? name

theorem get?_childVariables (ht : t ≠ []) (name : Text) :
    (p.childVariables serverId (some t) []).get? name =
      overlay (p.belowOverlays serverId t name)
        (p.environ.entries.map (overlayValue p.casing serverId t name)) := by
  unfold childVariables
  dsimp only [Option.getD_some, List.foldl_nil]
  rw [if_neg ht, get?_overlayPass]
  rfl

def finished (name value : Text) : Text :=
  if p.repo ≠ [] ∧ name = text "PYTHONPATH" then withRepo p.pathsep p.repo value else value

theorem get?_build (tenantId : Option Text) (name : Text) :
    (p.buildMcpChildEnv serverId tenantId).get? name =
      if p.repo ≠ [] ∧ name = text "PYTHONPATH" then
        some (p.finished name (((p.childVariables serverId tenantId []).get? name).getD []))
      else (p.childVariables serverId tenantId []).get? name := by
  unfold buildMcpChildEnv finished
  by_cases hRepo : p.repo = []
  · simp [hRepo]
  · by_cases hName : name = text "PYTHONPATH"
    · simp [hRepo, hName]
    · simp [hRepo, hName, Dict.get?_set_ne]

theorem get?_build_of_some {tenantId : Option Text} {name value : Text}
    (h : (p.childVariables serverId tenantId []).get? name = some value) :
    (p.buildMcpChildEnv serverId tenantId).get? name = some (p.finished name value) := by
  rw [get?_build, h]
  split
  · rfl
  · next hPath => rw [finished, if_neg hPath]

-- ------ Isolation

/-- The name may stand in the environment of the server's process. -/
def IsAllowedKey (serverId name : Text) : Prop :=
  passes serverId name ∨ name = text "NSA_MCP_TENANT_ID"

/-- The same process with another value of a variable. -/
def setenv (key value : Text) : ParentProcess := { p with environ := p.environ.set key value }

/-- The environment of tenant `t` has allowed names only, and no overlay of tenant `u` that names
a key allowed for the server plays a part in it. -/
structure Isolates (t u : Text) : Prop where
  keys : ∀ name, ((p.buildMcpChildEnv serverId (some t)).get? name).isSome →
    IsAllowedKey serverId name
  unchanged : ∀ key, passes serverId key → ∀ value name,
    ((p.setenv (overlayPrefix u ++ key) value).buildMcpChildEnv serverId (some t)).get? name =
      (p.buildMcpChildEnv serverId (some t)).get? name

/-- The variable is no overlay of the tenant, or it stands before overlays that write all it
writes. -/
def HasNoEffect (t overlayName : Text) : Prop :=
  overlayNames p.casing serverId t overlayName = [] ∨
    ∃ before value after, p.environ.entries = before ++ (overlayName, value) :: after ∧
      ∀ name ∈ overlayNames p.casing serverId t overlayName,
        ∃ e ∈ after, name ∈ overlayNames p.casing serverId t e.1

/-- What the overlays of tenant `t` have to be like. -/
structure KeepsOverlaysApart (t u : Text) : Prop where
  named : ∀ e ∈ p.environ.entries, ∀ name ∈ overlayNames p.casing serverId t e.1,
    IsAllowedKey serverId name
  others : ∀ key, passes serverId key → p.HasNoEffect serverId t (overlayPrefix u ++ key)

variable {p serverId}

theorem isSome_belowOverlays {name : Text} (h : (p.belowOverlays serverId t name).isSome) :
    IsAllowedKey serverId name := by
  unfold belowOverlays at h
  rw [Dict.get?_set, get?_basePass] at h
  split at h
  · next hTenant => exact .inr hTenant
  · split at h
    · next hPass => exact .inl hPass
    · cases h

theorem isSome_childVariables (ht : t ≠ []) {name : Text} :
    ((p.childVariables serverId (some t) []).get? name).isSome ↔
      (p.belowOverlays serverId t name).isSome ∨
        ∃ e ∈ p.environ.entries, name ∈ overlayNames p.casing serverId t e.1 := by
  rw [get?_childVariables _ _ ht, overlay_isSome]
  have hValue : ∀ e : Text × Text, (overlayValue p.casing serverId t name e).isSome ↔
      name ∈ overlayNames p.casing serverId t e.1 := by
    intro e
    unfold overlayValue
    split
    · next h => simp [h]
    · next h => simp [h]
  simp only [List.mem_map, exists_exists_and_eq_and, hValue]

theorem keys_iff (ht : t ≠ []) :
    (∀ name, ((p.buildMcpChildEnv serverId (some t)).get? name).isSome →
      IsAllowedKey serverId name) ↔
      ∀ e ∈ p.environ.entries, ∀ name ∈ overlayNames p.casing serverId t e.1,
        IsAllowedKey serverId name := by
  constructor
  · intro hKeys e he name hName
    have hSome := (isSome_childVariables (p := p) ht).mpr (.inr ⟨e, he, hName⟩)
    obtain ⟨value, hValue⟩ := Option.isSome_iff_exists.mp hSome
    refine hKeys name ?_
    rw [p.get?_build_of_some serverId hValue]
    rfl
  · intro hNamed name hSome
    rw [get?_build] at hSome
    split at hSome
    · next hPath => exact .inl (hPath.2 ▸ passes_pythonpath serverId)
    · rcases (isSome_childVariables ht).mp hSome with hBelow | ⟨e, he, hName⟩
      · exact isSome_belowOverlays hBelow
      · exact hNamed e he name hName

theorem repo_setenv (u key value : Text) :
    (p.setenv (overlayPrefix u ++ key) value).repo = p.repo := by
  unfold repo setenv
  dsimp only
  rw [Dict.get?_set_ne _ _ (overlay_ne_root u key)]

theorem belowOverlays_setenv (t u key value name : Text) :
    (p.setenv (overlayPrefix u ++ key) value).belowOverlays serverId t name =
      p.belowOverlays serverId t name := by
  unfold belowOverlays setenv
  dsimp only
  rw [Dict.get?_set, Dict.get?_set, get?_basePass, get?_basePass, Dict.get?_set]
  by_cases hName : name = overlayPrefix u ++ key
  · rw [hName, passes_overlay]
    rfl
  · rw [if_neg hName]

variable {u key : Text}

theorem get?_setenv_of_none (ht : t ≠ []) (h : p.environ.get? (overlayPrefix u ++ key) = none)
    (value name : Text) :
    ((p.setenv (overlayPrefix u ++ key) value).childVariables serverId (some t) []).get? name =
      (overlayValue p.casing serverId t name (overlayPrefix u ++ key, value)).or
        ((p.childVariables serverId (some t) []).get? name) := by
  rw [get?_childVariables _ _ ht, get?_childVariables _ _ ht, belowOverlays_setenv]
  show overlay _ ((p.environ.set (overlayPrefix u ++ key) value).entries.map _) = _
  rw [Dict.entries_set_of_none h, List.map_append, List.map_singleton, overlay_concat]
  rfl

theorem get?_setenv_of_entries (ht : t ≠ []) {before after : List (Text × Text)} {old : Text}
    (h : p.environ.entries = before ++ (overlayPrefix u ++ key, old) :: after)
    (value name : Text) :
    ((p.setenv (overlayPrefix u ++ key) value).childVariables serverId (some t) []).get? name =
      overlay ((overlayValue p.casing serverId t name (overlayPrefix u ++ key, value)).or
          (overlay (p.belowOverlays serverId t name)
            (before.map (overlayValue p.casing serverId t name))))
        (after.map (overlayValue p.casing serverId t name)) := by
  rw [get?_childVariables _ _ ht, belowOverlays_setenv]
  show overlay _ ((p.environ.set (overlayPrefix u ++ key) value).entries.map _) = _
  rw [Dict.entries_set_of_entries h, List.map_append, List.map_cons, overlay_append, overlay_cons]
  rfl

theorem get?_of_entries (ht : t ≠ []) {before after : List (Text × Text)} {v old : Text}
    (h : p.environ.entries = before ++ (v, old) :: after) (name : Text) :
    (p.childVariables serverId (some t) []).get? name =
      overlay ((overlayValue p.casing serverId t name (v, old)).or
          (overlay (p.belowOverlays serverId t name)
            (before.map (overlayValue p.casing serverId t name))))
        (after.map (overlayValue p.casing serverId t name)) := by
  rw [get?_childVariables _ _ ht, h, List.map_append, List.map_cons, overlay_append, overlay_cons]

theorem overlayValue_of_mem {casing : Casing} {name v : Text} (value : Text)
    (h : name ∈ overlayNames casing serverId t v) :
    overlayValue casing serverId t name (v, value) = some value := if_pos h

theorem overlayValue_of_notMem {casing : Casing} {name v : Text} (value : Text)
    (h : name ∉ overlayNames casing serverId t v) :
    overlayValue casing serverId t name (v, value) = none := if_neg h

theorem childVariables_setenv (ht : t ≠ [])
    (h : p.HasNoEffect serverId t (overlayPrefix u ++ key)) (value name : Text) :
    ((p.setenv (overlayPrefix u ++ key) value).childVariables serverId (some t) []).get? name =
      (p.childVariables serverId (some t) []).get? name := by
  by_cases hName : name ∈ overlayNames p.casing serverId t (overlayPrefix u ++ key)
  · rcases h with hNone | ⟨before, old, after, hEntries, hLater⟩
    · rw [hNone] at hName
      cases hName
    · obtain ⟨e, he, hWrites⟩ := hLater name hName
      rw [get?_setenv_of_entries ht hEntries, get?_of_entries ht hEntries]
      refine overlay_of_isSome ⟨_, List.mem_map_of_mem he, ?_⟩ _ _
      rw [overlayValue, if_pos hWrites]
      rfl
  · cases hOld : p.environ.get? (overlayPrefix u ++ key) with
    | none =>
      rw [get?_setenv_of_none ht hOld, overlayValue_of_notMem _ hName, Option.none_or]
    | some old =>
      obtain ⟨before, after, hEntries⟩ := List.append_of_mem (Dict.mem_entries_iff.mpr hOld)
      rw [get?_setenv_of_entries ht hEntries, get?_of_entries ht hEntries,
        overlayValue_of_notMem _ hName, overlayValue_of_notMem _ hName]

theorem exists_shown (ht : t ≠ [])
    (h : ¬ p.HasNoEffect serverId t (overlayPrefix u ++ key)) :
    ∃ name, ∀ value,
      ((p.setenv (overlayPrefix u ++ key) value).childVariables serverId (some t) []).get? name =
        some value := by
  unfold HasNoEffect at h
  obtain ⟨hNames, hCovered⟩ := not_or.mp h
  cases hOld : p.environ.get? (overlayPrefix u ++ key) with
  | none =>
    obtain ⟨name, hName⟩ := List.exists_mem_of_ne_nil _ hNames
    refine ⟨name, fun value => ?_⟩
    rw [get?_setenv_of_none ht hOld, overlayValue_of_mem _ hName, Option.some_or]
  | some old =>
    obtain ⟨before, after, hEntries⟩ := List.append_of_mem (Dict.mem_entries_iff.mpr hOld)
    by_contra hNone
    push Not at hNone
    refine hCovered ⟨before, old, after, hEntries, fun name hName => ?_⟩
    by_contra hLast
    obtain ⟨value, hValue⟩ := hNone name
    refine hValue ?_
    rw [get?_setenv_of_entries ht hEntries, overlayValue_of_mem _ hName, Option.some_or]
    refine overlay_of_forall_none fun v hv => ?_
    obtain ⟨e, he, rfl⟩ := List.mem_map.mp hv
    exact if_neg fun hWrites => hLast ⟨e, he, hWrites⟩

theorem exists_finished_ne (name : Text) :
    ∃ value value', p.finished name value ≠ p.finished name value' := by
  unfold finished
  by_cases hPath : p.repo ≠ [] ∧ name = text "PYTHONPATH"
  · simp only [if_pos hPath]
    exact exists_withRepo_ne p.pathsep p.repo
  · simp only [if_neg hPath]
    exact ⟨[], ['a'], by simp⟩

theorem unchanged_iff (ht : t ≠ []) :
    (∀ key, passes serverId key → ∀ value name,
      ((p.setenv (overlayPrefix u ++ key) value).buildMcpChildEnv serverId (some t)).get? name =
        (p.buildMcpChildEnv serverId (some t)).get? name) ↔
      ∀ key, passes serverId key → p.HasNoEffect serverId t (overlayPrefix u ++ key) := by
  constructor
  · intro hUnchanged key hKey
    by_contra hEffect
    obtain ⟨name, hShown⟩ := exists_shown ht hEffect
    obtain ⟨value, value', hNe⟩ := p.exists_finished_ne name
    have hFinished : ∀ value, (p.buildMcpChildEnv serverId (some t)).get? name =
        some (p.finished name value) := by
      intro value
      rw [← hUnchanged key hKey value name, get?_build_of_some _ _ (hShown value), finished,
        finished, repo_setenv]
      rfl
    have hSame := (hFinished value).symm.trans (hFinished value')
    exact hNe (Option.some.inj hSame)
  · intro hNone key hKey value name
    rw [get?_build, get?_build, childVariables_setenv ht (hNone key hKey), finished, finished,
      repo_setenv]
    rfl

/-- A tenant's environment holds allowed names only and is left alone by another tenant's
overlays iff the overlays that count for it name allowed keys only and the other tenant's do not
count. -/
theorem isolates_iff (p : ParentProcess) (serverId : Text) {t : Text} (ht : t ≠ []) (u : Text) :
    p.Isolates serverId t u ↔ p.KeepsOverlaysApart serverId t u := by
  constructor
  · rintro ⟨hKeys, hUnchanged⟩
    exact ⟨(keys_iff ht).mp hKeys, (unchanged_iff ht).mp hUnchanged⟩
  · rintro ⟨hNamed, hOthers⟩
    exact ⟨(keys_iff ht).mpr hNamed, (unchanged_iff ht).mpr hOthers⟩

def twoTenants : ParentProcess where
  environ := Dict.empty.set (text "NSA_MCP_TENANT_acme_eu_GITHUB_TOKEN") (text "secret")

/-- The statement for that process and the tenant "acme". -/
theorem isolates_iff_twoTenants :
    twoTenants.Isolates (text "github") (text "acme") (text "acme_eu") ↔
      twoTenants.KeepsOverlaysApart (text "github") (text "acme") (text "acme_eu") :=
  isolates_iff _ _ (by decide +kernel) _

/-- The token of "acme_eu" is in the environment built for "acme", as "eu_GITHUB_TOKEN", and
changes with the variable. -/
theorem not_isolates_twoTenants :
    (twoTenants.buildMcpChildEnv (text "github") (some (text "acme"))).get?
        (text "eu_GITHUB_TOKEN") = some (text "secret") ∧
      ((twoTenants.setenv (overlayPrefix (text "acme_eu") ++ text "GITHUB_TOKEN")
        (text "other")).buildMcpChildEnv (text "github") (some (text "acme"))).get?
        (text "eu_GITHUB_TOKEN") = some (text "other") ∧
      ¬ twoTenants.Isolates (text "github") (text "acme") (text "acme_eu") := by
  have hToken : (twoTenants.buildMcpChildEnv (text "github") (some (text "acme"))).get?
      (text "eu_GITHUB_TOKEN") = some (text "secret") := by decide +kernel
  refine ⟨hToken, by decide +kernel, fun h => ?_⟩
  have hAllowed := h.keys (text "eu_GITHUB_TOKEN") (by rw [hToken]; rfl)
  exact absurd hAllowed (by unfold IsAllowedKey; decide +kernel)

end ParentProcess

end Neuroswarm.Mcp
