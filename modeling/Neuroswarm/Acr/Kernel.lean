import Mathlib.Algebra.Order.Ring.Rat
import Mathlib.Data.List.Infix
import Mathlib.Data.List.MinMax
import Neuroswarm.Lib.Dict
import Neuroswarm.Mcp.Casing

/-!
# Adaptive context runtime — `build_context` and its cache

The stages between a query and the items that go into the prompt (understanding, planning,
retrieval, scoring, compression) are arguments of the runtime's constructor, and a parameter
here: `Stages` says what each one reads. `graph.request_id` and `graph.metadata` are only
copied by them, and are left out with `plan_id`, provenance, statistics and versions, which
no prompt contains. The assembly of the prompt, the key and the cache are the source's.
-/

namespace Neuroswarm.Acr

open Armcascade (Text isSpace split unwords isBlank)

-- ------ Assembly

structure MemoryItem where
  content : Text
  memoryType : Text
  ns : Text

inductive KnowledgeKind where
  | knowledge
  | toolDocs
  | policy
  deriving DecidableEq

structure KnowledgeItem where
  content : Text
  kind : KnowledgeKind

def tokens (text : Text) : ℕ := max 1 (split text).length

/-- `sep.join(parts)`. -/
def joined (sep : String) (parts : List Text) : Text := sep.toList.intercalate parts

/-- `_from_mem(memory, memory_type, title)`: the text of the section. -/
def fromMem (items : List MemoryItem) (memoryType : Option String) (title : String) :
    Option Text :=
  let items := match memoryType with
    | none => items
    | some t => items.filter fun i => t.toList <:+: i.memoryType ∨ t.toList <:+: i.ns
  if items.isEmpty then none
  else some (s!"## {title}\n".toList ++
    joined "\n" (items.map fun i => "- ".toList ++ i.content))

/-- `_from_know(knowledge, kind, title)`: the text of the section. -/
def fromKnow (items : List KnowledgeItem) (kinds : List KnowledgeKind) (title : String) :
    Option Text :=
  let items := items.filter fun i => i.kind ∈ kinds
  if items.isEmpty then none
  else some (s!"## {title}\n".toList ++ joined "\n\n" (items.map KnowledgeItem.content))

/-- `_tools(knowledge, tool_prompt_block)`: the text of the section. -/
def toolsSection (items : List KnowledgeItem) (toolPromptBlock : Text) : Option Text :=
  let docs := (items.filter fun i => i.kind = .toolDocs).map KnowledgeItem.content
  let parts := if toolPromptBlock = [] then docs else toolPromptBlock :: docs
  if parts.isEmpty then none
  else some ("## Tool Documentation (OKF)\n".toList ++ joined "\n\n" parts)

/-- The sections that are there, in `section_order`. It starts with the sections of the stable
prefix, so that `stable_prefix` changes nothing. -/
def sectionTexts (memory : List MemoryItem) (knowledge : List KnowledgeItem)
    (intent agentRole toolPromptBlock : Text) : List Text :=
  let instructions :=
    "## Task Intent\nIntent: ".toList ++ intent ++ "\nRole: ".toList ++ agentRole
  [some instructions,
    fromKnow knowledge [.policy] "Institutional Policies",
    fromKnow knowledge [.knowledge, .policy] "Institutional Knowledge (OKF)",
    fromMem memory none "Recent Facts (Mem0)",
    fromMem memory (some "reflection") "Reflections",
    fromMem memory (some "reasoning") "Reasoning Traces",
    toolsSection knowledge toolPromptBlock,
    fromMem memory (some "examples") "Examples",
    fromMem memory (some "workflow") "Workflows"].filterMap id

/-- The loop over the sections: the first one stays whole, a later one is cut to the words that
the budget has left, and with less than 20 left the loop ends. -/
def link (budget : ℤ) : List Text → ℤ → List Text → List Text
  | [], _, linked => linked
  | text :: rest, used, linked =>
    if isBlank text then link budget rest used linked
    else if budget < used + tokens text ∧ linked ≠ [] then
      if budget - used < 20 then linked
      else
        let text := unwords ((split text).take (budget - used).toNat)
        link budget rest (used + tokens text) (linked ++ [text])
    else link budget rest (used + tokens text) (linked ++ [text])

def assemble (memory : List MemoryItem) (knowledge : List KnowledgeItem) (budget : ℤ)
    (intent agentRole toolPromptBlock : Text) : Text :=
  let linked := link budget (sectionTexts memory knowledge intent agentRole toolPromptBlock) 0 []
  joined "\n\n" (linked.filter (· ≠ []))

-- ------ Requests and the pipeline

/-- The stages before assembly, with the stores as they are. -/
structure Stages (Analysis Plan : Type) where
  /-- `understanding.understand(query, agent_role=agent_role, ...)`. -/
  understand : Text → Text → Analysis
  intent : Analysis → Text
  agentRole : Analysis → Text
  /-- `planner.plan(graph, token_budget=budget, ...)`. -/
  plan : Analysis → ℤ → Plan
  /-- `memory_adapter.retrieve(plan, owner)`. -/
  remember : Plan → Text → List MemoryItem
  /-- `knowledge_adapter.retrieve(plan, agent_profile=agent_role, tool_names=tool_names)`. -/
  query : Plan → Text → List Text → List KnowledgeItem
  /-- Scoring and compression. -/
  refine : Analysis → ℤ → List MemoryItem → List KnowledgeItem →
    List MemoryItem × List KnowledgeItem

/-- The arguments of `build_context`. No tool names are as good as an empty list of them. -/
structure Request (Metadata : Type) where
  query : Text
  owner : Text := "default".toList
  agentRole : Text := "architect".toList
  requestId : Text := []
  toolNames : List Text := []
  toolPromptBlock : Text := []
  tokenBudget : Option ℤ := none
  metadata : Option Metadata := none
  useCache : Bool := true

/-- What the pipeline reads of a request. -/
structure Reads where
  query : Text
  owner : Text
  agentRole : Text
  toolNames : List Text
  toolPromptBlock : Text
  budget : ℤ
  deriving DecidableEq

structure Config where
  enabled : Bool := true
  tokenBudget : ℤ := 2000
  cacheEnabled : Bool := true

variable {Analysis Plan Metadata : Type}

namespace Request

/-- `token_budget if token_budget is not None else self.config.token_budget`. -/
def budget (r : Request Metadata) (cfg : Config) : ℤ := r.tokenBudget.getD cfg.tokenBudget

def reads (r : Request Metadata) (cfg : Config) : Reads :=
  { query := r.query
    owner := r.owner
    agentRole := r.agentRole
    toolNames := r.toolNames
    toolPromptBlock := r.toolPromptBlock
    budget := r.budget cfg }

def fingerprintText (r : Request Metadata) (cfg : Config) : Text :=
  joined "|" [r.query, r.owner, r.agentRole, (toString (r.budget cfg)).toList,
    joined "," r.toolNames]

end Request

/-- The prompt of a request from the stores as they are. -/
def Stages.prompt (stages : Stages Analysis Plan) (reads : Reads) : Text :=
  let graph := stages.understand reads.query reads.agentRole
  let plan := stages.plan graph reads.budget
  let memory := stages.remember plan reads.owner
  let knowledge := stages.query plan reads.agentRole reads.toolNames
  let (memory, knowledge) := stages.refine graph reads.budget memory knowledge
  assemble memory knowledge reads.budget (stages.intent graph) (stages.agentRole graph)
    reads.toolPromptBlock

-- ------ The cache

/-- SHA-256 of a text, cut to its first 24 and to its first 32 digits. -/
structure Digests where
  fingerprint : Text → Text
  digest : Text → Text

structure Digests.CollisionFree (sha : Digests) : Prop where
  fingerprint : Function.Injective sha.fingerprint
  noBar : ∀ text, '|' ∉ sha.fingerprint text
  digest : Function.Injective sha.digest

structure ContextCacheKey where
  tier : Text
  requestFingerprint : Text
  planHash : Text := []
  versionHash : Text := []
  owner : Text := []
  agentRole : Text := []

/-- `digest()`. The kernel gives no `extra`, whose text is `[]` then. -/
def ContextCacheKey.digest (sha : Digests) (key : ContextCacheKey) : Text :=
  sha.digest (joined "|" [key.tier, key.requestFingerprint, key.planHash, key.versionHash,
    key.owner, key.agentRole, "[]".toList])

structure ContextSnapshot where
  requestId : Text
  prompt : Text
  cacheHit : Bool := false
  deriving DecidableEq

structure CacheEntry where
  snapshot : ContextSnapshot
  created : ℚ
  hits : ℕ := 0

inductive EvictionPolicy where
  | lru
  | lfu
  deriving DecidableEq

structure ContextCache where
  maxEntries : ℕ
  ttlS : ℚ
  policy : EvictionPolicy
  store : Dict Text CacheEntry
  hits : ℕ
  misses : ℕ

namespace ContextCache

def new (maxEntries : ℕ) (ttlS : ℚ) (policy : EvictionPolicy) : ContextCache :=
  { maxEntries, ttlS, policy, store := Dict.empty, hits := 0, misses := 0 }

/-- `get(key_digest)`, at this reading of the clock. -/
def get (c : ContextCache) (key : Text) (now : ℚ) : Option ContextSnapshot × ContextCache :=
  match c.store.get? key with
  | none => (none, { c with misses := c.misses + 1 })
  | some entry =>
    if 0 < c.ttlS ∧ c.ttlS < now - entry.created then
      (none, { c with store := c.store.erase key, misses := c.misses + 1 })
    else
      let snapshot := { entry.snapshot with cacheHit := true }
      let store := c.store.set key { entry with snapshot, hits := entry.hits + 1 }
      (some snapshot,
        { c with
          store := if c.policy = .lru then store.moveToEnd key else store
          hits := c.hits + 1 })

/-- The entry that `_evict` drops. -/
def victim (c : ContextCache) : Option Text :=
  match c.policy with
  | .lru => c.store.keys.head?
  | .lfu => (c.store.entries.argmin fun e => e.2.hits).map Prod.fst

/-- The loop of `_evict`, in at most `n` passes. -/
def evict : ℕ → ContextCache → ContextCache
  | 0, c => c
  | n + 1, c =>
    if c.maxEntries < c.store.size then
      match c.victim with
      | none => c
      | some key => evict n { c with store := c.store.erase key }
    else c

/-- `put(key_digest, snapshot)`, at this reading of the clock. -/
def put (c : ContextCache) (key : Text) (snapshot : ContextSnapshot) (now : ℚ) : ContextCache :=
  let store := (c.store.set key { snapshot, created := now }).moveToEnd key
  evict store.size { c with store }

end ContextCache

-- ------ The kernel

/-- A call, with the readings of the clock where the cache is read and where it is written. -/
structure Call (Metadata : Type) where
  request : Request Metadata
  now : ℚ
  later : ℚ

def Request.key (sha : Digests) (cfg : Config) (r : Request Metadata) : Text :=
  ContextCacheKey.digest sha
    { tier := "hot".toList
      requestFingerprint := sha.fingerprint (r.fingerprintText cfg)
      owner := r.owner
      agentRole := r.agentRole }

def buildContext (sha : Digests) (stages : Stages Analysis Plan) (cfg : Config)
    (cache : ContextCache) (call : Call Metadata) : ContextSnapshot × ContextCache :=
  let r := call.request
  if cfg.enabled then
    let cached := r.useCache && cfg.cacheEnabled
    let key := r.key sha cfg
    let (hit, cache) := if cached then cache.get key call.now else (none, cache)
    match hit with
    | some snapshot => (snapshot, cache)
    | none =>
      let requestId :=
        if r.requestId = [] then sha.fingerprint (r.fingerprintText cfg) else r.requestId
      let snapshot := { requestId, prompt := stages.prompt (r.reads cfg) }
      (snapshot, if cached then cache.put key snapshot call.later else cache)
  else
    ({ requestId := if r.requestId = [] then "disabled".toList else r.requestId, prompt := [] },
      cache)

end Neuroswarm.Acr
