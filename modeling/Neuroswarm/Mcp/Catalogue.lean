import Neuroswarm.Mcp.Dispatch
import Neuroswarm.Mcp.TenantIsolation

/-!
# Tools and the servers that offer them

`reconcile_registry_ids` marks a tool if any server lists its name, a call goes to one server, and
a changed list marks and unmarks nothing. `offersCalled_iff` says in which histories of lists and
reconciliations a call that passes the checks still goes to a server that offers its tool.
-/

namespace Neuroswarm.Mcp

open Armcascade (Text isSpace)
open EStateM

-- ------ Histories

/-- What changes the marks and the lists: a `tools/list` that was received, in a handshake or after
a notification, and a reconciliation. -/
inductive CatalogueEvent where
  | listed (serverId : Text) (names : List Text)
  | reconciled (toolIds : List Text)

def Manager.receive (s : Manager) : CatalogueEvent → Manager
  | .listed serverId names =>
    { s with discoveredByServer := s.discoveredByServer.set serverId names }
  | .reconciled toolIds => (reconcileRegistryIds toolIds).after s

def latestList (serverId : Text) (events : List CatalogueEvent) : List Text :=
  events.foldl
    (fun latest event =>
      match event with
      | .listed id names => if serverId = id then names else latest
      | .reconciled _ => latest) []

/-- After these events every call that passes the checks goes to a server whose latest list has its
tool. -/
def OffersCalled (w : McpWorld) (events : List CatalogueEvent) : Prop :=
  ∀ c : ToolCall, c.requireReconciled → ∀ spec,
    w.dispatchedTo c (Run.exec Manager.receive {} events) = some spec →
      mcpToolName c.toolId ∈ latestList spec.serverId events

def Manager.listOf (s : Manager) (serverId : Text) : List Text :=
  (s.discoveredByServer.get? serverId).getD []

/-- A list has every marked tool whose calls go to its server. A reconciliation marks no tool that
the server its calls go to does not list. -/
def KeepsOffers (w : McpWorld) (s : Manager) : CatalogueEvent → Prop
  | .listed serverId names => ∀ toolId ∈ s.executableTools, ∀ spec,
      serverForTool w.process.casing toolId w.servers = some spec → spec.serverId = serverId →
        mcpToolName toolId ∈ names
  | .reconciled toolIds => ∀ toolId ∈ toolIds, ∀ spec,
      serverForTool w.process.casing toolId w.servers = some spec → mcpToolName toolId ≠ [] →
        (∃ serverId, mcpToolName toolId ∈ s.listOf serverId) →
          mcpToolName toolId ∈ s.listOf spec.serverId

-- ------ Lists

variable {w : McpWorld} {s : Manager}

theorem listOf_listed (s : Manager) (serverId id : Text) (names : List Text) :
    (s.receive (.listed id names)).listOf serverId =
      if serverId = id then names else s.listOf serverId := by
  unfold Manager.receive Manager.listOf
  rw [Dict.get?_set]
  split
  · rfl
  · rfl

theorem listOf_exec (serverId : Text) (events : List CatalogueEvent) :
    (Run.exec Manager.receive {} events).listOf serverId = latestList serverId events := by
  induction events using List.reverseRecOn with
  | nil => rfl
  | append_singleton events event ih =>
    unfold latestList at *
    rw [Run.exec_append, List.foldl_append, ← ih]
    cases event with
    | listed id names => exact listOf_listed _ serverId id names
    | reconciled toolIds => rfl

theorem mem_discovered {name : Text} :
    (∃ names ∈ s.discoveredByServer.values, name ∈ names) ↔
      ∃ serverId, name ∈ s.listOf serverId := by
  constructor
  · rintro ⟨names, hNames, hMem⟩
    obtain ⟨serverId, hGet⟩ := Dict.mem_values_iff.mp hNames
    refine ⟨serverId, ?_⟩
    rwa [Manager.listOf, hGet]
  · rintro ⟨serverId, hMem⟩
    unfold Manager.listOf at hMem
    cases hGet : s.discoveredByServer.get? serverId with
    | none =>
      rw [hGet] at hMem
      cases hMem
    | some names =>
      rw [hGet] at hMem
      exact ⟨names, Dict.mem_values_iff.mpr ⟨serverId, hGet⟩, hMem⟩

theorem executableTools_reconciled (s : Manager) (toolIds : List Text) :
    (s.receive (.reconciled toolIds)).executableTools = toolIds.filter fun tid =>
      mcpToolName tid ∈ s.discoveredByServer.values.flatten.filter (· ≠ []) := rfl

theorem mem_reconciled {toolIds : List Text} {toolId : Text} :
    toolId ∈ (s.receive (.reconciled toolIds)).executableTools ↔
      toolId ∈ toolIds ∧ mcpToolName toolId ≠ [] ∧
        ∃ serverId, mcpToolName toolId ∈ s.listOf serverId := by
  rw [executableTools_reconciled, List.mem_filter, decide_eq_true_eq, List.mem_filter,
    List.mem_flatten, mem_discovered, decide_eq_true_eq, and_comm (a := ∃ _, _)]

-- ------ Marks

def MarksOffered (w : McpWorld) (s : Manager) : Prop :=
  ∀ toolId ∈ s.executableTools, ∀ spec,
    serverForTool w.process.casing toolId w.servers = some spec →
      mcpToolName toolId ∈ s.listOf spec.serverId

theorem MarksOffered.receive {event : CatalogueEvent} (h : MarksOffered w s)
    (hKeeps : KeepsOffers w s event) : MarksOffered w (s.receive event) := by
  cases event with
  | listed serverId names =>
    intro toolId hMem spec hServer
    rw [listOf_listed]
    split
    · next hId => exact hKeeps toolId hMem spec hServer hId
    · exact h toolId hMem spec hServer
  | reconciled toolIds =>
    intro toolId hMem spec hServer
    obtain ⟨hAsked, hName, hListed⟩ := mem_reconciled.mp hMem
    exact hKeeps toolId hAsked spec hServer hName hListed

theorem keepsOffers_of_marksOffered {event : CatalogueEvent}
    (h : MarksOffered w (s.receive event)) : KeepsOffers w s event := by
  cases event with
  | listed serverId names =>
    intro toolId hMem spec hServer hId
    have hOffered := h toolId hMem spec hServer
    rwa [listOf_listed, if_pos hId] at hOffered
  | reconciled toolIds =>
    intro toolId hMem spec hServer hName hListed
    exact h toolId (mem_reconciled.mpr ⟨hMem, hName, hListed⟩) spec hServer

theorem along_marksOffered_iff (w : McpWorld) (events : List CatalogueEvent) :
    Run.Along Manager.receive (MarksOffered w) {} events ↔
      Run.Every Manager.receive (KeepsOffers w) {} events := by
  refine Run.along_iff_every (fun _ h => h) (fun _ _ => MarksOffered.receive)
    (fun s event _ hNot h => hNot (keepsOffers_of_marksOffered h)) ?_ events
  intro toolId hMem
  cases hMem

-- ------ Calls

theorem isExecutable_iff {toolId : Text} :
    s.isExecutable toolId = true ↔ toolId ∈ s.executableTools := by
  unfold Manager.isExecutable
  split
  · next hNone => simp [hNone]
  · exact decide_eq_true_iff

theorem offersCalled_iff_marksOffered (hEnabled : w.process.mcpExecuteEnabled)
    (events : List CatalogueEvent) :
    OffersCalled w events ↔ MarksOffered w (Run.exec Manager.receive {} events) := by
  unfold OffersCalled MarksOffered
  constructor
  · intro h toolId hMem spec hServer
    rw [listOf_exec]
    refine h { toolId, approve := some true } rfl spec ?_
    have hApproved : w.process.destructiveApproved (some true) := if_pos rfl
    rw [McpWorld.dispatchedTo, if_pos ⟨hEnabled, fun _ => isExecutable_iff.mpr hMem,
      fun _ => hApproved⟩]
    exact hServer
  · intro h c hReconciled spec hDispatched
    unfold McpWorld.dispatchedTo at hDispatched
    split at hDispatched
    · next hChecks =>
      rw [← listOf_exec]
      exact h c.toolId (isExecutable_iff.mp (hChecks.2.1 hReconciled)) spec hDispatched
    · cases hDispatched

/-- Calls go to servers that offer their tool, throughout a history, exactly if no call is executed
at all or each event keeps the marked tools at the servers that calls of them go to. -/
theorem offersCalled_iff (w : McpWorld) (events : List CatalogueEvent) :
    (∀ n, OffersCalled w (events.take n)) ↔
      (w.process.mcpExecuteEnabled → Run.Every Manager.receive (KeepsOffers w) {} events) := by
  by_cases hEnabled : w.process.mcpExecuteEnabled
  · rw [forall_prop_of_true hEnabled, ← along_marksOffered_iff, Run.along_iff_take]
    exact forall_congr' fun n => offersCalled_iff_marksOffered hEnabled _
  · refine iff_of_true (fun n c _ spec hDispatched => ?_) fun h => absurd h hEnabled
    rw [McpWorld.dispatchedTo, if_neg fun hChecks => hEnabled hChecks.1] at hDispatched
    cases hDispatched

-- ------ The programs of the manager

/-- The same marks and the same lists. -/
def SameCatalogue (s s' : Manager) : Prop :=
  s'.executableTools = s.executableTools ∧ s'.discoveredByServer = s.discoveredByServer

inductive CatalogueOp where
  | manage (op : ManagerOp)
  | callTool (c : ToolCall)
  | reconcile (toolIds : List Text)

def McpWorld.catalogueStep (w : McpWorld) (s : Manager) : CatalogueOp → Manager
  | .manage op => w.step s op
  | .callTool c => (w.callTool c).after s
  | .reconcile toolIds => (reconcileRegistryIds toolIds).after s

/-- From `s₀` there were events only. -/
def Received (s₀ s : Manager) : Prop :=
  ∃ events, SameCatalogue (Run.exec Manager.receive s₀ events) s

def githubWorld : McpWorld where
  process := { environ := Dict.empty.set (text "NSA_MCP_EXECUTE") (text "1") }
  servers := Dict.empty.set (text "github") { serverId := text "github" }

/-- The list changes, and the tool it no longer has stays marked. -/
theorem not_offersCalled_listChanged :
    ¬ ∀ n, OffersCalled githubWorld
      ([.listed (text "github") [text "search_issues"],
        .reconciled [text "github.search_issues"], .listed (text "github") []].take n) := by
  intro h
  have hOffered := h 3 { toolId := text "github.search_issues" } rfl
    { serverId := text "github" } (by decide +kernel)
  revert hOffered
  decide +kernel

end Neuroswarm.Mcp
