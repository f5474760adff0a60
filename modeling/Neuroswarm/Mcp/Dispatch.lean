import Mathlib.Data.Char
import Mathlib.Data.List.Infix
import Mathlib.Data.List.Lex
import Neuroswarm.Mcp.Manager
import Neuroswarm.Mcp.Stability

/-!
# Calls of tools

`call_tool` of `runtime/router/mcp_executor.py` with what it asks before it calls: the server and
the name of a tool, the reconciliation of tool ids, and the approval of destructive tools from
`mcp_env.py`.
-/

namespace Neuroswarm.Mcp

open Armcascade (Text isSpace)

-- ------ Names

def toolNameAliases : List (Text × Text) :=
  [(text "send_message", text "post_message"), (text "open_page", text "navigate"),
    (text "list_objects_v2", text "list_objects"), (text "extract", text "extract_links")]

/-- What follows the first dot, or the whole id. -/
def leaf (toolId : Text) : Text :=
  if '.' ∈ toolId then (toolId.dropWhile (· ≠ '.')).drop 1 else toolId

def mcpToolName (toolId : Text) : Text := (toolNameAliases.lookup (leaf toolId)).getD (leaf toolId)

/-- The server with the name that stands before the first dot. -/
def serverForPrefix (tid : Text) (servers : Dict Text McpServerSpec) : Option McpServerSpec :=
  if '.' ∈ tid then
    let head := tid.takeWhile (· ≠ '.')
    if head = text "web" ∧ servers.contains (text "web-search") then
      servers.get? (text "web-search")
    else servers.get? head
  else none

def namedIn (tid sid : Text) : Bool :=
  tid = sid ∨ (sid.map (fun c => if c = '-' then '.' else c) ++ ['.']) <+: tid ∨ sid <:+: tid

def serverForTool (casing : Casing) (toolId : Text) (servers : Dict Text McpServerSpec) :
    Option McpServerSpec :=
  let tid := casing.lower toolId
  (serverForPrefix tid servers).or
    ((servers.entries.find? fun e => namedIn tid e.1).map Prod.snd)

-- ------ Reconciliation

def reconcileRegistryIds (toolIds : List Text) : ManagerM (List Text) :=
  modifyGet fun s =>
    let discovered := s.discoveredByServer.values.flatten.filter (· ≠ [])
    let executable := toolIds.filter fun tid => mcpToolName tid ∈ discovered
    (executable, { s with executableTools := executable })

def Manager.isExecutable (s : Manager) (toolId : Text) : Bool :=
  -- before any reconcile nothing is executable
  if s.executableTools = [] then false else toolId ∈ s.executableTools

-- ------ Approval

/-- The arguments that the policy looks at: `str(args.get("method", ""))`, and whether `overwrite`
is `True`. -/
structure Arguments where
  method : Text := []
  overwrite : Bool := false

def destructiveTools : List Text :=
  [text "execute", text "insert_row", text "create_index", text "put_object", text "copy_object",
    text "delete_object", text "create_issue", text "upload_file", text "set_topic",
    text "add_reaction", text "post_message", text "send_message", text "type_text", text "click"]

def toolRequiresDestructiveApproval (casing : Casing) (toolId : Text) (arguments : Arguments) :
    Bool :=
  if leaf toolId ∈ destructiveTools then true
  else if leaf toolId = text "presign_url" ∧
      casing.lower arguments.method = text "put_object" then true
  else if leaf toolId ∈ [text "put_object", text "copy_object"] ∧ arguments.overwrite then true
  else false

/-- `raw in {"1", "true", "True", "yes", "YES"}`, for a variable of the process. -/
def ParentProcess.switchedOn (p : ParentProcess) (name : Text) : Bool :=
  (p.environ.get? name).getD [] ∈ [text "1", text "true", text "True", text "yes", text "YES"]

def ParentProcess.mcpExecuteEnabled (p : ParentProcess) : Bool :=
  p.switchedOn (text "NSA_MCP_EXECUTE")

def ParentProcess.destructiveApproved (p : ParentProcess) (approve : Option Bool) : Bool :=
  if approve = some true then true else p.switchedOn (text "NSA_MCP_APPROVE_DESTRUCTIVE")

-- ------ The call

/-- The arguments of `call_tool`. -/
structure ToolCall where
  toolId : Text
  arguments : Arguments := {}
  approve : Option Bool := none
  tenantId : Option Text := none
  requireReconciled : Bool := true

/-- The replies of `call_tool`. -/
inductive ToolReply where
  | refused (error : String) (detail : Option String) (toolId : Text)
  | unmapped (error : String) (toolId : Text) (servers : List Text)
  | called (result : CallResult) (toolId mcpTool : Text)
  | raised (error : String) (toolId server mcpTool : Text)

namespace McpWorld

variable (w : McpWorld)

/-- `tool_requires_destructive_approval` for a call. -/
def needsApproval (c : ToolCall) : Bool :=
  toolRequiresDestructiveApproval w.process.casing c.toolId c.arguments

/-- The part of `call_tool` behind the checks. -/
def dispatch (c : ToolCall) (spec : McpServerSpec) : ManagerM ToolReply :=
  tryCatch
    (do
      let out ← w.call spec (mcpToolName c.toolId) c.tenantId
      pure (.called out c.toolId (mcpToolName c.toolId)))
    fun
      | .failed message => pure (.raised message c.toolId spec.serverId (mcpToolName c.toolId))
      | .cancelled => throw .cancelled

def callTool (c : ToolCall) : ManagerM ToolReply := do
  let s ← get
  let id := String.ofList c.toolId
  if ¬ w.process.mcpExecuteEnabled then
    pure (.refused
      "MCP execute disabled. Set NSA_MCP_EXECUTE=1 to enable template server calls." none c.toolId)
  else if c.requireReconciled ∧ ¬ s.isExecutable c.toolId then
    pure (.refused "not_reconciled"
      (some ("tool_id=" ++ id ++ " is not executable until reconciled against live tools/list. " ++
        "Run manager.discover_all + reconcile_registry_ids.")) c.toolId)
  else if w.needsApproval c ∧ ¬ w.process.destructiveApproved c.approve then
    pure (.refused "destructive_approval_required"
      (some "Set NSA_MCP_APPROVE_DESTRUCTIVE=1 or pass approve=true for destructive tools.")
      c.toolId)
  else
    match serverForTool w.process.casing c.toolId w.servers with
    | none =>
      pure (.unmapped ("No template MCP server mapped for tool_id=" ++ id) c.toolId
        (w.servers.keys.mergeSort (· ≤ ·)))
    | some spec => w.dispatch c spec

/-- The server that a call goes to, if it passes the checks. -/
def dispatchedTo (c : ToolCall) (s : Manager) : Option McpServerSpec :=
  if w.process.mcpExecuteEnabled ∧ (c.requireReconciled → s.isExecutable c.toolId) ∧
      (w.needsApproval c → w.process.destructiveApproved c.approve) then
    serverForTool w.process.casing c.toolId w.servers
  else none

theorem callTool_of_dispatched {c : ToolCall} {s : Manager} {spec : McpServerSpec}
    (h : w.dispatchedTo c s = some spec) : (w.callTool c).run s = (w.dispatch c spec).run s := by
  unfold dispatchedTo at h
  split at h
  · next hChecks =>
    obtain ⟨hEnabled, hReconciled, hApproved⟩ := hChecks
    unfold callTool
    show (ite _ _ (ite _ _ (ite _ _ _)) : ManagerM ToolReply).run s = _
    rw [if_neg (not_not_intro hEnabled), if_neg (not_and_not_right.mpr hReconciled),
      if_neg (not_and_not_right.mpr hApproved), h]
  · cases h

theorem callTool_after {c : ToolCall} {s : Manager} {spec : McpServerSpec}
    (h : w.dispatchedTo c s = some spec) :
    (w.callTool c).after s = (w.call spec (mcpToolName c.toolId) c.tenantId).after s := by
  unfold EStateM.after
  rw [w.callTool_of_dispatched h]
  unfold dispatch EStateM.run
  show (EStateM.tryCatch (EStateM.bind _ _) _ s).state = _
  unfold EStateM.tryCatch EStateM.bind
  cases w.call spec (mcpToolName c.toolId) c.tenantId s with
  | ok out s' => rfl
  | error e s' =>
    cases e with
    | failed message => rfl
    | cancelled => rfl

theorem callTool_of_not_dispatched {c : ToolCall} {s : Manager} (h : w.dispatchedTo c s = none) :
    (w.callTool c).after s = s := by
  unfold callTool EStateM.after
  show ((ite _ _ (ite _ _ (ite _ _ _)) : ManagerM ToolReply).run s).state = s
  split
  · rfl
  · next hEnabled =>
    split
    · rfl
    · next hReconciled =>
      split
      · rfl
      · next hApproved =>
        have hServer : serverForTool w.process.casing c.toolId w.servers = none := by
          unfold dispatchedTo at h
          rwa [if_pos ⟨not_not.mp hEnabled, not_and_not_right.mp hReconciled,
            not_and_not_right.mp hApproved⟩] at h
        rw [hServer]
        rfl

end McpWorld

end Neuroswarm.Mcp

/-!
## How often a call is sent

`call` makes two attempts, whatever the tool. `sentOnce_iff` says for which behaviours of a server
an approved call of a destructive tool is sent once at most.
-/

namespace Neuroswarm.Mcp

open Armcascade (Text isSpace)
open EStateM

-- ------ The specification

def Manager.toolCalls (s : Manager) : Nat := s.sent.countP fun entry => entry.method = toolsCall

def McpWorld.SentOnce (w : McpWorld) (c : ToolCall) (s : Manager) : Prop :=
  w.needsApproval c → w.process.destructiveApproved c.approve →
    ((w.callTool c).after s).toolCalls ≤ s.toolCalls + 1

/-- After `_conn`. -/
def Manager.opened (s : Manager) (spec : McpServerSpec) : Manager :=
  s.updateConn spec ({ · with spec })

/-- After `_kill_conn`. -/
def Manager.killed (s : Manager) (spec : McpServerSpec) : Manager :=
  s.updateConn spec ({ · with child := none, initialized := false, httpSession := none })

/-- The server can be asked, its answer to the request fails, and it can be started again. -/
def McpWorld.FailsOnceAsked (w : McpWorld) (spec : McpServerSpec) (tenantId : Option Text)
    (s : Manager) : Prop :=
  ∃ s₁ message s₂ s₃, (w.prepare spec tenantId false).run s = .ok ⟨⟩ s₁ ∧
    (w.ask spec).run s₁ = .error (.failed message) s₂ ∧
    (w.prepare spec tenantId true).run (s₂.killed spec) = .ok ⟨⟩ s₃

-- ------ Attempts

variable {w : McpWorld} {spec : McpServerSpec} {tenantId : Option Text} {s : Manager}

theorem toolCalls_append (s : Manager) (entry : Sent) :
    ({ s with sent := s.sent ++ [entry] } : Manager).toolCalls =
      s.toolCalls + if entry.method = toolsCall then 1 else 0 := by
  unfold Manager.toolCalls
  rw [List.countP_append, List.countP_singleton]
  simp

theorem stable_toolCalls (w : McpWorld) (tenantId : Option Text) (n : Nat) :
    Stable w tenantId fun s => s.toolCalls = n where
  conn _ _ _ _ h := h
  listing _ _ _ h := h
  sent s entry hMethod h := by rw [toolCalls_append, if_neg hMethod, h, Nat.add_zero]
  handled _ _ h := h
  start _ _ _ h := h
  kill _ _ h := h
  counts _ _ _ _ h := h

theorem prepare_toolCalls (w : McpWorld) (spec : McpServerSpec) (tenantId : Option Text)
    (reinit : Bool) (s : Manager) :
    Ends (w.prepare spec tenantId reinit) s
      (fun _ s' => s'.toolCalls = s.toolCalls ∧
        ((s'.conn spec).httpSession.isSome ∨ (s'.env? spec).isSome))
      fun _ s' => s'.toolCalls = s.toolCalls := by
  have hCount := ((stable_toolCalls w tenantId s.toolCalls).prepare spec reinit).ends rfl
  exact (hCount.and (prepare_usable reinit s)).raising fun _ _ h => h.1

theorem ask_toolCalls (hUse : (s.conn spec).httpSession.isSome ∨ (s.env? spec).isSome) :
    Ends (w.ask spec) s (fun _ s' => s'.toolCalls = s.toolCalls + 1)
      fun _ s' => s'.toolCalls = s.toolCalls + 1 := by
  have hBefore := (stable_toolCalls w none s.toolCalls).toRpcStable
  have hAfter := (stable_toolCalls w none (s.toolCalls + 1)).toRpcStable
  refine ask_ends hBefore hAfter (fun _ s₁ id h => ?_) (fun _ s₁ url posts h => ?_) hUse rfl
  · rw [toolCalls_append, if_pos rfl, h]
  · show ({ s₁ with sent := s₁.sent ++ [_] } : Manager).toolCalls = _
    rw [toolCalls_append, if_pos rfl, h]

def McpWorld.Starts (w : McpWorld) (spec : McpServerSpec) (tenantId : Option Text) (s : Manager) :
    Prop :=
  ∃ s', (w.prepare spec tenantId true).run s = .ok ⟨⟩ s'

/-- An attempt asks once if the connection could be prepared. -/
theorem oneShot_ends (reinit : Bool) (s : Manager) :
    Ends (w.oneShot spec tenantId reinit) s
      (fun _ s' => s'.toolCalls = s.toolCalls + 1 ∧ ∃ s₁ a,
        (w.prepare spec tenantId reinit).run s = .ok ⟨⟩ s₁ ∧ (w.ask spec).run s₁ = .ok a s')
      fun e s' =>
        (s'.toolCalls = s.toolCalls ∧ ∀ s₁, (w.prepare spec tenantId reinit).run s ≠ .ok ⟨⟩ s₁) ∨
        s'.toolCalls = s.toolCalls + 1 ∧ ∃ s₁,
          (w.prepare spec tenantId reinit).run s = .ok ⟨⟩ s₁ ∧
          (w.ask spec).run s₁ = .error e s' := by
  have hPrepare := (prepare_toolCalls w spec tenantId reinit s).and (ends_self _ s)
  refine ends_bind (hPrepare.raising ?_) ?_
  · rintro e s' ⟨hSame, hRun⟩
    refine .inl ⟨hSame, fun s₁ hOk => ?_⟩
    rw [hRun] at hOk
    cases hOk
  · rintro _ s₁ ⟨⟨hSame, hUse⟩, hRun⟩
    refine ((ask_toolCalls hUse).and (ends_self _ s₁)).mono ?_ ?_
    · rintro a s' ⟨hOne, hAsk⟩
      exact ⟨by omega, s₁, a, hRun, hAsk⟩
    · rintro e s' ⟨hOne, hAsk⟩
      exact .inr ⟨by omega, s₁, hRun, hAsk⟩

/-- What an attempt leaves when it is the last: one request more if the server starts. -/
def LastCounted (w : McpWorld) (spec : McpServerSpec) (tenantId : Option Text) (s s' : Manager) :
    Prop :=
  s'.toolCalls ≤ s.toolCalls + 1 ∧ (s'.toolCalls ≤ s.toolCalls ↔ ¬ w.Starts spec tenantId s)

theorem lastAttempt_ends (tool : Text) (lastExc : String) (s : Manager) :
    Ends (w.attempts spec tool tenantId [true] lastExc) s
      (fun _ => LastCounted w spec tenantId s) fun _ => LastCounted w spec tenantId s := by
  have hShot : Ends (w.oneShot spec tenantId true) s (fun _ => LastCounted w spec tenantId s)
      fun _ => LastCounted w spec tenantId s := by
    refine (oneShot_ends true s).mono ?_ ?_
    · rintro a s' ⟨hOne, s₁, -, hRun, -⟩
      exact ⟨hOne.le, iff_of_false (by omega) (not_not_intro ⟨s₁, hRun⟩)⟩
    · rintro e s' (⟨hSame, hFails⟩ | ⟨hOne, s₁, hRun, -⟩)
      · exact ⟨by omega, iff_of_true hSame.le fun ⟨s₁, hRun⟩ => hFails s₁ hRun⟩
      · exact ⟨hOne.le, iff_of_false (by omega) (not_not_intro ⟨s₁, hRun⟩)⟩
  unfold McpWorld.attempts
  refine ends_tryCatch (ends_bind hShot fun result s₁ h₁ => ?_) fun e s₁ h₁ => ?_
  · exact h₁
  · cases e with
    | cancelled => exact h₁
    | failed message => exact h₁

/-- What a first attempt leaves that is not tried again. -/
def Settled (w : McpWorld) (spec : McpServerSpec) (tenantId : Option Text) (s s' : Manager) :
    Prop :=
  s'.toolCalls ≤ s.toolCalls + 1 ∧ ¬ w.FailsOnceAsked spec tenantId s

/-- A first attempt that fails leaves the second to decide, if its request was sent. -/
theorem firstAttempt_ends (s : Manager) :
    Ends (w.oneShot spec tenantId false) s (fun _ => Settled w spec tenantId s) fun e s' =>
      match e with
      | .cancelled => Settled w spec tenantId s s'
      | .failed _ =>
        (s'.toolCalls = s.toolCalls ∧ ¬ w.FailsOnceAsked spec tenantId s) ∨
        s'.toolCalls = s.toolCalls + 1 ∧
          (w.FailsOnceAsked spec tenantId s ↔ w.Starts spec tenantId (s'.killed spec)) := by
  refine (oneShot_ends false s).mono ?_ ?_
  · rintro a s' ⟨hOne, s₁, b, hPrepare, hAsk⟩
    refine ⟨hOne.le, ?_⟩
    rintro ⟨t₁, message, t₂, -, hPrepare', hAsk', -⟩
    rw [hPrepare] at hPrepare'
    cases hPrepare'
    rw [hAsk] at hAsk'
    cases hAsk'
  · rintro e s' (⟨hSame, hFails⟩ | ⟨hOne, s₁, hPrepare, hAsk⟩)
    · have hNot : ¬ w.FailsOnceAsked spec tenantId s := by
        rintro ⟨t₁, -, -, -, hPrepare, -⟩
        exact hFails t₁ hPrepare
      cases e with
      | cancelled => exact ⟨by omega, hNot⟩
      | failed message => exact .inl ⟨hSame, hNot⟩
    · have hIff : w.FailsOnceAsked spec tenantId s ↔ ∃ message, e = .failed message ∧
          w.Starts spec tenantId (s'.killed spec) := by
        constructor
        · rintro ⟨t₁, message, t₂, t₃, hPrepare', hAsk', hStart⟩
          rw [hPrepare] at hPrepare'
          cases hPrepare'
          rw [hAsk] at hAsk'
          cases hAsk'
          exact ⟨message, rfl, t₃, hStart⟩
        · rintro ⟨message, rfl, s₃, hStart⟩
          exact ⟨s₁, message, s', s₃, hPrepare, hAsk, hStart⟩
      cases e with
      | cancelled => exact ⟨hOne.le, by rw [hIff]; simp⟩
      | failed message => exact .inr ⟨hOne, by rw [hIff]; simp⟩

theorem attempts_ends (tool : Text) (lastExc : String) (s : Manager) :
    Ends (w.attempts spec tool tenantId [false, true] lastExc) s
      (fun _ s' => s'.toolCalls ≤ s.toolCalls + 1 ↔ ¬ w.FailsOnceAsked spec tenantId s)
      fun _ s' => s'.toolCalls ≤ s.toolCalls + 1 ↔ ¬ w.FailsOnceAsked spec tenantId s := by
  rw [McpWorld.attempts]
  refine ends_tryCatch (ends_bind (firstAttempt_ends s) fun result s₁ h₁ => ?_) fun e s₁ h₁ => ?_
  · exact iff_of_true h₁.1 h₁.2
  · cases e with
    | cancelled => exact iff_of_true h₁.1 h₁.2
    | failed message =>
      have hKilled : (s₁.killed spec).toolCalls = s₁.toolCalls := rfl
      have hCounted : ∀ s', LastCounted w spec tenantId (s₁.killed spec) s' →
          (s'.toolCalls ≤ s.toolCalls + 1 ↔ ¬ w.FailsOnceAsked spec tenantId s) := by
        rintro s' ⟨hOne, hIff⟩
        rw [hKilled] at hOne hIff
        rcases h₁ with ⟨hSame, hNot⟩ | ⟨hSent, hFails⟩
        · exact iff_of_true (by omega) hNot
        · rw [hFails, ← hIff, hSent]
      exact (lastAttempt_ends tool message (s₁.killed spec)).mono (fun _ => hCounted)
        fun _ => hCounted

-- ------ Calls

theorem call_toolCalls (tool : Text) (s : Manager) :
    ((w.call spec tool tenantId).after s).toolCalls ≤ s.toolCalls + 1 ↔
      ((s.conn spec).degraded = false → ¬ w.FailsOnceAsked spec tenantId (s.opened spec)) := by
  refine call_after (P := fun s' : Manager => s'.toolCalls ≤ s.toolCalls + 1 ↔
    ((s.conn spec).degraded = false → ¬ w.FailsOnceAsked spec tenantId (s.opened spec))) tool
    (fun hGone => ?_) fun hHere => ?_
  · refine iff_of_true (Nat.le_succ _) fun hNot => ?_
    rw [hGone] at hNot
    cases hNot
  · rw [forall_prop_of_true hHere]
    exact attempts_ends tool "MCP call failed" (s.opened spec)

/-- A call of a destructive tool is sent once at most exactly if its server is given up already, or
its first request does not fail, or the server cannot be started again. -/
theorem sentOnce_iff (w : McpWorld) (c : ToolCall) (s : Manager) :
    w.SentOnce c s ↔ (w.needsApproval c → w.process.destructiveApproved c.approve →
      ∀ spec, w.dispatchedTo c s = some spec → (s.conn spec).degraded = false →
        ¬ w.FailsOnceAsked spec c.tenantId (s.opened spec)) := by
  refine imp_congr_right fun _ => imp_congr_right fun _ => ?_
  cases hServer : w.dispatchedTo c s with
  | none =>
    rw [w.callTool_of_not_dispatched hServer]
    simp
  | some spec =>
    rw [w.callTool_after hServer, call_toolCalls]
    simp

/-- A server that inserts the row and does not answer in time, each time it is started. -/
def slowWorld : McpWorld where
  process := { environ := Dict.empty.set (text "NSA_MCP_EXECUTE") (text "1") }
  servers := Dict.empty.set (text "postgres") { serverId := text "postgres" }
  spawn _ := .ok
    [.message { id := some (.number 1), result := some {} },
      .message { id := some (.number 2), result := some { names := some [text "insert_row"] } },
      .raises (.failed "timeout")]

/-- After `discover_all` and `reconcile_registry_ids`. -/
def reconciledManager : Manager :=
  (do
    slowWorld.discoverAll none
    reconcileRegistryIds [text "postgres.insert_row"]).after {}

/-- The row is inserted twice. -/
theorem not_sentOnce_insertRow :
    ¬ slowWorld.SentOnce { toolId := text "postgres.insert_row", approve := some true }
      reconciledManager := by
  intro h
  have hTwice : ((slowWorld.callTool
      { toolId := text "postgres.insert_row", approve := some true }).after
        reconciledManager).toolCalls = 2 := by decide +kernel
  have hNone : reconciledManager.toolCalls = 0 := by decide +kernel
  have hOnce := h (by decide +kernel) (by decide +kernel)
  omega

end Neuroswarm.Mcp
