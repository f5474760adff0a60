import Neuroswarm.Lib.Stateful
import Neuroswarm.Mcp.ChildEnv

/-!
# The server manager

`runtime/router/mcp_executor.py`: `McpServerManager` with its connections, the JSON-RPC read loop,
the start of a server, `ensure`, `discover_all` and `call`.

What the outside does is a parameter: what a child process writes (`Read`), whether it can be
started and is alive, and what a remote server answers. A raise of a write is the raise of the
read that follows. Time, hashes, the status and the telemetry are left out, and with them the
`tools_list` of a connection. The lists `sent` and `handled` are histories, which nothing reads.
-/

namespace Neuroswarm.Mcp

open Armcascade (Text isSpace)

/-- What `except Exception` catches, and `asyncio.CancelledError`. -/
inductive RpcError where
  | failed (message : String)
  | cancelled
  deriving Repr, DecidableEq

/-- The `id` of a message: a number, or what is equal to none. -/
inductive JsonId where
  | null
  | number (n : Int)
  | other (json : String)
  deriving Repr, DecidableEq

/-- A `result`: the names of its `tools`, unless reading them raises, and the bytes of its JSON
text. -/
structure Payload where
  names : Option (List Text) := some []
  size : Nat := 2
  deriving Repr, DecidableEq

structure Message where
  id : Option JsonId := none
  method : Option Text := none
  error : Option String := none
  result : Option Payload := none
  deriving Repr, DecidableEq

inductive Read where
  | message (m : Message)
  | raises (e : RpcError)
  deriving Repr, DecidableEq

inductive Transport where
  | stdio
  | http
  deriving Repr, DecidableEq

/-- `McpServerSpec`, with the id of the server and where it is reached. -/
structure McpServerSpec where
  serverId : Text
  transport : Transport := .stdio
  httpUrl : Option Text := none
  deriving Repr, DecidableEq

/-- A child process: the environment it was started with, and what is still to be read. When
nothing is left its output is closed. -/
structure Child where
  env : Dict Text Text
  stream : List Read

/-- `_McpServerConn`; of a session with a remote server, its URL. -/
structure McpServerConn where
  spec : McpServerSpec
  child : Option Child := none
  nextId : Nat := 1
  failCount : Nat := 0
  degraded : Bool := false
  initialized : Bool := false
  httpSession : Option Text := none

/-- Where a request went. -/
inductive Channel where
  | child (env : Dict Text Text)
  | http (url : Text)

/-- A request or a notification that was written. -/
structure Sent where
  serverId : Text
  channel : Channel
  method : Text
  id : Option Nat

/-- A message that a read loop took: the id it waits for, the ids that the loops around it wait
for, and whether the loop returned it. -/
structure Handled where
  msgId : Nat
  outstanding : List Nat
  message : Message
  returned : Bool

/-- `McpServerManager`, with the numbers of starts tried, of checks of a process and of
remote calls, and the two histories. -/
structure Manager where
  conns : Dict Text McpServerConn := .empty
  executableTools : List Text := []
  discoveredByServer : Dict Text (List Text) := .empty
  spawnCount : Nat := 0
  checks : Nat := 0
  posts : Nat := 0
  sent : List Sent := []
  handled : List Handled := []

abbrev ManagerM := EStateM RpcError Manager

-- ------ Connections

def Manager.conn (s : Manager) (spec : McpServerSpec) : McpServerConn :=
  (s.conns.get? spec.serverId).getD { spec }

def Manager.updateConn (s : Manager) (spec : McpServerSpec) (f : McpServerConn → McpServerConn) :
    Manager :=
  { s with conns := s.conns.set spec.serverId (f (s.conn spec)) }

theorem conn_updateConn (s : Manager) (spec spec' : McpServerSpec)
    (f : McpServerConn → McpServerConn) :
    (s.updateConn spec f).conn spec' =
      if spec'.serverId = spec.serverId then f (s.conn spec) else s.conn spec' := by
  unfold Manager.conn Manager.updateConn
  rw [Dict.get?_set]
  split
  · rfl
  · rfl

@[simp] theorem conn_updateConn_self (s : Manager) (spec : McpServerSpec)
    (f : McpServerConn → McpServerConn) : (s.updateConn spec f).conn spec = f (s.conn spec) := by
  rw [conn_updateConn, if_pos rfl]

theorem child_conn_congr (s : Manager) {spec spec' : McpServerSpec}
    (h : spec'.serverId = spec.serverId) : (s.conn spec').child = (s.conn spec).child := by
  unfold Manager.conn
  rw [h]
  cases s.conns.get? spec.serverId with
  | none => rfl
  | some conn => rfl

def updateConn (spec : McpServerSpec) (f : McpServerConn → McpServerConn) : ManagerM Unit :=
  modify (·.updateConn spec f)

/-- `_conn`. -/
def openConn (spec : McpServerSpec) : ManagerM Unit := updateConn spec ({ · with spec })

def killConn (spec : McpServerSpec) : ManagerM Unit :=
  updateConn spec ({ · with child := none, initialized := false, httpSession := none })

/-- `discovered_by_server[spec.server_id] = ...`. -/
def recordListing (spec : McpServerSpec) (names : List Text) : ManagerM Unit :=
  modify fun s => { s with discoveredByServer := s.discoveredByServer.set spec.serverId names }

/-- `try: ... except Exception`. -/
def catchFailed (m : ManagerM Unit) (handler : String → ManagerM Unit) : ManagerM Unit :=
  tryCatch m fun
    | .failed message => handler message
    | .cancelled => throw .cancelled

-- ------ JSON-RPC

def toolsCall : Text := text "tools/call"

/-- `notifications/tools/list_changed`. -/
def listChanged : Text := text "notifications/tools/list_changed"

def Manager.childEnv (s : Manager) (spec : McpServerSpec) : Dict Text Text :=
  ((s.conn spec).child.map (·.env)).getD .empty

/-- A write to the process of the connection. -/
def write (spec : McpServerSpec) (method : Text) (id : Option Nat) : ManagerM Unit :=
  modify fun s =>
    { s with sent := s.sent ++ [⟨spec.serverId, .child (s.childEnv spec), method, id⟩] }

def writeRequest (spec : McpServerSpec) (method : Text) : ManagerM Nat := do
  let s ← get
  updateConn spec fun conn => { conn with nextId := conn.nextId + 1 }
  write spec method (some (s.conn spec).nextId)
  pure (s.conn spec).nextId

/-- What the next read of the process gives, and the process after it. -/
def Child.read (child : Child) : Except RpcError Message × Child :=
  match child.stream with
  | [] => (.error (.failed "MCP server closed stdout"), child)
  | .message m :: rest => (.ok m, { child with stream := rest })
  | .raises e :: rest => (.error e, { child with stream := rest })

/-- `json.loads(await proc.stdout.readline())`. -/
def readMessage (spec : McpServerSpec) : ManagerM Message := do
  let s ← get
  match (s.conn spec).child with
  | none => throw (.failed "MCP process not running")
  | some child =>
    updateConn spec ({ · with child := some child.read.2 })
    match child.read.1 with
    | .ok m => pure m
    | .error e => throw e

/-- The tools in a `result`. -/
def listedNames (listed : Message) : ManagerM (List Text) :=
  match listed.result with
  | none => pure []
  | some payload =>
    match payload.names with
    | some names => pure names
    | none => throw (.failed "tools cannot be read")

/-- `_handle_list_changed`, where `relist` is its call of `_rpc`. -/
def handleListChanged (spec : McpServerSpec) (relist : ManagerM Message) : ManagerM Unit :=
  catchFailed
    (do
      let listed ← relist
      let names ← listedNames listed
      recordListing spec names)
    fun _ => pure ()

def logHandled (entry : Handled) : ManagerM Unit :=
  modify fun s => { s with handled := s.handled ++ [entry] }

/-- The loop of `_rpc`, which makes as many passes as there are reads, and one more. -/
def rpcLoop : Nat → McpServerSpec → List Nat → Nat → ManagerM Message
  | 0, _, _, _ => throw (.failed "MCP server closed stdout")
  | passes + 1, spec, outstanding, msgId => do
    let m ← readMessage spec
    if m.method = some listChanged then
      logHandled ⟨msgId, outstanding, m, false⟩
      handleListChanged spec do
        let nested ← writeRequest spec (text "tools/list")
        rpcLoop passes spec (msgId :: outstanding) nested
      rpcLoop passes spec outstanding msgId
    else if m.id = some (.number msgId) then
      logHandled ⟨msgId, outstanding, m, true⟩
      pure m
    else if m.id = none ∧ m.method.any (· ≠ []) then
      -- an unrelated notification
      logHandled ⟨msgId, outstanding, m, false⟩
      rpcLoop passes spec outstanding msgId
    else
      logHandled ⟨msgId, outstanding, m, true⟩
      pure m

def rpc (spec : McpServerSpec) (method : Text) : ManagerM Message := do
  let s ← get
  match (s.conn spec).child with
  | none => throw (.failed "MCP process not running")
  | some child =>
    let msgId ← writeRequest spec method
    rpcLoop (child.stream.length + 1) spec [] msgId

-- ------ The outside

/-- What the manager meets: its own process, the servers that are configured, how the processes it
starts turn out and what they write, whether they are alive when it looks, what remote servers
answer. -/
structure McpWorld where
  process : ParentProcess := {}
  servers : Dict Text McpServerSpec := .empty
  resultMaxBytes : Nat := 512 * 1024
  spawn : Nat → Except RpcError (List Read) := fun _ => .ok []
  alive : Nat → Bool := fun _ => true
  httpStart : Nat → Except RpcError Message := fun _ => .ok {}
  httpCall : Nat → Except RpcError Message := fun _ => .ok {}

/-- The next answer of the outside. -/
def answered {α : Type} : Except RpcError α → ManagerM α
  | .ok a => pure a
  | .error e => throw e

def failLimit : Nat := 3

/-- The results of `call`. -/
inductive CallResult where
  | done (serverId tool : Text) (result : Option Payload)
  | failed (serverId tool : Text) (error : String) (degraded : Bool)

namespace McpWorld

variable (w : McpWorld)

/-- The start of a session with a remote server, with its answer to `tools/list`. -/
def startHttp (spec : McpServerSpec) (url : Text) : ManagerM Unit := do
  let answer ← modifyGet fun s => (w.httpStart s.posts, { s with posts := s.posts + 1 })
  let listed ← answered answer
  updateConn spec ({ · with httpSession := some url, initialized := true })
  let names ← listedNames listed
  recordListing spec names

def startChild (spec : McpServerSpec) (tenantId : Option Text) : ManagerM Unit := do
  let output ← modifyGet fun s => (w.spawn s.spawnCount, { s with spawnCount := s.spawnCount + 1 })
  let stream ← answered output
  let env := w.process.buildMcpChildEnv spec.serverId tenantId
  updateConn spec ({ · with child := some ⟨env, stream⟩, nextId := 1 })

/-- `if "error" in init: raise ...`. -/
def checkInit (init : Message) : ManagerM Unit :=
  match init.error with
  | some e => throw (.failed ("initialize failed: " ++ e))
  | none => pure ()

/-- The tools after a handshake, of which an error leaves none. -/
def handshakeNames (listed : Message) : ManagerM (List Text) :=
  if listed.error.isSome then pure [] else listedNames listed

/-- The handshake with a child process. -/
def handshake (spec : McpServerSpec) : ManagerM Unit := do
  let init ← rpc spec (text "initialize")
  checkInit init
  write spec (text "notifications/initialized") none
  let listed ← rpc spec (text "tools/list")
  let names ← handshakeNames listed
  recordListing spec names
  updateConn spec ({ · with initialized := true })

def spawnAndInit (spec : McpServerSpec) (tenantId : Option Text) : ManagerM Unit :=
  match spec.transport, spec.httpUrl with
  | .http, some url => w.startHttp spec url
  | _, _ => do
    w.startChild spec tenantId
    handshake spec

def procAlive (spec : McpServerSpec) : ManagerM Bool :=
  modifyGet fun s =>
    if (s.conn spec).child.isSome then (w.alive s.checks, { s with checks := s.checks + 1 })
    else (false, s)

/-- Whether the connection can be used as it is. -/
def isReady (spec : McpServerSpec) : ManagerM Bool := do
  let alive ← w.procAlive spec
  let s ← get
  pure ((alive || (s.conn spec).httpSession.isSome) && (s.conn spec).initialized)

/-- A new start in the place of what is there. -/
def restart (spec : McpServerSpec) (tenantId : Option Text) : ManagerM Unit := do
  killConn spec
  w.spawnAndInit spec tenantId

def ensure (spec : McpServerSpec) (tenantId : Option Text) : ManagerM Unit := do
  openConn spec
  let s ← get
  if (s.conn spec).degraded then pure ()
  else do
    let ready ← w.isReady spec
    if ready then pure () else w.restart spec tenantId

def discoverAll (tenantId : Option Text) : ManagerM Unit :=
  w.servers.values.forM fun spec => catchFailed (w.ensure spec tenantId) fun _ => pure ()

-- ------ Calls

/-- The first part of `_one_shot`: a connection that can be used. -/
def prepare (spec : McpServerSpec) (tenantId : Option Text) (reinit : Bool) : ManagerM Unit := do
  if reinit then w.restart spec tenantId
  else do
    let ready ← w.isReady spec
    if ready then pure () else w.restart spec tenantId

/-- The second part: the request and the message that comes back. -/
def request (spec : McpServerSpec) : ManagerM Message := do
  let s ← get
  match (s.conn spec).httpSession with
  | some url =>
    let answer ← modifyGet fun s =>
      (w.httpCall s.posts,
        { s with
          posts := s.posts + 1
          sent := s.sent ++ [⟨spec.serverId, .http url, toolsCall, none⟩] })
    answered answer
  | none => rpc spec toolsCall

/-- The last part: what the message is good for. -/
def accept (m : Message) : Except RpcError (Option Payload) :=
  match m.error with
  | some e => .error (.failed e)
  | none =>
    if w.resultMaxBytes < (m.result.map (·.size)).getD 4 then
      .error (.failed "MCP result exceeds NSA_MCP_RESULT_MAX_BYTES")
    else .ok m.result

/-- The parts after the first. -/
def ask (spec : McpServerSpec) : ManagerM (Option Payload) := do
  let m ← w.request spec
  answered (w.accept m)

def oneShot (spec : McpServerSpec) (tenantId : Option Text) (reinit : Bool) :
    ManagerM (Option Payload) := do
  w.prepare spec tenantId reinit
  w.ask spec

/-- The attempts of `call` that are left, and what is done when there is none. -/
def attempts (spec : McpServerSpec) (tool : Text) (tenantId : Option Text) :
    List Bool → String → ManagerM CallResult
  | [], lastExc => do
    updateConn spec fun conn =>
      { conn with
        failCount := conn.failCount + 1
        degraded := conn.degraded || failLimit ≤ conn.failCount + 1 }
    let s ← get
    pure (.failed spec.serverId tool lastExc (s.conn spec).degraded)
  | reinit :: rest, _ =>
    tryCatch
      (do
        let result ← w.oneShot spec tenantId reinit
        updateConn spec ({ · with failCount := 0 })
        pure (.done spec.serverId tool result))
      fun
        | .cancelled => do
          killConn spec
          throw .cancelled
        | .failed message => do
          killConn spec
          attempts spec tool tenantId rest message

def call (spec : McpServerSpec) (tool : Text) (tenantId : Option Text) : ManagerM CallResult := do
  openConn spec
  let s ← get
  if (s.conn spec).degraded then
    pure (.failed spec.serverId tool
      ("MCP server " ++ String.ofList spec.serverId ++ " degraded after " ++ toString failLimit ++
        " failures") true)
  else w.attempts spec tool tenantId [false, true] "MCP call failed"

end McpWorld

end Neuroswarm.Mcp
