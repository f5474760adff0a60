import Neuroswarm.Mcp.Manager

/-!
# What the manager's programs keep

A property that the small changes keep is kept by all that is made of them. `RpcStable` names the
changes of the read loop and of the handshake, `Stable` those of the start of a server as well.
Neither allows a request of `tools/call`, so what they keep is kept up to the request of a call.
-/

namespace Neuroswarm.Mcp

open Armcascade (Text isSpace)
open EStateM

variable {P : Manager → Prop}

-- ------ On a connection

/-- What a change of a connection keeps if it leaves the environment of its process, what a listing
keeps, and any message but a call. -/
structure RpcStable (P : Manager → Prop) : Prop where
  conn : ∀ s spec f, (f (s.conn spec)).child.map (·.env) = (s.conn spec).child.map (·.env) →
    P s → P (s.updateConn spec f)
  listing : ∀ s serverId names, P s →
    P { s with discoveredByServer := s.discoveredByServer.set serverId names }
  sent : ∀ s entry, entry.method ≠ toolsCall → P s → P { s with sent := s.sent ++ [entry] }
  handled : ∀ s entries, P s → P { s with handled := entries }

theorem toolsList_ne : text "tools/list" ≠ toolsCall := by decide +kernel

theorem keeps_listedNames (listed : Message) : Keeps P (listedNames listed) := by
  unfold listedNames
  split
  · exact keeps_pure _
  · split
    · exact keeps_pure _
    · exact keeps_throw _

theorem keeps_checkInit (init : Message) : Keeps P (McpWorld.checkInit init) := by
  unfold McpWorld.checkInit
  split
  · exact keeps_throw _
  · exact keeps_pure _

theorem keeps_handshakeNames (listed : Message) : Keeps P (McpWorld.handshakeNames listed) := by
  unfold McpWorld.handshakeNames
  split
  · exact keeps_pure _
  · exact keeps_listedNames listed

theorem keeps_answered {α : Type} (answer : Except RpcError α) : Keeps P (answered answer) := by
  cases answer with
  | ok a => exact keeps_pure a
  | error e => exact keeps_throw e

theorem keeps_catchFailed {m : ManagerM Unit} {handler : String → ManagerM Unit} (hm : Keeps P m)
    (hHandler : ∀ message, Keeps P (handler message)) : Keeps P (catchFailed m handler) := by
  refine keeps_tryCatch hm fun e => ?_
  cases e with
  | failed message => exact hHandler message
  | cancelled => exact keeps_throw _

theorem RpcStable.and {P' : Manager → Prop} (h : RpcStable P) (h' : RpcStable P') :
    RpcStable fun s => P s ∧ P' s where
  conn s spec f hf hs := ⟨h.conn s spec f hf hs.1, h'.conn s spec f hf hs.2⟩
  listing s serverId names hs := ⟨h.listing s serverId names hs.1, h'.listing s serverId names hs.2⟩
  sent s entry hMethod hs := ⟨h.sent s entry hMethod hs.1, h'.sent s entry hMethod hs.2⟩
  handled s entries hs := ⟨h.handled s entries hs.1, h'.handled s entries hs.2⟩

section
variable (h : RpcStable P) (spec : McpServerSpec)
include h

theorem RpcStable.updateConn {f : McpServerConn → McpServerConn}
    (hf : ∀ c, (f c).child.map (·.env) = c.child.map (·.env)) : Keeps P (updateConn spec f) :=
  keeps_modify fun s => h.conn s spec f (hf _)

theorem RpcStable.recordListing (names : List Text) : Keeps P (recordListing spec names) :=
  keeps_modify fun s => h.listing s spec.serverId names

theorem RpcStable.write {method : Text} (hMethod : method ≠ toolsCall) (id : Option Nat) :
    Keeps P (write spec method id) :=
  keeps_modify fun s => h.sent s _ hMethod

theorem RpcStable.writeRequest {method : Text} (hMethod : method ≠ toolsCall) :
    Keeps P (writeRequest spec method) := by
  refine keeps_get_bind fun s => ?_
  have hNext : Keeps P (Mcp.updateConn spec fun conn => { conn with nextId := conn.nextId + 1 }) :=
    h.updateConn spec fun _ => rfl
  exact keeps_bind hNext (fun _ => keeps_bind (h.write spec hMethod _) fun _ => keeps_pure _) s

theorem RpcStable.readMessage : Keeps P (readMessage spec) := by
  refine keeps_get_bind fun s hs => ?_
  cases hChild : (s.conn spec).child with
  | none => exact hs
  | some child =>
    have hEnv : child.read.2.env = child.env := by
      unfold Child.read
      split <;> rfl
    have hNext : P (s.updateConn spec ({ · with child := some child.read.2 })) := by
      refine h.conn s spec _ ?_ hs
      rw [hChild, Option.map_some, Option.map_some, hEnv]
    dsimp only
    split
    · exact hNext
    · exact hNext

theorem RpcStable.handleListChanged {relist : ManagerM Message} (hRelist : Keeps P relist) :
    Keeps P (handleListChanged spec relist) := by
  refine keeps_catchFailed (keeps_bind hRelist fun listed => ?_) fun _ => keeps_pure _
  exact keeps_bind (keeps_listedNames listed) fun names => h.recordListing spec names

theorem RpcStable.logHandled (entry : Handled) : Keeps P (logHandled entry) :=
  keeps_modify fun s => h.handled s _

theorem RpcStable.rpcLoop (passes : Nat) (outstanding : List Nat) (msgId : Nat) :
    Keeps P (rpcLoop passes spec outstanding msgId) := by
  induction passes generalizing outstanding msgId with
  | zero => exact keeps_throw _
  | succ passes ih =>
    refine keeps_bind (h.readMessage spec) fun m => ?_
    split
    · refine keeps_bind (h.logHandled _) fun _ => keeps_bind ?_ fun _ => ih outstanding msgId
      refine h.handleListChanged spec ?_
      refine keeps_bind (h.writeRequest spec toolsList_ne) fun nested => ?_
      exact ih (msgId :: outstanding) nested
    · split
      · exact keeps_bind (h.logHandled _) fun _ => keeps_pure _
      · split
        · exact keeps_bind (h.logHandled _) fun _ => ih outstanding msgId
        · exact keeps_bind (h.logHandled _) fun _ => keeps_pure _

theorem RpcStable.rpc {method : Text} (hMethod : method ≠ toolsCall) :
    Keeps P (rpc spec method) := by
  refine keeps_get_bind fun s hs => ?_
  cases (s.conn spec).child with
  | none => exact hs
  | some child =>
    exact keeps_bind (h.writeRequest spec hMethod) (fun msgId => h.rpcLoop spec _ [] msgId) s hs

theorem RpcStable.handshake : Keeps P (McpWorld.handshake spec) := by
  refine keeps_bind (h.rpc spec (by decide +kernel)) fun init => ?_
  refine keeps_bind (keeps_checkInit init) fun _ => ?_
  refine keeps_bind (h.write spec (by decide +kernel) none) fun _ => ?_
  refine keeps_bind (h.rpc spec toolsList_ne) fun listed => ?_
  refine keeps_bind (keeps_handshakeNames listed) fun names => ?_
  exact keeps_bind (h.recordListing spec names) fun _ => h.updateConn spec fun _ => rfl

end

-- ------ With the start of a server

/-- Also what the start of a process for the tenant keeps, and its end. -/
structure Stable (w : McpWorld) (tenantId : Option Text) (P : Manager → Prop) : Prop
    extends RpcStable P where
  start : ∀ s spec stream, P s → P (s.updateConn spec ({ · with
    child := some ⟨w.process.buildMcpChildEnv spec.serverId tenantId, stream⟩, nextId := 1 }))
  kill : ∀ s spec, P s →
    P (s.updateConn spec ({ · with child := none, initialized := false, httpSession := none }))
  counts : ∀ s starts checks posts, P s →
    P { s with spawnCount := starts, checks := checks, posts := posts }

section
variable {w : McpWorld} {tenantId : Option Text} (h : Stable w tenantId P) (spec : McpServerSpec)
include h

theorem Stable.startHttp (url : Text) : Keeps P (w.startHttp spec url) := by
  refine keeps_bind (keeps_modifyGet fun s => h.counts s _ _ _) fun answer => ?_
  refine keeps_bind (keeps_answered answer) fun listed => ?_
  refine keeps_bind (h.updateConn spec fun _ => rfl) fun _ => ?_
  exact keeps_bind (keeps_listedNames listed) fun names => h.recordListing spec names

theorem Stable.startChild : Keeps P (w.startChild spec tenantId) := by
  refine keeps_bind (keeps_modifyGet fun s => h.counts s _ _ _) fun answer => ?_
  refine keeps_bind (keeps_answered answer) fun stream => ?_
  exact keeps_modify fun s => h.start s spec stream

theorem Stable.spawnAndInit : Keeps P (w.spawnAndInit spec tenantId) := by
  unfold McpWorld.spawnAndInit
  split
  · exact h.startHttp spec _
  · exact keeps_bind (h.startChild spec) fun _ => h.handshake spec

theorem Stable.isReady : Keeps P (w.isReady spec) := by
  refine keeps_bind (keeps_modifyGet fun s hs => ?_) fun alive => ?_
  · split
    · exact h.counts s _ _ _ hs
    · exact hs
  · exact keeps_get_bind fun s hs => hs

theorem Stable.killConn : Keeps P (killConn spec) := keeps_modify fun s => h.kill s spec

theorem Stable.openConn : Keeps P (openConn spec) := h.updateConn spec fun _ => rfl

theorem Stable.restart : Keeps P (w.restart spec tenantId) :=
  keeps_bind (h.killConn spec) fun _ => h.spawnAndInit spec

theorem Stable.ensure : Keeps P (w.ensure spec tenantId) := by
  refine keeps_bind (h.openConn spec) fun _ => keeps_get_bind fun s hs => ?_
  split
  · exact hs
  · refine keeps_bind (h.isReady spec) (fun ready => ?_) s hs
    split
    · exact keeps_pure _
    · exact h.restart spec

theorem Stable.discoverAll : Keeps P (w.discoverAll tenantId) :=
  keeps_forM _ fun spec _ => keeps_catchFailed (h.ensure spec) fun _ => keeps_pure _

theorem Stable.prepare (reinit : Bool) : Keeps P (w.prepare spec tenantId reinit) := by
  unfold McpWorld.prepare
  split
  · exact h.restart spec
  · refine keeps_bind (h.isReady spec) fun ready => ?_
    split
    · exact keeps_pure _
    · exact h.restart spec

end

-- ------ What a start leaves

/-- The environment of the process of a connection, if there is one. -/
def Manager.env? (s : Manager) (spec : McpServerSpec) : Option (Dict Text Text) :=
  (s.conn spec).child.map (·.env)

theorem childEnv_of_env? {s : Manager} {spec : McpServerSpec} {env : Dict Text Text}
    (h : s.env? spec = some env) : s.childEnv spec = env := by
  unfold Manager.env? at h
  rw [Manager.childEnv, h, Option.getD_some]

theorem rpcStable_env? (spec : McpServerSpec) (env : Option (Dict Text Text)) :
    RpcStable fun s => s.env? spec = env := by
  refine ⟨fun s spec' f hf hEnv => ?_, fun _ _ _ h => h, fun _ _ _ h => h, fun _ _ h => h⟩
  unfold Manager.env? at *
  rw [conn_updateConn]
  split
  · next hId => rw [hf, ← child_conn_congr s hId, hEnv]
  · exact hEnv

/-- There is a session, or a process with this environment. -/
def Manager.Serves (s : Manager) (spec : McpServerSpec) (env : Dict Text Text) : Prop :=
  (s.conn spec).httpSession.isSome ∨ s.env? spec = some env

variable {w : McpWorld} {spec : McpServerSpec} {tenantId : Option Text}

theorem startHttp_ends (url : Text) (s : Manager) :
    Ends (w.startHttp spec url) s (fun _ s' => (s'.conn spec).httpSession.isSome)
      fun _ _ => True := by
  refine ends_bind (ends_true _ s) fun answer s₁ _ => ?_
  refine ends_bind (ends_true _ s₁) fun listed s₂ _ => ?_
  have hSession : Ends
      (updateConn spec ({ · with httpSession := some url, initialized := true })) s₂
      (fun _ s' => (s'.conn spec).httpSession.isSome) fun _ _ => True := by
    refine ends_modify ?_
    rw [conn_updateConn_self]
    rfl
  refine ends_bind hSession fun _ s₃ h₃ => ?_
  have hRest : Keeps (fun s => (s.conn spec).httpSession.isSome)
      (listedNames listed >>= recordListing spec) :=
    keeps_bind (keeps_listedNames listed) fun names => keeps_modify fun _ h => h
  exact (hRest.ends h₃).raising fun _ _ _ => trivial

theorem startChild_ends (s : Manager) :
    Ends (w.startChild spec tenantId) s
      (fun _ s' => s'.env? spec = some (w.process.buildMcpChildEnv spec.serverId tenantId))
      fun _ _ => True := by
  refine ends_bind (ends_true _ s) fun answer s₁ _ => ?_
  refine ends_bind (ends_true _ s₁) fun stream s₂ _ => ends_modify ?_
  unfold Manager.env?
  rw [conn_updateConn_self]
  rfl

theorem spawnAndInit_ends (s : Manager) :
    Ends (w.spawnAndInit spec tenantId) s
      (fun _ s' => s'.Serves spec (w.process.buildMcpChildEnv spec.serverId tenantId))
      fun _ _ => True := by
  unfold McpWorld.spawnAndInit
  split
  · exact (startHttp_ends _ s).mono (fun _ _ h => .inl h) fun _ _ _ => trivial
  · refine ends_bind (startChild_ends s) fun _ s₁ hEnv => ?_
    exact (((rpcStable_env? spec _).handshake spec).ends hEnv).mono (fun _ _ h => .inr h)
      fun _ _ _ => trivial

/-- A connection that is used as it is. -/
def McpWorld.Ready (w : McpWorld) (spec : McpServerSpec) (s : Manager) : Prop :=
  (s.conn spec).initialized = true ∧
    ((s.conn spec).httpSession.isSome ∨ (s.conn spec).child.isSome ∧ w.alive s.checks = true)

theorem isReady_ends (s : Manager) :
    Ends (w.isReady spec) s
      (fun ready s' => s'.conns = s.conns ∧ s'.sent = s.sent ∧ (ready = true ↔ w.Ready spec s))
      fun _ _ => False := by
  have hAlive : Ends (w.procAlive spec) s (fun alive s' => s'.conns = s.conns ∧ s'.sent = s.sent ∧
      (alive = true ↔ (s.conn spec).child.isSome ∧ w.alive s.checks = true)) fun _ _ => False := by
    refine ends_modifyGet ?_
    split
    · next hChild => exact ⟨rfl, rfl, (and_iff_right hChild).symm⟩
    · next hChild => exact ⟨rfl, rfl, by simp [hChild]⟩
  refine ends_bind hAlive ?_
  rintro alive s₁ ⟨hConns, hSent, hIff⟩
  refine ends_get_bind (ends_pure ⟨hConns, hSent, ?_⟩)
  have hConn : s₁.conn spec = s.conn spec := by
    unfold Manager.conn
    rw [hConns]
  rw [hConn, Bool.and_eq_true, Bool.or_eq_true, hIff, McpWorld.Ready]
  tauto

theorem prepare_ends (reinit : Bool) (s : Manager) :
    Ends (w.prepare spec tenantId reinit) s
      (fun _ s' => s'.Serves spec (w.process.buildMcpChildEnv spec.serverId tenantId) ∨
        reinit = false ∧ w.Ready spec s ∧ s'.conns = s.conns)
      fun _ _ => True := by
  have hRestart : ∀ s₁, Ends (w.restart spec tenantId) s₁
      (fun _ s' => s'.Serves spec (w.process.buildMcpChildEnv spec.serverId tenantId) ∨
        reinit = false ∧ w.Ready spec s ∧ s'.conns = s.conns) fun _ _ => True := by
    intro s₁
    refine ends_bind (ends_true _ s₁) fun _ s₂ _ => ?_
    exact (spawnAndInit_ends s₂).mono (fun _ _ h => .inl h) fun _ _ _ => trivial
  unfold McpWorld.prepare
  split
  · exact hRestart s
  · next hReinit =>
    refine ends_bind ((isReady_ends s).raising fun _ _ h => h.elim) ?_
    rintro ready s₁ ⟨hConns, -, hReady⟩
    split
    · next h => exact ends_pure (.inr ⟨Bool.not_eq_true _ ▸ hReinit, hReady.mp h, hConns⟩)
    · exact hRestart s₁

-- ------ The request of a call

variable {P' : Manager → Prop} {s : Manager}

theorem rpc_call_ends (hP : RpcStable P) (hP' : RpcStable P')
    (hCall : ∀ s id, P s →
      P' { s with sent := s.sent ++ [⟨spec.serverId, .child (s.childEnv spec), toolsCall, id⟩] })
    (hChild : (s.env? spec).isSome) (hs : P s) :
    Ends (rpc spec toolsCall) s (fun _ => P') fun _ => P' := by
  unfold rpc
  refine ends_get_bind ?_
  cases hNow : (s.conn spec).child with
  | none =>
    rw [Manager.env?, hNow] at hChild
    cases hChild
  | some child =>
    have hWrite : Ends (writeRequest spec toolsCall) s (fun _ => P') fun _ => P' := by
      refine ends_get_bind ?_
      have hNext : Ends (updateConn spec fun conn => { conn with nextId := conn.nextId + 1 }) s
          (fun _ => P) fun _ => P' := hP.conn s spec _ rfl hs
      refine ends_bind hNext fun _ s₁ h₁ => ?_
      have hLine : Ends (write spec toolsCall (some (s.conn spec).nextId)) s₁ (fun _ => P')
          fun _ => P' := hCall s₁ _ h₁
      exact ends_bind hLine fun _ s₂ h₂ => ends_pure h₂
    exact ends_bind hWrite fun msgId s₁ h₁ => (hP'.rpcLoop spec _ [] msgId).ends h₁

theorem ask_ends (hP : RpcStable P) (hP' : RpcStable P')
    (hCall : (s.conn spec).httpSession = none → ∀ s id, P s →
      P' { s with sent := s.sent ++ [⟨spec.serverId, .child (s.childEnv spec), toolsCall, id⟩] })
    (hHttp : (s.conn spec).httpSession.isSome → ∀ s url posts, P s →
      P' { s with posts := posts, sent := s.sent ++ [⟨spec.serverId, .http url, toolsCall, none⟩] })
    (hUse : (s.conn spec).httpSession.isSome ∨ (s.env? spec).isSome) (hs : P s) :
    Ends (w.ask spec) s (fun _ => P') fun _ => P' := by
  have hRequest : Ends (w.request spec) s (fun _ => P') fun _ => P' := by
    unfold McpWorld.request
    refine ends_get_bind ?_
    cases hSession : (s.conn spec).httpSession with
    | some url =>
      refine @ends_bind _ _ _ _ (fun _ => P') _ _ _ _ _ (hHttp (by rw [hSession]; rfl) s url _ hs)
        fun answer s₁ h₁ => ?_
      exact (keeps_answered answer).ends h₁
    | none =>
      rw [hSession] at hUse
      exact rpc_call_ends hP hP' (hCall hSession) (hUse.resolve_left (by decide)) hs
  exact ends_bind hRequest fun m s₁ h₁ => (keeps_answered (w.accept m)).ends h₁

theorem prepare_usable (reinit : Bool) (s : Manager) :
    Ends (w.prepare spec tenantId reinit) s
      (fun _ s' => (s'.conn spec).httpSession.isSome ∨ (s'.env? spec).isSome) fun _ _ => True := by
  refine (prepare_ends reinit s).mono ?_ fun _ _ h => h
  rintro _ s' (hServes | ⟨-, hReady, hConns⟩)
  · refine hServes.imp_right fun hEnv => ?_
    rw [hEnv]
    rfl
  · have hConn : s'.conn spec = s.conn spec := by
      unfold Manager.conn
      rw [hConns]
    refine hReady.2.imp (fun h => by rwa [hConn]) fun h => ?_
    rw [Manager.env?, hConn, Option.isSome_map]
    exact h.1

-- ------ Attempts

section
variable (h : Stable w tenantId P)
include h

theorem Stable.attempts_cons {reinit : Bool} {rest : List Bool} (tool : Text) (lastExc : String)
    (hFirst : Ends (w.oneShot spec tenantId reinit) s (fun _ => P) fun _ => P)
    (hRest : ∀ message, Keeps P (w.attempts spec tool tenantId rest message)) :
    Ends (w.attempts spec tool tenantId (reinit :: rest) lastExc) s (fun _ => P) fun _ => P := by
  rw [McpWorld.attempts]
  refine ends_tryCatch (ends_bind hFirst fun result s₁ h₁ => ?_) fun e s₁ h₁ => ?_
  · refine Keeps.ends ?_ h₁
    exact keeps_bind (h.updateConn spec fun _ => rfl) fun _ => keeps_pure _
  · cases e with
    | cancelled => exact (keeps_bind (h.killConn spec) fun _ => keeps_throw _).ends h₁
    | failed message => exact (keeps_bind (h.killConn spec) fun _ => hRest message).ends h₁

theorem Stable.attempts {reinits : List Bool} (tool : Text)
    (hShot : ∀ reinit ∈ reinits, Keeps P (w.oneShot spec tenantId reinit)) (lastExc : String) :
    Keeps P (w.attempts spec tool tenantId reinits lastExc) := by
  induction reinits generalizing lastExc with
  | nil =>
    exact keeps_bind (h.updateConn spec fun _ => rfl) fun _ => keeps_get_bind fun _ hs => hs
  | cons reinit rest ih =>
    rw [List.forall_mem_cons] at hShot
    intro s hs
    exact (h.attempts_cons tool lastExc (hShot.1.ends hs) (ih hShot.2)).after

end

theorem call_after (tool : Text)
    (hGone : (s.conn spec).degraded = true → P (s.updateConn spec ({ · with spec })))
    (hAttempts : (s.conn spec).degraded = false →
      Ends (w.attempts spec tool tenantId [false, true] "MCP call failed")
        (s.updateConn spec ({ · with spec })) (fun _ => P) fun _ => P) :
    P ((w.call spec tool tenantId).after s) := by
  refine Ends.after (P := P) ?_
  have hOpen : Ends (openConn spec) s (fun _ s' => s' = s.updateConn spec ({ · with spec }))
      fun _ => P := rfl
  refine ends_bind hOpen ?_
  intro _ s₁ hState
  rw [hState]
  refine ends_get_bind ?_
  rw [conn_updateConn_self]
  split
  · next hDegraded => exact ends_pure (hGone hDegraded)
  · next hDegraded => exact hAttempts (Bool.not_eq_true _ ▸ hDegraded)

section
variable (h : Stable w tenantId P)
  (hSent : ∀ s entry, P s → P { s with sent := s.sent ++ [entry] })
include h hSent

theorem Stable.oneShot (reinit : Bool) : Keeps P (w.oneShot spec tenantId reinit) := by
  intro s hs
  have hPrepare := ((h.prepare spec reinit).ends hs).and (prepare_usable reinit s)
  refine Ends.after (ends_bind (hPrepare.raising fun _ _ h => h.1) ?_)
  rintro _ s₁ ⟨h₁, hUse⟩
  refine ask_ends h.toRpcStable h.toRpcStable (fun _ s id h => hSent s _ h) ?_ hUse h₁
  exact fun _ s url posts hs => hSent _ _ (h.counts s s.spawnCount s.checks posts hs)

end

end Neuroswarm.Mcp
