import Neuroswarm.Lib.Run
import Neuroswarm.Mcp.Stability

/-!
# The processes of a tenant

Connections are kept under the id of their server, with the process that was started for whoever
came first. `everyToTenant_iff` says in which runs the calls of every tenant go to processes with
its own environment only.
-/

namespace Neuroswarm.Mcp

open Armcascade (Text isSpace)
open EStateM

-- ------ Runs

inductive ManagerOp where
  | ensure (spec : McpServerSpec) (tenantId : Option Text)
  | call (spec : McpServerSpec) (tool : Text) (tenantId : Option Text)
  | discoverAll (tenantId : Option Text)

def ManagerOp.tenantId : ManagerOp → Option Text
  | .ensure _ tenantId => tenantId
  | .call _ _ tenantId => tenantId
  | .discoverAll tenantId => tenantId

namespace McpWorld

def step (w : McpWorld) (s : Manager) : ManagerOp → Manager
  | .ensure spec tenantId => (w.ensure spec tenantId).after s
  | .call spec tool tenantId => (w.call spec tool tenantId).after s
  | .discoverAll tenantId => (w.discoverAll tenantId).after s

/-- A message that is no call to a process with another environment than the tenant's. -/
def IsFor (w : McpWorld) (tenantId : Option Text) (entry : Sent) : Prop :=
  entry.method = toolsCall → ∀ env, entry.channel = .child env →
    env = w.process.buildMcpChildEnv entry.serverId tenantId

def ToTenant (w : McpWorld) (s : Manager) (op : ManagerOp) : Prop :=
  ∀ entry ∈ (w.step s op).sent.drop s.sent.length, w.IsFor op.tenantId entry

/-- A call does not find a process in use that was started with another environment. -/
def FindsOwn (w : McpWorld) (s : Manager) : ManagerOp → Prop
  | .call spec _ tenantId => (s.conn spec).degraded = false → w.Ready spec s →
      (s.conn spec).httpSession = none →
      s.env? spec = some (w.process.buildMcpChildEnv spec.serverId tenantId)
  | _ => True

end McpWorld

variable {w : McpWorld} {spec : McpServerSpec} {tenantId : Option Text} {s : Manager}

-- ------ What an operation has sent

/-- All messages after the first `n` are good. -/
def SentSince (n : Nat) (Good : Sent → Prop) (s : Manager) : Prop :=
  n ≤ s.sent.length ∧ ∀ entry ∈ s.sent.drop n, Good entry

theorem sentSince_start (Good : Sent → Prop) (s : Manager) : SentSince s.sent.length Good s := by
  refine ⟨le_rfl, ?_⟩
  rw [List.drop_length]
  simp

theorem SentSince.append {n : Nat} {Good : Sent → Prop} {entry : Sent} (h : SentSince n Good s)
    (hGood : Good entry) : SentSince n Good { s with sent := s.sent ++ [entry] } := by
  refine ⟨?_, ?_⟩
  · rw [List.length_append]
    exact h.1.trans (Nat.le_add_right _ _)
  · show ∀ e ∈ (s.sent ++ [entry]).drop n, Good e
    rw [List.drop_append_of_le_length h.1, List.forall_mem_append, List.forall_mem_singleton]
    exact ⟨h.2, hGood⟩

theorem stable_sentSince (w : McpWorld) (tenantId : Option Text) (n : Nat) {Good : Sent → Prop}
    (hGood : ∀ entry, entry.method ≠ toolsCall → Good entry) :
    Stable w tenantId (SentSince n Good) where
  conn _ _ _ _ h := h
  listing _ _ _ h := h
  sent _ entry hMethod h := h.append (hGood entry hMethod)
  handled _ _ h := h
  start _ _ _ h := h
  kill _ _ h := h
  counts _ _ _ _ h := h

-- ------ Calls that stay with the tenant

/-- Only messages for the tenant after the first `n`. -/
def ForSince (w : McpWorld) (tenantId : Option Text) (n : Nat) (s : Manager) : Prop :=
  SentSince n (w.IsFor tenantId) s

theorem stable_forSince (w : McpWorld) (tenantId : Option Text) (n : Nat) :
    Stable w tenantId (ForSince w tenantId n) :=
  stable_sentSince w tenantId n fun _ hMethod hCall => absurd hCall hMethod

def OwnIfReady (w : McpWorld) (spec : McpServerSpec) (tenantId : Option Text) (s : Manager) :
    Prop :=
  w.Ready spec s → (s.conn spec).httpSession = none →
    s.env? spec = some (w.process.buildMcpChildEnv spec.serverId tenantId)

theorem oneShot_forSince {n : Nat} (reinit : Bool) (hs : ForSince w tenantId n s)
    (hOwn : reinit = false → OwnIfReady w spec tenantId s) :
    Ends (w.oneShot spec tenantId reinit) s (fun _ => ForSince w tenantId n)
      fun _ => ForSince w tenantId n := by
  have hStable := stable_forSince w tenantId n
  have hPrepare := (((hStable.prepare spec reinit).ends hs).and (prepare_ends reinit s)).and
    (prepare_usable reinit s)
  refine ends_bind (hPrepare.raising fun _ _ h => h.1.1) ?_
  rintro _ s₁ ⟨⟨hSince, hServes⟩, hUse⟩
  -- the process that is asked
  have hEnv : (s₁.conn spec).httpSession = none →
      s₁.env? spec = some (w.process.buildMcpChildEnv spec.serverId tenantId) := by
    intro hNone
    rcases hServes with hServes | ⟨hReinit, hReady, hConns⟩
    · rcases hServes with hSession | hEnv
      · rw [hNone] at hSession
        cases hSession
      · exact hEnv
    · have hConn : s₁.conn spec = s.conn spec := by
        unfold Manager.conn
        rw [hConns]
      rw [Manager.env?, hConn]
      exact hOwn hReinit hReady (by rw [← hConn]; exact hNone)
  have hKept := hStable.toRpcStable.and (rpcStable_env? spec (s₁.env? spec))
  refine ask_ends hKept hStable.toRpcStable (fun hNone s₂ id h => ?_)
    (fun _ s₂ url posts h => ?_) hUse ⟨hSince, rfl⟩
  · refine h.1.append fun _ env hChannel => ?_
    cases hChannel
    exact childEnv_of_env? (h.2.trans (hEnv hNone))
  · refine SentSince.append (s := { s₂ with posts := posts }) h.1 fun _ env hChannel => ?_
    cases hChannel

theorem call_forSince (tool : Text) (s : Manager)
    (hOwn : (s.conn spec).degraded = false → OwnIfReady w spec tenantId s) :
    ForSince w tenantId s.sent.length ((w.call spec tool tenantId).after s) := by
  have hStable := stable_forSince w tenantId s.sent.length
  have hStart : ForSince w tenantId s.sent.length (s.updateConn spec ({ · with spec })) :=
    sentSince_start _ s
  -- the second attempt starts a process of its own
  have hLast : ∀ reinit ∈ [true],
      Keeps (ForSince w tenantId s.sent.length) (w.oneShot spec tenantId reinit) := by
    intro reinit hMem s₁ hs₁
    rw [List.mem_singleton] at hMem
    refine (oneShot_forSince reinit hs₁ fun hFirst => ?_).after
    rw [hMem] at hFirst
    cases hFirst
  refine call_after tool (fun _ => hStart) fun hDegraded => ?_
  refine hStable.attempts_cons tool _ ?_ (hStable.attempts tool hLast)
  refine oneShot_forSince false hStart fun _ => ?_
  have hSame := hOwn hDegraded
  unfold OwnIfReady McpWorld.Ready Manager.env? at *
  rw [conn_updateConn_self]
  exact hSame

-- ------ Calls that do not

/-- A call of the server was sent to a process with this environment. -/
def AskedSince (n : Nat) (spec : McpServerSpec) (env : Dict Text Text) (s : Manager) : Prop :=
  ∃ entry ∈ s.sent.drop n,
    entry.serverId = spec.serverId ∧ entry.method = toolsCall ∧ entry.channel = .child env

theorem AskedSince.append {n : Nat} {env : Dict Text Text} (h : AskedSince n spec env s)
    (entry : Sent) : AskedSince n spec env { s with sent := s.sent ++ [entry] } := by
  obtain ⟨asked, hMem, hAsked⟩ := h
  refine ⟨asked, ?_, hAsked⟩
  show asked ∈ (s.sent ++ [entry]).drop n
  rw [List.drop_append]
  exact List.mem_append_left _ hMem

theorem stable_askedSince (w : McpWorld) (tenantId : Option Text) (n : Nat) (spec : McpServerSpec)
    (env : Dict Text Text) : Stable w tenantId (AskedSince n spec env) where
  conn _ _ _ _ h := h
  listing _ _ _ h := h
  sent _ entry _ h := h.append entry
  handled _ _ h := h
  start _ _ _ h := h
  kill _ _ h := h
  counts _ _ _ _ h := h

theorem oneShot_asks {env : Dict Text Text} {n : Nat} (hLength : n ≤ s.sent.length)
    (hReady : w.Ready spec s) (hSession : (s.conn spec).httpSession = none)
    (hEnv : s.env? spec = some env) :
    Ends (w.oneShot spec tenantId false) s (fun _ => AskedSince n spec env)
      fun _ => AskedSince n spec env := by
  have hPrepare : Ends (w.prepare spec tenantId false) s
      (fun _ s' => s'.conns = s.conns ∧ s'.sent = s.sent) fun _ => AskedSince n spec env := by
    unfold McpWorld.prepare
    refine ends_bind ((isReady_ends s).raising fun _ _ h => h.elim) ?_
    rintro ready s₁ ⟨hConns, hSent, hIff⟩
    rw [if_pos (hIff.mpr hReady)]
    exact ends_pure ⟨hConns, hSent⟩
  refine ends_bind hPrepare ?_
  rintro _ s₁ ⟨hConns, hSent⟩
  have hConn : s₁.conn spec = s.conn spec := by
    unfold Manager.conn
    rw [hConns]
  have hEnv₁ : s₁.env? spec = some env := by rw [Manager.env?, hConn]; exact hEnv
  have hSince : SentSince n (fun _ => True) s₁ := ⟨by rw [hSent]; exact hLength, fun _ _ => trivial⟩
  have hKept := (stable_sentSince w tenantId n fun _ _ => trivial).toRpcStable.and
    (rpcStable_env? spec (some env))
  refine ask_ends hKept (stable_askedSince w tenantId n spec env).toRpcStable ?_ ?_
    (.inr (by rw [hEnv₁]; rfl)) ⟨hSince, hEnv₁⟩
  · rintro - s₂ id ⟨hSince₂, hEnv₂⟩
    refine ⟨⟨spec.serverId, .child (s₂.childEnv spec), toolsCall, id⟩, ?_, rfl, rfl, ?_⟩
    · show _ ∈ (s₂.sent ++ [_]).drop n
      rw [List.drop_append_of_le_length hSince₂.1]
      exact List.mem_append_right _ List.mem_cons_self
    · rw [childEnv_of_env? hEnv₂]
  · intro hSome
    rw [hConn, hSession] at hSome
    cases hSome

theorem call_asks (tenantId : Option Text) {env : Dict Text Text} (tool : Text)
    (hDegraded : (s.conn spec).degraded = false)
    (hReady : w.Ready spec s) (hSession : (s.conn spec).httpSession = none)
    (hEnv : s.env? spec = some env) :
    AskedSince s.sent.length spec env ((w.call spec tool tenantId).after s) := by
  have hStable := stable_askedSince w tenantId s.sent.length spec env
  refine call_after tool (fun hGone => ?_) fun _ => ?_
  · rw [hDegraded] at hGone
    cases hGone
  · have hLast : ∀ reinit ∈ [true],
        Keeps (AskedSince s.sent.length spec env) (w.oneShot spec tenantId reinit) :=
      fun reinit _ => hStable.oneShot (fun _ entry h => h.append entry) reinit
    refine hStable.attempts_cons tool _ ?_ (hStable.attempts tool hLast)
    refine oneShot_asks le_rfl ?_ ?_ ?_
    · unfold McpWorld.Ready at *
      rw [conn_updateConn_self]
      exact hReady
    · rw [conn_updateConn_self]
      exact hSession
    · rw [Manager.env?, conn_updateConn_self]
      exact hEnv

-- ------ Runs of several tenants

theorem McpWorld.Ready.env? (h : w.Ready spec s) (hSession : (s.conn spec).httpSession = none) :
    ∃ child : Child, s.env? spec = some child.env := by
  have hUse := h.2
  rw [hSession] at hUse
  obtain ⟨child, hChild⟩ := Option.isSome_iff_exists.mp (hUse.resolve_left (by decide)).1
  refine ⟨child, ?_⟩
  rw [Manager.env?, hChild]
  rfl

theorem toTenant_iff (w : McpWorld) (s : Manager) (op : ManagerOp) :
    w.ToTenant s op ↔ w.FindsOwn s op := by
  have hStart := sentSince_start (w.IsFor op.tenantId) s
  have hStable := stable_forSince w op.tenantId s.sent.length
  cases op with
  | ensure spec tenantId => exact iff_of_true (hStable.ensure spec s hStart).2 trivial
  | discoverAll tenantId => exact iff_of_true (hStable.discoverAll s hStart).2 trivial
  | call spec tool tenantId =>
    refine ⟨fun hFor hDegraded hReady hSession => ?_, fun hOwn => (call_forSince tool s hOwn).2⟩
    obtain ⟨child, hEnv⟩ := hReady.env? hSession
    obtain ⟨entry, hMem, hServer, hMethod, hChannel⟩ :=
      call_asks tenantId tool hDegraded hReady hSession hEnv
    rw [hEnv, hFor entry hMem hMethod child.env hChannel, hServer]
    rfl

/-- In a run of any tenants every call goes to processes of its own tenant exactly if no call finds
a process in use that was started with another environment. -/
theorem everyToTenant_iff (w : McpWorld) (s : Manager) (ops : List ManagerOp) :
    Run.Every w.step w.ToTenant s ops ↔ Run.Every w.step w.FindsOwn s ops :=
  ⟨Run.Every.mono fun s op => (toTenant_iff w s op).mp,
    Run.Every.mono fun s op => (toTenant_iff w s op).mpr⟩

def AllOwn (w : McpWorld) (tenantId : Option Text) (s : Manager) : Prop :=
  ∀ spec env, s.env? spec = some env → env = w.process.buildMcpChildEnv spec.serverId tenantId

instance (tenantId : Option Text) : DecidablePred (w.IsFor tenantId) := fun entry =>
  match hChannel : entry.channel with
  | .http _ => isTrue fun _ _ h => nomatch hChannel.symm.trans h
  | .child env => decidable_of_iff
      (entry.method = toolsCall → env = w.process.buildMcpChildEnv entry.serverId tenantId)
      ⟨fun h hMethod _ hEnv => Channel.child.inj (hChannel.symm.trans hEnv) ▸ h hMethod,
        fun h hMethod => h hMethod env hChannel⟩

instance (op : ManagerOp) : Decidable (w.ToTenant s op) := inferInstanceAs (Decidable (∀ _ ∈ _, _))

/-- A server that answers what it is asked. -/
def answeringWorld : McpWorld where
  spawn _ := .ok ((List.range 4).map fun n =>
    .message { id := some (.number (n + 1)), result := some {} })

/-- The process of one tenant gets the call of the other. -/
theorem not_everyToTenant_twoTenants :
    ¬ Run.Every answeringWorld.step answeringWorld.ToTenant {}
      [.call { serverId := text "github" } (text "create_issue") (some (text "acme")),
        .call { serverId := text "github" } (text "create_issue") (some (text "rival"))] := by
  decide +kernel

end Neuroswarm.Mcp
