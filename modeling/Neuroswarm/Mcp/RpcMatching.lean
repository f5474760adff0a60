import Neuroswarm.Mcp.Manager

/-!
# Responses and requests

When every call of `_rpc` that returns gets the response to its own request. The read loop calls
itself for a changed list, on the same stream; `Orderly` says of a stream, without the manager,
what such nested loops need, and `rpcMatches_iff` that they need nothing else.
-/

namespace Neuroswarm.Mcp

open Armcascade (Text isSpace)
open EStateM

variable {spec : McpServerSpec} {s s' s'' s₀ : Manager}

-- ------ The specification

def Message.IsResponseTo (m : Message) (msgId : Nat) : Prop :=
  m.id = some (.number msgId) ∧ m.method = none

/-- A loop that returns a message returns the response to its request, and takes no response that
a loop around it waits for. -/
def Handled.Matches (h : Handled) : Prop :=
  (h.returned = true → h.message.IsResponseTo h.msgId) ∧
    ∀ msgId ∈ h.outstanding, ¬ h.message.IsResponseTo msgId

/-- The call of `_rpc` returns the response to its request if it returns, and so do the calls it
makes; none takes the response of another. -/
structure RpcMatches (spec : McpServerSpec) (method : Text) (s : Manager) : Prop where
  returns : ∀ m s', (rpc spec method).run s = .ok m s' → m.IsResponseTo (s.conn spec).nextId
  handled : ∀ h ∈ ((rpc spec method).after s).handled.drop s.handled.length, h.Matches

/-- A message that the loops skip. -/
def Message.IsNotification (m : Message) : Prop := m.id = none ∧ m.method.any (· ≠ []) = true

instance (m : Message) : Decidable m.IsNotification := inferInstanceAs (Decidable (_ ∧ _))

/-- The stream answers the requests that wait, the last one first: every message, until the first
request is answered, is a notification or the response to the last request that waits. A changed
list makes a new request wait; a raise takes the last one away. -/
def Orderly : List Nat → Nat → List Read → Prop
  | [], _, _ => True
  | _ :: _, _, [] => True
  | _ :: _, _, .raises .cancelled :: _ => True
  | _ :: waiting, next, .raises (.failed _) :: stream => Orderly waiting next stream
  | msgId :: waiting, next, .message m :: stream =>
    if m.method = some listChanged then Orderly (next :: msgId :: waiting) (next + 1) stream
    else if m.IsNotification then Orderly (msgId :: waiting) next stream
    else m.IsResponseTo msgId ∧ Orderly waiting next stream

-- ------ What a loop has taken

def Manager.pending (s : Manager) (spec : McpServerSpec) : List Read :=
  ((s.conn spec).child.map (·.stream)).getD []

/-- From `s` the waiting requests have become those of `rest`, and nothing but what was handled
stands between the two streams being orderly. -/
structure Takes (spec : McpServerSpec) (waiting rest : List Nat) (s s' : Manager) : Prop where
  shorter : (s'.pending spec).length ≤ (s.pending spec).length
  later : (s.conn spec).nextId ≤ (s'.conn spec).nextId
  orderly : ∃ entries, s'.handled = s.handled ++ entries ∧
    (Orderly waiting (s.conn spec).nextId (s.pending spec) ↔
      (∀ h ∈ entries, h.Matches) ∧ Orderly rest (s'.conn spec).nextId (s'.pending spec))

variable {waiting rest : List Nat}

theorem Takes.trans {rest' : List Nat} (h : Takes spec waiting rest s s')
    (h' : Takes spec rest rest' s' s'') : Takes spec waiting rest' s s'' := by
  obtain ⟨entries, hHandled, hOrderly⟩ := h.orderly
  obtain ⟨entries', hHandled', hOrderly'⟩ := h'.orderly
  refine ⟨h'.shorter.trans h.shorter, h.later.trans h'.later, entries ++ entries', ?_, ?_⟩
  · rw [hHandled', hHandled, List.append_assoc]
  · rw [hOrderly, hOrderly', ← and_assoc, List.forall_mem_append]

structure SameStream (spec : McpServerSpec) (s s' : Manager) : Prop where
  pending : s'.pending spec = s.pending spec
  nextId : (s'.conn spec).nextId = (s.conn spec).nextId
  handled : s'.handled = s.handled

theorem SameStream.takes (h : SameStream spec s s') (waiting : List Nat) :
    Takes spec waiting waiting s s' := by
  refine ⟨by rw [h.pending], by rw [h.nextId], [], by rw [h.handled, List.append_nil], ?_⟩
  rw [h.pending, h.nextId]
  simp

theorem recordListing_ends (names : List Text) (s : Manager) :
    Ends (recordListing spec names) s (fun _ s' => SameStream spec s s') fun _ _ => False :=
  ⟨rfl, rfl, rfl⟩

theorem readMessage_ends (s : Manager) :
    Ends (readMessage spec) s
      (fun m s' => s.pending spec = .message m :: s'.pending spec ∧
        (s'.conn spec).nextId = (s.conn spec).nextId ∧ s'.handled = s.handled)
      fun e s' =>
        (s'.conn spec).nextId = (s.conn spec).nextId ∧ s'.handled = s.handled ∧
          ((s.pending spec = [] ∧ s'.pending spec = [] ∧ e ≠ .cancelled) ∨
            s.pending spec = .raises e :: s'.pending spec) := by
  unfold readMessage
  refine ends_get_bind ?_
  cases hChild : (s.conn spec).child with
  | none =>
    have hPending : s.pending spec = [] := by rw [Manager.pending, hChild]; rfl
    refine ends_throw ⟨rfl, rfl, .inl ⟨hPending, hPending, ?_⟩⟩
    intro h
    cases h
  | some child =>
    have hPending : s.pending spec = child.stream := by rw [Manager.pending, hChild]; rfl
    -- the process after the read
    generalize hNext : s.updateConn spec ({ · with child := some child.read.2 }) = s₁
    have hConn : s₁.conn spec = { s.conn spec with child := some child.read.2 } := by
      rw [← hNext, conn_updateConn_self]
    have hLeft : s₁.pending spec = child.read.2.stream := by rw [Manager.pending, hConn]; rfl
    have hId : (s₁.conn spec).nextId = (s.conn spec).nextId := by rw [hConn]
    have hHandled : s₁.handled = s.handled := by rw [← hNext]; rfl
    have hStep : Ends (updateConn spec ({ · with child := some child.read.2 })) s
        (fun _ s' => s' = s₁) fun _ _ => False := hNext
    refine ends_bind (hStep.raising fun _ _ h => h.elim) ?_
    rintro _ _ rfl
    rw [hPending]
    unfold Child.read at hLeft ⊢
    split at hLeft
    · next hStream =>
      rw [hStream] at hLeft ⊢
      refine ends_throw ⟨hId, hHandled, .inl ⟨rfl, hLeft, ?_⟩⟩
      intro h
      cases h
    · next m rest hStream =>
      rw [hStream]
      exact ends_pure ⟨by rw [hLeft], hId, hHandled⟩
    · next e rest hStream =>
      rw [hStream]
      exact ends_throw ⟨hId, hHandled, .inr (by rw [hLeft])⟩

-- ------ One pass

/-- A raise takes the last request that waits away, a cancellation all of them. -/
def TakesRaising (spec : McpServerSpec) (waiting rest : List Nat) (s : Manager) (e : RpcError)
    (s' : Manager) : Prop :=
  match e with
  | .failed _ => Takes spec waiting rest s s'
  | .cancelled => Takes spec waiting [] s s'

theorem Takes.trans_raising {rest' : List Nat} {e : RpcError} (h : Takes spec waiting rest s s')
    (h' : TakesRaising spec rest rest' s' e s'') :
    TakesRaising spec waiting rest' s e s'' := by
  cases e with
  | failed message => exact h.trans h'
  | cancelled => exact h.trans h'

variable {m : Message}

theorem takes_message {entry : Handled} (hPending : s.pending spec = .message m :: s'.pending spec)
    (hId : (s.conn spec).nextId ≤ (s'.conn spec).nextId)
    (hHandled : s'.handled = s.handled ++ [entry])
    (hOrderly : Orderly waiting (s.conn spec).nextId (.message m :: s'.pending spec) ↔
      entry.Matches ∧ Orderly rest (s'.conn spec).nextId (s'.pending spec)) :
    Takes spec waiting rest s s' := by
  refine ⟨?_, hId, [entry], hHandled, ?_⟩
  · rw [hPending, List.length_cons]
    omega
  · rw [hPending, hOrderly, List.forall_mem_singleton]

variable {msgId : Nat}

theorem takes_raise {e : RpcError} (hId : (s'.conn spec).nextId = (s.conn spec).nextId)
    (hHandled : s'.handled = s.handled)
    (h : (s.pending spec = [] ∧ s'.pending spec = [] ∧ e ≠ .cancelled) ∨
      s.pending spec = .raises e :: s'.pending spec) :
    TakesRaising spec (msgId :: rest) rest s e s' := by
  have hSame : s'.handled = s.handled ++ [] := by rw [hHandled, List.append_nil]
  have hTrivial : ∀ ids n, Orderly ids n [] := by
    intro ids n
    cases ids <;> trivial
  rcases h with ⟨hNone, hNone', hNot⟩ | hRaise
  · cases e with
    | failed message =>
      refine ⟨by rw [hNone, hNone'], by rw [hId], [], hSame, ?_⟩
      rw [hNone, hNone']
      simp [hTrivial]
    | cancelled => exact absurd rfl hNot
  · have hShorter : (s'.pending spec).length ≤ (s.pending spec).length := by
      rw [hRaise, List.length_cons]
      omega
    cases e with
    | failed message =>
      refine ⟨hShorter, by rw [hId], [], hSame, ?_⟩
      rw [hRaise, hId]
      simp [Orderly]
    | cancelled =>
      refine ⟨hShorter, by rw [hId], [], hSame, ?_⟩
      rw [hRaise]
      simp [Orderly]

theorem writeRequest_ends (method : Text) (s : Manager) :
    Ends (writeRequest spec method) s (fun msgId s' => msgId = (s.conn spec).nextId ∧
      (s'.conn spec).nextId = (s.conn spec).nextId + 1 ∧ s'.pending spec = s.pending spec ∧
      s'.handled = s.handled) fun _ _ => False := by
  generalize hNext : s.updateConn spec (fun conn => { conn with nextId := conn.nextId + 1 }) = s₁
  have hConn : s₁.conn spec = { s.conn spec with nextId := (s.conn spec).nextId + 1 } := by
    rw [← hNext, conn_updateConn_self]
  have hStep : Ends (updateConn spec fun conn => { conn with nextId := conn.nextId + 1 }) s
      (fun _ s' => s' = s₁) fun _ _ => False := hNext
  have hId : (s₁.conn spec).nextId = (s.conn spec).nextId + 1 := by rw [hConn]
  have hPending : s₁.pending spec = s.pending spec := by
    rw [Manager.pending, hConn]
    rfl
  have hHandled : s₁.handled = s.handled := by rw [← hNext]; rfl
  refine ends_get_bind (ends_bind hStep ?_)
  intro _ s₂ hState
  rw [hState]
  exact ⟨rfl, hId, hPending, hHandled⟩

theorem listedNames_ends (listed : Message) (s : Manager) :
    Ends (listedNames listed) s (fun _ s' => s' = s)
      fun e s' => s' = s ∧ ∃ message, e = .failed message := by
  unfold listedNames
  split
  · exact ends_pure rfl
  · split
    · exact ends_pure rfl
    · exact ends_throw ⟨rfl, _, rfl⟩

/-- The raise of a nested call stays in the handler, and what it read counts. -/
theorem handleListChanged_ends {relist : ManagerM Message} {Keep Cancel : Manager → Prop}
    (hSame : ∀ s₁ s₂, SameStream spec s₁ s₂ → Keep s₁ → Keep s₂)
    (hRelist : Ends relist s (fun _ => Keep) fun e s' =>
      match e with
      | .failed _ => Keep s'
      | .cancelled => Cancel s') :
    Ends (handleListChanged spec relist) s (fun _ => Keep)
      fun e s' => e = .cancelled ∧ Cancel s' := by
  unfold handleListChanged catchFailed
  refine ends_tryCatch (ends_bind hRelist fun listed s₁ hKeep => ?_) fun e s₁ hRaise => ?_
  · refine ends_bind ((listedNames_ends listed s₁).raising ?_) ?_
    · rintro e s' ⟨rfl, message, rfl⟩
      exact hKeep
    · intro names s₂ hState
      rw [hState]
      exact (recordListing_ends names s₁).mono (fun _ s' h => hSame s₁ s' h hKeep)
        fun _ _ h => h.elim
  · cases e with
    | failed message => exact ends_pure hRaise
    | cancelled => exact ends_throw ⟨rfl, hRaise⟩

-- ------ Whole loops

/-- What a loop with these requests around it starts from. -/
structure Waiting (spec : McpServerSpec) (outstanding : List Nat) (msgId : Nat) (s : Manager) :
    Prop where
  sent : msgId < (s.conn spec).nextId
  around : ∀ id ∈ outstanding, id < (s.conn spec).nextId
  fresh : msgId ∉ outstanding

variable {outstanding : List Nat}

theorem Waiting.later (h : Waiting spec outstanding msgId s)
    (hId : (s.conn spec).nextId ≤ (s'.conn spec).nextId) : Waiting spec outstanding msgId s' :=
  ⟨h.sent.trans_le hId, fun id hMem => (h.around id hMem).trans_le hId, h.fresh⟩

theorem Waiting.nest (h : Waiting spec outstanding msgId s)
    (hId : (s'.conn spec).nextId = (s.conn spec).nextId + 1) :
    Waiting spec (msgId :: outstanding) (s.conn spec).nextId s' := by
  have hAll : ∀ id ∈ msgId :: outstanding, id < (s.conn spec).nextId :=
    List.forall_mem_cons.mpr ⟨h.sent, h.around⟩
  refine ⟨by omega, fun id hMem => ?_, fun hMem => ?_⟩
  · have := hAll id hMem
    omega
  · exact lt_irrefl _ (hAll _ hMem)

theorem matches_returned (hFresh : msgId ∉ outstanding) :
    (⟨msgId, outstanding, m, true⟩ : Handled).Matches ↔ m.IsResponseTo msgId := by
  refine ⟨fun h => h.1 rfl, fun h => ⟨fun _ => h, fun id hMem hOther => ?_⟩⟩
  have hSame : id = msgId := by
    have := hOther.1.symm.trans h.1
    simpa using this
  exact hFresh (hSame ▸ hMem)

theorem matches_skipped (h : ∀ id, ¬ m.IsResponseTo id) :
    (⟨msgId, outstanding, m, false⟩ : Handled).Matches :=
  ⟨fun hReturned => Bool.noConfusion hReturned, fun id _ => h id⟩

theorem takes_listChanged (hMethod : m.method = some listChanged)
    (hPending : s.pending spec = .message m :: s'.pending spec)
    (hId : (s'.conn spec).nextId = (s.conn spec).nextId + 1)
    (hHandled : s'.handled = s.handled ++ [⟨msgId, waiting, m, false⟩]) :
    Takes spec (msgId :: waiting) ((s.conn spec).nextId :: msgId :: waiting) s s' := by
  have hSkipped : (⟨msgId, waiting, m, false⟩ : Handled).Matches := by
    refine matches_skipped fun id hResponse => ?_
    rw [hResponse.2] at hMethod
    cases hMethod
  refine takes_message hPending (by omega) hHandled ?_
  rw [Orderly, if_pos hMethod, hId]
  exact (and_iff_right hSkipped).symm

theorem takes_notification (hMethod : m.method ≠ some listChanged)
    (hNotification : m.IsNotification) (hPending : s.pending spec = .message m :: s'.pending spec)
    (hId : (s'.conn spec).nextId = (s.conn spec).nextId)
    (hHandled : s'.handled = s.handled ++ [⟨msgId, waiting, m, false⟩]) :
    Takes spec (msgId :: waiting) (msgId :: waiting) s s' := by
  have hSkipped : (⟨msgId, waiting, m, false⟩ : Handled).Matches := by
    refine matches_skipped fun id hResponse => ?_
    have hNone := hNotification.1
    rw [hResponse.1] at hNone
    cases hNone
  refine takes_message hPending (by omega) hHandled ?_
  rw [Orderly, if_neg hMethod, if_pos hNotification, hId]
  exact (and_iff_right hSkipped).symm

/-- Any other message ends the loop. -/
theorem takes_returned (hMethod : m.method ≠ some listChanged) (hNot : ¬ m.IsNotification)
    (hFresh : msgId ∉ waiting) (hPending : s.pending spec = .message m :: s'.pending spec)
    (hId : (s'.conn spec).nextId = (s.conn spec).nextId)
    (hHandled : s'.handled = s.handled ++ [⟨msgId, waiting, m, true⟩]) :
    Takes spec (msgId :: waiting) waiting s s' ∧
      (Orderly (msgId :: waiting) (s.conn spec).nextId (s.pending spec) →
        m.IsResponseTo msgId) := by
  have hHead : Orderly (msgId :: waiting) (s.conn spec).nextId (.message m :: s'.pending spec) ↔
      m.IsResponseTo msgId ∧ Orderly waiting (s.conn spec).nextId (s'.pending spec) := by
    rw [Orderly, if_neg hMethod, if_neg hNot]
  refine ⟨takes_message hPending (by omega) hHandled ?_, fun hOrderly => ?_⟩
  · rw [hHead, matches_returned hFresh, hId]
  · rw [hPending] at hOrderly
    exact (hHead.mp hOrderly).1

theorem Takes.orderly_later (h : Takes spec waiting rest s s')
    (hOrderly : Orderly waiting (s.conn spec).nextId (s.pending spec)) :
    Orderly rest (s'.conn spec).nextId (s'.pending spec) := by
  obtain ⟨entries, -, hIff⟩ := h.orderly
  exact (hIff.mp hOrderly).2

def Returns (spec : McpServerSpec) (outstanding : List Nat) (msgId : Nat) (s : Manager)
    (m : Message) (s' : Manager) : Prop :=
  Takes spec (msgId :: outstanding) outstanding s s' ∧
    (Orderly (msgId :: outstanding) (s.conn spec).nextId (s.pending spec) → m.IsResponseTo msgId)

theorem ends_skip {loop : ManagerM Message}
    (hTakes : Takes spec (msgId :: outstanding) (msgId :: outstanding) s s')
    (hLoop : Ends loop s' (Returns spec outstanding msgId s')
      (TakesRaising spec (msgId :: outstanding) outstanding s')) :
    Ends loop s' (Returns spec outstanding msgId s)
      (TakesRaising spec (msgId :: outstanding) outstanding s) := by
  refine hLoop.mono (fun m s'' hReturns => ⟨hTakes.trans hReturns.1, fun hOrderly => ?_⟩)
    fun e s'' hRaise => hTakes.trans_raising hRaise
  exact hReturns.2 (hTakes.orderly_later hOrderly)

theorem relist_ends {passes : Nat} (hMethod : m.method = some listChanged)
    (hPending : s.pending spec = .message m :: s'.pending spec)
    (hId : (s'.conn spec).nextId = (s.conn spec).nextId)
    (hHandled : s'.handled = s.handled ++ [⟨msgId, outstanding, m, false⟩])
    (hWaiting : Waiting spec outstanding msgId s)
    (hLoop : ∀ nested s₁, (s₁.pending spec).length < passes →
      Waiting spec (msgId :: outstanding) nested s₁ →
      Ends (rpcLoop passes spec (msgId :: outstanding) nested) s₁
      (Returns spec (msgId :: outstanding) nested s₁)
      (TakesRaising spec (nested :: msgId :: outstanding) (msgId :: outstanding) s₁))
    (hPasses : (s'.pending spec).length < passes) :
    Ends (handleListChanged spec do
        let nested ← writeRequest spec (text "tools/list")
        rpcLoop passes spec (msgId :: outstanding) nested) s'
      (fun _ s'' => Takes spec (msgId :: outstanding) (msgId :: outstanding) s s'' ∧
        (s''.pending spec).length ≤ (s'.pending spec).length)
      fun e s'' => e = .cancelled ∧ Takes spec (msgId :: outstanding) [] s s'' := by
  refine handleListChanged_ends ?_ ?_
  · rintro s₁ s₂ hSame ⟨hTakes, hShorter⟩
    exact ⟨hTakes.trans (hSame.takes _), by rw [hSame.pending]; exact hShorter⟩
  · refine ends_bind ((writeRequest_ends (text "tools/list") s').raising fun _ _ h => h.elim) ?_
    rintro nested s₁ ⟨hNested, hId₁, hPending₁, hHandled₁⟩
    -- the request of the handler waits inside the others
    have hTakes : Takes spec (msgId :: outstanding) (nested :: msgId :: outstanding) s s₁ := by
      rw [hNested, hId]
      exact takes_listChanged hMethod (by rw [hPending₁]; exact hPending) (by rw [hId₁, hId])
        (by rw [hHandled₁]; exact hHandled)
    have hNest : Waiting spec (msgId :: outstanding) nested s₁ := by
      rw [hNested, hId]
      exact hWaiting.nest (by rw [hId₁, hId])
    refine (hLoop nested s₁ (by rw [hPending₁]; exact hPasses) hNest).mono ?_ ?_
    · rintro listed s₂ ⟨hTakes', -⟩
      exact ⟨hTakes.trans hTakes', by rw [← hPending₁]; exact hTakes'.shorter⟩
    · intro e s₂ hRaise
      cases e with
      | failed message => exact ⟨hTakes.trans hRaise, by rw [← hPending₁]; exact hRaise.shorter⟩
      | cancelled => exact hTakes.trans hRaise

theorem rpcLoop_ends (passes : Nat) (outstanding : List Nat) (msgId : Nat) (s : Manager)
    (hPasses : (s.pending spec).length < passes) (hWaiting : Waiting spec outstanding msgId s) :
    Ends (rpcLoop passes spec outstanding msgId) s (Returns spec outstanding msgId s)
      (TakesRaising spec (msgId :: outstanding) outstanding s) := by
  induction passes generalizing outstanding msgId s with
  | zero => omega
  | succ passes ih =>
    have hRead : Ends (readMessage spec) s
        (fun m s₁ => s.pending spec = .message m :: s₁.pending spec ∧
          (s₁.conn spec).nextId = (s.conn spec).nextId ∧ s₁.handled = s.handled)
        (TakesRaising spec (msgId :: outstanding) outstanding s) := by
      refine (readMessage_ends s).raising ?_
      rintro e s₁ ⟨hId, hHandled, hRaise⟩
      exact takes_raise hId hHandled hRaise
    refine ends_bind hRead ?_
    rintro m s₁ ⟨hPending, hId, hHandled⟩
    have hShort : (s₁.pending spec).length < passes := by
      rw [hPending, List.length_cons] at hPasses
      omega
    have hLog : ∀ returned, Ends (logHandled ⟨msgId, outstanding, m, returned⟩) s₁
        (fun _ s₂ => s.pending spec = .message m :: s₂.pending spec ∧
          (s₂.conn spec).nextId = (s.conn spec).nextId ∧
          s₂.handled = s.handled ++ [⟨msgId, outstanding, m, returned⟩] ∧
          (s₂.pending spec).length < passes)
        (TakesRaising spec (msgId :: outstanding) outstanding s) := by
      intro returned
      exact ends_modify ⟨hPending, hId, by rw [hHandled], hShort⟩
    split
    · next hMethod =>
      refine ends_bind (hLog false) ?_
      rintro _ s₂ ⟨hPending₂, hId₂, hHandled₂, hShort₂⟩
      have hRelist := relist_ends hMethod hPending₂ hId₂ hHandled₂ hWaiting fun nested s₃ =>
        ih (msgId :: outstanding) nested s₃
      refine ends_bind (hRelist hShort₂ |>.raising ?_) ?_
      · rintro e s₃ ⟨rfl, hTakes⟩
        exact hTakes
      · rintro _ s₃ ⟨hTakes, hShorter⟩
        refine ends_skip hTakes (ih outstanding msgId s₃ (by omega) ?_)
        exact hWaiting.later hTakes.later
    · next hMethod =>
      split
      · next hSame =>
        refine ends_bind (hLog true) ?_
        rintro _ s₂ ⟨hPending₂, hId₂, hHandled₂, -⟩
        have hNot : ¬ m.IsNotification := by
          intro hNotification
          rw [hNotification.1] at hSame
          cases hSame
        exact ends_pure (takes_returned hMethod hNot hWaiting.fresh hPending₂ hId₂ hHandled₂)
      · split
        · next hNotification =>
          refine ends_bind (hLog false) ?_
          rintro _ s₂ ⟨hPending₂, hId₂, hHandled₂, hShort₂⟩
          refine ends_skip
            (takes_notification hMethod hNotification hPending₂ hId₂ hHandled₂) ?_
          exact ih outstanding msgId s₂ hShort₂ (hWaiting.later (by omega))
        · next hNot =>
          refine ends_bind (hLog true) ?_
          rintro _ s₂ ⟨hPending₂, hId₂, hHandled₂, -⟩
          exact ends_pure (takes_returned hMethod hNot hWaiting.fresh hPending₂ hId₂ hHandled₂)

-- ------ Whole calls

/-- The entries of a call match exactly if its stream is orderly. -/
def Judged (spec : McpServerSpec) (s : Manager) (stream : List Read) (s' : Manager) : Prop :=
  (Orderly [(s.conn spec).nextId] ((s.conn spec).nextId + 1) stream ↔
    ∀ h ∈ s'.handled.drop s.handled.length, h.Matches)

theorem Takes.judged {stream : List Read} (hTakes : Takes spec [msgId] [] s' s'')
    (hMsgId : msgId = (s.conn spec).nextId) (hId : (s'.conn spec).nextId = (s.conn spec).nextId + 1)
    (hPending : s'.pending spec = stream) (hHandled : s'.handled = s.handled) :
    Judged spec s stream s'' := by
  obtain ⟨entries, hEntries, hOrderly⟩ := hTakes.orderly
  subst hMsgId
  rw [Judged, hEntries, hHandled, List.drop_left, ← hPending, ← hId, hOrderly]
  simp [Orderly]

theorem rpc_ends (method : Text) {child : Child} (hChild : (s.conn spec).child = some child) :
    Ends (rpc spec method) s
      (fun m s' => Judged spec s child.stream s' ∧
        (Orderly [(s.conn spec).nextId] ((s.conn spec).nextId + 1) child.stream →
          m.IsResponseTo (s.conn spec).nextId))
      fun _ s' => Judged spec s child.stream s' := by
  have hStream : s.pending spec = child.stream := by rw [Manager.pending, hChild]; rfl
  unfold rpc
  refine ends_get_bind ?_
  rw [hChild]
  refine ends_bind ((writeRequest_ends method s).raising fun _ _ h => h.elim) ?_
  rintro msgId s₁ ⟨hMsgId, hId, hPending, hHandled⟩
  rw [hStream] at hPending
  have hWaiting : Waiting spec [] msgId s₁ := by
    refine ⟨by omega, ?_, ?_⟩ <;> simp
  refine (rpcLoop_ends _ [] msgId s₁ (by rw [hPending]; omega) hWaiting).mono ?_ ?_
  · rintro m s₂ ⟨hTakes, hReturns⟩
    refine ⟨hTakes.judged hMsgId hId hPending hHandled, ?_⟩
    rwa [hMsgId, hId, hPending] at hReturns
  · intro e s₂ hRaise
    cases e with
    | failed message => exact Takes.judged hRaise hMsgId hId hPending hHandled
    | cancelled => exact Takes.judged hRaise hMsgId hId hPending hHandled

/-- Responses match requests exactly on the streams that answer the last request first. -/
theorem rpcMatches_iff (spec : McpServerSpec) (method : Text) (s : Manager) :
    RpcMatches spec method s ↔ ∀ child, (s.conn spec).child = some child →
      Orderly [(s.conn spec).nextId] ((s.conn spec).nextId + 1) child.stream := by
  cases hChild : (s.conn spec).child with
  | none =>
    have hRun : (rpc spec method).run s = .error (.failed "MCP process not running") s := by
      unfold rpc
      simp only [run_bind, run_get, hChild]
      rfl
    refine ⟨fun _ child h => (by cases h), fun _ => ⟨fun m s' hReturn => ?_, ?_⟩⟩
    · rw [hRun] at hReturn
      cases hReturn
    · unfold after
      rw [hRun]
      simp [Result.state]
  | some child =>
    have hEnds := rpc_ends method hChild
    have hJudged : Judged spec s child.stream ((rpc spec method).after s) :=
      (hEnds.mono (fun _ _ h => h.1) fun _ _ h => h).after
    constructor
    · rintro h _ ⟨rfl⟩
      exact hJudged.mpr h.handled
    · intro h
      have hOrderly := h child rfl
      exact ⟨fun m s' hReturn => (hEnds.ok hReturn).2 hOrderly, hJudged.mp hOrderly⟩

/-- A list changes while the first request waits, and its response comes before that of the
handler's own request. -/
def crossedManager : Manager :=
  { conns := Dict.empty.set (text "git")
      { spec := ⟨text "git", .stdio, none⟩
        child := some ⟨.empty,
          [.message { method := some listChanged },
            .message { id := some (.number 1), result := some {} },
            .message { id := some (.number 2), result := some {} }]⟩ } }

/-- The handler takes the response of the first request, which gets the handler's. -/
theorem not_rpcMatches_crossed :
    ¬ RpcMatches ⟨text "git", .stdio, none⟩ toolsCall crossedManager := by
  intro h
  have hId : (match (rpc ⟨text "git", .stdio, none⟩ toolsCall).run crossedManager with
      | .ok m _ => m.id
      | .error _ _ => none) = some (.number 2) := by decide +kernel
  have hNext : (crossedManager.conn ⟨text "git", .stdio, none⟩).nextId = 1 := by decide +kernel
  split at hId
  · next m s' hRun =>
    have hResponse := (h.returns m s' hRun).1
    rw [hId, hNext] at hResponse
    revert hResponse
    decide
  · cases hId

end Neuroswarm.Mcp
