import Getrafty.TcpSocketPending

set_option autoImplicit false

namespace Getrafty

open Transition (Exec Of Guarded)

/-- Reads of the socket are served, or will be when the bind is replied to. -/
def SocketState.reading : SocketState → Bool
  | .BindWait | .Bound | .Connected => true
  | _ => false

namespace TcpTransport

/-- Every connection but these is armed for reads. -/
def ArmedBut (t : TcpTransport) (fds : List Fd) : Prop :=
  ∀ fd c, t.conn fd = some c → fd ∈ fds ∨ c.read_armed_ = true

instance (t : TcpTransport) (fds : List Fd) : Decidable (ArmedBut t fds) :=
  decidable_of_iff
    (∀ fd ∈ t.connection_by_fd_.keys, fd ∈ fds ∨ (t.conn fd).any (·.read_armed_) = true) (by
      constructor
      · intro all fd c held
        have here := all fd (mem_keys.mpr ⟨c, held⟩)
        rw [held] at here
        exact here
      · intro armed fd member
        obtain ⟨c, held⟩ := mem_keys.mp member
        rw [held]
        exact armed fd c held)

section Armed

variable {t t' : TcpTransport} {fds : List Fd}

theorem keys_ne_nil : t.connection_by_fd_.keys ≠ [] ↔ ∃ fd c, t.conn fd = some c := by
  constructor
  · intro some_key
    obtain ⟨fd, member⟩ := List.exists_mem_of_ne_nil _ some_key
    exact ⟨fd, mem_keys.mp member⟩
  · rintro ⟨fd, held⟩
    exact List.ne_nil_of_mem (mem_keys.mpr held)

/-- No connection is new, and none is disarmed. -/
theorem ArmedBut.kept (armed : t.ArmedBut fds)
    (left : ∀ fd c', t'.conn fd = some c' → ∃ c, t.conn fd = some c ∧
      c'.read_armed_ = c.read_armed_) :
    t'.ArmedBut fds := by
  intro fd c' held'
  obtain ⟨c, held, same⟩ := left fd c' held'
  exact (armed fd c held).imp_right same.trans

theorem conn_release (t : TcpTransport) (fd : Fd) {fd' : Fd} {c : Connection}
    (held' : (t.releaseConnection fd).conn fd' = some c) : t.conn fd' = some c := by
  cases held : t.conn fd with
  | none =>
      unfold releaseConnection at held'
      rw [held] at held'
      exact held'
  | some c' =>
      rw [(releaseConnection_spec held).conn fd'] at held'
      exact (Option.ite_none_left_eq_some.mp held').2

/-- Visited connections are armed. -/
theorem Visits.armed (visits : Visits t t' fds) (armed : t.ArmedBut fds) : t'.ArmedBut [] := by
  intro fd c' held'
  rw [visits.conn fd] at held'
  by_cases among : fd ∈ fds
  · rw [if_pos among] at held'
    obtain ⟨c, -, rfl⟩ := Option.map_eq_some_iff.mp held'
    exact Or.inr rfl
  · rw [if_neg among] at held'
    exact Or.inr ((armed fd c' held').resolve_left among)

theorem Visits.some_conn (visits : Visits t t' fds) (some_conn : ∃ fd c, t.conn fd = some c) :
    ∃ fd c, t'.conn fd = some c := by
  obtain ⟨fd, c, held⟩ := some_conn
  obtain ⟨c', held', -⟩ := visits.keepsWrites.held fd c held List.not_mem_nil
  exact ⟨fd, c', held'⟩

/-- A `resumeRead` that would block arms the connections that it has tried. -/
theorem resumeRead_blocked {order : List Fd} {recv : Fd → RecvOutcome}
    (all : order.Perm t.connection_by_fd_.keys) (blocks : t.decisive order recv = none) :
    (t.resumeRead order recv).1 = { n := 0, status := .WouldBlock, data := filled [] } ∧
      Visits t (t.resumeRead order recv).2 (t.tried order) := by
  obtain ⟨result, after, same, case⟩ := resumeRead_cases t recv all
  rw [same]
  have decides {fd : Fd} (source : Decides t order recv fd)
      (ends : RecvOutcome.blocks (recv fd) = false) : False := by
    rw [source.decisive ends] at blocks
    cases blocks
  cases case with
  | hotBlocked fd errno _ hot out full visits =>
      refine ⟨rfl, ?_⟩
      rw [tried, hot]
      exact visits
  | scanBlocked _ cold out visits =>
      refine ⟨rfl, ?_⟩
      rw [tried, cold]
      exact visits
  | received fd c chunk _ fds source held out visits =>
      exact (decides source (by rw [out]; rfl)).elim
  | ended fd c _ fds source held out visits => exact (decides source (by rw [out]; rfl)).elim
  | broken fd c errno _ fds source held out hard visits =>
      exact (decides source (by rw [out]; exact hard)).elim

/-- A write leaves the arming for reads alone, and gives up what the send has failed on. -/
theorem resumeWrite_armed (t : TcpTransport) (data : Buffer) (peer : Peer) (send : SendOutcome)
    (armed : t.ArmedBut []) : (t.resumeWrite data peer send).2.ArmedBut [] := by
  obtain ⟨result, after, same, case⟩ := resumeWrite_cases t data peer send
  rw [same]
  cases case with
  | unresolved status missing => exact armed
  | sent fd n found out some_byte => exact armed
  | blocked fd errno found out full =>
      refine armed.kept fun fd' c' held' => ?_
      obtain ⟨conn, -⟩ := watchWrite_spec (t.call (.send fd)) fd
      have there := (conn fd').symm.trans held'
      by_cases here : fd' = fd
      · rw [if_pos here] at there
        obtain ⟨c, held, rfl⟩ := Option.map_eq_some_iff.mp there
        exact ⟨c, here ▸ held, rfl⟩
      · rw [if_neg here] at there
        exact ⟨c', there, rfl⟩
  | ended fd n found out no_byte =>
      exact armed.kept fun fd' c' held' => ⟨c', conn_release (t.call (.send fd)) fd held', rfl⟩
  | broken fd errno found out hard =>
      exact armed.kept fun fd' c' held' => ⟨c', conn_release (t.call (.send fd)) fd held', rfl⟩

/-- Accepted connections are armed. -/
theorem ArmedBut.accepted (armed : t.ArmedBut []) (accepted : List Accepted) :
    (t.onAcceptReady accepted).ArmedBut [] := by
  intro fd c' held'
  rcases accepted_conn (accepted.take 10) t fd with ⟨-, same⟩ | ⟨-, a, -, -, here⟩
  · exact armed fd c' (same.symm.trans held')
  · have there : some c' = some { fd_ := fd, peer_ := Accepted.peer a, read_armed_ := true } :=
      held'.symm.trans here
    rw [Option.some.inj there]
    exact Or.inr rfl

theorem accepted_some_conn (accepted : List Accepted) (some_conn : ∃ fd c, t.conn fd = some c) :
    ∃ fd c, (t.onAcceptReady accepted).conn fd = some c := by
  obtain ⟨fd, c, held⟩ := some_conn
  rcases accepted_conn (accepted.take 10) t fd with ⟨-, same⟩ | ⟨-, a, -, -, here⟩
  · exact ⟨fd, c, same.trans held⟩
  · exact ⟨fd, _, here⟩

end Armed

end TcpTransport

namespace TcpSocket

/-- Whatever arrives wakes a read: every connection is armed, and a connected socket has one. -/
structure Hears (s : TcpSocket) : Prop where
  armed : ∀ fd c, s.transport.conn fd = some c → c.read_armed_ = true
  some_conn : s.socket.state_ = .Connected → ∃ fd c, s.transport.conn fd = some c

/-- The loop of `transportRead` is to go on below these frames, or to start again. -/
def ReadsAgain (s : TcpSocket) (frames : List SocketFrame) : Prop :=
  .reads ∈ frames ∨ .ReadReadyRep ∈ s.transport.inflight

instance (s : TcpSocket) (frames : List SocketFrame) : Decidable (ReadsAgain s frames) :=
  inferInstanceAs (Decidable (_ ∨ _))

/-- A queued read is woken, or looked at anyhow. -/
def Attuned (s : TcpSocket) : Prop :=
  s.socket.state_.reading = true → s.socket.read_queue_ ≠ [] →
    s.ReadsAgain s.socket.stack ∨ s.Hears

/-- While a read is queued, a connect completes only with an armed connection, `transportRead` stops
only when all connections but those it has tried are armed, and a send gives up no connection of a
connected socket. -/
def WakesReads (s : TcpSocket) : Label → Prop
  | .deliver (.ConnectRep status) => status = .Ok ∧ s.socket.state_ = .ConnectWait →
      s.socket.read_queue_ = [] ∨ .ReadReadyRep ∈ s.transport.inflight ∨
        s.transport.ArmedBut [] ∧ s.transport.connection_by_fd_.keys ≠ []
  | .resumeRead order recv => s.transport.decisive order recv = none →
      s.ReadsAgain s.socket.stack.tail ∨ s.transport.ArmedBut (s.transport.tried order) ∧
        (s.socket.state_ = .Connected → s.transport.connection_by_fd_.keys ≠ [])
  | .resumeWrite send => s.socket.state_ = .Connected →
      s.socket.read_queue_ = [] ∨ s.ReadsAgain s.socket.stack ∨ s.givesUp (.resumeWrite send) = []
  | _ => True

instance (s : TcpSocket) : DecidablePred s.WakesReads :=
  fun label => match label with
    | .deliver (.ConnectRep status) => inferInstanceAs (Decidable
        (status = .Ok ∧ s.socket.state_ = .ConnectWait →
          s.socket.read_queue_ = [] ∨ .ReadReadyRep ∈ s.transport.inflight ∨
            s.transport.ArmedBut [] ∧ s.transport.connection_by_fd_.keys ≠ []))
    | .resumeRead order recv => decidable_of_iff
        ((s.transport.decisive order recv).isNone = true →
          s.ReadsAgain s.socket.stack.tail ∨ s.transport.ArmedBut (s.transport.tried order) ∧
            (s.socket.state_ = .Connected → s.transport.connection_by_fd_.keys ≠ []))
        (by simp only [WakesReads, Option.isNone_iff_eq_none])
    | .resumeWrite send => inferInstanceAs (Decidable
        (s.socket.state_ = .Connected → s.socket.read_queue_ = [] ∨
          s.ReadsAgain s.socket.stack ∨ s.givesUp (.resumeWrite send) = []))
    | .deliver (.BindRep _ _) | .deliver .ReadReadyRep | .deliver (.WriteReadyRep _) | .bind _
    | .connect _ | .read | .write _ _ | .close | .acceptReady _ _ | .connectReady _ _ | .readReady _
    | .writeReady _ | .failWrite _ | .resume => isTrue trivial

end TcpSocket

namespace Socket

section Reads

variable {s next : Socket}

/-- A request for a read enters the loop, and others leave the reads alone. -/
theorem asked_reads {request : Request} (taken : Step s (.request request) next) :
    .reads ∈ next.stack ∨ next.read_queue_ = s.read_queue_ ∧
    ∀ frame ∈ s.stack, frame ∈ next.stack := by
  cases taken with
  | readAsked open_ room => exact Or.inl List.mem_cons_self
  | bindFull | connectFull | writeBusy => exact Or.inr ⟨rfl, fun _ member => member⟩
  | closeAsked open_ =>
      exact Or.inr ⟨rfl, fun _ member => List.mem_cons_of_mem _ (List.mem_cons_of_mem _ member)⟩
  | _ => exact Or.inr ⟨rfl, fun _ member => List.mem_cons_of_mem _ member⟩

theorem replied_reads {reply : Reply} (taken : Step s (.reply reply) next) :
    next.read_queue_ = s.read_queue_ ∧ (∀ frame ∈ s.stack, frame ∈ next.stack) ∧
      (reply = .ReadReadyRep → .reads ∈ next.stack) := by
  cases taken with
  | readReady inline =>
      exact ⟨rfl, fun _ member => List.mem_cons_of_mem _ member, fun _ => List.mem_cons_self⟩
  | bindReplied | connectReplied | writeReady =>
      exact ⟨rfl, fun _ member => List.mem_cons_of_mem _ member, fun same => by cases same⟩
  | _ => exact ⟨rfl, fun _ member => member, fun same => by cases same⟩

/-- The loop of `transportRead` stops when it would block, or closes. -/
theorem readTurn_reads {result : ReadResult} (taken : step s (.resumeRead result) = some next)
    (more : result.status ≠ .WouldBlock) (same : next.state_ = s.state_) : .reads ∈ next.stack := by
  obtain ⟨_, _, _, top, -, -⟩ := resumeRead_turn taken
  cases (step_cases taken).2 with
  | readBlocked _ frames _ blocked => exact absurd blocked.2 more
  | readEnded _ frames req queue _ first connected eof =>
      rw [connected] at same
      cases same
  | readAnswered _ frames id queue status data _ first not_eof =>
      exact List.mem_cons_of_mem _ List.mem_cons_self
  | readMoved _ queue first =>
      rw [top]
      exact List.mem_cons_self

theorem readTurn_blocked {result : ReadResult} {frames : List SocketFrame}
    (taken : step s (.resumeRead result) = some next) (top : s.stack = .reads :: frames)
    (none : result.n = 0) (blocked : result.status = .WouldBlock) :
    next.stack = frames ∧ next.read_queue_ = s.read_queue_ := by
  obtain ⟨_, _, _, same, -, rfl⟩ := resumeRead_turn taken
  rw [top] at same
  cases same
  rw [readTurn, if_pos none, if_pos blocked]
  exact ⟨rfl, rfl⟩

theorem writeTurn_reads {result : WriteResult} {peer : Peer} {frames : List SocketFrame}
    (taken : Step s (.resumeWrite result) next) (top : s.stack = .write peer :: frames) :
    next.read_queue_ = s.read_queue_ ∧ (.reads ∈ s.stack → .reads ∈ next.stack) := by
  have inner {frames' : List SocketFrame} (top' : s.stack = .write peer :: frames')
      (member : .reads ∈ s.stack) : .reads ∈ frames' := by
    rw [top'] at member
    rcases List.mem_cons.mp member with same | below
    · cases same
    · exact below
  cases taken with
  | writeBlocked _ peer' req frames' top' held blocked =>
      obtain ⟨⟨rfl⟩, -⟩ := List.cons.inj (top.symm.trans top')
      exact ⟨rfl, inner top'⟩
  | writeAnswered _ peer' req id frames' top' held owner final =>
      obtain ⟨⟨rfl⟩, -⟩ := List.cons.inj (top.symm.trans top')
      exact ⟨rfl, fun member => List.mem_cons_of_mem _ (inner top' member)⟩
  | writeMoved _ peer' req frames' top' held owner =>
      obtain ⟨⟨rfl⟩, -⟩ := List.cons.inj (top.symm.trans top')
      exact ⟨rfl, inner top'⟩

/-- The rest of a tick leaves the reads alone, but for a close. -/
theorem inner_reads {label : TcpSocket.Label} {inner : Label} (runs : label.inner? = some inner)
    (taken : Step s inner next) (coherent : Coherent s) (open_ : s.state_.shut = false)
    (other : s.stack.head? ≠ some .reads) :
    next.read_queue_ = s.read_queue_ ∧ (.reads ∈ s.stack → .reads ∈ next.stack) := by
  have shut {stage : CloseStage} {callback : Callback} {frames : List SocketFrame}
      (top : s.stack = .closing stage callback :: frames) : False := by
    rw [coherent.shut top] at open_
    cases open_
  cases label with
  | failWrite peer =>
      cases runs
      cases taken with
      | writeFailed _ _ _ _ _ _ top => exact (shut top).elim
      | writeSkipped _ _ _ _ top => exact (shut top).elim
  | resume =>
      cases runs
      cases taken with
      | left frame frames top kind =>
          refine ⟨rfl, fun member => ?_⟩
          rw [top] at member other
          rcases List.mem_cons.mp member with rfl | below
          · exact absurd rfl other
          · exact below
      | closingBind _ _ top | closingConnect _ _ top | closingReads _ _ top | closingWrites _ _ top
      | bindFailed _ _ _ _ top | bindGone _ _ _ top | connectFailed _ _ _ _ top
      | connectGone _ _ _ top | readFailed _ _ _ _ top | readSkipped _ _ _ top | closed _ _ top
      | closedSilently _ top =>
          exact (shut top).elim
  | _ => cases runs

end Reads

end Socket

namespace TcpSocket

section Waking

variable {s next : TcpSocket} {label : Label} {labels : List Label} {order : List Fd}
  {recv : Fd → RecvOutcome}

theorem open_of_reading {state_ : SocketState} (reading : state_.reading = true) :
    state_.shut = false := by
  cases state_ with
  | CloseWait | Closed => cases reading
  | _ => rfl

/-- A step that keeps what is queued, and loses no frame and no reply that would look at it. -/
theorem Attuned.kept (attuned : Attuned s) (state : next.socket.state_ = s.socket.state_)
    (reads : .reads ∈ next.socket.stack ∨ next.socket.read_queue_ = s.socket.read_queue_ ∧
      (.reads ∈ s.socket.stack → .reads ∈ next.socket.stack))
    (posted : ∀ reply ∈ s.transport.inflight, reply ∈ next.transport.inflight)
    (hears : s.socket.read_queue_ ≠ [] → ¬ s.ReadsAgain s.socket.stack → s.Hears → next.Hears) :
    Attuned next := by
  intro reading queued
  rcases reads with here | ⟨queue, below⟩
  · exact Or.inl (Or.inl here)
  · rw [state] at reading
    rw [queue] at queued
    by_cases again : s.ReadsAgain s.socket.stack
    · rcases again with member | signalled
      · exact Or.inl (Or.inl (below member))
      · exact Or.inl (Or.inr (posted _ signalled))
    · exact Or.inr (hears queued again ((attuned reading queued).resolve_left again))

theorem Attuned.silent (silent : next.socket.state_.reading = false) : Attuned next := by
  intro reading
  rw [silent] at reading
  cases reading

theorem Hears.transport (hears : Hears s) (state : next.socket.state_ = s.socket.state_)
    (armed : next.transport.ArmedBut [])
    (some_conn : (∃ fd c, s.transport.conn fd = some c) → ∃ fd c, next.transport.conn fd = some c) :
    Hears next := by
  constructor
  · exact fun fd c held => (armed fd c held).resolve_left List.not_mem_nil
  · rw [state]
    exact fun connected => some_conn (hears.some_conn connected)

theorem Hears.armedBut (hears : Hears s) : s.transport.ArmedBut [] :=
  fun fd c held => Or.inr (hears.armed fd c held)

theorem Attuned.delivered (attuned : Attuned s) {reply : Socket.Reply} {socket : Socket}
    (did : s.socket.step (.reply reply) = some socket) (wakes : WakesReads s (.deliver reply)) :
    Attuned { s with
      socket
      transport := { s.transport with inflight := s.transport.inflight.erase reply } } := by
  have case := (Socket.step_cases did).2
  obtain ⟨queue, below, loops⟩ := Socket.replied_reads case
  -- the loop starts again, or what would have started it is still in flight
  have again (before : s.ReadsAgain s.socket.stack) : ReadsAgain { s with
      socket
      transport := { s.transport with inflight := s.transport.inflight.erase reply } }
      socket.stack := by
    rcases before with member | signalled
    · exact Or.inl (below _ member)
    · by_cases same : reply = .ReadReadyRep
      · exact Or.inl (loops same)
      · exact Or.inr ((List.mem_erase_of_ne fun same' => same same'.symm).mpr signalled)
  intro reading queued
  have before : s.socket.read_queue_ ≠ [] := queue ▸ queued
  rcases Socket.reply_state case with
    same | ⟨status, endpoint, rfl, waits, moved⟩ | ⟨status, rfl, waits, moved⟩
  · have reading' : s.socket.state_.reading = true := same ▸ reading
    rcases attuned reading' before with old | hears
    · exact Or.inl (again old)
    · exact Or.inr (hears.transport same hears.armedBut id)
  · have reading' : s.socket.state_.reading = true := by
      rw [waits]
      rfl
    rcases attuned reading' before with old | hears
    · exact Or.inl (again old)
    · refine Or.inr ⟨hears.armed, fun connected => ?_⟩
      have state : socket.state_ = .Connected := connected
      rw [moved] at state
      split at state <;> cases state
  · by_cases ok : status = .Ok
    · rcases wakes ⟨ok, waits⟩ with none | signalled | ⟨armed, some_key⟩
      · exact absurd none before
      · exact Or.inl (again (Or.inr signalled))
      · refine Or.inr ⟨fun fd c held => ?_, fun _ => TcpTransport.keys_ne_nil.mp some_key⟩
        exact (armed fd c held).resolve_left List.not_mem_nil
    · have state : socket.state_.reading = true := reading
      rw [moved, if_neg ok] at state
      cases state

theorem attuned_readTurn {socket : Socket}
    (all : order.Perm s.transport.connection_by_fd_.keys)
    (did : s.socket.step (.resumeRead (s.transport.resumeRead order recv).1) = some socket)
    (same : socket.state_ = s.socket.state_) (wakes : WakesReads s (.resumeRead order recv)) :
    Attuned { s with socket, transport := (s.transport.resumeRead order recv).2 } := by
  obtain ⟨frames, req, queue, top, first, -⟩ := Socket.resumeRead_turn did
  intro reading queued
  cases ends : s.transport.decisive order recv with
  | some last =>
      refine Or.inl (Or.inl (Socket.readTurn_reads did ?_ same))
      obtain ⟨result, after, eq, case⟩ := TcpTransport.resumeRead_cases s.transport recv all
      rw [eq, case.result_eq, ends]
      obtain ⟨fd, outcome⟩ := last
      cases outcome <;> exact fun same => by cases same
  | none =>
      obtain ⟨blocked, visits⟩ := TcpTransport.resumeRead_blocked all ends
      obtain ⟨below, -⟩ := Socket.readTurn_blocked did top (by rw [blocked]) (by rw [blocked])
      rcases wakes ends with (member | signalled) | ⟨armed, some_key⟩
      · rw [top] at member
        exact Or.inl (Or.inl (below ▸ member))
      · exact Or.inl (Or.inr ((TcpTransport.carries_resumeRead recv all).posted _ signalled))
      · refine Or.inr ⟨fun fd c held => ?_, fun connected => ?_⟩
        · exact (visits.armed armed fd c held).resolve_left List.not_mem_nil
        · have before : s.socket.state_ = .Connected := same.symm.trans connected
          exact visits.some_conn (TcpTransport.keys_ne_nil.mp (some_key before))

/-- Without one that it gives up, a write leaves every connection there. -/
theorem resumeWrite_some_conn {key : Peer} {req : WriteReq} {send : SendOutcome}
    (found : current s.socket = some (key, req)) (spared : s.givesUp (.resumeWrite send) = [])
    (some_conn : ∃ fd c, s.transport.conn fd = some c) :
    ∃ fd c, (s.transport.resumeWrite req.data key send).2.conn fd = some c := by
  obtain ⟨result, after, same, case⟩ :=
    TcpTransport.resumeWrite_cases s.transport req.data key send
  rw [same]
  cases case with
  | unresolved status missing => exact some_conn
  | sent fd n resolved out some_byte => exact some_conn
  | blocked fd errno resolved out full =>
      obtain ⟨fd', c, held⟩ := some_conn
      obtain ⟨conn, -⟩ := TcpTransport.watchWrite_spec (s.transport.call (.send fd)) fd
      by_cases here : fd' = fd
      · refine ⟨fd', c.setArmed .WRONLY true, ?_⟩
        have there : (s.transport.call (.send fd)).conn fd = some c := here ▸ held
        rw [conn fd', if_pos here, there]
        rfl
      · refine ⟨fd', c, ?_⟩
        rw [conn fd', if_neg here]
        exact held
  | ended fd n resolved out no_byte =>
      simp only [givesUp, found, resolved, out, no_byte, if_pos] at spared
      cases spared
  | broken fd errno resolved out hard =>
      simp only [givesUp, found, resolved, out, hard] at spared
      cases spared

theorem Attuned.handled (attuned : Attuned s) {op : TcpTransport.Op} {transport : TcpTransport}
    (phased : Phased s) (runs : label.handler? = some op)
    (did : s.transport.step op = some transport) : Attuned { s with transport } := by
  have posted := (TcpTransport.carries_handler runs did).posted
  cases label with
  | acceptReady fd accepted =>
      cases runs
      obtain ⟨-, same⟩ := Option.ite_none_right_eq_some.mp did
      refine attuned.kept rfl (Or.inr ⟨rfl, id⟩) posted fun _ _ hears => ?_
      rw [← Option.some.inj same]
      exact hears.transport rfl (hears.armedBut.accepted accepted)
        (TcpTransport.accepted_some_conn accepted)
  | connectReady fd o =>
      cases runs
      obtain ⟨⟨watched, -⟩, -⟩ := Option.ite_none_right_eq_some.mp did
      apply Attuned.silent
      have waits : s.socket.state_ = .ConnectWait := (phased.attempt _ watched).1
      change s.socket.state_.reading = false
      rw [waits]
      rfl
  | readReady fd =>
      cases runs
      obtain ⟨-, same⟩ := Option.ite_none_right_eq_some.mp did
      refine attuned.kept rfl (Or.inr ⟨rfl, id⟩) posted fun _ _ hears => ?_
      rw [← Option.some.inj same, TcpTransport.onReadReady]
      split <;> exact hears.transport rfl hears.armedBut id
  | writeReady fd =>
      cases runs
      obtain ⟨-, same⟩ := Option.ite_none_right_eq_some.mp did
      refine attuned.kept rfl (Or.inr ⟨rfl, id⟩) posted fun _ _ hears => ?_
      rw [← Option.some.inj same, TcpTransport.onWriteReady]
      split <;> exact hears.transport rfl hears.armedBut id
  | _ => cases runs

theorem Step.attuned (taken : Step s label next) (phased : Phased s)
    (coherent : Socket.Coherent s.socket) (wakes : WakesReads s label) (attuned : Attuned s) :
    Attuned next := by
  cases taken with
  | binds o socket fresh did idle waits =>
      intro reading queued
      have none (fd : Fd) : (s.transport.bind o).conn fd = none := by
        rw [TcpTransport.conn, (TcpTransport.bind_maps s.transport o).1]
        exact phased.conn_idle idle fd
      refine Or.inr ⟨fun fd c held => ?_, fun connected => ?_⟩
      · rw [none fd] at held
        cases held
      · rw [waits] at connected
        cases connected
  | connects o socket fresh did idle waits => exact .silent (by rw [waits]; rfl)
  | closes socket did open_ closing => exact .silent (by rw [closing]; rfl)
  | asked _ request socket asks did same =>
      refine attuned.kept same ?_ (fun _ posted => posted) fun _ _ hears =>
        hears.transport same hears.armedBut id
      exact (Socket.asked_reads (Socket.step_cases did).2).imp_right
        fun both => ⟨both.1, both.2 _⟩
  | delivered reply socket idle did posted => exact attuned.delivered did wakes
  | handled _ op transport runs idle sound did => exact attuned.handled phased runs did
  | readTurn order recv socket all did same => exact attuned_readTurn all did same wakes
  | readEnded order recv socket all did connected closing eof =>
      exact .silent (by rw [closing]; rfl)
  | writeTurn send peer frames req socket top held did =>
      have case := (Socket.step_cases did).2
      have same := Socket.write_state case
      have found : current s.socket = some (s.socket.writeKey peer, req) := by
        unfold current
        rw [top]
        simp only [held, Option.map_some]
      refine attuned.kept same (Or.inr (Socket.writeTurn_reads case top))
        (TcpTransport.carries_resumeWrite s.transport req.data _ send).posted
        fun queued loop hears => ?_
      constructor
      · intro fd c held'
        have armed := TcpTransport.resumeWrite_armed s.transport req.data
          (s.socket.writeKey peer) send hears.armedBut
        exact (armed fd c held').resolve_left List.not_mem_nil
      · intro connected
        have before : s.socket.state_ = .Connected := same.symm.trans connected
        rcases wakes before with none | again | spared
        · exact absurd none queued
        · exact absurd again loop
        · exact resumeWrite_some_conn found spared (hears.some_conn before)
  | resumed _ inner socket runs did other =>
      have case := (Socket.step_cases did).2
      rcases Socket.inner_state runs case coherent with same | ⟨-, closed⟩
      · intro reading queued
        have open_ := open_of_reading (same ▸ reading)
        have reads := Socket.inner_reads runs case coherent open_ other
        have kept : Attuned { s with socket } :=
          attuned.kept same (Or.inr reads) (fun _ posted => posted) fun _ _ hears =>
            hears.transport same hears.armedBut id
        exact kept reading queued
      · exact .silent (by rw [closed]; rfl)
  | suspended frames top did empty => exact fun _ queued => absurd empty queued

theorem attuned_start : Attuned {} := fun reading => by cases reading

theorem attuned_run (run : Exec (Guarded WakesReads (Of step)) {} labels s) : Attuned s := by
  induction run with
  | nil => exact attuned_start
  | snoc before taken attuned =>
      have whole := before.unguarded
      have case := step_cases taken.2
      exact case.attuned (Run.phased whole) (Run.coherent whole case) taken.1 attuned

/-- When nothing runs and nothing is in flight, whatever arrives wakes a queued read, as long as
each step behind which reads are left has left all connections armed. -/
theorem reads_heard (run : Exec (Guarded WakesReads (Of step)) {} labels s) (quiet : Quiet s)
    (settled : s.socket.state_ = .Bound ∨ s.socket.state_ = .Connected)
    (waiting : s.socket.read_queue_ ≠ []) : Hears s := by
  obtain ⟨stack, inflight, -⟩ := quiet
  have reading : s.socket.state_.reading = true := by
    rcases settled with bound | connected
    · rw [bound]
      rfl
    · rw [connected]
      rfl
  rcases attuned_run run reading waiting with (member | signalled) | hears
  · rw [stack] at member
    cases member
  · rw [inflight] at signalled
    cases signalled
  · exact hears

/-- Two clients, and a read that has to wait for either. -/
def twoClients : List Label :=
  [.bind { fd := 3, hostPort := some "0.0.0.0:80" }, .resume, .deliver (.BindRep .Ok "0.0.0.0:80"),
    .resume, .acceptReady 3 [⟨4, "10.0.0.1", 5000⟩, ⟨6, "10.0.0.2", 5000⟩]]

def waitingRead : List Label := twoClients ++ [.read, .resumeRead [4, 6] fun _ => .failed EAGAIN]

theorem reads_heard_waitingRead : ∃ s, Exec (Guarded WakesReads (Of step)) {} waitingRead s ∧
    s.socket.read_queue_.length = 1 ∧ s.transport.connection_by_fd_.keys.length = 2 ∧ Hears s := by
  have runs : (Transition.run (Transition.guardedStep (fun s l => decide (WakesReads s l)) step) {}
      waitingRead).isSome = true := by
    decide +kernel
  have kept := Transition.guarded_of_isSome runs
  have heard := reads_heard kept
  have waits : Quiet ((Transition.run (Transition.guardedStep
        (fun s l => decide (WakesReads s l)) step) {} waitingRead).get runs) ∧
      ((Transition.run (Transition.guardedStep
        (fun s l => decide (WakesReads s l)) step) {} waitingRead).get runs).socket.state_ = .Bound
        ∧
      ((Transition.run (Transition.guardedStep (fun s l => decide (WakesReads s l)) step) {}
        waitingRead).get runs).socket.read_queue_ = [some 0] ∧
      ((Transition.run (Transition.guardedStep (fun s l => decide (WakesReads s l)) step) {}
        waitingRead).get runs).transport.connection_by_fd_.keys.length = 2 := by
    clear heard kept
    unfold Quiet
    revert runs
    decide +kernel
  obtain ⟨quiet, bound, queued, both⟩ := waits
  refine ⟨_, kept, by rw [queued]; rfl, both, heard quiet (Or.inl bound) ?_⟩
  rw [queued]
  exact List.cons_ne_nil _ _

/-- As much as `resumeRead` asks for. -/
def fullChunk : ReadChunk where
  bytes := List.replicate kMinSize 0
  some_byte := by decide +kernel
  fits := by decide +kernel

/-- A read that fills its buffer from a ready client, and another one. -/
def hotRead : List Label :=
  twoClients ++ [.readReady 4, .deliver .ReadReadyRep, .resume, .read,
    .resumeRead [4, 6] fun _ => .received fullChunk, .resume, .resume, .read,
    .resumeRead [4, 6] fun _ => .failed EAGAIN]

/-- The other client stays unheard. -/
theorem hot_read_deaf : ¬ ∀ (labels : List Label) (s : TcpSocket), Run labels s → Quiet s →
    s.socket.state_ = .Bound ∨ s.socket.state_ = .Connected → s.socket.read_queue_ ≠ [] →
      Hears s := by
  intro always
  have runs : (Transition.run step {} hotRead).isSome = true := by decide +kernel
  have run := Transition.exec_of_isSome runs
  have waits : Quiet ((Transition.run step {} hotRead).get runs) ∧
      ((Transition.run step {} hotRead).get runs).socket.state_ = .Bound ∧
      ((Transition.run step {} hotRead).get runs).socket.read_queue_ = [some 1] ∧
      (((Transition.run step {} hotRead).get runs).transport.conn 6).any
        (fun c => !c.read_armed_) = true := by
    clear run always
    unfold Quiet
    revert runs
    decide +kernel
  obtain ⟨quiet, bound, queued, deaf⟩ := waits
  obtain ⟨c, held, idle⟩ := (Option.any_eq_true _ _).mp deaf
  have hears := always _ _ run quiet (Or.inl bound) (by rw [queued]; exact List.cons_ne_nil _ _)
  rw [hears.armed 6 c held] at idle
  cases idle

end Waking

end TcpSocket

end Getrafty
