import Getrafty.SocketTransportFds
import Getrafty.TcpSocketSteps

set_option autoImplicit false

namespace Getrafty

open Transition (Exec Of Guarded)
open TcpTransport (Op openFds)

namespace TcpTransport

/-- No connection, and none that was read from. -/
structure Bare (t : TcpTransport) : Prop where
  connections : t.connection_by_fd_ = ∅
  hot : t.hot_read_peer_ = ""

/-- While an attempt to connect that started at once goes on. -/
def attempt (fd : Fd) : TcpTransport := (connecting {} fd).watchConnect

section Bare

variable {t t' : TcpTransport} {fd : Fd} {op : Op}

theorem Bare.conn (bare : Bare t) (fd : Fd) : t.conn fd = none := by
  rw [TcpTransport.conn, bare.connections]
  exact AList.lookup_empty fd

theorem Bare.resumeRead (bare : Bare t) {order : List Fd} (recv : Fd → RecvOutcome)
    (all : order.Perm t.connection_by_fd_.keys) :
    t.resumeRead order recv = ({ n := 0, status := .WouldBlock, data := filled [] }, t) := by
  have cold : t.hotFd = none := by
    unfold hotFd
    rw [if_pos bare.hot]
  have cool : t.coolRead = t := by
    unfold coolRead
    rw [← bare.hot]
  rw [bare.connections] at all
  obtain rfl := List.perm_nil.mp all
  simp only [TcpTransport.resumeRead, cold, scan, cool]

theorem Bare.resumeWrite (bare : Bare t) (data : Buffer) (peer : Peer) (send : SendOutcome) :
    (t.resumeWrite data peer send).2 = t := by
  obtain ⟨result, after, same, case⟩ := resumeWrite_cases t data peer send
  rw [same]
  have none {fd : Fd} (found : t.resolve peer = .ok fd) : False := by
    obtain ⟨⟨c, held⟩, -⟩ := resolve_conn found
    rw [bare.conn fd] at held
    cases held
  cases case with
  | unresolved status missing => rfl
  | sent fd n found out some_byte => exact (none found).elim
  | blocked fd errno found out full => exact (none found).elim
  | ended fd n found out no_byte => exact (none found).elim
  | broken fd errno found out hard => exact (none found).elim

theorem Bare.suspendRead (bare : Bare t) : t.suspendRead = t := by
  rw [TcpTransport.suspendRead, bare.connections]
  rfl

theorem bare_start : Bare {} := ⟨rfl, rfl⟩

theorem bare_attempt (fd : Fd) : Bare (attempt fd) := ⟨rfl, rfl⟩

theorem attempt_watched (fd fd' : Fd) (flag : WatchFlag) :
    (attempt fd).watched.lookup (fd', flag) =
      if (fd', flag) = (fd, .WRONLY) then some .onConnectReady else none := by
  have watched : (attempt fd).watched =
      (∅ : AList fun _ : Fd × WatchFlag => ReadyHandler).insert (fd, .WRONLY) .onConnectReady := rfl
  rw [watched]
  by_cases same : (fd', flag) = (fd, .WRONLY)
  · rw [if_pos same, same, AList.lookup_insert]
  · rw [if_neg same, AList.lookup_insert_ne same, AList.lookup_empty]

/-- A handler runs that is watched for. -/
theorem handles_watched {label : TcpSocket.Label} (runs : label.handler? = some op)
    (taken : t.step op = some t') :
    (∃ fd o, op = .connectReady fd o ∧ t.watched.lookup (fd, .WRONLY) = some .onConnectReady ∧
        t' = t.onConnectReady o) ∨
      ∃ key handler, handler ≠ .onConnectReady ∧ t.watched.lookup key = some handler := by
  cases label with
  | acceptReady fd accepted =>
      cases runs
      obtain ⟨⟨watched, -⟩, -⟩ := Option.ite_none_right_eq_some.mp taken
      exact Or.inr ⟨_, .onAcceptReady, by decide, watched⟩
  | connectReady fd o =>
      cases runs
      obtain ⟨⟨watched, -⟩, same⟩ := Option.ite_none_right_eq_some.mp taken
      exact Or.inl ⟨fd, o, rfl, watched, (Option.some.inj same).symm⟩
  | readReady fd =>
      cases runs
      obtain ⟨watched, -⟩ := Option.ite_none_right_eq_some.mp taken
      exact Or.inr ⟨_, _, readHandler fd, watched⟩
  | writeReady fd =>
      cases runs
      obtain ⟨watched, -⟩ := Option.ite_none_right_eq_some.mp taken
      exact Or.inr ⟨_, _, writeHandler fd, watched⟩
  | _ => cases runs

/-- Nothing is watched at the start. -/
theorem start_handles {label : TcpSocket.Label} (runs : label.handler? = some op) :
    step {} op ≠ some t' := by
  intro taken
  rcases handles_watched runs taken with ⟨fd, o, -, watched, -⟩ | ⟨key, handler, -, watched⟩ <;>
    cases watched

/-- Only its own handler can run while an attempt goes on. -/
theorem attempt_handles {label : TcpSocket.Label} (runs : label.handler? = some op)
    (taken : (attempt fd).step op = some t') :
    ∃ fd' o, op = .connectReady fd' o ∧ t' = (attempt fd).onConnectReady o := by
  rcases handles_watched runs taken with
    ⟨fd', o, same, -, result⟩ | ⟨⟨fd', flag⟩, handler, other, watched⟩
  · exact ⟨fd', o, same, result⟩
  · rw [attempt_watched] at watched
    obtain ⟨-, same⟩ := Option.ite_none_right_eq_some.mp watched
    exact absurd (Option.some.inj same).symm other

end Bare

/-- What was posted stays posted, and no attempt is watched for that was not before. -/
structure Carries (t t' : TcpTransport) : Prop where
  posted : ∀ reply ∈ t.inflight, reply ∈ t'.inflight
  attempts : ∀ key, t'.watched.lookup key = some .onConnectReady →
    t.watched.lookup key = some .onConnectReady

section Carries

variable {t t' t'' : TcpTransport} {fd : Fd} {op : Op}

theorem Carries.refl (t : TcpTransport) : Carries t t :=
  ⟨fun _ posted => posted, fun _ there => there⟩

theorem Carries.trans (first : Carries t t') (second : Carries t' t'') : Carries t t'' where
  posted := fun reply posted => second.posted reply (first.posted reply posted)
  attempts := fun key there => first.attempts key (second.attempts key there)

theorem Frame.carries (frame : Frame t t') : Carries t t' where
  posted := fun reply posted => by
    rw [frame.inflight]
    exact posted
  attempts := frame.attempts

theorem carries_replay {reply : Socket.Reply} (posts : t'.inflight = t.inflight ++ [reply])
    (watched : t'.watched = t.watched) : Carries t t' where
  posted := fun other posted => by
    rw [posts]
    exact List.mem_append_left _ posted
  attempts := fun key there => by
    rw [← watched]
    exact there

theorem carries_release (t : TcpTransport) (fd : Fd) : Carries t (t.releaseConnection fd) := by
  cases held : t.conn fd with
  | none =>
      unfold releaseConnection
      rw [held]
      exact .refl t
  | some c =>
      have released := releaseConnection_spec held
      exact ⟨fun reply posted => by rw [released.inflight]; exact posted, released.attempts⟩

theorem carries_accept (accepted : List Accepted) (t : TcpTransport) :
    Carries t (accepted.foldl accept t) := by
  induction accepted generalizing t with
  | nil => exact .refl t
  | cons first rest ih =>
      have one := accept_spec t first
      have carries : Carries t (t.accept first) :=
        ⟨fun reply posted => by rw [one.inflight]; exact posted, one.attempts⟩
      exact carries.trans (ih (t.accept first))

theorem carries_onConnectReady (t : TcpTransport) (o : ConnectedOutcome) :
    Carries t (t.onConnectReady o) := by
  have unwatched := (unwatchConnect_spec t).1.carries
  rcases onConnectReady_cases t o with ⟨-, result⟩ | ⟨peer, -, -, result⟩
  · rw [result]
    exact unwatched.trans (carries_replay rfl rfl)
  · rw [result]
    exact unwatched.trans (carries_replay rfl rfl)

theorem carries_resumeRead {order : List Fd} (recv : Fd → RecvOutcome)
    (all : order.Perm t.connection_by_fd_.keys) : Carries t (t.resumeRead order recv).2 := by
  obtain ⟨result, after, same, case⟩ := resumeRead_cases t recv all
  rw [same]
  cases case with
  | hotBlocked fd errno _ hot out full visits => exact visits.frame.carries
  | scanBlocked _ cold out visits => exact visits.frame.carries
  | received fd c chunk _ fds source held out visits => exact visits.frame.carries
  | ended fd c after fds source held out visits =>
      exact visits.frame.carries.trans (carries_release after fd)
  | broken fd c errno after fds source held out hard visits =>
      exact visits.frame.carries.trans (carries_release after fd)

theorem carries_resumeWrite (t : TcpTransport) (data : Buffer) (peer : Peer) (send : SendOutcome) :
    Carries t (t.resumeWrite data peer send).2 := by
  obtain ⟨result, after, same, case⟩ := resumeWrite_cases t data peer send
  rw [same]
  cases case with
  | unresolved status missing => exact .refl t
  | sent fd n found out some_byte => exact (frame_send t fd).carries
  | blocked fd errno found out full =>
      exact ((frame_send t fd).trans (arm_spec _ fd .WRONLY writeHandler).1).carries
  | ended fd n found out no_byte => exact (frame_send t fd).carries.trans (carries_release _ fd)
  | broken fd errno found out hard => exact (frame_send t fd).carries.trans (carries_release _ fd)

theorem carries_bind (t : TcpTransport) (o : BindOutcome) : Carries t (t.bind o) := by
  rcases bind_cases t o with ⟨-, result⟩ | ⟨-, result⟩ | ⟨-, endpoint, result⟩
  · rw [result]
    exact carries_replay rfl rfl
  · rw [result]
    exact carries_replay rfl rfl
  · rw [result]
    refine ⟨fun reply posted => List.mem_append_left _ posted, fun key there => ?_⟩
    exact lookup_insert_attempt (by decide) there

theorem closeConns_inflight (fds : List Fd) (t : TcpTransport) :
    (fds.foldl closeConn t).inflight = t.inflight := by
  induction fds generalizing t with
  | nil => rfl
  | cons fd fds ih =>
      have frame := (disarm_spec t fd .RDONLY).1.trans
        (disarm_spec (t.disarm fd .RDONLY) fd .WRONLY).1
      exact (ih (t.closeConn fd)).trans frame.inflight

theorem carries_close (t : TcpTransport) : Carries t t.close := by
  obtain ⟨-, -, -, listener⟩ := closeListener_frame t
  obtain ⟨-, -, -, -, client⟩ := closeClient_frame t.closeListener
  obtain ⟨-, -, conns⟩ :=
    closeConns_frame t.closeListener.closeClient.connection_by_fd_.keys t.closeListener.closeClient
  have first : t.closeListener.inflight = t.inflight := by
    unfold closeListener unwatchAccept
    split <;> rfl
  have second : t.closeListener.closeClient.inflight = t.closeListener.inflight := by
    unfold closeClient unwatchConnect
    split
    · rfl
    · rfl
  refine ⟨fun reply posted => ?_, fun key there => listener key (client key (conns key there))⟩
  have same : t.close.inflight = t.inflight :=
    (closeConns_inflight _ t.closeListener.closeClient).trans (second.trans first)
  rw [same]
  exact posted

theorem carries_handler {label : TcpSocket.Label} (runs : label.handler? = some op)
    (taken : t.step op = some t') : Carries t t' := by
  cases label with
  | acceptReady fd accepted =>
      cases runs
      obtain ⟨-, same⟩ := Option.ite_none_right_eq_some.mp taken
      exact Option.some.inj same ▸ carries_accept (accepted.take 10) t
  | connectReady fd o =>
      cases runs
      obtain ⟨-, same⟩ := Option.ite_none_right_eq_some.mp taken
      exact Option.some.inj same ▸ carries_onConnectReady t o
  | readReady fd =>
      cases runs
      obtain ⟨-, same⟩ := Option.ite_none_right_eq_some.mp taken
      rw [← Option.some.inj same, onReadReady]
      split
      · exact carries_replay rfl rfl
      · exact .refl t
  | writeReady fd =>
      cases runs
      obtain ⟨-, same⟩ := Option.ite_none_right_eq_some.mp taken
      rw [← Option.some.inj same, onWriteReady]
      split
      · exact carries_replay rfl rfl
      · exact .refl t
  | _ => cases runs

/-- A handler that ran for an attempt is not watched for any more, and has posted one reply. -/
theorem attempt_ends (some_fd : 0 ≤ fd) (o : ConnectedOutcome) :
    (∃ status, ((attempt fd).onConnectReady o).inflight = [.ConnectRep status]) ∧
      ∀ key, ((attempt fd).onConnectReady o).watched.lookup key = none := by
  have unwatched : (attempt fd).unwatchConnect =
      (attempt fd).unwatch fd .WRONLY := if_pos some_fd
  have none_left (key : Fd × WatchFlag) :
      ((attempt fd).unwatch fd .WRONLY).watched.lookup key = none := by
    have erased : ((attempt fd).unwatch fd .WRONLY).watched =
      (attempt fd).watched.erase (fd, .WRONLY) := rfl
    rw [erased]
    by_cases same : key = (fd, .WRONLY)
    · rw [same, AList.lookup_erase]
    · rw [AList.lookup_erase_ne same, attempt_watched, if_neg same]
  rcases onConnectReady_cases (attempt fd) o with ⟨-, result⟩ | ⟨peer, -, -, result⟩
  · rw [result, unwatched]
    exact ⟨⟨.Fatal, rfl⟩, none_left⟩
  · rw [result, unwatched]
    exact ⟨⟨.Ok, rfl⟩, none_left⟩

/-- A close gives the attempt up. -/
theorem attempt_closed (some_fd : 0 ≤ fd) (key : Fd × WatchFlag) :
    (attempt fd).close.watched.lookup key = none := by
  have listener : (attempt fd).closeListener = attempt fd := rfl
  have client : (attempt fd).closeClient =
      { (attempt fd).unwatchConnect with client_fd_ := -1 } := if_pos some_fd
  have unwatched : (attempt fd).unwatchConnect = (attempt fd).unwatch fd .WRONLY := if_pos some_fd
  have erased : (attempt fd).close.watched = (attempt fd).watched.erase (fd, .WRONLY) := by
    unfold close
    simp only [listener, client, unwatched]
    rfl
  rw [erased]
  by_cases same : key = (fd, .WRONLY)
  · rw [same, AList.lookup_erase]
  · rw [AList.lookup_erase_ne same, attempt_watched, if_neg same]

end Carries

end TcpTransport

namespace Socket

section States

variable {s next : Socket}

/-- A reply moves the state only if it is waited for. -/
theorem reply_state {reply : Reply} (taken : Step s (.reply reply) next) :
    next.state_ = s.state_ ∨
      (∃ status endpoint, reply = .BindRep status endpoint ∧ s.state_ = .BindWait ∧
        next.state_ = if status = .Ok then .Bound else .Closed) ∨
      ∃ status, reply = .ConnectRep status ∧ s.state_ = .ConnectWait ∧
        next.state_ = if status = .Ok then .Connected else .Closed := by
  cases taken with
  | bindReplied status endpoint id queue waits first =>
      exact Or.inr (Or.inl ⟨status, endpoint, rfl, waits, rfl⟩)
  | bindMoved status endpoint queue waits first =>
      exact Or.inr (Or.inl ⟨status, endpoint, rfl, waits, rfl⟩)
  | connectReplied status id queue waits first =>
      exact Or.inr (Or.inr ⟨status, rfl, waits, rfl⟩)
  | connectMoved status queue waits first => exact Or.inr (Or.inr ⟨status, rfl, waits, rfl⟩)
  | _ => exact Or.inl rfl

theorem write_state {result : WriteResult} (taken : Step s (.resumeWrite result) next) :
    next.state_ = s.state_ := by
  cases taken with
  | _ => rfl

/-- The rest of a tick leaves the state alone, but for the end of a close. -/
theorem inner_state {label : TcpSocket.Label} {inner : Label} (runs : label.inner? = some inner)
    (taken : Step s inner next) (coherent : Coherent s) :
    next.state_ = s.state_ ∨ s.state_ = .CloseWait ∧ next.state_ = .Closed := by
  cases label with
  | failWrite peer =>
      cases runs
      cases taken with
      | _ => exact Or.inl rfl
  | resume =>
      cases runs
      cases taken with
      | closed id frames top => exact Or.inr ⟨coherent.shut top, rfl⟩
      | closedSilently frames top => exact Or.inr ⟨coherent.shut top, rfl⟩
      | _ => exact Or.inl rfl
  | _ => cases runs

end States

end Socket

namespace TcpSocket

/-- Nothing is done before `bind` or `connect`, and nothing but the attempt while one goes on. -/
structure Phased (s : TcpSocket) : Prop where
  idle : s.socket.state_ = .Idle → s.transport = {}
  attempt : ∀ key, s.transport.watched.lookup key = some .onConnectReady →
    s.socket.state_ = .ConnectWait ∧ ∃ fd, 0 ≤ fd ∧ s.transport = TcpTransport.attempt fd

section Phases

variable {s next : TcpSocket} {label : Label} {labels : List Label}

/-- An operation that does nothing without connections. -/
theorem Phased.quiet (phased : Phased s) {state_ : SocketState} {t : TcpTransport}
    (same : state_ = s.socket.state_) (bare : TcpTransport.Bare s.transport → t = s.transport)
    (carries : TcpTransport.Carries s.transport t) :
    (state_ = .Idle → t = {}) ∧ ∀ key, t.watched.lookup key = some .onConnectReady →
      state_ = .ConnectWait ∧ ∃ fd, 0 ≤ fd ∧ t = TcpTransport.attempt fd := by
  constructor
  · intro idle
    have start := phased.idle (same ▸ idle)
    exact (bare (start ▸ TcpTransport.bare_start)).trans start
  · intro key there
    obtain ⟨waits, fd, some_fd, going⟩ := phased.attempt key (carries.attempts key there)
    exact ⟨same.trans waits, fd, some_fd,
      (bare (going ▸ TcpTransport.bare_attempt fd)).trans going⟩

theorem connect_start (o : ConnectOutcome) :
    (TcpTransport.connect {} o).inflight = [] ∧
      (TcpTransport.ConnectOutcome.Starts o ∧
        TcpTransport.connect {} o = TcpTransport.attempt o.fd ∨
        ¬ TcpTransport.ConnectOutcome.Starts o ∧ (TcpTransport.connect {} o).watched = ∅) := by
  rcases TcpTransport.connect_cases {} o with ⟨none, result⟩ | ⟨-, fails, result⟩ | ⟨starts, result⟩
  · rw [result]
    exact ⟨rfl, Or.inr ⟨fun starts => absurd starts.1 (Int.not_le.mpr none), rfl⟩⟩
  · rw [result]
    exact ⟨rfl, Or.inr ⟨fails, rfl⟩⟩
  · rw [result]
    exact ⟨rfl, Or.inl ⟨starts, rfl⟩⟩

theorem Step.phased (taken : Step s label next) (coherent : Socket.Coherent s.socket)
    (phased : Phased s) : Phased next := by
  cases taken with
  | binds o socket fresh did idle waits =>
      refine ⟨fun same => ?_, fun key there => ?_⟩
      · rw [waits] at same
        cases same
      · have before := (TcpTransport.carries_bind s.transport o).attempts key there
        rw [phased.idle idle] at before
        cases before
  | connects o socket fresh did idle waits =>
      refine ⟨fun same => ?_, fun key there => ⟨waits, ?_⟩⟩
      · rw [waits] at same
        cases same
      · rw [phased.idle idle] at there ⊢
        obtain ⟨-, ⟨starts, going⟩ | ⟨-, empty⟩⟩ := connect_start o
        · exact ⟨o.fd, starts.1, going⟩
        · rw [empty] at there
          cases there
  | closes socket did open_ closing =>
      refine ⟨fun same => ?_, fun key there => ?_⟩
      · rw [closing] at same
        cases same
      · have before := (TcpTransport.carries_close s.transport).attempts key there
        obtain ⟨-, fd, some_fd, going⟩ := phased.attempt key before
        rw [going, TcpTransport.attempt_closed some_fd] at there
        cases there
  | asked _ request socket asks did same =>
      exact ⟨fun idle => phased.idle (same ▸ idle), fun key there => by
        rw [same]
        exact phased.attempt key there⟩
  | delivered reply socket idle did posted =>
      refine ⟨fun same => ?_, fun key there => ?_⟩
      · rcases Socket.reply_state (Socket.step_cases did).2 with
          kept | ⟨_, _, -, -, moved⟩ | ⟨_, -, -, moved⟩
        · rw [phased.idle (kept ▸ same)] at posted
          cases posted
        · rw [moved] at same
          split at same <;> cases same
        · rw [moved] at same
          split at same <;> cases same
      · obtain ⟨-, fd, some_fd, going⟩ := phased.attempt key there
        rw [going] at posted
        cases posted
  | handled _ op transport runs idle sound did =>
      refine ⟨fun same => ?_, fun key there => ?_⟩
      · rw [phased.idle same] at did
        exact absurd did (TcpTransport.start_handles runs)
      · have before := (TcpTransport.carries_handler runs did).attempts key there
        obtain ⟨-, fd, some_fd, going⟩ := phased.attempt key before
        rw [going] at did
        obtain ⟨_, o, -, rfl⟩ := TcpTransport.attempt_handles runs did
        rw [(TcpTransport.attempt_ends some_fd o).2] at there
        cases there
  | readTurn order recv socket all did same =>
      obtain ⟨idle, attempt⟩ := phased.quiet same
        (fun bare => congrArg Prod.snd (bare.resumeRead recv all))
        (TcpTransport.carries_resumeRead recv all)
      exact ⟨idle, attempt⟩
  | readEnded order recv socket all did connected closing eof =>
      refine ⟨fun same => ?_, fun key there => ?_⟩
      · rw [closing] at same
        cases same
      · have before := ((TcpTransport.carries_resumeRead recv all).trans
          (TcpTransport.carries_close _)).attempts key there
        rw [(phased.attempt key before).1] at connected
        cases connected
  | writeTurn send peer frames req socket top held did =>
      obtain ⟨idle, attempt⟩ := phased.quiet (Socket.write_state (Socket.step_cases did).2)
        (fun bare => bare.resumeWrite req.data (s.socket.writeKey peer) send)
        (TcpTransport.carries_resumeWrite s.transport req.data (s.socket.writeKey peer) send)
      exact ⟨idle, attempt⟩
  | resumed _ inner socket runs did other =>
      rcases Socket.inner_state runs (Socket.step_cases did).2 coherent with
        same | ⟨closing, closed⟩
      · exact ⟨fun idle => phased.idle (same ▸ idle), fun key there => by
          rw [same]
          exact phased.attempt key there⟩
      · refine ⟨fun same => ?_, fun key there => ?_⟩
        · rw [closed] at same
          cases same
        · have waits := (phased.attempt key there).1
          rw [closing] at waits
          cases waits
  | suspended frames top did empty =>
      obtain ⟨idle, attempt⟩ := phased.quiet rfl TcpTransport.Bare.suspendRead
        (TcpTransport.suspendRead_spec s.transport).1.carries
      exact ⟨idle, attempt⟩

theorem phased_start : Phased {} := by
  refine ⟨fun _ => rfl, fun key there => ?_⟩
  cases there

theorem Step.sound (taken : Step s label next) : s.socket.fault = none := by
  cases taken with
  | handled _ op transport runs idle sound did => exact sound
  | binds _ _ _ did | connects _ _ _ did | closes _ did | asked _ _ _ _ did
  | delivered _ _ _ did | readTurn _ _ _ _ did | readEnded _ _ _ _ did
  | writeTurn _ _ _ _ _ _ _ did | resumed _ _ _ _ did | suspended _ _ did =>
      exact (Socket.step_cases did).1

theorem Run.coherent (run : Run labels s) (taken : Step s label next) :
    Socket.Coherent s.socket := by
  obtain ⟨seen, socket⟩ := Run.socket run
  exact Socket.Run.coherent socket taken.sound

theorem Run.phased (run : Run labels s) : Phased s := by
  induction run with
  | nil => exact phased_start
  | snoc before taken phased =>
      have case := step_cases taken
      exact case.phased (Run.coherent before case) phased

end Phases

end TcpSocket

end Getrafty
