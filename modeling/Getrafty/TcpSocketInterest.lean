import Getrafty.TcpSocketConnections
import Getrafty.TcpSocketWrites

set_option autoImplicit false

namespace Getrafty

open Transition (Exec Of Guarded)
open TcpTransport (KeepsWrites Inverse KeepsPeers)

namespace TcpSocket

/-- A queued write goes to this connection. -/
def Wanted (s : TcpSocket) (fd : Fd) : Prop :=
  ∃ key req, s.socket.write_queue_.lookup key = some req ∧ s.transport.resolve key = .ok fd

/-- A connection is armed for writes only while one is queued that goes to it. -/
def Interested (s : TcpSocket) : Prop :=
  ∀ fd c, s.transport.conn fd = some c → c.write_armed_ = true → s.Wanted fd

/-- Nothing runs and nothing is in flight. -/
def Quiet (s : TcpSocket) : Prop :=
  s.socket.stack = [] ∧ s.transport.inflight = [] ∧ s.socket.fault = none

/-- The connections that are accepted have peers of their own, and none comes while a write without
a peer is queued. -/
def AcceptsApart (s : TcpSocket) : Label → Prop
  | .acceptReady fd accepted => KeepsPeers s.transport (.acceptReady fd accepted) ∧
      (accepted = [] ∨ s.socket.write_queue_.lookup "" = none)
  | _ => True

/-- No write succeeds on a connection that is armed for writes, unless another one to it is
queued. -/
def EndsUnarmed (s : TcpSocket) : Label → Prop
  | .resumeWrite (.sent n) =>
      match current s.socket with
      | some (key, req) =>
          match s.transport.resolve key with
          | .ok fd => min n req.data.length = 0 ∨
              (s.transport.conn fd).any (·.write_armed_) = false ∨
                ∃ entry ∈ s.socket.write_queue_.entries, entry.1 ≠ key ∧
                  s.transport.resolve entry.1 = .ok fd
          | .error _ => True
      | none => True
  | _ => True

instance (s : TcpSocket) : DecidablePred s.AcceptsApart :=
  fun label => match label with
    | .acceptReady _ accepted =>
        match accepted with
        | [] => decidable_of_iff (KeepsPeers s.transport (.acceptReady _ []))
            ⟨fun keeps => ⟨keeps, Or.inl rfl⟩, And.left⟩
        | first :: rest => decidable_of_iff
            (KeepsPeers s.transport (.acceptReady _ (first :: rest)) ∧
              (s.socket.write_queue_.lookup "").isNone = true)
            ⟨fun both => ⟨both.1, Or.inr (Option.isNone_iff_eq_none.mp both.2)⟩,
              fun both => ⟨both.1, Option.isNone_iff_eq_none.mpr
                (both.2.resolve_left (List.cons_ne_nil first rest))⟩⟩
    | .bind _ | .connect _ | .read | .write _ _ | .close | .deliver _ | .connectReady _ _
    | .readReady _ | .writeReady _ | .resumeRead _ _ | .resumeWrite _ | .failWrite _ | .resume =>
        isTrue trivial

instance (s : TcpSocket) : DecidablePred s.EndsUnarmed :=
  fun label => match label with
    | .resumeWrite (.sent n) =>
        match found : current s.socket with
        | none => isTrue (by simp only [EndsUnarmed, found])
        | some (key, req) =>
            match resolved : s.transport.resolve key with
            | .error _ => isTrue (by simp only [EndsUnarmed, found, resolved])
            | .ok fd => decidable_of_iff (min n req.data.length = 0 ∨
                (s.transport.conn fd).any (·.write_armed_) = false ∨
                  ∃ entry ∈ s.socket.write_queue_.entries, entry.1 ≠ key ∧
                    s.transport.resolve entry.1 = .ok fd)
                (by simp only [EndsUnarmed, found, resolved])
    | .resumeWrite (.failed _) => isTrue trivial
    | .bind _ | .connect _ | .read | .write _ _ | .close | .deliver _ | .acceptReady _ _
    | .connectReady _ _ | .readReady _ | .writeReady _ | .resumeRead _ _ | .failWrite _ | .resume =>
        isTrue trivial

section Shared

variable {s next : TcpSocket} {label : Label} {labels : List Label}

/-- The index of the peers stays exact as long as the accepted ones are new. -/
theorem Step.inverse (taken : Step s label next) (phased : Phased s)
    (apart : AcceptsApart s label) (inverse : Inverse s.transport) : Inverse next.transport := by
  cases taken with
  | binds o socket fresh did idle waits => exact inverse.maps (TcpTransport.bind_maps s.transport o)
  | connects o socket fresh did idle waits =>
      exact inverse.maps (TcpTransport.connect_maps s.transport o)
  | closes socket did open_ closing => exact TcpTransport.inverse_close s.transport
  | asked _ request socket asks did same => exact inverse
  | delivered reply socket idle did posted => exact inverse.maps ⟨rfl, rfl⟩
  | handled _ op transport runs idle sound did =>
      apply (inverse.step_iff did).mpr
      cases label with
      | acceptReady fd accepted =>
          cases runs
          exact apart.1
      | connectReady fd o =>
          cases runs
          obtain ⟨⟨watched, -⟩, -⟩ := Option.ite_none_right_eq_some.mp did
          obtain ⟨-, attempted, -, going⟩ := phased.attempt _ watched
          change TcpTransport.ConnectedOutcome.peer o = none ∨
            TcpTransport.Adds s.transport ((TcpTransport.ConnectedOutcome.peer o).toList.map
              fun peer => (s.transport.client_fd_, peer))
          cases TcpTransport.ConnectedOutcome.peer o with
          | none => exact Or.inl rfl
          | some peer =>
              refine Or.inr ⟨List.nodup_singleton _, fun entry member => ?_⟩
              rw [going] at member
              cases member
      | readReady fd =>
          cases runs
          trivial
      | writeReady fd =>
          cases runs
          trivial
      | _ => cases runs
  | readTurn order recv socket all did same => exact inverse.resumeRead recv all
  | readEnded order recv socket all did connected closing eof => exact TcpTransport.inverse_close _
  | writeTurn send peer frames req socket top held did => exact inverse.resumeWrite _ _ _
  | resumed _ inner socket runs did other => exact inverse
  | suspended frames top did empty => exact inverse.suspendRead

theorem inverse_run (run : Exec (Guarded AcceptsApart (Of step)) {} labels s) :
    Inverse s.transport := by
  induction run with
  | nil => exact TcpTransport.inverse_start
  | snoc before taken inverse =>
      exact (step_cases taken.2).inverse (Run.phased before.unguarded) taken.1 inverse

end Shared

section Interest

variable {s next : TcpSocket} {label : Label} {labels : List Label} {transport : TcpTransport}
  {lost : List Fd}

/-- The queue is as before, or has one write more. -/
theorem queue_grows {inner : Socket.Label} {socket : Socket}
    (did : s.socket.step inner = some socket)
    (turn : ∀ result, inner ≠ .resumeWrite result) {key : Peer} {req : WriteReq}
    (held : s.socket.write_queue_.lookup key = some req) :
    socket.write_queue_.lookup key = some req := by
  cases (Socket.step_cases did).2 with
  | writeAsked data peer open_ addressed some_byte free =>
      have other : key ≠ peer := by
        rintro rfl
        rw [free] at held
        cases held
      exact (AList.lookup_insert_ne other).trans held
  | writeBlocked result | writeAnswered result | writeMoved result => exact absurd rfl (turn result)
  | _ => exact held

/-- A step that loses no write, and nothing else but connections. -/
theorem Interested.narrowed (interested : Interested s) {socket : Socket} {writes : List Buffer}
    (keeps : KeepsWrites s.transport transport lost)
    (queue : ∀ key req, s.socket.write_queue_.lookup key = some req →
      socket.write_queue_.lookup key = some req) :
    Interested { s with socket, transport, writes } := by
  intro fd c' held' armed'
  obtain ⟨kept, c, held, -, armed⟩ := keeps.left fd c' held'
  obtain ⟨key, req, queued, found⟩ := interested fd c held (armed.symm.trans armed')
  exact ⟨key, req, queue key req queued, keeps.resolved key fd found kept⟩

/-- Without connections there is nothing to be interested in. -/
theorem Interested.none (none : ∀ fd, s.transport.conn fd = none) : Interested s := by
  intro fd c held
  rw [none fd] at held
  cases held

theorem conn_close (t : TcpTransport) (fd : Fd) : t.close.conn fd = none := AList.lookup_empty fd

theorem Phased.conn_idle (phased : Phased s) (idle : s.socket.state_ = .Idle) (fd : Fd) :
    s.transport.conn fd = none := by
  rw [phased.idle idle]
  exact AList.lookup_empty fd

/-- Accepted connections are not armed for writes, and change nothing for the others. -/
theorem Interested.accepted (interested : Interested s) (inverse : Inverse s.transport)
    {fd : Fd} {accepted : List Accepted} (apart : AcceptsApart s (.acceptReady fd accepted))
    (fds : (accepted.map (·.fd)).Nodup) :
    Interested { s with transport := s.transport.onAcceptReady accepted } := by
  obtain ⟨new, unnamed⟩ := apart
  intro fd' c' held' armed'
  rcases TcpTransport.accepted_conn (accepted.take 10) s.transport fd' with
    ⟨absent, same⟩ | ⟨-, a, -, -, here⟩
  · have held : s.transport.conn fd' = some c' := same.symm.trans held'
    obtain ⟨key, req, queued, found⟩ := interested fd' c' held armed'
    refine ⟨key, req, queued, ?_⟩
    by_cases empty : key = ""
    · rcases unnamed with none | free
      · rw [none]
        exact found
      · rw [empty, free] at queued
        cases queued
    · exact inverse.resolve_accepted new fds absent empty found
  · have held : some c' = some
        { fd_ := fd', peer_ := TcpTransport.Accepted.peer a, read_armed_ := true } :=
      held'.symm.trans here
    rw [Option.some.inj held] at armed'
    cases armed'

/-- The connection of an attempt, if there is one behind its handler, is not armed. -/
theorem attempt_conn {fd fd' : Fd} {o : ConnectedOutcome} {c : Connection}
    (held : ((TcpTransport.attempt fd).onConnectReady o).conn fd' = some c) :
    fd' = fd ∧ c.read_armed_ = false ∧ c.write_armed_ = false := by
  obtain ⟨frame, same⟩ := TcpTransport.unwatchConnect_spec (TcpTransport.attempt fd)
  have none (fd' : Fd) : (TcpTransport.attempt fd).unwatchConnect.conn fd' = none := by
    rw [TcpTransport.conn, same]
    exact AList.lookup_empty fd'
  rcases TcpTransport.onConnectReady_cases (TcpTransport.attempt fd) o with
    ⟨-, result⟩ | ⟨peer, -, -, result⟩
  · rw [result] at held
    cases (none fd').symm.trans held
  · rw [result] at held
    have spec := TcpTransport.conn_setConn (TcpTransport.attempt fd).unwatchConnect
      (TcpTransport.attempt fd).unwatchConnect.client_fd_ fd'
      { fd_ := (TcpTransport.attempt fd).unwatchConnect.client_fd_, peer_ := peer }
    have there := spec.symm.trans held
    by_cases here : fd' = (TcpTransport.attempt fd).unwatchConnect.client_fd_
    · rw [if_pos here, Option.some.injEq] at there
      rw [← there]
      exact ⟨here.trans frame.client, rfl, rfl⟩
    · rw [if_neg here, none] at there
      cases there

/-- A write has ended, and no connection is left to wait for it. -/
theorem Interested.ended (interested : Interested s) {socket : Socket} {sends : List Sent}
    {key : Peer} (keeps : KeepsWrites s.transport transport lost)
    (queue : socket.write_queue_ = s.socket.write_queue_.erase key)
    (idle : ∀ fd c, s.transport.resolve key = .ok fd → s.transport.conn fd = some c →
      fd ∉ lost → c.write_armed_ = true → ∃ other req, other ≠ key ∧
        s.socket.write_queue_.lookup other = some req ∧ s.transport.resolve other = .ok fd) :
    Interested { s with socket, transport, sends } := by
  intro fd c' held' armed'
  obtain ⟨kept, c, held, -, armed⟩ := keeps.left fd c' held'
  obtain ⟨other, req, queued, found⟩ := interested fd c held (armed.symm.trans armed')
  have kept_by {other : Peer} {req : WriteReq} (apart : other ≠ key)
      (queued : s.socket.write_queue_.lookup other = some req)
      (found : s.transport.resolve other = .ok fd) :
      Wanted { s with socket, transport, sends } fd := by
    refine ⟨other, req, ?_, keeps.resolved other fd found kept⟩
    change socket.write_queue_.lookup other = some req
    rw [queue, AList.lookup_erase_ne apart]
    exact queued
  by_cases same : other = key
  · obtain ⟨another, req', apart, queued', found'⟩ :=
      idle fd c (same ▸ found) held kept (armed.symm.trans armed')
    exact kept_by apart queued' found'
  · exact kept_by same queued found

/-- A write waits: its connection is armed. -/
theorem Interested.blocked (interested : Interested s) {socket : Socket} {sends : List Sent}
    {key : Peer} {req : WriteReq} {fd : Fd} (queued : s.socket.write_queue_.lookup key = some req)
    (found : s.transport.resolve key = .ok fd)
    (queue : socket.write_queue_ = s.socket.write_queue_) :
    Interested { s with
      socket
      transport := (s.transport.call (.send fd)).watchWrite fd
      sends } := by
  obtain ⟨conn, resolve⟩ := TcpTransport.watchWrite_spec (s.transport.call (.send fd)) fd
  have wanted {fd' : Fd} (before : Wanted s fd') : Wanted { s with
      socket
      transport := (s.transport.call (.send fd)).watchWrite fd
      sends } fd' := by
    obtain ⟨key, req, queued, found⟩ := before
    exact ⟨key, req, queue ▸ queued, (resolve key fd').mpr found⟩
  intro fd' c' held' armed'
  by_cases here : fd' = fd
  · exact here ▸ wanted ⟨key, req, queued, found⟩
  · have same : (s.transport.call (.send fd)).conn fd' = some c' := by
      have there := conn fd'
      rw [if_neg here] at there
      exact there.symm.trans held'
    exact wanted (interested fd' c' same armed')

theorem keepsWrites_send (t : TcpTransport) (fd : Fd) : KeepsWrites t (t.call (.send fd)) [] :=
  ⟨fun _ c held => ⟨List.not_mem_nil, c, held, rfl, rfl⟩, fun _ c held _ => ⟨c, held, rfl, rfl⟩,
    fun _ _ found _ => found⟩

/-- What the guard says of the write that `send` has ended. -/
theorem EndsUnarmed.other {n : Nat} {key : Peer} {req : WriteReq} {fd : Fd} {c : Connection}
    (ends : EndsUnarmed s (.resumeWrite (.sent n))) (found : current s.socket = some (key, req))
    (resolved : s.transport.resolve key = .ok fd) (some_byte : 0 < min n req.data.length)
    (held : s.transport.conn fd = some c) (armed : c.write_armed_ = true) :
    ∃ other req, other ≠ key ∧ s.socket.write_queue_.lookup other = some req ∧
      s.transport.resolve other = .ok fd := by
  unfold EndsUnarmed at ends
  simp only [found, resolved, held, Option.any_some, armed] at ends
  rcases ends with none | idle | ⟨entry, member, apart, goes⟩
  · omega
  · cases idle
  · exact ⟨entry.1, entry.2, apart, AList.mem_lookup_iff.mpr member, goes⟩

theorem Interested.turn (interested : Interested s) (inverse : Inverse s.transport)
    {send : SendOutcome} {peer : Peer} {frames : List SocketFrame} {req : WriteReq} {id : Nat}
    {socket : Socket} (ends : EndsUnarmed s (.resumeWrite send))
    (top : s.socket.stack = .write peer :: frames)
    (held : s.socket.write_queue_.lookup (s.socket.writeKey peer) = some req)
    (owner : req.callback = some id)
    (taken : Socket.Step s.socket (.resumeWrite
      (s.transport.resumeWrite req.data (s.socket.writeKey peer) send).1) socket) :
    Interested { s with
      socket
      transport := (s.transport.resumeWrite req.data (s.socket.writeKey peer) send).2
      sends := s.sends ++ s.sent (s.socket.writeKey peer) req send } := by
  have found : current s.socket = some (s.socket.writeKey peer, req) := by
    unfold current
    rw [top]
    simp only [held, Option.map_some]
  obtain ⟨result, after, same, write⟩ :=
    TcpTransport.resumeWrite_cases s.transport req.data (s.socket.writeKey peer) send
  have spec := Socket.resumeWrite_spec taken top held owner
  rw [same] at spec ⊢
  have erased (final : result.status ≠ .WouldBlock) :
      socket.write_queue_ = s.socket.write_queue_.erase (s.socket.writeKey peer) := by
    rcases spec with ⟨blocked, -⟩ | ⟨-, -, -, queue⟩
    · exact absurd blocked final
    · exact queue
  -- a connection that the send has given up
  have released {fd : Fd} (resolved : s.transport.resolve (s.socket.writeKey peer) = .ok fd)
      (final : result.status ≠ .WouldBlock) : Interested { s with
        socket
        transport := (s.transport.call (.send fd)).releaseConnection fd
        sends := s.sends ++ s.sent (s.socket.writeKey peer) req send } := by
    obtain ⟨c, there⟩ := TcpTransport.resolve_held resolved
    have sending : Inverse (s.transport.call (.send fd)) := inverse.maps ⟨rfl, rfl⟩
    have keeps := (keepsWrites_send s.transport fd).trans (sending.keepsWrites_release there)
    refine interested.ended keeps (erased final) fun fd' _ resolved' _ kept _ => ?_
    rw [resolved, Except.ok.injEq] at resolved'
    exact absurd (List.mem_singleton.mpr resolved'.symm) kept
  cases write with
  | unresolved status missing =>
      refine interested.ended (.refl _) (erased (resolve_error missing).1) fun fd _ resolved => ?_
      rw [missing] at resolved
      cases resolved
  | sent fd n resolved out some_byte =>
      refine interested.ended (keepsWrites_send s.transport fd)
        (erased fun same => by cases same) ?_
      intro fd' c resolved' there _ armed
      rw [resolved, Except.ok.injEq] at resolved'
      obtain rfl := resolved'
      subst out
      exact ends.other found resolved some_byte there armed
  | blocked fd errno resolved out full =>
      rcases spec with ⟨-, -, -, queue⟩ | ⟨final, -⟩
      · exact interested.blocked held resolved (queue rfl)
      · exact absurd rfl final
  | ended fd n resolved out no_byte => exact released resolved (by decide)
  | broken fd errno resolved out hard => exact released resolved (by decide)

theorem Step.interested (taken : Step s label next) (phased : Phased s) (booked : Booked s)
    (inverse : Inverse s.transport) (apart : AcceptsApart s label) (ends : EndsUnarmed s label)
    (interested : Interested s) : Interested next := by
  cases taken with
  | binds o socket fresh did idle waits =>
      apply Interested.none fun fd => ?_
      have none := phased.conn_idle idle fd
      rw [TcpTransport.conn, ← (TcpTransport.bind_maps s.transport o).1] at none
      exact none
  | connects o socket fresh did idle waits =>
      apply Interested.none fun fd => ?_
      have none := phased.conn_idle idle fd
      rw [TcpTransport.conn, ← (TcpTransport.connect_maps s.transport o).1] at none
      exact none
  | closes socket did open_ closing => exact .none (conn_close s.transport)
  | asked _ request socket asks did same =>
      exact interested.narrowed (.refl s.transport) fun key req held =>
        queue_grows did (fun _ same => by cases same) held
  | delivered reply socket idle did posted =>
      obtain ⟨queue, -⟩ := Socket.queue_same (Socket.step_cases did).2 rfl
      intro fd c held armed
      obtain ⟨key, req, queued, found⟩ := interested fd c held armed
      exact ⟨key, req, queue ▸ queued, found⟩
  | handled _ op transport runs idle sound did =>
      cases label with
      | acceptReady fd accepted =>
          cases runs
          obtain ⟨⟨-, fds, -⟩, same⟩ := Option.ite_none_right_eq_some.mp did
          exact Option.some.inj same ▸ interested.accepted inverse apart fds
      | connectReady fd o =>
          cases runs
          obtain ⟨⟨watched, -⟩, same⟩ := Option.ite_none_right_eq_some.mp did
          obtain ⟨-, attempted, -, going⟩ := phased.attempt _ watched
          intro fd' c held armed
          rw [← Option.some.inj same, going] at held
          rw [(attempt_conn held).2.2] at armed
          cases armed
      | readReady fd =>
          cases runs
          obtain ⟨-, same⟩ := Option.ite_none_right_eq_some.mp did
          rw [← Option.some.inj same, TcpTransport.onReadReady]
          split <;> exact interested
      | writeReady fd =>
          cases runs
          obtain ⟨-, same⟩ := Option.ite_none_right_eq_some.mp did
          rw [← Option.some.inj same, TcpTransport.onWriteReady]
          split <;> exact interested
      | _ => cases runs
  | readTurn order recv socket all did same =>
      exact interested.narrowed (inverse.keepsWrites_resumeRead recv all) fun key req held =>
        queue_grows did (fun _ same => by cases same) held
  | readEnded order recv socket all did connected closing eof => exact .none (conn_close _)
  | writeTurn send peer frames req socket top held did =>
      obtain ⟨id, owner, -⟩ := booked.held _ req held
      exact interested.turn inverse ends top held owner (Socket.step_cases did).2
  | resumed _ inner socket runs did other =>
      refine interested.narrowed (.refl s.transport) fun key req held =>
        queue_grows did (fun result same => ?_) held
      rw [same] at runs
      cases label <;> cases runs
  | suspended frames top did empty =>
      exact interested.narrowed
        (TcpTransport.keepsWrites_suspendRead s.transport) fun _ _ held => held

/-- As long as no write succeeds on an armed connection and accepted connections stay apart,
connections are armed for writes only while one is queued. -/
theorem interested_run
    (run : Exec (Guarded (fun s l => AcceptsApart s l ∧ EndsUnarmed s l) (Of step)) {} labels s) :
    ∀ fd c, s.transport.conn fd = some c → c.write_armed_ = true → s.Wanted fd := by
  have inverse {labels : List Label} {s : TcpSocket}
      (run : Exec (Guarded (fun s l => AcceptsApart s l ∧ EndsUnarmed s l) (Of step)) {} labels s) :
      Inverse s.transport :=
    inverse_run (run.mono fun _ _ _ taken => ⟨taken.1.1, taken.2⟩)
  induction run with
  | nil => exact Interested.none fun fd => AList.lookup_empty fd
  | snoc before taken interested =>
      have whole := before.unguarded
      exact (step_cases taken.2).interested (Run.phased whole) (Run.booked whole) (inverse before)
        taken.1.1 taken.1.2 interested

/-- A write to a client has to wait, and one to another goes out at once. -/
def oneWaits : List Label :=
  [.bind { fd := 3, hostPort := some "0.0.0.0:80" }, .resume, .deliver (.BindRep .Ok "0.0.0.0:80"),
    .resume, .acceptReady 3 [⟨4, "10.0.0.1", 5000⟩, ⟨6, "10.0.0.2", 5000⟩],
    .write [1, 2] "10.0.0.1:5000", .resumeWrite (.failed EAGAIN), .write [3] "10.0.0.2:5000",
    .resumeWrite (.sent 1), .resume]

theorem interested_run_oneWaits : ∃ s,
    Exec (Guarded (fun s l => AcceptsApart s l ∧ EndsUnarmed s l) (Of step)) {} oneWaits s ∧
      (s.transport.conn 4).any (·.write_armed_) = true ∧ s.Wanted 4 := by
  have runs : (Transition.run
      (Transition.guardedStep (fun s l => decide (AcceptsApart s l ∧ EndsUnarmed s l)) step)
      {} oneWaits).isSome = true := by
    decide +kernel
  have kept := Transition.guarded_of_isSome runs
  have interested := interested_run kept
  have armed : (((Transition.run (Transition.guardedStep
      (fun s l => decide (AcceptsApart s l ∧ EndsUnarmed s l)) step) {} oneWaits).get
        runs).transport.conn 4).any (·.write_armed_) = true := by
    clear interested kept
    revert runs
    decide +kernel
  obtain ⟨c, held, write_armed⟩ := (Option.any_eq_true _ _).mp armed
  exact ⟨_, kept, armed, interested 4 c held write_armed⟩

/-- A write has waited, and went out in full. -/
def waitedWrite : List Label := secondTry ++ [.resume]

/-- Its connection stays armed for writes, with nothing to write. -/
theorem write_interest_stays : ¬ ∀ (labels : List Label) (s : TcpSocket), Run labels s → Quiet s →
    Interested s := by
  intro always
  have runs : (Transition.run step {} waitedWrite).isSome = true := by decide +kernel
  have run := Transition.exec_of_isSome runs
  have waits : Quiet ((Transition.run step {} waitedWrite).get runs) ∧
      (((Transition.run step {} waitedWrite).get runs).transport.conn 5).any
        (·.write_armed_) = true ∧
      ((Transition.run step {} waitedWrite).get runs).socket.write_queue_.keys = [] := by
    clear run always
    unfold Quiet
    revert runs
    decide +kernel
  obtain ⟨quiet, armed, empty⟩ := waits
  obtain ⟨c, held, write_armed⟩ := (Option.any_eq_true _ _).mp armed
  obtain ⟨key, req, queued, -⟩ := always _ _ run quiet 5 c held write_armed
  have member := AList.mem_keys.mp (AList.lookup_isSome.mp (by rw [queued]; rfl))
  rw [empty] at member
  cases member

end Interest

end TcpSocket

end Getrafty
