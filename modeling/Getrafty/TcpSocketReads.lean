import Getrafty.SocketReads
import Getrafty.SocketTransportPeers
import Getrafty.TcpSocketPhases

set_option autoImplicit false

namespace Getrafty

open Transition (Exec Of)

namespace TcpTransport

def RecvOutcome.blocks : RecvOutcome → Bool
  | .failed errno => wouldBlock errno
  | _ => false

/-- The connections that `resumeRead` comes to while they would block. -/
def tried (t : TcpTransport) (order : List Fd) : List Fd :=
  match t.hotFd with
  | some fd => [fd]
  | none => order

/-- The `recv` that ends `resumeRead`, unless all would block. -/
def decisive (t : TcpTransport) (order : List Fd) (recv : Fd → RecvOutcome) :
    Option (Fd × RecvOutcome) :=
  ((t.tried order).find? fun fd => !RecvOutcome.blocks (recv fd)).map fun fd => (fd, recv fd)

/-- What `resumeRead` returns, by the `recv` that ends it. -/
def readResult (t : TcpTransport) : Option (Fd × RecvOutcome) → ReadResult
  | none => { n := 0, status := .WouldBlock, data := filled [] }
  | some (fd, .received chunk) =>
      { n := chunk.bytes.length, status := .Ok, data := filled chunk.bytes, peer := t.peerOf fd }
  | some (_, .eof) => { n := 0, status := .Eof, data := filled [] }
  | some (_, .failed _) => { n := minusOne, status := .Fatal, data := filled [] }

section Decisive

variable {t t' : TcpTransport} {order : List Fd} {recv : Fd → RecvOutcome} {fd : Fd}
  {result : ReadResult}

theorem blocks_iff {outcome : RecvOutcome} : RecvOutcome.blocks outcome = true ↔
    ∃ errno, outcome = .failed errno ∧ wouldBlock errno = true := by
  cases outcome with
  | failed errno =>
      constructor
      · exact fun full => ⟨errno, rfl, full⟩
      · rintro ⟨_, same, full⟩
        cases same
        exact full
  | received chunk => exact iff_of_false Bool.false_ne_true fun ⟨_, same, _⟩ => by cases same
  | eof => exact iff_of_false Bool.false_ne_true fun ⟨_, same, _⟩ => by cases same

theorem Decides.decisive (source : Decides t order recv fd)
    (ends : RecvOutcome.blocks (recv fd) = false) :
    t.decisive order recv = some (fd, recv fd) := by
  have found : (t.tried order).find? (fun fd => !RecvOutcome.blocks (recv fd)) = some fd := by
    rw [List.find?_eq_some_iff_append]
    refine ⟨by rw [ends]; rfl, ?_⟩
    unfold tried
    rcases source with hot | ⟨cold, front, back, cut, blocked⟩
    · rw [hot]
      exact ⟨[], [], rfl, fun _ member => absurd member List.not_mem_nil⟩
    · rw [cold]
      refine ⟨front, back, cut, fun f member => ?_⟩
      rw [blocks_iff.mpr (blocked f member)]
      rfl
  rw [TcpTransport.decisive, found, Option.map_some]

/-- `resumeRead` returns what the decisive `recv` makes it return. -/
theorem ReadCase.result_eq (case : ReadCase t order recv result t') :
    result = t.readResult (t.decisive order recv) := by
  have peer {fd : Fd} {c : Connection} (held : t.conn fd = some c) : t.peerOf fd = c.peer_ := by
    rw [peerOf, held]
  have blocked (all : ∀ fd ∈ t.tried order, ∃ errno, recv fd = .failed errno ∧
      wouldBlock errno = true) : t.decisive order recv = none := by
    rw [decisive, Option.map_eq_none_iff, List.find?_eq_none]
    intro fd member
    rw [blocks_iff.mpr (all fd member)]
    decide
  cases case with
  | hotBlocked fd errno _ hot out full visits =>
      rw [blocked fun other member => ?_]
      · rfl
      · rw [tried, hot] at member
        exact ⟨errno, List.mem_singleton.mp member ▸ out, full⟩
  | scanBlocked _ cold out visits =>
      rw [blocked fun other member => ?_]
      · rfl
      · rw [tried, cold] at member
        exact out other member
  | received fd c chunk _ fds source held out visits =>
      rw [source.decisive (by rw [out]; rfl), out, readResult, peer held]
  | ended fd c _ fds source held out visits =>
      rw [source.decisive (by rw [out]; rfl), out, readResult]
  | broken fd c errno _ fds source held out hard visits =>
      rw [source.decisive (by rw [out]; exact hard), out, readResult]

theorem decisive_held (all : order.Perm t.connection_by_fd_.keys) {outcome : RecvOutcome}
    (ends : t.decisive order recv = some (fd, outcome)) : ∃ c, t.conn fd = some c := by
  obtain ⟨other, found, same⟩ := Option.map_eq_some_iff.mp ends
  obtain rfl : other = fd := congrArg Prod.fst same
  have member := List.mem_of_find?_eq_some found
  unfold tried at member
  cases hot : t.hotFd with
  | some fd =>
      rw [hot] at member
      exact List.mem_singleton.mp member ▸ hotFd_conn hot
  | none =>
      rw [hot] at member
      exact mem_keys.mp (all.mem_iff.mp member)

theorem filled_eq_iff (chunk : ReadChunk) : filled chunk.bytes = chunk.bytes ↔
    chunk.bytes.length = kMinSize := by
  have fits := chunk.fits
  rw [filled, List.append_right_eq_self, List.replicate_eq_nil_iff]
  omega

end Decisive

end TcpTransport

namespace Socket

variable {s next : Socket}

/-- The turn of the loop in `transportRead` that a result leads to. -/
theorem resumeRead_turn {result : ReadResult} (taken : step s (.resumeRead result) = some next) :
    ∃ frames req queue, s.stack = .reads :: frames ∧ s.read_queue_ = req :: queue ∧
      next = s.readTurn req queue frames result := by
  unfold step at taken
  obtain ⟨-, taken⟩ := Option.ite_none_left_eq_some.mp taken
  dsimp only at taken
  split at taken
  · rename_i frames req queue top first
    exact ⟨frames, req, queue, top, first, (Option.some.inj taken).symm⟩
  · cases taken

end Socket

namespace TcpSocket

/-- What a queued read is told, by the `recv` that decides. -/
def told (s : TcpSocket) (id : Nat) : Option (Fd × RecvOutcome) → List Completion
  | none => []
  | some (fd, .received chunk) =>
      [.read id .Ok (TcpTransport.filled chunk.bytes) (s.transport.peerOf fd)]
  | some (_, .eof) => if s.socket.state_ = .Connected then [] else [.read id .Eof [] ""]
  -- `n <= 0` is false of -1 as a `size_t`
  | some (_, .failed _) => [.read id .Ok (TcpTransport.filled []) ""]

/-- What a queued read is to be told: all bytes, the end of the stream or the failure. -/
def due (id : Nat) (peer : Peer) : Option (Fd × RecvOutcome) → List Completion
  | none => []
  | some (_, .received chunk) => [.read id .Ok chunk.bytes peer]
  | some (_, .eof) => [.read id .Eof [] peer]
  | some (_, .failed _) => [.read id .Fatal [] peer]

section Reads

variable {s next : TcpSocket} {labels : List Label} {order : List Fd} {recv : Fd → RecvOutcome}

theorem minusOne_ne : minusOne ≠ 0 := by decide

theorem readTurn_log {socket : Socket} {id : Nat} {queue : List Callback}
    {frames : List SocketFrame} (s : TcpSocket) (same : socket = s.socket)
    (ends : Option (Fd × RecvOutcome)) :
    (socket.readTurn (some id) queue frames (s.transport.readResult ends)).log =
      socket.log ++ s.told id ends := by
  subst same
  match ends with
  | none => exact (List.append_nil _).symm
  | some (fd, .received chunk) =>
      have some_byte : chunk.bytes.length ≠ 0 := fun none =>
        chunk.some_byte (List.length_eq_zero_iff.mp none)
      rw [TcpTransport.readResult, Socket.readTurn, if_neg some_byte]
      rfl
  | some (fd, .eof) =>
      rw [TcpTransport.readResult, Socket.readTurn, if_pos rfl, if_neg (by decide), told]
      by_cases connected : s.socket.state_ = .Connected
      · rw [if_pos ⟨rfl, connected⟩, if_pos connected, List.append_nil, Socket.tick, connected]
        rfl
      · rw [if_neg fun both => connected both.2, if_neg connected]
        rfl
  | some (fd, .failed errno) =>
      rw [TcpTransport.readResult, Socket.readTurn, if_neg minusOne_ne]
      rfl

/-- What the first queued read is told by a turn of `transportRead`. -/
theorem read_told (run : Run labels s) (taken : s.step (.resumeRead order recv) = some next) :
    order.Perm s.transport.connection_by_fd_.keys ∧ ∃ id queue,
      s.socket.read_queue_ = some id :: queue ∧
        next.socket.log = s.socket.log ++ s.told id (s.transport.decisive order recv) := by
  have turned : order.Perm s.transport.connection_by_fd_.keys ∧
      s.socket.step (.resumeRead (s.transport.resumeRead order recv).1) = some next.socket := by
    cases step_cases taken with
    | asked _ request socket asks did same => cases asks
    | handled _ op transport runs idle sound did => cases runs
    | readTurn _ _ socket all did same => exact ⟨all, did⟩
    | readEnded _ _ socket all did connected closing eof => exact ⟨all, did⟩
    | resumed _ inner socket runs did other => cases runs
  obtain ⟨all, did⟩ := turned
  refine ⟨all, ?_⟩
  obtain ⟨seen, socket⟩ := Run.socket run
  obtain ⟨frames, req, queue, top, first, result⟩ := Socket.resumeRead_turn did
  have owned := (Socket.Run.reads_sound socket).1 req (first ▸ List.mem_cons_self)
  obtain ⟨id, rfl⟩ := Option.ne_none_iff_exists'.mp owned
  refine ⟨id, queue, first, ?_⟩
  obtain ⟨answer, after, same, case⟩ := TcpTransport.resumeRead_cases s.transport recv all
  rw [result, same, case.result_eq]
  exact readTurn_log s rfl _

/-- The read is told what `recv` has returned. -/
def Faithful (s next : TcpSocket) (ends : Option (Fd × RecvOutcome)) : Prop :=
  ∀ id queue, s.socket.read_queue_ = some id :: queue →
    ∃ peer, next.socket.log = s.socket.log ++ due id peer ends

/-- The bytes fill the buffer; or a stream ends that is not that of a connected socket; or each
connection would block. -/
def Fills (s : TcpSocket) : Option (Fd × RecvOutcome) → Prop
  | none => True
  | some (_, .received chunk) => chunk.bytes.length = kMinSize
  | some (_, .eof) => s.socket.state_ ≠ .Connected
  | some (_, .failed _) => False

instance (s : TcpSocket) : DecidablePred s.Fills :=
  fun ends => match ends with
    | none => isTrue trivial
    | some (_, .received _) => inferInstanceAs (Decidable (_ = _))
    | some (_, .eof) => inferInstanceAs (Decidable (_ ≠ _))
    | some (_, .failed _) => isFalse not_false

theorem told_eq_due_iff (s : TcpSocket) (id : Nat) (ends : Option (Fd × RecvOutcome)) :
    (∃ peer, s.told id ends = due id peer ends) ↔ s.Fills ends := by
  match ends with
  | none => exact iff_of_true ⟨"", rfl⟩ trivial
  | some (fd, .received chunk) =>
      simp only [told, due, Fills, List.cons.injEq, Completion.read.injEq, true_and, and_true,
        TcpTransport.filled_eq_iff, exists_and_left]
      exact ⟨And.left, fun fills => ⟨fills, _, rfl⟩⟩
  | some (fd, .eof) =>
      simp only [told, due, Fills]
      by_cases connected : s.socket.state_ = .Connected
      · rw [if_pos connected]
        exact iff_of_false (fun ⟨_, same⟩ => List.cons_ne_nil _ _ same.symm)
          fun other => other connected
      · rw [if_neg connected]
        exact iff_of_true ⟨"", rfl⟩ connected
  | some (fd, .failed errno) =>
      refine iff_of_false (fun ⟨_, same⟩ => ?_) not_false
      simp only [told, due, List.cons.injEq, Completion.read.injEq, reduceCtorEq, and_false,
        false_and] at same

theorem Faithful.fills (run : Run labels s) (taken : s.step (.resumeRead order recv) = some next)
    (faithful : Faithful s next (s.transport.decisive order recv)) :
    s.Fills (s.transport.decisive order recv) := by
  obtain ⟨-, id, queue, first, log⟩ := read_told run taken
  obtain ⟨peer, same⟩ := faithful id queue first
  rw [log] at same
  exact (told_eq_due_iff s id _).mp ⟨peer, List.append_cancel_left same⟩

/-- A turn of `transportRead` tells the read what `recv` has returned, exactly when the bytes fill
the buffer, a stream of a bound socket ends, or nothing is there to read. -/
theorem read_faithful_iff (run : Run labels s)
    (taken : s.step (.resumeRead order recv) = some next) :
    Faithful s next (s.transport.decisive order recv) ↔
      s.Fills (s.transport.decisive order recv) := by
  refine ⟨fun faithful => faithful.fills run taken, fun fills => ?_⟩
  obtain ⟨-, id, queue, first, log⟩ := read_told run taken
  obtain ⟨peer, same⟩ := (told_eq_due_iff s id _).mpr fills
  intro other rest front
  rw [first, List.cons.injEq, Option.some.injEq] at front
  exact ⟨peer, by rw [log, same, front.1]⟩

/-- A bound socket has one connection, and a read. -/
def oneConnection : List Label :=
  [.bind { fd := 3, hostPort := some "0.0.0.0:80" }, .resume, .deliver (.BindRep .Ok "0.0.0.0:80"),
    .resume, .acceptReady 3 [⟨4, "10.0.0.1", 5000⟩], .read]

theorem read_faithful_iff_oneConnection : ∃ s next, Run oneConnection s ∧
    s.step (.resumeRead [4] fun _ => .eof) = some next ∧
    Faithful s next (s.transport.decisive [4] fun _ => .eof) := by
  have runs : (Transition.run step {} oneConnection).isSome = true := by decide +kernel
  have run := Transition.exec_of_isSome runs
  have reads : ((((Transition.run step {} oneConnection).get runs).step
      (.resumeRead [4] fun _ => .eof)).isSome = true) ∧
      ((Transition.run step {} oneConnection).get runs).Fills
        (((Transition.run step {} oneConnection).get runs).transport.decisive
          [4] fun _ => .eof) := by
    clear run
    revert runs
    decide +kernel
  have taken := (Option.some_get reads.1).symm
  exact ⟨_, _, run, taken, (read_faithful_iff run taken).mpr reads.2⟩

/-- Three bytes come with the rest of the buffer behind them. -/
theorem short_read_padded : ¬ ∀ (labels : List Label) (s next : TcpSocket) (order : List Fd)
    (recv : Fd → RecvOutcome), Run labels s → s.step (.resumeRead order recv) = some next →
      Faithful s next (s.transport.decisive order recv) := by
  intro always
  let recv : Fd → RecvOutcome :=
    fun _ => .received ⟨[1, 2, 3], List.cons_ne_nil _ _, by decide⟩
  have runs : (Transition.run step {} oneConnection).isSome = true := by decide +kernel
  have run := Transition.exec_of_isSome runs
  have reads : ((((Transition.run step {} oneConnection).get runs).step
      (.resumeRead [4] recv)).isSome = true) ∧
      ¬ ((Transition.run step {} oneConnection).get runs).Fills
        (((Transition.run step {} oneConnection).get runs).transport.decisive [4] recv) := by
    clear run always
    revert runs
    decide +kernel
  have taken := (Option.some_get reads.1).symm
  exact reads.2 ((always _ _ _ _ _ run taken).fills run taken)

end Reads

end TcpSocket

/-- The states of a socket that `bind` leads to. -/
def SocketState.binding : SocketState → Bool
  | .BindWait | .Bound => true
  | _ => false

namespace TcpTransport

/-- Every connection was there before, with its peer. -/
def Fewer (t t' : TcpTransport) : Prop :=
  ∀ fd peer, t'.peerAt fd = some peer → t.peerAt fd = some peer

/-- Every peer has a name. -/
def Named (t : TcpTransport) : Prop := ∀ fd peer, t.peerAt fd = some peer → peer ≠ ""

section Named

variable {t t' t'' : TcpTransport}

theorem Named.fewer (named : Named t) (fewer : Fewer t t') : Named t' :=
  fun fd peer held => named fd peer (fewer fd peer held)

theorem Fewer.trans (first : Fewer t t') (second : Fewer t' t'') : Fewer t t'' :=
  fun fd peer held => first fd peer (second fd peer held)

theorem fewer_same (same : ∀ fd, t'.peerAt fd = t.peerAt fd) : Fewer t t' := by
  intro fd peer held
  rw [← same fd]
  exact held

theorem fewer_release (t : TcpTransport) (fd : Fd) : Fewer t (t.releaseConnection fd) := by
  cases held : t.conn fd with
  | none =>
      unfold releaseConnection
      rw [held]
      exact fun _ _ there => there
  | some c =>
      intro fd' peer there
      rw [peerAt, (releaseConnection_spec held).conn fd'] at there
      split at there
      · cases there
      · exact there

theorem fewer_arm (t : TcpTransport) (fd : Fd) (flag : WatchFlag) {handler : Fd → ReadyHandler}
    (other : ∀ fd, handler fd ≠ .onConnectReady) : Fewer t (t.arm fd flag handler) := by
  refine fewer_same fun fd' => peerAt_of_map (fun c => peerAt_setArmed c flag true) ?_
  rw [(arm_spec t fd flag other).2 fd']
  by_cases same : fd' = fd
  · rw [if_pos same, same]
    exact Or.inl rfl
  · rw [if_neg same]
    exact Or.inr rfl

theorem fewer_suspendRead (t : TcpTransport) : Fewer t t.suspendRead :=
  fewer_same fun fd => peerAt_of_map (fun c => peerAt_setArmed c .RDONLY false)
    (Or.inl ((suspendRead_spec t).2 fd))

theorem fewer_resumeRead {order : List Fd} (recv : Fd → RecvOutcome)
    (all : order.Perm t.connection_by_fd_.keys) : Fewer t (t.resumeRead order recv).2 := by
  obtain ⟨result, after, same, case⟩ := resumeRead_cases t recv all
  rw [same]
  cases case with
  | hotBlocked fd errno _ hot out full visits => exact fewer_same visits.peerAt
  | scanBlocked _ cold out visits => exact fewer_same visits.peerAt
  | received fd c chunk _ fds source held out visits => exact fewer_same visits.peerAt
  | ended fd c after fds source held out visits =>
      exact (fewer_same visits.peerAt).trans (fewer_release after fd)
  | broken fd c errno after fds source held out hard visits =>
      exact (fewer_same visits.peerAt).trans (fewer_release after fd)

theorem fewer_resumeWrite (t : TcpTransport) (data : Buffer) (peer : Peer) (send : SendOutcome) :
    Fewer t (t.resumeWrite data peer send).2 := by
  obtain ⟨result, after, same, case⟩ := resumeWrite_cases t data peer send
  rw [same]
  cases case with
  | unresolved status missing => exact fun _ _ there => there
  | sent fd n found out some_byte => exact fun _ _ there => there
  | blocked fd errno found out full => exact fewer_arm (t.call (.send fd)) fd .WRONLY writeHandler
  | ended fd n found out no_byte => exact fewer_release (t.call (.send fd)) fd
  | broken fd errno found out hard => exact fewer_release (t.call (.send fd)) fd

theorem accepted_named (accepted : Accepted) : Accepted.peer accepted ≠ "" := by
  intro empty
  have length := congrArg String.length empty
  simp only [Accepted.peer, String.length_append] at length
  have colon : ":".length = 1 := rfl
  have none : "".length = 0 := rfl
  omega

theorem Named.accept (accepted : List Accepted) (named : Named t) :
    Named (accepted.foldl TcpTransport.accept t) := by
  induction accepted generalizing t with
  | nil => exact named
  | cons first rest ih =>
      refine ih fun fd peer held => ?_
      rw [peerAt, (accept_spec t first).conn fd] at held
      split at held
      · rw [Option.map_some, Option.some.injEq] at held
        exact held ▸ accepted_named first
      · exact named fd peer held

end Named

end TcpTransport

namespace TcpSocket

section Peers

variable {s next : TcpSocket} {label : Label} {labels : List Label} {order : List Fd}
  {recv : Fd → RecvOutcome}

/-- Every connection has a named peer, also while the bind is still to be replied to. -/
theorem Step.named (taken : Step s label next) (phased : Phased s)
    (coherent : Socket.Coherent s.socket)
    (named : s.socket.state_.binding → TcpTransport.Named s.transport)
    (after : next.socket.state_.binding) : TcpTransport.Named next.transport := by
  cases taken with
  | binds o socket fresh did idle waits =>
      intro fd peer held
      rw [TcpTransport.peerAt, TcpTransport.conn, (TcpTransport.bind_maps s.transport o).1,
        phased.idle idle] at held
      cases held
  | connects o socket fresh did idle waits =>
      rw [waits] at after
      cases after
  | closes socket did open_ closing =>
      rw [closing] at after
      cases after
  | asked _ request socket asks did same => exact named (same ▸ after)
  | delivered reply socket idle did posted =>
      refine named ?_
      rcases Socket.reply_state (Socket.step_cases did).2 with
        same | ⟨_, _, -, waits, -⟩ | ⟨_, -, -, moved⟩
      · exact same ▸ after
      · rw [waits]
        rfl
      · rw [moved] at after
        split at after <;> cases after
  | handled _ op transport runs idle sound did =>
      have before := named after
      cases label with
      | acceptReady fd accepted =>
          cases runs
          obtain ⟨-, same⟩ := Option.ite_none_right_eq_some.mp did
          exact Option.some.inj same ▸ before.accept (accepted.take 10)
      | connectReady fd o =>
          cases runs
          obtain ⟨⟨watched, -⟩, -⟩ := Option.ite_none_right_eq_some.mp did
          rw [(phased.attempt _ watched).1] at after
          cases after
      | readReady fd =>
          cases runs
          obtain ⟨-, same⟩ := Option.ite_none_right_eq_some.mp did
          rw [← Option.some.inj same, TcpTransport.onReadReady]
          split <;> exact before
      | writeReady fd =>
          cases runs
          obtain ⟨-, same⟩ := Option.ite_none_right_eq_some.mp did
          rw [← Option.some.inj same, TcpTransport.onWriteReady]
          split <;> exact before
      | _ => cases runs
  | readTurn order recv socket all did same =>
      exact (named (same ▸ after)).fewer (TcpTransport.fewer_resumeRead recv all)
  | readEnded order recv socket all did connected closing eof =>
      rw [closing] at after
      cases after
  | writeTurn send peer frames req socket top held did =>
      have same := Socket.write_state (Socket.step_cases did).2
      exact (named (same ▸ after)).fewer (TcpTransport.fewer_resumeWrite _ _ _ _)
  | resumed _ inner socket runs did other =>
      rcases Socket.inner_state runs (Socket.step_cases did).2 coherent with same | ⟨-, closed⟩
      · exact named (same ▸ after)
      · rw [closed] at after
        cases after
  | suspended frames top did empty =>
      exact (named after).fewer (TcpTransport.fewer_suspendRead s.transport)

theorem Run.named (run : Run labels s) (binding : s.socket.state_.binding) :
    TcpTransport.Named s.transport := by
  revert binding
  induction run with
  | nil => exact fun idle => by cases idle
  | snoc before taken named =>
      have case := step_cases taken
      exact case.named (Run.phased before) (Run.coherent before case) named

/-- The callback of a read is given the peer whose `recv` has decided. -/
def NamesPeer (s next : TcpSocket) (ends : Option (Fd × RecvOutcome)) : Prop :=
  ∀ fd outcome, ends = some (fd, outcome) → ∀ id status data peer,
    next.socket.log = s.socket.log ++ [.read id status data peer] → peer = s.transport.peerOf fd

/-- Data has come, or nothing is there to read. -/
def Delivers : Option (Fd × RecvOutcome) → Prop
  | none => True
  | some (_, .received _) => True
  | some (_, .eof) => False
  | some (_, .failed _) => False

instance : DecidablePred Delivers :=
  fun ends => match ends with
    | none => isTrue trivial
    | some (_, .received _) => isTrue trivial
    | some (_, .eof) => isFalse not_false
    | some (_, .failed _) => isFalse not_false

theorem NamesPeer.delivers (run : Run labels s)
    (taken : s.step (.resumeRead order recv) = some next) (bound : s.socket.state_ = .Bound)
    (names : NamesPeer s next (s.transport.decisive order recv)) :
    Delivers (s.transport.decisive order recv) := by
  obtain ⟨all, id, queue, first, log⟩ := read_told run taken
  have named := Run.named run (by rw [bound]; rfl)
  have nameless {fd : Fd} {outcome : RecvOutcome}
      (ends : s.transport.decisive order recv = some (fd, outcome)) :
      s.transport.peerOf fd ≠ "" := by
    obtain ⟨c, held⟩ := TcpTransport.decisive_held all ends
    rw [TcpTransport.peerOf, held]
    exact named fd c.peer_ (TcpTransport.peerAt_of_conn held)
  unfold NamesPeer at names
  match ends : s.transport.decisive order recv with
  | none => trivial
  | some (fd, .received chunk) => trivial
  | some (fd, .eof) =>
      rw [ends, told, if_neg (by rw [bound]; decide)] at log
      exact absurd (names fd .eof ends _ _ _ _ log).symm (nameless ends)
  | some (fd, .failed errno) =>
      rw [ends] at log
      exact absurd (names fd (.failed errno) ends _ _ _ _ log).symm (nameless ends)

/-- A bound socket names the peer to its reads exactly when it delivers data. -/
theorem read_peer_iff (run : Run labels s) (bound : s.socket.state_ = .Bound)
    (taken : s.step (.resumeRead order recv) = some next) :
    NamesPeer s next (s.transport.decisive order recv) ↔
      Delivers (s.transport.decisive order recv) := by
  refine ⟨fun names => names.delivers run taken bound, fun delivers => ?_⟩
  obtain ⟨-, id, queue, first, log⟩ := read_told run taken
  intro fd outcome ends other status data peer same
  rw [ends] at delivers log
  match outcome with
  | .received chunk =>
      rw [log] at same
      have one := List.append_cancel_left same
      simp only [told, List.cons.injEq, Completion.read.injEq, and_true] at one
      exact one.2.2.2.symm
  | .eof => exact delivers.elim
  | .failed errno => exact delivers.elim

/-- The first read of a connection is given what came on it. -/
theorem read_peer_iff_oneConnection : ∃ s next, Run oneConnection s ∧
    s.socket.state_ = .Bound ∧ s.step (.resumeRead [4] fun _ =>
      .received ⟨[1, 2, 3], List.cons_ne_nil _ _, by decide⟩) = some next ∧
    NamesPeer s next (s.transport.decisive [4] fun _ =>
      .received ⟨[1, 2, 3], List.cons_ne_nil _ _, by decide⟩) := by
  let recv : Fd → RecvOutcome :=
    fun _ => .received ⟨[1, 2, 3], List.cons_ne_nil _ _, by decide⟩
  have runs : (Transition.run step {} oneConnection).isSome = true := by decide +kernel
  have run := Transition.exec_of_isSome runs
  have reads : ((((Transition.run step {} oneConnection).get runs).step
      (.resumeRead [4] recv)).isSome = true) ∧
      Delivers (((Transition.run step {} oneConnection).get runs).transport.decisive [4] recv) ∧
      ((Transition.run step {} oneConnection).get runs).socket.state_ = .Bound := by
    clear run
    revert runs
    decide +kernel
  have taken := (Option.some_get reads.1).symm
  exact ⟨_, _, run, reads.2.2, taken, (read_peer_iff run reads.2.2 taken).mpr reads.2.1⟩

/-- The end of a stream comes without the peer. -/
theorem eof_names_no_peer : ¬ ∀ (labels : List Label) (s next : TcpSocket) (order : List Fd)
    (recv : Fd → RecvOutcome), Run labels s → s.socket.state_ = .Bound →
      s.step (.resumeRead order recv) = some next →
      NamesPeer s next (s.transport.decisive order recv) := by
  intro always
  have runs : (Transition.run step {} oneConnection).isSome = true := by decide +kernel
  have run := Transition.exec_of_isSome runs
  have reads : ((((Transition.run step {} oneConnection).get runs).step
      (.resumeRead [4] fun _ => .eof)).isSome = true) ∧
      ¬ Delivers (((Transition.run step {} oneConnection).get runs).transport.decisive [4]
        fun _ => .eof) ∧
      ((Transition.run step {} oneConnection).get runs).socket.state_ = .Bound := by
    clear run always
    revert runs
    decide +kernel
  have taken := (Option.some_get reads.1).symm
  exact reads.2.1 ((always _ _ _ _ _ run reads.2.2 taken).delivers run taken reads.2.2)

end Peers

end TcpSocket

end Getrafty
