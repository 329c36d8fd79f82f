import Getrafty.TcpSocket

set_option autoImplicit false

namespace Getrafty

open Transition (Exec Of)
open TcpTransport (Op)

namespace TcpSocket

/-- What the user asks for. -/
def Label.request? : Label → Option Socket.Request
  | .bind _ => some .bind
  | .connect _ => some .connect
  | .read => some .read
  | .write data peer => some (.write data peer)
  | .close => some .close
  | _ => none

def Label.data : Label → List Buffer
  | .write data _ => [data]
  | _ => []

/-- The handler of the transport that the watcher runs. -/
def Label.handler? : Label → Option Op
  | .acceptReady fd accepted => some (.acceptReady fd accepted)
  | .connectReady fd o => some (.connectReady fd o)
  | .readReady fd => some (.readReady fd)
  | .writeReady fd => some (.writeReady fd)
  | _ => none

/-- The parts of a tick that leave the transport alone. -/
def Label.inner? : Label → Option Socket.Label
  | .failWrite peer => some (.failWrite peer)
  | .resume => some .resume
  | _ => none

/-- Everything a step can do, with what it found before it. -/
inductive Step (s : TcpSocket) : Label → TcpSocket → Prop
  | binds (o : BindOutcome) (socket : Socket) (fresh : s.transport.Fresh o.fd)
      (taken : s.socket.step (.request .bind) = some socket)
      (idle : s.socket.state_ = .Idle) (waits : socket.state_ = .BindWait) :
      Step s (.bind o) { s with socket, transport := s.transport.bind o }
  | connects (o : ConnectOutcome) (socket : Socket) (fresh : s.transport.Fresh o.fd)
      (taken : s.socket.step (.request .connect) = some socket)
      (idle : s.socket.state_ = .Idle) (waits : socket.state_ = .ConnectWait) :
      Step s (.connect o) { s with socket, transport := s.transport.connect o }
  | closes (socket : Socket) (taken : s.socket.step (.request .close) = some socket)
      (open_ : s.socket.state_.shut = false) (closing : socket.state_ = .CloseWait) :
      Step s .close { s with socket, transport := s.transport.close }
  | asked (label : Label) (request : Socket.Request) (socket : Socket)
      (asks : label.request? = some request)
      (taken : s.socket.step (.request request) = some socket)
      (same : socket.state_ = s.socket.state_) :
      Step s label { s with socket, writes := s.writes ++ label.data }
  | delivered (reply : Socket.Reply) (socket : Socket)
      (idle : s.socket.stack = [] ∨ ∃ frames status endpoint,
        s.socket.stack = .transport .bind :: frames ∧ reply = .BindRep status endpoint)
      (taken : s.socket.step (.reply reply) = some socket) (posted : reply ∈ s.transport.inflight) :
      Step s (.deliver reply)
        { s with
          socket
          transport := { s.transport with inflight := s.transport.inflight.erase reply } }
  | handled (label : Label) (op : Op) (transport : TcpTransport) (runs : label.handler? = some op)
      (idle : s.socket.stack = []) (sound : s.socket.fault = none)
      (taken : s.transport.step op = some transport) : Step s label { s with transport }
  | readTurn (order : List Fd) (recv : Fd → RecvOutcome) (socket : Socket)
      (all : order.Perm s.transport.connection_by_fd_.keys)
      (taken : s.socket.step (.resumeRead (s.transport.resumeRead order recv).1) = some socket)
      (same : socket.state_ = s.socket.state_) :
      Step s (.resumeRead order recv)
        { s with socket, transport := (s.transport.resumeRead order recv).2 }
  | readEnded (order : List Fd) (recv : Fd → RecvOutcome) (socket : Socket)
      (all : order.Perm s.transport.connection_by_fd_.keys)
      (taken : s.socket.step (.resumeRead (s.transport.resumeRead order recv).1) = some socket)
      (connected : s.socket.state_ = .Connected) (closing : socket.state_ = .CloseWait)
      (eof : (s.transport.resumeRead order recv).1.status = .Eof) :
      Step s (.resumeRead order recv)
        { s with socket, transport := (s.transport.resumeRead order recv).2.close }
  | writeTurn (send : SendOutcome) (peer : Peer) (frames : List SocketFrame) (req : WriteReq)
      (socket : Socket) (top : s.socket.stack = .write peer :: frames)
      (held : s.socket.write_queue_.lookup (s.socket.writeKey peer) = some req)
      (taken : s.socket.step (.resumeWrite
        (s.transport.resumeWrite req.data (s.socket.writeKey peer) send).1) = some socket) :
      Step s (.resumeWrite send)
        { s with
          socket
          transport := (s.transport.resumeWrite req.data (s.socket.writeKey peer) send).2
          sends := s.sends ++ s.sent (s.socket.writeKey peer) req send }
  | resumed (label : Label) (inner : Socket.Label) (socket : Socket)
      (runs : label.inner? = some inner) (taken : s.socket.step inner = some socket)
      (other : s.socket.stack.head? ≠ some .reads) : Step s label { s with socket }
  | suspended (frames : List SocketFrame) (top : s.socket.stack = .reads :: frames)
      (taken : s.socket.step .resume = some { s.socket with stack := frames })
      (empty : s.socket.read_queue_ = []) :
      Step s .resume
        { s with
          socket := { s.socket with stack := frames }
          transport := s.transport.suspendRead }

section Inversion

variable {s next : TcpSocket} {label : Label}

/-- A request is turned down, or enters the call that belongs to it. -/
theorem ask_entered {socket after : Socket} {request : Socket.Request}
    (taken : socket.step (.request request) = some after) (call : TransportCall)
    (enters : entered socket after = some call) :
    call = .bind ∧ request = .bind ∧ socket.state_ = .Idle ∧ after.state_ = .BindWait ∨
      call = .connect ∧ request = .connect ∧ socket.state_ = .Idle ∧
        after.state_ = .ConnectWait ∨
      call = .close ∧ request = .close ∧ socket.state_.shut = false ∧
        after.state_ = .CloseWait := by
  unfold entered at enters
  split at enters
  · cases enters
  · rename_i moved
    cases (Socket.step_cases taken).2 with
    | bindAsked idle room =>
        cases enters
        exact Or.inl ⟨rfl, rfl, idle, rfl⟩
    | connectAsked idle room =>
        cases enters
        exact Or.inr (Or.inl ⟨rfl, rfl, idle, rfl⟩)
    | closeAsked open_ =>
        cases enters
        exact Or.inr (Or.inr ⟨rfl, rfl, open_, rfl⟩)
    | _ => exact absurd rfl moved

/-- A request that enters no call leaves the state alone. -/
theorem ask_same {socket after : Socket} {request : Socket.Request}
    (taken : socket.step (.request request) = some after) (none : entered socket after = none) :
    after.state_ = socket.state_ := by
  unfold entered at none
  split at none
  · assumption
  · rename_i moved
    cases (Socket.step_cases taken).2 with
    | bindAsked idle room => cases none
    | connectAsked idle room => cases none
    | closeAsked open_ => cases none
    | _ => rfl

theorem ask_cases {request : Socket.Request} {call : TransportCall} {op : Op}
    (taken : s.ask request call op = some next) :
    ∃ socket, s.socket.step (.request request) = some socket ∧
      (entered s.socket socket = some call ∧ (∃ transport, s.transport.step op = some transport ∧
          next = { s with socket, transport }) ∨
        entered s.socket socket ≠ some call ∧ next = { s with socket }) := by
  obtain ⟨socket, asked, rest⟩ := Option.bind_eq_some_iff.mp taken
  refine ⟨socket, asked, ?_⟩
  split at rest
  · obtain ⟨transport, did, same⟩ := Option.map_eq_some_iff.mp rest
    exact Or.inl ⟨‹_›, transport, did, same.symm⟩
  · exact Or.inr ⟨‹_›, (Option.some.inj rest).symm⟩

/-- A request that does not come to the call that belongs to it comes to none. -/
theorem ask_none {socket after : Socket} {request : Socket.Request} {call : TransportCall}
    (belongs : request = .bind ∧ call = .bind ∨ request = .connect ∧ call = .connect ∨
      request = .close ∧ call = .close)
    (taken : socket.step (.request request) = some after)
    (other : entered socket after ≠ some call) : entered socket after = none := by
  cases enters : entered socket after with
  | none => rfl
  | some came =>
      rw [enters] at other
      rcases ask_entered taken came enters with ⟨rfl, rfl, -⟩ | ⟨rfl, rfl, -⟩ | ⟨rfl, rfl, -⟩ <;>
        rcases belongs with ⟨same, rfl⟩ | ⟨same, rfl⟩ | ⟨same, rfl⟩ <;>
        first
          | exact absurd rfl other
          | cases same

theorem asked_silent {request : Socket.Request} {socket : Socket}
    (asks : label.request? = some request) (silent : label.data = [])
    (taken : s.socket.step (.request request) = some socket)
    (same : socket.state_ = s.socket.state_) : Step s label { s with socket } := by
  have case := Step.asked label request socket asks taken same
  rw [silent, List.append_nil] at case
  exact case

theorem bind_step {t t' : TcpTransport} {o : BindOutcome} (taken : t.step (.bind o) = some t') :
    t.Fresh o.fd ∧ t' = t.bind o := by
  obtain ⟨fresh, same⟩ := Option.ite_none_right_eq_some.mp taken
  exact ⟨fresh, (Option.some.inj same).symm⟩

theorem connect_step {t t' : TcpTransport} {o : ConnectOutcome}
    (taken : t.step (.connect o) = some t') : t.Fresh o.fd ∧ t' = t.connect o := by
  obtain ⟨fresh, same⟩ := Option.ite_none_right_eq_some.mp taken
  exact ⟨fresh, (Option.some.inj same).symm⟩

theorem ready_cases {op : Op} (runs : label.handler? = some op) (taken : s.ready op = some next) :
    Step s label next := by
  obtain ⟨⟨idle, sound⟩, handles⟩ := Option.ite_none_right_eq_some.mp taken
  obtain ⟨transport, did, rfl⟩ := Option.map_eq_some_iff.mp handles
  exact .handled label op transport runs idle sound did

/-- A turn of `transportRead` leaves the state alone, or starts to close on an end of stream. -/
theorem readTurn_entered {socket after : Socket} {result : ReadResult}
    (taken : socket.step (.resumeRead result) = some after) :
    entered socket after = some .close ∧ socket.state_ = .Connected ∧
        after.state_ = .CloseWait ∧ result.status = .Eof ∨
      entered socket after ≠ some .close ∧ after.state_ = socket.state_ := by
  cases (Socket.step_cases taken).2 with
  | readEnded _ frames req queue top first connected eof =>
      refine Or.inl ⟨?_, connected, rfl, eof.2⟩
      unfold entered
      rw [connected]
      rfl
  | _ =>
      refine Or.inr ⟨?_, rfl⟩
      unfold entered
      rw [if_pos rfl]
      exact (Option.some_ne_none _).symm

theorem read_cases {order : List Fd} {recv : Fd → RecvOutcome}
    (taken : s.read order recv = some next) : Step s (.resumeRead order recv) next := by
  obtain ⟨socket, turned, rest⟩ := Option.bind_eq_some_iff.mp taken
  obtain ⟨transport, did, same⟩ := Option.map_eq_some_iff.mp rest
  obtain ⟨all, result⟩ := Option.ite_none_right_eq_some.mp did
  obtain rfl := Option.some.inj result
  rcases readTurn_entered turned with ⟨enters, connected, closing, eof⟩ | ⟨other, kept⟩
  · rw [if_pos enters] at same
    exact same ▸ .readEnded order recv socket all turned connected closing eof
  · rw [if_neg other] at same
    exact same ▸ .readTurn order recv socket all turned kept

theorem current_cases {socket : Socket} {key : Peer} {req : WriteReq}
    (found : current socket = some (key, req)) :
    ∃ peer frames, socket.stack = .write peer :: frames ∧
      key = socket.writeKey peer ∧
      socket.write_queue_.lookup (socket.writeKey peer) = some req := by
  unfold current at found
  split at found
  · rename_i peer frames top
    obtain ⟨other, held, same⟩ := Option.map_eq_some_iff.mp found
    obtain ⟨rfl, rfl⟩ := Prod.mk.injEq _ _ _ _ ▸ same
    exact ⟨peer, frames, top, rfl, held⟩
  · cases found

theorem write_cases {send : SendOutcome} (taken : s.write send = some next) :
    Step s (.resumeWrite send) next := by
  obtain ⟨⟨key, req⟩, found, rest⟩ := Option.bind_eq_some_iff.mp taken
  obtain ⟨peer, frames, top, rfl, held⟩ := current_cases found
  obtain ⟨socket, turned, rfl⟩ := Option.map_eq_some_iff.mp rest
  exact .writeTurn send peer frames req socket top held turned

theorem resume_cases (taken : s.step .resume = some next) : Step s .resume next := by
  obtain ⟨socket, resumed, same⟩ := Option.map_eq_some_iff.mp taken
  by_cases done : s.socket.stack.head? = some .reads
  · rw [if_pos done] at same
    obtain ⟨frames, top⟩ := List.head?_eq_some_iff.mp done
    have turned := resumed
    unfold Socket.step at turned
    rw [if_neg (by rw [(Socket.step_cases resumed).1]; decide)] at turned
    simp only [top] at turned
    obtain ⟨empty, popped⟩ := Option.ite_none_right_eq_some.mp turned
    obtain rfl := Option.some.inj popped
    exact same ▸ .suspended frames top resumed empty
  · rw [if_neg done] at same
    exact same ▸ .resumed .resume .resume socket rfl resumed done

/-- A step is one of the cases above. -/
theorem step_cases (taken : s.step label = some next) : Step s label next := by
  cases label with
  | bind o =>
      obtain ⟨socket, asked, ⟨enters, transport, did, rfl⟩ | ⟨other, rfl⟩⟩ := ask_cases taken
      · obtain ⟨fresh, rfl⟩ := bind_step did
        rcases ask_entered asked _ enters with ⟨-, -, idle, waits⟩ | ⟨same, -⟩ | ⟨same, -⟩
        · exact .binds o socket fresh asked idle waits
        · cases same
        · cases same
      · have none := ask_none (Or.inl ⟨rfl, rfl⟩) asked other
        exact asked_silent rfl rfl asked (ask_same asked none)
  | connect o =>
      obtain ⟨socket, asked, ⟨enters, transport, did, rfl⟩ | ⟨other, rfl⟩⟩ := ask_cases taken
      · obtain ⟨fresh, rfl⟩ := connect_step did
        rcases ask_entered asked _ enters with ⟨same, -⟩ | ⟨-, -, idle, waits⟩ | ⟨same, -⟩
        · cases same
        · exact .connects o socket fresh asked idle waits
        · cases same
      · have none := ask_none (Or.inr (Or.inl ⟨rfl, rfl⟩)) asked other
        exact asked_silent rfl rfl asked (ask_same asked none)
  | close =>
      obtain ⟨socket, asked, ⟨enters, transport, did, rfl⟩ | ⟨other, rfl⟩⟩ := ask_cases taken
      · obtain rfl := Option.some.inj did
        rcases ask_entered asked _ enters with ⟨same, -⟩ | ⟨same, -⟩ | ⟨-, -, open_, closing⟩
        · cases same
        · cases same
        · exact .closes socket asked open_ closing
      · have none := ask_none (Or.inr (Or.inr ⟨rfl, rfl⟩)) asked other
        exact asked_silent rfl rfl asked (ask_same asked none)
  | read =>
      obtain ⟨socket, asked, rfl⟩ := Option.map_eq_some_iff.mp taken
      have kept : socket.state_ = s.socket.state_ := by
        cases (Socket.step_cases asked).2 with
        | _ => rfl
      exact asked_silent rfl rfl asked kept
  | write data peer =>
      obtain ⟨socket, asked, rfl⟩ := Option.map_eq_some_iff.mp taken
      have kept : socket.state_ = s.socket.state_ := by
        cases (Socket.step_cases asked).2 with
        | _ => rfl
      exact .asked (.write data peer) (.write data peer) socket rfl asked kept
  | deliver reply =>
      obtain ⟨may, rest⟩ := Option.ite_none_right_eq_some.mp taken
      obtain ⟨socket, ticked, rest⟩ := Option.bind_eq_some_iff.mp rest
      obtain ⟨transport, did, rfl⟩ := Option.map_eq_some_iff.mp rest
      obtain ⟨posted, same⟩ := Option.ite_none_right_eq_some.mp did
      obtain rfl := Option.some.inj same
      refine .delivered reply socket ?_ ticked posted
      unfold mayDeliver at may
      split at may
      · exact Or.inl ‹_›
      · exact Or.inr ⟨_, _, _, ‹_›, rfl⟩
      · cases may
  | acceptReady fd accepted => exact ready_cases rfl taken
  | connectReady fd o => exact ready_cases rfl taken
  | readReady fd => exact ready_cases rfl taken
  | writeReady fd => exact ready_cases rfl taken
  | resumeRead order recv => exact read_cases taken
  | resumeWrite send => exact write_cases taken
  | failWrite peer =>
      obtain ⟨socket, failed, rfl⟩ := Option.map_eq_some_iff.mp taken
      refine .resumed (.failWrite peer) (.failWrite peer) socket rfl failed ?_
      cases (Socket.step_cases failed).2 with
      | writeFailed _ left callback frames req id top =>
          rw [top]
          exact fun same => by cases same
      | writeSkipped _ left callback frames top =>
          rw [top]
          exact fun same => by cases same
  | resume => exact resume_cases taken

end Inversion

section Parts

variable {s next : TcpSocket} {label : Label} {labels : List Label}

theorem Step.socket_exec (taken : Step s label next) :
    ∃ seen, Exec (Of Socket.step) s.socket seen next.socket := by
  have one {inner : Socket.Label} {socket : Socket} (did : s.socket.step inner = some socket) :
      ∃ seen, Exec (Of Socket.step) s.socket seen socket := ⟨[inner], Exec.nil.snoc did⟩
  cases taken with
  | binds o socket fresh did idle waits => exact one did
  | connects o socket fresh did idle waits => exact one did
  | closes socket did open_ closing => exact one did
  | asked _ request socket asks did same => exact one did
  | delivered reply socket idle did posted => exact one did
  | handled _ op transport runs idle sound did => exact ⟨[], .nil⟩
  | readTurn order recv socket all did same => exact one did
  | readEnded order recv socket all did connected closing eof => exact one did
  | writeTurn send peer frames req socket top held did => exact one did
  | resumed _ inner socket runs did other => exact one did
  | suspended frames top did empty => exact one did

/-- The socket of a run is one of the socket's own runs, over some transport. -/
theorem Run.socket (run : Run labels s) : ∃ seen, Socket.Run seen s.socket :=
  run.viewed TcpSocket.socket fun _ _ _ taken => (step_cases taken).socket_exec

end Parts

end TcpSocket

end Getrafty
