import Getrafty.SocketStates
import Getrafty.SocketTransportSteps

set_option autoImplicit false

namespace Getrafty

open TcpTransport (Op)

/-- Bytes of a write that the kernel accepted, with its number. -/
structure Sent where
  fd : Fd
  id : Nat
  bytes : Buffer
  deriving DecidableEq

/-- `Socket` over `TcpTransport` on their loop thread, with the data of each write that was asked
for and everything that was sent. -/
structure TcpSocket where
  socket : Socket := {}
  transport : TcpTransport := {}
  writes : List Buffer := []
  sends : List Sent := []

namespace TcpSocket

/-- What can happen next: a request, with what the system calls return that it leads to; a reply
that is ticked; a handler that the watcher runs; and the socket's own next part. -/
inductive Label where
  | bind (o : BindOutcome)
  | connect (o : ConnectOutcome)
  | read
  | write (data : Buffer) (peer : Peer)
  | close
  | deliver (reply : Socket.Reply)
  | acceptReady (fd : Fd) (accepted : List Accepted)
  | connectReady (fd : Fd) (o : ConnectedOutcome)
  | readReady (fd : Fd)
  | writeReady (fd : Fd)
  | resumeRead (order : List Fd) (recv : Fd → RecvOutcome)
  | resumeWrite (send : SendOutcome)
  | failWrite (peer : Peer)
  | resume

/-- The call on the transport that a step of the socket has come to. -/
def entered (before after : Socket) : Option TransportCall :=
  if after.state_ = before.state_ then
    none
  else
    match after.stack with
    | .transport call :: _ => some call
    | _ => none

/-- A request, and the call on the transport that it leads to. -/
def ask (s : TcpSocket) (request : Socket.Request) (call : TransportCall) (op : Op) :
    Option TcpSocket :=
  (s.socket.step (.request request)).bind fun socket =>
    if entered s.socket socket = some call then
      (s.transport.step op).map fun transport => { s with socket, transport }
    else
      some { s with socket }

/-- The tick of a reply runs between ticks, or for that of `bind` inline in it. -/
def mayDeliver (s : Socket) (reply : Socket.Reply) : Bool :=
  match s.stack, reply with
  | [], _ => true
  | .transport .bind :: _, .BindRep _ _ => true
  | _, _ => false

/-- A handler runs between ticks. -/
def ready (s : TcpSocket) (op : Op) : Option TcpSocket :=
  if s.socket.stack = [] ∧ s.socket.fault = none then
    (s.transport.step op).map fun transport => { s with transport }
  else
    none

/-- `transportRead` up to the next call of `resumeRead` or `close`. -/
def read (s : TcpSocket) (order : List Fd) (recv : Fd → RecvOutcome) : Option TcpSocket :=
  (s.socket.step (.resumeRead (s.transport.resumeRead order recv).1)).bind fun socket =>
    (s.transport.step (.resumeRead order recv)).map fun transport =>
      if entered s.socket socket = some .close then { s with socket, transport := transport.close }
      else { s with socket, transport }

/-- What the kernel accepts of a queued write. -/
def sent (s : TcpSocket) (key : Peer) (req : WriteReq) (send : SendOutcome) : List Sent :=
  match s.transport.resolve key, req.callback, send with
  | .ok fd, some id, .sent n => if n = 0 then [] else [⟨fd, id, req.data.take n⟩]
  | _, _, _ => []

/-- The write that `transportWrite` has found, with its key. -/
def current (s : Socket) : Option (Peer × WriteReq) :=
  match s.stack with
  | .write peer :: _ =>
      (s.write_queue_.lookup (s.writeKey peer)).map fun req => (s.writeKey peer, req)
  | _ => none

def write (s : TcpSocket) (send : SendOutcome) : Option TcpSocket :=
  (current s.socket).bind fun (key, req) =>
    (s.socket.step (.resumeWrite (s.transport.resumeWrite req.data key send).1)).map fun socket =>
      { s with
        socket
        transport := (s.transport.resumeWrite req.data key send).2
        sends := s.sends ++ s.sent key req send }

def step (s : TcpSocket) : Label → Option TcpSocket
  | .bind o => s.ask .bind .bind (.bind o)
  | .connect o => s.ask .connect .connect (.connect o)
  | .read => (s.socket.step (.request .read)).map fun socket => { s with socket }
  | .write data peer =>
      (s.socket.step (.request (.write data peer))).map fun socket =>
        { s with socket, writes := s.writes ++ [data] }
  | .close => s.ask .close .close .close
  | .deliver reply =>
      if mayDeliver s.socket reply then
        (s.socket.step (.reply reply)).bind fun socket =>
          (s.transport.step (.deliver reply)).map fun transport => { s with socket, transport }
      else
        none
  | .acceptReady fd accepted => s.ready (.acceptReady fd accepted)
  | .connectReady fd o => s.ready (.connectReady fd o)
  | .readReady fd => s.ready (.readReady fd)
  | .writeReady fd => s.ready (.writeReady fd)
  | .resumeRead order recv => s.read order recv
  | .resumeWrite send => s.write send
  | .failWrite peer => (s.socket.step (.failWrite peer)).map fun socket => { s with socket }
  | .resume =>
      (s.socket.step .resume).map fun socket =>
        -- the loop of `transportRead` is over
        if s.socket.stack.head? = some .reads then
          { s with socket, transport := s.transport.suspendRead }
        else
          { s with socket }

def Run (labels : List Label) (s : TcpSocket) : Prop :=
  Transition.Exec (Transition.Of step) {} labels s

end TcpSocket

end Getrafty
