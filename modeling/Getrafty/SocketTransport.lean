import Getrafty.Errno
import Getrafty.EventWatcher
import Getrafty.Socket

set_option autoImplicit false

namespace Getrafty

/-- A descriptor, or -1. -/
abbrev Fd := Int

structure Connection where
  fd_ : Fd := -1
  peer_ : Peer
  read_armed_ : Bool := false
  write_armed_ : Bool := false
  deriving DecidableEq

/-- `read_armed_` or `write_armed_`. -/
def Connection.armed (c : Connection) : WatchFlag → Bool
  | .RDONLY => c.read_armed_
  | .WRONLY => c.write_armed_

def Connection.setArmed (c : Connection) (flag : WatchFlag) (on : Bool) : Connection :=
  match flag with
  | .RDONLY => { c with read_armed_ := on }
  | .WRONLY => { c with write_armed_ := on }

/-- The lambdas that the transport hands to its watcher. -/
inductive ReadyHandler where
  | onAcceptReady
  | onConnectReady
  | onReadReady (fd : Fd)
  | onWriteReady (fd : Fd)
  deriving DecidableEq

/-- What is done with a descriptor. -/
inductive FdCall where
  | opened (fd : Fd)
  | closed (fd : Fd)
  | watch (fd : Fd) (flag : WatchFlag)
  | unwatch (fd : Fd) (flag : WatchFlag)
  | recv (fd : Fd)
  | send (fd : Fd)
  deriving DecidableEq

/-- What the system calls in `bind` return, the descriptor first. -/
structure BindOutcome where
  fd : Fd
  nonBlocking : Bool := true
  bound : Bool := true
  listens : Bool := true
  hostPort : Option Address := some ""

structure ConnectOutcome where
  fd : Fd
  nonBlocking : Bool := true
  rc : Int := 0
  errno : Int := 0

/-- A descriptor that `accept4` returns, and the address it fills in. -/
structure Accepted where
  fd : Fd
  ip : String
  port : Nat

/-- What `getsockopt` returns and writes to `error`, and the address of the descriptor. -/
structure ConnectedOutcome where
  rc : Int := 0
  error : Int := 0
  hostPort : Option Address := some ""

/-- `kMinSize` in `resumeRead`: 1KB. -/
def kMinSize : Nat := 1 <<< 10

/-- What one successful `recv` delivers into a buffer of that size. -/
structure ReadChunk where
  bytes : Buffer
  some_byte : bytes ≠ []
  fits : bytes.length ≤ kMinSize

inductive RecvOutcome where
  | received (chunk : ReadChunk)
  | eof
  | failed (errno : Int)

inductive SendOutcome where
  | sent (n : Nat)
  | failed (errno : Int)

/-- `errno == EAGAIN || errno == EWOULDBLOCK`. -/
def wouldBlock (errno : Int) : Bool := errno = EAGAIN ∨ errno = EWOULDBLOCK

/-- -1 as a `size_t`. -/
def minusOne : Nat := 2 ^ 64 - 1

/-- `TcpTransport` of the socket, on the loop thread, with what its watcher holds for it, the
replies that it handed to `replay_` and all that it did with descriptors. -/
structure TcpTransport where
  listen_fd_ : Fd := -1
  client_fd_ : Fd := -1
  hot_read_peer_ : Peer := ""
  hot_write_peer_ : Peer := ""
  connected_ : Bool := false
  fd_by_peer_ : AList (fun _ : Peer => Fd) := ∅
  connection_by_fd_ : AList (fun _ : Fd => Connection) := ∅
  watched : AList (fun _ : Fd × WatchFlag => ReadyHandler) := ∅
  inflight : List Socket.Reply := []
  calls : List FdCall := []

namespace TcpTransport

/-- The connection of a descriptor. -/
def conn (t : TcpTransport) (fd : Fd) : Option Connection := t.connection_by_fd_.lookup fd

def replay_ (t : TcpTransport) (reply : Socket.Reply) : TcpTransport :=
  { t with inflight := t.inflight ++ [reply] }

def call (t : TcpTransport) (call : FdCall) : TcpTransport := { t with calls := t.calls ++ [call] }

/-- `ew_->watch`: a handler that is there already is replaced. -/
def watch (t : TcpTransport) (fd : Fd) (flag : WatchFlag) (handler : ReadyHandler) : TcpTransport :=
  { t with watched := t.watched.insert (fd, flag) handler, calls := t.calls ++ [.watch fd flag] }

def unwatch (t : TcpTransport) (fd : Fd) (flag : WatchFlag) : TcpTransport :=
  { t with watched := t.watched.erase (fd, flag), calls := t.calls ++ [.unwatch fd flag] }

def watchAccept (t : TcpTransport) : TcpTransport := t.watch t.listen_fd_ .RDONLY .onAcceptReady

def unwatchAccept (t : TcpTransport) : TcpTransport :=
  if 0 ≤ t.listen_fd_ then t.unwatch t.listen_fd_ .RDONLY else t

def watchConnect (t : TcpTransport) : TcpTransport := t.watch t.client_fd_ .WRONLY .onConnectReady

def unwatchConnect (t : TcpTransport) : TcpTransport :=
  if 0 ≤ t.client_fd_ then t.unwatch t.client_fd_ .WRONLY else t

def setConn (t : TcpTransport) (fd : Fd) (conn : Connection) : TcpTransport :=
  { t with connection_by_fd_ := t.connection_by_fd_.insert fd conn }

/-- `watchRead` or `watchWrite`, by the flag. -/
def arm (t : TcpTransport) (fd : Fd) (flag : WatchFlag) (handler : Fd → ReadyHandler) :
    TcpTransport :=
  match t.conn fd with
  | some conn =>
      if conn.armed flag then t
      else (t.watch conn.fd_ flag (handler conn.fd_)).setConn fd (conn.setArmed flag true)
  | none => t

/-- `unwatchRead` or `unwatchWrite`, by the flag. -/
def disarm (t : TcpTransport) (fd : Fd) (flag : WatchFlag) : TcpTransport :=
  match t.conn fd with
  | some conn =>
      if conn.armed flag then (t.unwatch conn.fd_ flag).setConn fd (conn.setArmed flag false)
      else t
  | none => t

def watchRead (t : TcpTransport) (fd : Fd) : TcpTransport := t.arm fd .RDONLY .onReadReady

def unwatchRead (t : TcpTransport) (fd : Fd) : TcpTransport := t.disarm fd .RDONLY

def watchWrite (t : TcpTransport) (fd : Fd) : TcpTransport := t.arm fd .WRONLY .onWriteReady

def unwatchWrite (t : TcpTransport) (fd : Fd) : TcpTransport := t.disarm fd .WRONLY

/-- `::close(listen_fd_); listen_fd_ = -1; replay_(BindRep{Fatal})`. -/
def failBind (t : TcpTransport) : TcpTransport :=
  ({ t.call (.closed t.listen_fd_) with listen_fd_ := -1 }).replay_ (.BindRep .Fatal "")

def bind (t : TcpTransport) (o : BindOutcome) : TcpTransport :=
  let t := { t with listen_fd_ := o.fd }
  if o.fd < 0 then
    t.replay_ (.BindRep .Fatal "")
  else
    let t := t.call (.opened o.fd)
    if o.nonBlocking = false then t.failBind
    else if o.bound = false then t.failBind
    else if o.listens = false then t.failBind
    else
      match o.hostPort with
      | none => t.failBind
      | some hostPort => t.watchAccept.replay_ (.BindRep .Ok hostPort)

/-- `::close(client_fd_); client_fd_ = -1`. -/
def dropClient (t : TcpTransport) : TcpTransport :=
  { t.call (.closed t.client_fd_) with client_fd_ := -1 }

def connect (t : TcpTransport) (o : ConnectOutcome) : TcpTransport :=
  let t := { t with client_fd_ := o.fd }
  if o.fd < 0 then
    t
  else
    let t := t.call (.opened o.fd)
    if o.nonBlocking = false then t.dropClient
    else if o.rc < 0 ∧ o.errno ≠ EINPROGRESS then t.dropClient
    else t.watchConnect

/-- One turn of the loop in `close`. -/
def closeConn (t : TcpTransport) (fd : Fd) : TcpTransport :=
  ((t.unwatchRead fd).unwatchWrite fd).call (.closed fd)

def closeListener (t : TcpTransport) : TcpTransport :=
  if 0 ≤ t.listen_fd_ then
    { t.unwatchAccept.call (.closed t.listen_fd_) with listen_fd_ := -1 }
  else
    t

/-- The descriptor of a connection attempt is unwatched and forgotten. -/
def closeClient (t : TcpTransport) : TcpTransport :=
  if 0 ≤ t.client_fd_ then { t.unwatchConnect with client_fd_ := -1 } else t

def close (t : TcpTransport) : TcpTransport :=
  let t := t.closeListener.closeClient
  { t.connection_by_fd_.keys.foldl closeConn t with
    connection_by_fd_ := ∅
    fd_by_peer_ := ∅
    hot_read_peer_ := ""
    hot_write_peer_ := "" }

def Accepted.peer (accepted : Accepted) : Peer :=
  accepted.ip ++ ":" ++ toString accepted.port

/-- One turn of the loop in `onAcceptReady`. -/
def accept (t : TcpTransport) (accepted : Accepted) : TcpTransport :=
  let peer := Accepted.peer accepted
  let t := (t.call (.opened accepted.fd)).setConn accepted.fd { fd_ := accepted.fd, peer_ := peer }
  ({ t with fd_by_peer_ := t.fd_by_peer_.insert peer accepted.fd }).watchRead accepted.fd

/-- At most ten connections; behind the last of them `accept4` fails. -/
def onAcceptReady (t : TcpTransport) (accepted : List Accepted) : TcpTransport :=
  (accepted.take 10).foldl accept t

def onConnectReady (t : TcpTransport) (o : ConnectedOutcome) : TcpTransport :=
  let t := t.unwatchConnect
  if o.rc < 0 then t.dropClient.replay_ (.ConnectRep .Fatal)
  else if o.error ≠ 0 then t.dropClient.replay_ (.ConnectRep .Fatal)
  else
    match o.hostPort with
    | none => t.dropClient.replay_ (.ConnectRep .Fatal)
    | some peer =>
        let t := t.setConn t.client_fd_ { fd_ := t.client_fd_, peer_ := peer }
        ({ t with
          fd_by_peer_ := t.fd_by_peer_.insert peer t.client_fd_
          connected_ := true }).replay_ (.ConnectRep .Ok)

def onReadReady (t : TcpTransport) (fd : Fd) : TcpTransport :=
  match t.conn fd with
  | some conn => ({ t with hot_read_peer_ := conn.peer_ }).replay_ .ReadReadyRep
  | none => t

def onWriteReady (t : TcpTransport) (fd : Fd) : TcpTransport :=
  match t.conn fd with
  | some conn => ({ t with hot_write_peer_ := conn.peer_ }).replay_ (.WriteReadyRep conn.peer_)
  | none => t

def clearHot (t : TcpTransport) (peer : Peer) : TcpTransport :=
  { t with
    hot_read_peer_ := if t.hot_read_peer_ = peer then "" else t.hot_read_peer_
    hot_write_peer_ := if t.hot_write_peer_ = peer then "" else t.hot_write_peer_ }

def releaseConnection (t : TcpTransport) (fd : Fd) : TcpTransport :=
  match t.conn fd with
  | some conn =>
      let t := t.closeConn fd
      ({ t with
        connection_by_fd_ := t.connection_by_fd_.erase fd
        fd_by_peer_ := t.fd_by_peer_.erase conn.peer_ }).clearHot conn.peer_
  | none => t

/-- `out_data`, resized to `kMinSize` before `recv` writes to its front. -/
def filled (bytes : Buffer) : Buffer := bytes ++ List.replicate (kMinSize - bytes.length) 0

/-- The connection that the fast path reads from. -/
def hotFd (t : TcpTransport) : Option Fd :=
  if t.hot_read_peer_ = "" then
    none
  else
    match t.fd_by_peer_.lookup t.hot_read_peer_ with
    | some fd => if (t.conn fd).isSome then some fd else none
    | none => none

def coolRead (t : TcpTransport) : TcpTransport := { t with hot_read_peer_ := "" }

def peerOf (t : TcpTransport) (fd : Fd) : Peer :=
  match t.conn fd with
  | some conn => conn.peer_
  | none => ""

/-- The fast path of `resumeRead`. -/
def readHot (t : TcpTransport) (fd : Fd) : RecvOutcome → ReadResult × TcpTransport
  | .received chunk =>
      let t := t.call (.recv fd)
      ({ n := chunk.bytes.length, status := .Ok, data := filled chunk.bytes, peer := t.peerOf fd },
        if chunk.bytes.length < kMinSize then t.coolRead else t)
  | .eof =>
      ({ n := 0, status := .Eof, data := filled [] },
        (t.call (.recv fd)).coolRead.releaseConnection fd)
  | .failed errno =>
      if wouldBlock errno then
        ({ n := 0, status := .WouldBlock, data := filled [] },
          ((t.call (.recv fd)).watchRead fd).coolRead)
      else
        ({ n := minusOne, status := .Fatal, data := filled [] },
          (t.call (.recv fd)).coolRead.releaseConnection fd)

/-- The fallback of `resumeRead`, which comes to the connections in some order. -/
def scan (recv : Fd → RecvOutcome) (t : TcpTransport) : List Fd → ReadResult × TcpTransport
  | [] => ({ n := 0, status := .WouldBlock, data := filled [] }, t)
  | fd :: rest =>
      let t := (t.watchRead fd).call (.recv fd)
      match recv fd with
      | .received chunk =>
          ({ n := chunk.bytes.length, status := .Ok, data := filled chunk.bytes,
             peer := t.peerOf fd }, t)
      | .eof => ({ n := 0, status := .Eof, data := filled [] }, t.releaseConnection fd)
      | .failed errno =>
          if wouldBlock errno then scan recv t rest
          else ({ n := minusOne, status := .Fatal, data := filled [] }, t.releaseConnection fd)

/-- `resumeRead` with its default `offset` and `max_len`. -/
def resumeRead (t : TcpTransport) (order : List Fd) (recv : Fd → RecvOutcome) :
    ReadResult × TcpTransport :=
  match t.hotFd with
  | some fd => t.readHot fd (recv fd)
  | none => scan recv t.coolRead order

/-- The connection that `resumeWrite` sends to, or its status. -/
def resolve (t : TcpTransport) (peer : Peer) : Except IOStatus Fd :=
  if peer ≠ "" then
    match t.fd_by_peer_.lookup peer with
    | some fd => if (t.conn fd).isSome then .ok fd else .error .Fatal
    | none => .error .Fatal
  else if t.connected_ = true ∧ (t.conn t.client_fd_).isSome then
    .ok t.client_fd_
  else
    match t.connection_by_fd_.keys with
    | [fd] => .ok fd
    | _ => .error .Error

/-- `resumeWrite` behind its lookups; it never moves from `data`. -/
def sendTo (t : TcpTransport) (fd : Fd) (data : Buffer) : SendOutcome → WriteResult × TcpTransport
  | .sent n =>
      let n := min n data.length
      let t := t.call (.send fd)
      if 0 < n then ({ n, status := .Ok }, t)
      else ({ n := 0, status := .Eof }, t.releaseConnection fd)
  | .failed errno =>
      let t := t.call (.send fd)
      if wouldBlock errno then ({ n := 0, status := .WouldBlock }, t.watchWrite fd)
      else ({ n := minusOne, status := .Fatal }, t.releaseConnection fd)

def resumeWrite (t : TcpTransport) (data : Buffer) (peer : Peer) (send : SendOutcome) :
    WriteResult × TcpTransport :=
  match t.resolve peer with
  | .ok fd => t.sendTo fd data send
  | .error status => ({ n := minusOne, status }, t)

def suspendRead (t : TcpTransport) : TcpTransport := t.connection_by_fd_.keys.foldl unwatchRead t

def suspendWrite (t : TcpTransport) (peer : Peer) : TcpTransport :=
  match t.fd_by_peer_.lookup peer with
  | some fd => t.unwatchWrite fd
  | none => t

/-- The descriptors that were opened and not closed since. -/
def openFds (calls : List FdCall) : List Fd :=
  calls.foldl (fun fds call => match call with
    | .opened fd => fd :: fds
    | .closed fd => fds.filter (fun other => other ≠ fd)
    | .watch _ _ | .unwatch _ _ | .recv _ | .send _ => fds) []

/-- A descriptor that the kernel may return: none that is open. -/
def Fresh (t : TcpTransport) (fd : Fd) : Prop := fd ∉ openFds t.calls

instance (t : TcpTransport) (fd : Fd) : Decidable (Fresh t fd) :=
  inferInstanceAs (Decidable (_ ∉ _))

/-- What happens to a transport on the loop thread. -/
inductive Op where
  | bind (o : BindOutcome)
  | connect (o : ConnectOutcome)
  | close
  | acceptReady (fd : Fd) (accepted : List Accepted)
  | connectReady (fd : Fd) (o : ConnectedOutcome)
  | readReady (fd : Fd)
  | writeReady (fd : Fd)
  | resumeRead (order : List Fd) (recv : Fd → RecvOutcome)
  | resumeWrite (data : Buffer) (peer : Peer) (send : SendOutcome)
  | suspendRead
  | suspendWrite (peer : Peer)
  | deliver (reply : Socket.Reply)

/-- A handler runs when the watcher has it for the descriptor; the descriptors that calls return
are not open, and `getsockopt` fails for a descriptor that is not. -/
def step (t : TcpTransport) : Op → Option TcpTransport
  | .bind o => if t.Fresh o.fd then some (t.bind o) else none
  | .connect o => if t.Fresh o.fd then some (t.connect o) else none
  | .close => some t.close
  | .acceptReady fd accepted =>
      if t.watched.lookup (fd, .RDONLY) = some .onAcceptReady ∧
          (accepted.map (·.fd)).Nodup ∧ ∀ a ∈ accepted, 0 ≤ a.fd ∧ t.Fresh a.fd then
        some (t.onAcceptReady accepted)
      else none
  | .connectReady fd o =>
      if t.watched.lookup (fd, .WRONLY) = some .onConnectReady ∧
          (t.Fresh t.client_fd_ → o.rc < 0) then
        some (t.onConnectReady o)
      else none
  | .readReady fd =>
      if t.watched.lookup (fd, .RDONLY) = some (.onReadReady fd) then some (t.onReadReady fd)
      else none
  | .writeReady fd =>
      if t.watched.lookup (fd, .WRONLY) = some (.onWriteReady fd) then some (t.onWriteReady fd)
      else none
  | .resumeRead order recv =>
      if order.Perm t.connection_by_fd_.keys then some (t.resumeRead order recv).2 else none
  | .resumeWrite data peer send => some (t.resumeWrite data peer send).2
  | .suspendRead => some t.suspendRead
  | .suspendWrite peer => some (t.suspendWrite peer)
  | .deliver reply =>
      if reply ∈ t.inflight then some { t with inflight := t.inflight.erase reply } else none

def Run (ops : List Op) (t : TcpTransport) : Prop := Transition.Exec (Transition.Of step) {} ops t

end TcpTransport

end Getrafty
