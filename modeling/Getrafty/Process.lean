import Getrafty.TcpDialer
import Getrafty.TcpListenerAccept
import Getrafty.Transport

set_option autoImplicit false

namespace Getrafty

namespace Transport

def writeCalls (fd : Nat) (bufs : List LiveBuf) : List (Call TransportCallback) :=
  (bufs.filter fun buf => decide (buf.toByteBuf.readableBytes ≠ 0)).map fun _ =>
    .watch fd .WRONLY .onWritable

def afterLoopCalls (fd : Nat) (stopped : Stopped) (replies : List LiveBuf) :
    List (Call TransportCallback) :=
  match stopped.errno with
  | some errno => if errno = EAGAIN ∨ errno = EWOULDBLOCK then [] else [.unwatch fd .WRONLY]
  | none => .unwatch fd .WRONLY :: writeCalls fd replies

/-- The calls on its watcher that an operation comes to. -/
def calls (t : Transport) : Op → List (Call TransportCallback)
  | .write buf => writeCalls t.fd [buf]
  | .flush => if 0 < t.wbuf.readableBytes then [.watch t.fd .WRONLY .onWritable] else []
  | .onWritable outcomes replies => afterLoopCalls t.fd (writeLoop outcomes 256 t.wbuf) replies
  | .readableStateChanged readable =>
      if readable then [.watch t.fd .RDONLY .onReadable] else [.unwatch t.fd .RDONLY]
  | .onReadable _ _ => []
  | .destroy => [.unwatch t.fd .RDONLY, .unwatch t.fd .WRONLY]

end Transport

/-- Who has a descriptor. -/
inductive Owner where
  | dialer (id : Nat)
  | listener (id : Nat)
  | transport (id : Nat)
  deriving DecidableEq

/-- The lambdas on the watcher, by the object that they capture. -/
inductive Handler where
  | dialer (id : Nat)
  | listener (id : Nat)
  | transport (id : Nat) (callback : TransportCallback)
  deriving DecidableEq

namespace Handler

def owner : Handler → Owner
  | .dialer id => .dialer id
  | .listener id => .listener id
  | .transport id _ => .transport id

def flag : Handler → WatchFlag
  | .dialer _ => .WRONLY
  | .listener _ => .RDONLY
  | .transport _ .onReadable => .RDONLY
  | .transport _ .onWritable => .WRONLY

end Handler

def Call.map {κ κ' : Type} (name : κ → κ') : Call κ → Call κ'
  | .watch fd flag callback => .watch fd flag (name callback)
  | .unwatch fd flag => .unwatch fd flag
  | .unwatchAll => .unwatchAll
  | .runInEventWatcherLoop task => .runInEventWatcherLoop (name task)

/-- A member function of an object that is gone, or `::close` of a descriptor that is not open. -/
inductive ProcessFault where
  | freed (owner : Owner)
  | badDescriptor (fd : Int)
  deriving DecidableEq

/-- The members of a listener that change. -/
structure ListenerMembers where
  listen_fd_ : Int := -1
  latch : Nat := 1
  deriving DecidableEq

/-- Where a call is made: inside `loop()`, where `self() == this`, or elsewhere. -/
inductive Place where
  | loop
  | elsewhere
  deriving DecidableEq

/-- What waits in the task queue: a `handleWatch` or `handleUnwatch`, or a closure of a listener. -/
inductive Closure where
  | watcher (task : Task Handler)
  | listener (id : Nat) (task : ListenerTask)
  deriving DecidableEq

/-- Where a new transport stands, and what its write buffer allocates from. -/
structure Made where
  id : Nat
  alloc : Allocator

/-- Dialers, listeners and transports on one watcher, with the descriptors that are open. `callers`
says where the thread is that called `listenAndWait()`, `tasks` is the queue and `room` which of
the `pushes` it has room for, and `stack` what the member functions of listeners still have to do
on the loop thread. -/
structure Process where
  ew : EventWatcher Handler
  fds : List Nat
  dialers : Nat → Option TcpDialer := fun _ => none
  listeners : Nat → Option ListenerMembers := fun _ => none
  transports : Nat → Option Transport.State := fun _ => none
  callers : Nat → Listening := fun _ => .notCalled
  tasks : List Closure := []
  room : Nat → Bool
  pushes : Nat := 0
  stack : List (Nat × Frame) := []
  fault : Option ProcessFault := none

/-- The descriptor that `makeSockTcp` returns to `dial`. -/
def DialOutcome.fd : DialOutcome → Option Nat
  | .unparsable | .noSocket _ => none
  | .blocking fd _ | .connected fd _ | .inProgress fd | .refused fd _ => some fd

namespace Process

def init (eventfd : Nat) (room : Nat → Bool) : Process where
  ew := .create eventfd
  fds := [eventfd]
  room

def raise (p : Process) (fault : ProcessFault) : Process := { p with fault := some fault }

/-- `task_q_.push`; a closure that the queue has no room for is dropped. -/
def push (p : Process) (closure : Closure) : Process :=
  { p with
    tasks := if p.room p.pushes then p.tasks ++ [closure] else p.tasks
    pushes := p.pushes + 1 }

/-- A call on the watcher: inline inside `loop()`, elsewhere through the queue. -/
def call (place : Place) (p : Process) (call : Call Handler) : Process :=
  match place, call.task with
  | .loop, _ => { p with ew := call.inline p.ew }
  | .elsewhere, none => p
  | .elsewhere, some task => p.push (.watcher task)

def opened (p : Process) (fd : Nat) : Process := { p with fds := fd :: p.fds }

/-- `::close`, which also ends the kernel's interest. A negative number is refused. -/
def close (p : Process) (fd : Int) : Process :=
  if fd < 0 then p
  else if fd.toNat ∈ p.fds then
    { p with
      ew := { p.ew with interest := Function.update p.ew.interest fd.toNat none }
      fds := p.fds.erase fd.toNat }
  else p.raise (.badDescriptor fd)

def setDialer (p : Process) (id : Nat) (d : Option TcpDialer) : Process :=
  { p with dialers := Function.update p.dialers id d }

def setListener (p : Process) (id : Nat) (l : Option ListenerMembers) : Process :=
  { p with listeners := Function.update p.listeners id l }

def setTransport (p : Process) (id : Nat) (t : Option Transport.State) : Process :=
  { p with transports := Function.update p.transports id t }

/-- `std::make_unique<TcpTransport>(fd, &ew_)`, handed to a callback of the user. -/
def makeTransport (p : Process) (fd : Nat) (made : Made) : Process :=
  p.setTransport made.id (some (Transport.start p.ew.eventfd fd made.alloc))

/-- A descriptor that the kernel may return, and storage for a transport over it. -/
def Fresh (p : Process) (fd : Nat) (made : Made) : Prop :=
  fd ∉ p.fds ∧ p.transports made.id = none

instance (p : Process) (fd : Nat) (made : Made) : Decidable (p.Fresh fd made) :=
  inferInstanceAs (Decidable (_ ∧ _))

def act (place : Place) (made : Made) (p : Process) : DialerAction Handler → Process
  | .call call => p.call place call
  | .close fd => p.close fd
  | .failure _ => p
  | .connected fd => p.makeTransport fd.toNat made

/-- What a member function leaves of a dialer, and what it does. -/
def dialed (p : Process) (place : Place) (id : Nat) (made : Made)
    (done : TcpDialer × List (DialerAction Handler)) : Process :=
  done.2.foldl (act place made) (p.setDialer id (some done.1))

def dial (p : Process) (place : Place) (id : Nat) (outcome : DialOutcome) (made : Made) :
    Option Process :=
  match p.dialers id, outcome.fd with
  | none, _ => none
  | some d, none => some (p.dialed place id made (d.dial (.dialer id) outcome))
  | some d, some fd =>
      if p.Fresh fd made then
        some ((p.opened fd).dialed place id made (d.dial (.dialer id) outcome))
      else
        none

def destroyDialer (p : Process) (place : Place) (id : Nat) : Option Process :=
  (p.dialers id).map fun d =>
    d.destroy.foldl (act place ⟨0, { grants := fun _ => false }⟩) (p.setDialer id none)

/-- `listenAndWait()` is called, on a thread of its own. -/
def listen (p : Process) (id : Nat) : Option Process :=
  match p.listeners id, p.callers id with
  | some _, .notCalled => some { p with callers := Function.update p.callers id .parseAddress }
  | _, _ => none

/-- What the next system call of `listenAndWait()` does to the descriptors. One that was closed
meanwhile serves for none of them. -/
def setupFds (p : Process) (l : ListenerMembers) (stage : Listening) (outcome : SetupOutcome) :
    Option Process :=
  match stage, outcome with
  | .parseAddress, _ => some p
  | .makeSockTcp, .failed _ => some p
  | .makeSockTcp, .ok fd _ => if fd ∉ p.fds then some (p.opened fd) else none
  | _, .failed _ => some (p.close l.listen_fd_)
  | _, .ok _ _ => if 0 ≤ l.listen_fd_ then some p else none

/-- The listener as far as its own thread sees it. -/
def lone (p : Process) (id : Nat) (l : ListenerMembers) : TcpListener :=
  { TcpListener.init p.ew.eventfd with listen_fd_ := l.listen_fd_, listening := p.callers id }

/-- `listenAndWait()` makes its next system call. -/
def setup (p : Process) (id : Nat) (outcome : SetupOutcome) : Option Process :=
  match p.listeners id with
  | none => ((p.lone id {}).setup outcome).map fun _ => p.raise (.freed (.listener id))
  | some l =>
      ((p.lone id l).setup outcome).bind fun after =>
        (p.setupFds l (p.callers id) outcome).map fun p =>
          { p.setListener id (some { l with listen_fd_ := after.listen_fd_ }) with
            callers := Function.update p.callers id after.listening }

/-- `listenAndWait()` goes on to its next `runInEventWatcherLoop`. -/
def post (p : Process) (id : Nat) : Option Process :=
  match TcpListener.posting (p.callers id) with
  | none => none
  | some (task, next) =>
      if p.listeners id = none then
        some (p.raise (.freed (.listener id)))
      else
        some { p.push (.listener id task) with callers := Function.update p.callers id next }

/-- `shutdown_latch_.wait()` is over. -/
def released (p : Process) (id : Nat) : Option Process :=
  if p.callers id = .waiting then
    match p.listeners id with
    | none => some (p.raise (.freed (.listener id)))
    | some l =>
        if l.latch = 0 then
          some { p with callers := Function.update p.callers id .returned }
        else
          none
  else
    none

/-- `if (listen_fd_ >= 0)` in the closure of `shutdown()`. -/
def closeListener (p : Process) (id : Nat) (l : ListenerMembers) : Process :=
  if 0 ≤ l.listen_fd_ then
    ((p.call .loop (.unwatch l.listen_fd_ .RDONLY)).close l.listen_fd_).setListener id
      (some { l with listen_fd_ := -1 })
  else
    p

/-- A closure of a listener up to its last callback. -/
def runTask (p : Process) (id : Nat) (task : ListenerTask) : Process :=
  match p.listeners id with
  | none => p.raise (.freed (.listener id))
  | some l =>
      match task with
      | .failed _ => { p with stack := (id, .countDown) :: p.stack }
      | .started _ => p
      | .watch => p.call .loop (.watch l.listen_fd_ .RDONLY (.listener id))
      | .shutdown =>
          let p := p.closeListener id l
          { p with stack := (id, .countDown) :: p.stack }

def shutdown (p : Process) (place : Place) (id : Nat) : Option Process :=
  (p.listeners id).map fun _ =>
    match place with
    | .loop => p.runTask id .shutdown
    | .elsewhere => p.push (.listener id .shutdown)

/-- The loop takes the next closure. -/
def task (p : Process) : Option Process :=
  match p.tasks with
  | [] => none
  | .watcher task :: tasks => some { p with ew := task.perform p.ew, tasks }
  | .listener id task :: tasks => some (runTask { p with tasks } id task)

/-- What `onReadable` of a listener does behind `sockAccept`. -/
def accepted (made : Made) (p : Process) : TcpListener.AcceptEffect → Process
  | .accepted (some fd) => p.makeTransport fd made
  | .accepted none | .error _ | .failure _ => p
  | .closed fd => p.close fd

/-- One turn of the loop in `onReadable` of a listener; `sockAccept` needs a descriptor. -/
def accept (p : Process) (outcome : AcceptOutcome) (made : Made) : Option Process :=
  match p.stack with
  | (id, .accept (left + 1)) :: stack =>
      match p.listeners id with
      | none => some (p.raise (.freed (.listener id)))
      | some l =>
          let turn := TcpListener.acceptTurn outcome
          let next := { p with stack := if turn.2 then (id, .accept left) :: stack else stack }
          match outcome with
          | .failed _ => some (turn.1.foldl (accepted made) next)
          | .accepted fd _ =>
              if 0 ≤ l.listen_fd_ ∧ p.Fresh fd made then
                some (turn.1.foldl (accepted made) (next.opened fd))
              else
                none
  | _ => none

/-- The innermost member function of a listener goes on. -/
def resume (p : Process) : Option Process :=
  match p.stack with
  | (_, .accept 0) :: stack => some { p with stack }
  | (id, .countDown) :: stack =>
      match p.listeners id with
      | none => some (p.raise (.freed (.listener id)))
      | some l => some { p.setListener id (some { l with latch := l.latch - 1 }) with stack }
  | _ => none

/-- `~TcpListener()`. -/
def destroyListener (p : Process) (id : Nat) : Option Process :=
  (p.listeners id).map fun l =>
    let p := p.setListener id none
    if 0 ≤ l.listen_fd_ then p.close l.listen_fd_ else p

/-- A member function of a transport, with the calls on the watcher that it comes to. -/
def perform (p : Process) (place : Place) (id : Nat) (op : Transport.Op) : Option Process :=
  (p.transports id).bind fun t =>
    (Transport.step t op).map fun after =>
      let p := ((t.transport.calls op).map (Call.map (Handler.transport id))).foldl (call place) p
      match op with
      | .destroy => (p.setTransport id none).close t.transport.fd
      | _ => p.setTransport id (some after)

/-- The pipeline is handed bytes, and then fired at again. -/
def FiresOn (t : Transport) : Transport.Op → Prop
  | .onReadable received _ => 0 < (Transport.readLoop received {} t.alloc).1.readableBytes
  | _ => False

instance (t : Transport) : DecidablePred (FiresOn t) :=
  fun op => match op with
    | .onReadable _ _ => inferInstanceAs (Decidable (0 < _))
    | .write _ | .flush | .onWritable _ _ | .readableStateChanged _ | .destroy =>
        isFalse not_false

/-- What a handler finds when it asks the kernel, and whether the user destroys the transport in
the midst of it. Behind the last thing that a handler does, `destroy` is a call of its own. -/
inductive Happening where
  | dialer (error : Int) (made : Made)
  | listener
  | transport (op : Transport.Op) (destroyed : Bool)

/-- A handler of a transport; it goes on with one that is destroyed in the midst of it. -/
def invoke (p : Process) (id : Nat) (op : Transport.Op) (destroyed : Bool) : Option Process :=
  match p.transports id with
  | none => some (p.raise (.freed (.transport id)))
  | some t =>
      if destroyed then
        if FiresOn t.transport op then some (p.raise (.freed (.transport id))) else none
      else
        p.perform .loop id op

/-- The watcher invokes a handler. -/
def handle (p : Process) : Handler → Happening → Option Process
  | .dialer id, .dialer error made =>
      match p.dialers id with
      | none => some (p.raise (.freed (.dialer id)))
      | some d =>
          if p.transports made.id = none then
            some (p.dialed .loop id made (d.onWritable error))
          else
            none
  | .listener id, .listener =>
      match p.listeners id with
      | none => some (p.raise (.freed (.listener id)))
      | some _ => some { p with stack := (id, .accept 256) :: p.stack }
  | .transport id .onReadable, .transport (.onReadable received last) destroyed =>
      p.invoke id (.onReadable received last) destroyed
  | .transport id .onWritable, .transport (.onWritable outcomes replies) destroyed =>
      p.invoke id (.onWritable outcomes replies) destroyed
  | _, _ => none

/-- What a user may call on a transport; the others are handlers. -/
def usable : Transport.Op → Bool
  | .write _ | .flush | .readableStateChanged _ | .destroy => true
  | .onWritable _ _ | .onReadable _ _ => false

/-- What happens next: something that a user does, in a callback or elsewhere, a thread in
`listenAndWait()`, or the loop thread. An event may be for a descriptor that was closed and
opened again since `epoll_wait` returned it. -/
inductive Label where
  | newDialer (id : Nat)
  | dial (place : Place) (id : Nat) (outcome : DialOutcome) (made : Made)
  | destroyDialer (place : Place) (id : Nat)
  | newListener (id : Nat)
  | listen (id : Nat)
  | setup (id : Nat) (outcome : SetupOutcome)
  | post (id : Nat)
  | released (id : Nat)
  | shutdown (place : Place) (id : Nat)
  | destroyListener (id : Nat)
  | use (place : Place) (id : Nat) (op : Transport.Op)
  | task
  | ready (fd : Nat) (flag : WatchFlag) (happening : Happening)
  | accept (outcome : AcceptOutcome) (made : Made)
  | resume

def step (p : Process) (label : Label) : Option Process :=
  if p.fault.isSome then
    none
  else
    match label with
    | .newDialer id => if p.dialers id = none then some (p.setDialer id (some {})) else none
    | .dial place id outcome made => p.dial place id outcome made
    | .destroyDialer place id => p.destroyDialer place id
    | .newListener id =>
        if p.listeners id = none then
          some { p.setListener id (some {}) with
            callers := Function.update p.callers id .notCalled }
        else
          none
    | .listen id => p.listen id
    | .setup id outcome => p.setup id outcome
    | .post id => p.post id
    | .released id => p.released id
    | .shutdown place id => p.shutdown place id
    | .destroyListener id => p.destroyListener id
    | .use place id op => if usable op then p.perform place id op else none
    | .task => p.task
    | .ready fd flag happening =>
        match (p.ew.fdMap.entry fd).cb flag with
        | some (.user handler) => p.handle handler happening
        | _ => none
    | .accept outcome made => p.accept outcome made
    | .resume => p.resume

def Run (eventfd : Nat) (room : Nat → Bool) (labels : List Label) (p : Process) : Prop :=
  Transition.Exec (Transition.Of step) (init eventfd room) labels p

end Process

end Getrafty
