import Getrafty.Errno
import Getrafty.EventLoop

set_option autoImplicit false

namespace Getrafty

/-- The lambda that captures the listener. -/
inductive ListenerCallback where
  | onReadable
  deriving DecidableEq

/-- What the owner of a listener sees, and the countdown of `shutdown_latch_`. `onAccepted`
gets a null transport when the client could not be made non-blocking. -/
inductive ListenerEvent where
  | started (address : String)
  | accepted (transport : Option Nat)
  | error (err : Int)
  | failure (err : Int)
  | shutdown
  | countDown
  deriving DecidableEq

/-- What the listener passes to `runInEventWatcherLoop`. -/
inductive ListenerTask where
  | failed (err : Int)
  | started (address : String)
  | watch
  | shutdown
  deriving DecidableEq

/-- What is left to do on the loop thread, innermost first: a callback of the owner that is
running, a `listenAndWait()` called from one, the rest of the `for` loop in `onReadable`, and
the rest of a closure behind `on_failure_` or `on_shutdown_`. -/
inductive Frame where
  | user
  | listening
  | accept (left : Nat)
  | onShutdown
  | countDown
  deriving DecidableEq

/-- How far `listenAndWait()` is. -/
inductive Listening where
  | notCalled
  | parseAddress
  | makeSockTcp
  | setSockOptNonBlocking
  | sockBind
  | sockListen
  | getSockOptHostPort
  | postFailed (err : Int)
  | postStarted (address : String)
  | postWatch
  | waiting
  | returned
  deriving DecidableEq

/-- How a system call of `listenAndWait()` turns out; `makeSockTcp` makes `fd`,
`getSockOptHostPort` finds `address`. -/
inductive SetupOutcome where
  | ok (fd : Nat) (address : String)
  | failed (err : Int)
  deriving DecidableEq

inductive AcceptOutcome where
  | accepted (fd : Nat) (nonBlocking : Bool)
  | failed (err : Int)
  deriving DecidableEq

/-- A listener, the loop thread as far as it works for it, and its tasks in the queue.
`onLoop` says whether `listenAndWait()` was called on the loop thread. -/
structure TcpListener where
  ew : EventWatcher ListenerCallback
  listen_fd_ : Int := -1
  latch : Nat := 1
  listening : Listening := .notCalled
  onLoop : Bool := false
  queue : List ListenerTask := []
  stack : List Frame := []
  log : List ListenerEvent := []

namespace TcpListener

/-- Invokes a callback of the owner and then goes on with `frames`. -/
def fire (s : TcpListener) (event : ListenerEvent) (frames : List Frame) : TcpListener :=
  { s with log := s.log ++ [event], stack := .user :: frames }

def watch (s : TcpListener) : TcpListener :=
  { s with ew := (Call.watch s.listen_fd_ .RDONLY .onReadable).inline s.ew }

/-- `if (listen_fd_ >= 0)` in the closure of `shutdown()`. -/
def close (s : TcpListener) : TcpListener :=
  if 0 ≤ s.listen_fd_ then
    { s with
      ew := (Call.unwatch s.listen_fd_ .RDONLY).inline s.ew
      listen_fd_ := -1 }
  else
    s

/-- A closure up to the first callback it invokes. -/
def runTask (s : TcpListener) : ListenerTask → TcpListener
  | .failed err => s.fire (.failure err) (.onShutdown :: .countDown :: s.stack)
  | .started address => s.fire (.started address) s.stack
  | .watch => s.watch
  | .shutdown => s.close.fire .shutdown (.countDown :: s.stack)

/-- The system calls of `listenAndWait()`, one after the other. -/
def setup (s : TcpListener) (outcome : SetupOutcome) : Option TcpListener :=
  match s.listening, outcome with
  | .parseAddress, .failed _ => some { s with listening := .postFailed EINVAL }
  | .parseAddress, .ok _ _ => some { s with listening := .makeSockTcp }
  | .makeSockTcp, .failed err => some { s with listen_fd_ := -1, listening := .postFailed err }
  | .makeSockTcp, .ok fd _ => some { s with listen_fd_ := fd, listening := .setSockOptNonBlocking }
  | .setSockOptNonBlocking, .failed err
  | .sockBind, .failed err
  | .sockListen, .failed err
  | .getSockOptHostPort, .failed err =>
      some { s with listen_fd_ := -1, listening := .postFailed err }
  | .setSockOptNonBlocking, .ok _ _ => some { s with listening := .sockBind }
  | .sockBind, .ok _ _ => some { s with listening := .sockListen }
  | .sockListen, .ok _ _ => some { s with listening := .getSockOptHostPort }
  | .getSockOptHostPort, .ok _ address => some { s with listening := .postStarted address }
  | _, _ => none

/-- The task that `listenAndWait()` is about to post, and where it is afterwards. -/
def posting : Listening → Option (ListenerTask × Listening)
  | .postFailed err => some (.failed err, .waiting)
  | .postStarted address => some (.started address, .postWatch)
  | .postWatch => some (.watch, .waiting)
  | _ => none

/-- `listenAndWait()` goes on: its thread is its own, or what it called inline is over. -/
def listens (s : TcpListener) : Bool :=
  !s.onLoop || s.stack.head? = some .listening

/-- `runInEventWatcherLoop` from `listenAndWait()`: inline on the loop thread, otherwise
`queued` unless the queue is full. -/
def post (s : TcpListener) (queued : Bool) : Option TcpListener :=
  match posting s.listening with
  | none => none
  | some (task, next) =>
      let s := { s with listening := next }
      if s.onLoop then some (s.runTask task)
      else if queued then some { s with queue := s.queue ++ [task] }
      else some s

/-- One turn of `for (auto i = 0; i < 256; ++i)`, with `left` more behind it. -/
def accept (s : TcpListener) (left : Nat) (frames : List Frame) : AcceptOutcome → TcpListener
  | .failed err =>
      if err = EINTR then
        { s with stack := .accept left :: frames }
      else if err = EMFILE ∨ err = ENFILE ∨ err = ENOMEM ∨ err = EAGAIN ∨ err = EWOULDBLOCK then
        s.fire (.error err) frames
      else
        s.fire (.failure err) frames
  | .accepted fd nonBlocking =>
      s.fire (.accepted (if nonBlocking then some fd else none)) (.accept left :: frames)

/-- What can happen next to a listener. -/
inductive Label where
  -- `listenAndWait()`
  | listen (onLoop : Bool)
  | setup (outcome : SetupOutcome)
  | post (queued : Bool)
  | released
  -- `shutdown()` from a thread other than that of the loop, and from a callback
  | shutdown (queued : Bool)
  | shutdownInline
  -- the loop thread: code of others, the next task, readiness, and the next frame
  | other
  | task
  | readable (fd : Nat)
  | accept (outcome : AcceptOutcome)
  | resume
  deriving DecidableEq

def step (s : TcpListener) : Label → Option TcpListener
  | .listen onLoop =>
      if s.listening = .notCalled then
        if onLoop then
          match s.stack with
          | .user :: frames =>
              some { s with
                listening := .parseAddress
                onLoop := true
                stack := .listening :: .user :: frames }
          | _ => none
        else
          some { s with listening := .parseAddress }
      else
        none
  | .setup outcome => if s.listens then s.setup outcome else none
  | .post queued => if s.listens then s.post queued else none
  | .released =>
      if s.listens ∧ s.listening = .waiting ∧ s.latch = 0 then
        some { s with
          listening := .returned
          stack := if s.onLoop then s.stack.tail else s.stack }
      else
        none
  | .shutdown queued =>
      if queued then some { s with queue := s.queue ++ [.shutdown] } else some s
  | .shutdownInline =>
      match s.stack with
      | .user :: _ => some (s.runTask .shutdown)
      | _ => none
  | .other =>
      match s.stack with
      | [] => some { s with stack := [.user] }
      | _ => none
  | .task =>
      match s.stack, s.queue with
      | [], task :: queue => some (runTask { s with queue } task)
      | _, _ => none
  | .readable fd =>
      match s.stack with
      | [] =>
          if (s.ew.fdMap.entry fd).cb .RDONLY = some (.user .onReadable) then
            some { s with stack := [.accept 256] }
          else
            none
      | _ => none
  | .accept outcome =>
      match s.stack with
      | .accept (left + 1) :: frames => some (s.accept left frames outcome)
      | _ => none
  | .resume =>
      match s.stack with
      | .user :: frames => some { s with stack := frames }
      | .accept 0 :: frames => some { s with stack := frames }
      | .onShutdown :: frames => some (s.fire .shutdown frames)
      | .countDown :: frames =>
          some { s with log := s.log ++ [.countDown], latch := s.latch - 1, stack := frames }
      | _ => none

def init (eventfd : Nat) : TcpListener where
  ew := .create eventfd

def Run (eventfd : Nat) (labels : List Label) (s : TcpListener) : Prop :=
  Transition.Exec (Transition.Of step) (init eventfd) labels s

end TcpListener

end Getrafty
