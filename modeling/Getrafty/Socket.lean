import Mathlib
import Getrafty.Lib.Transition

set_option autoImplicit false

namespace Getrafty

inductive IOStatus where
  | Ok
  | WouldBlock
  | Fatal
  | Error
  | Eof
  deriving DecidableEq, Repr

abbrev Peer := String

abbrev Address := String

abbrev Buffer := List UInt8

/-- A callback by the number of its request; `none` once it was moved from. -/
abbrev Callback := Option Nat

structure WriteReq where
  data : Buffer
  peer : Peer
  callback : Callback
  deriving DecidableEq

inductive IOEvent where
  | BindReq (callback : Callback)
  | BindRep (status : IOStatus) (endpoint : Address)
  | ConnectReq (callback : Callback)
  | ConnectRep (status : IOStatus)
  | ReadReq (callback : Callback)
  | ReadReadyRep
  | WriteReq (req : WriteReq)
  | WriteReadyRep (peer : Peer)
  | CloseReq (callback : Callback)
  deriving DecidableEq

/-- A callback that was invoked, by the number of its request and with its arguments. -/
inductive Completion where
  | bind (id : Nat) (status : IOStatus) (endpoint : Address)
  | connect (id : Nat) (status : IOStatus)
  | read (id : Nat) (status : IOStatus) (data : Buffer) (peer : Peer)
  | write (id : Nat) (status : IOStatus)
  | close (id : Nat)
  deriving DecidableEq

inductive SocketState where
  | Idle
  | BindWait
  | Bound
  | ConnectWait
  | Connected
  | CloseWait
  | Closed
  deriving DecidableEq, Repr

/-- `state_ & (Closed | CloseWait)`. -/
def SocketState.shut : SocketState → Bool
  | .Closed | .CloseWait => true
  | _ => false

/-- The calls during which a transport may reply inline. -/
inductive TransportCall where
  | bind
  | connect
  | close
  deriving DecidableEq

/-- How far `tick(CloseReq)` is behind `transport_->close()`; `writes` holds the peers that the
loop over `write_queue_` has not come to. -/
inductive CloseStage where
  | bind
  | connect
  | reads
  | writes (left : List Peer)
  | done
  deriving DecidableEq

/-- What is left to do, innermost first: a callback that is running, a call on the transport
that is running, the head of the loop in `transportRead`, `transportWrite(peer)`, and the rest
of `tick(CloseReq)`. -/
inductive SocketFrame where
  | user
  | transport (call : TransportCall)
  | reads
  | write (peer : Peer)
  | closing (stage : CloseStage) (callback : Callback)
  deriving DecidableEq

/-- Behaviour that is undefined, or a failed assertion. -/
inductive Fault where
  | assertion
  | pushedFull
  | emptyCallback
  deriving DecidableEq

/-- What `resumeRead` returns, as a `size_t`, and writes through its references. -/
structure ReadResult where
  n : Nat
  status : IOStatus
  data : Buffer := []
  peer : Peer := ""
  deriving DecidableEq

/-- What `resumeWrite` returns; `taken` says that it moved the data out of its argument. -/
structure WriteResult where
  n : Nat
  status : IOStatus
  taken : Bool := false
  deriving DecidableEq

/-- A socket on its loop thread. `asked…` count the requests of each kind so far. -/
structure Socket where
  state_ : SocketState := .Idle
  bind_queue_ : List Callback := []
  connect_queue_ : List Callback := []
  read_queue_ : List Callback := []
  write_queue_ : AList (fun _ : Peer => WriteReq) := ∅
  stack : List SocketFrame := []
  fault : Option Fault := none
  askedBinds : Nat := 0
  askedConnects : Nat := 0
  askedReads : Nat := 0
  askedWrites : Nat := 0
  askedCloses : Nat := 0
  log : List Completion := []

/-- Capacity of `read_queue_`. -/
def kReadQueue : Nat := 1024

namespace Socket

def raise (s : Socket) (fault : Fault) : Socket := { s with fault := some fault }

/-- Invokes a callback and goes on with `frames`; there must be one to invoke. -/
def fire (s : Socket) (callback : Callback) (done : Nat → Completion) (frames : List SocketFrame) :
    Socket :=
  match callback with
  | some id => { s with log := s.log ++ [done id], stack := .user :: frames }
  | none => s.raise .emptyCallback

/-- `tick`, up to the first callback or the first call on the transport. -/
def tick (s : Socket) : IOEvent → Socket
  | .BindReq callback =>
      if s.state_ ≠ .Idle then
        s.fire callback (.bind · .Fatal "") s.stack
      else if s.bind_queue_.length < 1 then
        { s with
          state_ := .BindWait
          bind_queue_ := s.bind_queue_ ++ [callback]
          stack := .transport .bind :: s.stack }
      else
        s.raise .pushedFull
  | .BindRep status endpoint =>
      if s.state_ ≠ .BindWait then
        s
      else
        match s.bind_queue_ with
        | [] => s.raise .assertion
        | req :: queue =>
            if status = .Ok then
              fire { s with bind_queue_ := queue, state_ := .Bound } req (.bind · status endpoint)
                s.stack
            else
              fire { s with bind_queue_ := queue, state_ := .Closed } req
                (.bind · status "") s.stack
  | .ConnectReq callback =>
      if s.state_ ≠ .Idle then
        s.fire callback (.connect · .Fatal) s.stack
      else if s.connect_queue_.length < 1 then
        { s with
          state_ := .ConnectWait
          connect_queue_ := s.connect_queue_ ++ [callback]
          stack := .transport .connect :: s.stack }
      else
        s.raise .pushedFull
  | .ConnectRep status =>
      if s.state_ ≠ .ConnectWait then
        s
      else
        match s.connect_queue_ with
        | [] => s.raise .assertion
        | req :: queue =>
            let state_ := if status = .Ok then .Connected else .Closed
            fire { s with connect_queue_ := queue, state_ } req (.connect · status) s.stack
  | .ReadReq callback =>
      if s.state_.shut then
        s.fire callback (.read · .Error [] "") s.stack
      else if kReadQueue ≤ s.read_queue_.length then
        s.fire callback (.read · .WouldBlock [] "") s.stack
      else
        { s with read_queue_ := s.read_queue_ ++ [callback], stack := .reads :: s.stack }
  | .ReadReadyRep => { s with stack := .reads :: s.stack }
  | .WriteReq req =>
      if s.state_.shut then
        s.fire req.callback (.write · .Error) s.stack
      else if s.state_ = .Bound ∧ req.peer = "" then
        s.fire req.callback (.write · .Error) s.stack
      else if req.data = [] then
        s.fire req.callback (.write · .Fatal) s.stack
      else
        match s.write_queue_.lookup req.peer with
        -- `emplace` has moved the request into its node, callback and all
        | some _ => s.fire none (.write · .WouldBlock) s.stack
        | none =>
            { s with
              write_queue_ := s.write_queue_.insert req.peer req
              stack := .write req.peer :: s.stack }
  | .WriteReadyRep peer => { s with stack := .write peer :: s.stack }
  | .CloseReq callback =>
      if s.state_.shut then
        if callback.isSome then s.fire callback .close s.stack else s
      else
        { s with
          state_ := .CloseWait
          stack := .transport .close :: .closing .bind callback :: s.stack }

/-- The loop of `transportRead` behind `resumeRead`; `n <= 0` is `n == 0` for a `size_t`. -/
def readTurn (s : Socket) (req : Callback) (queue : List Callback) (frames : List SocketFrame)
    (result : ReadResult) : Socket :=
  if result.n = 0 then
    if result.status = .WouldBlock then
      { s with stack := frames }
    else if result.status = .Eof ∧ s.state_ = .Connected then
      tick { s with read_queue_ := queue, stack := frames } (.CloseReq none)
    else
      fire { s with read_queue_ := queue } req (.read · result.status [] result.peer)
        (.reads :: frames)
  else
    fire { s with read_queue_ := queue } req (.read · .Ok result.data result.peer)
      (.reads :: frames)

/-- The key that `transportWrite(peer)` looks up. -/
def writeKey (s : Socket) (peer : Peer) : Peer := if s.state_ = .Connected then "" else peer

/-- `transportWrite` behind `resumeWrite`; `n < 0` is never true of a `size_t`. -/
def writeTurn (s : Socket) (key : Peer) (req : WriteReq) (frames : List SocketFrame)
    (result : WriteResult) : Socket :=
  if result.status = .WouldBlock then
    let queue :=
      if result.taken then s.write_queue_.replace key { req with data := [] } else s.write_queue_
    { s with write_queue_ := queue, stack := frames }
  else
    let s := { s with write_queue_ := s.write_queue_.erase key, stack := frames }
    if req.callback.isSome then s.fire req.callback (.write · result.status) frames else s

/-- The next part of `tick(CloseReq)`, but for the loop over `write_queue_`. -/
def closeTurn (s : Socket) (callback : Callback) (frames : List SocketFrame) :
    CloseStage → Option Socket
  | .bind =>
      match s.bind_queue_ with
      | [] => some { s with stack := .closing .connect callback :: frames }
      -- the request stays in its slot, moved from
      | req :: queue => some (fire { s with bind_queue_ := none :: queue } req (.bind · .Error "")
          (.closing .connect callback :: frames))
  | .connect =>
      match s.connect_queue_ with
      | [] => some { s with stack := .closing .reads callback :: frames }
      | req :: queue => some (fire { s with connect_queue_ := none :: queue } req
          (.connect · .Error) (.closing .reads callback :: frames))
  | .reads =>
      match s.read_queue_ with
      | [] => some { s with stack := .closing (.writes s.write_queue_.keys) callback :: frames }
      | req :: queue =>
          let s := { s with read_queue_ := queue, stack := .closing .reads callback :: frames }
          some (if req.isSome then s.fire req (.read · .Error [] "") s.stack else s)
  | .writes [] => some { s with stack := .closing .done callback :: frames }
  | .writes _ => none
  | .done => some (fire { s with state_ := .Closed } callback .close frames)

/-- The loop over `write_queue_` comes to a peer, in whatever order. -/
def failWrite (s : Socket) (peer : Peer) (left : List Peer) (callback : Callback)
    (frames : List SocketFrame) : Socket :=
  let s := { s with stack := .closing (.writes (left.erase peer)) callback :: frames }
  match s.write_queue_.lookup peer with
  | some req => if req.callback.isSome then s.fire req.callback (.write · .Error) s.stack else s
  | none => s

/-- What a user asks for. -/
inductive Request where
  | bind
  | connect
  | read
  | write (data : Buffer) (peer : Peer)
  | close
  deriving DecidableEq

/-- What a transport replays. -/
inductive Reply where
  | BindRep (status : IOStatus) (endpoint : Address)
  | ConnectRep (status : IOStatus)
  | ReadReadyRep
  | WriteReadyRep (peer : Peer)
  deriving DecidableEq

def Reply.event : Reply → IOEvent
  | .BindRep status endpoint => .BindRep status endpoint
  | .ConnectRep status => .ConnectRep status
  | .ReadReadyRep => .ReadReadyRep
  | .WriteReadyRep peer => .WriteReadyRep peer

/-- The request gets the next number of its kind. -/
def ask (s : Socket) : Request → Socket
  | .bind => tick { s with askedBinds := s.askedBinds + 1 } (.BindReq (some s.askedBinds))
  | .connect =>
      tick { s with askedConnects := s.askedConnects + 1 } (.ConnectReq (some s.askedConnects))
  | .read => tick { s with askedReads := s.askedReads + 1 } (.ReadReq (some s.askedReads))
  | .write data peer =>
      tick { s with askedWrites := s.askedWrites + 1 }
        (.WriteReq { data, peer, callback := some s.askedWrites })
  | .close => tick { s with askedCloses := s.askedCloses + 1 } (.CloseReq (some s.askedCloses))

/-- What can happen next: a request between ticks or from a callback, a reply between ticks or
inline, what a call on the transport returns, and the loop over the writes. -/
inductive Label where
  | request (request : Request)
  | reply (reply : Reply)
  | resumeRead (result : ReadResult)
  | resumeWrite (result : WriteResult)
  | failWrite (peer : Peer)
  | resume
  deriving DecidableEq

/-- User code may run: no tick is in progress, or a callback. -/
def mayAsk (s : Socket) : Bool :=
  match s.stack with
  | [] | .user :: _ => true
  | _ => false

def mayReply (s : Socket) : Bool :=
  match s.stack with
  | [] | .transport _ :: _ => true
  | _ => false

def step (s : Socket) (label : Label) : Option Socket :=
  if s.fault.isSome then
    none
  else
    match label with
    | .request request => if s.mayAsk then some (s.ask request) else none
    | .reply reply => if s.mayReply then some (s.tick reply.event) else none
    | .resumeRead result =>
        match s.stack, s.read_queue_ with
        | .reads :: frames, req :: queue => some (s.readTurn req queue frames result)
        | _, _ => none
    | .resumeWrite result =>
        match s.stack with
        | .write peer :: frames =>
            match s.write_queue_.lookup (s.writeKey peer) with
            | some req => some (s.writeTurn (s.writeKey peer) req frames result)
            | none => none
        | _ => none
    | .failWrite peer =>
        match s.stack with
        | .closing (.writes left) callback :: frames =>
            if peer ∈ left then some (s.failWrite peer left callback frames) else none
        | _ => none
    | .resume =>
        match s.stack with
        | .user :: frames => some { s with stack := frames }
        | .transport _ :: frames => some { s with stack := frames }
        | .reads :: frames => if s.read_queue_ = [] then some { s with stack := frames } else none
        | .write peer :: frames =>
            if s.write_queue_.lookup (s.writeKey peer) = none then
              some { s with stack := frames }
            else
              none
        | .closing stage callback :: frames => s.closeTurn callback frames stage
        | [] => none

def Run (labels : List Label) (s : Socket) : Prop :=
  Transition.Exec (Transition.Of step) {} labels s

end Socket

end Getrafty
