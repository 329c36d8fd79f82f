import Getrafty.ByteBufferQueue
import Getrafty.Errno
import Getrafty.EventLoop

set_option autoImplicit false

namespace Getrafty

open Words (toInt32)

/-- The lambdas that capture the transport. -/
inductive TransportCallback where
  | onReadable
  | onWritable
  deriving DecidableEq

/-- How a `writev` turns out, and what `errno` says afterwards. -/
inductive WriteOutcome where
  | accepted (n : Nat) (errno : Int)
  | failed (errno : Int)
  deriving DecidableEq

/-- What one successful `recv` of up to 4096 bytes delivers. -/
structure Received where
  bytes : List UInt8
  some_byte : bytes ≠ []
  fits : bytes.length ≤ 4096

/-- The `recv` that ends the read loop. -/
inductive RecvEnd where
  | eof
  | failed (errno : Int)
  deriving DecidableEq

inductive InboundEvent where
  | bytes (content : List UInt8)
  | error (err : Int)
  | inactive
  deriving DecidableEq

/-- What a transport does that others can see, in order. -/
inductive Observation where
  | sent (bytes : List UInt8)
  | fired (evt : InboundEvent)
  | flushCompleted (readable : Nat)
  | wrote (bytes : List UInt8) (left : ByteBuf) (ret : Int)
  | removed
  deriving DecidableEq

/-- `AbstractEventLoopTransport` over a socket, used on the loop thread. -/
structure Transport where
  fd : Nat
  ew : EventWatcher TransportCallback
  wbuf : ByteBuf := {}
  alloc : Allocator

namespace Transport

/-- A call on the watcher runs inline. -/
def inline (t : Transport) (call : Call TransportCallback) : Transport :=
  match call.task with
  | none => t
  | some task => { t with ew := task.perform t.ew }

def watchWritable (t : Transport) : Transport := t.inline (.watch t.fd .WRONLY .onWritable)

def unwatchWritable (t : Transport) : Transport := t.inline (.unwatch t.fd .WRONLY)

/-- What `writeSome` returns, leaves in `errno` and in the buffer, and sent. -/
structure Written where
  ret : Int
  errno : Int
  src : ByteBuf
  sent : List UInt8

/-- `TcpTransport::writeSome`: the only `iovec` is the head of the buffer. -/
def writeSome (src : ByteBuf) (maxBytes : Nat) (outcome : WriteOutcome) : Written :=
  let offered := src.peek (min src.readableBytes maxBytes)
  match outcome with
  | .failed errno => ⟨-1, errno, src, []⟩
  | .accepted n errno =>
      let n := min n offered.length
      if 0 < n then ⟨toInt32 n, errno, (src.advance n).2, offered.take n⟩ else ⟨0, errno, src, []⟩

/-- How the loop in `onWritable` ends: with `errno` when `writeSome` was negative. -/
structure Stopped where
  errno : Option Int
  wbuf : ByteBuf
  sent : List UInt8

/-- `for (int i = 0; i < 256 && wbuf_.readableBytes() > 0; ++i)`, `left` turns before its end. -/
def writeLoop (outcomes : Nat → WriteOutcome) : Nat → ByteBuf → Stopped
  | 0, wbuf => ⟨none, wbuf, []⟩
  | left + 1, wbuf =>
      if wbuf.readableBytes = 0 then
        ⟨none, wbuf, []⟩
      else
        let written := writeSome wbuf wbuf.readableBytes (outcomes (255 - left))
        if written.ret < 0 then
          ⟨some written.errno, written.src, written.sent⟩
        else
          let rest := writeLoop outcomes left written.src
          ⟨rest.errno, rest.wbuf, written.sent ++ rest.sent⟩

def write (t : Transport) (buf : ByteBuf) : Transport × List Observation :=
  if buf.readableBytes = 0 then
    (t, [.wrote buf.content buf 0])
  else
    let size := buf.readableBytes
    let moved := t.wbuf.write buf size t.alloc
    ({ t with wbuf := moved.dst, alloc := moved.alloc }.watchWritable,
      [.wrote buf.content moved.src (toInt32 size)])

def flush (t : Transport) : Transport :=
  if 0 < t.wbuf.readableBytes then t.watchWritable else t

/-- What the callback of `onFlushCompleted` writes re-entrantly. -/
def writeAll (t : Transport) : List LiveBuf → Transport × List Observation
  | [] => (t, [])
  | buf :: bufs =>
      let first := t.write buf.toByteBuf
      let rest := writeAll first.1 bufs
      (rest.1, first.2 ++ rest.2)

/-- What `onWritable` does once its loop has stopped. -/
def afterLoop (t : Transport) (stopped : Stopped) (replies : List LiveBuf) :
    Transport × List Observation :=
  let t := { t with wbuf := stopped.wbuf }
  match stopped.errno with
  | some errno =>
      if errno = EAGAIN ∨ errno = EWOULDBLOCK then
        (t, [.sent stopped.sent])
      else
        (t.unwatchWritable, [.sent stopped.sent, .fired (.error errno)])
  | none =>
      let replied := t.unwatchWritable.writeAll replies
      (replied.1, .sent stopped.sent :: .flushCompleted t.wbuf.readableBytes :: replied.2)

def onWritable (t : Transport) (outcomes : Nat → WriteOutcome) (replies : List LiveBuf) :
    Transport × List Observation :=
  t.afterLoop (writeLoop outcomes 256 t.wbuf) replies

def readableStateChanged (t : Transport) (readable : Bool) : Transport :=
  if readable then t.inline (.watch t.fd .RDONLY .onReadable) else t.inline (.unwatch t.fd .RDONLY)

/-- `while ((n = readSome(buf, 4096)) > 0)`: `readSome` ignores whether the bytes could be
stored. -/
def readLoop : List Received → ByteBuf → Allocator → ByteBuf × Allocator
  | [], buf, alloc => (buf, alloc)
  | received :: more, buf, alloc =>
      let stored := buf.writeRaw received.bytes alloc
      readLoop more stored.2.1 stored.2.2

/-- What the last `readSome` returns. -/
def RecvEnd.ret : RecvEnd → Int
  | .eof => 0
  | .failed _ => -1

/-- What `onReadable` fires, from the bytes it read and the last result of `readSome`. -/
def inbound (buf : ByteBuf) (n : Int) : List InboundEvent :=
  (if 0 < buf.readableBytes then [.bytes buf.content] else []) ++
    if n = EAGAIN then []
    else if n = EWOULDBLOCK then []
    else if n = 0 then [.inactive]
    else [.error n]

def onReadable (t : Transport) (received : List Received) (last : RecvEnd) :
    Transport × List Observation :=
  let stored := readLoop received {} t.alloc
  ({ t with alloc := stored.2 }, (inbound stored.1 (RecvEnd.ret last)).map .fired)

/-- The destructor; the pipeline is destroyed after its body and tells the stages. -/
def destroy (t : Transport) : Transport × List Observation :=
  ((t.inline (.unwatch t.fd .RDONLY)).inline (.unwatch t.fd .WRONLY), [.removed])

/-- What happens to a transport on the loop thread. -/
inductive Op where
  | write (buf : LiveBuf)
  | flush
  | onWritable (outcomes : Nat → WriteOutcome) (replies : List LiveBuf)
  | readableStateChanged (readable : Bool)
  | onReadable (received : List Received) (last : RecvEnd)
  | destroy

def perform (t : Transport) : Op → Transport × List Observation
  | .write buf => t.write buf.toByteBuf
  | .flush => (t.flush, [])
  | .onWritable outcomes replies => t.onWritable outcomes replies
  | .readableStateChanged readable => (t.readableStateChanged readable, [])
  | .onReadable received last => t.onReadable received last
  | .destroy => t.destroy

/-- A transport and what it did so far; nothing is called on it once it is destroyed. -/
structure State where
  transport : Transport
  log : List Observation := []
  destroyed : Bool := false

def step (s : State) (op : Op) : Option State :=
  if s.destroyed then
    none
  else
    let done := s.transport.perform op
    some ⟨done.1, s.log ++ done.2, match op with | .destroy => true | _ => false⟩

/-- A transport right after its constructor, on a watcher of its own. -/
def start (eventfd fd : Nat) (alloc : Allocator) : State where
  transport := { fd, ew := .create eventfd, alloc }

def Run (eventfd fd : Nat) (alloc : Allocator) (ops : List Op) (s : State) : Prop :=
  Transition.Exec (Transition.Of step) (start eventfd fd alloc) ops s

end Transport

end Getrafty
