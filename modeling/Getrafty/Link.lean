import Getrafty.Chunker
import Getrafty.TransportInbound

set_option autoImplicit false

namespace Getrafty

/-- The two ends of a connection. -/
inductive Side where
  | dialer
  | listener
  deriving DecidableEq

def Side.other : Side → Side
  | .dialer => .listener
  | .listener => .dialer

/-- A transport with a `Chunker` in its pipeline. The stage ahead of the `Chunker` hands the
`OutboundBytes` it gets to `ITransport::write`; behind it is the application. -/
structure Endpoint where
  transport : Transport
  chunker : Chunker := {}
  -- what `onInbound` and `onOutbound` allocate from
  inbound : Allocator
  outbound : Allocator
  destroyed : Bool := false
  -- what the application fired, what it was fired, and what `ctx.failure` was called with
  fired : List (List UInt8) := []
  delivered : List (List UInt8) := []
  failures : List Int := []

namespace Endpoint

/-- Where the outbound events of the `Chunker` go. -/
def written (e : Endpoint) : List StageAction → Endpoint
  | [] => e
  | .fireOutbound framed :: actions =>
      written { e with transport := (e.transport.write framed).1 } actions
  | .failure what :: actions => written { e with failures := e.failures ++ [what] } actions
  | .fireInbound _ :: actions => written e actions

/-- The application fires `OutboundBytes`. -/
def send (e : Endpoint) (evt : LiveBuf) : Endpoint :=
  let framed := Chunker.onOutbound evt.toByteBuf e.outbound
  { e with outbound := framed.2, fired := e.fired ++ [evt.content] }.written framed.1

def sendAll (e : Endpoint) : List LiveBuf → Endpoint
  | [] => e
  | evt :: evts => (e.send evt).sendAll evts

/-- Where the inbound events of the `Chunker` go. The application may answer a chunk while the
decode loop is still running: an answer touches nothing that the loop uses. -/
def deliver (answer : List UInt8 → List LiveBuf) (e : Endpoint) : List StageAction → Endpoint
  | [] => e
  | .fireInbound chunk :: actions =>
      deliver answer
        ({ e with delivered := e.delivered ++ [chunk.content] }.sendAll (answer chunk.content))
        actions
  | .failure what :: actions => deliver answer { e with failures := e.failures ++ [what] } actions
  | .fireOutbound _ :: actions => deliver answer e actions

/-- `onReadable`: the `Chunker` gets the `InboundBytes`, if there are any. -/
def onReadable (e : Endpoint) (received : List Received) (last : RecvEnd)
    (answer : List UInt8 → List LiveBuf) : Endpoint :=
  let buf := (Transport.readLoop received {} e.transport.alloc).1
  let e := { e with transport := (e.transport.onReadable received last).1 }
  if 0 < buf.readableBytes then
    let decoded := e.chunker.onInbound buf e.inbound
    { e with chunker := decoded.chunker, inbound := decoded.alloc }.deliver answer decoded.actions
  else
    e

end Endpoint

/-- Two transports at the ends of one connection. `wire` holds what the kernel accepted from
a side and the other side has not received. -/
structure Link where
  ends : Side → Endpoint
  wire : Side → List UInt8

namespace Link

/-- What happens at one end, on its loop thread. What the callback of `onFlushCompleted` does comes
right behind `onWritable`. -/
inductive Op where
  | send (side : Side) (evt : LiveBuf)
  | flush (side : Side)
  | onWritable (side : Side) (outcomes : Nat → WriteOutcome)
  | readableStateChanged (side : Side) (readable : Bool)
  | onReadable (side : Side) (received : List Received) (last : RecvEnd)
      (answer : List UInt8 → List LiveBuf)
  | destroy (side : Side)

def Op.side : Op → Side
  | .send side _ | .flush side | .onWritable side _ | .readableStateChanged side _
  | .onReadable side _ _ _ | .destroy side => side

def set (l : Link) (side : Side) (e : Endpoint) : Link :=
  { l with ends := Function.update l.ends side e }

def setTransport (l : Link) (side : Side) (transport : Transport) : Link :=
  l.set side { l.ends side with transport }

/-- `recv` takes bytes off the front of the stream from the other side, and sees its end
only when that side is closed and has nothing on the way. -/
def Receives (l : Link) (side : Side) (received : List Received) (last : RecvEnd) : Prop :=
  Transport.drained received <+: l.wire side.other ∧
    (last = .eof → (l.ends side.other).destroyed = true ∧
      Transport.drained received = l.wire side.other)

instance (l : Link) (side : Side) (received : List Received) (last : RecvEnd) :
    Decidable (l.Receives side received last) :=
  inferInstanceAs (Decidable (_ ∧ (_ → _)))

def perform (l : Link) : Op → Option Link
  | .send side evt => some (l.set side ((l.ends side).send evt))
  | .flush side => some (l.setTransport side (l.ends side).transport.flush)
  | .onWritable side outcomes =>
      let done := (l.ends side).transport.onWritable outcomes []
      some { l.setTransport side done.1 with
        wire := Function.update l.wire side (l.wire side ++ Transport.sentBytes done.2) }
  | .readableStateChanged side readable =>
      some (l.setTransport side ((l.ends side).transport.readableStateChanged readable))
  | .onReadable side received last answer =>
      if l.Receives side received last then
        some { l.set side ((l.ends side).onReadable received last answer) with
          wire := Function.update l.wire side.other
            ((l.wire side.other).drop (Transport.drained received).length) }
      else
        none
  | .destroy side =>
      some (l.set side
        { l.ends side with transport := (l.ends side).transport.destroy.1, destroyed := true })

/-- Nothing is called on a transport once it is destroyed. -/
def step (l : Link) (op : Op) : Option Link :=
  if (l.ends op.side).destroyed then none else l.perform op

/-- Two transports right after their constructors; `grants` belongs to the write buffer, to
`onInbound` and to `onOutbound`. -/
def start (eventfd fd : Side → Nat) (grants : Side → Fin 3 → Nat → Bool) : Link where
  ends := fun side =>
    { transport := (Transport.start (eventfd side) (fd side) { grants := grants side 0 }).transport
      inbound := { grants := grants side 1 }
      outbound := { grants := grants side 2 } }
  wire := fun _ => []

def Run (eventfd fd : Side → Nat) (grants : Side → Fin 3 → Nat → Bool) (ops : List Op)
    (l : Link) : Prop :=
  Transition.Exec (Transition.Of step) (start eventfd fd grants) ops l

/-- No allocation has been refused at either end. -/
def Granted (l : Link) : Prop :=
  ∀ side, (l.ends side).transport.alloc.refused = 0 ∧ (l.ends side).inbound.refused = 0 ∧
    (l.ends side).outbound.refused = 0

end Link

end Getrafty
