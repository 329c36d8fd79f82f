import Getrafty.Errno
import Getrafty.ByteBufferQueue

set_option autoImplicit false

namespace Getrafty

/-- `1 << 20`: 1MB. -/
def kChunkLimit : Nat := 1 <<< 20

/-- What a stage does through its `StageContext`. -/
inductive StageAction where
  | fireInbound (buf : ByteBuf)
  | fireOutbound (buf : ByteBuf)
  | failure (what : Int)
  deriving DecidableEq

/-- `pending` is zero while no header has been read. -/
structure Chunker where
  in_ : ByteBuf := {}
  pending : Nat := 0
  deriving DecidableEq

namespace Chunker

/-- How the header part of a turn of the decode loop ends. -/
inductive Header where
  | missing
  | tooLong
  | ready (c : Chunker)

/-- How a turn of the decode loop ends. -/
inductive Turn where
  | stop (c : Chunker)
  | reject
  | fire (c : Chunker) (payload : ByteBuf) (alloc : Allocator)

/-- `if (pending_ == 0) { ... }`: a header already read is not checked again. -/
def readHeader (c : Chunker) : Header :=
  if c.pending = 0 then
    match c.in_.readUI32 with
    | none => .missing
    | some (word, in_) => if kChunkLimit < word then .tooLong else .ready { in_, pending := word }
  else
    .ready c

/-- The `payload` of the current frame. It stays empty when it cannot be allocated, and
so does the input then. -/
def readPayload (c : Chunker) (alloc : Allocator) : ByteBuf.Transfer :=
  if 0 < c.pending then c.in_.read {} c.pending alloc else ⟨0, c.in_, {}, alloc⟩

/-- One turn of `while (true)` in `onInbound`. -/
def turn (c : Chunker) (alloc : Allocator) : Turn :=
  match c.readHeader with
  | .missing => .stop c
  | .tooLong => .reject
  | .ready c =>
      if c.in_.readableBytes < c.pending then
        .stop c
      else
        let payload := c.readPayload alloc
        .fire { in_ := payload.src, pending := 0 } payload.dst payload.alloc

/-- What a call leaves behind: the stage, the actions in order, the allocator. -/
structure Outcome where
  chunker : Chunker
  actions : List StageAction
  alloc : Allocator

/-- What a call leaves behind when `actions` came before it. -/
def Outcome.after (actions : List StageAction) (rest : Outcome) : Outcome :=
  { rest with actions := actions ++ rest.actions }

/-- At most `fuel` turns of the decode loop. A rejection drops the whole input. -/
def decode : Nat → Chunker → Allocator → Outcome
  | 0, c, alloc => ⟨c, [], alloc⟩
  | fuel + 1, c, alloc =>
      match c.turn alloc with
      | .stop c => ⟨c, [], alloc⟩
      | .reject => ⟨{}, [.failure (-EMSGSIZE)], alloc⟩
      | .fire c payload alloc => (decode fuel c alloc).after [.fireInbound payload]

/-- Enough turns for every input: two of them always consume a byte. -/
def turns (c : Chunker) : Nat := 2 * c.in_.readableBytes + 2

def onInbound (c : Chunker) (evt : ByteBuf) (alloc : Allocator) : Outcome :=
  let received := c.in_.write evt evt.readableBytes alloc
  let c := { c with in_ := received.dst }
  decode c.turns c received.alloc

/-- `OutboundBytes` is framed on its own; the stage keeps nothing of it. -/
def onOutbound (evt : ByteBuf) (alloc : Allocator) : List StageAction × Allocator :=
  let len := evt.readableBytes
  if kChunkLimit < len then
    ([.failure (-EMSGSIZE)], alloc)
  else
    match ({} : ByteBuf).writeUI32 (len % 2 ^ 32) alloc with
    | (false, _, alloc) => ([.failure (-ENOMEM)], alloc)
    | (true, out, alloc) =>
        let framed := out.write evt len alloc
        ([.fireOutbound framed.dst], framed.alloc)

/-- Events received one after the other. -/
def receive (c : Chunker) : List LiveBuf → Allocator → Outcome
  | [], alloc => ⟨c, [], alloc⟩
  | evt :: evts, alloc =>
      let first := c.onInbound evt.toByteBuf alloc
      (receive first.chunker evts first.alloc).after first.actions

/-- Events sent one after the other. -/
def send : List LiveBuf → Allocator → List StageAction × Allocator
  | [], alloc => ([], alloc)
  | evt :: evts, alloc =>
      let first := onOutbound evt.toByteBuf alloc
      let rest := send evts first.2
      (first.1 ++ rest.1, rest.2)

end Chunker

namespace StageAction

/-- The contents of the chunks fired inbound. -/
def chunks : List StageAction → List (List UInt8)
  | [] => []
  | .fireInbound buf :: actions => buf.content :: chunks actions
  | _ :: actions => chunks actions

/-- The contents of the frames fired outbound, as one stream. -/
def wire : List StageAction → List UInt8
  | [] => []
  | .fireOutbound buf :: actions => buf.content ++ wire actions
  | _ :: actions => wire actions

/-- The errors handed to `ctx.failure`. -/
def failures : List StageAction → List Int
  | [] => []
  | .failure what :: actions => what :: failures actions
  | _ :: actions => failures actions

end StageAction

end Getrafty
