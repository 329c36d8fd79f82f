import Getrafty.ByteBufferReserve
import Getrafty.Lib.Transition

set_option autoImplicit false

namespace Getrafty

open Transition (Exec Of Guarded)
open Words (bytesLE wordLE)

/-- Bytes of a `data_` that a call copies from or to, or hands out. -/
structure Span where
  start : Nat
  count : Nat
  size : Nat
  deriving DecidableEq

def Span.Inside (s : Span) : Prop := s.start + s.count ≤ s.size

instance (s : Span) : Decidable s.Inside := inferInstanceAs (Decidable (_ ≤ _))

/-- What a call returns. -/
inductive Reply where
  | nothing
  | flag (ok : Bool)
  | count (n : Nat)
  | bytes (bytes : List UInt8)
  | word (word : Option Nat)
  deriving DecidableEq

/-- The calls on a family of buffers. `fill` is a write to the view of `tailroom`, committed. -/
inductive QueueOp (ι : Type) where
  | writeRaw (i : ι) (bytes : List UInt8)
  | write (i src : ι) (n : Nat)
  | read (i dst : ι) (n : Nat)
  | peek (i : ι) (n : Nat)
  | headroom (i : ι)
  | advance (i : ι) (n : Nat)
  | reserve (i : ι) (n : Nat)
  | fill (i : ι) (bytes : List UInt8)
  | readUI32 (i : ι)
  | writeUI32 (i : ι) (word : Nat)

namespace ByteBuf

/-- `this->write(std::move(*this), n)`. -/
def writeSelf (b : ByteBuf) (n : Nat) (alloc : Allocator) : ByteBuf × Allocator :=
  let m := min n b.readableBytes
  if m = 0 then
    (b, alloc)
  else
    match b.reserve m alloc with
    | (false, b, alloc) => (b, alloc)
    | (true, b, alloc) => (((b.store (b.peek m) m).advance m).2, alloc)

/-- Bytes put into the view of `tailroom`, and `commit` of as many. -/
def fill (b : ByteBuf) (bytes : List UInt8) : Nat × ByteBuf :=
  commit { b with data := b.data.take b.w ++ bytes ++ b.data.drop (b.w + bytes.length) }
    bytes.length

/-- The view of `headroom`. -/
def headroom (b : ByteBuf) : List UInt8 := (b.data.drop b.r).take b.readableBytes

/-- The part of `data_` from the head. -/
def front (b : ByteBuf) (n : Nat) : List Span := if n = 0 then [] else [⟨b.r, n, b.data.length⟩]

/-- The part of `data_` behind the tail. -/
def back (b : ByteBuf) (n : Nat) : List Span := if n = 0 then [] else [⟨b.w, n, b.data.length⟩]

/-- Where `n` bytes are appended, once there is room. -/
def appended (b : ByteBuf) (n : Nat) (alloc : Allocator) : List Span :=
  match b.reserve n alloc with
  | (true, b, _) => b.back n
  | (false, _, _) => []

/-- Where `n` bytes come from, if there is room for them. -/
def taken (src dst : ByteBuf) (n : Nat) (alloc : Allocator) : List Span :=
  if (dst.reserve n alloc).1 then src.front n else []

end ByteBuf

/-- Buffers, and what the calls on them copied and returned. -/
structure Family (ι : Type) where
  buf : ι → ByteBuf := fun _ => {}
  alloc : Allocator
  spans : List Span := []
  replies : List Reply := []

namespace Family

variable {ι : Type} [DecidableEq ι]

def put (f : Family ι) (i : ι) (b : ByteBuf) : Family ι :=
  { f with buf := Function.update f.buf i b }

def reply (f : Family ι) (r : Reply) : Family ι := { f with replies := f.replies ++ [r] }

/-- The memory that a call goes through. -/
def touched (f : Family ι) : QueueOp ι → List Span
  | .writeRaw i bytes => (f.buf i).appended bytes.length f.alloc
  | .write i src n =>
      let m := min n (f.buf src).readableBytes
      (f.buf i).appended m f.alloc ++
        if i = src then ((f.buf i).reserve m f.alloc).2.1.taken (f.buf i) m f.alloc
        else (f.buf src).taken (f.buf i) m f.alloc
  | .read i dst n =>
      let m := min n (f.buf i).readableBytes
      if i = dst then []
      else (f.buf dst).appended m f.alloc ++ (f.buf i).taken (f.buf dst) m f.alloc
  | .peek i n => (f.buf i).front (min n (f.buf i).readableBytes)
  | .headroom i => (f.buf i).front (f.buf i).readableBytes
  | .advance _ _ | .reserve _ _ => []
  | .fill i _ => (f.buf i).back (f.buf i).writableBytes
  | .readUI32 i =>
      if (f.buf i).readableBytes < 4 then [] else (f.buf i).front (min 4 (f.buf i).readableBytes)
  | .writeUI32 i _ => (f.buf i).appended 4 f.alloc

/-- A transfer between two of the buffers. -/
def transfer (f : Family ι) (src dst : ι) (n : Nat) : Family ι :=
  let moved := ByteBuf.transfer (f.buf src) (f.buf dst) n f.alloc
  { (f.put src moved.src).put dst moved.dst with alloc := moved.alloc }

def writeRaw (f : Family ι) (i : ι) (bytes : List UInt8) : Family ι :=
  let out := (f.buf i).writeRaw bytes f.alloc
  { f.put i out.2.1 with alloc := out.2.2 }.reply (.flag out.1)

def writeSelf (f : Family ι) (i : ι) (n : Nat) : Family ι :=
  let out := (f.buf i).writeSelf n f.alloc
  { f.put i out.1 with alloc := out.2 }

def write (f : Family ι) (i src : ι) (n : Nat) : Family ι :=
  (if i = src then f.writeSelf i n else f.transfer src i n).reply .nothing

def read (f : Family ι) (i dst : ι) (n : Nat) : Family ι :=
  if i = dst then f.reply (.count 0)
  else (f.transfer i dst n).reply
    (.count (ByteBuf.transfer (f.buf i) (f.buf dst) n f.alloc).moved)

def advance (f : Family ι) (i : ι) (n : Nat) : Family ι :=
  (f.put i ((f.buf i).advance n).2).reply (.count ((f.buf i).advance n).1)

def reserve (f : Family ι) (i : ι) (n : Nat) : Family ι :=
  let out := (f.buf i).reserve n f.alloc
  { f.put i out.2.1 with alloc := out.2.2 }.reply (.flag out.1)

def fill (f : Family ι) (i : ι) (bytes : List UInt8) : Family ι :=
  (f.put i ((f.buf i).fill bytes).2).reply (.count ((f.buf i).fill bytes).1)

/-- The buffer without the word at its head, if there was one. -/
def putWord (f : Family ι) (i : ι) : Option (Nat × ByteBuf) → Family ι
  | some (word, b) => (f.put i b).reply (.word (some word))
  | none => f.reply (.word none)

def readUI32 (f : Family ι) (i : ι) : Family ι := f.putWord i (f.buf i).readUI32

/-- What a call does to the buffers, and what it returns. -/
def call (f : Family ι) : QueueOp ι → Family ι
  | .writeRaw i bytes => f.writeRaw i bytes
  | .write i src n => f.write i src n
  | .read i dst n => f.read i dst n
  | .peek i n => f.reply (.bytes ((f.buf i).peek n))
  | .headroom i => f.reply (.bytes (f.buf i).headroom)
  | .advance i n => f.advance i n
  | .reserve i n => f.reserve i n
  | .fill i bytes => f.fill i bytes
  | .readUI32 i => f.readUI32 i
  | .writeUI32 i word => f.writeRaw i (bytesLE word)

/-- Sizes are below 2^64, and no more is put into a view than it holds. -/
def Possible (f : Family ι) : QueueOp ι → Prop
  | .writeRaw _ bytes => bytes.length < 2 ^ 64
  | .reserve _ n => n < 2 ^ 64
  | .fill i bytes => bytes.length ≤ (f.buf i).writableBytes
  | _ => True

instance (f : Family ι) (op : QueueOp ι) : Decidable (f.Possible op) :=
  match op with
  | .writeRaw _ _ => inferInstanceAs (Decidable (_ < _))
  | .reserve _ _ => inferInstanceAs (Decidable (_ < _))
  | .fill _ _ => inferInstanceAs (Decidable (_ ≤ _))
  | .write _ _ _ | .read _ _ _ | .peek _ _ | .headroom _ | .advance _ _ | .readUI32 _
  | .writeUI32 _ _ => isTrue trivial

def step (f : Family ι) (op : QueueOp ι) : Option (Family ι) :=
  if f.Possible op then some { f.call op with spans := f.spans ++ f.touched op } else none

/-- The allocation of the call succeeds, if it makes one, and no sum wraps. -/
def Succeeds (f : Family ι) : QueueOp ι → Prop
  | .writeRaw i bytes => (f.buf i).Room bytes.length f.alloc
  | .write i src n => (f.buf i).Room (min n (f.buf src).readableBytes) f.alloc
  | .read i dst n => i = dst ∨ (f.buf dst).Room (min n (f.buf i).readableBytes) f.alloc
  | .reserve i n => (f.buf i).Room n f.alloc
  | .writeUI32 i _ => (f.buf i).Room 4 f.alloc
  | _ => True

instance (f : Family ι) (op : QueueOp ι) : Decidable (f.Succeeds op) :=
  match op with
  | .writeRaw _ _ => inferInstanceAs (Decidable (ByteBuf.Room _ _ _))
  | .write _ _ _ => inferInstanceAs (Decidable (ByteBuf.Room _ _ _))
  | .read _ _ _ => inferInstanceAs (Decidable (_ ∨ ByteBuf.Room _ _ _))
  | .reserve _ _ => inferInstanceAs (Decidable (ByteBuf.Room _ _ _))
  | .writeUI32 _ _ => inferInstanceAs (Decidable (ByteBuf.Room _ _ _))
  | .peek _ _ | .headroom _ | .advance _ _ | .fill _ _ | .readUI32 _ => isTrue trivial

end Family

/-- Queues of bytes, and what the calls on them returned. -/
structure Queues (ι : Type) where
  content : ι → List UInt8 := fun _ => []
  replies : List Reply := []

namespace Queues

variable {ι : Type} [DecidableEq ι]

def put (q : Queues ι) (i : ι) (bytes : List UInt8) : Queues ι :=
  { q with content := Function.update q.content i bytes }

def reply (q : Queues ι) (r : Reply) : Queues ι := { q with replies := q.replies ++ [r] }

def append (q : Queues ι) (i : ι) (bytes : List UInt8) : Queues ι := q.put i (q.content i ++ bytes)

def drop (q : Queues ι) (i : ι) (n : Nat) : Queues ι := q.put i ((q.content i).drop n)

/-- At most `n` bytes go from the head of one queue to the tail of another. -/
def move (q : Queues ι) (src dst : ι) (n : Nat) : Queues ι :=
  (q.append dst ((q.content src).take n)).drop src (min n (q.content src).length)

def read (q : Queues ι) (i dst : ι) (n : Nat) : Queues ι :=
  if i = dst then q.reply (.count 0)
  else (q.move i dst n).reply (.count (min n (q.content i).length))

def readUI32 (q : Queues ι) (i : ι) : Queues ι :=
  match q.content i with
  | b0 :: b1 :: b2 :: b3 :: rest => (q.put i rest).reply (.word (some (wordLE b0 b1 b2 b3)))
  | _ => q.reply (.word none)

def call (q : Queues ι) : QueueOp ι → Queues ι
  | .writeRaw i bytes => (q.append i bytes).reply (.flag true)
  | .write i src n => (q.move src i n).reply .nothing
  | .read i dst n => q.read i dst n
  | .peek i n => q.reply (.bytes ((q.content i).take n))
  | .headroom i => q.reply (.bytes (q.content i))
  | .advance i n => (q.drop i n).reply (.count (min n (q.content i).length))
  | .reserve _ _ => q.reply (.flag true)
  | .fill i bytes => (q.append i bytes).reply (.count bytes.length)
  | .readUI32 i => q.readUI32 i
  | .writeUI32 i word => (q.append i (bytesLE word)).reply (.flag true)

/-- The queues after these calls. -/
def calls (ops : List (QueueOp ι)) : Queues ι := ops.foldl call {}

end Queues

end Getrafty
