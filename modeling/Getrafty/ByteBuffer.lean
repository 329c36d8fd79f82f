import Getrafty.Lib.Words

set_option autoImplicit false

namespace Getrafty

open Words (addSize subSize bytesLE wordLE)

/-- `std::vector<uint8_t>::max_size()`; a larger `resize` always throws. -/
def maxSize : Nat := 2 ^ 63 - 1

/-- The allocator behind `std::vector::resize`: which of the calls it will grant,
the number of calls made so far and the number of those that threw. -/
structure Allocator where
  grants : Nat → Bool
  calls : Nat := 0
  refused : Nat := 0

/-- An allocator that only `max_size()` can stop. -/
def Allocator.unlimited : Allocator where
  grants := fun _ => true

/-- `data.resize(size)`; `none` when it throws. -/
def Allocator.resize (alloc : Allocator) (data : List UInt8) (size : Nat) :
    Option (List UInt8) × Allocator :=
  if size ≤ maxSize ∧ alloc.grants alloc.calls = true then
    (some (data.take size ++ List.replicate (size - data.length) 0),
      { alloc with calls := alloc.calls + 1 })
  else
    (none, { alloc with calls := alloc.calls + 1, refused := alloc.refused + 1 })

/-- `ByteBuf`: the readable bytes are `data[r, w)`. -/
structure ByteBuf where
  r : Nat := 0
  w : Nat := 0
  data : List UInt8 := []
  deriving DecidableEq, Repr

namespace ByteBuf

def readableBytes (b : ByteBuf) : Nat := subSize b.w b.r

def writableBytes (b : ByteBuf) : Nat := subSize b.data.length b.w

/-- Grows without compaction; `false` when the vector could not be resized. -/
def reserve (b : ByteBuf) (n : Nat) (alloc : Allocator) : Bool × ByteBuf × Allocator :=
  if n ≤ b.writableBytes then
    (true, b, alloc)
  else
    match alloc.resize b.data (addSize b.w n) with
    | (some data, alloc) => (true, { b with data }, alloc)
    | (none, alloc) => (false, b, alloc)

/-- Drops up to `n` readable bytes and returns their number. -/
def advance (b : ByteBuf) (n : Nat) : Nat × ByteBuf :=
  let m := min n b.readableBytes
  let r := addSize b.r m
  (m, if r = b.w then { b with r := 0, w := 0 } else { b with r })

/-- Makes up to `n` writable bytes readable and returns their number. -/
def commit (b : ByteBuf) (n : Nat) : Nat × ByteBuf :=
  let m := min n b.writableBytes
  (m, { b with w := addSize b.w m })

/-- The bytes `peek(dst, n)` copies into `dst`. -/
def peek (b : ByteBuf) (n : Nat) : List UInt8 := (b.data.drop b.r).take (min n b.readableBytes)

/-- `memcpy(data + w, bytes, m)` followed by `w += m`. -/
def store (b : ByteBuf) (bytes : List UInt8) (m : Nat) : ByteBuf where
  r := b.r
  w := addSize b.w m
  data := b.data.take b.w ++ bytes ++ b.data.drop (b.w + bytes.length)

/-- `write(const void*, size_t)`. -/
def writeRaw (b : ByteBuf) (bytes : List UInt8) (alloc : Allocator) : Bool × ByteBuf × Allocator :=
  if bytes.length = 0 then
    (true, b, alloc)
  else
    match b.reserve bytes.length alloc with
    | (false, b, alloc) => (false, b, alloc)
    | (true, b, alloc) => (true, b.store bytes bytes.length, alloc)

/-- What a transfer between two distinct buffers leaves behind. -/
structure Transfer where
  moved : Nat
  src : ByteBuf
  dst : ByteBuf
  alloc : Allocator

/-- Moves up to `n` bytes from the head of `src` to the tail of `dst`. -/
def transfer (src dst : ByteBuf) (n : Nat) (alloc : Allocator) : Transfer :=
  let m := min n src.readableBytes
  if m = 0 then
    ⟨0, src, dst, alloc⟩
  else
    match dst.reserve m alloc with
    | (false, dst, alloc) => ⟨0, src, dst, alloc⟩
    | (true, dst, alloc) => ⟨m, (src.advance m).2, dst.store (src.peek m) m, alloc⟩

/-- `this->read(dst, n)`, for `dst` another buffer than `this`. -/
def read (b dst : ByteBuf) (n : Nat) (alloc : Allocator) : Transfer := transfer b dst n alloc

/-- `this->write(std::move(src), n)`, for `src` another buffer than `this`. -/
def write (b src : ByteBuf) (n : Nat) (alloc : Allocator) : Transfer := transfer src b n alloc

/-- The word at the head and the buffer without it; `none` when fewer than four
bytes are readable, in which case nothing changes. -/
def readUI32 (b : ByteBuf) : Option (Nat × ByteBuf) :=
  if b.readableBytes < 4 then
    none
  else
    match b.peek 4 with
    | [b0, b1, b2, b3] => some (wordLE b0 b1 b2 b3, (b.advance 4).2)
    | _ => none

def writeUI32 (b : ByteBuf) (word : Nat) (alloc : Allocator) : Bool × ByteBuf × Allocator :=
  b.writeRaw (bytesLE word) alloc

end ByteBuf

end Getrafty
