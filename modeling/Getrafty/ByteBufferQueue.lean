import Getrafty.ByteBuffer

set_option autoImplicit false

namespace Getrafty

open Words (addSize subSize addSize_eq subSize_eq sizeRange bytesLE wordLE)

private theorem maxSize_lt : maxSize < sizeRange := by decide

theorem Allocator.resize_cases (alloc : Allocator) (data : List UInt8) (size : Nat) :
    (alloc.resize data size =
        (some (data.take size ++ List.replicate (size - data.length) 0),
          { alloc with calls := alloc.calls + 1 }) ∧ size ≤ maxSize) ∨
      (alloc.resize data size =
        (none, { alloc with calls := alloc.calls + 1, refused := alloc.refused + 1 }) ∧
        ¬ (size ≤ maxSize ∧ alloc.grants alloc.calls = true)) := by
  by_cases granted : size ≤ maxSize ∧ alloc.grants alloc.calls = true
  · exact Or.inl ⟨by simp only [resize, granted, and_self, ↓reduceIte], granted.1⟩
  · exact Or.inr ⟨by simp only [resize, granted, ↓reduceIte], granted⟩

namespace ByteBuf

/-- What holds of every buffer that was not moved from. -/
structure WF (b : ByteBuf) : Prop where
  ordered : b.r ≤ b.w
  inside : b.w ≤ b.data.length
  bounded : b.data.length ≤ maxSize

/-- The readable bytes, the next one to be read first. -/
def content (b : ByteBuf) : List UInt8 := (b.data.drop b.r).take (b.w - b.r)

/-- An emptied buffer starts over at the front of its storage. -/
def Rewound (b : ByteBuf) : Prop := b.content = [] → b.w = 0

theorem Rewound.empty : Rewound {} := fun _ => rfl

theorem WF.empty : WF {} := ⟨Nat.le_refl _, Nat.le_refl _, Nat.zero_le _⟩

@[simp] theorem content_empty : content {} = [] := rfl

section Views

variable {b : ByteBuf}

theorem WF.content_length (wf : b.WF) : b.content.length = b.w - b.r := by
  have ordered := wf.ordered
  have inside := wf.inside
  simp only [content, List.length_take, List.length_drop]
  omega

theorem WF.content_le (wf : b.WF) : b.content.length ≤ maxSize := by
  have bounded := wf.bounded
  have inside := wf.inside
  rw [wf.content_length]
  omega

theorem WF.readableBytes_eq (wf : b.WF) : b.readableBytes = b.content.length := by
  have below := maxSize_lt
  rw [wf.content_length, readableBytes,
    subSize_eq wf.ordered (by have := wf.inside; have := wf.bounded; omega)]

theorem WF.writableBytes_eq (wf : b.WF) : b.writableBytes = b.data.length - b.w := by
  have below := maxSize_lt
  exact subSize_eq wf.inside (by have := wf.bounded; omega)

theorem WF.peek_eq (wf : b.WF) (n : Nat) : b.peek n = b.content.take n := by
  rw [peek, wf.readableBytes_eq, wf.content_length, content, List.take_take]

end Views

/-- `reserve` either leaves at least `n` writable bytes behind the same content, or
changes nothing. -/
theorem WF.reserve_cases {b : ByteBuf} (wf : b.WF) {n : Nat} (small : n ≤ maxSize)
    (alloc : Allocator) :
    (∃ grown alloc', b.reserve n alloc = (true, grown, alloc') ∧ grown.WF ∧ grown.w = b.w ∧
        grown.content = b.content ∧ b.w + n ≤ grown.data.length ∧
        alloc'.grants = alloc.grants ∧ alloc'.refused = alloc.refused) ∨
      (∃ alloc', b.reserve n alloc = (false, b, alloc') ∧
        alloc'.grants = alloc.grants ∧ alloc'.refused = alloc.refused + 1 ∧
        ¬ (b.w + n ≤ maxSize ∧ alloc.grants alloc.calls = true)) := by
  have ordered := wf.ordered
  have inside := wf.inside
  have bounded := wf.bounded
  have below : 2 * maxSize < sizeRange := by decide
  by_cases room : n ≤ b.writableBytes
  · have room' := room
    rw [wf.writableBytes_eq] at room'
    refine Or.inl ⟨b, alloc, ?_, wf, rfl, rfl, by omega, rfl, rfl⟩
    simp only [reserve, room, ↓reduceIte]
  · have short := room
    rw [wf.writableBytes_eq] at short
    have sum : addSize b.w n = b.w + n := addSize_eq (by omega)
    rcases alloc.resize_cases b.data (b.w + n) with ⟨granted, fits⟩ | ⟨threw, refused⟩
    · obtain ⟨data, dataEq⟩ : ∃ data, data = b.data.take (b.w + n) ++
        List.replicate (b.w + n - b.data.length) 0 := ⟨_, rfl⟩
      rw [← dataEq] at granted
      have length : data.length = b.w + n := by
        simp only [dataEq, List.length_append, List.length_take, List.length_replicate]
        omega
      have kept : data.take b.w = b.data.take b.w := by
        rw [dataEq, List.take_append_of_le_length (by simp only [List.length_take]; omega),
          List.take_take, Nat.min_eq_left (Nat.le_add_right _ _)]
      refine Or.inl ⟨{ b with data }, { alloc with calls := alloc.calls + 1 }, ?_,
        ⟨ordered, ?_, ?_⟩, rfl, ?_, ?_, rfl, rfl⟩
      · simp only [reserve, room, ↓reduceIte, sum, granted]
      · dsimp only
        omega
      · dsimp only
        omega
      · simp only [content]
        rw [← List.drop_take, ← List.drop_take, kept]
      · dsimp only
        omega
    · refine Or.inr ⟨{ alloc with calls := alloc.calls + 1, refused := alloc.refused + 1 }, ?_,
        rfl, rfl, refused⟩
      simp only [reserve, room, ↓reduceIte, sum, threw]

theorem WF.store {b : ByteBuf} (wf : b.WF) {bytes : List UInt8}
    (room : b.w + bytes.length ≤ b.data.length) : (b.store bytes bytes.length).WF := by
  have ordered := wf.ordered
  have bounded := wf.bounded
  have below := maxSize_lt
  have sum : addSize b.w bytes.length = b.w + bytes.length := addSize_eq (by omega)
  have length : (b.data.take b.w ++ bytes ++ b.data.drop (b.w + bytes.length)).length =
      b.data.length := by
    simp only [List.length_append, List.length_take, List.length_drop]
    omega
  refine ⟨?_, ?_, ?_⟩ <;> simp only [ByteBuf.store, sum, length] <;> omega

theorem WF.content_store {b : ByteBuf} (wf : b.WF) {bytes : List UInt8}
    (room : b.w + bytes.length ≤ b.data.length) :
    (b.store bytes bytes.length).content = b.content ++ bytes := by
  have ordered := wf.ordered
  have bounded := wf.bounded
  have below := maxSize_lt
  have sum : addSize b.w bytes.length = b.w + bytes.length := addSize_eq (by omega)
  have front : ((b.data.take b.w).drop b.r).length = b.w - b.r := by
    simp only [List.length_drop, List.length_take]
    omega
  simp only [content, ByteBuf.store, sum]
  rw [List.append_assoc, List.drop_append_of_le_length (by simp only [List.length_take]; omega),
    show b.w + bytes.length - b.r = ((b.data.take b.w).drop b.r).length + bytes.length by omega,
    List.take_length_add_append, List.take_left, List.drop_take]

theorem WF.advance {b : ByteBuf} (wf : b.WF) (n : Nat) : (b.advance n).2.WF := by
  have ordered := wf.ordered
  have inside := wf.inside
  have bounded := wf.bounded
  have below := maxSize_lt
  have readable := wf.readableBytes_eq
  have length := wf.content_length
  have sum : addSize b.r (min n b.readableBytes) = b.r + min n b.readableBytes :=
    addSize_eq (by omega)
  simp only [ByteBuf.advance, sum]
  split
  · exact ⟨Nat.le_refl _, Nat.zero_le _, bounded⟩
  · refine ⟨?_, inside, bounded⟩
    dsimp only
    omega

theorem WF.content_advance {b : ByteBuf} (wf : b.WF) (n : Nat) :
    (b.advance n).2.content = b.content.drop n := by
  have ordered := wf.ordered
  have inside := wf.inside
  have bounded := wf.bounded
  have below := maxSize_lt
  have readable := wf.readableBytes_eq
  have length := wf.content_length
  have sum : addSize b.r (min n b.readableBytes) = b.r + min n b.readableBytes :=
    addSize_eq (by omega)
  simp only [ByteBuf.advance, sum]
  split
  · rw [List.drop_eq_nil_of_le (by omega)]
    rfl
  · have least : min n b.readableBytes = n := by omega
    simp only [content, least]
    rw [List.drop_take, List.drop_drop]
    congr 1
    omega

theorem WF.rewound_advance {b : ByteBuf} (wf : b.WF) (n : Nat) : (b.advance n).2.Rewound := by
  intro none
  have length := (wf.advance n).content_length
  have ordered := (wf.advance n).ordered
  rw [none, List.length_nil] at length
  unfold ByteBuf.advance at length ordered ⊢
  dsimp only at length ordered ⊢
  split
  · rfl
  · rename_i apart
    rw [if_neg apart] at length ordered
    dsimp only at length ordered
    omega

/-- `write(const void*, size_t)` appends all of the bytes or nothing. -/
theorem WF.writeRaw_cases {b : ByteBuf} (wf : b.WF) {bytes : List UInt8}
    (small : bytes.length ≤ maxSize) (alloc : Allocator) :
    (∃ after alloc', b.writeRaw bytes alloc = (true, after, alloc') ∧ after.WF ∧
        after.content = b.content ++ bytes ∧ alloc'.refused = alloc.refused) ∨
      ∃ alloc', b.writeRaw bytes alloc = (false, b, alloc') ∧
        alloc'.refused = alloc.refused + 1 := by
  by_cases none : bytes.length = 0
  · refine Or.inl ⟨b, alloc, ?_, wf, ?_, rfl⟩
    · simp only [writeRaw, none, ↓reduceIte]
    · rw [List.eq_nil_of_length_eq_zero none, List.append_nil]
  · rcases wf.reserve_cases small alloc with
      ⟨grown, alloc', reserved, wfGrown, sameW, same, room, -, refused⟩ |
        ⟨alloc', threw, -, refused, -⟩
    · rw [← sameW] at room
      refine Or.inl ⟨_, alloc', ?_, wfGrown.store room, ?_, refused⟩
      · simp only [writeRaw, none, ↓reduceIte, reserved]
      · rw [wfGrown.content_store room, same]
    · refine Or.inr ⟨alloc', ?_, refused⟩
      simp only [writeRaw, none, ↓reduceIte, threw]

/-- `out` is the result of moving `min(n, readable)` bytes from head to tail. -/
structure Moves (src dst : ByteBuf) (n : Nat) (alloc : Allocator) (out : Transfer) : Prop where
  wfSrc : out.src.WF
  wfDst : out.dst.WF
  grants : out.alloc.grants = alloc.grants
  refused : out.alloc.refused = alloc.refused
  moved : out.moved = min n src.content.length
  srcContent : out.src.content = src.content.drop n
  dstContent : out.dst.content = dst.content ++ src.content.take n
  srcRewound : src.Rewound → out.src.Rewound
  dstRewound : dst.Rewound → out.dst.Rewound

theorem Moves.of_nothing {src dst : ByteBuf} (wfSrc : src.WF) (wfDst : dst.WF) {n : Nat}
    (none : min n src.content.length = 0) (alloc : Allocator) :
    Moves src dst n alloc ⟨0, src, dst, alloc⟩ := by
  refine ⟨wfSrc, wfDst, rfl, rfl, none.symm, ?_, ?_, id, id⟩
  · rcases Nat.min_eq_zero_iff.mp none with rfl | zero
    · rfl
    · rw [List.eq_nil_of_length_eq_zero zero, List.drop_nil]
  · rcases Nat.min_eq_zero_iff.mp none with rfl | zero
    · rw [List.take_zero, List.append_nil]
    · rw [List.eq_nil_of_length_eq_zero zero, List.take_nil, List.append_nil]

/-- A transfer moves what it can, or nothing at all when there is no room. -/
theorem transfer_cases {src dst : ByteBuf} (wfSrc : src.WF) (wfDst : dst.WF) (n : Nat)
    (alloc : Allocator) :
    Moves src dst n alloc (transfer src dst n alloc) ∨
      (∃ alloc', transfer src dst n alloc = ⟨0, src, dst, alloc'⟩ ∧
        alloc'.grants = alloc.grants ∧ alloc'.refused = alloc.refused + 1 ∧
        ¬ (dst.w + min n src.content.length ≤ maxSize ∧ alloc.grants alloc.calls = true)) := by
  have readable := wfSrc.readableBytes_eq
  have bound := wfSrc.content_le
  by_cases none : min n src.content.length = 0
  · apply Or.inl
    simp only [transfer, readable, none, ↓reduceIte]
    exact Moves.of_nothing wfSrc wfDst none alloc
  · have peeked : src.peek (min n src.content.length) = src.content.take n := by
      rw [wfSrc.peek_eq, List.take_eq_take_iff]
      omega
    have size : (src.content.take n).length = min n src.content.length := List.length_take
    rcases wfDst.reserve_cases (n := min n src.content.length) (by omega) alloc with
      ⟨grown, alloc', reserved, wfGrown, sameW, same, room, grants, refused⟩ |
        ⟨alloc', threw, grants, refused, small⟩
    · rw [← sameW, ← size] at room
      have result : transfer src dst n alloc =
          ⟨min n src.content.length, (src.advance (min n src.content.length)).2,
            grown.store (src.content.take n) (src.content.take n).length, alloc'⟩ := by
        simp only [transfer, readable, none, ↓reduceIte, reserved, peeked, size]
      rw [result]
      refine Or.inl ⟨wfSrc.advance _, wfGrown.store room, grants, refused, rfl, ?_, ?_,
        fun _ => wfSrc.rewound_advance _, fun _ empty => ?_⟩
      · rw [wfSrc.content_advance]
        rcases Nat.le_total n src.content.length with within | beyond
        · rw [Nat.min_eq_left within]
        · rw [Nat.min_eq_right beyond, List.drop_length, List.drop_eq_nil_of_le beyond]
      · rw [wfGrown.content_store room, same]
      · rw [wfGrown.content_store room] at empty
        rw [(List.append_eq_nil_iff.mp empty).2, List.length_nil] at size
        exact absurd size.symm none
    · refine Or.inr ⟨alloc', ?_, grants, refused, small⟩
      simp only [transfer, readable, none, ↓reduceIte, threw]

section Full

variable {b : ByteBuf}

/-- A buffer without spare room asks for memory once. -/
theorem WF.reserve_full (wf : b.WF) (full : b.data.length = b.w) {n : Nat} (some : n ≠ 0)
    (small : n ≤ maxSize) (alloc : Allocator) :
    (∃ grown, b.reserve n alloc = (true, grown, { alloc with calls := alloc.calls + 1 }) ∧
        grown.WF ∧ grown.w = b.w ∧ grown.content = b.content ∧ grown.data.length = b.w + n ∧
        b.w + n ≤ maxSize ∧ alloc.grants alloc.calls = true) ∨
      b.reserve n alloc =
          (false, b, { alloc with calls := alloc.calls + 1, refused := alloc.refused + 1 }) ∧
        ¬ (b.w + n ≤ maxSize ∧ alloc.grants alloc.calls = true) := by
  have bounded := wf.bounded
  have below : 2 * maxSize < sizeRange := by decide
  have room : ¬ n ≤ b.writableBytes := by
    rw [wf.writableBytes_eq, full, Nat.sub_self]
    exact fun le => some (Nat.le_zero.mp le)
  have sum : addSize b.w n = b.w + n := addSize_eq (by omega)
  by_cases granted : b.w + n ≤ maxSize ∧ alloc.grants alloc.calls = true
  · rcases wf.reserve_cases small alloc with
      ⟨grown, alloc', reserved, wfGrown, sameW, same, -⟩ | ⟨-, -, -, -, refused⟩
    · have result := reserved
      simp only [reserve, room, ↓reduceIte, sum, Allocator.resize, granted, and_self] at result
      obtain ⟨grownEq, allocEq⟩ := Prod.mk.inj (Prod.mk.inj result).2
      refine Or.inl ⟨grown, ?_, wfGrown, sameW, same, ?_, granted⟩
      · rw [reserved, allocEq]
      · simp only [← grownEq, List.length_append, List.length_take, List.length_replicate]
        omega
    · exact absurd granted refused
  · refine Or.inr ⟨?_, granted⟩
    simp only [reserve, room, ↓reduceIte, sum, Allocator.resize, granted]

theorem WF.writeRaw_full (wf : b.WF) (full : b.data.length = b.w) {bytes : List UInt8}
    (some : bytes ≠ []) (small : bytes.length ≤ maxSize) (alloc : Allocator) :
    (∃ after, b.writeRaw bytes alloc =
        (true, after, { alloc with calls := alloc.calls + 1 }) ∧ after.WF ∧
        after.data.length = after.w ∧ after.w = b.w + bytes.length ∧
        after.content = b.content ++ bytes ∧ b.w + bytes.length ≤ maxSize ∧
        alloc.grants alloc.calls = true) ∨
      b.writeRaw bytes alloc =
          (false, b, { alloc with calls := alloc.calls + 1, refused := alloc.refused + 1 }) ∧
        ¬ (b.w + bytes.length ≤ maxSize ∧ alloc.grants alloc.calls = true) := by
  have nonempty : bytes.length ≠ 0 := fun zero => some (List.eq_nil_of_length_eq_zero zero)
  rcases wf.reserve_full full nonempty small alloc with
    ⟨grown, reserved, wfGrown, sameW, same, size, fits, granted⟩ | ⟨threw, refused⟩
  · have room : grown.w + bytes.length ≤ grown.data.length := by omega
    have below : maxSize < sizeRange := maxSize_lt
    have sum : addSize grown.w bytes.length = b.w + bytes.length := by
      rw [sameW]
      exact addSize_eq (by omega)
    refine Or.inl ⟨grown.store bytes bytes.length, ?_, wfGrown.store room, ?_, sum, ?_, fits,
      granted⟩
    · simp only [writeRaw, nonempty, ↓reduceIte, reserved]
    · simp only [ByteBuf.store, sum, List.length_append, List.length_take, List.length_drop]
      omega
    · rw [wfGrown.content_store room, same]
  · refine Or.inr ⟨?_, refused⟩
    simp only [writeRaw, nonempty, ↓reduceIte, threw]

/-- A transfer to a buffer without spare room. -/
theorem transfer_full {src : ByteBuf} (wfSrc : src.WF) (wf : b.WF) (full : b.data.length = b.w)
    {n : Nat} (some : n ≠ 0) (enough : n ≤ src.content.length) (alloc : Allocator) :
    (Moves src b n alloc (transfer src b n alloc) ∧
        (transfer src b n alloc).alloc = { alloc with calls := alloc.calls + 1 } ∧
        b.w + n ≤ maxSize ∧ alloc.grants alloc.calls = true) ∨
      transfer src b n alloc =
          ⟨0, src, b, { alloc with calls := alloc.calls + 1, refused := alloc.refused + 1 }⟩ ∧
        ¬ (b.w + n ≤ maxSize ∧ alloc.grants alloc.calls = true) := by
  have whole : min n src.content.length = n := Nat.min_eq_left enough
  have small : n ≤ maxSize := enough.trans wfSrc.content_le
  rcases wf.reserve_full full some small alloc with
    ⟨grown, reserved, -, -, -, -, fits, granted⟩ | ⟨threw, refused⟩
  · rcases transfer_cases wfSrc wf n alloc with moves | ⟨-, -, -, -, refused⟩
    · refine Or.inl ⟨moves, ?_, fits, granted⟩
      simp only [transfer, wfSrc.readableBytes_eq, whole, some, ↓reduceIte, reserved]
    · rw [whole] at refused
      exact absurd ⟨fits, granted⟩ refused
  · refine Or.inr ⟨?_, refused⟩
    simp only [transfer, wfSrc.readableBytes_eq, whole, some, ↓reduceIte, threw]

end Full

theorem WF.readUI32_none {b : ByteBuf} (wf : b.WF) (short : b.content.length < 4) :
    b.readUI32 = none := by
  simp only [readUI32, wf.readableBytes_eq, short, ↓reduceIte]

theorem WF.readUI32_some {b : ByteBuf} (wf : b.WF) {b0 b1 b2 b3 : UInt8} {rest : List UInt8}
    (head : b.content = b0 :: b1 :: b2 :: b3 :: rest) :
    ∃ after, b.readUI32 = some (wordLE b0 b1 b2 b3, after) ∧ after.WF ∧ after.Rewound ∧
      after.content = rest := by
  have long : ¬ b.content.length < 4 := by
    simp only [head, List.length_cons]
    omega
  have peeked : b.peek 4 = [b0, b1, b2, b3] := by
    rw [wf.peek_eq, head]
    rfl
  refine ⟨(b.advance 4).2, ?_, wf.advance 4, wf.rewound_advance 4, ?_⟩
  · simp only [readUI32, wf.readableBytes_eq, long, ↓reduceIte, peeked]
  · rw [wf.content_advance, head]
    rfl

end ByteBuf

/-- A buffer that was not moved from. -/
structure LiveBuf extends ByteBuf where
  wf : toByteBuf.WF

namespace LiveBuf

/-- The bytes of consecutive buffers as one stream. -/
def stream (bufs : List LiveBuf) : List UInt8 := (bufs.map (fun b => b.content)).flatten

@[simp] theorem stream_nil : stream [] = [] := rfl

@[simp] theorem stream_cons (b : LiveBuf) (bufs : List LiveBuf) :
    stream (b :: bufs) = b.content ++ stream bufs := rfl

@[simp] theorem stream_append (front back : List LiveBuf) :
    stream (front ++ back) = stream front ++ stream back := by
  simp only [stream, List.map_append, List.flatten_append]

/-- A fresh buffer that holds exactly these bytes. -/
def ofBytes (bytes : List UInt8) (fits : bytes.length ≤ maxSize) : LiveBuf where
  r := 0
  w := bytes.length
  data := bytes
  wf := ⟨Nat.zero_le _, Nat.le_refl _, fits⟩

@[simp] theorem content_ofBytes (bytes : List UInt8) (fits : bytes.length ≤ maxSize) :
    (ofBytes bytes fits).content = bytes := by
  simp only [ofBytes, ByteBuf.content, List.drop_zero, Nat.sub_zero, List.take_length]

end LiveBuf

end Getrafty
