import Getrafty.ByteBufferFifo

set_option autoImplicit false

namespace Getrafty

open Transition (Exec Of Guarded)
open Words (addSize addSize_eq sizeRange)

/-- What is done to a buffer that is filled at its tail and drained at its head. -/
inductive StorageOp where
  | append (bytes : List UInt8)
  | appendBuf (src : LiveBuf) (n : Nat)
  | advance (n : Nat)

/-- The bytes that the operation would append. -/
def StorageOp.size : StorageOp → Nat
  | .append bytes => bytes.length
  | .appendBuf src n => min n src.content.length
  | .advance _ => 0

/-- A buffer, with the bytes appended since it was last empty and the most that this came to. -/
structure Storage where
  buf : ByteBuf := {}
  alloc : Allocator
  since : Nat := 0
  most : Nat := 0

namespace Storage

/-- Counts what the operation appended. -/
def next (s : Storage) (buf : ByteBuf) (alloc : Allocator) : Storage :=
  let since :=
    if buf.content = [] then 0 else s.since + (buf.content.length - s.buf.content.length)
  { buf, alloc, since, most := max s.most since }

/-- No object is larger than `max_size`. -/
def step (s : Storage) : StorageOp → Option Storage
  | .append bytes =>
      if bytes.length ≤ maxSize then
        some (s.next (s.buf.writeRaw bytes s.alloc).2.1 (s.buf.writeRaw bytes s.alloc).2.2)
      else
        none
  | .appendBuf src n =>
      some (s.next (s.buf.write src.toByteBuf n s.alloc).dst
        (s.buf.write src.toByteBuf n s.alloc).alloc)
  | .advance n => some (s.next (s.buf.advance n).2 s.alloc)

/-- Appends of at most `B` bytes to a content of at most `B` bytes. -/
def Within (B : Nat) (s : Storage) (op : StorageOp) : Prop :=
  op.size ≤ B ∧ s.buf.content.length + op.size ≤ B

end Storage

namespace ByteBuf

/-- `n` bytes were appended, and the vector grew only if it had to. -/
structure Grown (b after : ByteBuf) (n : Nat) : Prop where
  wf : after.WF
  w : after.w = b.w + n
  size : after.data.length = max b.data.length (b.w + n)
  length : after.content.length = b.content.length + n

section Growth

variable {b src : ByteBuf} {n : Nat}

theorem WF.reserve_size (wf : b.WF) (small : n ≤ maxSize) (alloc : Allocator) :
    (∃ grown alloc', b.reserve n alloc = (true, grown, alloc') ∧ grown.WF ∧ grown.w = b.w ∧
        grown.content = b.content ∧ grown.data.length = max b.data.length (b.w + n)) ∨
      ∃ alloc', b.reserve n alloc = (false, b, alloc') := by
  have inside := wf.inside
  have bounded := wf.bounded
  have below : 2 * maxSize < sizeRange := by decide
  have sum : addSize b.w n = b.w + n := addSize_eq (by omega)
  rcases wf.reserve_cases small alloc with ⟨grown, alloc', ok, wf', w, same, -⟩ | ⟨alloc', threw, -⟩
  · refine Or.inl ⟨grown, alloc', ok, wf', w, same, ?_⟩
    by_cases spare : n ≤ b.writableBytes
    · rw [reserve_spare spare, Prod.mk.injEq, Prod.mk.injEq] at ok
      rw [wf.writableBytes_eq] at spare
      rw [← ok.2.1]
      omega
    · rcases reserve_short spare alloc with ⟨-, alloc'', resized⟩ | ⟨-, alloc'', refused⟩
      · rw [resized, sum, Prod.mk.injEq, Prod.mk.injEq] at ok
        rw [← ok.2.1]
        dsimp only
        rw [resized_length]
        rw [wf.writableBytes_eq] at spare
        omega
      · rw [refused] at ok
        cases ok
  · exact Or.inr ⟨alloc', threw⟩

theorem grown_store {grown : ByteBuf} (wf : grown.WF) (w : grown.w = b.w)
    (same : grown.content = b.content) {bytes : List UInt8}
    (size : grown.data.length = max b.data.length (b.w + bytes.length)) :
    Grown b (grown.store bytes bytes.length) bytes.length := by
  have bounded := wf.bounded
  have below : maxSize < sizeRange := by decide
  have room : grown.w + bytes.length ≤ grown.data.length := by omega
  have sum : addSize grown.w bytes.length = b.w + bytes.length := by
    rw [w]
    exact addSize_eq (by omega)
  refine ⟨wf.store room, sum, ?_, ?_⟩
  · rw [← size]
    simp only [ByteBuf.store, List.length_append, List.length_take, List.length_drop]
    omega
  · rw [wf.content_store room, same, List.length_append]

theorem WF.writeRaw_grown (wf : b.WF) {bytes : List UInt8} (small : bytes.length ≤ maxSize)
    (alloc : Allocator) : Grown b (b.writeRaw bytes alloc).2.1 bytes.length ∨
      (b.writeRaw bytes alloc).2.1 = b := by
  by_cases none : bytes.length = 0
  · right
    simp only [writeRaw, none, ↓reduceIte]
  · rcases wf.reserve_size small alloc with
      ⟨grown, alloc', ok, wf', w, same, size⟩ | ⟨alloc', threw⟩
    · left
      simp only [writeRaw, none, ↓reduceIte, ok]
      exact grown_store wf' w same size
    · right
      simp only [writeRaw, none, ↓reduceIte, threw]

theorem write_grown (wfSrc : src.WF) (wf : b.WF) (n : Nat) (alloc : Allocator) :
    Grown b (b.write src n alloc).dst (min n src.content.length) ∨
      (b.write src n alloc).dst = b := by
  unfold ByteBuf.write transfer
  rw [wfSrc.readableBytes_eq]
  by_cases none : min n src.content.length = 0
  · right
    simp only [none, ↓reduceIte]
  · have small : min n src.content.length ≤ maxSize :=
      (Nat.min_le_right _ _).trans wfSrc.content_le
    have peeked : src.peek (min n src.content.length) = src.content.take n := by
      rw [wfSrc.peek_eq, take_min]
    have taken : (src.content.take n).length = min n src.content.length := List.length_take
    rcases wf.reserve_size small alloc with
      ⟨grown, alloc', ok, wf', w, same, size⟩ | ⟨alloc', threw⟩
    · left
      simp only [none, ↓reduceIte, ok, peeked]
      rw [← taken] at size ⊢
      exact grown_store wf' w same size
    · right
      simp only [none, ↓reduceIte, threw]

theorem WF.advance_w (wf : b.WF) (n : Nat) :
    (b.advance n).2.w = (if (b.advance n).2.content = [] then 0 else b.w) ∧
      (b.advance n).2.data = b.data := by
  have rewound := wf.rewound_advance n
  split
  · rename_i none
    refine ⟨rewound none, ?_⟩
    unfold ByteBuf.advance
    dsimp only
    split <;> rfl
  · rename_i some
    unfold ByteBuf.advance at some ⊢
    dsimp only at some ⊢
    split
    · rename_i met
      rw [if_pos met] at some
      exact absurd rfl some
    · exact ⟨rfl, rfl⟩

end Growth

end ByteBuf

namespace Storage

/-- `w_` counts the bytes since the buffer was last empty, and the vector holds the most of them. -/
structure Counts (s : Storage) : Prop where
  wf : s.buf.WF
  rewound : s.buf.Rewound
  w : s.buf.w = s.since
  size : s.buf.data.length = s.most

section Runs

variable {s s' : Storage} {op : StorageOp} {ops : List StorageOp}

theorem Counts.same (counts : Counts s) (alloc : Allocator) : Counts (s.next s.buf alloc) := by
  have inside := counts.wf.inside
  have w := counts.w
  have size := counts.size
  have since : (s.next s.buf alloc).since = s.since := by
    unfold next
    dsimp only
    split
    · rename_i none
      rw [← w, counts.rewound none]
    · rw [Nat.sub_self, Nat.add_zero]
  refine ⟨counts.wf, counts.rewound, ?_, ?_⟩
  · rw [since]
    exact w
  · show s.buf.data.length = max s.most (s.next s.buf alloc).since
    rw [since]
    omega

theorem Counts.grown (counts : Counts s) {after : ByteBuf} {n : Nat}
    (grown : ByteBuf.Grown s.buf after n) (alloc : Allocator) : Counts (s.next after alloc) := by
  have w := grown.w
  have size := grown.size
  have length := grown.length
  have held := counts.wf.content_length
  rw [counts.w] at w size
  rw [counts.size] at size
  have rewound : after.Rewound := by
    intro none
    rw [none, List.length_nil] at length
    have empty : s.buf.content = [] := List.eq_nil_of_length_eq_zero (by omega)
    have zero := counts.rewound empty
    rw [counts.w] at zero
    omega
  have since : (s.next after alloc).since = s.since + n := by
    unfold next
    dsimp only
    split
    · rename_i none
      have zero := rewound none
      omega
    · rw [length, Nat.add_sub_cancel_left]
  refine ⟨grown.wf, rewound, ?_, ?_⟩
  · rw [since]
    exact w
  · show after.data.length = max s.most (s.next after alloc).since
    rw [since]
    exact size

theorem Counts.step (counts : Counts s) (taken : s.step op = some s') : Counts s' := by
  cases op with
  | append bytes =>
      obtain ⟨small, ⟨⟩⟩ := Option.ite_none_right_eq_some.mp taken
      rcases counts.wf.writeRaw_grown small s.alloc with grown | same
      · exact counts.grown grown _
      · rw [same]
        exact counts.same _
  | appendBuf src n =>
      obtain rfl := Option.some.inj taken
      rcases ByteBuf.write_grown src.wf counts.wf n s.alloc with grown | same
      · exact counts.grown grown _
      · rw [same]
        exact counts.same _
  | advance n =>
      obtain rfl := Option.some.inj taken
      obtain ⟨w, data⟩ := counts.wf.advance_w n
      have less : (s.buf.advance n).2.content.length - s.buf.content.length = 0 := by
        rw [counts.wf.content_advance, List.length_drop]
        omega
      have since : (s.next (s.buf.advance n).2 s.alloc).since =
          if (s.buf.advance n).2.content = [] then 0 else s.since := by
        unfold next
        rw [less, Nat.add_zero]
      have inside := counts.wf.inside
      rw [counts.w, counts.size] at inside
      refine ⟨counts.wf.advance n, counts.wf.rewound_advance n, ?_, ?_⟩
      · rw [since, ← counts.w]
        exact w
      · show (s.buf.advance n).2.data.length = max s.most (s.next (s.buf.advance n).2 s.alloc).since
        rw [data, since, counts.size]
        split <;> omega

/-- The storage is exactly as large as the longest stretch of appends between two moments at which
the buffer was empty, so it is bounded when these are. -/
theorem storage_eq_most {alloc : Allocator} (run : Exec (Of step) { alloc } ops s) :
    s.buf.data.length = s.most ∧ ∀ K,
      (∀ front back t, ops = front ++ back → Exec (Of step) { alloc } front t → t.since ≤ K) →
        s.buf.data.length ≤ K := by
  have counts := run.invariant Counts ⟨.empty, .empty, rfl, rfl⟩
    fun s op s' before taken => before.step taken
  refine ⟨counts.size, fun K bounded => ?_⟩
  rw [counts.size]
  clear counts
  induction run with
  | nil => exact Nat.zero_le K
  | @snoc labels state next label before taken ih =>
      have earlier := ih fun front back t cut reached =>
        bounded front (back ++ [label]) t (by rw [cut, List.append_assoc]) reached
      have last := bounded _ [] next (List.append_nil _).symm (before.snoc taken)
      have most : ∃ buf alloc', next = state.next buf alloc' := by
        cases label with
        | append bytes =>
            obtain ⟨-, ⟨⟩⟩ := Option.ite_none_right_eq_some.mp taken
            exact ⟨_, _, rfl⟩
        | appendBuf src n =>
            obtain rfl := Option.some.inj taken
            exact ⟨_, _, rfl⟩
        | advance n =>
            obtain rfl := Option.some.inj taken
            exact ⟨_, _, rfl⟩
      obtain ⟨buf, alloc', rfl⟩ := most
      exact Nat.max_le.mpr ⟨earlier, last⟩

end Runs

/-- Two bytes are appended, one is drained, one is appended: the longest stretch is three bytes. -/
theorem storage_eq_most_overlapping : ∃ ops s, Exec (Of step) { alloc := .unlimited } ops s ∧
    s.buf.data.length = s.most ∧ s.most = 3 := by
  have runs : (Transition.run step { alloc := .unlimited }
      [.append [7, 8], .advance 1, .append [9], .advance 2, .append [7]]).isSome = true := by
    decide +kernel
  have run := Transition.exec_of_isSome runs
  have eq := (storage_eq_most run).1
  refine ⟨_, _, run, eq, ?_⟩
  clear run eq
  revert runs
  decide +kernel

section Unbounded

variable {s s' : Storage}

theorem writeRaw_grants (b : ByteBuf) (bytes : List UInt8) (alloc : Allocator) :
    (b.writeRaw bytes alloc).2.2.grants = alloc.grants := by
  have resize (size : Nat) : (alloc.resize b.data size).2.grants = alloc.grants := by
    rcases alloc.resize_cases b.data size with ⟨eq, -⟩ | ⟨eq, -⟩
    · rw [eq]
    · rw [eq]
  have reserve : (b.reserve bytes.length alloc).2.2.grants = alloc.grants := by
    unfold ByteBuf.reserve
    split
    · rfl
    · have same := resize (addSize b.w bytes.length)
      split
      · rename_i eq
        rw [eq] at same
        exact same
      · rename_i eq
        rw [eq] at same
        exact same
  unfold ByteBuf.writeRaw
  split
  · rfl
  · split
    · rename_i eq
      rw [eq] at reserve
      exact reserve
    · rename_i eq
      rw [eq] at reserve
      exact reserve

/-- A state with some bytes and an allocator that refuses nothing. -/
structure Slides (s : Storage) (held since : Nat) : Prop where
  counts : Counts s
  granted : ∀ c, s.alloc.grants c = true
  held : s.buf.content.length = held
  since : s.since = since

/-- One more byte. -/
theorem Slides.append {held since : Nat} (slides : Slides s held since)
    (room : since + 1 ≤ maxSize) :
    ∃ s', s.step (.append [0]) = some s' ∧ Slides s' (held + 1) (since + 1) := by
  have counts := slides.counts
  have w : s.buf.w = since := counts.w.trans slides.since
  have fits : s.buf.Room [(0 : UInt8)].length s.alloc :=
    Or.inr ⟨by rw [w]; exact room, slides.granted _⟩
  have small : [(0 : UInt8)].length ≤ maxSize := by decide
  obtain ⟨after, alloc', ok, -, content⟩ := counts.wf.writeRaw_room [0] fits
  have taken : s.step (.append [0]) = some (s.next after alloc') := by
    rw [step, if_pos small, ok]
  have grants := writeRaw_grants s.buf [0] s.alloc
  have grown := counts.wf.writeRaw_grown small s.alloc
  rw [ok] at grants grown
  dsimp only at grants grown
  have length : after.content.length = held + 1 := by
    rw [content, List.length_append, slides.held]
    rfl
  have counts' := counts.step taken
  refine ⟨_, taken, counts', fun c => ?_, length, ?_⟩
  · show alloc'.grants c = true
    rw [grants]
    exact slides.granted c
  · rcases grown with grown | same
    · exact counts'.w.symm.trans (grown.w.trans (congrArg (· + 1) w))
    · have before := slides.held
      rw [← same, length] at before
      omega

/-- One byte less, of two. -/
theorem Slides.drain {since : Nat} (slides : Slides s 2 since) :
    ∃ s', s.step (.advance 1) = some s' ∧ Slides s' 1 since := by
  have counts := slides.counts
  have one : (s.buf.advance 1).2.content.length = 1 := by
    rw [counts.wf.content_advance, List.length_drop, slides.held]
  refine ⟨_, rfl, @Counts.step s _ (.advance 1) counts rfl, slides.granted, one, ?_⟩
  unfold next
  dsimp only
  rw [if_neg (List.ne_nil_of_length_pos (by omega)), one, slides.held]
  exact slides.since

/-- As many bytes as there is memory for may pass through a buffer that never holds more than
two. -/
theorem exists_slides (k : Nat) (room : 2 + k ≤ maxSize) : ∃ ops s,
    Exec (Guarded (Within 2) (Of step)) { alloc := .unlimited } ops s ∧ Slides s 2 (2 + k) := by
  induction k with
  | zero =>
      have start : Slides { alloc := .unlimited } 0 0 :=
        ⟨⟨.empty, .empty, rfl, rfl⟩, fun _ => rfl, rfl, rfl⟩
      obtain ⟨s, first, slides⟩ := start.append (by decide)
      obtain ⟨s', second, slides'⟩ := slides.append (by decide)
      have one : Within 2 s (.append [0]) := ⟨by decide, slides.held.symm ▸ by decide⟩
      exact ⟨_, s', (Exec.nil.snoc ⟨⟨by decide, by decide⟩, first⟩).snoc ⟨one, second⟩, slides'⟩
  | succ k ih =>
      obtain ⟨ops, s, run, slides⟩ := ih (by omega)
      obtain ⟨s', first, slides'⟩ := slides.drain
      obtain ⟨s'', second, slides''⟩ := slides'.append (by omega)
      have drains : Within 2 s (.advance 1) := ⟨by decide, slides.held.symm ▸ by decide⟩
      have appends : Within 2 s' (.append [0]) := ⟨by decide, slides'.held.symm ▸ by decide⟩
      exact ⟨_, s'', (run.snoc ⟨drains, first⟩).snoc ⟨appends, second⟩, slides''⟩

/-- No bound below the size that any vector has: at most two bytes are held and appended at a time,
and the storage grows with every byte. -/
theorem storage_grows_with_history : ¬ ∀ B, ∃ C < maxSize, ∀ alloc ops s,
    Exec (Guarded (Within B) (Of step)) { alloc } ops s → s.buf.data.length ≤ C := by
  intro bounded
  obtain ⟨C, below, bound⟩ := bounded 2
  have some : 1 < maxSize := by decide
  obtain ⟨ops, s, run, slides⟩ := exists_slides (C - 1) (by omega)
  have inside := slides.counts.wf.inside
  rw [slides.counts.w, slides.since] at inside
  have most := bound _ ops s run
  omega

end Unbounded

end Storage

end Getrafty
