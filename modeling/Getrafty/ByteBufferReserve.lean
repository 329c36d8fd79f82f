import Getrafty.ByteBufferQueue

set_option autoImplicit false

namespace Getrafty

open Words (addSize subSize addSize_eq subSize_eq sizeRange)

/-- The next `resize` succeeds, if it is to this size. -/
def Allocator.Resizes (alloc : Allocator) (size : Nat) : Prop :=
  size ≤ maxSize ∧ alloc.grants alloc.calls = true

instance (alloc : Allocator) (size : Nat) : Decidable (alloc.Resizes size) :=
  inferInstanceAs (Decidable (_ ∧ _))

namespace ByteBuf

/-- What `reserve` returns is true of the buffer, and nothing else about it changed. -/
structure Truthful (b : ByteBuf) (n : Nat) (alloc : Allocator) : Prop where
  enough : (b.reserve n alloc).1 = true → n ≤ (b.reserve n alloc).2.1.writableBytes
  r : (b.reserve n alloc).2.1.r = b.r
  w : (b.reserve n alloc).2.1.w = b.w
  content : (b.reserve n alloc).2.1.content = b.content
  ordered : (b.reserve n alloc).2.1.r ≤ (b.reserve n alloc).2.1.w
  inside : (b.reserve n alloc).2.1.w ≤ (b.reserve n alloc).2.1.data.length

/-- There is room for `n` bytes, or there will be. -/
def Room (b : ByteBuf) (n : Nat) (alloc : Allocator) : Prop :=
  n ≤ b.writableBytes ∨ alloc.Resizes (b.w + n)

instance (b : ByteBuf) (n : Nat) (alloc : Allocator) : Decidable (b.Room n alloc) :=
  inferInstanceAs (Decidable (_ ∨ _))

section Reserve

variable {b : ByteBuf} {n : Nat}

theorem reserve_spare (spare : n ≤ b.writableBytes) (alloc : Allocator) :
    b.reserve n alloc = (true, b, alloc) := by
  simp only [reserve, spare, ↓reduceIte]

/-- Without enough room, `reserve` resizes to the sum modulo 2^64. -/
theorem reserve_short (short : ¬ n ≤ b.writableBytes) (alloc : Allocator) :
    (alloc.Resizes (addSize b.w n) ∧ ∃ alloc', b.reserve n alloc =
        (true, { b with data := b.data.take (addSize b.w n) ++
          List.replicate (addSize b.w n - b.data.length) 0 }, alloc')) ∨
      (¬ alloc.Resizes (addSize b.w n) ∧ ∃ alloc', b.reserve n alloc = (false, b, alloc')) := by
  by_cases resizes : alloc.Resizes (addSize b.w n)
  · have granted := resizes
    unfold Allocator.Resizes at granted
    refine Or.inl ⟨resizes, { alloc with calls := alloc.calls + 1 }, ?_⟩
    simp only [reserve, short, ↓reduceIte, Allocator.resize, granted, and_self]
  · have refused := resizes
    unfold Allocator.Resizes at refused
    refine Or.inr ⟨resizes, { alloc with calls := alloc.calls + 1, refused := alloc.refused + 1 },
      ?_⟩
    simp only [reserve, short, ↓reduceIte, Allocator.resize, refused]

theorem truthful_same {alloc : Allocator} {ok : Bool} {alloc' : Allocator}
    (same : b.reserve n alloc = (ok, b, alloc')) (ordered : b.r ≤ b.w)
    (inside : b.w ≤ b.data.length) (enough : ok = true → n ≤ b.writableBytes) :
    b.Truthful n alloc := by
  refine ⟨?_, ?_, ?_, ?_, ?_, ?_⟩
  · rw [same]
    exact enough
  · rw [same]
  · rw [same]
  · rw [same]
  · rw [same]
    exact ordered
  · rw [same]
    exact inside

theorem resized_length (data : List UInt8) (size : Nat) :
    (data.take size ++ List.replicate (size - data.length) 0).length = size := by
  rw [List.length_append, List.length_take, List.length_replicate]
  omega

/-- Growing keeps what was written. -/
theorem content_grown (inside : b.w ≤ b.data.length) (size : Nat) (grows : b.data.length ≤ size) :
    ByteBuf.content { b with data := b.data.take size ++ List.replicate (size - b.data.length) 0 } =
      b.content := by
  have front : (b.data ++ List.replicate (size - b.data.length) 0).take b.w = b.data.take b.w :=
    List.take_append_of_le_length inside
  unfold content
  dsimp only
  rw [List.take_of_length_le grows, ← List.drop_take, ← List.drop_take, front]

/-- A vector that is cut below `w_`. -/
theorem not_truthful_cut {alloc alloc' : Allocator} {data : List UInt8}
    (cut : b.reserve n alloc = (true, { b with data }, alloc')) (short : data.length < b.w) :
    ¬ b.Truthful n alloc := by
  intro truthful
  have still := truthful.inside
  rw [cut] at still
  exact absurd still (Nat.not_le.mpr short)

/-- `reserve` tells the truth unless the sum of `w_` and `n` wraps and the vector is then cut. -/
theorem reserve_truthful_iff (ordered : b.r ≤ b.w) (inside : b.w ≤ b.data.length)
    (sized : b.data.length < 2 ^ 64) (range : n < 2 ^ 64) (alloc : Allocator) :
    b.Truthful n alloc ↔ ¬ (2 ^ 64 ≤ b.w + n ∧ alloc.Resizes (b.w + n - 2 ^ 64)) := by
  have range_eq : sizeRange = 2 ^ 64 := rfl
  have writable : b.writableBytes = b.data.length - b.w := subSize_eq inside (by omega)
  by_cases spare : n ≤ b.writableBytes
  · have truthful := truthful_same (reserve_spare spare alloc) ordered inside fun _ => spare
    refine ⟨fun _ wraps => ?_, fun _ => truthful⟩
    omega
  · by_cases wraps : 2 ^ 64 ≤ b.w + n
    · have sum : addSize b.w n = b.w + n - 2 ^ 64 := by
        rw [addSize, range_eq, Nat.mod_eq_sub_mod wraps]
        exact Nat.mod_eq_of_lt (by omega)
      have below : b.w + n - 2 ^ 64 < b.w := by omega
      generalize b.w + n - 2 ^ 64 = size at sum below ⊢
      rcases reserve_short spare alloc with ⟨resizes, alloc', cut⟩ | ⟨refused, alloc', same⟩
      · rw [sum] at resizes cut
        have lying := not_truthful_cut cut (by rw [resized_length]; exact below)
        exact ⟨fun truthful => absurd truthful lying, fun kept => absurd ⟨wraps, resizes⟩ kept⟩
      · rw [sum] at refused
        exact ⟨fun _ both => refused both.2,
          fun _ => truthful_same same ordered inside fun ok => by cases ok⟩
    · have sum : addSize b.w n = b.w + n := addSize_eq (by omega)
      refine ⟨fun _ both => wraps both.1, fun _ => ?_⟩
      rcases reserve_short spare alloc with ⟨-, alloc', grown⟩ | ⟨-, alloc', same⟩
      · rw [sum] at grown
        have size := resized_length b.data (b.w + n)
        refine ⟨fun _ => ?_, ?_, ?_, ?_, ?_, ?_⟩
        · rw [grown]
          simp only [writableBytes, size]
          rw [subSize_eq (by omega) (by omega)]
          omega
        · rw [grown]
        · rw [grown]
        · rw [grown]
          exact content_grown inside _ (by omega)
        · rw [grown]
          exact ordered
        · rw [grown]
          dsimp only
          omega
      · exact truthful_same same ordered inside fun ok => by cases ok

end Reserve

theorem reserve_truthful_iff_grows : ByteBuf.Truthful { w := 1, data := [7] } 4 .unlimited :=
  (@reserve_truthful_iff { w := 1, data := [7] } 4 (by decide) (by decide) (by decide) (by decide)
    .unlimited).mpr (by decide)

/-- A sum that wraps to zero empties the vector below `w_`, and `reserve` reports success. -/
theorem reserve_wraps : ¬ ∀ (b : ByteBuf) (n : Nat) (alloc : Allocator), b.r ≤ b.w →
    b.w ≤ b.data.length → b.data.length < 2 ^ 64 → n < 2 ^ 64 → b.Truthful n alloc := by
  intro truthful
  have cut := (truthful { w := 1, data := [7] } (2 ^ 64 - 1) .unlimited (by decide) (by decide)
    (by decide) (by decide)).inside
  exact absurd cut (by decide)

section Transfer

variable {src dst : ByteBuf} {n : Nat}

/-- A buffer that was not moved from says truly whether there is room. -/
theorem WF.reserve_room {b : ByteBuf} (wf : b.WF) (small : n ≤ maxSize) (alloc : Allocator) :
    (b.reserve n alloc).1 = true ↔ b.Room n alloc := by
  have inside := wf.inside
  have bounded := wf.bounded
  have below : 2 * maxSize < sizeRange := by decide
  have sum : addSize b.w n = b.w + n := addSize_eq (by omega)
  by_cases spare : n ≤ b.writableBytes
  · rw [reserve_spare spare]
    exact ⟨fun _ => Or.inl spare, fun _ => rfl⟩
  · rcases reserve_short spare alloc with ⟨resizes, alloc', grown⟩ | ⟨refused, alloc', same⟩
    · rw [grown]
      exact ⟨fun _ => Or.inr (sum ▸ resizes), fun _ => rfl⟩
    · rw [same]
      refine ⟨(fun ok => by cases ok), fun room => ?_⟩
      exact absurd (room.resolve_left spare) (sum ▸ refused)

/-- A transfer for which there is room moves all it can. -/
theorem transfer_room (wfSrc : src.WF) (wfDst : dst.WF) (alloc : Allocator)
    (room : dst.Room (min n src.content.length) alloc) :
    Moves src dst n alloc (transfer src dst n alloc) := by
  have small : min n src.content.length ≤ maxSize := (Nat.min_le_right _ _).trans wfSrc.content_le
  have granted := (wfDst.reserve_room small alloc).mpr room
  rcases transfer_cases wfSrc wfDst n alloc with moves | ⟨alloc', refused, -, more, -⟩
  · exact moves
  · exfalso
    unfold transfer at refused
    dsimp only at refused
    rw [wfSrc.readableBytes_eq] at refused
    split at refused
    · rw [Transfer.mk.injEq] at refused
      rw [refused.2.2.2] at more
      omega
    · rename_i some
      split at refused
      · rename_i eq
        rw [eq] at granted
        cases granted
      · rw [Transfer.mk.injEq] at refused
        exact some refused.1

/-- A transfer for which there is none leaves both buffers as they are. -/
theorem transfer_stuck (wfSrc : src.WF) (wfDst : dst.WF) (alloc : Allocator)
    (some : min n src.content.length ≠ 0) (stuck : ¬ dst.Room (min n src.content.length) alloc) :
    ∃ alloc', transfer src dst n alloc = ⟨0, src, dst, alloc'⟩ := by
  have small : min n src.content.length ≤ maxSize := (Nat.min_le_right _ _).trans wfSrc.content_le
  rcases wfDst.reserve_cases small alloc with ⟨grown, alloc', ok, -⟩ | ⟨alloc', threw, -⟩
  · exact absurd ((wfDst.reserve_room small alloc).mp (by rw [ok])) stuck
  · refine ⟨alloc', ?_⟩
    simp only [transfer, wfSrc.readableBytes_eq, some, ↓reduceIte, threw]

end Transfer

end ByteBuf

end Getrafty
