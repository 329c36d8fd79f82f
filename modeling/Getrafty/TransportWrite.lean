import Getrafty.ByteBufferReserve
import Getrafty.TransportOutbound

set_option autoImplicit false

namespace Getrafty

open Words (toInt32)

namespace Transport

/-- A result that is not negative is the number of bytes that moved from the head of `buf` to
`wbuf_`; after a negative one neither has changed. -/
def AllOrNothing (t : Transport) (buf : ByteBuf) : Prop :=
  ∃ t' left ret, t.write buf = (t', [.wrote buf.content left ret]) ∧
    (0 ≤ ret → ret ≤ buf.content.length ∧ left.content = buf.content.drop ret.toNat ∧
      t'.wbuf.content = t.wbuf.content ++ buf.content.take ret.toNat) ∧
    (ret < 0 → left = buf ∧ t'.wbuf = t.wbuf)

/-- All of the bytes are appended and their number is an `int`, or none is and the number, cut to
an `int`, is zero or negative. -/
def Answers (t : Transport) (size : Nat) : Prop :=
  size = 0 ∨ if t.wbuf.Room size t.alloc then size < 2 ^ 31
    else size % 2 ^ 32 = 0 ∨ 2 ^ 31 ≤ size % 2 ^ 32

instance (t : Transport) (size : Nat) : Decidable (t.Answers size) :=
  inferInstanceAs (Decidable (_ ∨ _))

section Narrowing

theorem toInt32_low {n : Nat} (low : n % 2 ^ 32 < 2 ^ 31) : toInt32 n = (n % 2 ^ 32 : Nat) := by
  unfold toInt32
  rw [Int.bmod_def]
  omega

theorem toInt32_high {n : Nat} (high : 2 ^ 31 ≤ n % 2 ^ 32) : toInt32 n < 0 := by
  unfold toInt32
  rw [Int.bmod_def]
  omega

theorem toInt32_size {size : Nat} (nonneg : 0 ≤ toInt32 size)
    (whole : size ≤ (toInt32 size).toNat) :
    size < 2 ^ 31 := by
  by_contra large
  rcases Nat.lt_or_ge (size % 2 ^ 32) (2 ^ 31) with low | high
  · rw [toInt32_low low] at whole
    omega
  · exact absurd (toInt32_high high) (Int.not_lt.mpr nonneg)

end Narrowing

section Write

variable {t : Transport} {buf : ByteBuf}

theorem write_nothing (wf : buf.WF) (none : buf.content.length = 0) :
    t.write buf = (t, [.wrote buf.content buf 0]) := by
  unfold write
  rw [wf.readableBytes_eq, if_pos none]

theorem write_some (wf : buf.WF) (some : buf.content.length ≠ 0) :
    t.write buf =
      ({ t with
        wbuf := (ByteBuf.transfer buf t.wbuf buf.content.length t.alloc).dst
        alloc := (ByteBuf.transfer buf t.wbuf buf.content.length t.alloc).alloc }.watchWritable,
        [.wrote buf.content (ByteBuf.transfer buf t.wbuf buf.content.length t.alloc).src
          (toInt32 buf.content.length)]) := by
  unfold write
  rw [wf.readableBytes_eq, if_neg some]
  rfl

theorem watchWritable_wbuf (t : Transport) : t.watchWritable.wbuf = t.wbuf := by
  rw [watchWritable_eq]

/-- Where the result is what it should be. -/
theorem allOrNothing_of_some (wf : buf.WF) (some : buf.content.length ≠ 0) :
    t.AllOrNothing buf ↔
      (0 ≤ toInt32 buf.content.length →
        (ByteBuf.transfer buf t.wbuf buf.content.length t.alloc).src.content =
            buf.content.drop (toInt32 buf.content.length).toNat ∧
          (ByteBuf.transfer buf t.wbuf buf.content.length t.alloc).dst.content =
            t.wbuf.content ++ buf.content.take (toInt32 buf.content.length).toNat) ∧
      (toInt32 buf.content.length < 0 →
        (ByteBuf.transfer buf t.wbuf buf.content.length t.alloc).src = buf ∧
          (ByteBuf.transfer buf t.wbuf buf.content.length t.alloc).dst = t.wbuf) := by
  rw [AllOrNothing, write_some wf some]
  constructor
  · rintro ⟨t', left, ret, eq, kept, failed⟩
    obtain ⟨rfl, wrote⟩ := Prod.mk.inj eq
    obtain ⟨-, rfl, rfl⟩ := Observation.wrote.inj (List.singleton_inj.mp wrote)
    rw [watchWritable_wbuf] at kept failed
    exact ⟨fun nonneg => (kept nonneg).2, failed⟩
  · rintro ⟨kept, failed⟩
    refine ⟨_, _, _, rfl, fun nonneg => ⟨?_, ?_⟩, fun negative => ?_⟩
    · rcases Nat.lt_or_ge (buf.content.length % 2 ^ 32) (2 ^ 31) with low | high
      · rw [toInt32_low low]
        exact Int.ofNat_le.mpr (Nat.mod_le _ _)
      · exact absurd (toInt32_high high) (Int.not_lt.mpr nonneg)
    · rw [watchWritable_wbuf]
      exact kept nonneg
    · rw [watchWritable_wbuf]
      exact failed negative

/-- `write` answers truly when the append succeeds and its size is an `int`; when the append fails
only if the size, cut to an `int`, looks like a failure or like nothing. -/
theorem write_allOrNothing_iff (t : Transport) (wf : t.wbuf.WF) (wfBuf : buf.WF) :
    t.AllOrNothing buf ↔ t.Answers buf.content.length := by
  by_cases none : buf.content.length = 0
  · refine ⟨fun _ => Or.inl none, fun _ => ⟨t, buf, 0, write_nothing wfBuf none, fun _ => ?_, ?_⟩⟩
    · refine ⟨Int.natCast_nonneg _, rfl, ?_⟩
      exact (List.append_nil _).symm
    · intro negative
      exact absurd negative (by decide)
  · rw [allOrNothing_of_some wfBuf none, Answers, or_iff_right none]
    have whole : min buf.content.length buf.content.length = buf.content.length := Nat.min_self _
    by_cases room : t.wbuf.Room buf.content.length t.alloc
    · rw [if_pos room]
      have moves := ByteBuf.transfer_room wfBuf wf t.alloc (whole.symm ▸ room)
      have drained := moves.srcContent
      have appended := moves.dstContent
      rw [List.drop_length] at drained
      rw [List.take_length] at appended
      constructor
      · rintro ⟨kept, failed⟩
        rcases Int.lt_or_le (toInt32 buf.content.length) 0 with negative | nonneg
        · have same := (failed negative).1
          rw [same] at drained
          exact absurd (List.length_eq_zero_iff.mpr drained) none
        · have left := (kept nonneg).1
          rw [drained] at left
          exact toInt32_size nonneg (List.drop_eq_nil_iff.mp left.symm)
      · intro small
        have ret := Words.toInt32_eq small
        rw [ret, Int.toNat_natCast, List.drop_length, List.take_length]
        refine ⟨fun _ => ⟨drained, appended⟩, fun negative => ?_⟩
        exact absurd negative (Int.not_lt.mpr (Int.natCast_nonneg _))
    · rw [if_neg room]
      obtain ⟨alloc', stuck⟩ := ByteBuf.transfer_stuck wfBuf wf t.alloc (whole.symm ▸ none)
        (whole.symm ▸ room)
      rw [stuck]
      dsimp only
      constructor
      · rintro ⟨kept, -⟩
        rcases Nat.lt_or_ge (buf.content.length % 2 ^ 32) (2 ^ 31) with low | high
        · left
          rw [toInt32_low low, Int.toNat_natCast] at kept
          have same := congrArg List.length (kept (Int.natCast_nonneg _)).1
          rw [List.length_drop] at same
          omega
        · exact Or.inr high
      · rintro (zero | high)
        · have ret : toInt32 buf.content.length = 0 := by
            rw [toInt32_low (by omega), zero]
            rfl
          rw [ret]
          refine ⟨fun _ => ⟨rfl, (List.append_nil _).symm⟩, fun negative => ?_⟩
          exact absurd negative (by decide)
        · have ret := toInt32_high high
          exact ⟨fun nonneg => absurd ret (Int.not_lt.mpr nonneg), fun _ => ⟨rfl, rfl⟩⟩

end Write

/-- A transport that may or may not grow its buffer. -/
def fresh (alloc : Allocator) : Transport := (start 9 3 alloc).transport

theorem write_allOrNothing_iff_granted :
    (fresh .unlimited).AllOrNothing { w := 2, data := [7, 8] } :=
  (write_allOrNothing_iff (fresh .unlimited) .empty ⟨by decide, by decide, by decide⟩).mpr
    (by decide)

/-- An append that finds no memory is reported as one byte written. -/
theorem write_claims_lost_byte : ¬ ∀ (t : Transport) (buf : ByteBuf), t.wbuf.WF → buf.WF →
    t.AllOrNothing buf := by
  intro truthful
  obtain ⟨t', left, ret, eq, kept, -⟩ := truthful (fresh { grants := fun _ => false })
    { w := 1, data := [7] } .empty ⟨by decide, by decide, by decide⟩
  obtain ⟨-, wrote⟩ := Prod.mk.inj eq
  obtain ⟨-, same, one⟩ := Observation.wrote.inj (List.singleton_inj.mp wrote)
  rw [← same, ← one] at kept
  exact absurd (kept (by decide)).2.1 (by decide)

end Transport

end Getrafty
