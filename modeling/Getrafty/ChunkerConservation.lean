import Getrafty.ChunkerSegmentation

set_option autoImplicit false

namespace Getrafty

open Words (bytesLE)
open Framing (Format Signal)

theorem chunkFormat_canonical (header : List UInt8) (length : header.length = chunkFormat.width) :
    chunkFormat.header (chunkFormat.size header) = header := by
  match header, length with
  | [b0, b1, b2, b3], _ => exact Words.bytesLE_wordLE b0 b1 b2 b3

/-- No length field of the stream is above the limit. -/
def WithinLimit (stream : List UInt8) : Prop :=
  ∀ bodies header rest, stream = chunkFormat.encodeAll bodies ++ (header ++ rest) →
    (∀ body ∈ bodies, body.length ≤ kChunkLimit) → header.length = 4 →
      chunkFormat.size header ≤ kChunkLimit

theorem WithinLimit.accepted {stream : List UInt8} (within : WithinLimit stream) :
    (chunkFormat.scan stream).rejected = false := by
  by_contra refused
  obtain ⟨bodies, header, rest, whole, bounded, length, above⟩ :=
    Format.scan_encodeAll_rejected chunkFormat_canonical stream (eq_true_of_ne_false refused)
  exact Nat.not_le.mpr above (within bodies header rest whole bounded length)

theorem withinLimit_of_accepted {stream : List UInt8}
    (accepted : (chunkFormat.scan stream).rejected = false) : WithinLimit stream := by
  intro bodies header rest whole bounded length
  by_contra above
  have scanned := Chunker.scan_hidden bodies bounded length (Nat.not_le.mp above) rest
  rw [← whole] at scanned
  rw [scanned] at accepted
  cases accepted

namespace Chunker

/-- The header that was read, as it was received. -/
def header (c : Chunker) : List UInt8 := if c.pending = 0 then [] else bytesLE c.pending

/-- Less than a header is left, or less than the chunk that a header announced. -/
def Minimal (c : Chunker) : Prop :=
  (c.pending = 0 ∧ c.in_.content.length < 4) ∨
    (0 < c.pending ∧ c.pending ≤ kChunkLimit ∧ c.in_.content.length < c.pending)

instance (c : Chunker) : Decidable (Minimal c) := inferInstanceAs (Decidable (_ ∨ _))

section Residue

variable {c : Chunker} {carry : List UInt8}

theorem minimal_fresh : Minimal {} := Or.inl ⟨rfl, by decide⟩

theorem Carries.stop_minimal (carries : Carries c carry) {alloc : Allocator} {c' : Chunker}
    (stopped : c.turn alloc = .stop c') : Minimal c' := by
  rcases carries.readHeader_cases with
    ⟨missing, few⟩ | ⟨header, rest, tooLong, -⟩ | ⟨ready, read, wf, -, bounded, -⟩
  · have zero : c.pending = 0 := by
      by_contra pending
      simp only [readHeader, pending, ↓reduceIte, reduceCtorEq] at missing
    simp only [turn, missing, Turn.stop.injEq] at stopped
    rw [carries.carry_eq, if_pos zero, List.nil_append] at few
    rw [← stopped]
    exact Or.inl ⟨zero, few⟩
  · simp only [turn, tooLong, reduceCtorEq] at stopped
  · simp only [turn, read, wf.readableBytes_eq] at stopped
    split at stopped
    · rename_i short
      rw [Turn.stop.injEq] at stopped
      rw [← stopped]
      exact Or.inr ⟨Nat.zero_lt_of_lt short, bounded, short⟩
    · cases stopped

/-- The loop ends where the residue is minimal. -/
theorem Carries.decode_minimal (carries : Carries c carry) {fuel : Nat}
    (enough : carry.length < 4 * fuel) (alloc : Allocator) :
    Minimal (decode fuel c alloc).chunker := by
  induction fuel generalizing c carry alloc with
  | zero => omega
  | succ fuel ih =>
      rcases carries.turn_cases alloc with
        ⟨c', stopped, -, -⟩ | ⟨rest, rejected, -⟩ |
          ⟨c', payload, alloc', body, rest, fired, frame, -, zero, carries', result⟩
      · simp only [decode, stopped]
        exact carries.stop_minimal stopped
      · simp only [decode, rejected]
        exact minimal_fresh
      · have length := Format.head_frame_length frame
        have width : chunkFormat.width = 4 := rfl
        have shorter : c'.in_.content.length + 4 ≤ carry.length := by
          rcases result with ⟨-, restEq, -, -⟩ | ⟨-, shorter, -⟩
          · rw [restEq]
            omega
          · exact shorter
        rw [decode, fired, Outcome.after_chunker]
        exact ih carries' (by omega) alloc'

theorem Carries.onInbound_minimal (carries : Carries c carry) {evt : ByteBuf} (wf : evt.WF)
    (alloc : Allocator) : Minimal (c.onInbound evt alloc).chunker := by
  obtain ⟨in_, alloc', dst, left, -, result⟩ := carries.write_cases wf alloc
  simp only [onInbound, dst, left]
  rcases result with ⟨-, carries'⟩ | ⟨-, rfl, -⟩
  · have readable := carries'.wf.readableBytes_eq
    have length := carries'.length_le
    dsimp only at readable length
    exact carries'.decode_minimal (by simp only [turns, readable]; omega) alloc'
  · have readable := carries.wf.readableBytes_eq
    have length := carries.length_le
    exact carries.decode_minimal (by simp only [turns, readable]; omega) alloc'

theorem Carries.receive_minimal (carries : Carries c carry) (minimal : Minimal c)
    (events : List LiveBuf) (alloc : Allocator) : Minimal (c.receive events alloc).chunker := by
  induction events generalizing c carry alloc with
  | nil =>
      rw [receive_nil]
      exact minimal
  | cons evt events ih =>
      obtain ⟨⟨carry', first⟩, -⟩ := carries.onInbound_sound evt.wf alloc
      rw [receive_cons, Outcome.after_chunker]
      exact ih first (carries.onInbound_minimal evt.wf alloc) _

/-- Whatever is received and whatever the allocator does, the loop ends by itself. -/
theorem Carries.onInbound_ends (carries : Carries c carry) {evt : ByteBuf} (wf : evt.WF)
    (alloc : Allocator) (more : Nat) :
    decode (turns { c with in_ := (c.in_.write evt evt.readableBytes alloc).dst } + more)
        { c with in_ := (c.in_.write evt evt.readableBytes alloc).dst }
        (c.in_.write evt evt.readableBytes alloc).alloc =
      c.onInbound evt alloc := by
  obtain ⟨in_, alloc', dst, left, -, result⟩ := carries.write_cases wf alloc
  simp only [onInbound, dst, left]
  rcases result with ⟨-, carries'⟩ | ⟨-, rfl, -⟩
  · exact carries'.decode_turns more alloc'
  · exact carries.decode_turns more alloc'

end Residue

/-- Every byte of a stream within the limit is in a chunk that was fired, in the header that was
read or in the buffer; what is left is minimal, and no event is decoded without end. -/
theorem receive_conserves (events : List LiveBuf) (alloc : Allocator)
    (granted : (receive {} events alloc).alloc.refused = alloc.refused)
    (within : WithinLimit (LiveBuf.stream events)) :
    chunkFormat.encodeAll (StageAction.chunks (receive {} events alloc).actions) ++
          ((receive {} events alloc).chunker.header ++
            (receive {} events alloc).chunker.in_.content) = LiveBuf.stream events ∧
      Minimal (receive {} events alloc).chunker ∧
      ∀ (evt : LiveBuf) (alloc' : Allocator) (more : Nat),
        let c := (receive {} events alloc).chunker
        let received := c.in_.write evt.toByteBuf evt.readableBytes alloc'
        decode (turns { c with in_ := received.dst } + more) { c with in_ := received.dst }
            received.alloc = c.onInbound evt.toByteBuf alloc' := by
  obtain ⟨carries, signals⟩ := Carries.fresh.receive_feedAll events alloc granted
  have accepted := within.accepted
  have fed : chunkFormat.feedAll [] (events.map (fun evt => evt.content)) =
      ((chunkFormat.scan (LiveBuf.stream events)).rest,
        (chunkFormat.scan (LiveBuf.stream events)).frames.map .chunk) :=
    Format.feedAll_accepted [] _ (Format.head_of_length chunkFormat.width_pos) accepted
  refine ⟨?_, Carries.fresh.receive_minimal minimal_fresh events alloc, fun evt alloc' more => ?_⟩
  · have rest := carries.carry_eq
    rw [fed] at rest signals
    have frames : StageAction.chunks (receive {} events alloc).actions =
        (chunkFormat.scan (LiveBuf.stream events)).frames := by
      rw [StageAction.chunks_eq, signals]
      exact Signal.chunks_map_chunk _
    rw [frames]
    refine Eq.trans ?_ (Format.scan_encodeAll chunkFormat_canonical _ accepted).symm
    exact congrArg _ rest.symm
  · exact carries.onInbound_ends evt.wf alloc' more

theorem receive_conserves_splitFrames :
    let events := [LiveBuf.ofBytes [0, 0, 0] (by decide), .ofBytes [0, 2, 0, 0, 0, 7] (by decide)]
    let outcome := receive {} events .unlimited
    chunkFormat.encodeAll (StageAction.chunks outcome.actions) = [0, 0, 0, 0] ∧
      outcome.chunker.header = [2, 0, 0, 0] ∧ outcome.chunker.in_.content = [7] ∧
      chunkFormat.encodeAll (StageAction.chunks outcome.actions) ++
          (outcome.chunker.header ++ outcome.chunker.in_.content) = LiveBuf.stream events := by
  have first : chunkFormat.head [0, 0, 0, 0, 2, 0, 0, 0, 7] = .frame [] [2, 0, 0, 0, 7] := rfl
  have second : chunkFormat.head [2, 0, 0, 0, 7] = .short := rfl
  have within : WithinLimit [0, 0, 0, 0, 2, 0, 0, 0, 7] := by
    apply withinLimit_of_accepted
    rw [Format.scan_frame first, Format.scan_short second]
  refine ⟨by decide, by decide, by decide, ?_⟩
  exact (receive_conserves [.ofBytes [0, 0, 0] (by decide), .ofBytes [0, 2, 0, 0, 0, 7] (by decide)]
    .unlimited (by decide) within).1

end Chunker

end Getrafty
