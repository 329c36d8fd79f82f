import Getrafty.Lib.Framing
import Getrafty.Chunker

set_option autoImplicit false

namespace Getrafty

open Words (bytesLE wordLE bytesLE_wordLE wordLE_bytesLE)
open Framing (Format Signal)

/-- The wire format: a little-endian length, then the chunk. -/
def chunkFormat : Format UInt8 where
  width := 4
  limit := kChunkLimit
  header := bytesLE
  size
    | [b0, b1, b2, b3] => wordLE b0 b1 b2 b3
    | _ => 0
  width_pos := by decide
  header_length := fun _ => rfl
  size_header := fun n bounded => wordLE_bytesLE n (Nat.lt_of_le_of_lt bounded (by decide))

theorem chunkFormat_size_bytesLE {word : Nat} (bounded : word ≤ kChunkLimit) :
    chunkFormat.size (bytesLE word) = word :=
  chunkFormat.size_header word bounded

/-- An action as a signal of the abstract reader; outbound frames are none. -/
def StageAction.signal : StageAction → Option (Signal UInt8)
  | .fireInbound buf => some (.chunk buf.content)
  | .fireOutbound _ => none
  | .failure _ => some .reject

namespace StageAction

def signals (actions : List StageAction) : List (Signal UInt8) := actions.filterMap signal

@[simp] theorem signals_append (front back : List StageAction) :
    signals (front ++ back) = signals front ++ signals back := by
  simp only [signals, List.filterMap_append]

theorem chunks_eq (actions : List StageAction) :
    chunks actions = Signal.chunks (signals actions) := by
  induction actions with
  | nil => rfl
  | cons action actions ih =>
      cases action with
      | fireInbound buf => exact congrArg (buf.content :: ·) ih
      | fireOutbound buf => exact ih
      | failure what => exact ih

@[simp] theorem chunks_append (front back : List StageAction) :
    chunks (front ++ back) = chunks front ++ chunks back := by
  simp only [chunks_eq, signals_append, Signal.chunks_append]

theorem wire_append (front back : List StageAction) :
    wire (front ++ back) = wire front ++ wire back := by
  induction front with
  | nil => rfl
  | cons action front ih =>
      cases action with
      | fireOutbound buf => simp only [List.cons_append, wire, ih, List.append_assoc]
      | fireInbound buf => exact ih
      | failure what => exact ih

end StageAction

namespace Chunker

namespace Outcome

variable (actions : List StageAction) (rest : Outcome)

theorem after_chunker : (rest.after actions).chunker = rest.chunker := by rw [after]

theorem after_actions : (rest.after actions).actions = actions ++ rest.actions := by rw [after]

theorem after_alloc : (rest.after actions).alloc = rest.alloc := by rw [after]

theorem after_nil : rest.after [] = rest := by rw [after, List.nil_append]

theorem after_after (prior : List StageAction) :
    (rest.after actions).after prior = rest.after (prior ++ actions) := by
  simp only [after, List.append_assoc]

end Outcome

/-- The bytes received since the last frame boundary: the header, once it was read,
and what the input buffer holds. -/
structure Carries (c : Chunker) (carry : List UInt8) : Prop where
  wf : c.in_.WF
  rewound : c.in_.Rewound
  bounded : c.pending ≤ kChunkLimit
  carry_eq : carry = (if c.pending = 0 then [] else bytesLE c.pending) ++ c.in_.content

theorem Carries.fresh : Carries {} [] :=
  ⟨ByteBuf.WF.empty, ByteBuf.Rewound.empty, Nat.zero_le _, rfl⟩

theorem Carries.of_pending_zero {c : Chunker} (wf : c.in_.WF) (rewound : c.in_.Rewound)
    (zero : c.pending = 0) : Carries c c.in_.content :=
  ⟨wf, rewound, by omega, by simp only [zero, ↓reduceIte, List.nil_append]⟩

theorem Carries.length_le {c : Chunker} {carry : List UInt8} (carries : Carries c carry) :
    carry.length ≤ c.in_.content.length + 4 := by
  rw [carries.carry_eq]
  split
  · simp
  · simp
    omega

private theorem four_le {bytes : List UInt8} (long : 4 ≤ bytes.length) :
    ∃ b0 b1 b2 b3 rest, bytes = b0 :: b1 :: b2 :: b3 :: rest := by
  match bytes, long with
  | b0 :: b1 :: b2 :: b3 :: rest, _ => exact ⟨b0, b1, b2, b3, rest, rfl⟩

/-- The header part waits for four bytes, rejects a length above the limit, or ends with
the header in `pending`. -/
theorem Carries.readHeader_cases {c : Chunker} {carry : List UInt8} (carries : Carries c carry) :
    (c.readHeader = .missing ∧ carry.length < 4) ∨
      (∃ header rest, c.readHeader = .tooLong ∧ carry = header ++ rest ∧
        header.length = 4 ∧ kChunkLimit < chunkFormat.size header) ∨
      ∃ c', c.readHeader = .ready c' ∧ c'.in_.WF ∧ c'.in_.Rewound ∧ c'.pending ≤ kChunkLimit ∧
        carry = bytesLE c'.pending ++ c'.in_.content := by
  have wf := carries.wf
  have same := carries.carry_eq
  by_cases zero : c.pending = 0
  · simp only [zero, ↓reduceIte, List.nil_append] at same
    by_cases few : c.in_.content.length < 4
    · refine Or.inl ⟨?_, by rw [same]; exact few⟩
      simp only [readHeader, zero, ↓reduceIte, wf.readUI32_none few]
    · obtain ⟨b0, b1, b2, b3, rest, head⟩ := four_le (by omega : 4 ≤ c.in_.content.length)
      obtain ⟨after, read, wfAfter, rewound, content⟩ := wf.readUI32_some head
      by_cases above : kChunkLimit < wordLE b0 b1 b2 b3
      · refine Or.inr (Or.inl ⟨[b0, b1, b2, b3], rest, ?_, by rw [same, head]; rfl, rfl, above⟩)
        simp only [readHeader, zero, ↓reduceIte, read, above]
      · refine Or.inr (Or.inr ⟨⟨after, wordLE b0 b1 b2 b3⟩, ?_, wfAfter, rewound,
          Nat.le_of_not_lt above, ?_⟩)
        · simp only [readHeader, zero, ↓reduceIte, read, above]
        · rw [same, head, bytesLE_wordLE, content]
          rfl
  · simp only [zero, ↓reduceIte] at same
    refine Or.inr (Or.inr ⟨c, ?_, wf, carries.rewound, carries.bounded, same⟩)
    simp only [readHeader, zero, ↓reduceIte]

/-- What a turn that fires leaves behind, or the refusal of its payload. -/
theorem readPayload_cases {c : Chunker} (wf : c.in_.WF) (rewound : c.in_.Rewound)
    (enough : c.pending ≤ c.in_.content.length) (alloc : Allocator) :
    ∃ out, c.readPayload alloc = out ∧ out.alloc.grants = alloc.grants ∧ out.src.WF ∧
      out.src.Rewound ∧ ((out.alloc.refused = alloc.refused ∧ out.dst.WF ∧
          out.src.content = c.in_.content.drop c.pending ∧
          out.dst.content = c.in_.content.take c.pending) ∨
        (out.alloc.refused = alloc.refused + 1 ∧ out.src = c.in_ ∧
          ¬ (c.pending ≤ maxSize ∧ alloc.grants alloc.calls = true))) := by
  refine ⟨_, rfl, ?_⟩
  by_cases zero : 0 < c.pending
  · rcases ByteBuf.transfer_cases wf ByteBuf.WF.empty c.pending alloc with
      moves | ⟨alloc', same, grants, refused, small⟩
    · simp only [readPayload, zero, ↓reduceIte, ByteBuf.read]
      exact ⟨moves.grants, moves.wfSrc, moves.srcRewound rewound,
        Or.inl ⟨moves.refused, moves.wfDst, moves.srcContent, moves.dstContent⟩⟩
    · rw [Nat.min_eq_left enough] at small
      simp only [readPayload, zero, ↓reduceIte, ByteBuf.read, same]
      refine ⟨grants, wf, rewound, Or.inr ⟨refused, trivial, ?_⟩⟩
      simpa only [Nat.zero_add] using small
  · have none : c.pending = 0 := by omega
    simp only [readPayload, zero, ↓reduceIte]
    rw [none]
    exact ⟨trivial, wf, rewound, Or.inl ⟨trivial, ByteBuf.WF.empty, rfl, rfl⟩⟩

/-- Every turn does what the head of the carried bytes calls for, unless the payload
is refused. -/
theorem Carries.turn_cases {c : Chunker} {carry : List UInt8} (carries : Carries c carry)
    (alloc : Allocator) :
    (∃ c', c.turn alloc = .stop c' ∧ chunkFormat.head carry = .short ∧ Carries c' carry) ∨
      (∃ rest, c.turn alloc = .reject ∧ chunkFormat.head carry = .oversize rest) ∨
      ∃ c' payload alloc' body rest, c.turn alloc = .fire c' payload alloc' ∧
        chunkFormat.head carry = .frame body rest ∧ alloc'.grants = alloc.grants ∧
        c'.pending = 0 ∧ Carries c' c'.in_.content ∧
        ((alloc'.refused = alloc.refused ∧ c'.in_.content = rest ∧ payload.WF ∧
            payload.content = body) ∨
          (alloc'.refused = alloc.refused + 1 ∧ c'.in_.content.length + 4 ≤ carry.length ∧
            alloc.grants alloc.calls = false)) := by
  rcases carries.readHeader_cases with
    ⟨missing, few⟩ | ⟨header, rest, tooLong, rfl, length, above⟩ |
      ⟨c', ready, wf, rewound, bounded, same⟩
  · refine Or.inl ⟨c, ?_, Format.head_of_length few, carries⟩
    simp only [turn, missing]
  · refine Or.inr (Or.inl ⟨rest, ?_, Format.head_of_oversize length above rest⟩)
    simp only [turn, tooLong]
  · have size := chunkFormat_size_bytesLE bounded
    have readable := wf.readableBytes_eq
    by_cases short : c'.in_.content.length < c'.pending
    · refine Or.inl ⟨c', ?_, ?_, wf, rewound, bounded, ?_⟩
      · simp only [turn, ready, readable, short, ↓reduceIte]
      · rw [same]
        exact Format.head_of_incomplete rfl (by rw [size]; exact bounded)
          (by rw [size]; exact short)
      · rw [if_neg (by omega)]
        exact same
    · have taken : (c'.in_.content.take c'.pending).length = c'.pending := by
        simp only [List.length_take]
        omega
      obtain ⟨out, read, grants, wfSrc, back, result⟩ :=
        readPayload_cases wf rewound (by omega : c'.pending ≤ c'.in_.content.length) alloc
      refine Or.inr (Or.inr ⟨⟨out.src, 0⟩, out.dst, out.alloc, c'.in_.content.take c'.pending,
        c'.in_.content.drop c'.pending, ?_, ?_, grants, rfl,
        Carries.of_pending_zero wfSrc back rfl, ?_⟩)
      · simp only [turn, ready, readable, short, ↓reduceIte, read]
      · have parts := List.take_append_drop c'.pending c'.in_.content
        rw [same, ← congrArg (bytesLE c'.pending ++ ·) parts]
        exact Format.head_of_frame rfl (by rw [size, taken]) (by rw [taken]; exact bounded) _
      · rcases result with ⟨refused, wfDst, src, dst⟩ | ⟨refused, src, small⟩
        · exact Or.inl ⟨refused, src, wfDst, dst⟩
        · refine Or.inr ⟨refused, ?_, ?_⟩
          · rw [same, src]
            simp only [List.length_append, Words.bytesLE_length]
            omega
          · have inRange : c'.pending ≤ maxSize := Nat.le_trans bounded (by decide)
            simpa only [inRange, true_and, Bool.not_eq_true] using small

/-- Whatever the allocator does, some bytes are carried after the loop. -/
theorem Carries.decode_sound {c : Chunker} {carry : List UInt8} (carries : Carries c carry)
    (fuel : Nat) (alloc : Allocator) :
    (∃ carry', Carries (decode fuel c alloc).chunker carry') ∧
      alloc.refused ≤ (decode fuel c alloc).alloc.refused ∧
      (decode fuel c alloc).alloc.grants = alloc.grants ∧
      ((∀ call, alloc.grants call = true) →
        (decode fuel c alloc).alloc.refused = alloc.refused) := by
  induction fuel generalizing c carry alloc with
  | zero => exact ⟨⟨carry, carries⟩, Nat.le_refl _, rfl, fun _ => rfl⟩
  | succ fuel ih =>
      rcases carries.turn_cases alloc with
        ⟨c', stopped, -, carries'⟩ | ⟨rest, rejected, -⟩ |
          ⟨c', payload, alloc', body, rest, fired, -, grants, -, carries', result⟩
      · simp only [decode, stopped]
        exact ⟨⟨carry, carries'⟩, Nat.le_refl _, trivial, fun _ => trivial⟩
      · simp only [decode, rejected]
        exact ⟨⟨[], Carries.fresh⟩, Nat.le_refl _, trivial, fun _ => trivial⟩
      · obtain ⟨sound, more, grants', all⟩ := ih carries' alloc'
        rw [decode, fired, Outcome.after_chunker, Outcome.after_alloc]
        rcases result with ⟨refused, -, -, -⟩ | ⟨refused, -, denied⟩
        · exact ⟨sound, by omega, by rw [grants', grants],
            fun granted => by rw [all (by rw [grants]; exact granted), refused]⟩
        · exact ⟨sound, by omega, by rw [grants', grants],
            fun granted => by rw [granted] at denied; cases denied⟩

/-- The decode loop scans the carried bytes, as long as no payload is refused. -/
theorem Carries.decode_scan {c : Chunker} {carry : List UInt8} (carries : Carries c carry)
    {fuel : Nat} (enough : carry.length < 4 * fuel) (alloc : Allocator)
    (granted : (decode fuel c alloc).alloc.refused = alloc.refused) :
    Carries (decode fuel c alloc).chunker
        (if (chunkFormat.scan carry).rejected then [] else (chunkFormat.scan carry).rest) ∧
      StageAction.signals (decode fuel c alloc).actions = (chunkFormat.scan carry).signals := by
  induction fuel generalizing c carry alloc with
  | zero => omega
  | succ fuel ih =>
      rcases carries.turn_cases alloc with
        ⟨c', stopped, short, carries'⟩ | ⟨rest, rejected, oversize⟩ |
          ⟨c', payload, alloc', body, rest, fired, frame, -, -, carries', result⟩
      · simp only [decode, stopped, Format.scan_short short]
        exact ⟨carries', rfl⟩
      · simp only [decode, rejected, Format.scan_oversize oversize]
        exact ⟨Carries.fresh, rfl⟩
      · have length := Format.head_frame_length frame
        have width : chunkFormat.width = 4 := rfl
        obtain ⟨-, more, -, -⟩ := carries'.decode_sound fuel alloc'
        rw [decode, fired] at granted ⊢
        dsimp only at granted ⊢
        rw [Outcome.after_alloc] at granted
        rw [Outcome.after_chunker, Outcome.after_actions]
        rcases result with ⟨refused, restEq, -, bodyEq⟩ | ⟨refused, -, -⟩
        · rw [restEq] at carries'
          obtain ⟨carried, signals⟩ := ih carries' (by omega) alloc' (by omega)
          rw [Format.scan_frame frame]
          refine ⟨carried, ?_⟩
          rw [StageAction.signals_append, StageAction.signals, List.filterMap_cons,
            StageAction.signal, bodyEq]
          exact congrArg (Signal.chunk body :: ·) signals
        · omega

/-- More turns than `turns` change nothing: the loop always ends by itself. -/
theorem Carries.decode_terminates {c : Chunker} {carry : List UInt8} (carries : Carries c carry)
    {fuel : Nat} (enough : carry.length < 4 * fuel) (more : Nat) (alloc : Allocator) :
    decode (fuel + more) c alloc = decode fuel c alloc := by
  induction fuel generalizing c carry alloc with
  | zero => omega
  | succ fuel ih =>
      rw [Nat.succ_add]
      rcases carries.turn_cases alloc with
        ⟨c', stopped, -, -⟩ | ⟨rest, rejected, -⟩ |
          ⟨c', payload, alloc', body, rest, fired, frame, -, zero, carries', result⟩
      · simp only [decode, stopped]
      · simp only [decode, rejected]
      · have length := Format.head_frame_length frame
        have width : chunkFormat.width = 4 := rfl
        have shorter : c'.in_.content.length + 4 ≤ carry.length := by
          rcases result with ⟨-, restEq, -, -⟩ | ⟨-, shorter, -⟩
          · rw [restEq]
            omega
          · exact shorter
        simp only [decode, fired, ih carries' (by omega) alloc']

/-- The input buffer after `in_.write(std::move(evt.buf), n)`. -/
theorem Carries.write_cases {c : Chunker} {carry : List UInt8} (carries : Carries c carry)
    {evt : ByteBuf} (wf : evt.WF) (alloc : Allocator) :
    ∃ in_ alloc', (c.in_.write evt evt.readableBytes alloc).dst = in_ ∧
      (c.in_.write evt evt.readableBytes alloc).alloc = alloc' ∧
      alloc'.grants = alloc.grants ∧
      ((alloc'.refused = alloc.refused ∧ Carries { c with in_ } (carry ++ evt.content)) ∨
        (alloc'.refused = alloc.refused + 1 ∧ in_ = c.in_ ∧
          ¬ (c.in_.w + evt.content.length ≤ maxSize ∧ alloc.grants alloc.calls = true))) := by
  refine ⟨_, _, rfl, rfl, ?_⟩
  rw [wf.readableBytes_eq]
  rcases ByteBuf.transfer_cases wf carries.wf evt.content.length alloc with
    moves | ⟨alloc', same, grants, refused, small⟩
  · refine ⟨moves.grants, Or.inl ⟨moves.refused, moves.wfDst, moves.dstRewound carries.rewound,
      carries.bounded, ?_⟩⟩
    have dst := moves.dstContent
    rw [List.take_length] at dst
    rw [carries.carry_eq, List.append_assoc, ← dst]
    rfl
  · rw [Nat.min_self] at small
    simp only [ByteBuf.write, same]
    exact ⟨grants, Or.inr ⟨refused, trivial, small⟩⟩

theorem Carries.onInbound_sound {c : Chunker} {carry : List UInt8} (carries : Carries c carry)
    {evt : ByteBuf} (wf : evt.WF) (alloc : Allocator) :
    (∃ carry', Carries (c.onInbound evt alloc).chunker carry') ∧
      alloc.refused ≤ (c.onInbound evt alloc).alloc.refused ∧
      (c.onInbound evt alloc).alloc.grants = alloc.grants ∧
      ((∀ call, alloc.grants call = true) → c.in_.w + evt.content.length ≤ maxSize →
        (c.onInbound evt alloc).alloc.refused = alloc.refused) := by
  obtain ⟨in_, alloc', dst, left, grants, result⟩ := carries.write_cases wf alloc
  simp only [onInbound, dst, left]
  rcases result with ⟨refused, carries'⟩ | ⟨refused, rfl, small⟩
  · obtain ⟨sound, more, grants', all⟩ := carries'.decode_sound (turns { c with in_ }) alloc'
    exact ⟨sound, by omega, by rw [grants', grants],
      fun granted _ => by rw [all (by rw [grants]; exact granted), refused]⟩
  · obtain ⟨sound, more, grants', -⟩ := carries.decode_sound (turns c) alloc'
    exact ⟨sound, Nat.le_trans (by omega) more, grants'.trans grants,
      fun granted room => absurd ⟨room, granted _⟩ small⟩

/-- The number of turns granted to the decode loop is never what ends it. -/
theorem Carries.decode_turns {c : Chunker} {carry : List UInt8} (carries : Carries c carry)
    (more : Nat) (alloc : Allocator) :
    decode (turns c + more) c alloc = decode (turns c) c alloc := by
  have readable := carries.wf.readableBytes_eq
  have length := carries.length_le
  exact carries.decode_terminates (by simp only [turns, readable]; omega) more alloc

/-- One event is one segment fed to the abstract reader. -/
theorem Carries.onInbound_feed {c : Chunker} {carry : List UInt8} (carries : Carries c carry)
    {evt : ByteBuf} (wf : evt.WF) (alloc : Allocator)
    (granted : (c.onInbound evt alloc).alloc.refused = alloc.refused) :
    Carries (c.onInbound evt alloc).chunker (chunkFormat.feed carry evt.content).1 ∧
      StageAction.signals (c.onInbound evt alloc).actions =
        (chunkFormat.feed carry evt.content).2 := by
  obtain ⟨in_, alloc', dst, left, -, result⟩ := carries.write_cases wf alloc
  simp only [onInbound, dst, left] at granted ⊢
  rcases result with ⟨refused, carries'⟩ | ⟨refused, rfl, -⟩
  · have readable := carries'.wf.readableBytes_eq
    have length := carries'.length_le
    dsimp only at readable length
    exact carries'.decode_scan (by simp only [turns, readable]; omega) alloc' (by omega)
  · obtain ⟨-, more, -, -⟩ := carries.decode_sound (turns c) alloc'
    exact absurd (Nat.le_trans (by omega) (Nat.le_trans more (Nat.le_of_eq granted)))
      (Nat.not_succ_le_self alloc.refused)

theorem receive_nil (c : Chunker) (alloc : Allocator) : c.receive [] alloc = ⟨c, [], alloc⟩ := by
  rw [receive]

theorem receive_nil_alloc (c : Chunker) (alloc : Allocator) :
    (c.receive [] alloc).alloc = alloc := by
  rw [receive]

theorem receive_cons (c : Chunker) (evt : LiveBuf) (evts : List LiveBuf) (alloc : Allocator) :
    c.receive (evt :: evts) alloc =
      ((c.onInbound evt.toByteBuf alloc).chunker.receive evts
        (c.onInbound evt.toByteBuf alloc).alloc).after
        (c.onInbound evt.toByteBuf alloc).actions := by
  rw [receive]

theorem receive_append (c : Chunker) (front back : List LiveBuf) (alloc : Allocator) :
    c.receive (front ++ back) alloc =
      ((c.receive front alloc).chunker.receive back (c.receive front alloc).alloc).after
        (c.receive front alloc).actions := by
  induction front generalizing c alloc with
  | nil => rw [List.nil_append, receive_nil, Outcome.after_nil]
  | cons evt front ih =>
      rw [List.cons_append, receive_cons, ih, receive_cons, Outcome.after_after,
        Outcome.after_chunker, Outcome.after_alloc, Outcome.after_actions]

theorem Carries.receive_sound {c : Chunker} {carry : List UInt8} (carries : Carries c carry)
    (evts : List LiveBuf) (alloc : Allocator) :
    (∃ carry', Carries (c.receive evts alloc).chunker carry') ∧
      alloc.refused ≤ (c.receive evts alloc).alloc.refused := by
  induction evts generalizing c carry alloc with
  | nil =>
      rw [receive_nil]
      exact ⟨⟨carry, carries⟩, Nat.le_refl _⟩
  | cons evt evts ih =>
      obtain ⟨⟨carry', first⟩, more, -, -⟩ := carries.onInbound_sound evt.wf alloc
      obtain ⟨sound, rest⟩ := ih first (c.onInbound evt.toByteBuf alloc).alloc
      rw [receive_cons, Outcome.after_chunker, Outcome.after_alloc]
      exact ⟨sound, Nat.le_trans more rest⟩

/-- A run in which nothing was refused had no refusal in any of its prefixes. -/
theorem Carries.receive_front {c : Chunker} {carry : List UInt8} (carries : Carries c carry)
    (front back : List LiveBuf) (alloc : Allocator)
    (granted : (c.receive (front ++ back) alloc).alloc.refused = alloc.refused) :
    (c.receive front alloc).alloc.refused = alloc.refused := by
  obtain ⟨⟨carry', first⟩, more⟩ := carries.receive_sound front alloc
  obtain ⟨-, rest⟩ := first.receive_sound back (c.receive front alloc).alloc
  rw [receive_append, Outcome.after_alloc] at granted
  omega

/-- Events received are segments fed to the abstract reader. -/
theorem Carries.receive_feedAll {c : Chunker} {carry : List UInt8} (carries : Carries c carry)
    (evts : List LiveBuf) (alloc : Allocator)
    (granted : (c.receive evts alloc).alloc.refused = alloc.refused) :
    Carries (c.receive evts alloc).chunker
        (chunkFormat.feedAll carry (evts.map (fun evt => evt.content))).1 ∧
      StageAction.signals (c.receive evts alloc).actions =
        (chunkFormat.feedAll carry (evts.map (fun evt => evt.content))).2 := by
  induction evts generalizing c carry alloc with
  | nil =>
      rw [receive_nil]
      exact ⟨carries, rfl⟩
  | cons evt evts ih =>
      have one := carries.receive_front [evt] evts alloc granted
      rw [receive_cons, Outcome.after_alloc, receive_nil_alloc] at one
      rw [receive_cons, Outcome.after_alloc, ← one] at granted
      obtain ⟨carried, signals⟩ := carries.onInbound_feed evt.wf alloc one
      obtain ⟨carriedAll, signalsAll⟩ := ih carried _ granted
      rw [receive_cons, Outcome.after_chunker, Outcome.after_actions, StageAction.signals_append,
        signals, signalsAll, List.map_cons, Format.feedAll_cons_fst, Format.feedAll_cons_snd]
      exact ⟨carriedAll, rfl⟩

end Chunker

end Getrafty
