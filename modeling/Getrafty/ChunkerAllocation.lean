import Getrafty.ChunkerRefinement
import Getrafty.Lib.Transition

set_option autoImplicit false

namespace Getrafty

open Words (bytesLE)
open Framing (Format Signal)
open Transition (Exec Of Guarded)

namespace Chunker

/-- One complete frame leaves and nothing else, or a failure is reported and nothing leaves. -/
def WholeOrFailed (evt : ByteBuf) (actions : List StageAction) : Prop :=
  (∃ framed, actions = [.fireOutbound framed] ∧ framed.content = chunkFormat.encode evt.content) ∨
    ∃ what, actions = [.failure what]

/-- The header of a payload within the limit gets memory, and the payload gets none. -/
def HeaderOnly (evt : ByteBuf) (alloc : Allocator) : Prop :=
  evt.content ≠ [] ∧ evt.content.length ≤ kChunkLimit ∧
    alloc.grants alloc.calls = true ∧ alloc.grants (alloc.calls + 1) = false

/-- The input buffer has to grow for the event. -/
def Grows (c : Chunker) (evt : ByteBuf) : Prop := c.in_.writableBytes < evt.readableBytes

instance (c : Chunker) (evt : ByteBuf) : Decidable (Grows c evt) :=
  inferInstanceAs (Decidable (_ < _))

/-- The event can be appended to the input buffer. -/
def Appends (c : Chunker) (evt : ByteBuf) (alloc : Allocator) : Prop :=
  Grows c evt → c.in_.w + evt.content.length ≤ maxSize ∧ alloc.grants alloc.calls = true

instance (c : Chunker) (evt : ByteBuf) (alloc : Allocator) : Decidable (Appends c evt alloc) :=
  inferInstanceAs (Decidable (_ → _))

/-- The calls of the allocator up to the payloads. -/
def callsBefore (c : Chunker) (evt : ByteBuf) (alloc : Allocator) : Nat :=
  alloc.calls + if Grows c evt then 1 else 0

/-- The bytes received since the last frame boundary. -/
def carried (c : Chunker) : List UInt8 :=
  (if c.pending = 0 then [] else bytesLE c.pending) ++ c.in_.content

/-- The complete frames whose payload is not empty. -/
def payloads (carry : List UInt8) : Nat :=
  ((chunkFormat.scan carry).frames.filter (fun body => !body.isEmpty)).length

/-- The allocator grants this many calls. -/
def Grants (alloc : Allocator) (n : Nat) : Prop := ∀ i < n, alloc.grants (alloc.calls + i) = true

instance (alloc : Allocator) (n : Nat) : Decidable (Grants alloc n) :=
  inferInstanceAs (Decidable (∀ _ < _, _))

/-- A decoder, what it did so far, and whether an event was dropped for want of memory. -/
structure Decoding where
  chunker : Chunker := {}
  alloc : Allocator
  actions : List StageAction := []
  lost : Bool := false

/-- What a call leaves of a decoding. -/
def Decoding.after (d : Decoding) (out : Outcome) (appended : Bool) : Decoding where
  chunker := out.chunker
  alloc := out.alloc
  actions := d.actions ++ out.actions
  lost := d.lost || !appended

def Decoding.step (d : Decoding) (evt : LiveBuf) : Option Decoding :=
  some (d.after (d.chunker.onInbound evt.toByteBuf d.alloc)
    (decide (Appends d.chunker evt.toByteBuf d.alloc)))

/-- No bytes come in behind a loss, and every payload that an event completes gets memory. -/
def InStep (d : Decoding) (evt : LiveBuf) : Prop :=
  Appends d.chunker evt.toByteBuf d.alloc →
    (d.lost = true → evt.content = []) ∧
      Grants { d.alloc with calls := callsBefore d.chunker evt.toByteBuf d.alloc }
        (payloads (d.chunker.carried ++ evt.content))

instance (d : Decoding) : DecidablePred (InStep d) :=
  fun evt => inferInstanceAs (Decidable (Appends d.chunker evt.toByteBuf d.alloc →
    (d.lost = true → evt.content = []) ∧ Grants _ _))

section Outbound

/-- A header that gets memory is followed by its payload, if that does too. -/
theorem onOutbound_eq {evt : ByteBuf} (wf : evt.WF) (bounded : evt.content.length ≤ kChunkLimit)
    (alloc : Allocator) :
    (alloc.grants alloc.calls = false ∧
        (onOutbound evt alloc).1 = [.failure (-ENOMEM)]) ∨
      (HeaderOnly evt alloc ∧ ∃ framed, (onOutbound evt alloc).1 = [.fireOutbound framed] ∧
        framed.content = bytesLE evt.content.length) ∨
      (alloc.grants alloc.calls = true ∧ ¬ HeaderOnly evt alloc ∧
        ∃ framed, (onOutbound evt alloc).1 = [.fireOutbound framed] ∧
          framed.content = chunkFormat.encode evt.content) := by
  have readable := wf.readableBytes_eq
  have fits : ¬ kChunkLimit < evt.content.length := by omega
  have word : evt.content.length % 2 ^ 32 = evt.content.length :=
    Nat.mod_eq_of_lt (Nat.lt_of_le_of_lt bounded (by decide))
  have four : (bytesLE evt.content.length).length = 4 := Words.bytesLE_length _
  have some : bytesLE evt.content.length ≠ [] := List.ne_nil_of_length_pos (by omega)
  have small : (bytesLE evt.content.length).length ≤ maxSize := by
    rw [four]
    decide
  unfold onOutbound
  simp only [readable, fits, ↓reduceIte, word, ByteBuf.writeUI32, ByteBuf.write]
  rcases ByteBuf.WF.empty.writeRaw_full rfl some small alloc with
    ⟨out, wrote, wfOut, full, w, head, -, granted⟩ | ⟨threw, refused⟩
  · right
    rw [wrote]
    dsimp only
    by_cases empty : evt.content = []
    · right
      refine ⟨granted, fun only => only.1 empty, _, rfl, ?_⟩
      have moves := ByteBuf.Moves.of_nothing wf wfOut (n := evt.content.length)
        (by rw [empty]; rfl) { alloc with calls := alloc.calls + 1 }
      simp only [ByteBuf.transfer, readable, empty, List.length_nil, Nat.min_self, ↓reduceIte, head,
        ByteBuf.content_empty, List.nil_append, Format.encode, List.append_nil]
      rfl
    · have nonempty : evt.content.length ≠ 0 := fun zero =>
        empty (List.eq_nil_of_length_eq_zero zero)
      have below : out.w + evt.content.length ≤ maxSize := by
        rw [w, four]
        have above : 4 + kChunkLimit ≤ maxSize := by decide
        have zero : ({} : ByteBuf).w = 0 := rfl
        omega
      rcases ByteBuf.transfer_full wf wfOut full nonempty (Nat.le_refl _)
          { alloc with calls := alloc.calls + 1 } with
        ⟨moves, -, -, granted'⟩ | ⟨same, refused⟩
      · right
        refine ⟨granted, fun only => ?_, _, rfl, ?_⟩
        · rw [only.2.2.2] at granted'
          cases granted'
        · rw [moves.dstContent, head, List.take_length]
          rfl
      · left
        refine ⟨⟨empty, bounded, granted, ?_⟩, _, rfl, ?_⟩
        · exact Bool.eq_false_iff.mpr fun granted' => refused ⟨below, granted'⟩
        · rw [same, head]
          rfl
  · left
    refine ⟨Bool.eq_false_iff.mpr fun granted => refused ⟨?_, granted⟩, ?_⟩
    · rw [four]
      decide
    · rw [threw]

/-- A frame leaves whole unless its header alone gets memory. -/
theorem whole_or_failed_iff {evt : ByteBuf} (wf : evt.WF) (alloc : Allocator) :
    WholeOrFailed evt (onOutbound evt alloc).1 ↔ ¬ HeaderOnly evt alloc := by
  by_cases bounded : evt.content.length ≤ kChunkLimit
  · rcases onOutbound_eq wf bounded alloc with
      ⟨refused, failed⟩ | ⟨only, framed, fired, content⟩ | ⟨-, whole, framed, fired, content⟩
    · refine iff_of_true (Or.inr ⟨_, failed⟩) fun only => ?_
      rw [only.2.2.1] at refused
      cases refused
    · refine iff_of_false ?_ (not_not.mpr only)
      rintro (⟨framed', fired', content'⟩ | ⟨what, failed⟩)
      · rw [fired, List.singleton_inj, StageAction.fireOutbound.injEq] at fired'
        rw [← fired', content] at content'
        have lengths := congrArg List.length content'
        simp only [Format.encode, List.length_append, Words.bytesLE_length,
          chunkFormat.header_length] at lengths
        have four : chunkFormat.width = 4 := rfl
        exact only.1 (List.eq_nil_of_length_eq_zero (by omega))
      · rw [fired] at failed
        cases failed
    · exact iff_of_true (Or.inl ⟨framed, fired, content⟩) whole
  · have tooLong : kChunkLimit < evt.content.length := by omega
    refine iff_of_true (Or.inr ⟨-EMSGSIZE, ?_⟩) fun only => bounded only.2.1
    simp only [onOutbound, wf.readableBytes_eq, tooLong, ↓reduceIte]

end Outbound

section Inbound

theorem Carries.eq_carried {c : Chunker} {carry : List UInt8} (carries : Carries c carry) :
    carry = c.carried := carries.carry_eq

theorem payloads_short {carry : List UInt8} (short : chunkFormat.head carry = .short) :
    payloads carry = 0 := by
  rw [payloads, Format.scan_short short]
  rfl

theorem payloads_frame {carry body rest : List UInt8}
    (found : chunkFormat.head carry = .frame body rest) :
    payloads carry = (if body = [] then 0 else 1) + payloads rest := by
  rw [payloads, Format.scan_frame found, List.filter_cons]
  cases body with
  | nil => exact (Nat.zero_add _).symm
  | cons byte body => exact Nat.add_comm _ _

/-- A complete frame is fired, and its payload asks for memory unless it is empty. -/
theorem Carries.turn_frame {c : Chunker} {carry body rest : List UInt8} (carries : Carries c carry)
    (found : chunkFormat.head carry = .frame body rest) (alloc : Allocator) :
    ((body = [] ∨ alloc.grants alloc.calls = true) ∧ ∃ c' payload,
        c.turn alloc = .fire c' payload
          { alloc with calls := alloc.calls + if body = [] then 0 else 1 } ∧
        payload.content = body ∧ Carries c' rest) ∨
      (body ≠ [] ∧ alloc.grants alloc.calls = false ∧ ∃ c',
        c.turn alloc = .fire c' {}
          { alloc with calls := alloc.calls + 1, refused := alloc.refused + 1 }) := by
  rcases carries.readHeader_cases with
    ⟨-, few⟩ | ⟨header, more, -, rfl, length, above⟩ | ⟨c', ready, wf, rewound, bounded, same⟩
  · rw [Format.head_of_length few] at found
    cases found
  · rw [Format.head_of_oversize length above more] at found
    cases found
  · have size := chunkFormat_size_bytesLE bounded
    have readable := wf.readableBytes_eq
    by_cases short : c'.in_.content.length < c'.pending
    · rw [same, Format.head_of_incomplete rfl (by rw [size]; exact bounded)
        (by rw [size]; exact short)] at found
      cases found
    · have taken : (c'.in_.content.take c'.pending).length = c'.pending := by
        simp only [List.length_take]
        omega
      have parts := List.take_append_drop c'.pending c'.in_.content
      rw [same, ← congrArg (bytesLE c'.pending ++ ·) parts,
        Format.head_of_frame rfl (by rw [size, taken]) (by rw [taken]; exact bounded) _] at found
      obtain ⟨bodyEq, restEq⟩ := Framing.Head.frame.inj found
      by_cases none : c'.pending = 0
      · have empty : body = [] := by
          rw [← bodyEq, none]
          rfl
        refine Or.inl ⟨Or.inl empty, ⟨c'.in_, 0⟩, {}, ?_, ?_, ?_⟩
        · have nothing : ¬ 0 < c'.pending := by omega
          simp only [turn, ready, readable, short, ↓reduceIte, readPayload, nothing, empty,
            Nat.add_zero]
        · rw [empty]
          rfl
        · have all : rest = c'.in_.content := by
            rw [← restEq, none]
            rfl
          rw [all]
          exact Carries.of_pending_zero wf rewound rfl
      · have some : body ≠ [] := by
          intro empty
          rw [← bodyEq] at empty
          rw [empty, List.length_nil] at taken
          exact none taken.symm
        have positive : 0 < c'.pending := Nat.pos_of_ne_zero none
        rcases ByteBuf.transfer_full wf ByteBuf.WF.empty rfl none
          (Nat.le_of_not_lt short) alloc with
          ⟨moves, left, -, granted⟩ | ⟨stuck, refused⟩
        · refine Or.inl ⟨Or.inr granted, ⟨(ByteBuf.transfer c'.in_ {} c'.pending alloc).src, 0⟩,
            (ByteBuf.transfer c'.in_ {} c'.pending alloc).dst, ?_, ?_, ?_⟩
          · simp only [turn, ready, readable, short, ↓reduceIte, readPayload, positive,
              ByteBuf.read, left, some]
          · rw [moves.dstContent, ByteBuf.content_empty, List.nil_append, bodyEq]
          · have all : (ByteBuf.transfer c'.in_ {} c'.pending alloc).src.content = rest := by
              rw [moves.srcContent, restEq]
            rw [← all]
            exact Carries.of_pending_zero moves.wfSrc (moves.srcRewound rewound) rfl
        · refine Or.inr ⟨some, ?_, ⟨c'.in_, 0⟩, ?_⟩
          · refine Bool.eq_false_iff.mpr fun granted => refused ⟨?_, granted⟩
            have above : kChunkLimit ≤ maxSize := by decide
            have zero : ({} : ByteBuf).w = 0 := rfl
            omega
          · simp only [turn, ready, readable, short, ↓reduceIte, readPayload, positive,
              ByteBuf.read, stuck]

theorem Grants.later {alloc : Allocator} {n : Nat} (granted : Grants alloc (1 + n))
    (refused : Nat) :
    Grants ⟨alloc.grants, alloc.calls + 1, refused⟩ n := by
  intro i below
  have next := granted (1 + i) (by omega)
  rwa [← Nat.add_assoc] at next

/-- Payloads that all get memory are all read. -/
theorem Carries.decode_granted {c : Chunker} {carry : List UInt8} (carries : Carries c carry)
    (fuel : Nat) (alloc : Allocator) (granted : Grants alloc (payloads carry)) :
    (decode fuel c alloc).alloc.refused = alloc.refused := by
  induction fuel generalizing c carry alloc with
  | zero => rfl
  | succ fuel ih =>
      rcases carries.turn_cases alloc with
        ⟨c', stopped, -, -⟩ | ⟨rest, rejected, -⟩ | ⟨-, -, -, body, rest, -, frame, -⟩
      · simp only [decode, stopped]
      · simp only [decode, rejected]
      · rw [payloads_frame frame] at granted
        rcases carries.turn_frame frame alloc with
          ⟨-, c', payload, fired, -, carries'⟩ | ⟨some, refused, -⟩
        · rw [decode, fired]
          dsimp only
          rw [Outcome.after_alloc]
          refine ih carries' _ ?_
          by_cases empty : body = []
          · simp only [empty, ↓reduceIte, Nat.zero_add, Nat.add_zero] at granted ⊢
            exact granted
          · simp only [empty, ↓reduceIte] at granted ⊢
            exact granted.later _
        · rw [if_neg some] at granted
          have first := granted 0 (by omega)
          rw [Nat.add_zero, refused] at first
          cases first

/-- A payload that gets no memory is fired empty, out of its place. -/
theorem Carries.granted_of_chunks {c : Chunker} {carry : List UInt8} (carries : Carries c carry)
    {fuel : Nat} (enough : carry.length < 4 * fuel) (alloc : Allocator) (more : List (List UInt8))
    (sound : StageAction.chunks (decode fuel c alloc).actions <+:
      (chunkFormat.scan carry).frames ++ more)
      (accepted : (chunkFormat.scan carry).rejected = false) :
    Grants alloc (payloads carry) := by
  induction fuel generalizing c carry alloc with
  | zero => omega
  | succ fuel ih =>
      cases found : chunkFormat.head carry with
      | short =>
          rw [payloads_short found]
          exact fun i below => absurd below (Nat.not_lt_zero i)
      | oversize rest =>
          rw [Format.scan_oversize found] at accepted
          cases accepted
      | frame body rest =>
          have length := Format.head_frame_length found
          have width : chunkFormat.width = 4 := rfl
          rw [Format.scan_frame found] at accepted sound
          rw [payloads_frame found]
          rcases carries.turn_frame found alloc with
            ⟨room, c', payload, fired, content, carries'⟩ | ⟨some, -, c', fired⟩
          · rw [decode, fired] at sound
            dsimp only at sound
            rw [Outcome.after_actions, List.singleton_append, StageAction.chunks, content,
              List.cons_append, List.cons_prefix_cons] at sound
            have rest := ih carries' (by omega) _ sound.2 accepted
            by_cases empty : body = []
            · simp only [empty, ↓reduceIte, Nat.zero_add, Nat.add_zero] at rest ⊢
              exact rest
            · simp only [empty, ↓reduceIte] at rest ⊢
              intro i below
              cases i with
              | zero => exact room.resolve_left empty
              | succ i =>
                  have next := rest i (by omega)
                  rwa [Nat.add_assoc, Nat.add_comm 1 i] at next
          · rw [decode, fired] at sound
            dsimp only at sound
            rw [Outcome.after_actions, List.singleton_append, StageAction.chunks,
              ByteBuf.content_empty, List.cons_append, List.cons_prefix_cons] at sound
            exact absurd sound.1.symm some

/-- The memory that `in_.write(std::move(evt.buf), n)` asks for when it has to grow. -/
theorem write_grown {c : Chunker} (wf : c.in_.WF) {evt : ByteBuf} (wfEvt : evt.WF)
    (alloc : Allocator) (grows : Grows c evt) :
    (c.in_.write evt evt.readableBytes alloc).alloc =
      { alloc with
        calls := alloc.calls + 1
        refused := alloc.refused + if Appends c evt alloc then 0 else 1 } := by
  have readable := wfEvt.readableBytes_eq
  have inside := wf.inside
  have bounded := wf.bounded
  have size := wfEvt.content_le
  have below : 2 * maxSize < Words.sizeRange := by decide
  have short : ¬ evt.content.length ≤ c.in_.writableBytes := by
    rw [← readable]
    exact Nat.not_le_of_lt grows
  have nonempty : evt.content.length ≠ 0 := fun zero => short (zero ▸ Nat.zero_le _)
  have sum : Words.addSize c.in_.w evt.content.length = c.in_.w + evt.content.length :=
    Words.addSize_eq (by omega)
  by_cases granted : c.in_.w + evt.content.length ≤ maxSize ∧ alloc.grants alloc.calls = true
  · have appends : Appends c evt alloc := fun _ => granted
    have reserved : ∃ grown, c.in_.reserve evt.content.length alloc =
        (true, grown, { alloc with calls := alloc.calls + 1 }) := by
      refine ⟨{ c.in_ with
        data := c.in_.data.take (c.in_.w + evt.content.length) ++
          List.replicate (c.in_.w + evt.content.length - c.in_.data.length) 0 }, ?_⟩
      simp only [ByteBuf.reserve, short, ↓reduceIte, sum, Allocator.resize, granted, and_self]
    obtain ⟨grown, reserved⟩ := reserved
    rw [if_pos appends, Nat.add_zero alloc.refused, ByteBuf.write, ByteBuf.transfer, readable,
      Nat.min_self, if_neg nonempty, reserved]
  · have drops : ¬ Appends c evt alloc := fun appends => granted (appends grows)
    have reserved : c.in_.reserve evt.content.length alloc = (false, c.in_,
        { alloc with calls := alloc.calls + 1, refused := alloc.refused + 1 }) := by
      simp only [ByteBuf.reserve, short, ↓reduceIte, sum, Allocator.resize, granted]
    rw [if_neg drops, ByteBuf.write, ByteBuf.transfer, readable, Nat.min_self, if_neg nonempty,
      reserved]

theorem write_fitting {c : Chunker} {evt : ByteBuf} (wfEvt : evt.WF) (alloc : Allocator)
    (fits : ¬ Grows c evt) : (c.in_.write evt evt.readableBytes alloc).alloc = alloc := by
  have readable := wfEvt.readableBytes_eq
  have room : evt.content.length ≤ c.in_.writableBytes := by
    rw [← readable]
    exact Nat.le_of_not_lt fits
  by_cases empty : evt.content.length = 0
  · rw [ByteBuf.write, ByteBuf.transfer, readable, Nat.min_self, if_pos empty]
  · have reserved : c.in_.reserve evt.content.length alloc = (true, c.in_, alloc) := by
      simp only [ByteBuf.reserve, room, ↓reduceIte]
    rw [ByteBuf.write, ByteBuf.transfer, readable, Nat.min_self, if_neg empty, reserved]

/-- The input buffer after `in_.write(std::move(evt.buf), n)`, and the memory asked for. -/
theorem Carries.append_cases {c : Chunker} {carry : List UInt8} (carries : Carries c carry)
    {evt : ByteBuf} (wf : evt.WF) (alloc : Allocator) :
    (Appends c evt alloc ∧ ∃ in_, (c.in_.write evt evt.readableBytes alloc).dst = in_ ∧
        (c.in_.write evt evt.readableBytes alloc).alloc =
          { alloc with calls := callsBefore c evt alloc } ∧
        Carries { c with in_ } (carry ++ evt.content)) ∨
      (¬ Appends c evt alloc ∧ ∃ alloc', (c.in_.write evt evt.readableBytes alloc).dst = c.in_ ∧
        (c.in_.write evt evt.readableBytes alloc).alloc = alloc') := by
  obtain ⟨in_, alloc', dst, left, -, result⟩ := carries.write_cases wf alloc
  by_cases grows : Grows c evt
  · rw [write_grown carries.wf wf alloc grows] at left ⊢
    by_cases appends : Appends c evt alloc
    · rw [if_pos appends, Nat.add_zero alloc.refused] at left ⊢
      rcases result with ⟨-, carries'⟩ | ⟨refused, -⟩
      · refine Or.inl ⟨appends, in_, dst, ?_, carries'⟩
        rw [callsBefore, if_pos grows]
      · rw [← left] at refused
        dsimp only at refused
        omega
    · rw [if_neg appends] at left
      rcases result with ⟨kept, -⟩ | ⟨-, same, -⟩
      · rw [← left] at kept
        dsimp only at kept
        omega
      · exact Or.inr ⟨appends, _, dst.trans same, rfl⟩
  · have appends : Appends c evt alloc := fun grows' => absurd grows' grows
    rw [write_fitting wf alloc grows] at left ⊢
    rcases result with ⟨-, carries'⟩ | ⟨refused, -⟩
    · refine Or.inl ⟨appends, in_, dst, ?_, carries'⟩
      rw [callsBefore, if_neg grows, Nat.add_zero alloc.calls]
    · rw [← left] at refused
      omega

theorem Carries.decode_idle {c : Chunker} {carry : List UInt8} (carries : Carries c carry)
    (idle : chunkFormat.head carry = .short) (fuel : Nat) (alloc : Allocator) :
    ∃ c', decode (fuel + 1) c alloc = ⟨c', [], alloc⟩ ∧ Carries c' carry := by
  rcases carries.turn_cases alloc with
    ⟨c', stopped, -, carries'⟩ | ⟨rest, -, oversize⟩ | ⟨-, -, -, body, rest, -, frame, -⟩
  · refine ⟨c', ?_, carries'⟩
    simp only [decode, stopped]
  · rw [idle] at oversize
    cases oversize
  · rw [idle] at frame
    cases frame

/-- An event that is dropped, or empty, leaves a decoder that waits as it was. -/
theorem Carries.onInbound_idle {c : Chunker} {carry : List UInt8} (carries : Carries c carry)
    (idle : chunkFormat.head carry = .short) {evt : ByteBuf} (wf : evt.WF) (alloc : Allocator)
    (nothing : Appends c evt alloc → evt.content = []) :
    (onInbound c evt alloc).actions = [] ∧ Carries (onInbound c evt alloc).chunker carry := by
  rcases carries.append_cases wf alloc with ⟨appends, in_, dst, left, carries'⟩ | ⟨-, -, dst, -⟩
  · rw [nothing appends, List.append_nil] at carries'
    rw [onInbound, dst]
    obtain ⟨c', same, still⟩ := carries'.decode_idle idle
      (2 * in_.readableBytes + 1) (c.in_.write evt evt.readableBytes alloc).alloc
    rw [turns, same]
    exact ⟨rfl, still⟩
  · rw [onInbound, dst]
    obtain ⟨c', same, still⟩ := carries.decode_idle idle
      (2 * c.in_.readableBytes + 1) (c.in_.write evt evt.readableBytes alloc).alloc
    rw [turns, same]
    exact ⟨rfl, still⟩

/-- An event that is appended is decoded behind the bytes carried. -/
theorem Carries.onInbound_appended {c : Chunker} {carry : List UInt8} (carries : Carries c carry)
    {evt : ByteBuf} (wf : evt.WF) (alloc : Allocator) (appends : Appends c evt alloc) :
    ∃ c' fuel, Carries c' (carry ++ evt.content) ∧ (carry ++ evt.content).length < 4 * fuel ∧
      onInbound c evt alloc = decode fuel c' { alloc with calls := callsBefore c evt alloc } := by
  rcases carries.append_cases wf alloc with ⟨-, in_, dst, left, carries'⟩ | ⟨drops, -⟩
  · refine ⟨{ c with in_ }, turns { c with in_ }, carries', ?_, ?_⟩
    · have readable := carries'.wf.readableBytes_eq
      have length := carries'.length_le
      dsimp only at readable length
      simp only [turns, readable]
      omega
    · rw [onInbound, dst, left]
  · exact absurd appends drops

end Inbound

/-- A decoder that has fired what came in completely and waits for the rest. After a loss it
waits for good. -/
structure Synced (bodies : List (List UInt8)) (seen : List UInt8) (d : Decoding) : Prop where
  carries : Carries d.chunker d.chunker.carried
  waits : chunkFormat.head d.chunker.carried = .short
  fired : StageAction.chunks d.actions <+: bodies
  whole : d.lost = false → StageAction.chunks d.actions = (chunkFormat.scan seen).frames ∧
    d.chunker.carried = (chunkFormat.scan seen).rest

/-- The event is not dropped for want of memory. -/
def Appending (d : Decoding) (evt : LiveBuf) : Prop := Appends d.chunker evt.toByteBuf d.alloc

/-- The events come in one after the other. -/
def Decoding.Run (alloc : Allocator) (events : List LiveBuf) (d : Decoding) : Prop :=
  Exec (Of Decoding.step) { alloc } events d

section Runs

variable {bodies : List (List UInt8)} {seen : List UInt8} {d next : Decoding} {evt : LiveBuf}
  {alloc : Allocator} {events : List LiveBuf}

/-- A cut of a well-formed stream is not rejected, and its frames come first. -/
theorem scan_cut (bounded : ∀ body ∈ bodies, body.length ≤ kChunkLimit)
    (cut : seen <+: chunkFormat.encodeAll bodies) :
    (chunkFormat.scan seen).frames <+: bodies ∧ (chunkFormat.scan seen).rejected = false := by
  obtain ⟨frames, accepted⟩ := @Format.scan_encodeAll_take _ chunkFormat bodies bounded seen.length
  rw [← List.prefix_iff_eq_take.mp cut] at frames accepted
  rw [frames]
  exact ⟨Format.completeWithin_front bodies seen.length, accepted⟩

theorem Decoding.after_chunker (out : Outcome) (appended : Bool) :
    (d.after out appended).chunker = out.chunker := rfl

theorem Decoding.after_actions (out : Outcome) (appended : Bool) :
    (d.after out appended).actions = d.actions ++ out.actions := rfl

theorem Decoding.after_lost (out : Outcome) (appended : Bool) :
    (d.after out appended).lost = false ↔ d.lost = false ∧ appended = true := by
  simp only [after, Bool.or_eq_false_iff, Bool.not_eq_false']

theorem Decoding.step_cases (taken : d.step evt = some next) :
    next.chunker = (d.chunker.onInbound evt.toByteBuf d.alloc).chunker ∧
      next.actions = d.actions ++ (d.chunker.onInbound evt.toByteBuf d.alloc).actions ∧
      (next.lost = false ↔ d.lost = false ∧ Appending d evt) := by
  rw [step, Option.some.injEq] at taken
  rw [← taken, after_chunker, after_actions, after_lost, decide_eq_true_eq]
  exact ⟨rfl, rfl, Iff.rfl⟩

theorem carried_fresh : carried {} = [] := Carries.fresh.eq_carried.symm

theorem synced_start (alloc : Allocator) : Synced bodies [] { alloc } := by
  refine ⟨?_, ?_, List.nil_prefix, fun _ => ?_⟩
  · rw [carried_fresh]
    exact Carries.fresh
  · rw [carried_fresh]
    exact Format.head_of_length chunkFormat.width_pos
  · rw [carried_fresh, Format.scan_nil]
    exact ⟨rfl, rfl⟩

/-- What a decoder in step decodes of the next event. -/
theorem Synced.scan_next (synced : Synced bodies seen d) (kept : d.lost = false)
    (accepted : (chunkFormat.scan seen).rejected = false) (more : List UInt8) :
    chunkFormat.scan (seen ++ more) =
      ⟨StageAction.chunks d.actions ++ (chunkFormat.scan (d.chunker.carried ++ more)).frames,
        (chunkFormat.scan (d.chunker.carried ++ more)).rest,
        (chunkFormat.scan (d.chunker.carried ++ more)).rejected⟩ := by
  obtain ⟨chunks, rest⟩ := synced.whole kept
  rw [chunks, rest]
  exact Format.scan_append seen more accepted

theorem Synced.step (synced : Synced bodies seen d) (taken : d.step evt = some next)
    (bounded : ∀ body ∈ bodies, body.length ≤ kChunkLimit)
    (cut : seen ++ evt.content <+: chunkFormat.encodeAll bodies) (kept : InStep d evt) :
    Synced bodies (seen ++ evt.content) next := by
  obtain ⟨chunker, actions, losing⟩ := Decoding.step_cases taken
  have stays := losing.mp
  by_cases idle : Appending d evt → evt.content = []
  · obtain ⟨none, carries⟩ := synced.carries.onInbound_idle synced.waits evt.wf d.alloc idle
    rw [← chunker] at carries
    have same := carries.eq_carried
    rw [none, List.append_nil] at actions
    rw [same] at carries
    refine ⟨carries, ?_, ?_, fun unlost => ?_⟩
    · rw [← same]
      exact synced.waits
    · rw [actions]
      exact synced.fired
    · rw [actions, ← same, idle (stays unlost).2, List.append_nil]
      exact synced.whole (stays unlost).1
  · obtain ⟨appends, some⟩ := Classical.not_imp.mp idle
    have unlost : d.lost = false := Bool.eq_false_iff.mpr fun lost => some ((kept appends).1 lost)
    have before := (List.prefix_append seen evt.content).trans cut
    have decoded := synced.scan_next unlost (scan_cut bounded before).2 evt.content
    obtain ⟨frames, accepted⟩ := scan_cut bounded cut
    obtain ⟨c', fuel, carries, enough, same⟩ :=
      synced.carries.onInbound_appended evt.wf d.alloc appends
    have granted := carries.decode_granted fuel _ (kept appends).2
    obtain ⟨carries', signals⟩ := carries.decode_scan enough _ granted
    rw [decoded] at frames accepted
    dsimp only at frames accepted
    rw [← same, ← chunker, accepted, if_neg Bool.false_ne_true] at carries'
    have rest := carries'.eq_carried
    have chunks : StageAction.chunks next.actions = StageAction.chunks d.actions ++
        (chunkFormat.scan (d.chunker.carried ++ evt.content)).frames := by
      rw [actions, StageAction.chunks_append, same]
      congr 1
      rw [StageAction.chunks_eq, signals, Framing.Scan.signals, accepted, if_neg Bool.false_ne_true,
        List.append_nil, Signal.chunks_map_chunk]
    refine ⟨rest ▸ carries', ?_, chunks ▸ frames, fun _ => ?_⟩
    · rw [← rest]
      exact Format.scan_rest_short _ accepted
    · rw [decoded, ← rest, chunks]
      exact ⟨rfl, rfl⟩

theorem Run.synced (run : Exec (Guarded InStep (Of Decoding.step)) { alloc } events d)
    (bounded : ∀ body ∈ bodies, body.length ≤ kChunkLimit)
    (cut : LiveBuf.stream events <+: chunkFormat.encodeAll bodies) :
    Synced bodies (LiveBuf.stream events) d := by
  induction run with
  | nil => exact synced_start alloc
  | @snoc events d next evt before taken ih =>
      rw [LiveBuf.stream_append, LiveBuf.stream_cons, LiveBuf.stream_nil, List.append_nil] at cut ⊢
      exact (ih ((List.prefix_append _ _).trans cut)).step taken.2 bounded cut taken.1

/-- Where nothing is dropped, chunks in their places come of payloads that got memory. -/
theorem Synced.in_step (synced : Synced bodies seen d) (taken : d.step evt = some next)
    (bounded : ∀ body ∈ bodies, body.length ≤ kChunkLimit)
    (cut : seen ++ evt.content <+: chunkFormat.encodeAll bodies) (unlost : d.lost = false)
    (appends : Appending d evt) (sound : StageAction.chunks next.actions <+: bodies) :
    InStep d evt := by
  obtain ⟨-, actions, -⟩ := Decoding.step_cases taken
  have before := (List.prefix_append seen evt.content).trans cut
  have decoded := synced.scan_next unlost (scan_cut bounded before).2 evt.content
  obtain ⟨⟨more, all⟩, accepted⟩ := scan_cut bounded cut
  obtain ⟨c', fuel, carries, enough, same⟩ :=
    synced.carries.onInbound_appended evt.wf d.alloc appends
  rw [decoded] at all accepted
  dsimp only at all accepted
  rw [← all, List.append_assoc, actions, StageAction.chunks_append, same,
    List.prefix_append_right_inj] at sound
  refine fun _ => ⟨fun lost => ?_, carries.granted_of_chunks enough _ more sound accepted⟩
  rw [unlost] at lost
  cases lost

theorem Run.in_step (run : Exec (Guarded Appending (Of Decoding.step)) { alloc } events d)
    (bounded : ∀ body ∈ bodies, body.length ≤ kChunkLimit)
    (cut : LiveBuf.stream events <+: chunkFormat.encodeAll bodies)
    (sound : StageAction.chunks d.actions <+: bodies) :
    Exec (Guarded InStep (Of Decoding.step)) { alloc } events d ∧ d.lost = false := by
  induction run with
  | nil => exact ⟨.nil, rfl⟩
  | @snoc events d next evt before taken ih =>
      rw [LiveBuf.stream_append, LiveBuf.stream_cons, LiveBuf.stream_nil, List.append_nil] at cut
      have step := taken.2
      have actions := (Decoding.step_cases step).2.1
      have earlier : StageAction.chunks d.actions <+: bodies := by
        rw [actions, StageAction.chunks_append] at sound
        exact (List.prefix_append _ _).trans sound
      have front := (List.prefix_append (LiveBuf.stream events) evt.content).trans cut
      obtain ⟨guarded, unlost⟩ := ih front earlier
      have synced := Run.synced guarded bounded front
      refine ⟨guarded.snoc ⟨synced.in_step step bounded cut unlost taken.1 sound, step⟩, ?_⟩
      exact (Decoding.step_cases step).2.2.mpr ⟨unlost, taken.1⟩

/-- Outbound, a frame leaves whole or not at all unless its header alone gets memory. Inbound, the
chunks of a well-formed stream are fired in their places by a decoder that stays in step, and,
where no event is dropped, by no other. -/
theorem frames_survive_refusals_iff (evt : LiveBuf) (alloc : Allocator) :
    (WholeOrFailed evt.toByteBuf (onOutbound evt.toByteBuf alloc).1 ↔
      ¬ HeaderOnly evt.toByteBuf alloc) ∧
    ∀ (bodies : List (List UInt8)) (events : List LiveBuf) (d : Decoding),
      (∀ body ∈ bodies, body.length ≤ kChunkLimit) → Decoding.Run alloc events d →
      LiveBuf.stream events <+: chunkFormat.encodeAll bodies →
        (Exec (Guarded InStep (Of Decoding.step)) { alloc } events d →
          StageAction.chunks d.actions <+: bodies) ∧
        (Exec (Guarded Appending (Of Decoding.step)) { alloc } events d →
          StageAction.chunks d.actions <+: bodies →
            Exec (Guarded InStep (Of Decoding.step)) { alloc } events d) := by
  refine ⟨whole_or_failed_iff evt.wf alloc, ?_⟩
  intro bodies events d bounded _ cut
  exact ⟨fun kept => (Run.synced kept bounded cut).fired,
    fun appending sound => (Run.in_step appending bounded cut sound).1⟩

/-- An allocator that refuses the calls with these numbers. -/
def refusing (calls : List Nat) : Allocator where
  grants := fun call => !calls.contains call

/-- A frame in one piece, and the beginning of the next, which is lost. -/
def lossyEvents : List LiveBuf :=
  [.ofBytes [1, 0, 0, 0, 7] (by decide), .ofBytes [2, 0, 0, 0, 8, 9] (by decide)]

theorem frames_survive_refusals_iff_lossyEvents :
    ∃ d, Decoding.Run (refusing [2]) lossyEvents d ∧ d.lost = true ∧
      StageAction.chunks d.actions <+: [[7], [8, 9]] := by
  have runs : (Transition.run (Transition.guardedStep
      (fun d evt => decide (InStep d evt)) Decoding.step)
        { alloc := refusing [2] } lossyEvents).isSome = true := by
    decide +kernel
  have kept := Transition.guarded_of_isSome runs
  have sound := ((frames_survive_refusals_iff (.ofBytes [] (by decide)) (refusing [2])).2
    [[7], [8, 9]] lossyEvents _ (by decide) kept.unguarded (by decide)).1 kept
  refine ⟨_, kept.unguarded, ?_, sound⟩
  clear kept sound
  revert runs
  decide +kernel

/-- The payload of the only frame gets no memory. -/
def refusedPayload : List LiveBuf := [.ofBytes [1, 0, 0, 0, 7] (by decide)]

/-- A header leaves without its payload, and an empty chunk is fired for a full one. -/
theorem refusals_break_frames :
    (¬ ∀ (evt : LiveBuf) (alloc : Allocator),
      WholeOrFailed evt.toByteBuf (onOutbound evt.toByteBuf alloc).1) ∧
    ¬ ∀ (bodies : List (List UInt8)) (alloc : Allocator) (events : List LiveBuf) (d : Decoding),
      (∀ body ∈ bodies, body.length ≤ kChunkLimit) → Decoding.Run alloc events d →
      LiveBuf.stream events <+: chunkFormat.encodeAll bodies →
        StageAction.chunks d.actions <+: bodies := by
  constructor
  · intro whole
    have only : HeaderOnly (LiveBuf.ofBytes [7] (by decide)).toByteBuf (refusing [1]) :=
      ⟨by decide, by decide, rfl, rfl⟩
    exact (whole_or_failed_iff (LiveBuf.ofBytes [7] (by decide)).wf (refusing [1])).mp
      (whole _ _) only
  · intro sound
    have runs : (Transition.run Decoding.step { alloc := refusing [1] }
        refusedPayload).isSome = true := by
      decide +kernel
    have misplaced := sound [[7]] (refusing [1]) refusedPayload _ (by decide)
      (Transition.exec_of_isSome runs) (by decide)
    clear sound
    revert runs misplaced
    decide +kernel

end Runs

end Chunker

end Getrafty
