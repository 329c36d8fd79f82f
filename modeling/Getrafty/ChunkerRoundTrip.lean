import Getrafty.ChunkerRefinement

set_option autoImplicit false

namespace Getrafty

open Words (bytesLE)
open Framing (Format Signal)

namespace StageAction

theorem failures_append (front back : List StageAction) :
    failures (front ++ back) = failures front ++ failures back := by
  induction front with
  | nil => rfl
  | cons action front ih =>
      cases action with
      | failure what => exact congrArg (what :: ·) ih
      | fireInbound buf => exact ih
      | fireOutbound buf => exact ih

/-- A failure is the only action the abstract reader sees as a rejection. -/
theorem failures_eq_nil {actions : List StageAction} {bodies : List (List UInt8)}
    (all : signals actions = bodies.map .chunk) : failures actions = [] := by
  induction actions generalizing bodies with
  | nil => rfl
  | cons action actions ih =>
      cases action with
      | fireOutbound buf => exact ih all
      | fireInbound buf =>
          cases bodies with
          | nil => cases all
          | cons body bodies => exact ih (List.cons.inj all).2
      | failure what =>
          cases bodies with
          | nil => cases all
          | cons body bodies => cases (List.cons.inj all).1

end StageAction

namespace Chunker

/-- A payload within the limit leaves as one frame, unless an allocation is refused. -/
theorem onOutbound_cases {evt : ByteBuf} (wf : evt.WF) (bounded : evt.content.length ≤ kChunkLimit)
    (alloc : Allocator) :
    ∃ actions alloc', onOutbound evt alloc = (actions, alloc') ∧
      ((alloc'.refused = alloc.refused ∧ ∃ framed, actions = [.fireOutbound framed] ∧
          framed.content = chunkFormat.encode evt.content) ∨
        alloc.refused < alloc'.refused) := by
  have readable := wf.readableBytes_eq
  have fits : ¬ kChunkLimit < evt.content.length := by omega
  have word : evt.content.length % 2 ^ 32 = evt.content.length :=
    Nat.mod_eq_of_lt (Nat.lt_of_le_of_lt bounded (by decide))
  have small : (bytesLE evt.content.length).length ≤ maxSize := by
    rw [Words.bytesLE_length]
    decide
  unfold onOutbound
  simp only [readable, fits, ↓reduceIte, word, ByteBuf.writeUI32, ByteBuf.write]
  rcases ByteBuf.WF.empty.writeRaw_cases small alloc with
    ⟨out, alloc1, wrote, wfOut, head, kept⟩ | ⟨alloc1, threw, refused⟩
  · refine ⟨_, _, by rw [wrote], ?_⟩
    rcases ByteBuf.transfer_cases wf wfOut evt.content.length alloc1 with
      moves | ⟨alloc2, same, -, refused, -⟩
    · refine Or.inl ⟨moves.refused.trans kept, _, rfl, ?_⟩
      rw [moves.dstContent, head, List.take_length]
      rfl
    · rw [same]
      exact Or.inr (by dsimp only; omega)
  · exact ⟨_, _, by rw [threw], Or.inr (by omega)⟩

theorem send_refused (sent : List LiveBuf)
    (bounded : ∀ evt ∈ sent, evt.content.length ≤ kChunkLimit) (alloc : Allocator) :
    alloc.refused ≤ (send sent alloc).2.refused := by
  induction sent generalizing alloc with
  | nil => exact Nat.le_refl _
  | cons evt sent ih =>
      obtain ⟨actions, alloc', first, result⟩ :=
        onOutbound_cases evt.wf (bounded evt List.mem_cons_self) alloc
      have rest := ih (fun e member => bounded e (List.mem_cons_of_mem _ member)) alloc'
      simp only [send, first]
      rcases result with ⟨kept, -⟩ | more <;> omega

/-- What the sender puts on the wire is the abstract encoding of its payloads. -/
theorem send_wire (sent : List LiveBuf)
    (bounded : ∀ evt ∈ sent, evt.content.length ≤ kChunkLimit) (alloc : Allocator)
    (granted : (send sent alloc).2.refused = alloc.refused) :
    StageAction.wire (send sent alloc).1 =
        chunkFormat.encodeAll (sent.map (fun evt => evt.content)) ∧
      StageAction.failures (send sent alloc).1 = [] := by
  induction sent generalizing alloc with
  | nil => exact ⟨rfl, rfl⟩
  | cons evt sent ih =>
      have boundedRest := fun e member => bounded e (List.mem_cons_of_mem evt member)
      obtain ⟨actions, alloc', first, result⟩ :=
        onOutbound_cases evt.wf (bounded evt List.mem_cons_self) alloc
      have rest := send_refused sent boundedRest alloc'
      simp only [send, first] at granted ⊢
      rcases result with ⟨kept, framed, rfl, content⟩ | more
      · obtain ⟨wire, none⟩ := ih boundedRest alloc' (by omega)
        rw [StageAction.wire_append, StageAction.failures_append, wire, none]
        refine ⟨?_, rfl⟩
        simp only [StageAction.wire, content, List.append_nil, List.map_cons, Format.encodeAll,
          List.flatten_cons]
      · omega

/-- The decoder undoes the encoder however the wire is cut into events, and after every
prefix of the events it has fired what that prefix completes. -/
theorem receive_undoes_send (sent : List LiveBuf)
    (bounded : ∀ evt ∈ sent, evt.content.length ≤ kChunkLimit) (allocOut : Allocator)
    (sentAll : (send sent allocOut).2.refused = allocOut.refused) (events : List LiveBuf)
    (cut : LiveBuf.stream events = StageAction.wire (send sent allocOut).1) (allocIn : Allocator)
    (receivedAll : (receive {} events allocIn).alloc.refused = allocIn.refused) :
    StageAction.failures (send sent allocOut).1 = [] ∧
      StageAction.chunks (receive {} events allocIn).actions =
        sent.map (fun evt => evt.content) ∧
      StageAction.failures (receive {} events allocIn).actions = [] ∧
      ∀ seen later, events = seen ++ later →
        StageAction.chunks (receive {} seen allocIn).actions =
          chunkFormat.completeWithin (sent.map (fun evt => evt.content))
            (LiveBuf.stream seen).length := by
  obtain ⟨wire, none⟩ := send_wire sent bounded allocOut sentAll
  have boundedBodies : ∀ body ∈ sent.map (fun evt => evt.content),
      body.length ≤ chunkFormat.limit := by
    intro body member
    obtain ⟨evt, inside, rfl⟩ := List.mem_map.mp member
    exact bounded evt inside
  have fired : ∀ seen later, events = seen ++ later →
      StageAction.signals (receive {} seen allocIn).actions =
        (chunkFormat.completeWithin (sent.map (fun evt => evt.content))
          (LiveBuf.stream seen).length).map .chunk := by
    intro seen later split
    have granted := Carries.fresh.receive_front seen later allocIn
        (by rw [← split]; exact receivedAll)
    obtain ⟨-, feed⟩ := Carries.fresh.receive_feedAll seen allocIn granted
    -- the bytes seen are a cut of the encoding
    have seenIs : LiveBuf.stream seen =
        (chunkFormat.encodeAll (sent.map (fun evt => evt.content))).take
          (LiveBuf.stream seen).length := by
      rw [← wire, ← cut, split, LiveBuf.stream_append, List.take_left]
    obtain ⟨frames, accepted⟩ :=
      Format.scan_encodeAll_take _ boundedBodies (LiveBuf.stream seen).length
    rw [← seenIs] at frames accepted
    rw [feed, Format.feedAll_accepted [] _ (Format.head_of_length chunkFormat.width_pos) accepted]
    exact congrArg (List.map Signal.chunk) frames
  have everything := fired events [] (List.append_nil events).symm
  rw [Format.completeWithin_all _ (Nat.le_of_eq (by rw [cut, wire]))] at everything
  refine ⟨none, ?_, StageAction.failures_eq_nil everything, fun seen later split => ?_⟩
  · rw [StageAction.chunks_eq, everything, Signal.chunks_map_chunk]
  · rw [StageAction.chunks_eq, fired seen later split, Signal.chunks_map_chunk]

theorem receive_undoes_send_split_header :
    StageAction.chunks (receive {}
      [.ofBytes [1, 0] (by decide), .ofBytes [0, 0, 7, 0, 0] (by decide),
      .ofBytes [0, 0] (by decide)] .unlimited).actions = [[7], []] :=
  (receive_undoes_send [.ofBytes [7] (by decide), .ofBytes [] (by decide)] (by decide) .unlimited
    (by decide) [.ofBytes [1, 0] (by decide), .ofBytes [0, 0, 7, 0, 0] (by decide),
      .ofBytes [0, 0] (by decide)] (by decide) .unlimited (by decide)).2.1

end Chunker

end Getrafty
