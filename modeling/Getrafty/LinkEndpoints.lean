import Getrafty.Lib.Relay
import Getrafty.ChunkerRoundTrip
import Getrafty.Link

set_option autoImplicit false

namespace Getrafty

open Framing (Format Signal)

namespace Chunker

/-- A payload is turned down for its length, framed, or given up for want of memory. -/
theorem onOutbound_spec {evt : ByteBuf} (wf : evt.WF) (alloc : Allocator) :
    (kChunkLimit < evt.content.length ∧
        onOutbound evt alloc = ([.failure (-EMSGSIZE)], alloc)) ∨
      evt.content.length ≤ kChunkLimit ∧
        ((∃ framed alloc', onOutbound evt alloc = ([.fireOutbound framed], alloc') ∧ framed.WF ∧
            alloc.refused ≤ alloc'.refused ∧ (alloc'.refused = alloc.refused →
              framed.content = chunkFormat.encode evt.content)) ∨
          ∃ alloc', onOutbound evt alloc = ([.failure (-ENOMEM)], alloc') ∧
            alloc.refused < alloc'.refused) := by
  have readable := wf.readableBytes_eq
  by_cases above : kChunkLimit < evt.content.length
  · refine Or.inl ⟨above, ?_⟩
    simp only [onOutbound, readable, above, ↓reduceIte]
  · refine Or.inr ⟨Nat.le_of_not_lt above, ?_⟩
    have word : evt.content.length % 2 ^ 32 = evt.content.length :=
      Nat.mod_eq_of_lt (Nat.lt_of_le_of_lt (Nat.le_of_not_lt above) (by decide))
    have small : (Words.bytesLE evt.content.length).length ≤ maxSize := by
      rw [Words.bytesLE_length]
      decide
    simp only [onOutbound, readable, above, ↓reduceIte, word, ByteBuf.writeUI32, ByteBuf.write]
    rcases ByteBuf.WF.empty.writeRaw_cases small alloc with
      ⟨out, alloc1, wrote, wfOut, head, kept⟩ | ⟨alloc1, threw, refused⟩
    · rw [wrote]
      refine Or.inl ⟨_, _, rfl, ?_⟩
      rcases ByteBuf.transfer_cases wf wfOut evt.content.length alloc1 with
        moves | ⟨alloc2, same, -, refused, -⟩
      · refine ⟨moves.wfDst, (moves.refused.trans kept).ge, fun _ => ?_⟩
        rw [moves.dstContent, head, List.take_length]
        rfl
      · rw [same]
        exact ⟨wfOut, by dsimp only; omega, fun same => by dsimp only at same; omega⟩
    · rw [threw]
      exact Or.inr ⟨_, rfl, by omega⟩

/-- A header above the limit is the only failure of the decode loop. -/
theorem decode_failures (fuel : Nat) (c : Chunker) (alloc : Allocator) :
    ∀ what, .failure what ∈ (decode fuel c alloc).actions → what = -EMSGSIZE := by
  induction fuel generalizing c alloc with
  | zero => exact fun what member => absurd member List.not_mem_nil
  | succ fuel ih =>
      intro what member
      cases turned : c.turn alloc with
      | stop c' =>
          rw [decode, turned] at member
          exact absurd member List.not_mem_nil
      | reject =>
          rw [decode, turned] at member
          exact StageAction.failure.inj (List.mem_singleton.mp member)
      | fire c' payload alloc' =>
          rw [decode, turned, Outcome.after_actions] at member
          rcases List.mem_append.mp member with fired | later
          · cases List.mem_singleton.mp fired
          · exact ih c' alloc' what later

theorem onInbound_failures (c : Chunker) (evt : ByteBuf) (alloc : Allocator) :
    ∀ what, .failure what ∈ (c.onInbound evt alloc).actions → what = -EMSGSIZE :=
  decode_failures _ _ _

end Chunker

namespace Transport

variable {t : Transport} (wf : t.wbuf.WF) (tidy : t.ew.Tidy)

include wf tidy

/-- What a `write` adds to the stream. -/
theorem write_stream {buf : ByteBuf} (wfBuf : buf.WF) :
    (t.write buf).1.wbuf.WF ∧ (t.write buf).1.ew.Tidy ∧
      t.alloc.refused ≤ (t.write buf).1.alloc.refused ∧
      ((t.write buf).1.alloc.refused = t.alloc.refused →
        (t.write buf).1.wbuf.content = t.wbuf.content ++ buf.content) := by
  have carries := carries_write wf tidy ⟨buf, wfBuf⟩
  refine ⟨carries.wf, carries.tidy, carries.refused, fun granted => ?_⟩
  have stream := carries.stream granted
  have sent : sentBytes (t.write buf).2 = [] := by
    unfold write
    split <;> rfl
  have wrote : wroteBytes (t.write buf).2 = buf.content := by
    unfold write
    split <;> exact List.append_nil _
  dsimp only at stream
  rwa [sent, wrote, List.nil_append] at stream

omit wf tidy in
/-- Without a reply, what follows the loop of `onWritable` neither allocates nor writes. -/
theorem afterLoop_nil (t : Transport) (stopped : Stopped) :
    (t.afterLoop stopped []).1.alloc = t.alloc ∧ wroteBytes (t.afterLoop stopped []).2 = [] := by
  unfold afterLoop
  dsimp only
  split
  · split
    · exact ⟨rfl, rfl⟩
    · exact ⟨by rw [unwatchWritable_eq], rfl⟩
  · exact ⟨by rw [writeAll, unwatchWritable_eq], rfl⟩

/-- `onWritable` moves bytes from the write buffer to the kernel. -/
theorem onWritable_stream (outcomes : Nat → WriteOutcome) :
    (t.onWritable outcomes []).1.wbuf.WF ∧ (t.onWritable outcomes []).1.ew.Tidy ∧
      (t.onWritable outcomes []).1.alloc.refused = t.alloc.refused ∧
      sentBytes (t.onWritable outcomes []).2 ++ (t.onWritable outcomes []).1.wbuf.content =
        t.wbuf.content := by
  have carries := carries_onWritable wf tidy outcomes []
  obtain ⟨alloc, wrote⟩ := afterLoop_nil t (writeLoop outcomes 256 t.wbuf)
  have same : (t.onWritable outcomes []).1.alloc.refused = t.alloc.refused :=
    congrArg Allocator.refused alloc
  have stream := carries.stream same
  rw [show wroteBytes (t.onWritable outcomes []).2 = [] from wrote, List.append_nil] at stream
  exact ⟨carries.wf, carries.tidy, same, stream⟩

omit wf tidy in
/-- The bytes that `readSome` stored are those it received, unless an allocation is refused. -/
theorem readLoop_granted (received : List Received) {buf : ByteBuf} (wf : buf.WF)
    (alloc : Allocator) :
    (readLoop received buf alloc).1.WF ∧
      ((readLoop received buf alloc).2.refused = alloc.refused →
        (readLoop received buf alloc).1.content = buf.content ++ drained received) := by
  induction received generalizing buf alloc with
  | nil => exact ⟨wf, fun _ => (List.append_nil _).symm⟩
  | cons chunk more ih =>
      have small : chunk.bytes.length ≤ maxSize := chunk.fits.trans (by decide)
      rcases wf.writeRaw_cases small alloc with
        ⟨after, alloc', stored, wfAfter, content, kept⟩ | ⟨alloc', stuck, refused⟩
      · obtain ⟨wfLast, same⟩ := ih wfAfter alloc'
        rw [readLoop, stored]
        refine ⟨wfLast, fun granted => ?_⟩
        rw [same (granted.trans kept.symm), content, drained_cons, List.append_assoc]
      · obtain ⟨wfLast, -⟩ := ih wf alloc'
        have grown := readLoop_refused more wf alloc'
        rw [readLoop, stuck]
        exact ⟨wfLast, fun granted => by dsimp only at granted; omega⟩

end Transport

/-- The payloads that `onOutbound` takes. -/
def taken (payloads : List (List UInt8)) : List (List UInt8) :=
  payloads.filter fun payload => payload.length ≤ kChunkLimit

/-- The number of those that it turns down. -/
def turnedDown (payloads : List (List UInt8)) : Nat :=
  payloads.countP fun payload => kChunkLimit < payload.length

@[simp] theorem taken_nil : taken [] = [] := rfl

@[simp] theorem turnedDown_nil : turnedDown [] = 0 := rfl

theorem taken_append (front back : List (List UInt8)) :
    taken (front ++ back) = taken front ++ taken back := List.filter_append front back

theorem turnedDown_append (front back : List (List UInt8)) :
    turnedDown (front ++ back) = turnedDown front + turnedDown back := by
  simp only [turnedDown, List.countP_append]

theorem taken_of_fits {payload : List UInt8} (fits : payload.length ≤ kChunkLimit) :
    taken [payload] = [payload] ∧ turnedDown [payload] = 0 := by
  have within : ¬ kChunkLimit < payload.length := Nat.not_lt.mpr fits
  constructor
  · exact List.filter_cons_of_pos (decide_eq_true fits)
  · exact List.countP_cons_of_neg (by simpa only [decide_eq_true_eq] using within)

theorem taken_of_above {payload : List UInt8} (above : kChunkLimit < payload.length) :
    taken [payload] = [] ∧ turnedDown [payload] = 1 := by
  have outside : ¬ payload.length ≤ kChunkLimit := Nat.not_le.mpr above
  constructor
  · exact List.filter_cons_of_neg (by simpa only [decide_eq_true_eq] using outside)
  · exact List.countP_cons_of_pos (decide_eq_true above)

namespace Endpoint

/-- What a call at one end comes to: the application is fired `chunks`, the `Chunker` gives up
`rejected` inputs, the application fires `payloads` and the kernel accepts `accepted`. -/
structure Moves (e next : Endpoint) (chunks : List (List UInt8)) (rejected : Nat)
    (payloads : List (List UInt8)) (accepted : List UInt8) : Prop where
  wf : next.transport.wbuf.WF
  tidy : next.transport.ew.Tidy
  chunker : next.chunker = e.chunker
  inbound : next.inbound = e.inbound
  delivered : next.delivered = e.delivered ++ chunks
  fired : next.fired = e.fired ++ payloads
  written : e.transport.alloc.refused ≤ next.transport.alloc.refused
  framed : e.outbound.refused ≤ next.outbound.refused
  granted : next.transport.alloc.refused = e.transport.alloc.refused →
    next.outbound.refused = e.outbound.refused →
      accepted ++ next.transport.wbuf.content =
          e.transport.wbuf.content ++ chunkFormat.encodeAll (taken payloads) ∧
        next.failures =
          e.failures ++ List.replicate (rejected + turnedDown payloads) (-EMSGSIZE)

section Moves

variable {e middle next : Endpoint}

theorem Moves.refl (wf : e.transport.wbuf.WF) (tidy : e.transport.ew.Tidy) :
    Moves e e [] 0 [] [] := by
  refine ⟨wf, tidy, rfl, rfl, (List.append_nil _).symm, (List.append_nil _).symm, Nat.le_refl _,
    Nat.le_refl _, fun _ _ => ?_⟩
  simp only [taken_nil, turnedDown_nil, Format.encodeAll_nil, List.append_nil, List.nil_append,
    Nat.add_zero, List.replicate_zero, and_self]

theorem Moves.trans {chunks chunks' payloads payloads' : List (List UInt8)}
    {rejected rejected' : Nat}
    {accepted accepted' : List UInt8} (front : Moves e middle chunks rejected payloads accepted)
    (back : Moves middle next chunks' rejected' payloads' accepted') :
    Moves e next (chunks ++ chunks') (rejected + rejected') (payloads ++ payloads')
      (accepted ++ accepted') := by
  refine ⟨back.wf, back.tidy, back.chunker.trans front.chunker, back.inbound.trans front.inbound,
    ?_, ?_, front.written.trans back.written, front.framed.trans back.framed, ?_⟩
  · rw [back.delivered, front.delivered, List.append_assoc]
  · rw [back.fired, front.fired, List.append_assoc]
  · intro written framed
    have before := front.written
    have later := back.written
    have before' := front.framed
    have later' := back.framed
    obtain ⟨stream, failures⟩ := front.granted (by omega) (by omega)
    obtain ⟨stream', failures'⟩ := back.granted (by omega) (by omega)
    constructor
    · rw [List.append_assoc, stream', ← List.append_assoc, stream, taken_append,
        Format.encodeAll_append, List.append_assoc]
    · have sum : rejected + turnedDown payloads + (rejected' + turnedDown payloads') =
          rejected + rejected' + (turnedDown payloads + turnedDown payloads') := by omega
      rw [failures', failures, turnedDown_append, List.append_assoc,
        List.replicate_append_replicate, sum]

/-- A call that leaves the write buffer as it is. -/
theorem Moves.of_same (e : Endpoint) (transport : Transport) (wf : e.transport.wbuf.WF)
    (tidy : transport.ew.Tidy) (wbuf : transport.wbuf = e.transport.wbuf)
    (written : e.transport.alloc.refused ≤ transport.alloc.refused) :
    Moves e { e with transport } [] 0 [] [] := by
  refine ⟨?_, tidy, rfl, rfl, (List.append_nil _).symm, (List.append_nil _).symm, written,
    Nat.le_refl _, fun _ _ => ⟨?_, (List.append_nil _).symm⟩⟩
  · dsimp only
    rw [wbuf]
    exact wf
  · dsimp only
    rw [wbuf]
    exact (List.append_nil _).symm

/-- A payload that ends up in the write buffer as one frame. -/
theorem Moves.of_framed {transport : Transport} {outbound : Allocator} {payload : List UInt8}
    (fits : payload.length ≤ kChunkLimit) (wf : transport.wbuf.WF) (tidy : transport.ew.Tidy)
    (written : e.transport.alloc.refused ≤ transport.alloc.refused)
    (framed : e.outbound.refused ≤ outbound.refused)
    (stream : transport.alloc.refused = e.transport.alloc.refused →
      outbound.refused = e.outbound.refused →
        transport.wbuf.content = e.transport.wbuf.content ++ chunkFormat.encode payload) :
    Moves e { e with transport, outbound, fired := e.fired ++ [payload] } [] 0 [payload] [] := by
  obtain ⟨whole, none⟩ := taken_of_fits fits
  refine ⟨wf, tidy, rfl, rfl, (List.append_nil _).symm, rfl, written, framed,
    fun grantedWrite grantedFrame => ?_⟩
  rw [whole, none, Format.encodeAll_cons, Format.encodeAll_nil, List.append_nil, List.nil_append]
  exact ⟨stream grantedWrite grantedFrame, (List.append_nil _).symm⟩

end Moves

section Calls

variable {e : Endpoint} (wf : e.transport.wbuf.WF) (tidy : e.transport.ew.Tidy)

include wf tidy

theorem moves_send (evt : LiveBuf) : Moves e (e.send evt) [] 0 [evt.content] [] := by
  rcases Chunker.onOutbound_spec evt.wf e.outbound with
    ⟨above, refused⟩ | ⟨fits, ⟨framed, alloc', made, wfFramed, more, content⟩ |
      ⟨alloc', gaveUp, more⟩⟩
  · have one := taken_of_above above
    simp only [send, refused, written]
    refine ⟨wf, tidy, rfl, rfl, (List.append_nil _).symm, rfl, Nat.le_refl _, Nat.le_refl _,
      fun _ _ => ?_⟩
    rw [one.1, one.2]
    exact ⟨(List.append_nil _).symm, rfl⟩
  · obtain ⟨wfNext, tidyNext, written, stream⟩ := Transport.write_stream wf tidy wfFramed
    simp only [send, made, Endpoint.written]
    apply Moves.of_framed fits wfNext tidyNext written more
    intro grantedWrite grantedFrame
    rw [stream grantedWrite, content grantedFrame]
  · simp only [send, gaveUp, Endpoint.written]
    exact ⟨wf, tidy, rfl, rfl, (List.append_nil _).symm, rfl, Nat.le_refl _, more.le,
      fun _ same => absurd same more.ne'⟩

theorem moves_sendAll (evts : List LiveBuf) :
    Moves e (e.sendAll evts) [] 0 (evts.map fun evt => evt.content) [] := by
  induction evts generalizing e with
  | nil => exact .refl wf tidy
  | cons evt evts ih =>
      have first := moves_send wf tidy evt
      exact first.trans (ih first.wf first.tidy)

/-- The application is fired what the `Chunker` fires, whatever it answers. -/
theorem moves_deliver (answer : List UInt8 → List LiveBuf) (actions : List StageAction)
    (only : ∀ what, .failure what ∈ actions → what = -EMSGSIZE) :
    ∃ payloads, Moves e (e.deliver answer actions) (StageAction.chunks actions)
      (StageAction.failures actions).length payloads [] := by
  induction actions generalizing e with
  | nil => exact ⟨[], .refl wf tidy⟩
  | cons action actions ih =>
      have later : ∀ what, .failure what ∈ actions → what = -EMSGSIZE := fun what member =>
        only what (List.mem_cons_of_mem _ member)
      cases action with
      | fireInbound chunk =>
          have fired : Moves e { e with delivered := e.delivered ++ [chunk.content] }
              [chunk.content] 0 [] [] := by
            refine ⟨wf, tidy, rfl, rfl, rfl, (List.append_nil _).symm, Nat.le_refl _,
              Nat.le_refl _, fun _ _ => ⟨?_, (List.append_nil _).symm⟩⟩
            exact (List.append_nil _).symm
          have answered := fired.trans (moves_sendAll fired.wf fired.tidy (answer chunk.content))
          obtain ⟨payloads, rest⟩ := ih answered.wf answered.tidy later
          have both := answered.trans rest
          simp only [Nat.zero_add, List.append_nil, List.nil_append] at both
          exact ⟨_, both⟩
      | failure what =>
          have error := only what List.mem_cons_self
          have failed : Moves e { e with failures := e.failures ++ [what] } [] 1 [] [] := by
            refine ⟨wf, tidy, rfl, rfl, (List.append_nil _).symm, (List.append_nil _).symm,
              Nat.le_refl _, Nat.le_refl _, fun _ _ => ⟨?_, ?_⟩⟩
            · exact (List.append_nil _).symm
            · rw [error]
              rfl
          obtain ⟨payloads, rest⟩ :=
            @ih { e with failures := e.failures ++ [what] } wf tidy later
          have both := failed.trans rest
          rw [Nat.add_comm] at both
          exact ⟨_, both⟩
      | fireOutbound framed => exact ih wf tidy later

end Calls

/-- What a call comes to when it receives `segment` from the other end. -/
structure Conveys (e next : Endpoint) (payloads : List (List UInt8))
    (segment accepted : List UInt8) :
    Prop where
  wf : next.transport.wbuf.WF
  tidy : next.transport.ew.Tidy
  sound : ∃ carry, Chunker.Carries next.chunker carry
  written : e.transport.alloc.refused ≤ next.transport.alloc.refused
  decoded : e.inbound.refused ≤ next.inbound.refused
  framed : e.outbound.refused ≤ next.outbound.refused
  fired : next.fired = e.fired ++ payloads
  sent : next.transport.alloc.refused = e.transport.alloc.refused →
    next.outbound.refused = e.outbound.refused →
      accepted ++ next.transport.wbuf.content =
        e.transport.wbuf.content ++ chunkFormat.encodeAll (taken payloads)
  received : next.transport.alloc.refused = e.transport.alloc.refused →
    next.inbound.refused = e.inbound.refused → next.outbound.refused = e.outbound.refused →
      ∀ carry, Chunker.Carries e.chunker carry → chunkFormat.head carry = .short →
        ∀ bodies, (chunkFormat.feed carry segment).2 = bodies.map .chunk →
          Chunker.Carries next.chunker (chunkFormat.feed carry segment).1 ∧
            next.delivered = e.delivered ++ bodies ∧
            next.failures = e.failures ++ List.replicate (turnedDown payloads) (-EMSGSIZE)

/-- A call that receives nothing. -/
theorem Moves.conveys {e next : Endpoint} {payloads : List (List UInt8)} {accepted : List UInt8}
    (moves : Moves e next [] 0 payloads accepted) {carry : List UInt8}
    (carries : Chunker.Carries e.chunker carry) : Conveys e next payloads [] accepted := by
  refine ⟨moves.wf, moves.tidy, ⟨carry, ?_⟩, moves.written, moves.inbound ▸ Nat.le_refl _,
    moves.framed, moves.fired, fun written framed => (moves.granted written framed).1, ?_⟩
  · rw [moves.chunker]
    exact carries
  · intro written _ framed carry carries short bodies fed
    have none : chunkFormat.feed carry [] = (carry, []) := by
      simp only [Format.feed, List.append_nil, Format.scan_short short, Framing.Scan.signals,
        Bool.false_eq_true, ↓reduceIte, List.map_nil]
    rw [none] at fed ⊢
    have noBodies : bodies = [] := List.map_eq_nil_iff.mp fed.symm
    refine ⟨?_, ?_, ?_⟩
    · rw [moves.chunker]
      exact carries
    · rw [moves.delivered, noBodies]
    · rw [(moves.granted written framed).2, Nat.zero_add]

theorem onReadable_wbuf (t : Transport) (received : List Received) (last : RecvEnd) :
    (t.onReadable received last).1 =
      { t with alloc := (Transport.readLoop received {} t.alloc).2 } := rfl

theorem conveys_onReadable {e : Endpoint} (wf : e.transport.wbuf.WF) (tidy : e.transport.ew.Tidy)
    {carry : List UInt8} (carries : Chunker.Carries e.chunker carry) (received : List Received)
    (last : RecvEnd) (answer : List UInt8 → List LiveBuf) :
    ∃ payloads, Conveys e (e.onReadable received last answer) payloads
      (Transport.drained received) [] := by
  obtain ⟨wfBuf, content⟩ := Transport.readLoop_granted received ByteBuf.WF.empty e.transport.alloc
  have more := Transport.readLoop_refused received ByteBuf.WF.empty e.transport.alloc
  rw [ByteBuf.content_empty, List.nil_append] at content
  obtain ⟨stored, read⟩ : ∃ stored, Transport.readLoop received {} e.transport.alloc = stored :=
    ⟨_, rfl⟩
  rw [read] at wfBuf content more
  simp only [onReadable, onReadable_wbuf, read]
  by_cases some : 0 < stored.1.readableBytes
  · simp only [some, ↓reduceIte]
    obtain ⟨⟨carry', sound⟩, grown, -, -⟩ := carries.onInbound_sound wfBuf e.inbound
    have feed := fun (carry : List UInt8) (carries : Chunker.Carries e.chunker carry) =>
      carries.onInbound_feed wfBuf e.inbound
    have only := Chunker.onInbound_failures e.chunker stored.1 e.inbound
    obtain ⟨decoded, ran⟩ : ∃ decoded, e.chunker.onInbound stored.1 e.inbound = decoded := ⟨_, rfl⟩
    rw [ran] at sound grown only
    simp only [ran] at feed
    rw [ran]
    obtain ⟨payloads, moves⟩ := moves_deliver (e := { e with
        transport := { e.transport with alloc := stored.2 }
        chunker := decoded.chunker
        inbound := decoded.alloc }) wf tidy answer decoded.actions only
    refine ⟨payloads, moves.wf, moves.tidy, ⟨carry', ?_⟩, more.trans moves.written, ?_,
      moves.framed, moves.fired, ?_, ?_⟩
    · rw [moves.chunker]
      exact sound
    · rw [moves.inbound]
      exact grown
    · intro written framed
      have later := moves.written
      exact (moves.granted (by dsimp only at later ⊢; omega) framed).1
    · intro written inbound framed carry carries short bodies fed
      have later := moves.written
      have kept : stored.2.refused = e.transport.alloc.refused := by
        dsimp only at later
        omega
      rw [moves.inbound] at inbound
      obtain ⟨after, signals⟩ := feed carry carries inbound
      rw [content kept] at after signals
      rw [fed] at signals
      have chunks : StageAction.chunks decoded.actions = bodies := by
        rw [StageAction.chunks_eq, signals, Signal.chunks_map_chunk]
      refine ⟨?_, ?_, ?_⟩
      · rw [moves.chunker]
        exact after
      · rw [moves.delivered, chunks]
      · rw [(moves.granted (by dsimp only; omega) framed).2,
          StageAction.failures_eq_nil signals, List.length_nil, Nat.zero_add]
  · simp only [some, ↓reduceIte]
    have none : stored.1.content = [] := by
      rw [wfBuf.readableBytes_eq] at some
      exact List.eq_nil_of_length_eq_zero (by omega)
    have still := Moves.conveys (Moves.of_same e { e.transport with alloc := stored.2 }
      wf tidy rfl more) carries
    refine ⟨[], still.wf, still.tidy, still.sound, still.written, still.decoded, still.framed,
      still.fired, still.sent, fun written inbound framed => ?_⟩
    rw [← content written, none]
    exact still.received written inbound framed

end Endpoint

end Getrafty
