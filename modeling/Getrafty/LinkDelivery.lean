import Getrafty.LinkEndpoints

set_option autoImplicit false

namespace Getrafty

open Framing (Format Relay)
open Transition (Exec Of)

theorem Side.other_other (side : Side) : side.other.other = side := by
  cases side <;> rfl

theorem Side.other_ne (side : Side) : side.other ≠ side := by
  cases side <;> decide

namespace Link

open Endpoint (Conveys Moves)

/-- What holds at an end whatever its allocations come to. -/
structure Sound (e : Endpoint) : Prop where
  wf : e.transport.wbuf.WF
  tidy : e.transport.ew.Tidy
  carries : ∃ carry, Chunker.Carries e.chunker carry

/-- One end makes a call: it takes `segment` off the stream from the other end and adds
`accepted` to its own. -/
structure Called (l next : Link) (side : Side) (payloads : List (List UInt8))
    (segment accepted : List UInt8) : Prop where
  conveys : Conveys (l.ends side) (next.ends side) payloads segment accepted
  other : next.ends side.other = l.ends side.other
  accepts : next.wire side = l.wire side ++ accepted
  receives : l.wire side.other = segment ++ next.wire side.other

section Steps

variable {l next : Link} {side : Side}

theorem set_same (l : Link) (side : Side) (e : Endpoint) : (l.set side e).ends side = e := by
  simp only [set, Function.update_self]

theorem set_other (l : Link) (side : Side) (e : Endpoint) :
    (l.set side e).ends side.other = l.ends side.other := by
  simp only [set, Function.update_of_ne side.other_ne]

/-- A call that receives nothing and gives nothing to the kernel. -/
theorem called_set {e : Endpoint} {payloads : List (List UInt8)}
    (moves : Moves (l.ends side) e [] 0 payloads []) (sound : Sound (l.ends side)) :
    Called l (l.set side e) side payloads [] [] := by
  obtain ⟨carry, carries⟩ := sound.carries
  refine ⟨?_, l.set_other side e, (List.append_nil _).symm, rfl⟩
  rw [set_same]
  exact moves.conveys carries

theorem called_onWritable (sound : Sound (l.ends side)) (outcomes : Nat → WriteOutcome)
    (done : l.perform (.onWritable side outcomes) = some next) :
    ∃ accepted, Called l next side [] [] accepted := by
  obtain ⟨carry, carries⟩ := sound.carries
  obtain ⟨wf, tidy, alloc, stream⟩ :=
    Transport.onWritable_stream sound.wf sound.tidy outcomes
  obtain ⟨out, wrote⟩ : ∃ out, (l.ends side).transport.onWritable outcomes [] = out := ⟨_, rfl⟩
  rw [wrote] at wf tidy alloc stream
  have moves : Moves (l.ends side) { l.ends side with transport := out.1 } [] 0 []
      (Transport.sentBytes out.2) := by
    refine ⟨wf, tidy, rfl, rfl, (List.append_nil _).symm, (List.append_nil _).symm, alloc.ge,
      Nat.le_refl _, fun _ _ => ⟨?_, (List.append_nil _).symm⟩⟩
    exact stream.trans (List.append_nil _).symm
  rw [perform, Option.some.injEq, wrote] at done
  subst done
  refine ⟨Transport.sentBytes out.2, ?_, ?_, ?_, ?_⟩
  · simp only [setTransport, set, Function.update_self]
    exact moves.conveys carries
  · exact l.set_other side _
  · simp only [Function.update_self]
  · simp only [Function.update_of_ne side.other_ne, List.nil_append]

theorem called_onReadable (sound : Sound (l.ends side)) (received : List Received) (last : RecvEnd)
    (answer : List UInt8 → List LiveBuf)
    (done : l.perform (.onReadable side received last answer) = some next) :
    ∃ payloads, Called l next side payloads (Transport.drained received) [] := by
  obtain ⟨carry, carries⟩ := sound.carries
  rw [perform] at done
  split at done
  · rename_i receives
    rw [Option.some.injEq] at done
    subst done
    obtain ⟨rest, front⟩ := receives.1
    obtain ⟨payloads, conveys⟩ :=
      Endpoint.conveys_onReadable sound.wf sound.tidy carries received last answer
    refine ⟨payloads, ?_, ?_, ?_, ?_⟩
    · simp only [set, Function.update_self]
      exact conveys
    · exact l.set_other side _
    · simp only [Function.update_of_ne side.other_ne.symm, List.append_nil]
    · simp only [Function.update_self]
      rw [← front, List.drop_left]
  · cases done

theorem called_destroy (sound : Sound (l.ends side))
    (done : l.perform (.destroy side) = some next) :
    Called l next side [] [] [] := by
  obtain ⟨carry, carries⟩ := sound.carries
  rw [perform, Option.some.injEq] at done
  subst done
  have destroyed := Transport.carries_destroy sound.wf sound.tidy
  have same : (l.ends side).transport.destroy.1.wbuf = (l.ends side).transport.wbuf := by
    simp only [Transport.destroy, Transport.inline_unwatch]
  have conveys := (Moves.of_same _ _ sound.wf destroyed.tidy same destroyed.refused).conveys carries
  refine ⟨?_, l.set_other side _, (List.append_nil _).symm, rfl⟩
  rw [set_same]
  exact ⟨conveys.wf, conveys.tidy, conveys.sound, conveys.written, conveys.decoded,
    conveys.framed, conveys.fired, conveys.sent, conveys.received⟩

theorem perform_called {op : Op} (sound : Sound (l.ends op.side))
    (done : l.perform op = some next) :
    ∃ payloads segment accepted, Called l next op.side payloads segment accepted := by
  cases op with
  | send side evt =>
      rw [perform, Option.some.injEq] at done
      subst done
      exact ⟨_, _, _, called_set (Endpoint.moves_send sound.wf sound.tidy evt) sound⟩
  | flush side =>
      rw [perform, Option.some.injEq] at done
      subst done
      have flushed := Transport.carries_flush sound.wf sound.tidy
      have same : (l.ends side).transport.flush.wbuf = (l.ends side).transport.wbuf := by
        unfold Transport.flush
        split
        · rw [Transport.watchWritable_eq]
        · rfl
      exact ⟨_, _, _, called_set (.of_same _ _ sound.wf flushed.tidy same flushed.refused) sound⟩
  | onWritable side outcomes =>
      obtain ⟨accepted, called⟩ := called_onWritable sound outcomes done
      exact ⟨_, _, _, called⟩
  | readableStateChanged side readable =>
      rw [perform, Option.some.injEq] at done
      subst done
      have changed := Transport.carries_readableStateChanged sound.wf sound.tidy readable
      have same : ((l.ends side).transport.readableStateChanged readable).wbuf =
          (l.ends side).transport.wbuf := by
        unfold Transport.readableStateChanged
        split
        · rw [Transport.inline_watch]
        · rw [Transport.inline_unwatch]
      exact ⟨_, _, _, called_set (.of_same _ _ sound.wf changed.tidy same changed.refused) sound⟩
  | onReadable side received last answer =>
      obtain ⟨payloads, called⟩ := called_onReadable sound received last answer done
      exact ⟨_, _, _, called⟩
  | destroy side => exact ⟨_, _, _, called_destroy sound done⟩

theorem step_called {op : Op} (sound : Sound (l.ends op.side)) (taken : step l op = some next) :
    ∃ payloads segment accepted, Called l next op.side payloads segment accepted := by
  unfold step at taken
  split at taken
  · cases taken
  · exact perform_called sound taken

end Steps

/-- The stream from one side: what its application fired is delivered on the other side, carried by
the `Chunker` there, on the way or in the write buffer. -/
structure Conducts (l : Link) (side : Side) (carry : List UInt8) : Prop where
  carries : Chunker.Carries (l.ends side.other).chunker carry
  relay : Relay chunkFormat (taken (l.ends side).fired) (l.ends side.other).delivered carry
    (l.wire side ++ (l.ends side).transport.wbuf.content)
  failures : (l.ends side).failures =
    List.replicate (turnedDown (l.ends side).fired) (-EMSGSIZE)

/-- What every call keeps at both ends and in both directions. -/
structure Kept (l : Link) : Prop where
  sound : ∀ side, Sound (l.ends side)
  conducts : l.Granted → ∀ side, ∃ carry, Conducts l side carry

section Keeps

variable {l next : Link} {side : Side} {payloads : List (List UInt8)}
    {segment accepted : List UInt8}

theorem forall_side (side : Side) {holds : Side → Prop} (one : holds side)
    (two : holds side.other) :
    ∀ each, holds each := by
  intro each
  cases side <;> cases each <;> assumption

theorem Called.granted (called : Called l next side payloads segment accepted)
    (granted : next.Granted) : l.Granted := by
  have conveys := called.conveys
  obtain ⟨written, decoded, framed⟩ := granted side
  refine forall_side side ?_ ?_
  · exact ⟨Nat.le_zero.mp (written ▸ conveys.written), Nat.le_zero.mp (decoded ▸ conveys.decoded),
      Nat.le_zero.mp (framed ▸ conveys.framed)⟩
  · have other := granted side.other
    rwa [called.other] at other

/-- The stream that the call receives from. -/
theorem Called.conducts_received (called : Called l next side payloads segment accepted)
    (before : l.Granted) (after : next.Granted) {carry : List UInt8}
    (conducts : Conducts l side.other carry) :
    (∃ carry', Conducts next side.other carry') ∧
      (next.ends side).failures =
        (l.ends side).failures ++ List.replicate (turnedDown payloads) (-EMSGSIZE) := by
  have conveys := called.conveys
  have carries := conducts.carries
  have relay := conducts.relay
  rw [Side.other_other] at carries relay
  rw [called.receives, List.append_assoc] at relay
  obtain ⟨bodies, fed, later⟩ := relay.receive
  obtain ⟨written, decoded, framed⟩ := after side
  obtain ⟨written', decoded', framed'⟩ := before side
  obtain ⟨carries', delivered, failures⟩ := conveys.received (written.trans written'.symm)
    (decoded.trans decoded'.symm) (framed.trans framed'.symm) carry carries relay.short bodies fed
  refine ⟨⟨(chunkFormat.feed carry segment).1, ?_, ?_, ?_⟩, failures⟩
  · rw [Side.other_other]
    exact carries'
  · rw [Side.other_other, delivered, called.other]
    exact later
  · rw [called.other]
    exact conducts.failures

/-- The stream that the call adds to. -/
theorem Called.conducts_sent (called : Called l next side payloads segment accepted)
    (before : l.Granted) (after : next.Granted) {carry : List UInt8}
    (conducts : Conducts l side carry)
    (failures : (next.ends side).failures =
      (l.ends side).failures ++ List.replicate (turnedDown payloads) (-EMSGSIZE)) :
    Conducts next side carry := by
  have conveys := called.conveys
  obtain ⟨written, -, framed⟩ := after side
  obtain ⟨written', -, framed'⟩ := before side
  have stream := conveys.sent (written.trans written'.symm) (framed.trans framed'.symm)
  have bounded : ∀ payload ∈ taken payloads, payload.length ≤ chunkFormat.limit :=
    fun payload member => of_decide_eq_true (List.mem_filter.mp member).2
  refine ⟨?_, ?_, ?_⟩
  · rw [called.other]
    exact conducts.carries
  · have more := conducts.relay.send bounded
    rw [List.append_assoc, ← stream, ← List.append_assoc, ← called.accepts] at more
    rw [called.other, conveys.fired, taken_append]
    exact more
  · rw [failures, conducts.failures, conveys.fired, turnedDown_append,
      List.replicate_append_replicate]

theorem Kept.called (kept : Kept l) (called : Called l next side payloads segment accepted) :
    Kept next := by
  have conveys := called.conveys
  constructor
  · refine forall_side side ⟨conveys.wf, conveys.tidy, conveys.sound⟩ ?_
    rw [called.other]
    exact kept.sound side.other
  · intro after
    have before := called.granted after
    obtain ⟨carry, sent⟩ := kept.conducts before side
    obtain ⟨carry', received⟩ := kept.conducts before side.other
    obtain ⟨receives, failures⟩ := called.conducts_received before after received
    exact forall_side side ⟨carry, called.conducts_sent before after sent failures⟩ receives

end Keeps

section Runs

variable {eventfd fd : Side → Nat} {grants : Side → Fin 3 → Nat → Bool} {ops : List Op} {l : Link}

theorem start_kept (eventfd fd : Side → Nat) (grants : Side → Fin 3 → Nat → Bool) :
    Kept (start eventfd fd grants) := by
  constructor
  · intro side
    exact ⟨ByteBuf.WF.empty, Transport.start_tidy _ _ _, [], Chunker.Carries.fresh⟩
  · exact fun _ side => ⟨[], Chunker.Carries.fresh, Relay.start, rfl⟩

theorem Run.kept (run : Run eventfd fd grants ops l) : Kept l := by
  refine Exec.invariant Kept (start_kept eventfd fd grants) ?_ run
  intro l op next kept taken
  obtain ⟨payloads, segment, accepted, called⟩ := step_called (kept.sound op.side) taken
  exact kept.called called

/-- Whatever the two ends do in whatever order, however the kernel cuts the streams and whatever the
applications answer from within a callback: what one application is fired is a front of what the
other one fired, each payload within the limit once, in order and whole, and all of it as soon as
nothing is left in the write buffer and on the way. Each longer payload fails at the sender with
`EMSGSIZE`, and nothing else fails. -/
theorem link_delivers (run : Run eventfd fd grants ops l) (granted : l.Granted) (side : Side) :
    (l.ends side.other).delivered <+: taken (l.ends side).fired ∧
      (l.ends side).failures = List.replicate (turnedDown (l.ends side).fired) (-EMSGSIZE) ∧
      ((l.ends side).transport.wbuf.content = [] → l.wire side = [] →
        (l.ends side.other).delivered = taken (l.ends side).fired ∧
          (l.ends side.other).chunker.pending = 0 ∧
          (l.ends side.other).chunker.in_.content = []) := by
  obtain ⟨carry, conducts⟩ := run.kept.conducts granted side
  refine ⟨conducts.relay.delivered_front, conducts.failures, fun flushed received => ?_⟩
  have relay := conducts.relay
  rw [received, flushed, List.append_nil] at relay
  obtain ⟨all, nothing⟩ := relay.arrived
  have residue := conducts.carries.carry_eq
  rw [nothing] at residue
  obtain ⟨header, content⟩ := List.append_eq_nil_iff.mp residue.symm
  refine ⟨all, ?_, content⟩
  by_cases zero : (l.ends side.other).chunker.pending = 0
  · exact zero
  · rw [if_neg zero] at header
    cases header

/-- A frame that crosses in two pieces, cut in its header, and is answered from within the
callback. -/
def exchange : List Op :=
  [.send .dialer (.ofBytes [7, 8] (by decide)),
    .onWritable .dialer (fun turn => if turn = 0 then .accepted 3 0 else .failed EAGAIN),
    .onReadable .listener [⟨[2, 0, 0], by decide, by decide⟩] (.failed EAGAIN) (fun _ => []),
    .onWritable .dialer (fun _ => .accepted 9 0),
    .onReadable .listener [⟨[0, 7, 8], by decide, by decide⟩] (.failed EAGAIN)
      (fun _ => [.ofBytes [9] (by decide)]),
    .onWritable .listener (fun _ => .accepted 9 0),
    .onReadable .dialer [⟨[1, 0, 0, 0, 9], by decide, by decide⟩] (.failed EAGAIN) (fun _ => [])]

instance {holds : Side → Prop} [DecidablePred holds] : Decidable (∀ side, holds side) :=
  decidable_of_iff (holds .dialer ∧ holds .listener)
    ⟨fun both => forall_side .dialer both.1 both.2, fun all => ⟨all _, all _⟩⟩

theorem link_delivers_exchange :
    ∃ l, Run (fun _ => 5) (fun _ => 7) (fun _ _ _ => true) exchange l ∧
      (l.ends .listener).delivered = [[7, 8]] ∧ (l.ends .dialer).delivered = [[9]] := by
  obtain ⟨l, run, granted, fired, flushed, received⟩ :
      ∃ l, Run (fun _ => 5) (fun _ => 7) (fun _ _ _ => true) exchange l ∧
        (∀ side, (l.ends side).transport.alloc.refused = 0 ∧ (l.ends side).inbound.refused = 0 ∧
          (l.ends side).outbound.refused = 0) ∧
        (taken (l.ends .dialer).fired = [[7, 8]] ∧ taken (l.ends .listener).fired = [[9]]) ∧
        (∀ side, (l.ends side).transport.wbuf.content = []) ∧ ∀ side, l.wire side = [] :=
    Transition.exists_exec (by decide +kernel)
  refine ⟨l, run, ?_, ?_⟩
  · rw [← fired.1]
    exact ((link_delivers run granted .dialer).2.2 (flushed _) (received _)).1
  · rw [← fired.2]
    exact ((link_delivers run granted .listener).2.2 (flushed _) (received _)).1

end Runs

end Link

end Getrafty
