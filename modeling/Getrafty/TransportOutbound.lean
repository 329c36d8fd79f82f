import Mathlib
import Getrafty.EventWatcherTable
import Getrafty.Transport

set_option autoImplicit false

namespace Getrafty

open Transition (Exec Of Guarded)
open Words (toInt32)

/-- The bytes a `writev` was ready to take. -/
def WriteOutcome.count : WriteOutcome → Nat
  | .accepted n _ => n
  | .failed _ => 0

namespace Transport

/-- What the kernel accepted. -/
def sentBytes (log : List Observation) : List UInt8 :=
  log.flatMap fun seen => match seen with
    | .sent bytes => bytes
    | _ => []

/-- What the buffers passed to `write` held. -/
def wroteBytes (log : List Observation) : List UInt8 :=
  log.flatMap fun seen => match seen with
    | .wrote bytes _ _ => bytes
    | _ => []

@[simp] theorem sentBytes_append (front back : List Observation) :
    sentBytes (front ++ back) = sentBytes front ++ sentBytes back := List.flatMap_append

@[simp] theorem wroteBytes_append (front back : List Observation) :
    wroteBytes (front ++ back) = wroteBytes front ++ wroteBytes back := List.flatMap_append

section WriteLoop

theorem writeSome_wf {src : ByteBuf} (wf : src.WF) (maxBytes : Nat) (outcome : WriteOutcome) :
    (writeSome src maxBytes outcome).src.WF := by
  cases outcome with
  | failed errno => exact wf
  | accepted n errno =>
      simp only [writeSome]
      split
      · exact wf.advance _
      · exact wf

/-- What `writev` took is gone from the head of the buffer. -/
theorem writeSome_stream {src : ByteBuf} (wf : src.WF) (outcome : WriteOutcome) :
    (writeSome src src.readableBytes outcome).sent ++
        (writeSome src src.readableBytes outcome).src.content = src.content := by
  cases outcome with
  | failed errno => rfl
  | accepted n errno =>
      have offered : src.peek (min src.readableBytes src.readableBytes) = src.content := by
        rw [wf.peek_eq, Nat.min_self, wf.readableBytes_eq, List.take_length]
      simp only [writeSome, offered]
      split
      · rw [wf.content_advance, List.take_append_drop]
      · rfl

theorem writeLoop_stream (outcomes : Nat → WriteOutcome) (left : Nat) {wbuf : ByteBuf}
    (wf : wbuf.WF) : (writeLoop outcomes left wbuf).wbuf.WF ∧
      (writeLoop outcomes left wbuf).sent ++ (writeLoop outcomes left wbuf).wbuf.content =
        wbuf.content := by
  induction left generalizing wbuf with
  | zero => exact ⟨wf, rfl⟩
  | succ left ih =>
      have once := writeSome_stream wf (outcomes (255 - left))
      have wfOnce := writeSome_wf wf wbuf.readableBytes (outcomes (255 - left))
      simp only [writeLoop]
      split
      · exact ⟨wf, rfl⟩
      · split
        · exact ⟨wfOnce, once⟩
        · obtain ⟨wfRest, rest⟩ := ih wfOnce
          refine ⟨wfRest, ?_⟩
          rw [List.append_assoc, rest, once]

/-- The bytes that the first `turns` calls of `writev` were ready to take. -/
def accepted (outcomes : Nat → WriteOutcome) (turns : Nat) : Nat :=
  ∑ turn ∈ Finset.range turns, (outcomes turn).count

/-- Whether `writeSome` is negative in this turn: the `writev` fails, or it takes so much
that the `int` wraps. -/
def Negative (bytes : Nat) (outcomes : Nat → WriteOutcome) (turn : Nat) : Prop :=
  match outcomes turn with
  | .failed _ => True
  | .accepted n _ => toInt32 (min n (bytes - accepted outcomes turn)) < 0

instance (bytes : Nat) (outcomes : Nat → WriteOutcome) : DecidablePred (Negative bytes outcomes) :=
  fun turn => by
    unfold Negative
    split <;> infer_instance

/-- The 256 turns are enough to empty a buffer of this many bytes, or one of them fails. -/
def Settles (bytes : Nat) (outcomes : Nat → WriteOutcome) : Prop :=
  bytes ≤ accepted outcomes 256 ∨ ∃ turn < 256, Negative bytes outcomes turn

instance (bytes : Nat) (outcomes : Nat → WriteOutcome) : Decidable (Settles bytes outcomes) :=
  inferInstanceAs (Decidable (_ ∨ _))

theorem accepted_mono (outcomes : Nat → WriteOutcome) {early late : Nat} (ordered : early ≤ late) :
    accepted outcomes early ≤ accepted outcomes late :=
  Finset.sum_le_sum_of_subset (Finset.range_mono ordered)

theorem accepted_succ (outcomes : Nat → WriteOutcome) (turns : Nat) :
    accepted outcomes (turns + 1) = accepted outcomes turns + (outcomes turns).count :=
  Finset.sum_range_succ _ _

/-- `writeSome` in the turn that finds what `accepted` left of `bytes`. -/
theorem writeSome_turn {src : ByteBuf} (wf : src.WF) {bytes turn : Nat}
    {outcomes : Nat → WriteOutcome} (rest : src.content.length = bytes - accepted outcomes turn) :
    ((writeSome src src.readableBytes (outcomes turn)).ret < 0 ↔ Negative bytes outcomes turn) ∧
      (writeSome src src.readableBytes (outcomes turn)).src.content.length =
        bytes - accepted outcomes (turn + 1) := by
  have offered : src.peek (min src.readableBytes src.readableBytes) = src.content := by
    rw [wf.peek_eq, Nat.min_self, wf.readableBytes_eq, List.take_length]
  rw [accepted_succ]
  unfold Negative
  cases outcomes turn with
  | failed errno =>
      simp only [writeSome, WriteOutcome.count, Nat.add_zero]
      exact ⟨⟨fun _ => trivial, fun _ => by decide⟩, rest⟩
  | accepted n errno =>
      simp only [writeSome, offered, rest, WriteOutcome.count]
      split <;> dsimp only
      · refine ⟨Iff.rfl, ?_⟩
        rw [wf.content_advance, List.length_drop, rest]
        omega
      · rename_i nothing
        have zero : min n (bytes - accepted outcomes turn) = 0 := by omega
        refine ⟨?_, by omega⟩
        rw [zero]
        exact Iff.rfl

/-- The loop runs out of turns with bytes left exactly when they do not suffice. -/
theorem writeLoop_exhausted {bytes : Nat} {outcomes : Nat → WriteOutcome} (left : Nat)
    (small : left ≤ 256) {wbuf : ByteBuf} (wf : wbuf.WF)
    (rest : wbuf.content.length = bytes - accepted outcomes (256 - left)) :
    ((writeLoop outcomes left wbuf).errno = none ∧
        (writeLoop outcomes left wbuf).wbuf.content ≠ []) ↔
      ¬ (bytes ≤ accepted outcomes 256 ∨
        ∃ turn < 256, 256 - left ≤ turn ∧ Negative bytes outcomes turn) := by
  induction left generalizing wbuf with
  | zero =>
      rw [Nat.sub_zero] at rest
      simp only [writeLoop, true_and, ← List.length_pos_iff_ne_nil, rest]
      have none : ¬ ∃ turn < 256, 256 - 0 ≤ turn ∧ Negative bytes outcomes turn := by
        rintro ⟨turn, before, after, -⟩
        omega
      simp only [none, or_false]
      omega
  | succ left ih =>
      have turnEq : 256 - (left + 1) = 255 - left := by omega
      have nextTurn : 256 - left = 255 - left + 1 := by omega
      rw [turnEq] at rest ⊢
      simp only [writeLoop, wf.readableBytes_eq]
      split
      · rename_i empty
        have covered : bytes ≤ accepted outcomes 256 := by
          have later := accepted_mono outcomes (show 255 - left ≤ 256 by omega)
          omega
        simp only [List.eq_nil_of_length_eq_zero empty, ne_eq, not_true_eq_false, and_false,
          covered, true_or]
      · rw [← wf.readableBytes_eq]
        obtain ⟨negative, remaining⟩ := writeSome_turn wf rest
        split
        · rename_i stopped
          have hit : ∃ turn < 256, 255 - left ≤ turn ∧ Negative bytes outcomes turn :=
            ⟨255 - left, by omega, Nat.le_refl _, negative.mp stopped⟩
          simp only [reduceCtorEq, false_and, hit, or_true, not_true_eq_false]
        · rename_i goesOn
          rw [← nextTurn] at remaining
          rw [ih (by omega) (writeSome_wf wf _ _) remaining]
          refine not_congr (or_congr_right ⟨?_, ?_⟩)
          · rintro ⟨turn, before, after, hit⟩
            exact ⟨turn, before, by omega, hit⟩
          · rintro ⟨turn, before, after, hit⟩
            refine ⟨turn, before, ?_, hit⟩
            rcases Nat.eq_or_lt_of_le after with rfl | later
            · exact absurd (negative.mpr hit) goesOn
            · omega

end WriteLoop

section Watch

variable (t : Transport)

theorem inline_watch (flag : WatchFlag) (callback : TransportCallback) :
    t.inline (.watch t.fd flag callback) =
      { t with ew := t.ew.handleWatch t.fd flag (.user callback) } := by
  have valid : ¬ ((t.fd : Int) < 0) := by omega
  simp only [inline, Call.task, valid, ↓reduceIte, Int.toNat_natCast, Task.perform]

theorem inline_unwatch (flag : WatchFlag) :
    t.inline (.unwatch t.fd flag) = { t with ew := t.ew.handleUnwatch t.fd flag } := by
  have valid : ¬ ((t.fd : Int) < 0) := by omega
  simp only [inline, Call.task, valid, ↓reduceIte, Int.toNat_natCast, Task.perform]

theorem watchWritable_eq :
    t.watchWritable = { t with ew := t.ew.handleWatch t.fd .WRONLY (.user .onWritable) } :=
  t.inline_watch .WRONLY .onWritable

theorem unwatchWritable_eq :
    t.unwatchWritable = { t with ew := t.ew.handleUnwatch t.fd .WRONLY } :=
  t.inline_unwatch .WRONLY

/-- `onWritable` will be called back once the socket has room. -/
def Watched : Prop := t.ew.registered t.fd .WRONLY = some (.user .onWritable)

theorem watched_watchWritable (tidy : t.ew.Tidy) : t.watchWritable.Watched := by
  rw [watchWritable_eq]
  unfold Watched
  dsimp only
  rw [tidy.registered_handleWatch, if_pos ⟨rfl, rfl⟩]

end Watch

/-- What every operation keeps: nothing is lost, doubled or reordered on the way out, as
long as no allocation is refused. -/
structure Carries (t next : Transport) (seen : List Observation) : Prop where
  fd : next.fd = t.fd
  wf : next.wbuf.WF
  tidy : next.ew.Tidy
  refused : t.alloc.refused ≤ next.alloc.refused
  stream : next.alloc.refused = t.alloc.refused →
    sentBytes seen ++ next.wbuf.content = t.wbuf.content ++ wroteBytes seen
  emptied : next.alloc.refused = t.alloc.refused →
    ∀ bytes left ret, .wrote bytes left ret ∈ seen → left.content = []

theorem Carries.trans {t middle last : Transport} {first second : List Observation}
    (front : Carries t middle first) (back : Carries middle last second) :
    Carries t last (first ++ second) := by
  have split : last.alloc.refused = t.alloc.refused →
      middle.alloc.refused = t.alloc.refused ∧ last.alloc.refused = middle.alloc.refused := by
    intro same
    have low := front.refused
    have high := back.refused
    omega
  refine ⟨back.fd.trans front.fd, back.wf, back.tidy, front.refused.trans back.refused,
    fun same => ?_, fun same bytes left ret wrote => ?_⟩
  · obtain ⟨sameFirst, sameSecond⟩ := split same
    rw [sentBytes_append, wroteBytes_append, List.append_assoc, back.stream sameSecond,
      ← List.append_assoc, front.stream sameFirst, List.append_assoc]
  · obtain ⟨sameFirst, sameSecond⟩ := split same
    rcases List.mem_append.mp wrote with early | late
    · exact front.emptied sameFirst bytes left ret early
    · exact back.emptied sameSecond bytes left ret late

/-- An operation that neither touches the buffer nor sends or takes bytes. -/
theorem Carries.of_same {t next : Transport} {seen : List Observation} (fd : next.fd = t.fd)
    (same : next.wbuf = t.wbuf) (wf : t.wbuf.WF) (tidy : next.ew.Tidy)
    (refused : t.alloc.refused ≤ next.alloc.refused) (sent : sentBytes seen = [])
    (wrote : wroteBytes seen = []) (silent : ∀ bytes left ret, .wrote bytes left ret ∉ seen) :
    Carries t next seen := by
  refine ⟨fd, same ▸ wf, tidy, refused, fun _ => ?_,
    fun _ bytes left ret wrote => absurd wrote (silent bytes left ret)⟩
  rw [sent, wrote, same, List.nil_append, List.append_nil]

theorem Carries.refl {t : Transport} (wf : t.wbuf.WF) (tidy : t.ew.Tidy) : Carries t t [] :=
  .of_same rfl rfl wf tidy (Nat.le_refl _) rfl rfl (by simp)

section Operations

variable {t : Transport} (wf : t.wbuf.WF) (tidy : t.ew.Tidy)

include wf tidy

theorem carries_watchWritable : Carries t t.watchWritable [] := by
  rw [watchWritable_eq]
  exact .of_same rfl rfl wf (tidy.handleWatch _ _ _) (Nat.le_refl _) rfl rfl (by simp)

theorem carries_unwatchWritable : Carries t t.unwatchWritable [] := by
  rw [unwatchWritable_eq]
  exact .of_same rfl rfl wf (tidy.handleUnwatch _ _) (Nat.le_refl _) rfl rfl (by simp)

/-- The append of `write`, whatever became of the allocation. -/
theorem carries_moved (buf : LiveBuf) {moved : ByteBuf.Transfer} (ret : Int)
    (cases : ByteBuf.Moves buf.toByteBuf t.wbuf buf.content.length t.alloc moved ∨
      moved.dst = t.wbuf ∧ moved.alloc.refused = t.alloc.refused + 1) :
    Carries t { t with wbuf := moved.dst, alloc := moved.alloc }
      [.wrote buf.content moved.src ret] := by
  rcases cases with moves | ⟨stuck, refused⟩
  · have drained := moves.srcContent
    have appended := moves.dstContent
    rw [List.drop_length] at drained
    rw [List.take_length] at appended
    refine ⟨rfl, moves.wfDst, tidy, moves.refused.ge, fun _ => ?_, ?_⟩
    · exact appended.trans (congrArg _ (List.append_nil _).symm)
    · intro _ bytes left ret wrote
      obtain ⟨-, rfl, -⟩ := Observation.wrote.inj (List.mem_singleton.mp wrote)
      exact drained
  · have more : ¬ moved.alloc.refused = t.alloc.refused := by omega
    refine ⟨rfl, ?_, tidy, ?_, fun same => absurd same more, fun same => absurd same more⟩
    · rw [stuck]
      exact wf
    · exact refused ▸ Nat.le_succ _

theorem carries_write (buf : LiveBuf) :
    Carries t (t.write buf.toByteBuf).1 (t.write buf.toByteBuf).2 := by
  unfold write
  split
  · rename_i empty
    have none : buf.content = [] := List.eq_nil_of_length_eq_zero (buf.wf.readableBytes_eq ▸ empty)
    refine ⟨rfl, wf, tidy, Nat.le_refl _, fun _ => ?_, ?_⟩
    · rw [none]
      exact (List.append_nil _).symm
    · intro _ bytes left ret wrote
      obtain ⟨-, rfl, -⟩ := Observation.wrote.inj (List.mem_singleton.mp wrote)
      exact none
  · have cases : ByteBuf.Moves buf.toByteBuf t.wbuf buf.content.length t.alloc
          (t.wbuf.write buf.toByteBuf buf.readableBytes t.alloc) ∨
        (t.wbuf.write buf.toByteBuf buf.readableBytes t.alloc).dst = t.wbuf ∧
          (t.wbuf.write buf.toByteBuf buf.readableBytes t.alloc).alloc.refused =
            t.alloc.refused + 1 := by
      rw [buf.wf.readableBytes_eq, ByteBuf.write]
      rcases ByteBuf.transfer_cases buf.wf wf buf.content.length t.alloc with
        moves | ⟨alloc', stuck, -, refused, -⟩
      · exact Or.inl moves
      · rw [stuck]
        exact Or.inr ⟨rfl, refused⟩
    have appended := carries_moved wf tidy buf (toInt32 buf.readableBytes) cases
    have watched := appended.trans (carries_watchWritable appended.wf appended.tidy)
    rw [List.append_nil] at watched
    exact watched

theorem carries_flush : Carries t t.flush [] := by
  unfold flush
  split
  · exact carries_watchWritable wf tidy
  · exact .refl wf tidy

theorem carries_writeAll (bufs : List LiveBuf) :
    Carries t (t.writeAll bufs).1 (t.writeAll bufs).2 := by
  induction bufs generalizing t with
  | nil =>
      rw [writeAll]
      exact .refl wf tidy
  | cons buf bufs ih =>
      have first := carries_write wf tidy buf
      have rest := @ih (t.write buf.toByteBuf).1 first.wf first.tidy
      have both := first.trans rest
      rw [writeAll]
      exact both

/-- An announcement to the pipeline or to the owner moves no bytes. -/
theorem carries_fired (evt : InboundEvent) : Carries t t [.fired evt] :=
  .of_same rfl rfl wf tidy (Nat.le_refl _) rfl rfl (by simp)

theorem carries_flushCompleted (readable : Nat) : Carries t t [.flushCompleted readable] :=
  .of_same rfl rfl wf tidy (Nat.le_refl _) rfl rfl (by simp)

omit wf in
theorem carries_afterLoop {stopped : Stopped} (wfLoop : stopped.wbuf.WF)
    (stream : stopped.sent ++ stopped.wbuf.content = t.wbuf.content) (replies : List LiveBuf) :
    Carries t (t.afterLoop stopped replies).1 (t.afterLoop stopped replies).2 := by
  have looped : Carries t { t with wbuf := stopped.wbuf } [.sent stopped.sent] := by
    refine ⟨rfl, wfLoop, tidy, Nat.le_refl _, fun _ => ?_, fun _ => by simp⟩
    exact (congrArg (· ++ _) (List.append_nil _)).trans (stream.trans (List.append_nil _).symm)
  have unwatched := looped.trans (carries_unwatchWritable looped.wf looped.tidy)
  rw [List.append_nil] at unwatched
  unfold afterLoop
  dsimp only
  split
  · split
    · exact looped
    · exact unwatched.trans (carries_fired unwatched.wf unwatched.tidy _)
  · exact (unwatched.trans (carries_flushCompleted unwatched.wf unwatched.tidy _)).trans
      (carries_writeAll unwatched.wf unwatched.tidy replies)

theorem carries_onWritable (outcomes : Nat → WriteOutcome) (replies : List LiveBuf) :
    Carries t (t.onWritable outcomes replies).1 (t.onWritable outcomes replies).2 := by
  obtain ⟨wfLoop, stream⟩ := writeLoop_stream outcomes 256 wf
  exact carries_afterLoop tidy wfLoop stream replies

theorem carries_readableStateChanged (readable : Bool) :
    Carries t (t.readableStateChanged readable) [] := by
  cases readable with
  | true =>
      simp only [readableStateChanged, ↓reduceIte, inline_watch]
      exact .of_same rfl rfl wf (tidy.handleWatch _ _ _) (Nat.le_refl _) rfl rfl (by simp)
  | false =>
      simp only [readableStateChanged, Bool.false_eq_true, ↓reduceIte, inline_unwatch]
      exact .of_same rfl rfl wf (tidy.handleUnwatch _ _) (Nat.le_refl _) rfl rfl (by simp)

theorem carries_destroy : Carries t t.destroy.1 t.destroy.2 := by
  simp only [destroy, inline_unwatch]
  exact .of_same rfl rfl wf ((tidy.handleUnwatch _ _).handleUnwatch _ _) (Nat.le_refl _) rfl rfl
    (by simp)

end Operations

theorem readLoop_refused (received : List Received) {buf : ByteBuf} (wf : buf.WF)
    (alloc : Allocator) : alloc.refused ≤ (readLoop received buf alloc).2.refused := by
  induction received generalizing buf alloc with
  | nil => exact Nat.le_refl _
  | cons chunk more ih =>
      have small : chunk.bytes.length ≤ maxSize := chunk.fits.trans (by decide)
      simp only [readLoop]
      rcases wf.writeRaw_cases small alloc with
        ⟨after, alloc', stored, wfAfter, -, refused⟩ | ⟨alloc', stuck, refused⟩
      · rw [stored]
        exact refused.ge.trans (ih wfAfter alloc')
      · rw [stuck]
        have more : alloc.refused ≤ alloc'.refused := refused.ge.trans' (Nat.le_succ _)
        exact more.trans (ih wf alloc')

theorem carries_onReadable {t : Transport} (wf : t.wbuf.WF) (tidy : t.ew.Tidy)
    (received : List Received) (last : RecvEnd) :
    Carries t (t.onReadable received last).1 (t.onReadable received last).2 := by
  have refused := readLoop_refused received .empty t.alloc
  refine .of_same rfl rfl wf tidy refused ?_ ?_ ?_
  · refine List.flatMap_eq_nil_iff.mpr fun seen among => ?_
    obtain ⟨evt, -, rfl⟩ := List.mem_map.mp among
    rfl
  · refine List.flatMap_eq_nil_iff.mpr fun seen among => ?_
    obtain ⟨evt, -, rfl⟩ := List.mem_map.mp among
    rfl
  · intro bytes left ret among
    obtain ⟨evt, -, same⟩ := List.mem_map.mp among
    cases same

theorem carries_perform {t : Transport} (wf : t.wbuf.WF) (tidy : t.ew.Tidy) (op : Op) :
    Carries t (t.perform op).1 (t.perform op).2 := by
  cases op with
  | write buf => exact carries_write wf tidy buf
  | flush => exact carries_flush wf tidy
  | onWritable outcomes replies => exact carries_onWritable wf tidy outcomes replies
  | readableStateChanged readable => exact carries_readableStateChanged wf tidy readable
  | onReadable received last => exact carries_onReadable wf tidy received last
  | destroy => exact carries_destroy wf tidy

theorem step_eq {s next : State} {op : Op} (taken : step s op = some next) :
    s.destroyed = false ∧ next.transport = (s.transport.perform op).1 ∧
      next.log = s.log ++ (s.transport.perform op).2 ∧
      (next.destroyed = true ↔ op = .destroy) := by
  unfold step at taken
  split at taken
  · cases taken
  · rename_i alive
    refine ⟨Bool.eq_false_iff.mpr alive, ?_⟩
    rw [Option.some.injEq] at taken
    subst taken
    refine ⟨rfl, rfl, ?_⟩
    dsimp only
    cases op <;> simp only [reduceCtorEq, Bool.false_eq_true]

theorem start_wf (eventfd fd : Nat) (alloc : Allocator) :
    (start eventfd fd alloc).transport.wbuf.WF := ByteBuf.WF.empty

theorem start_tidy (eventfd fd : Nat) (alloc : Allocator) :
    (start eventfd fd alloc).transport.ew.Tidy := (EventWatcher.create_consistent eventfd).tidy

theorem Run.carries {eventfd fd : Nat} {alloc : Allocator} {ops : List Op} {s : State}
    (run : Run eventfd fd alloc ops s) :
    Carries (start eventfd fd alloc).transport s.transport s.log := by
  have initial : Carries (start eventfd fd alloc).transport (start eventfd fd alloc).transport [] :=
    .refl (start_wf eventfd fd alloc) (start_tidy eventfd fd alloc)
  refine Exec.invariant
    (fun s : State => Carries (start eventfd fd alloc).transport s.transport s.log) initial ?_ run
  intro s op next before taken
  obtain ⟨-, performed, logged, -⟩ := step_eq taken
  rw [performed, logged]
  exact before.trans (carries_perform before.wf before.tidy op)

/-- While no allocation is refused, what the kernel accepted and what the buffer still
holds is what was written, and every written buffer is left empty. -/
theorem outbound_stream {eventfd fd : Nat} {alloc : Allocator} {ops : List Op} {s : State}
    (run : Run eventfd fd alloc ops s) (granted : s.transport.alloc.refused = alloc.refused) :
    sentBytes s.log ++ s.transport.wbuf.content = wroteBytes s.log ∧
      ∀ bytes left ret, .wrote bytes left ret ∈ s.log → left.content = [] :=
  ⟨run.carries.stream granted, run.carries.emptied granted⟩

/-- A write, a partial `writev`, a write behind it, and a socket that is full. -/
def partialWrites : List Op :=
  [.write (.ofBytes [1, 2, 3] (by decide)),
    .onWritable (fun turn => if turn = 0 then .accepted 2 0 else .failed EAGAIN) [],
    .write (.ofBytes [4, 5] (by decide))]

theorem outbound_stream_partialWrites :
    ∃ s, Run 5 7 .unlimited partialWrites s ∧
      sentBytes s.log ++ s.transport.wbuf.content = wroteBytes s.log := by
  have run : Run 5 7 .unlimited partialWrites _ :=
    Transition.exec_of_isSome (by rfl)
  exact ⟨_, run, (outbound_stream run (by rfl)).1⟩

end Transport

end Getrafty
