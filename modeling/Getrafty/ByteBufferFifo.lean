import Getrafty.ByteBufferFamily

set_option autoImplicit false

namespace Getrafty

open Transition (Exec Of Guarded)
open Words (bytesLE wordLE addSize addSize_eq sizeRange)

namespace ByteBuf

section Calls

variable {b src dst : ByteBuf} {n : Nat} {alloc : Allocator}

theorem WF.room_small (wf : b.WF) (room : b.Room n alloc) : n ≤ maxSize := by
  have bounded := wf.bounded
  rcases room with spare | resizes
  · rw [wf.writableBytes_eq] at spare
    omega
  · exact (Nat.le_add_left n b.w).trans resizes.1

/-- `reserve` where there is room. -/
theorem WF.reserve_grown (wf : b.WF) (room : b.Room n alloc) : ∃ grown alloc',
    b.reserve n alloc = (true, grown, alloc') ∧ grown.WF ∧ grown.w = b.w ∧
      grown.content = b.content ∧ b.w + n ≤ grown.data.length := by
  have small := wf.room_small room
  have granted := (wf.reserve_room small alloc).mpr room
  rcases wf.reserve_cases small alloc with
    ⟨grown, alloc', ok, wf', w, same, long, -⟩ | ⟨alloc', threw, -⟩
  · exact ⟨grown, alloc', ok, wf', w, same, long⟩
  · rw [threw] at granted
    cases granted

theorem WF.writeRaw_room (wf : b.WF) (bytes : List UInt8) (room : b.Room bytes.length alloc) :
    ∃ after alloc', b.writeRaw bytes alloc = (true, after, alloc') ∧ after.WF ∧
      after.content = b.content ++ bytes := by
  by_cases none : bytes.length = 0
  · refine ⟨b, alloc, ?_, wf, ?_⟩
    · simp only [writeRaw, none, ↓reduceIte]
    · rw [List.eq_nil_of_length_eq_zero none, List.append_nil]
  · obtain ⟨grown, alloc', ok, wf', w, same, long⟩ := wf.reserve_grown room
    rw [← w] at long
    refine ⟨grown.store bytes bytes.length, alloc', ?_, wf'.store long, ?_⟩
    · simp only [writeRaw, none, ↓reduceIte, ok]
    · rw [wf'.content_store long, same]

theorem drop_min (bytes : List UInt8) (n : Nat) :
    bytes.drop (min n bytes.length) = bytes.drop n := by
  rcases Nat.le_total n bytes.length with within | beyond
  · rw [Nat.min_eq_left within]
  · rw [Nat.min_eq_right beyond, List.drop_length, List.drop_eq_nil_of_le beyond]

theorem take_min (bytes : List UInt8) (n : Nat) :
    bytes.take (min n bytes.length) = bytes.take n := by
  rcases Nat.le_total n bytes.length with within | beyond
  · rw [Nat.min_eq_left within]
  · rw [Nat.min_eq_right beyond, List.take_length, List.take_of_length_le beyond]

/-- A buffer that is written to itself moves its head to its tail. -/
theorem WF.writeSelf_room (wf : b.WF) (room : b.Room (min n b.content.length) alloc) :
    (b.writeSelf n alloc).1.WF ∧ (b.writeSelf n alloc).1.content =
      (b.content ++ b.content.take n).drop (min n b.content.length) := by
  unfold writeSelf
  rw [wf.readableBytes_eq]
  by_cases none : min n b.content.length = 0
  · rw [if_pos none, none, ← take_min, none, List.take_zero, List.append_nil, List.drop_zero]
    exact ⟨wf, rfl⟩
  · obtain ⟨grown, alloc', ok, wf', w, same, long⟩ := wf.reserve_grown room
    have peeked : grown.peek (min n b.content.length) = b.content.take n := by
      rw [wf'.peek_eq, same, take_min]
    have size : (b.content.take n).length = min n b.content.length := List.length_take
    rw [← w, ← size] at long
    simp only [none, ↓reduceIte, ok, peeked]
    rw [← size]
    exact ⟨(wf'.store long).advance _, by rw [(wf'.store long).content_advance,
      wf'.content_store long, same]⟩

theorem WF.advance_count (wf : b.WF) (n : Nat) : (b.advance n).1 = min n b.content.length := by
  rw [ByteBuf.advance, wf.readableBytes_eq]

theorem WF.headroom_eq (wf : b.WF) : b.headroom = b.content := by
  rw [headroom, wf.readableBytes_eq, wf.content_length, content]

theorem WF.fill_eq (wf : b.WF) {bytes : List UInt8} (fits : bytes.length ≤ b.writableBytes) :
    b.fill bytes = (bytes.length, b.store bytes bytes.length) := by
  have inside := wf.inside
  rw [wf.writableBytes_eq] at fits
  have length : (b.data.take b.w ++ bytes ++ b.data.drop (b.w + bytes.length)).length =
      b.data.length := by
    simp only [List.length_append, List.length_take, List.length_drop]
    omega
  have writable : ByteBuf.writableBytes { b with
      data := b.data.take b.w ++ bytes ++ b.data.drop (b.w + bytes.length) } = b.writableBytes := by
    rw [writableBytes, length, writableBytes]
  rw [ByteBuf.fill, commit, writable, wf.writableBytes_eq, Nat.min_eq_left fits]
  rfl

theorem WF.front_inside (wf : b.WF) (within : n ≤ b.content.length) :
    ∀ s ∈ b.front n, s.Inside := by
  have ordered := wf.ordered
  have inside := wf.inside
  rw [wf.content_length] at within
  unfold front
  split
  · intro s member
    cases member
  · intro s member
    rw [List.mem_singleton.mp member]
    show b.r + n ≤ b.data.length
    omega

theorem back_inside (within : b.w + n ≤ b.data.length) : ∀ s ∈ b.back n, s.Inside := by
  unfold back
  split
  · intro s member
    cases member
  · intro s member
    rw [List.mem_singleton.mp member]
    exact within

theorem WF.appended_inside (wf : b.WF) (room : b.Room n alloc) :
    ∀ s ∈ b.appended n alloc, s.Inside := by
  obtain ⟨grown, alloc', ok, -, w, -, long⟩ := wf.reserve_grown room
  unfold appended
  rw [ok]
  exact back_inside (w.symm ▸ long)

theorem WF.taken_inside (wf : src.WF) (within : n ≤ src.content.length) :
    ∀ s ∈ src.taken dst n alloc, s.Inside := by
  unfold taken
  split
  · exact wf.front_inside within
  · intro s member
    cases member

end Calls

end ByteBuf

namespace Family

variable {ι : Type} [DecidableEq ι]

/-- Every buffer is well formed and holds its queue. -/
def Holds (f : Family ι) (q : Queues ι) : Prop :=
  ∀ i, (f.buf i).WF ∧ (f.buf i).content = q.content i

section Refinement

variable {f f' : Family ι} {q : Queues ι} {op : QueueOp ι} {i : ι}

omit [DecidableEq ι] in
theorem Holds.of_same (holds : f.Holds q) {q' : Queues ι} (buf : f'.buf = f.buf)
    (content : q'.content = q.content) : f'.Holds q' := by
  intro i
  rw [buf, content]
  exact holds i

theorem Holds.put (holds : f.Holds q) {b : ByteBuf} {bytes : List UInt8} (wf : b.WF)
    (content : b.content = bytes) : (f.put i b).Holds (q.put i bytes) := by
  intro j
  show (Function.update f.buf i b j).WF ∧
    (Function.update f.buf i b j).content = Function.update q.content i bytes j
  by_cases same : j = i
  · rw [same, Function.update_self, Function.update_self]
    exact ⟨wf, content⟩
  · rw [Function.update_of_ne same, Function.update_of_ne same]
    exact holds j

/-- Two buffers between which bytes moved. -/
theorem Holds.transfer (holds : f.Holds q) {src dst : ι} (n : Nat) (apart : src ≠ dst)
    (room : (f.buf dst).Room (min n (f.buf src).content.length) f.alloc) :
    (f.transfer src dst n).Holds (q.move src dst n) ∧
      (ByteBuf.transfer (f.buf src) (f.buf dst) n f.alloc).moved =
        min n (q.content src).length := by
  obtain ⟨wfSrc, contentSrc⟩ := holds src
  obtain ⟨wfDst, contentDst⟩ := holds dst
  have moves := ByteBuf.transfer_room wfSrc wfDst f.alloc room
  have drained := moves.srcContent
  have appended := moves.dstContent
  rw [contentSrc] at drained
  rw [contentSrc, contentDst] at appended
  refine ⟨?_, contentSrc ▸ moves.moved⟩
  have put := (holds.put (i := src) moves.wfSrc drained).put (i := dst) moves.wfDst appended
  have same : (q.move src dst n).content =
      ((q.put src ((q.content src).drop n)).put dst
        (q.content dst ++ (q.content src).take n)).content := by
    have kept : (q.append dst ((q.content src).take n)).content src = q.content src :=
      Function.update_of_ne apart _ _
    unfold Queues.move Queues.drop
    rw [kept, ByteBuf.drop_min]
    exact Function.update_comm apart.symm _ _ _
  intro j
  rw [same]
  exact put j

theorem Holds.touched_inside (holds : f.Holds q) (possible : f.Possible op)
    (succeeds : f.Succeeds op) : ∀ s ∈ f.touched op, s.Inside := by
  have wf (i : ι) := (holds i).1
  have readable (i : ι) := (wf i).readableBytes_eq
  cases op with
  | writeRaw i bytes => exact (wf i).appended_inside succeeds
  | write i src n =>
      have within : min n (f.buf src).readableBytes ≤ (f.buf src).content.length := by
        rw [readable]
        exact Nat.min_le_right _ _
      intro s member
      rcases List.mem_append.mp member with there | here
      · exact (wf i).appended_inside succeeds s there
      · by_cases same : i = src
        · rw [if_pos same] at here
          obtain ⟨grown, alloc', ok, wf', -, content, -⟩ := (wf i).reserve_grown succeeds
          rw [ok] at here
          refine wf'.taken_inside ?_ s here
          rw [content, same]
          exact within
        · rw [if_neg same] at here
          exact (wf src).taken_inside within s here
  | read i dst n =>
      intro s member
      simp only [touched] at member
      split at member
      · cases member
      · rename_i apart
        rcases List.mem_append.mp member with there | here
        · exact (wf dst).appended_inside (succeeds.resolve_left apart) s there
        · refine (wf i).taken_inside ?_ s here
          rw [readable]
          exact Nat.min_le_right _ _
  | peek i n =>
      refine (wf i).front_inside ?_
      rw [readable]
      exact Nat.min_le_right _ _
  | headroom i => exact (wf i).front_inside (readable i).le
  | advance i n =>
      intro s member
      cases member
  | reserve i n =>
      intro s member
      cases member
  | fill i bytes =>
      apply ByteBuf.back_inside
      rw [(wf i).writableBytes_eq]
      have inside := (wf i).inside
      omega
  | readUI32 i =>
      intro s member
      simp only [touched] at member
      split at member
      · cases member
      · refine (wf i).front_inside ?_ s member
        rw [readable]
        exact Nat.min_le_right _ _
  | writeUI32 i word => exact (wf i).appended_inside succeeds

theorem readUI32_short (few : (q.content i).length < 4) :
    q.readUI32 i = q.reply (.word none) := by
  unfold Queues.readUI32
  split
  · rename_i b0 b1 b2 b3 rest head
    rw [head] at few
    simp only [List.length_cons] at few
    omega
  · rfl

theorem readUI32_head {b0 b1 b2 b3 : UInt8} {rest : List UInt8}
    (head : q.content i = b0 :: b1 :: b2 :: b3 :: rest) :
    q.readUI32 i = (q.put i rest).reply (.word (some (wordLE b0 b1 b2 b3))) := by
  rw [Queues.readUI32, head]

theorem Holds.readUI32 (holds : f.Holds q) (replies : f.replies = q.replies) :
    (f.readUI32 i).Holds (q.readUI32 i) ∧ (f.readUI32 i).replies = (q.readUI32 i).replies := by
  obtain ⟨wf, content⟩ := holds i
  by_cases few : (q.content i).length < 4
  · have none := wf.readUI32_none (content.symm ▸ few)
    rw [readUI32_short few, Family.readUI32, none, putWord]
    exact ⟨holds.of_same rfl rfl, congrArg (· ++ [Reply.word Option.none]) replies⟩
  · match head : q.content i, Nat.le_of_not_lt few with
    | b0 :: b1 :: b2 :: b3 :: rest, _ =>
        obtain ⟨after, read, wf', -, content'⟩ := wf.readUI32_some (content.trans head)
        rw [readUI32_head head, Family.readUI32, read, putWord]
        exact ⟨(holds.put wf' content').of_same rfl rfl, congrArg (· ++ [Reply.word _]) replies⟩

/-- Every call does to the buffers what it does to the queues, and returns the same. -/
theorem Holds.call (holds : f.Holds q) (replies : f.replies = q.replies) (possible : f.Possible op)
    (succeeds : f.Succeeds op) :
    (f.call op).Holds (q.call op) ∧ (f.call op).replies = (q.call op).replies := by
  have wf (i : ι) := (holds i).1
  have content (i : ι) := (holds i).2
  have readable (i : ι) := (wf i).readableBytes_eq
  have replied (r : Reply) : f.replies ++ [r] = q.replies ++ [r] := by rw [replies]
  cases op with
  | writeRaw i bytes =>
      obtain ⟨after, alloc', ok, wf', content'⟩ := (wf i).writeRaw_room bytes succeeds
      rw [content] at content'
      simp only [Family.call, Family.writeRaw, ok]
      exact ⟨(holds.put wf' content').of_same rfl rfl, replied _⟩
  | write i src n =>
      simp only [Succeeds, readable] at succeeds
      by_cases same : i = src
      · subst same
        obtain ⟨wf', content'⟩ := (wf i).writeSelf_room succeeds
        simp only [Family.call, Family.write, ↓reduceIte]
        refine ⟨?_, replied _⟩
        have moved : (q.move i i n).content =
            (q.put i ((q.content i ++ (q.content i).take n).drop
              (min n (q.content i).length))).content := by
          unfold Queues.move Queues.drop Queues.append Queues.put
          dsimp only
          rw [Function.update_self, Function.update_idem]
        rw [content] at content'
        exact (holds.put wf' content').of_same rfl moved
      · simp only [Family.call, Family.write, same, ↓reduceIte]
        exact ⟨(holds.transfer n (Ne.symm same) succeeds).1.of_same rfl rfl, replied _⟩
  | read i dst n =>
      by_cases same : i = dst
      · simp only [Family.call, Family.read, Queues.call, Queues.read, same, ↓reduceIte]
        exact ⟨holds.of_same rfl rfl, replied _⟩
      · simp only [Family.call, Family.read, Queues.call, Queues.read, same, ↓reduceIte]
        have room := succeeds.resolve_left same
        rw [readable] at room
        obtain ⟨moved, count⟩ := holds.transfer n same room
        refine ⟨moved.of_same rfl rfl, ?_⟩
        rw [count]
        exact replied _
  | peek i n =>
      refine ⟨holds.of_same rfl rfl, ?_⟩
      simp only [Family.call, (wf i).peek_eq, content]
      exact replied _
  | headroom i =>
      refine ⟨holds.of_same rfl rfl, ?_⟩
      simp only [Family.call, (wf i).headroom_eq, content]
      exact replied _
  | advance i n =>
      have content' := (wf i).content_advance n
      have count := (wf i).advance_count n
      rw [content] at content' count
      refine ⟨(holds.put ((wf i).advance n) content').of_same rfl rfl, ?_⟩
      simp only [Family.call, Family.advance, count]
      exact replied _
  | reserve i n =>
      obtain ⟨grown, alloc', ok, wf', -, content', -⟩ := (wf i).reserve_grown succeeds
      simp only [Family.call, Family.reserve, ok]
      have kept : q.content = (q.put i (q.content i)).content :=
        (Function.update_eq_self i q.content).symm
      exact ⟨(holds.put wf' (content'.trans (content i))).of_same rfl kept, replied _⟩
  | fill i bytes =>
      have inside := (wf i).inside
      have fits := possible
      simp only [Possible] at fits
      have filled := (wf i).fill_eq fits
      rw [(wf i).writableBytes_eq] at fits
      have long : (f.buf i).w + bytes.length ≤ (f.buf i).data.length := by omega
      have content' := (wf i).content_store long
      rw [content] at content'
      simp only [Family.call, Family.fill, filled]
      exact ⟨(holds.put ((wf i).store long) content').of_same rfl rfl, replied _⟩
  | readUI32 i => exact holds.readUI32 replies
  | writeUI32 i word =>
      obtain ⟨after, alloc', ok, wf', content'⟩ := (wf i).writeRaw_room (bytesLE word) succeeds
      rw [content] at content'
      simp only [Family.call, Family.writeRaw, ok]
      exact ⟨(holds.put wf' content').of_same rfl rfl, replied _⟩

/-- In any run in which allocations succeed the buffers are queues: they stay well formed, copy
inside their storage only, hold what the queues hold and return what the queues return; a word at
the head is read back as it was written. -/
theorem family_refines {alloc : Allocator} {ops : List (QueueOp ι)}
    (run : Exec (Guarded Succeeds (Of step)) { alloc } ops f) :
    (∀ i, (f.buf i).WF) ∧ (∀ s ∈ f.spans, s.Inside) ∧
      (∀ i, (f.buf i).content = (Queues.calls ops).content i) ∧
      f.replies = (Queues.calls ops).replies ∧
      ∀ i word rest, word < 2 ^ 32 → (f.buf i).content = bytesLE word ++ rest →
        ∃ b, (f.buf i).readUI32 = some (word, b) ∧ b.content = rest := by
  have kept := run.history
    (fun ops f => f.Holds (Queues.calls ops) ∧ f.replies = (Queues.calls ops).replies ∧
      ∀ s ∈ f.spans, s.Inside)
    ⟨fun i => ⟨.empty, rfl⟩, rfl, fun s member => by cases member⟩
    fun ops f op f' before taken => by
      obtain ⟨holds, replies, inside⟩ := before
      obtain ⟨possible, same⟩ := Option.ite_none_right_eq_some.mp taken.2
      obtain rfl := Option.some.inj same
      have calls : Queues.calls (ops ++ [op]) = (Queues.calls ops).call op := by
        rw [Queues.calls, List.foldl_append]
        rfl
      obtain ⟨holds', replies'⟩ := holds.call replies possible taken.1
      rw [calls]
      refine ⟨holds', replies', fun s member => ?_⟩
      rcases List.mem_append.mp member with earlier | last
      · exact inside s earlier
      · exact holds.touched_inside possible taken.1 s last
  obtain ⟨holds, replies, inside⟩ := kept
  refine ⟨fun i => (holds i).1, inside, fun i => (holds i).2, replies, ?_⟩
  intro i word rest small head
  obtain ⟨after, read, -, -, content⟩ := (holds i).1.readUI32_some head
  rw [Words.wordLE_bytesLE word small] at read
  exact ⟨after, read, content⟩

end Refinement

/-- A word travels from one buffer to another behind bytes that are dropped there. -/
theorem family_refines_wordBehindByte : ∃ (ops : List (QueueOp Bool)) (f : Family Bool),
    ops.length = 6 ∧ Exec (Guarded Succeeds (Of step)) { alloc := .unlimited } ops f ∧
      f.replies = (Queues.calls ops).replies ∧
      f.replies.getLast? = some (.word (some 258)) ∧ ∀ s ∈ f.spans, s.Inside := by
  have runs : (Transition.run (Transition.guardedStep
      (fun (f : Family Bool) op => decide (f.Succeeds op)) step) { alloc := .unlimited }
      [.fill true [], .writeRaw true [7], .writeUI32 true 258, .read true false 9, .advance false 1,
        .readUI32 false]).isSome = true := by decide +kernel
  have kept := Transition.guarded_of_isSome runs
  obtain ⟨-, inside, -, replies, -⟩ := family_refines kept
  refine ⟨_, _, ?_, kept, replies, ?_, inside⟩
  · rfl
  · clear kept replies inside
    revert runs
    decide +kernel

end Family

end Getrafty
