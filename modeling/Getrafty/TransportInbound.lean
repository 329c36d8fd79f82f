import Getrafty.TransportLifecycle

set_option autoImplicit false

namespace Getrafty

namespace Transport

/-- The bytes of consecutive chunks. -/
def drained (received : List Received) : List UInt8 := (received.map (·.bytes)).flatten

/-- What the last `recv` says, unless it is that the socket would block. -/
def RecvEnd.events : RecvEnd → List InboundEvent
  | .eof => [.inactive]
  | .failed errno => if errno = EAGAIN ∨ errno = EWOULDBLOCK then [] else [.error errno]

/-- What a drain of the socket comes to: its bytes in one piece, if there are any, and its end. -/
def observed (received : List Received) (last : RecvEnd) : List InboundEvent :=
  (if drained received = [] then [] else [.bytes (drained received)]) ++ RecvEnd.events last

/-- The allocator lets every chunk be stored behind `w` bytes. -/
def StoresAll (w : Nat) (received : List Received) (alloc : Allocator) : Prop :=
  (∀ i < received.length, alloc.grants (alloc.calls + i) = true) ∧
    w + (drained received).length ≤ maxSize

instance (w : Nat) (received : List Received) (alloc : Allocator) :
    Decidable (StoresAll w received alloc) :=
  inferInstanceAs (Decidable ((∀ _ < _, _) ∧ _))

section Drain

@[simp] theorem drained_nil : drained [] = [] := rfl

@[simp] theorem drained_cons (chunk : Received) (rest : List Received) :
    drained (chunk :: rest) = chunk.bytes ++ drained rest := rfl

/-- The loop stores at most what it received. -/
theorem readLoop_length_le (received : List Received) {buf : ByteBuf} (wf : buf.WF)
    (full : buf.data.length = buf.w) (alloc : Allocator) :
    (readLoop received buf alloc).1.WF ∧
      (readLoop received buf alloc).1.content.length ≤
        buf.content.length + (drained received).length := by
  induction received generalizing buf alloc with
  | nil => exact ⟨wf, Nat.le_add_right _ _⟩
  | cons chunk rest ih =>
      have small : chunk.bytes.length ≤ maxSize := chunk.fits.trans (by decide)
      rcases wf.writeRaw_full full chunk.some_byte small alloc with
        ⟨after, stored, wfAfter, fullAfter, -, content, -⟩ | ⟨stuck, -⟩
      · obtain ⟨wfLast, bound⟩ := ih wfAfter fullAfter { alloc with calls := alloc.calls + 1 }
        rw [readLoop, stored]
        refine ⟨wfLast, bound.trans ?_⟩
        rw [content, drained_cons, List.length_append, List.length_append, Nat.add_assoc]
      · obtain ⟨wfLast, bound⟩ := ih wf full
          { alloc with calls := alloc.calls + 1, refused := alloc.refused + 1 }
        rw [readLoop, stuck]
        refine ⟨wfLast, bound.trans ?_⟩
        rw [drained_cons, List.length_append]
        omega

/-- The first chunk and the others, one call of the allocator later. -/
theorem storesAll_cons (w : Nat) (chunk : Received) (rest : List Received) (alloc : Allocator)
    (refused : Nat) :
    StoresAll w (chunk :: rest) alloc ↔ alloc.grants alloc.calls = true ∧
      StoresAll (w + chunk.bytes.length) rest ⟨alloc.grants, alloc.calls + 1, refused⟩ := by
  simp only [StoresAll, drained_cons, List.length_append, List.length_cons, Nat.add_assoc]
  constructor
  · rintro ⟨grants, fits⟩
    refine ⟨grants 0 (Nat.succ_pos _), fun i below => ?_, fits⟩
    rw [Nat.add_comm 1 i]
    exact grants (i + 1) (Nat.succ_lt_succ below)
  · rintro ⟨first, grants, fits⟩
    refine ⟨fun i below => ?_, fits⟩
    cases i with
    | zero => exact first
    | succ i =>
        have later := grants i (Nat.lt_of_succ_lt_succ below)
        rw [Nat.add_comm 1 i] at later
        exact later

/-- The loop keeps all that it received exactly when every chunk gets room. -/
theorem readLoop_content (received : List Received) {buf : ByteBuf} (wf : buf.WF)
    (full : buf.data.length = buf.w) (alloc : Allocator) :
    (readLoop received buf alloc).1.content = buf.content ++ drained received ↔
      StoresAll buf.w received alloc := by
  induction received generalizing buf alloc with
  | nil =>
      have inside := wf.inside
      have bounded := wf.bounded
      have stores : StoresAll buf.w [] alloc :=
        ⟨fun i below => absurd below (Nat.not_lt_zero i), inside.trans bounded⟩
      rw [readLoop, drained_nil, List.append_nil]
      exact iff_of_true rfl stores
  | cons chunk rest ih =>
      have small : chunk.bytes.length ≤ maxSize := chunk.fits.trans (by decide)
      rcases wf.writeRaw_full full chunk.some_byte small alloc with
        ⟨after, stored, wfAfter, fullAfter, sum, content, -, granted⟩ | ⟨stuck, refused⟩
      · have later := ih wfAfter fullAfter { alloc with calls := alloc.calls + 1 }
        rw [content, List.append_assoc, sum] at later
        rw [readLoop, stored, drained_cons, storesAll_cons _ _ _ _ alloc.refused]
        exact later.trans ⟨fun stores => ⟨granted, stores⟩, fun stores => stores.2⟩
      · have bound := (readLoop_length_le rest wf full
          { alloc with calls := alloc.calls + 1, refused := alloc.refused + 1 }).2
        rw [readLoop, stuck]
        refine iff_of_false (fun same => ?_)
          (fun stores => refused ⟨?_, stores.1 0 (Nat.succ_pos _)⟩)
        · have lost := List.length_pos_of_ne_nil chunk.some_byte
          have longer := congrArg List.length same
          rw [List.length_append, drained_cons, List.length_append] at longer
          dsimp only at longer
          omega
        · have fits := stores.2
          rw [drained_cons, List.length_append] at fits
          omega

end Drain

section Observed

variable {received : List Received} {last : RecvEnd}

/-- `readSome` returns -1 for every failure, and that is what the error carries. -/
theorem inbound_ret (buf : ByteBuf) (last : RecvEnd) :
    inbound buf (RecvEnd.ret last) =
      (if 0 < buf.readableBytes then [.bytes buf.content] else []) ++
        [if last = .eof then .inactive else .error (-1)] := by
  cases last with
  | eof => rfl
  | failed errno => rfl

/-- What ends a drain is told apart only when it is the end of the stream. -/
theorem ended_iff (last : RecvEnd) :
    [if last = .eof then InboundEvent.inactive else .error (-1)] = RecvEnd.events last ↔
      last = .eof ∨ last = .failed (-1) := by
  cases last with
  | eof => exact iff_of_true rfl (Or.inl rfl)
  | failed errno =>
      by_cases full : errno = EAGAIN ∨ errno = EWOULDBLOCK
      · simp only [RecvEnd.events, full, ↓reduceIte, List.cons_ne_nil, reduceCtorEq, false_or,
          RecvEnd.failed.injEq, false_iff]
        rintro rfl
        revert full
        decide
      · simp only [RecvEnd.events, full, ↓reduceIte, List.cons.injEq, and_true, reduceCtorEq,
          InboundEvent.error.injEq, RecvEnd.failed.injEq, false_or]
        exact eq_comm

theorem events_no_bytes (last : RecvEnd) :
    ∀ evt ∈ RecvEnd.events last, ∀ content, evt ≠ .bytes content := by
  intro evt member content
  cases last with
  | eof =>
      rw [List.mem_singleton.mp member]
      exact fun same => by cases same
  | failed errno =>
      simp only [RecvEnd.events] at member
      split at member
      · cases member
      · rw [List.mem_singleton.mp member]
        exact fun same => by cases same

/-- The buffer of a drain is empty exactly when its content is. -/
theorem bytes_of_content {buf : ByteBuf} (wf : buf.WF) :
    (if 0 < buf.readableBytes then [InboundEvent.bytes buf.content] else []) =
      if buf.content = [] then [] else [.bytes buf.content] := by
  rw [wf.readableBytes_eq]
  by_cases none : buf.content = []
  · rw [if_pos none, none]
    rfl
  · rw [if_neg none, if_pos (List.length_pos_of_ne_nil none)]

theorem bytes_inj {front back : List UInt8} {evt evt' : List InboundEvent}
    (first : ∀ e ∈ evt, ∀ content, e ≠ .bytes content)
    (second : ∀ e ∈ evt', ∀ content, e ≠ .bytes content)
    (same : (if front = [] then [] else [InboundEvent.bytes front]) ++ evt =
      (if back = [] then [] else [.bytes back]) ++ evt') : front = back ∧ evt = evt' := by
  by_cases none : front = [] <;> by_cases none' : back = []
  · rw [if_pos none, if_pos none'] at same
    exact ⟨none.trans none'.symm, same⟩
  · rw [if_pos none, if_neg none', List.nil_append] at same
    exact absurd rfl (first (.bytes back) (same ▸ List.mem_cons_self) back)
  · rw [if_neg none, if_pos none', List.nil_append] at same
    exact absurd rfl (second (.bytes front) (same ▸ List.mem_cons_self) front)
  · rw [if_neg none, if_neg none'] at same
    obtain ⟨head, tail⟩ := List.cons.inj same
    exact ⟨InboundEvent.bytes.inj head, tail⟩

/-- `onReadable` reports what `recv` observed exactly when every chunk could be stored and the
stream ended; -1 is no value of `errno`. -/
theorem onReadable_observed_iff (t : Transport) (received : List Received) (last : RecvEnd) :
    events (t.onReadable received last).2 = observed received last ↔
      StoresAll 0 received t.alloc ∧ (last = .eof ∨ last = .failed (-1)) := by
  have wf := (readLoop_length_le received ByteBuf.WF.empty rfl t.alloc).1
  have content := readLoop_content received ByteBuf.WF.empty rfl t.alloc
  rw [ByteBuf.content_empty, List.nil_append] at content
  rw [onReadable, events_map_fired, inbound_ret, bytes_of_content wf, observed, ← content,
    ← ended_iff]
  constructor
  · intro same
    refine bytes_inj ?_ ?_ same
    · intro evt member content
      rw [List.mem_singleton.mp member]
      split <;> exact fun same => by cases same
    · exact events_no_bytes last
  · rintro ⟨stored, ended⟩
    rw [stored, ended]

/-- One byte, and then the socket would block. -/
def drainedSocket : List Received := [⟨[1], List.cons_ne_nil _ _, by decide⟩]

/-- A socket read until it would block reports an error of -1. -/
theorem would_block_reports_error : ¬ ∀ (t : Transport) (received : List Received)
    (last : RecvEnd), events (t.onReadable received last).2 = observed received last := by
  intro faithful
  have fired := faithful { fd := 7, ew := .create 3, alloc := .unlimited } drainedSocket
    (.failed EAGAIN)
  clear faithful
  revert fired
  decide +kernel

end Observed

end Transport

end Getrafty
