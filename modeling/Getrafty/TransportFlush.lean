import Getrafty.TransportOutbound

set_option autoImplicit false

namespace Getrafty

open Transition (Exec Of Guarded guardedStep guardedStep_of)

namespace Transport

/-- Buffered bytes are watched for. -/
def Armed (t : Transport) : Prop := t.wbuf.content ≠ [] → t.Watched

/-- `onWritable` gets the buffer empty, or a negative result, within its 256 turns. -/
def Settled (s : State) : Op → Prop
  | .onWritable outcomes _ => Settles s.transport.wbuf.content.length outcomes
  | _ => True

instance (s : State) : DecidablePred (Settled s) :=
  fun op => match op with
    | .onWritable outcomes _ => inferInstanceAs (Decidable (Settles _ outcomes))
    | .write _ | .flush | .readableStateChanged _ | .onReadable _ _ | .destroy => isTrue trivial

/-- An error is reported. -/
def Reports : Observation → Prop
  | .fired (.error _) => True
  | _ => False

instance : DecidablePred Reports :=
  fun seen => match seen with
    | .fired (.error _) => isTrue trivial
    | .fired (.bytes _) | .fired .inactive | .sent _ | .flushCompleted _ | .wrote _ _ _ |
      .removed => isFalse not_false

/-- `onWritable` reports no write error; what `onReadable` reports is about reading. -/
def WritesFine (s : State) : Op → Prop
  | .onWritable outcomes replies =>
      ∀ seen ∈ (s.transport.onWritable outcomes replies).2, ¬ Reports seen
  | _ => True

instance (s : State) : DecidablePred (WritesFine s) :=
  fun op => match op with
    | .onWritable outcomes replies =>
        inferInstanceAs (Decidable (∀ seen ∈ (s.transport.onWritable outcomes replies).2,
          ¬ Reports seen))
    | .write _ | .flush | .readableStateChanged _ | .onReadable _ _ | .destroy => isTrue trivial

section Log

/-- Writing reports nothing but what was written. -/
theorem wrote_of_mem_writeAll (t : Transport) (bufs : List LiveBuf) (seen : Observation)
    (among : seen ∈ (t.writeAll bufs).2) : ∃ bytes left ret, seen = .wrote bytes left ret := by
  induction bufs generalizing t with
  | nil =>
      rw [writeAll] at among
      cases among
  | cons buf bufs ih =>
      rw [writeAll] at among
      rcases List.mem_append.mp among with first | rest
      · unfold write at first
        split at first <;> exact ⟨_, _, _, List.mem_singleton.mp first⟩
      · exact ih _ rest

/-- Only a loop without a negative result leads to `on_flush_completed_`. -/
theorem flushCompleted_afterLoop (t : Transport) (stopped : Stopped) (replies : List LiveBuf)
    (n : Nat) : .flushCompleted n ∈ (t.afterLoop stopped replies).2 ↔
      stopped.errno = none ∧ n = stopped.wbuf.readableBytes := by
  obtain ⟨errno, wbuf, sent⟩ := stopped
  cases errno with
  | some errno =>
      simp only [afterLoop]
      split <;> simp
  | none =>
      have quiet : .flushCompleted n ∉ (({ t with wbuf }).unwatchWritable.writeAll replies).2 := by
        intro among
        obtain ⟨_, _, _, same⟩ := wrote_of_mem_writeAll _ _ _ among
        cases same
      simp only [afterLoop, List.mem_cons, reduceCtorEq, Observation.flushCompleted.injEq, quiet,
        or_false, false_or, true_and]

/-- What is announced as flushed is empty exactly when the turns of the loop suffice. -/
theorem flushCompleted_onWritable {t : Transport} (wf : t.wbuf.WF) (outcomes : Nat → WriteOutcome)
    (replies : List LiveBuf) :
    (∀ n, .flushCompleted n ∈ (t.onWritable outcomes replies).2 → n = 0) ↔
      Settles t.wbuf.content.length outcomes := by
  have start : t.wbuf.content.length = t.wbuf.content.length - accepted outcomes (256 - 256) := by
    simp only [Nat.sub_self, accepted, Finset.range_zero, Finset.sum_empty, Nat.sub_zero]
  have exhausted := writeLoop_exhausted 256 (Nat.le_refl _) wf start
  have wfLoop := (writeLoop_stream outcomes 256 wf).1
  simp only [Nat.sub_self, Nat.zero_le, true_and] at exhausted
  simp only [onWritable, flushCompleted_afterLoop, wfLoop.readableBytes_eq]
  constructor
  · intro announced
    by_contra short
    obtain ⟨ended, left⟩ := exhausted.mpr short
    exact left (List.eq_nil_of_length_eq_zero (announced _ ⟨ended, rfl⟩))
  · rintro settles n ⟨ended, rfl⟩
    by_contra left
    exact exhausted.mp ⟨ended, fun empty => left (congrArg List.length empty)⟩ settles

theorem flushCompleted_perform {t : Transport} {op : Op} {n : Nat}
    (among : .flushCompleted n ∈ (t.perform op).2) :
    ∃ outcomes replies, op = .onWritable outcomes replies := by
  cases op with
  | onWritable outcomes replies => exact ⟨outcomes, replies, rfl⟩
  | write buf =>
      obtain ⟨_, _, _, same⟩ := wrote_of_mem_writeAll t [buf] _
        (by rw [writeAll]; exact List.mem_append_left _ among)
      cases same
  | flush => cases among
  | readableStateChanged readable => cases among
  | onReadable received last =>
      obtain ⟨evt, -, same⟩ := List.mem_map.mp among
      cases same
  | destroy =>
      cases List.mem_singleton.mp among

end Log

section Arming

theorem Armed.write {t : Transport} (armed : t.Armed) (tidy : t.ew.Tidy) (buf : ByteBuf) :
    (t.write buf).1.Armed := by
  unfold Transport.write
  split
  · exact armed
  · exact fun _ => watched_watchWritable _ tidy

theorem Armed.writeAll {t : Transport} (armed : t.Armed) (wf : t.wbuf.WF) (tidy : t.ew.Tidy)
    (bufs : List LiveBuf) : (t.writeAll bufs).1.Armed := by
  induction bufs generalizing t with
  | nil =>
      rw [Transport.writeAll]
      exact armed
  | cons buf bufs ih =>
      have first := carries_write wf tidy buf
      have rest := @ih (t.write buf.toByteBuf).1 (armed.write tidy _) first.wf first.tidy
      rw [Transport.writeAll]
      exact rest

theorem Armed.flush {t : Transport} (armed : t.Armed) (tidy : t.ew.Tidy) : t.flush.Armed := by
  unfold Transport.flush
  split
  · exact fun _ => watched_watchWritable _ tidy
  · exact armed

/-- What is left after a loop is still watched for, unless an error is reported or the
turns ran out. -/
theorem Armed.afterLoop {t : Transport} (armed : t.Armed) (tidy : t.ew.Tidy) {stopped : Stopped}
    (wfLoop : stopped.wbuf.WF) (stream : stopped.sent ++ stopped.wbuf.content = t.wbuf.content)
    (replies : List LiveBuf) (settles : stopped.errno = none → stopped.wbuf.content = [])
    (fine : ∀ err, .fired (.error err) ∉ (t.afterLoop stopped replies).2) :
    (t.afterLoop stopped replies).1.Armed := by
  obtain ⟨errno, wbuf, sent⟩ := stopped
  cases errno with
  | some errno =>
      simp only [Transport.afterLoop] at fine ⊢
      split
      · intro left
        refine armed fun none => left ?_
        rw [none] at stream
        exact (List.append_eq_nil_iff.mp stream).2
      · rename_i fatal
        rw [if_neg fatal] at fine
        exact absurd (by simp) (fine errno)
  | none =>
      have empty : Armed ({ t with wbuf } : Transport).unwatchWritable := by
        rw [unwatchWritable_eq]
        exact fun left => absurd (settles rfl) left
      have unwatched := carries_unwatchWritable (t := { t with wbuf }) wfLoop tidy
      exact empty.writeAll unwatched.wf unwatched.tidy replies

theorem Armed.onWritable {t : Transport} (armed : t.Armed) (wf : t.wbuf.WF) (tidy : t.ew.Tidy)
    (outcomes : Nat → WriteOutcome) (replies : List LiveBuf)
    (empty : ∀ n, .flushCompleted n ∈ (t.onWritable outcomes replies).2 → n = 0)
    (fine : ∀ err, .fired (.error err) ∉ (t.onWritable outcomes replies).2) :
    (t.onWritable outcomes replies).1.Armed := by
  obtain ⟨wfLoop, stream⟩ := writeLoop_stream outcomes 256 wf
  refine armed.afterLoop tidy wfLoop stream replies (fun ended => ?_) fine
  have zero := empty _ ((flushCompleted_afterLoop _ _ _ _).mpr ⟨ended, rfl⟩)
  rw [wfLoop.readableBytes_eq] at zero
  exact List.eq_nil_of_length_eq_zero zero

theorem Armed.readableStateChanged {t : Transport} (armed : t.Armed) (tidy : t.ew.Tidy)
    (readable : Bool) : (t.readableStateChanged readable).Armed := by
  cases readable with
  | true =>
      simp only [Transport.readableStateChanged, ↓reduceIte, inline_watch]
      intro left
      have watched := armed left
      unfold Watched at watched ⊢
      dsimp only
      rw [tidy.registered_handleWatch, if_neg (by simp), watched]
  | false =>
      simp only [Transport.readableStateChanged, Bool.false_eq_true, ↓reduceIte, inline_unwatch]
      intro left
      have watched := armed left
      unfold Watched at watched ⊢
      dsimp only
      rw [tidy.registered_handleUnwatch, if_neg (by simp), watched]

theorem Armed.perform {s : State} (armed : s.transport.Armed) (wf : s.transport.wbuf.WF)
    (tidy : s.transport.ew.Tidy) {op : Op} (alive : op ≠ .destroy)
    (empty : ∀ n, .flushCompleted n ∈ (s.transport.perform op).2 → n = 0)
    (fine : WritesFine s op) : (s.transport.perform op).1.Armed := by
  cases op with
  | write buf => exact armed.write tidy _
  | flush => exact armed.flush tidy
  | onWritable outcomes replies =>
      apply armed.onWritable wf tidy outcomes replies empty
      intro err among
      exact fine _ among trivial
  | readableStateChanged readable => exact armed.readableStateChanged tidy readable
  | onReadable received last => exact armed
  | destroy => exact absurd rfl alive

end Arming

/-- Every buffer announced as flushed was empty. -/
def FlushesEmpty (log : List Observation) : Prop := ∀ n, .flushCompleted n ∈ log → n = 0

theorem flushesEmpty_append {front back : List Observation} :
    FlushesEmpty (front ++ back) ↔ FlushesEmpty front ∧ FlushesEmpty back := by
  simp only [FlushesEmpty, List.mem_append]
  exact ⟨fun both => ⟨fun n among => both n (.inl among), fun n among => both n (.inr among)⟩,
    fun both n among => among.elim (both.1 n) (both.2 n)⟩

theorem flushesEmpty_perform {s : State} (wf : s.transport.wbuf.WF) (op : Op) :
    FlushesEmpty (s.transport.perform op).2 ↔ Settled s op := by
  by_cases writable : ∃ outcomes replies, op = .onWritable outcomes replies
  · obtain ⟨outcomes, replies, rfl⟩ := writable
    exact flushCompleted_onWritable wf outcomes replies
  · refine ⟨fun _ => ?_, fun _ n among => absurd (flushCompleted_perform among) writable⟩
    cases op with
    | onWritable outcomes replies => exact absurd ⟨outcomes, replies, rfl⟩ writable
    | _ => trivial

section Runs

variable {eventfd fd : Nat} {alloc : Allocator} {ops : List Op} {s : State}

theorem Run.flushesEmpty_iff (run : Run eventfd fd alloc ops s) :
    FlushesEmpty s.log ↔ Exec (Guarded Settled (Of step)) (start eventfd fd alloc) ops s := by
  have initial : FlushesEmpty (start eventfd fd alloc).log :=
    fun _ among => absurd among List.not_mem_nil
  refine Exec.guarded_iff (fun s => FlushesEmpty s.log) initial ?_ run
  intro labels state op next before taken
  have wf := (Run.carries before).wf
  rw [(step_eq taken).2.2.1, flushesEmpty_append, flushesEmpty_perform wf]

/-- Buffered bytes stay watched for until a write error is reported or the transport is
destroyed. -/
theorem armed_of_writesFine
    (run : Exec (Guarded WritesFine (Of step)) (start eventfd fd alloc) ops s)
    (empty : FlushesEmpty s.log) (alive : s.destroyed = false) : s.transport.Armed := by
  induction run with
  | nil =>
      intro left
      exact absurd rfl left
  | @snoc labels state next op before taken ih =>
      obtain ⟨fine, moved⟩ := taken
      obtain ⟨was, performed, logged, destroys⟩ := step_eq moved
      have carries := Run.carries before.unguarded
      rw [logged, flushesEmpty_append] at empty
      have armed := ih empty.1 was
      have kept : op ≠ .destroy := by
        intro last
        exact Bool.false_ne_true (alive.symm.trans (destroys.mpr last))
      rw [performed]
      exact armed.perform carries.wf carries.tidy kept empty.2 fine

end Runs

/-- The flushed buffers are empty, and buffered bytes are watched for unless a write error was
reported, in a run whose calls of `onWritable` all settle; in any other run a buffer with bytes
in it was announced as flushed. -/
theorem flush_contract {eventfd fd : Nat} {alloc : Allocator} {ops : List Op} {s : State}
    (run : Run eventfd fd alloc ops s) :
    Exec (Guarded Settled (Of step)) (start eventfd fd alloc) ops s ↔
      FlushesEmpty s.log ∧ (s.destroyed = false →
        Exec (Guarded WritesFine (Of step)) (start eventfd fd alloc) ops s →
        s.transport.Armed) := by
  constructor
  · intro settled
    have empty := run.flushesEmpty_iff.mpr settled
    exact ⟨empty, fun alive fine => armed_of_writesFine fine empty alive⟩
  · intro holds
    exact run.flushesEmpty_iff.mp holds.1

/-- Two bytes leave in two turns, two more are written from the callback, a read fails, and
then one byte leaves before the socket would block. -/
def repliedFlush : List Op :=
  [.write (.ofBytes [1, 2] (by decide)),
    .onWritable (fun _ => .accepted 1 0) [.ofBytes [3, 4] (by decide)], .flush,
    .onReadable [] (.failed ENFILE),
    .onWritable (fun turn => if turn = 0 then .accepted 1 0 else .failed EAGAIN) []]

theorem flush_contract_repliedFlush :
    ∃ s, Run 5 7 .unlimited repliedFlush s ∧ s.transport.wbuf.content = [4] ∧
      FlushesEmpty s.log ∧ s.transport.Watched := by
  have ends : ∃ s, Exec (Guarded (fun s op => Settled s op ∧ WritesFine s op) (Of step))
      (start 5 7 .unlimited) repliedFlush s ∧
        s.transport.wbuf.content = [4] ∧ s.destroyed = false :=
    Transition.exists_guarded (by decide +kernel)
  obtain ⟨s, guarded, content, alive⟩ := ends
  have settled : Exec (Guarded Settled (Of step)) (start 5 7 .unlimited) repliedFlush s :=
    guarded.mono fun _ _ _ taken => ⟨taken.1.1, taken.2⟩
  have fine : Exec (Guarded WritesFine (Of step)) (start 5 7 .unlimited) repliedFlush s :=
    guarded.mono fun _ _ _ taken => ⟨taken.1.2, taken.2⟩
  obtain ⟨empty, armed⟩ := (flush_contract guarded.unguarded).mp settled
  have some_left : s.transport.wbuf.content ≠ [] := by
    rw [content]
    exact List.cons_ne_nil _ _
  exact ⟨s, guarded.unguarded, content, empty, armed alive fine some_left⟩

/-- 257 bytes of which each `writev` takes one. -/
def slowSocket : List Op :=
  [.write (.ofBytes (List.replicate 257 0) (by decide +kernel)),
    .onWritable (fun _ => .accepted 1 0) []]

/-- The buffer is announced as flushed with a byte left in it that nothing watches for. -/
theorem flush_strands_byte :
    ¬ ∀ (ops : List Op) (s : State), Run 5 7 .unlimited ops s →
      FlushesEmpty s.log ∧ (s.destroyed = false →
        Exec (Guarded WritesFine (Of step)) (start 5 7 .unlimited) ops s → s.transport.Armed) := by
  intro contract
  have runs : (Transition.run step (start 5 7 .unlimited) slowSocket).isSome = true := by
    decide +kernel
  have empty := (contract _ _ (Transition.exec_of_isSome runs)).1 1
  revert runs empty
  decide +kernel

end Transport

end Getrafty
