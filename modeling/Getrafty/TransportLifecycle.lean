import Getrafty.TransportFlush

set_option autoImplicit false

namespace Getrafty

open Transition (Exec Of Guarded guardedStep guardedStep_of)
open Words (toInt32)

/-- `errno` after the call. -/
def WriteOutcome.errno : WriteOutcome → Int
  | .accepted _ errno => errno
  | .failed errno => errno

namespace Transport

/-- What the pipeline received from its head, in order. -/
def events (log : List Observation) : List InboundEvent :=
  log.filterMap fun seen => match seen with
    | .fired evt => some evt
    | _ => none

@[simp] theorem events_append (front back : List Observation) :
    events (front ++ back) = events front ++ events back := List.filterMap_append

/-- An error was delivered. -/
def Reported (log : List Observation) : Prop := ∃ evt ∈ events log, ∃ err, evt = .error err

instance (evt : InboundEvent) : Decidable (∃ err, evt = .error err) :=
  match evt with
  | .error err => isTrue ⟨err, rfl⟩
  | .bytes _ | .inactive => isFalse nofun

instance (log : List Observation) : Decidable (Reported log) :=
  inferInstanceAs (Decidable (∃ _ ∈ _, _))

/-- The end was delivered. -/
def Ended (log : List Observation) : Prop := .inactive ∈ events log

instance (log : List Observation) : Decidable (Ended log) := inferInstanceAs (Decidable (_ ∈ _))

/-- The pairs of events that may come in this order. -/
def Precedes : InboundEvent → InboundEvent → Prop
  | .bytes _, _ => True
  | .error _, .inactive => True
  | _, _ => False

/-- Bytes, then at most one error, then at most one end, and an error is followed by the end
before the stages are removed. -/
structure Lawful (log : List Observation) : Prop where
  ordered : (events log).Pairwise Precedes
  closed : ∀ front back, log = front ++ .removed :: back → Reported front → Ended front

/-- The allocator lets one of the chunks be stored. -/
def Delivers (received : List Received) (alloc : Allocator) : Prop :=
  ∃ i < received.length, alloc.grants (alloc.calls + i) = true

instance (received : List Received) (alloc : Allocator) : Decidable (Delivers received alloc) :=
  inferInstanceAs (Decidable (∃ _ < _, _))

/-- The first negative result comes with bytes left, and not because the socket is full. -/
def Fatal (bytes : Nat) (outcomes : Nat → WriteOutcome) : Prop :=
  ∃ turn < 256, accepted outcomes turn < bytes ∧ Negative bytes outcomes turn ∧
    (∀ earlier < turn, ¬ Negative bytes outcomes earlier) ∧
      ¬ ((outcomes turn).errno = EAGAIN ∨ (outcomes turn).errno = EWOULDBLOCK)

instance (bytes : Nat) (outcomes : Nat → WriteOutcome) : Decidable (Fatal bytes outcomes) :=
  inferInstanceAs (Decidable (∃ _ < _, _))

section Outbound

theorem errno_writeSome (src : ByteBuf) (maxBytes : Nat) (outcome : WriteOutcome) :
    (writeSome src maxBytes outcome).errno = outcome.errno := by
  cases outcome with
  | failed errno => rfl
  | accepted n errno =>
      simp only [writeSome]
      split <;> rfl

/-- The loop ends with the `errno` of the first turn that is negative, if bytes are left then. -/
theorem writeLoop_errno {bytes : Nat} {outcomes : Nat → WriteOutcome} (left : Nat)
    (small : left ≤ 256) {wbuf : ByteBuf} (wf : wbuf.WF)
    (rest : wbuf.content.length = bytes - accepted outcomes (256 - left)) (errno : Int) :
    (writeLoop outcomes left wbuf).errno = some errno ↔
      ∃ turn < 256, 256 - left ≤ turn ∧ accepted outcomes turn < bytes ∧
        Negative bytes outcomes turn ∧
        (∀ earlier < turn, 256 - left ≤ earlier → ¬ Negative bytes outcomes earlier) ∧
        (outcomes turn).errno = errno := by
  induction left generalizing wbuf with
  | zero =>
      simp only [writeLoop, reduceCtorEq, false_iff]
      rintro ⟨turn, before, after, -⟩
      omega
  | succ left ih =>
      have turnEq : 256 - (left + 1) = 255 - left := by omega
      have nextTurn : 256 - left = 255 - left + 1 := by omega
      rw [turnEq] at rest ⊢
      simp only [writeLoop, wf.readableBytes_eq]
      split
      · rename_i empty
        simp only [reduceCtorEq, false_iff]
        rintro ⟨turn, -, after, more, -⟩
        have later := accepted_mono outcomes after
        omega
      · rw [← wf.readableBytes_eq]
        obtain ⟨negative, remaining⟩ := writeSome_turn wf rest
        split
        · rename_i open_ stopped
          have hit := negative.mp stopped
          simp only [errno_writeSome, Option.some.injEq]
          constructor
          · intro same
            refine ⟨255 - left, by omega, Nat.le_refl _, by omega, hit,
              fun earlier before after => ?_, same⟩
            omega
          · rintro ⟨turn, before, after, more, also, first, same⟩
            rcases Nat.eq_or_lt_of_le after with rfl | later
            · exact same
            · exact absurd hit (first _ later (Nat.le_refl _))
        · rename_i open_ goesOn
          have missed := fun hit => goesOn (negative.mpr hit)
          rw [← nextTurn] at remaining
          rw [ih (by omega) (writeSome_wf wf _ _) remaining]
          constructor
          · rintro ⟨turn, before, after, more, hit, first, same⟩
            refine ⟨turn, before, by omega, more, hit, fun earlier sooner from_ => ?_, same⟩
            rcases Nat.eq_or_lt_of_le from_ with rfl | later
            · exact missed
            · exact first earlier sooner (by omega)
          · rintro ⟨turn, before, after, more, hit, first, same⟩
            refine ⟨turn, before, ?_, more, hit, fun earlier sooner from_ => ?_, same⟩
            · rcases Nat.eq_or_lt_of_le after with rfl | later
              · exact absurd hit missed
              · omega
            · exact first earlier sooner (by omega)

end Outbound

section Inbound

/-- The first chunk that gets room is stored into an empty buffer. -/
theorem writeRaw_fresh (received : Received) (alloc : Allocator) :
    (({} : ByteBuf).writeRaw received.bytes alloc).1 = alloc.grants alloc.calls ∧
      (alloc.grants alloc.calls = false →
        ({} : ByteBuf).writeRaw received.bytes alloc =
          (false, {}, { alloc with calls := alloc.calls + 1, refused := alloc.refused + 1 })) := by
  have some : received.bytes.length ≠ 0 := fun zero =>
    received.some_byte (List.eq_nil_of_length_eq_zero zero)
  have small : received.bytes.length ≤ maxSize := received.fits.trans (by decide)
  have room : ¬ received.bytes.length ≤ ByteBuf.writableBytes {} := by
    rw [ByteBuf.WF.empty.writableBytes_eq]
    exact fun le => some (Nat.le_zero.mp le)
  have sum : Words.addSize 0 received.bytes.length = received.bytes.length := by
    rw [Words.addSize_eq, Nat.zero_add]
    have below : maxSize < Words.sizeRange := by decide
    omega
  simp only [ByteBuf.writeRaw, some, ↓reduceIte, ByteBuf.reserve, room, sum, Allocator.resize,
    small, true_and]
  cases alloc.grants alloc.calls with
  | true =>
      refine ⟨rfl, fun refused => ?_⟩
      cases refused
  | false => exact ⟨rfl, fun _ => rfl⟩

theorem readLoop_nonempty (received : List Received) {buf : ByteBuf} (wf : buf.WF)
    (alloc : Allocator) (more : buf.content ≠ []) :
    (readLoop received buf alloc).1.WF ∧ (readLoop received buf alloc).1.content ≠ [] := by
  induction received generalizing buf alloc with
  | nil => exact ⟨wf, more⟩
  | cons chunk rest ih =>
      have small : chunk.bytes.length ≤ maxSize := chunk.fits.trans (by decide)
      simp only [readLoop]
      rcases wf.writeRaw_cases small alloc with
        ⟨after, alloc', stored, wfAfter, content, -⟩ | ⟨alloc', stuck, -⟩
      · rw [stored]
        refine ih wfAfter alloc' fun none => more ?_
        rw [content] at none
        exact (List.append_eq_nil_iff.mp none).1
      · rw [stuck]
        exact ih wf alloc' more

theorem readLoop_delivers (received : List Received) (alloc : Allocator) :
    0 < (readLoop received {} alloc).1.readableBytes ↔ Delivers received alloc := by
  induction received generalizing alloc with
  | nil =>
      have none : ¬ Delivers [] alloc := fun ⟨_, below, _⟩ => absurd below (Nat.not_lt_zero _)
      simp only [none, iff_false, readLoop]
      decide
  | cons chunk rest ih =>
      obtain ⟨stored, refusedEq⟩ := writeRaw_fresh chunk alloc
      have small : chunk.bytes.length ≤ maxSize := chunk.fits.trans (by decide)
      cases granted : alloc.grants alloc.calls with
      | true =>
          have delivers : Delivers (chunk :: rest) alloc := ⟨0, Nat.succ_pos _, granted⟩
          simp only [delivers, iff_true, readLoop]
          rcases ByteBuf.WF.empty.writeRaw_cases small alloc with
            ⟨after, alloc', result, wfAfter, content, -⟩ | ⟨alloc', stuck, -⟩
          · have more : after.content ≠ [] := by
              rw [content]
              exact chunk.some_byte
            obtain ⟨wf, left⟩ := readLoop_nonempty rest wfAfter alloc' more
            rw [result, wf.readableBytes_eq]
            exact List.length_pos_of_ne_nil left
          · rw [stuck, granted] at stored
            cases stored
      | false =>
          simp only [readLoop, refusedEq granted]
          rw [ih]
          constructor
          · rintro ⟨i, below, grants⟩
            refine ⟨i + 1, Nat.succ_lt_succ below, ?_⟩
            rw [show alloc.calls + (i + 1) = alloc.calls + 1 + i by omega]
            exact grants
          · rintro ⟨i, below, grants⟩
            cases i with
            | zero => exact absurd (granted.symm.trans grants) Bool.false_ne_true
            | succ i =>
                rw [show alloc.calls + (i + 1) = alloc.calls + 1 + i by omega] at grants
                exact ⟨i, Nat.lt_of_succ_lt_succ below, grants⟩

end Inbound

section Events

/-- Nothing but what is listed comes from an operation. -/
theorem events_writeAll (t : Transport) (bufs : List LiveBuf) :
    events (t.writeAll bufs).2 = [] := by
  refine List.filterMap_eq_nil_iff.mpr fun seen among => ?_
  obtain ⟨_, _, _, rfl⟩ := wrote_of_mem_writeAll t bufs seen among
  rfl

theorem events_afterLoop (t : Transport) (stopped : Stopped) (replies : List LiveBuf) :
    events (t.afterLoop stopped replies).2 =
      match stopped.errno with
      | some errno => if errno = EAGAIN ∨ errno = EWOULDBLOCK then [] else [.error errno]
      | none => [] := by
  obtain ⟨errno, wbuf, sent⟩ := stopped
  cases errno with
  | some errno =>
      simp only [afterLoop]
      split <;> rfl
  | none =>
      have silent := events_writeAll ({ t with wbuf } : Transport).unwatchWritable replies
      exact silent

/-- `onWritable` reports one error when the loop ends fatally, and nothing otherwise. -/
theorem events_onWritable {t : Transport} (wf : t.wbuf.WF) (outcomes : Nat → WriteOutcome)
    (replies : List LiveBuf) :
    (Fatal t.wbuf.content.length outcomes ∧
        ∃ errno, events (t.onWritable outcomes replies).2 = [.error errno]) ∨
      ¬ Fatal t.wbuf.content.length outcomes ∧ events (t.onWritable outcomes replies).2 = [] := by
  have start : t.wbuf.content.length = t.wbuf.content.length - accepted outcomes (256 - 256) := by
    simp only [Nat.sub_self, accepted, Finset.range_zero, Finset.sum_empty, Nat.sub_zero]
  have ends := writeLoop_errno 256 (Nat.le_refl _) wf start
  simp only [Nat.sub_self, Nat.zero_le, true_and, forall_const] at ends
  rw [onWritable, events_afterLoop]
  cases ended : (writeLoop outcomes 256 t.wbuf).errno with
  | none =>
      refine Or.inr ⟨?_, rfl⟩
      rintro ⟨turn, before, more, hit, first, -⟩
      have some := (ends _).mpr ⟨turn, before, more, hit, first, rfl⟩
      rw [ended] at some
      cases some
  | some errno =>
      obtain ⟨turn, before, more, hit, first, same⟩ := (ends errno).mp ended
      dsimp only
      split
      · rename_i full
        refine Or.inr ⟨?_, rfl⟩
        rintro ⟨turn', before', more', hit', first', fatal⟩
        have again := (ends _).mpr ⟨turn', before', more', hit', first', rfl⟩
        rw [ended] at again
        rw [← Option.some.inj again] at fatal
        exact fatal full
      · rename_i fatal
        exact Or.inl ⟨⟨turn, before, more, hit, first, same ▸ fatal⟩, errno, rfl⟩

theorem events_map_fired (evts : List InboundEvent) : events (evts.map .fired) = evts := by
  simp only [events, List.filterMap_map]
  exact List.filterMap_some

/-- Bytes if there are any, and then, since `EAGAIN` is never returned, an error or the end. -/
theorem events_onReadable (t : Transport) (received : List Received) (last : RecvEnd) :
    ∃ chunks, events (t.onReadable received last).2 =
        chunks.map .bytes ++ [if last = .eof then .inactive else .error (-1)] ∧
      (chunks ≠ [] ↔ Delivers received t.alloc) := by
  have delivers := readLoop_delivers received t.alloc
  have ended : (if RecvEnd.ret last = EAGAIN then []
      else if RecvEnd.ret last = EWOULDBLOCK then []
      else if RecvEnd.ret last = 0 then [.inactive]
      else [InboundEvent.error (RecvEnd.ret last)]) =
        [if last = .eof then .inactive else .error (-1)] := by
    cases last with
    | eof => rfl
    | failed errno => rfl
  unfold onReadable
  dsimp only
  rw [events_map_fired, inbound, ended]
  by_cases some : 0 < (readLoop received {} t.alloc).1.readableBytes
  · refine ⟨[(readLoop received {} t.alloc).1.content], by rw [if_pos some]; rfl, ?_⟩
    exact ⟨fun _ => delivers.mp some, fun _ => List.cons_ne_nil _ _⟩
  · refine ⟨[], by rw [if_neg some]; rfl, ?_⟩
    exact ⟨fun none => absurd rfl none, fun delivered => absurd (delivers.mpr delivered) some⟩

end Events

/-- An end is delivered once, an error only to a pipeline that saw neither, bytes neither
behind an error nor behind an end, and only a pipeline whose error was followed by the end
is destroyed. -/
def Orderly (s : State) : Op → Prop
  | .onReadable received last => ¬ Ended s.log ∧
      (Reported s.log → last = .eof ∧ ¬ Delivers received s.transport.alloc)
  | .onWritable outcomes _ =>
      Fatal s.transport.wbuf.content.length outcomes → ¬ Reported s.log ∧ ¬ Ended s.log
  | .destroy => Reported s.log → Ended s.log
  | _ => True

instance (s : State) : DecidablePred (Orderly s) :=
  fun op => match op with
    | .onReadable _ _ => inferInstanceAs (Decidable (_ ∧ (_ → _ ∧ ¬ _)))
    | .onWritable _ _ => inferInstanceAs (Decidable (_ → _))
    | .destroy => inferInstanceAs (Decidable (_ → _))
    | .write _ | .flush | .readableStateChanged _ => isTrue trivial

section Order

variable {log : List Observation}

theorem all_precede_inactive : (∀ evt ∈ events log, Precedes evt .inactive) ↔ ¬ Ended log := by
  constructor
  · exact fun all among => all _ among
  · intro open_ evt among
    cases evt with
    | inactive => exact open_ among
    | _ => trivial

theorem all_precede_error (err : Int) :
    (∀ evt ∈ events log, Precedes evt (.error err)) ↔ ¬ Reported log ∧ ¬ Ended log := by
  constructor
  · refine fun all => ⟨?_, fun among => all _ among⟩
    rintro ⟨_, among, err, rfl⟩
    exact all _ among
  · rintro ⟨fine, open_⟩ evt among
    cases evt with
    | inactive => exact open_ among
    | error err => exact fine ⟨_, among, err, rfl⟩
    | bytes content => trivial

theorem all_precede_bytes (content : List UInt8) :
    (∀ evt ∈ events log, Precedes evt (.bytes content)) ↔ ¬ Reported log ∧ ¬ Ended log := by
  rw [← all_precede_error 0]
  refine forall₂_congr fun evt _ => ?_
  cases evt <;> rfl

/-- Bytes followed by one last event may come after a log. -/
theorem ordered_chunks (chunks : List (List UInt8)) (evt : InboundEvent) :
    (events log ++ (chunks.map InboundEvent.bytes ++ [evt])).Pairwise Precedes ↔
      (events log).Pairwise Precedes ∧ (∀ early ∈ events log, Precedes early evt) ∧
        (chunks ≠ [] → ¬ Reported log ∧ ¬ Ended log) := by
  have inner : (chunks.map InboundEvent.bytes ++ [evt]).Pairwise Precedes := by
    refine List.pairwise_append.mpr ⟨?_, List.pairwise_singleton _ _, ?_⟩
    · exact List.pairwise_map.mpr (List.pairwise_of_forall fun _ _ => trivial)
    · intro early among _ _
      obtain ⟨content, -, rfl⟩ := List.mem_map.mp among
      trivial
  rw [List.pairwise_append]
  refine and_congr_right fun _ => ⟨fun ⟨_, cross⟩ => ⟨fun early among => ?_, fun some => ?_⟩, ?_⟩
  · exact cross early among evt (by simp)
  · obtain ⟨content, more⟩ := List.exists_mem_of_ne_nil _ some
    refine (all_precede_bytes content).mp fun early among => cross early among _ ?_
    exact List.mem_append_left _ (List.mem_map_of_mem more)
  · rintro ⟨final, none⟩
    refine ⟨inner, fun early among later after => ?_⟩
    rcases List.mem_append.mp after with chunk | last
    · obtain ⟨content, more, rfl⟩ := List.mem_map.mp chunk
      exact (all_precede_bytes content).mpr (none (List.ne_nil_of_mem more)) early among
    · rw [List.mem_singleton.mp last]
      exact final early among

end Order

theorem ordered_perform {s : State} (wf : s.transport.wbuf.WF) {op : Op} (alive : op ≠ .destroy) :
    (events (s.log ++ (s.transport.perform op).2)).Pairwise Precedes ↔
      (events s.log).Pairwise Precedes ∧ Orderly s op := by
  have silent : events (s.transport.perform op).2 = [] → Orderly s op →
      ((events (s.log ++ (s.transport.perform op).2)).Pairwise Precedes ↔
        (events s.log).Pairwise Precedes ∧ Orderly s op) := by
    intro none orderly
    rw [events_append, none, List.append_nil]
    exact (and_iff_left orderly).symm
  cases op with
  | write buf =>
      have none := events_writeAll s.transport [buf]
      rw [writeAll, events_append, List.append_eq_nil_iff] at none
      exact silent none.1 trivial
  | flush => exact silent rfl trivial
  | readableStateChanged readable => exact silent rfl trivial
  | destroy => exact absurd rfl alive
  | onWritable outcomes replies =>
      rcases events_onWritable wf outcomes replies with ⟨fatal, errno, one⟩ | ⟨fine, none⟩
      · have single := @ordered_chunks s.log [] (.error errno)
        rw [List.map_nil, List.nil_append, ← one, ← events_append] at single
        refine single.trans (and_congr_right fun _ => ?_)
        rw [all_precede_error]
        exact ⟨fun both _ => both.1, fun orderly => ⟨orderly fatal, fun some => absurd rfl some⟩⟩
      · exact silent none fun fatal => absurd fatal fine
  | onReadable received last =>
      obtain ⟨chunks, evts, delivers⟩ := events_onReadable s.transport received last
      have parts := @ordered_chunks s.log chunks (if last = .eof then .inactive else .error (-1))
      rw [← evts, ← events_append] at parts
      refine parts.trans (and_congr_right fun _ => ?_)
      rw [delivers]
      cases last with
      | eof =>
          rw [if_pos rfl, all_precede_inactive]
          exact ⟨fun both => ⟨both.1, fun reported => ⟨rfl, fun some => (both.2 some).1 reported⟩⟩,
            fun orderly => ⟨orderly.1, fun some =>
              ⟨fun reported => (orderly.2 reported).2 some, orderly.1⟩⟩⟩
      | failed errno =>
          have other : RecvEnd.failed errno ≠ .eof := by
            intro same
            cases same
          rw [if_neg other, all_precede_error]
          refine ⟨fun both => ⟨both.1.2, fun reported => absurd reported both.1.1⟩,
            fun orderly => ?_⟩
          have fine : ¬ Reported s.log := fun reported => other (orderly.2 reported).1
          exact ⟨⟨fine, orderly.1⟩, fun _ => ⟨fine, orderly.1⟩⟩

/-- Only the destructor removes the stages. -/
theorem removed_perform {t : Transport} {op : Op} (among : .removed ∈ (t.perform op).2) :
    op = .destroy := by
  cases op with
  | destroy => rfl
  | write buf =>
      obtain ⟨_, _, _, same⟩ := wrote_of_mem_writeAll t [buf] _
        (by rw [writeAll]; exact List.mem_append_left _ among)
      cases same
  | flush => cases among
  | readableStateChanged readable => cases among
  | onReadable received last =>
      obtain ⟨evt, -, same⟩ := List.mem_map.mp among
      cases same
  | onWritable outcomes replies =>
      refine absurd among ?_
      change .removed ∉ (t.afterLoop (writeLoop outcomes 256 t.wbuf) replies).2
      generalize writeLoop outcomes 256 t.wbuf = stopped
      obtain ⟨errno, wbuf, sent⟩ := stopped
      cases errno with
      | some errno =>
          simp only [afterLoop]
          split <;> simp
      | none =>
          simp only [afterLoop, List.mem_cons, reduceCtorEq, false_or]
          intro replied
          obtain ⟨_, _, _, same⟩ := wrote_of_mem_writeAll _ _ _ replied
          cases same

theorem Run.not_removed {eventfd fd : Nat} {alloc : Allocator} {ops : List Op} {s : State}
    (run : Run eventfd fd alloc ops s) (alive : s.destroyed = false) : .removed ∉ s.log := by
  induction run with
  | nil => exact List.not_mem_nil
  | @snoc labels state next op before taken ih =>
      obtain ⟨was, -, logged, destroys⟩ := step_eq taken
      rw [logged]
      intro among
      rcases List.mem_append.mp among with early | late
      · exact ih was early
      · exact Bool.false_ne_true (alive.symm.trans (destroys.mpr (removed_perform late)))

/-- A log without a removal is lawful as soon as its events are in order. -/
theorem lawful_of_not_removed {log : List Observation} (kept : .removed ∉ log) :
    Lawful log ↔ (events log).Pairwise Precedes := by
  refine ⟨Lawful.ordered, fun ordered => ⟨ordered, fun front back same => absurd ?_ kept⟩⟩
  rw [same]
  exact List.mem_append_right _ List.mem_cons_self

theorem lawful_step {s next : State} {op : Op} (wf : s.transport.wbuf.WF)
    (kept : .removed ∉ s.log) (taken : step s op = some next) :
    Lawful next.log ↔ Lawful s.log ∧ Orderly s op := by
  rw [(step_eq taken).2.2.1, lawful_of_not_removed kept]
  by_cases last : op = .destroy
  · subst last
    have removed : (s.transport.perform .destroy).2 = [.removed] := rfl
    rw [removed]
    have same : events (s.log ++ [.removed]) = events s.log := by
      rw [events_append]
      exact List.append_nil _
    constructor
    · exact fun lawful => ⟨same ▸ lawful.ordered, lawful.closed _ _ rfl⟩
    · rintro ⟨ordered, closed⟩
      refine ⟨same.symm ▸ ordered, fun front back cut => ?_⟩
      rcases List.eq_nil_or_concat back with rfl | ⟨back, final, rfl⟩
      · rw [← (List.append_inj' cut rfl).1]
        exact closed
      · rw [List.concat_eq_append, ← List.cons_append, ← List.append_assoc] at cut
        refine absurd ?_ kept
        rw [(List.append_inj' cut rfl).1]
        exact List.mem_append_right _ List.mem_cons_self
  · have still : .removed ∉ s.log ++ (s.transport.perform op).2 := fun among =>
      (List.mem_append.mp among).elim kept fun late => last (removed_perform late)
    rw [lawful_of_not_removed still, ordered_perform wf last]

/-- The events of a run keep to the order of the contract exactly when every step of the
run is orderly. -/
theorem lawful_iff_orderly {eventfd fd : Nat} {alloc : Allocator} {ops : List Op} {s : State}
    (run : Run eventfd fd alloc ops s) :
    Lawful s.log ↔ Exec (Guarded Orderly (Of step)) (start eventfd fd alloc) ops s := by
  have initial : Lawful (start eventfd fd alloc).log :=
    (lawful_of_not_removed List.not_mem_nil).mpr List.Pairwise.nil
  refine Exec.guarded_iff (fun s => Lawful s.log) initial ?_ run
  intro labels state op next before taken
  exact lawful_step (Run.carries before).wf (Run.not_removed before (step_eq taken).1) taken

/-- The peer sends three bytes and closes; the transport is destroyed afterwards. -/
def politePeer : List Op :=
  [.readableStateChanged true,
    .onReadable [⟨[1, 2, 3], by decide, by decide⟩] .eof, .destroy]

theorem lawful_iff_orderly_politePeer :
    ∃ s, Run 5 7 .unlimited politePeer s ∧ events s.log = [.bytes [1, 2, 3], .inactive] ∧
      Lawful s.log := by
  have runs : (Transition.run (guardedStep (fun s op => decide (Orderly s op)) step)
      (start 5 7 .unlimited) politePeer).isSome = true := by decide +kernel
  have orderly : Exec (Guarded Orderly (Of step)) (start 5 7 .unlimited) politePeer _ :=
    (Transition.exec_of_isSome runs).mono fun state op next taken =>
      have guarded := guardedStep_of state op next taken
      ⟨of_decide_eq_true guarded.1, guarded.2⟩
  refine ⟨_, orderly.unguarded, ?_, (lawful_iff_orderly orderly.unguarded).mpr orderly⟩
  clear orderly
  revert runs
  decide +kernel

/-- The loop thread calls back only for what is still watched. -/
def Called (s : State) : Op → Prop
  | .onReadable _ _ =>
      s.transport.ew.registered s.transport.fd .RDONLY = some (.user .onReadable)
  | .onWritable _ _ =>
      s.transport.ew.registered s.transport.fd .WRONLY = some (.user .onWritable)
  | _ => True

instance (s : State) : DecidablePred (Called s) :=
  fun op => match op with
    | .onReadable _ _ => inferInstanceAs (Decidable (_ = _))
    | .onWritable _ _ => inferInstanceAs (Decidable (_ = _))
    | .write _ | .flush | .readableStateChanged _ | .destroy => isTrue trivial

/-- Three bytes come, then the socket has no more for now, then it has three more. -/
def slowPeer : List Op :=
  [.readableStateChanged true,
    .onReadable [⟨[1, 2, 3], by decide, by decide⟩] (.failed EAGAIN),
    .onReadable [⟨[4, 5, 6], by decide, by decide⟩] (.failed EAGAIN)]

/-- An empty socket is reported as an error, and the bytes that come later follow it. -/
theorem bytes_follow_error :
    ¬ ∀ (ops : List Op) (s : State),
      Exec (Guarded Called (Of step)) (start 5 7 .unlimited) ops s → Lawful s.log := by
  intro lawful
  have runs : (Transition.run (guardedStep (fun s op => decide (Called s op)) step)
      (start 5 7 .unlimited) slowPeer).isSome = true := by decide +kernel
  have called : Exec (Guarded Called (Of step)) (start 5 7 .unlimited) slowPeer _ :=
    (Transition.exec_of_isSome runs).mono fun state op next taken =>
      have guarded := guardedStep_of state op next taken
      ⟨of_decide_eq_true guarded.1, guarded.2⟩
  have ordered := (lawful _ _ called).ordered
  have evts : events ((Transition.run (guardedStep (fun s op => decide (Called s op)) step)
      (start 5 7 .unlimited) slowPeer).get runs).log =
        [.bytes [1, 2, 3], .error (-1), .bytes [4, 5, 6], .error (-1)] := by
    clear called ordered
    revert runs
    decide +kernel
  rw [evts, List.pairwise_cons, List.pairwise_cons] at ordered
  exact ordered.2.1 (.bytes [4, 5, 6]) (by simp)

end Transport

end Getrafty
