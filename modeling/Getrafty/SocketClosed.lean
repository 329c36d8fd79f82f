import Getrafty.SocketReads
import Getrafty.SocketWrites

set_option autoImplicit false

namespace Getrafty

namespace Socket

/-- The callback of the close in progress, if there is one. -/
def closer : List SocketFrame → Option Callback
  | [] => none
  | .closing _ callback :: _ => some callback
  | _ :: frames => closer frames

/-- A close has failed all reads, or there is nothing left to close. -/
def readsOver (stage : Option CloseStage) (state_ : SocketState) : Prop :=
  match stage with
  | some (.writes _) | some .done => True
  | some _ => False
  | none => state_ = .Closed

/-- No bind or connect fails while reads or writes are queued. -/
def KeepsQueues (s : Socket) : Label → Prop
  | .reply (.BindRep status _) =>
      s.state_ = .BindWait → status ≠ .Ok → s.read_queue_ = [] ∧ s.write_queue_.entries = []
  | .reply (.ConnectRep status) =>
      s.state_ = .ConnectWait → status ≠ .Ok → s.read_queue_ = [] ∧ s.write_queue_.entries = []
  | _ => True

instance (s : Socket) : DecidablePred (KeepsQueues s) :=
  fun label => match label with
    | .reply (.BindRep _ _) => inferInstanceAs (Decidable (_ → _ → _ ∧ _))
    | .reply (.ConnectRep _) => inferInstanceAs (Decidable (_ → _ → _ ∧ _))
    | .reply .ReadReadyRep | .reply (.WriteReadyRep _) => isTrue trivial
    | .request _ | .resumeRead _ | .resumeWrite _ | .failWrite _ | .resume => isTrue trivial

/-- A read that the end of a stream dropped is not missed yet: its close is under way, and ends by
invoking a callback that it does not have. -/
structure Owing (s : Socket) : Prop where
  reads : s.reads.Exact ∨ closer s.stack = some none
  drained : readsOver (closeStage s.stack) s.state_ → s.read_queue_ = []
  writes : s.writes.AtLeast

section Closed

variable {s next : Socket} {label : Label}

theorem closeStage_of_closer {frames : List SocketFrame} {callback : Callback}
    (closing : closer frames = some callback) : closeStage frames ≠ none := by
  induction frames with
  | nil => cases closing
  | cons frame frames ih =>
      cases frame with
      | closing stage other => exact Option.some_ne_none stage
      | _ => exact ih closing

/-- The close that follows an end of stream has no callback. -/
theorem Step.closer_of_eof {result : ReadResult} (taken : Step s (.resumeRead result) next)
    (sound : next.fault = none)
    (eof : s.state_ = .Connected ∧ result.n = 0 ∧ result.status = .Eof) :
    closer next.stack = some none := by
  cases taken with
  | readBlocked _ frames top blocked =>
      rw [eof.2.2] at blocked
      exact absurd blocked.2 (by decide)
  | readEnded => rfl
  | readAnswered _ frames id queue status data top first not_eof => exact absurd eof not_eof
  | readMoved => cases sound

/-- A close without a callback goes on until it invokes it. -/
theorem Step.closer_stays (taken : Step s label next) (sound : next.fault = none)
    (coherent : Coherent s) (closing : closer s.stack = some none) :
    closer next.stack = some none := by
  cases taken with
  | closeAsked open_ =>
      exact absurd (coherent.no_close (ne_closeWait open_)) (closeStage_of_closer closing)
  | closed id frames top =>
      rw [top] at closing
      cases closing
  | closedSilently => cases sound
  | left frame frames top kind =>
      rw [top] at closing
      rcases kind with rfl | ⟨call, rfl⟩ | ⟨rfl, -⟩ | ⟨peer, rfl, -⟩ <;> exact closing
  | readEnded => rfl
  | readBlocked result frames top => rw [top] at closing; exact closing
  | readAnswered result frames id queue status data top => rw [top] at closing; exact closing
  | writeBlocked result peer req frames top => rw [top] at closing; exact closing
  | writeAnswered result peer req id frames top => rw [top] at closing; exact closing
  | writeMoved result peer req frames top => rw [top] at closing; exact closing
  | writeFailed peer left callback frames req id top => rw [top] at closing; exact closing
  | writeSkipped peer left callback frames top => rw [top] at closing; exact closing
  | closingBind callback frames top => rw [top] at closing; exact closing
  | bindFailed callback frames id queue top => rw [top] at closing; exact closing
  | closingConnect callback frames top => rw [top] at closing; exact closing
  | connectFailed callback frames id queue top => rw [top] at closing; exact closing
  | closingReads callback frames top => rw [top] at closing; exact closing
  | readFailed callback frames id queue top => rw [top] at closing; exact closing
  | readSkipped callback frames queue top => rw [top] at closing; exact closing
  | closingWrites callback frames top => rw [top] at closing; exact closing
  | _ => exact closing

theorem Step.reads_owing (taken : Step s label next) (sound : next.fault = none)
    (coherent : Coherent s) (reads : s.reads.Exact ∨ closer s.stack = some none) :
    next.reads.Exact ∨ closer next.stack = some none := by
  rcases reads with exact | closing
  · rcases taken.reads_move with move | ⟨result, queue, req, rfl, -, -, -, -, eof⟩
    · exact Or.inl (move.exact_iff.mpr exact)
    · exact Or.inr (taken.closer_of_eof sound eof)
  · exact Or.inr (taken.closer_stays sound coherent closing)

theorem Step.drained (taken : Step s label next) (coherent : Coherent s)
    (kept : KeepsQueues s label) (bind : BindSlot s) (connect : ConnectSlot s)
    (drained : readsOver (closeStage s.stack) s.state_ → s.read_queue_ = []) :
    readsOver (closeStage next.stack) next.state_ → next.read_queue_ = [] := by
  have idle (open_ : s.state_.shut = false) := coherent.no_close (ne_closeWait open_)
  -- the queue only shrinks while a close goes on
  have late {callback : Callback} {frames : List SocketFrame} {stage : CloseStage}
      (top : s.stack = .closing stage callback :: frames)
      (over_ : readsOver (some stage) s.state_) : s.read_queue_ = [] :=
    drained (by rw [top]; exact over_)
  cases taken with
  | bindAsked waits room =>
      intro done
      simp only [closeStage, idle (waits ▸ rfl)] at done
      cases done
  | connectAsked waits room =>
      intro done
      simp only [closeStage, idle (waits ▸ rfl)] at done
      cases done
  | readAsked open_ room =>
      intro done
      simp only [closeStage, idle open_] at done
      exact absurd done (ne_closed open_)
  | closeAsked open_ => exact fun done => False.elim done
  | bindReplied status endpoint id queue waits first =>
      intro done
      by_cases ok : status = .Ok
      · simp only [closeStage, idle (waits ▸ rfl), if_pos ok] at done
        cases done
      · exact (kept waits ok).1
  | connectReplied status id queue waits first =>
      intro done
      by_cases ok : status = .Ok
      · simp only [closeStage, idle (waits ▸ rfl), if_pos ok] at done
        cases done
      · exact (kept waits ok).1
  | bindMoved status endpoint queue waits first =>
      obtain ⟨id, held⟩ := bind.waits waits
      rw [held] at first
      cases first
  | connectMoved status queue waits first =>
      obtain ⟨id, held⟩ := connect.waits waits
      rw [held] at first
      cases first
  | readBlocked result frames top blocked => exact fun done => drained (by rw [top]; exact done)
  | readEnded => exact fun done => False.elim done
  | readAnswered result frames id queue status data top first not_eof =>
      intro done
      have empty := drained (by rw [top]; exact done)
      rw [first] at empty
      cases empty
  | readMoved result queue first =>
      intro done
      have empty := drained done
      rw [first] at empty
      cases empty
  | writeBlocked result peer req frames top held blocked =>
      exact fun done => drained (by rw [top]; exact done)
  | writeAnswered result peer req id frames top held owner final =>
      exact fun done => drained (by rw [top]; exact done)
  | writeMoved result peer req frames top held owner =>
      exact fun done => drained (by rw [top]; exact done)
  | writeFailed peer left callback frames req id top among held owner =>
      exact fun _ => late top trivial
  | writeSkipped peer left callback frames top among silent => exact fun _ => late top trivial
  | left frame frames top kind =>
      intro done
      rw [← (left_frame kind).1, ← top] at done
      exact drained done
  | closingBind callback frames top empty => exact fun done => False.elim done
  | bindFailed callback frames id queue top first => exact fun done => False.elim done
  | closingConnect callback frames top empty => exact fun done => False.elim done
  | connectFailed callback frames id queue top first => exact fun done => False.elim done
  | closingReads callback frames top empty => exact fun _ => empty
  | readFailed callback frames id queue top first => exact fun done => False.elim done
  | readSkipped callback frames queue top first => exact fun done => False.elim done
  | closingWrites callback frames top => exact fun _ => late top trivial
  | closed id frames top => exact fun _ => late top trivial
  | closedSilently frames top => exact fun _ => late top trivial
  | _ => exact drained

theorem Step.writes_owing (taken : Step s label next) (sound : next.fault = none)
    (coherent : Coherent s) (kept : KeepsQueues s label) (bind : BindSlot s)
    (connect : ConnectSlot s) (owned : WritesOwned s) (least : s.writes.AtLeast) :
    next.writes.AtLeast := by
  by_cases keeps : KeepsWrites s label
  · exact (taken.writes_kept coherent bind connect owned keeps).atLeast least
  · cases taken.writes_loss coherent bind connect owned keeps with
    | twice id again issued released => exact again.atLeast least
    | forgotten fault asked queue answers => exact absurd sound fault
    | abandoned id held closed asked answers failed =>
        have none : s.write_queue_.entries = [] := by
          obtain ⟨status, bad, ⟨endpoint, rfl, waits⟩ | ⟨rfl, waits⟩⟩ := failed
          · exact (kept waits bad).2
          · exact (kept waits bad).2
        rw [writes, none] at held
        cases held

theorem owing_start : Owing {} :=
  ⟨Or.inl fun _ => rfl, fun _ => rfl, fun _ => Nat.le_refl 0⟩

theorem kept_owing {labels : List Label}
    (run : Transition.Exec (Transition.Guarded KeepsQueues (Transition.Of step)) {} labels s)
    (sound : s.fault = none) : Owing s := by
  induction run with
  | nil => exact owing_start
  | snoc before taken owing =>
      obtain ⟨kept, taken⟩ := taken
      obtain ⟨unharmed, taken⟩ := step_cases taken
      have coherent := Run.coherent before.unguarded unharmed
      have bind := (Run.sound before.unguarded).bind_slot
      have connect := (Run.sound before.unguarded).connect_slot
      have owned := Run.writes_owned before.unguarded
      obtain ⟨reads, drained, writes⟩ := owing unharmed
      exact ⟨taken.reads_owing sound coherent reads,
        taken.drained coherent kept bind connect drained,
        taken.writes_owing sound coherent kept bind connect owned writes⟩

/-- Every request so far had its callback invoked. -/
structure AllAnswered (s : Socket) : Prop where
  binds : ∀ id < s.askedBinds, 1 ≤ s.bindCalls id
  connects : ∀ id < s.askedConnects, 1 ≤ s.connectCalls id
  reads : ∀ id < s.askedReads, 1 ≤ s.readCalls id
  writes : ∀ id < s.askedWrites, 1 ≤ s.writeCalls id

/-- Between ticks a closed socket owes nobody an answer, unless a bind or connect failed while
reads or writes were queued. -/
theorem closed_owes_nothing {labels : List Label}
    (run : Transition.Exec (Transition.Guarded KeepsQueues (Transition.Of step)) {} labels s)
    (idle : s.stack = []) (sound : s.fault = none) (closed : s.state_ = .Closed) :
    AllAnswered s := by
  obtain ⟨reads, drained, writes⟩ := kept_owing run sound
  have settled := (run_stateMachine run.unguarded).settled (Or.inl closed)
  rw [idle] at reads drained
  have exact : s.reads.Exact := reads.resolve_right fun closing => by cases closing
  have held : s.reads.held = [] := by rw [Socket.reads, drained closed]; rfl
  refine ⟨fun id asked => ?_, fun id asked => ?_, fun id asked => ?_, fun id asked => ?_⟩
  · exact Nat.le_of_eq (settled.1 id asked).symm
  · exact Nat.le_of_eq (settled.2 id asked).symm
  · exact Nat.le_of_eq (exact.answered_once asked (held ▸ List.not_mem_nil)).symm
  · have none : closeStage s.stack = none := by rw [idle]; rfl
    exact writes.answered asked (held_of_closed none closed ▸ List.not_mem_nil)

/-- A read before the bind, a write that waits, and a close. -/
def readEarly : List Label :=
  [.request .read, .resumeRead ⟨0, .WouldBlock, [], ""⟩, .request .bind, .resume,
    .reply (.BindRep .Ok "0.0.0.0:1"), .resume, .request (.write [1] "a"),
    .resumeWrite ⟨0, .WouldBlock, false⟩, .request .close, .resume, .resume, .resume, .resume,
    .resume, .resume, .failWrite "a", .resume, .resume, .resume, .resume]

theorem closed_owes_nothing_readEarly :
    ∃ s, Run readEarly s ∧ s.state_ = .Closed ∧ s.readCalls 0 = 1 ∧ AllAnswered s := by
  have runs : (Transition.run (Transition.guardedStep
      (fun s label => decide (KeepsQueues s label)) step) {} readEarly).isSome = true := by
    decide +kernel
  have kept := Transition.guarded_of_isSome runs
  refine ⟨_, kept.unguarded, ?_, ?_, closed_owes_nothing kept ?_ ?_ ?_⟩ <;> clear kept <;>
    revert runs <;> decide +kernel

/-- A read before the bind, and the bind fails. -/
def bindFails : List Label :=
  [.request .read, .resumeRead ⟨0, .WouldBlock, [], ""⟩, .request .bind,
    .reply (.BindRep .Fatal ""), .resume, .resume]

/-- A socket that is closed by a failed bind leaves the read queued before it unanswered. -/
theorem failed_bind_strands_read : ¬ ∀ (labels : List Label) (s : Socket), Run labels s →
    s.stack = [] → s.fault = none → s.state_ = .Closed → AllAnswered s := by
  intro answered
  have runs : (Transition.run step {} bindFails).isSome = true := by decide +kernel
  have reads (idle) (sound) (closed) :=
    (answered _ _ (Transition.exec_of_isSome runs) idle sound closed).reads 0
  clear answered
  revert runs reads
  decide +kernel

end Closed

end Socket

end Getrafty
