import Getrafty.SocketClosed

set_option autoImplicit false

namespace Getrafty

namespace Socket

/-- The step neither asks for a write whose peer has one nor ends the stream of a connected socket
under a queued read. -/
def KeepsCallables (s : Socket) : Label → Prop
  | .request (.write data peer) =>
      s.state_.shut = true ∨ s.state_ = .Bound ∧ peer = "" ∨ data = [] ∨
        s.write_queue_.lookup peer = none
  | .resumeRead result => ¬ (s.state_ = .Connected ∧ result.n = 0 ∧ result.status = .Eof)
  | _ => True

instance (s : Socket) : DecidablePred (KeepsCallables s) :=
  fun label => match label with
    | .request (.write _ _) => inferInstanceAs (Decidable (_ ∨ (_ ∧ _) ∨ _ ∨ _))
    | .request .bind | .request .connect | .request .read | .request .close => isTrue trivial
    | .resumeRead _ => inferInstanceAs (Decidable (¬ (_ ∧ _ ∧ _)))
    | .reply _ | .resumeWrite _ | .failWrite _ | .resume => isTrue trivial

/-- The callbacks that the close in progress has yet to invoke are there. -/
structure Callable (s : Socket) : Prop where
  closer : closer s.stack ≠ some none
  bind : closeStage s.stack = some .bind → ∀ req ∈ s.bind_queue_, req ≠ none
  connect : closeStage s.stack = some .bind ∨ closeStage s.stack = some .connect →
    ∀ req ∈ s.connect_queue_, req ≠ none

section Callables

variable {s next : Socket} {label : Label} {labels : List Label}

/-- The slots of an open socket hold no request that was moved from. -/
theorem Slot.live {queue : List Callback} {wait : SocketState} {early : CloseStage → Prop}
    (slot : Slot s queue wait early) (open_ : s.state_.shut = false) :
    ∀ req ∈ queue, req ≠ none := by
  intro req member
  by_cases waits : s.state_ = wait
  · obtain ⟨id, held⟩ := slot.waits waits
    rw [held] at member
    rw [List.mem_singleton.mp member]
    exact Option.some_ne_none id
  · rw [slot.free open_ waits] at member
    cases member

/-- A step that touches neither slot nor the close in progress. -/
theorem Callable.same (callable : Callable s) (bind : next.bind_queue_ = s.bind_queue_)
    (connect : next.connect_queue_ = s.connect_queue_)
    (closing : Socket.closer next.stack = Socket.closer s.stack)
    (stage : closeStage next.stack = closeStage s.stack) : Callable next := by
  refine ⟨?_, ?_, ?_⟩
  · rw [closing]
    exact callable.closer
  · rw [stage, bind]
    exact callable.bind
  · rw [stage, connect]
    exact callable.connect

/-- No close is in progress. -/
theorem Callable.none_closing (closing : Socket.closer s.stack = none)
    (stage : closeStage s.stack = none) : Callable s := by
  refine ⟨?_, ?_, ?_⟩
  · rw [closing]
    decide
  · rw [stage]
    exact fun same => by cases same
  · rw [stage]
    exact fun same => by rcases same with same | same <;> cases same

theorem closer_none {frames : List SocketFrame} (none : closeStage frames = none) :
    Socket.closer frames = .none := by
  induction frames with
  | nil => rfl
  | cons frame frames ih =>
      cases frame with
      | closing stage callback => cases none
      | _ => exact ih none

/-- The frame that a step leaves is no close. -/
theorem left_closer {frame : SocketFrame} {frames : List SocketFrame}
    (kind : frame = .user ∨ (∃ call, frame = .transport call) ∨
      frame = .reads ∧ s.read_queue_ = [] ∨
      ∃ peer, frame = .write peer ∧ s.write_queue_.lookup (s.writeKey peer) = none) :
    Socket.closer (frame :: frames) = Socket.closer frames := by
  rcases kind with rfl | ⟨call, rfl⟩ | ⟨rfl, -⟩ | ⟨peer, rfl, -⟩ <;> rfl

/-- A close that has come to both slots goes on with its callback. -/
theorem Callable.past (callable : Callable s) {stage later : CloseStage} {callback : Callback}
    {frames : List SocketFrame} (top : s.stack = .closing stage callback :: frames)
    (closing : Socket.closer next.stack = some callback)
    (moved : closeStage next.stack = some later) (bind : later ≠ .bind)
    (connect : later ≠ .connect) : Callable next := by
  have live : callback ≠ none := by
    intro none
    refine callable.closer ?_
    rw [top, none]
    rfl
  refine ⟨fun same => live (Option.some.inj (closing.symm.trans same)), ?_, ?_⟩
  · exact fun same => absurd (Option.some.inj (moved.symm.trans same)) bind
  · rintro (same | same)
    · exact absurd (Option.some.inj (moved.symm.trans same)) bind
    · exact absurd (Option.some.inj (moved.symm.trans same)) connect

/-- A close that has come to the first slot goes on to the second. -/
theorem Callable.between (callable : Callable s) {callback : Callback} {frames : List SocketFrame}
    (top : s.stack = .closing .bind callback :: frames)
    (closing : Socket.closer next.stack = some callback)
    (moved : closeStage next.stack = some .connect)
    (connect : next.connect_queue_ = s.connect_queue_) : Callable next := by
  have live : callback ≠ none := by
    intro none
    refine callable.closer ?_
    rw [top, none]
    rfl
  refine ⟨fun same => live (Option.some.inj (closing.symm.trans same)), ?_, fun _ => ?_⟩
  · exact fun same => absurd (Option.some.inj (moved.symm.trans same)) (by decide)
  · rw [connect]
    exact callable.connect (Or.inl (by rw [top]; rfl))

theorem Step.callable (taken : Step s label next) (coherent : Coherent s) (bind : BindSlot s)
    (connect : ConnectSlot s) (kept : KeepsCallables s label) (sound : next.fault = none)
    (callable : Callable s) : Callable next := by
  have idle (open_ : s.state_.shut = false) := coherent.no_close (ne_closeWait open_)
  cases taken with
  | bindAsked waits room =>
      have none := idle (waits ▸ rfl)
      exact .none_closing (closer_none none) none
  | connectAsked waits room =>
      have none := idle (waits ▸ rfl)
      exact .none_closing (closer_none none) none
  | bindReplied status endpoint id queue waits first =>
      have none := idle (waits ▸ rfl)
      exact .none_closing (closer_none none) none
  | connectReplied status id queue waits first =>
      have none := idle (waits ▸ rfl)
      exact .none_closing (closer_none none) none
  | closeAsked open_ =>
      refine ⟨fun same => ?_, fun _ => bind.live open_, fun _ => connect.live open_⟩
      cases same
  | readEnded result frames req queue top first connected eof => exact absurd ⟨connected, eof⟩ kept
  | closingBind callback frames top empty => exact callable.between top rfl rfl rfl
  | bindFailed callback frames id queue top first => exact callable.between top rfl rfl rfl
  | closingConnect callback frames top empty =>
      exact callable.past top rfl rfl (by decide) (by decide)
  | connectFailed callback frames id queue top first =>
      exact callable.past top rfl rfl (by decide) (by decide)
  | closingReads callback frames top empty =>
      refine callable.past top rfl rfl ?_ ?_ <;> exact fun same => by cases same
  | readFailed callback frames id queue top first =>
      exact callable.past top rfl rfl (by decide) (by decide)
  | readSkipped callback frames queue top first =>
      exact callable.past top rfl rfl (by decide) (by decide)
  | closingWrites callback frames top => exact callable.past top rfl rfl (by decide) (by decide)
  | writeFailed peer left callback frames req id top among held owner =>
      refine callable.past top rfl rfl ?_ ?_ <;> exact fun same => by cases same
  | writeSkipped peer left callback frames top among silent =>
      refine callable.past top rfl rfl ?_ ?_ <;> exact fun same => by cases same
  | closed id frames top =>
      have none := (show Shape (.closing .done (some id) :: frames) from top ▸ coherent.shape).2
      exact .none_closing (closer_none none) none
  | bindFull | connectFull | writeBusy | bindMoved | bindMissing | connectMoved | connectMissing
  | readMoved | bindGone | connectGone | closedSilently => cases sound
  | readBlocked result frames top blocked =>
      exact callable.same rfl rfl (by rw [top]; rfl) (by rw [top]; rfl)
  | readAnswered result frames id queue status data top first not_eof =>
      exact callable.same rfl rfl (by rw [top]; rfl) (by rw [top]; rfl)
  | writeBlocked result peer req frames top held blocked =>
      exact callable.same rfl rfl (by rw [top]; rfl) (by rw [top]; rfl)
  | writeAnswered result peer req id frames top held owner final =>
      exact callable.same rfl rfl (by rw [top]; rfl) (by rw [top]; rfl)
  | writeMoved result peer req frames top held owner =>
      exact callable.same rfl rfl (by rw [top]; rfl) (by rw [top]; rfl)
  | left frame frames top kind =>
      refine callable.same rfl rfl ?_ ?_
      · rw [top]
        exact (left_closer kind).symm
      · rw [top]
        exact (left_frame kind).1.symm
  | _ => exact callable.same rfl rfl rfl rfl

/-- A step that keeps the callables invokes none that is empty. -/
theorem Step.no_empty_call (taken : Step s label next) (sound : s.fault = none)
    (bind : BindSlot s) (connect : ConnectSlot s) (owned : ReadsOwned s)
    (kept : KeepsCallables s label) (callable : Callable s) :
    next.fault ≠ some .emptyCallback := by
  cases taken with
  | writeBusy data peer req open_ addressed some_byte held =>
      rcases kept with shut | ⟨bound, none⟩ | empty | free
      · rw [shut] at open_
        cases open_
      · exact absurd none (addressed bound)
      · exact absurd empty some_byte
      · rw [free] at held
        cases held
  | bindMoved status endpoint queue waits first =>
      obtain ⟨id, held⟩ := bind.waits waits
      rw [held] at first
      cases first
  | connectMoved status queue waits first =>
      obtain ⟨id, held⟩ := connect.waits waits
      rw [held] at first
      cases first
  | readMoved result queue first => exact absurd rfl (owned none (first ▸ List.mem_cons_self))
  | bindGone callback frames queue top first =>
      exact absurd rfl (callable.bind (by rw [top]; rfl) none (first ▸ List.mem_cons_self))
  | connectGone callback frames queue top first =>
      exact absurd rfl
        (callable.connect (Or.inr (by rw [top]; rfl)) none (first ▸ List.mem_cons_self))
  | closedSilently frames top => exact absurd (by rw [top]; rfl) callable.closer
  | bindFull | connectFull | bindMissing | connectMissing =>
      intro same
      cases same
  | _ =>
      intro same
      exact absurd (sound.symm.trans same) (by decide)

theorem callable_start : Callable {} := by
  refine .none_closing rfl rfl

theorem kept_callable
    (run : Transition.Exec (Transition.Guarded KeepsCallables (Transition.Of step)) {} labels s)
    (sound : s.fault = none) : Callable s := by
  induction run with
  | nil => exact callable_start
  | snoc before taken callable =>
      obtain ⟨kept, taken⟩ := taken
      obtain ⟨unharmed, taken⟩ := step_cases taken
      have slots := Run.sound before.unguarded
      exact taken.callable (Run.coherent before.unguarded unharmed) slots.bind_slot
        slots.connect_slot kept sound (callable unharmed)

theorem kept_no_empty_call
    (run : Transition.Exec (Transition.Guarded KeepsCallables (Transition.Of step)) {} labels s) :
    s.fault ≠ some .emptyCallback := by
  cases run with
  | nil => decide
  | snoc before taken =>
      obtain ⟨kept, taken⟩ := taken
      obtain ⟨unharmed, taken⟩ := step_cases taken
      have slots := Run.sound before.unguarded
      exact taken.no_empty_call unharmed slots.bind_slot slots.connect_slot
        (Run.reads_sound before.unguarded).1 kept (kept_callable before unharmed)

/-- A step that does not keep the callables invokes an empty one or starts a close that will. -/
theorem Step.not_kept (taken : Step s label next) (broken : ¬ KeepsCallables s label) :
    next.fault = some .emptyCallback ∨ closer next.stack = some none := by
  cases label with
  | request request =>
      cases request with
      | write data peer =>
          cases taken with
          | writeRejected data peer status reason =>
              exact absurd (reason.imp_right (Or.imp_right Or.inl)) broken
          | writeBusy => exact Or.inl rfl
          | writeAsked data peer open_ addressed some_byte free =>
              exact absurd (Or.inr (Or.inr (Or.inr free))) broken
      | _ => exact absurd trivial broken
  | resumeRead result =>
      have eof := not_not.mp broken
      by_cases sound : next.fault = none
      · exact Or.inr (taken.closer_of_eof sound eof)
      · cases taken with
        | readMoved => exact Or.inl rfl
        | readBlocked result frames top blocked =>
            rw [eof.2.2] at blocked
            exact absurd blocked.2 (by decide)
        | readEnded => exact Or.inr rfl
        | readAnswered result frames id queue status data top first not_eof =>
            exact absurd eof not_eof
  | _ => exact absurd trivial broken

/-- Once a step did not keep the callables, an empty one was invoked or its close is under way. -/
theorem Run.kept_or (run : Run labels s) :
    Transition.Exec (Transition.Guarded KeepsCallables (Transition.Of step)) {} labels s ∨
      s.fault = some .emptyCallback ∨ closer s.stack = some none := by
  induction run with
  | nil => exact Or.inl .nil
  | @snoc labels s next label before taken ih =>
      have stepped := step_cases taken
      rcases ih with guarded | fault | closing
      · by_cases kept : KeepsCallables s label
        · exact Or.inl (guarded.snoc ⟨kept, taken⟩)
        · exact Or.inr (stepped.2.not_kept kept)
      · rw [stepped.1] at fault
        cases fault
      · right
        have slots := Run.sound before
        have other := stepped.2.no_slot_fault stepped.1 slots.bind_slot slots.connect_slot
        cases fault : next.fault with
        | none =>
            have coherent := Run.coherent before stepped.1
            exact Or.inr (stepped.2.closer_stays fault coherent closing)
        | some fault' =>
            rw [fault] at other
            cases fault' with
            | emptyCallback => exact Or.inl rfl
            | assertion => exact absurd rfl other.1
            | pushedFull => exact absurd rfl other.2

/-- No empty callable is invoked while each step keeps them, and a run that comes to rest without
such a call kept them. -/
theorem no_empty_call_iff_kept (run : Run labels s) :
    (Transition.Exec (Transition.Guarded KeepsCallables (Transition.Of step)) {} labels s →
      s.fault ≠ some .emptyCallback) ∧
    (s.stack = [] → s.fault ≠ some .emptyCallback →
      Transition.Exec (Transition.Guarded KeepsCallables (Transition.Of step)) {} labels s) := by
  refine ⟨kept_no_empty_call, fun idle sound => ?_⟩
  rcases Run.kept_or run with guarded | fault | closing
  · exact guarded
  · exact absurd fault sound
  · rw [idle] at closing
    cases closing

/-- A bound socket reads to the end of a stream, writes, and is closed twice. -/
def boundStream : List Label :=
  [.request .bind, .reply (.BindRep .Ok "0.0.0.0:1"), .resume, .resume, .request .read,
    .resumeRead ⟨0, .Eof, [], "a"⟩, .request (.write [1] "a"), .resumeWrite ⟨0, .WouldBlock, false⟩,
    .request .close, .resume, .resume, .resume, .resume, .failWrite "a", .request .close, .resume,
    .resume, .resume, .resume, .resume, .resume, .resume]

theorem no_empty_call_iff_kept_boundStream :
    ∃ s, Run boundStream s ∧ s.state_ = .Closed ∧ s.stack = [] ∧
      s.fault ≠ some .emptyCallback := by
  have runs : (Transition.run (Transition.guardedStep
      (fun s label => decide (KeepsCallables s label)) step) {} boundStream).isSome = true := by
    decide +kernel
  have kept := Transition.guarded_of_isSome runs
  have sound := (no_empty_call_iff_kept kept.unguarded).1 kept
  refine ⟨_, kept.unguarded, ?_, ?_, sound⟩ <;> clear kept sound <;> revert runs <;>
    decide +kernel

/-- The other end closes its connection while a read waits, and the close runs to its end. -/
def selfClose : List Label :=
  [.request .connect, .reply (.ConnectRep .Ok), .resume, .resume, .request .read,
    .resumeRead ⟨0, .Eof, [], ""⟩, .resume, .resume, .resume, .resume, .resume, .resume]

/-- The close that a socket issues to itself invokes a callback that it does not have. -/
theorem self_close_calls_nothing : ¬ ∀ (labels : List Label) (s : Socket), Run labels s →
    s.fault ≠ some .emptyCallback := by
  intro sound
  have runs : (Transition.run step {} selfClose).isSome = true := by decide +kernel
  have never := sound _ _ (Transition.exec_of_isSome runs)
  clear sound
  revert runs never
  decide +kernel

end Callables

end Socket

end Getrafty
