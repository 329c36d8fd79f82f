import Getrafty.SocketLedger

set_option autoImplicit false

namespace Getrafty

/-- The edges of the state diagram, and staying put. -/
inductive SocketState.Moves : SocketState → SocketState → Prop
  | stay (state_ : SocketState) : Moves state_ state_
  | bindAsked : Moves .Idle .BindWait
  | bindReplied (status : IOStatus) : Moves .BindWait (if status = .Ok then .Bound else .Closed)
  | connectAsked : Moves .Idle .ConnectWait
  | connectReplied (status : IOStatus) :
      Moves .ConnectWait (if status = .Ok then .Connected else .Closed)
  | closing (state_ : SocketState) (open_ : state_.shut = false) : Moves state_ .CloseWait
  | closed : Moves .CloseWait .Closed

namespace Socket

/-- How far the close in progress is, if there is one. -/
def closeStage : List SocketFrame → Option CloseStage
  | [] => none
  | .closing stage _ :: _ => some stage
  | _ :: frames => closeStage frames

/-- At most one close is in progress, and once `transport_->close()` has returned only callbacks
run within it. -/
def Shape : List SocketFrame → Prop
  | [] => True
  | .user :: frames => Shape frames
  | .closing _ _ :: frames => Shape frames ∧ closeStage frames = none
  | _ :: frames => Shape frames ∧ (closeStage frames = none ∨ closeStage frames = some .bind)

structure Coherent (s : Socket) : Prop where
  shape : Shape s.stack
  closing : closeStage s.stack ≠ none ↔ s.state_ = .CloseWait

section Frames

variable {s next : Socket} {label : Label}

theorem Coherent.no_close (coherent : Coherent s) (open_ : s.state_ ≠ .CloseWait) :
    closeStage s.stack = none :=
  not_not.mp (mt coherent.closing.mp open_)

theorem ne_closeWait (open_ : s.state_.shut = false) : s.state_ ≠ .CloseWait := by
  intro closing
  rw [closing] at open_
  cases open_

theorem ne_closed (open_ : s.state_.shut = false) : s.state_ ≠ .Closed := by
  intro closed
  rw [closed] at open_
  cases open_

/-- The frame that a step leaves says nothing of the close in progress. -/
theorem left_frame {frame : SocketFrame} {frames : List SocketFrame}
    (kind : frame = .user ∨ (∃ call, frame = .transport call) ∨
      frame = .reads ∧ s.read_queue_ = [] ∨
      ∃ peer, frame = .write peer ∧ s.write_queue_.lookup (s.writeKey peer) = none) :
    closeStage (frame :: frames) = closeStage frames ∧
      (Shape (frame :: frames) → Shape frames) := by
  rcases kind with rfl | ⟨call, rfl⟩ | ⟨rfl, -⟩ | ⟨peer, rfl, -⟩
  · exact ⟨rfl, id⟩
  · exact ⟨rfl, And.left⟩
  · exact ⟨rfl, And.left⟩
  · exact ⟨rfl, And.left⟩

/-- Inline replies come before the queues are failed. -/
theorem early_of_inline (shape : Shape s.stack)
    (inline : s.stack = [] ∨ ∃ call frames, s.stack = .transport call :: frames) :
    closeStage s.stack = none ∨ closeStage s.stack = some .bind := by
  rcases inline with empty | ⟨call, frames, top⟩
  · rw [empty]
    exact Or.inl rfl
  · rw [top] at shape ⊢
    exact shape.2

/-- The close in progress goes on, with or without a callback. -/
theorem Coherent.restage (coherent : Coherent s) {stage later : CloseStage} {callback : Callback}
    {frames : List SocketFrame} (top : s.stack = .closing stage callback :: frames)
    (moved : next.stack = .closing later callback :: frames ∨
      next.stack = .user :: .closing later callback :: frames)
    (same : next.state_ = s.state_) : Coherent next := by
  obtain ⟨shape, closing⟩ := coherent
  rw [top] at shape closing
  have waits : s.state_ = .CloseWait := closing.mp (Option.some_ne_none stage)
  constructor
  · rcases moved with plain | called
    · rw [plain]
      exact shape
    · rw [called]
      exact shape
  · rw [same]
    refine ⟨fun _ => waits, fun _ => ?_⟩
    rcases moved with plain | called
    · rw [plain]
      exact Option.some_ne_none later
    · rw [called]
      exact Option.some_ne_none later

theorem Step.coherent (taken : Step s label next) (coherent : Coherent s)
    (sound : next.fault = none) : Coherent next := by
  obtain ⟨shape, closing⟩ := coherent
  have idle (open_ : s.state_ ≠ .CloseWait) := Coherent.no_close ⟨shape, closing⟩ open_
  cases taken with
  | bindRejected | connectRejected | readRejected | writeRejected | closeAgain =>
      exact ⟨shape, closing⟩
  | bindFull | connectFull | writeBusy | bindMoved | bindMissing | connectMoved | connectMissing
  | readMoved | bindGone | connectGone | closedSilently => cases sound
  | bindIgnored | connectIgnored => exact ⟨shape, closing⟩
  | bindAsked waits room =>
      have none := idle (by rw [waits]; decide)
      exact ⟨⟨shape, Or.inl none⟩, by simp only [closeStage, none]; decide⟩
  | connectAsked waits room =>
      have none := idle (by rw [waits]; decide)
      exact ⟨⟨shape, Or.inl none⟩, by simp only [closeStage, none]; decide⟩
  | readAsked open_ room => exact ⟨⟨shape, Or.inl (idle (ne_closeWait open_))⟩, closing⟩
  | writeAsked data peer open_ addressed some_byte free =>
      exact ⟨⟨shape, Or.inl (idle (ne_closeWait open_))⟩, closing⟩
  | closeAsked open_ =>
      have none := idle (ne_closeWait open_)
      exact ⟨⟨⟨shape, none⟩, Or.inr rfl⟩, by simp only [closeStage]; decide⟩
  | bindReplied status endpoint id queue waits first =>
      have none := idle (by rw [waits]; decide)
      refine ⟨shape, ?_⟩
      simp only [closeStage, none]
      split <;> decide
  | connectReplied status id queue waits first =>
      have none := idle (by rw [waits]; decide)
      refine ⟨shape, ?_⟩
      simp only [closeStage, none]
      split <;> decide
  | readReady inline => exact ⟨⟨shape, early_of_inline shape inline⟩, closing⟩
  | writeReady peer inline => exact ⟨⟨shape, early_of_inline shape inline⟩, closing⟩
  | readBlocked result frames top blocked =>
      rw [top] at shape closing
      exact ⟨shape.1, closing⟩
  | readEnded result frames req queue top first connected eof =>
      have none := idle (by rw [connected]; decide)
      rw [top] at shape none
      exact ⟨⟨⟨shape.1, none⟩, Or.inr rfl⟩, by simp only [closeStage]; decide⟩
  | readAnswered result frames id queue status data top first not_eof =>
      rw [top] at shape closing
      exact ⟨shape, closing⟩
  | writeBlocked result peer req frames top held blocked =>
      rw [top] at shape closing
      exact ⟨shape.1, closing⟩
  | writeAnswered result peer req id frames top held owner final =>
      rw [top] at shape closing
      exact ⟨shape.1, closing⟩
  | writeMoved result peer req frames top held owner =>
      rw [top] at shape closing
      exact ⟨shape.1, closing⟩
  | left frame frames top kind =>
      rw [top] at shape closing
      obtain ⟨stage, inner⟩ := left_frame kind
      exact ⟨inner shape, stage ▸ closing⟩
  | closed id frames top =>
      rw [top] at shape
      exact ⟨shape.1, by simp only [closeStage, shape.2]; decide⟩
  | writeSkipped peer left callback frames top among silent =>
      exact Coherent.restage ⟨shape, closing⟩ top (Or.inl rfl) rfl
  | closingBind callback frames top empty =>
      exact Coherent.restage ⟨shape, closing⟩ top (Or.inl rfl) rfl
  | closingConnect callback frames top empty =>
      exact Coherent.restage ⟨shape, closing⟩ top (Or.inl rfl) rfl
  | closingReads callback frames top empty =>
      exact Coherent.restage ⟨shape, closing⟩ top (Or.inl rfl) rfl
  | readSkipped callback frames queue top first =>
      exact Coherent.restage ⟨shape, closing⟩ top (Or.inl rfl) rfl
  | closingWrites callback frames top =>
      exact Coherent.restage ⟨shape, closing⟩ top (Or.inl rfl) rfl
  | writeFailed peer left callback frames req id top among held owner =>
      exact Coherent.restage ⟨shape, closing⟩ top (Or.inr rfl) rfl
  | bindFailed callback frames id queue top first =>
      exact Coherent.restage ⟨shape, closing⟩ top (Or.inr rfl) rfl
  | connectFailed callback frames id queue top first =>
      exact Coherent.restage ⟨shape, closing⟩ top (Or.inr rfl) rfl
  | readFailed callback frames id queue top first =>
      exact Coherent.restage ⟨shape, closing⟩ top (Or.inr rfl) rfl

theorem coherent_start : Coherent {} := ⟨trivial, by decide⟩

/-- The frames fit the state of the socket for as long as nothing went wrong. -/
theorem Run.coherent {labels : List Label} (run : Run labels s) (sound : s.fault = none) :
    Coherent s := by
  revert sound
  refine run.invariant (fun s => s.fault = none → Coherent s)
    (fun _ => coherent_start) ?_
  intro s label next before taken sound
  obtain ⟨unharmed, taken⟩ := step_cases taken
  exact taken.coherent (before unharmed) sound

theorem Step.moves (taken : Step s label next) (coherent : Coherent s) :
    s.state_.Moves next.state_ := by
  cases taken with
  | bindAsked idle room => exact idle ▸ .bindAsked
  | connectAsked idle room => exact idle ▸ .connectAsked
  | closeAsked open_ => exact .closing _ open_
  | bindReplied status endpoint id queue waits first => exact waits ▸ .bindReplied status
  | bindMoved status endpoint queue waits first => exact waits ▸ .bindReplied status
  | connectReplied status id queue waits first => exact waits ▸ .connectReplied status
  | connectMoved status queue waits first => exact waits ▸ .connectReplied status
  | readEnded result frames req queue top first connected eof =>
      exact .closing _ (by rw [connected]; rfl)
  | closed id frames top =>
      have waits := coherent.closing.mp (by rw [top]; exact Option.some_ne_none _)
      exact waits ▸ .closed
  | closedSilently frames top =>
      have waits := coherent.closing.mp (by rw [top]; exact Option.some_ne_none _)
      exact waits ▸ .closed
  | _ => exact .stay _

end Frames

/-- A one-slot queue: it holds a request with its callback while the socket waits for the reply,
nothing in the other open states, and no callback once a close has come to it. -/
structure Slot (s : Socket) (queue : List Callback) (wait : SocketState)
    (early : CloseStage → Prop) : Prop where
  one : queue.length ≤ 1
  free : s.state_.shut = false → s.state_ ≠ wait → queue = []
  waits : s.state_ = wait → ∃ id, queue = [some id]
  closed : s.state_ = .Closed → queue.reduceOption = []
  closing : ∀ stage, closeStage s.stack = some stage → ¬ early stage → queue.reduceOption = []

def BindSlot (s : Socket) : Prop := Slot s s.bind_queue_ .BindWait (fun stage => stage = .bind)

def ConnectSlot (s : Socket) : Prop :=
  Slot s s.connect_queue_ .ConnectWait (fun stage => stage = .bind ∨ stage = .connect)

/-- The queues with room for one request. -/
inductive SlotKind where
  | bind
  | connect

namespace SlotKind

def queue (s : Socket) : SlotKind → List Callback
  | .bind => s.bind_queue_
  | .connect => s.connect_queue_

/-- The state that waits for the reply to the request. -/
def wait : SlotKind → SocketState
  | .bind => .BindWait
  | .connect => .ConnectWait

/-- The stages in which a close has not failed the request yet. -/
def early : SlotKind → CloseStage → Prop
  | .bind => fun stage => stage = .bind
  | .connect => fun stage => stage = .bind ∨ stage = .connect

/-- What `BindSlot` and `ConnectSlot` say, of the one or the other. -/
def Holds (s : Socket) (kind : SlotKind) : Prop :=
  Slot s (kind.queue s) kind.wait kind.early

variable (kind : SlotKind)

theorem wait_open : kind.wait.shut = false := by
  cases kind <;> rfl

theorem wait_ne {state : SocketState} (apart : state ≠ .BindWait ∧ state ≠ .ConnectWait) :
    kind.wait ≠ state := by
  cases kind with
  | bind => exact apart.1.symm
  | connect => exact apart.2.symm

theorem early_bind {stage : CloseStage} (begun : some CloseStage.bind = some stage) :
    kind.early stage := by
  obtain rfl := Option.some.inj begun
  cases kind with
  | bind => exact rfl
  | connect => exact Or.inl rfl

theorem not_early {stage : CloseStage} (apart : stage ≠ .bind ∧ stage ≠ .connect) :
    ¬ kind.early stage := by
  cases kind with
  | bind => exact apart.1
  | connect => exact not_or.mpr apart

end SlotKind

section Slots

variable {s next : Socket} {label : Label} {queue : List Callback} {wait : SocketState}
  {early : CloseStage → Prop}

/-- A step that changes neither the state nor the close in progress. -/
theorem Slot.same (slot : Slot s queue wait early) (state : next.state_ = s.state_)
    (stage : closeStage next.stack = closeStage s.stack) : Slot next queue wait early := by
  refine ⟨slot.one, ?_, ?_, ?_, ?_⟩
  · rw [state]
    exact slot.free
  · rw [state]
    exact slot.waits
  · rw [state]
    exact slot.closed
  · rw [stage]
    exact slot.closing

/-- An empty slot, in a state that waits for no reply to it. -/
theorem Slot.empty (settled : s.state_ ≠ wait) : Slot s [] wait early :=
  ⟨Nat.zero_le 1, fun _ _ => rfl, fun waits => absurd waits settled, fun _ => rfl,
    fun _ _ _ => rfl⟩

theorem Slot.asked {id : Nat} (waits : s.state_ = wait) (open_ : wait ≠ .Closed)
    (none : closeStage s.stack = none) : Slot s [some id] wait early := by
  refine ⟨Nat.le_refl 1, fun _ other => absurd waits other, fun _ => ⟨id, rfl⟩, ?_, ?_⟩
  · exact fun closed => absurd (waits.symm.trans closed) open_
  · intro stage same
    rw [none] at same
    cases same

/-- A close that has not come to the slot. -/
theorem Slot.begun (one : queue.length ≤ 1) (waiting : wait ≠ .CloseWait)
    (closing : s.state_ = .CloseWait)
    (begun : ∀ stage, closeStage s.stack = some stage → early stage) :
    Slot s queue wait early := by
  refine ⟨one, ?_, ?_, ?_, fun stage same late => absurd (begun stage same) late⟩
  · intro open_
    rw [closing] at open_
    cases open_
  · exact fun waits => absurd (waits.symm.trans closing) waiting
  · intro closed
    rw [closing] at closed
    cases closed

/-- A close that has come to the slot, or is over. -/
theorem Slot.failed (one : queue.length ≤ 1) (waiting : wait.shut = false)
    (shut : s.state_.shut = true) (gone : queue.reduceOption = []) : Slot s queue wait early := by
  refine ⟨one, ?_, ?_, fun _ => gone, fun _ _ _ => gone⟩
  · intro open_
    rw [shut] at open_
    cases open_
  · intro waits
    rw [waits, waiting] at shut
    cases shut

/-- A close goes on, or is over, that had come to the slot before. -/
theorem Slot.later (slot : Slot s queue wait early) {stage : CloseStage} {callback : Callback}
    {frames : List SocketFrame} (top : s.stack = .closing stage callback :: frames)
    (late : ¬ early stage) (waiting : wait.shut = false) (shut : next.state_.shut = true) :
    Slot next queue wait early :=
  .failed slot.one waiting shut (slot.closing stage (by rw [top]; rfl) late)

/-- The first request of the slot is the only one. -/
theorem Slot.only (slot : Slot s queue wait early) {first : Callback} {rest : List Callback}
    (front : queue = first :: rest) : rest = [] := by
  have one := slot.one
  rw [front, List.length_cons] at one
  exact List.length_eq_zero_iff.mp (by omega)

theorem Coherent.shut (coherent : Coherent s) {stage : CloseStage} {callback : Callback}
    {frames : List SocketFrame} (top : s.stack = .closing stage callback :: frames) :
    s.state_ = .CloseWait :=
  coherent.closing.mp (by rw [top]; exact Option.some_ne_none stage)

theorem shut_of_closeWait (closing : s.state_ = .CloseWait) : s.state_.shut = true := by
  rw [closing]
  rfl

/-- No reply leaves the socket waiting for another one. -/
theorem SlotKind.reply_ne (kind : SlotKind) {status : IOStatus} {bound : SocketState}
    (settled : bound ≠ .BindWait ∧ bound ≠ .ConnectWait) :
    (if status = .Ok then bound else .Closed) ≠ kind.wait := by
  split
  · exact Ne.symm (kind.wait_ne settled)
  · exact Ne.symm (kind.wait_ne ⟨nofun, nofun⟩)

variable {kind : SlotKind}

theorem SlotKind.but_bind (same : next.connect_queue_ = s.connect_queue_) :
    ∀ other, other ≠ SlotKind.bind → other.queue next = other.queue s := by
  intro other apart
  cases other with
  | bind => exact absurd rfl apart
  | connect => exact same

theorem SlotKind.but_connect (same : next.bind_queue_ = s.bind_queue_) :
    ∀ other, other ≠ SlotKind.connect → other.queue next = other.queue s := by
  intro other apart
  cases other with
  | bind => exact same
  | connect => exact absurd rfl apart

/-- The request goes into its own slot, and the other one is empty. -/
theorem SlotKind.Holds.requested (slot : kind.Holds s) (asked : SlotKind) {id : Nat}
    (idle : s.state_ = .Idle) (none : closeStage next.stack = none)
    (waits : next.state_ = asked.wait) (pushed : asked.queue next = asked.queue s ++ [some id])
    (kept : ∀ other, other ≠ asked → other.queue next = other.queue s) : kind.Holds next := by
  have empty : kind.queue s = [] :=
    slot.free (by rw [idle]; rfl) (by rw [idle]; exact Ne.symm (kind.wait_ne ⟨nofun, nofun⟩))
  by_cases own : kind = asked
  · subst own
    rw [SlotKind.Holds, pushed, empty]
    exact .asked waits (kind.wait_ne ⟨nofun, nofun⟩) none
  · rw [SlotKind.Holds, kept kind own, empty]
    apply Slot.empty
    rw [waits]
    cases kind <;> cases asked <;> first | exact absurd rfl own | nofun

/-- A reply takes the only request out of its slot, and the other one is empty. -/
theorem SlotKind.Holds.replied (slot : kind.Holds s) (asked : SlotKind) {first : Callback}
    {rest : List Callback} (waits : s.state_ = asked.wait) (front : asked.queue s = first :: rest)
    (popped : asked.queue next = rest)
    (kept : ∀ other, other ≠ asked → other.queue next = other.queue s)
    (settled : next.state_ ≠ kind.wait) : kind.Holds next := by
  by_cases own : kind = asked
  · subst own
    rw [SlotKind.Holds, popped, slot.only front]
    exact .empty settled
  · have empty : kind.queue s = [] := by
      apply slot.free
      · rw [waits]
        exact asked.wait_open
      · rw [waits]
        cases kind <;> cases asked <;> first | exact absurd rfl own | nofun
    rw [SlotKind.Holds, kept kind own, empty]
    exact .empty settled

/-- A step keeps each slot in order. -/
theorem Step.slot (taken : Step s label next) (kind : SlotKind) (coherent : Coherent s)
    (slot : kind.Holds s) : kind.Holds next := by
  have shut {stage : CloseStage} {callback : Callback} {frames : List SocketFrame}
      (top : s.stack = .closing stage callback :: frames) : s.state_.shut = true :=
    shut_of_closeWait (coherent.shut top)
  have closing : kind.wait ≠ .CloseWait := kind.wait_ne ⟨nofun, nofun⟩
  cases taken with
  | bindAsked idle room =>
      have none := coherent.no_close (by rw [idle]; decide)
      exact slot.requested .bind idle none rfl rfl (SlotKind.but_bind rfl)
  | connectAsked idle room =>
      have none := coherent.no_close (by rw [idle]; decide)
      exact slot.requested .connect idle none rfl rfl (SlotKind.but_connect rfl)
  | bindReplied status endpoint id queue waits first =>
      exact slot.replied .bind waits first rfl (SlotKind.but_bind rfl)
        (kind.reply_ne ⟨nofun, nofun⟩)
  | bindMoved status endpoint queue waits first =>
      exact slot.replied .bind waits first rfl (SlotKind.but_bind rfl)
        (kind.reply_ne ⟨nofun, nofun⟩)
  | connectReplied status id queue waits first =>
      exact slot.replied .connect waits first rfl (SlotKind.but_connect rfl)
        (kind.reply_ne ⟨nofun, nofun⟩)
  | connectMoved status queue waits first =>
      exact slot.replied .connect waits first rfl (SlotKind.but_connect rfl)
        (kind.reply_ne ⟨nofun, nofun⟩)
  | closeAsked open_ => exact .begun slot.one closing rfl fun stage begun => kind.early_bind begun
  | readEnded result frames req queue top first connected eof =>
      exact .begun slot.one closing rfl fun stage begun => kind.early_bind begun
  | closingBind callback frames top empty =>
      cases kind with
      | bind => exact Slot.failed slot.one rfl (shut top) (by rw [SlotKind.queue, empty]; rfl)
      | connect =>
          exact .begun slot.one closing (coherent.shut top) fun stage same =>
            Or.inr (Option.some.inj same).symm
  | bindFailed callback frames id queue top first =>
      cases kind with
      | bind =>
          obtain rfl := slot.only first
          exact Slot.failed (Nat.le_refl 1) rfl (shut top) rfl
      | connect =>
          exact .begun slot.one closing (coherent.shut top) fun stage same =>
            Or.inr (Option.some.inj same).symm
  | bindGone callback frames queue top first =>
      cases kind with
      | bind =>
          simp only [SlotKind.Holds, SlotKind.queue, ← first]
          exact Slot.same slot rfl rfl
      | connect => exact Slot.same slot rfl rfl
  | closingConnect callback frames top empty =>
      cases kind with
      | bind => exact slot.later top nofun rfl (shut top)
      | connect => exact Slot.failed slot.one rfl (shut top) (by rw [SlotKind.queue, empty]; rfl)
  | connectFailed callback frames id queue top first =>
      cases kind with
      | bind => exact slot.later top nofun rfl (shut top)
      | connect =>
          obtain rfl := slot.only first
          exact Slot.failed (Nat.le_refl 1) rfl (shut top) rfl
  | connectGone callback frames queue top first =>
      cases kind with
      | bind => exact Slot.same slot rfl rfl
      | connect =>
          simp only [SlotKind.Holds, SlotKind.queue, ← first]
          exact Slot.same slot rfl rfl
  | closingReads callback frames top empty =>
      exact slot.later top (kind.not_early ⟨nofun, nofun⟩) kind.wait_open (shut top)
  | readFailed callback frames id queue top first =>
      exact slot.later top (kind.not_early ⟨nofun, nofun⟩) kind.wait_open (shut top)
  | readSkipped callback frames queue top first =>
      exact slot.later top (kind.not_early ⟨nofun, nofun⟩) kind.wait_open (shut top)
  | closingWrites callback frames top =>
      exact slot.later top (kind.not_early ⟨nofun, nofun⟩) kind.wait_open (shut top)
  | writeFailed peer left callback frames req id top among held owner =>
      exact slot.later top (kind.not_early ⟨nofun, nofun⟩) kind.wait_open (shut top)
  | writeSkipped peer left callback frames top among silent =>
      exact slot.later top (kind.not_early ⟨nofun, nofun⟩) kind.wait_open (shut top)
  | closed id frames top =>
      exact slot.later top (kind.not_early ⟨nofun, nofun⟩) kind.wait_open rfl
  | closedSilently frames top =>
      exact slot.later top (kind.not_early ⟨nofun, nofun⟩) kind.wait_open rfl
  | left frame frames top leaves =>
      exact Slot.same slot rfl (by rw [top]; exact (left_frame leaves).1.symm)
  | readBlocked result frames top blocked => exact Slot.same slot rfl (by rw [top]; rfl)
  | readAnswered result frames id queue status data top first not_eof =>
      exact Slot.same slot rfl (by rw [top]; rfl)
  | writeBlocked result peer req frames top held blocked =>
      exact Slot.same slot rfl (by rw [top]; rfl)
  | writeAnswered result peer req id frames top held owner final =>
      exact Slot.same slot rfl (by rw [top]; rfl)
  | writeMoved result peer req frames top held owner =>
      exact Slot.same slot rfl (by rw [top]; rfl)
  | _ => exact Slot.same slot rfl rfl

theorem slots_start : BindSlot {} ∧ ConnectSlot {} := ⟨.empty nofun, .empty nofun⟩

theorem Step.read_room (taken : Step s label next) (room : s.read_queue_.length ≤ kReadQueue) :
    next.read_queue_.length ≤ kReadQueue := by
  have rest {req : Callback} {queue : List Callback} (first : s.read_queue_ = req :: queue) :
      queue.length ≤ kReadQueue := by
    rw [first, List.length_cons] at room
    omega
  cases taken with
  | readAsked open_ room =>
      rw [List.length_append, List.length_singleton]
      exact room
  | readEnded result frames req queue top first connected eof => exact rest first
  | readAnswered result frames id queue status data top first not_eof => exact rest first
  | readMoved result queue first => exact rest first
  | readFailed callback frames id queue top first => exact rest first
  | readSkipped callback frames queue top first => exact rest first
  | _ => exact room

/-- No reply finds its slot empty and no request finds it taken. -/
theorem Step.no_slot_fault (taken : Step s label next) (sound : s.fault = none)
    (bind : BindSlot s) (connect : ConnectSlot s) :
    next.fault ≠ some .assertion ∧ next.fault ≠ some .pushedFull := by
  cases taken with
  | bindFull idle full =>
      rw [bind.free (by rw [idle]; rfl) (by rw [idle]; decide)] at full
      exact absurd Nat.zero_lt_one full
  | connectFull idle full =>
      rw [connect.free (by rw [idle]; rfl) (by rw [idle]; decide)] at full
      exact absurd Nat.zero_lt_one full
  | bindMissing status endpoint waits empty =>
      obtain ⟨id, held⟩ := bind.waits waits
      rw [held] at empty
      cases empty
  | connectMissing status waits empty =>
      obtain ⟨id, held⟩ := connect.waits waits
      rw [held] at empty
      cases empty
  | writeBusy | bindMoved | connectMoved | readMoved | bindGone | connectGone | closedSilently =>
      have other : some Fault.emptyCallback ≠ some .assertion ∧
          some Fault.emptyCallback ≠ some .pushedFull := by decide
      exact other
  | _ => simp only [sound, ne_eq, reduceCtorEq, not_false_eq_true, and_self]

structure Sound (s : Socket) : Prop where
  bind_slot : BindSlot s
  connect_slot : ConnectSlot s
  binds : s.binds.Exact
  connects : s.connects.Exact
  reads : s.read_queue_.length ≤ kReadQueue
  fault : s.fault ≠ some .assertion ∧ s.fault ≠ some .pushedFull

theorem sound_start : Sound {} :=
  ⟨slots_start.1, slots_start.2, fun _ => rfl, fun _ => rfl, Nat.zero_le _, by decide⟩

theorem Run.sound {labels : List Label} (run : Run labels s) : Sound s := by
  induction run with
  | nil => exact sound_start
  | snoc before taken sound =>
      obtain ⟨unharmed, taken⟩ := step_cases taken
      have coherent := Run.coherent before unharmed
      have bind := sound.bind_slot
      have connect := sound.connect_slot
      have idle {state_ : SocketState} (same : state_ = .Idle) :
          state_.shut = false ∧ state_ ≠ .BindWait ∧ state_ ≠ .ConnectWait := by
        rw [same]
        decide
      have bind_fresh := fun same => bind.free (idle same).1 (idle same).2.1
      have connect_fresh := fun same => connect.free (idle same).1 (idle same).2.2
      exact ⟨taken.slot .bind coherent bind, taken.slot .connect coherent connect,
        (taken.binds_move bind_fresh).exact_iff.mpr sound.binds,
        (taken.connects_move connect_fresh).exact_iff.mpr sound.connects,
        taken.read_room sound.reads, taken.no_slot_fault unharmed bind connect⟩

/-- How often the callback of a bind was invoked. -/
def bindCalls (s : Socket) (id : Nat) : Nat := (s.answers Completion.bind?).count id

def connectCalls (s : Socket) (id : Nat) : Nat := (s.answers Completion.connect?).count id

/-- The state machine of a socket, after any run: the moves open to it, what its slots owe in which
states, that no queue overflows, and that a settled socket has answered its binds and connects. -/
structure StateMachine (s : Socket) : Prop where
  moves : ∀ label next, step s label = some next → s.state_.Moves next.state_
  bind_owed : s.state_ ≠ .CloseWait →
    ((∃ id, some id ∈ s.bind_queue_ ∧ s.bindCalls id = 0) ↔ s.state_ = .BindWait)
  connect_owed : s.state_ ≠ .CloseWait →
    ((∃ id, some id ∈ s.connect_queue_ ∧ s.connectCalls id = 0) ↔ s.state_ = .ConnectWait)
  no_assertion : s.fault ≠ some .assertion
  no_push_full : s.fault ≠ some .pushedFull
  room : s.bind_queue_.length ≤ 1 ∧ s.connect_queue_.length ≤ 1 ∧
    s.read_queue_.length ≤ kReadQueue
  once : ∀ id, s.bindCalls id ≤ 1 ∧ s.connectCalls id ≤ 1
  settled : s.state_ = .Closed ∨ s.state_ = .Bound ∨ s.state_ = .Connected →
    (∀ id < s.askedBinds, s.bindCalls id = 1) ∧ ∀ id < s.askedConnects, s.connectCalls id = 1

theorem not_shut {state_ : SocketState} (closing : state_ ≠ .CloseWait)
    (closed : state_ ≠ .Closed) :
    state_.shut = false := by
  cases state_ with
  | CloseWait => exact absurd rfl closing
  | Closed => exact absurd rfl closed
  | _ => rfl

/-- Outside a close in progress the slot holds a callback while its reply is awaited only. -/
theorem Slot.owed_iff (slot : Slot s queue wait early) (open_ : s.state_ ≠ .CloseWait) :
    (∃ id, some id ∈ queue) ↔ s.state_ = wait := by
  constructor
  · rintro ⟨id, held⟩
    by_contra other
    by_cases closed : s.state_ = .Closed
    · have gone := slot.closed closed
      rw [← List.reduceOption_mem_iff, gone] at held
      cases held
    · rw [slot.free (not_shut open_ closed) other] at held
      cases held
  · intro waits
    obtain ⟨id, held⟩ := slot.waits waits
    exact ⟨id, held ▸ List.mem_cons_self⟩

/-- A settled socket holds no callback in the slot. -/
theorem Slot.settled (slot : Slot s queue wait early) (waiting : wait.shut = false)
    (settled : s.state_ = .Closed ∨ s.state_ = .Bound ∨ s.state_ = .Connected)
    (bound : wait ≠ .Bound) (connected : wait ≠ .Connected) (id : Nat) :
    id ∉ queue.reduceOption := by
  rw [List.reduceOption_mem_iff]
  intro held
  have waits := (slot.owed_iff
      (by rcases settled with same | same | same <;> rw [same] <;> decide)).mp
    ⟨id, held⟩
  rw [waits] at settled
  rcases settled with same | same | same
  · rw [same] at waiting
    cases waiting
  · exact bound same
  · exact connected same

theorem run_stateMachine {labels : List Label} (run : Run labels s) : StateMachine s := by
  obtain ⟨bind, connect, binds, connects, reads, fault⟩ := Run.sound run
  refine ⟨?_, ?_, ?_, fault.1, fault.2, ⟨bind.one, connect.one, reads⟩, ?_, ?_⟩
  · intro label next taken
    obtain ⟨unharmed, taken⟩ := step_cases taken
    exact taken.moves (Run.coherent run unharmed)
  · intro open_
    rw [← bind.owed_iff open_]
    refine exists_congr fun id => ⟨And.left, fun held => ⟨held, ?_⟩⟩
    exact (binds.owed (List.reduceOption_mem_iff.mpr held)).2
  · intro open_
    rw [← connect.owed_iff open_]
    refine exists_congr fun id => ⟨And.left, fun held => ⟨held, ?_⟩⟩
    exact (connects.owed (List.reduceOption_mem_iff.mpr held)).2
  · exact fun id => ⟨binds.answered_le id, connects.answered_le id⟩
  · intro settled
    exact ⟨fun id asked => binds.answered_once asked
        (bind.settled rfl settled (by decide) (by decide) id),
      fun id asked => connects.answered_once asked
        (connect.settled rfl settled (by decide) (by decide) id)⟩

/-- A bind is closed under way, its reply comes too late, and a connect is turned down. -/
def closedBind : List Label :=
  [.request .bind, .resume, .request .close, .reply (.BindRep .Ok "0.0.0.0:1"), .resume, .resume,
    .request .connect, .resume, .resume, .resume, .resume, .resume, .resume, .resume,
    .reply (.BindRep .Ok "0.0.0.0:1")]

theorem run_stateMachine_closedBind :
    ∃ s, Run closedBind s ∧ s.state_ = .Closed ∧ s.bind_queue_ = [none] ∧ StateMachine s := by
  have runs : (Transition.run step {} closedBind).isSome = true := by decide +kernel
  have run := Transition.exec_of_isSome runs
  refine ⟨_, run, ?_, ?_, run_stateMachine run⟩ <;> clear run <;> revert runs <;> decide +kernel

end Slots

end Socket

end Getrafty
