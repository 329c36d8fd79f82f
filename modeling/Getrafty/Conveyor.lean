import Getrafty.ByteBuffer

set_option autoImplicit false

namespace Getrafty

namespace Conveyor

/-- The alternatives of the variant `Event`. -/
inductive EventKind where
  | InboundTransportActive
  | InboundTransportInactive
  | InboundTransportError
  | InboundBytes
  | InboundSuspend
  | InboundResume
  | OutboundBytes
  | OutboundClose
  | OutboundSuspend
  | OutboundResume
  deriving DecidableEq

/-- `err`, `reason` and `buf`; the other alternatives are empty structures. -/
def EventKind.Payload : EventKind → Type
  | .InboundTransportError | .OutboundClose => Int
  | .InboundBytes | .OutboundBytes => ByteBuf
  | _ => Unit

structure Event where
  kind : EventKind
  value : kind.Payload

/-- The alternative of an event under a reference of its type. -/
def Event.get (k : EventKind) : Event → Option k.Payload
  | ⟨kind, value⟩ => if same : kind = k then some (same ▸ value) else none

/-- A call of a stage's `onInbound` or `onOutbound`, with the event as it found it. -/
structure Invocation where
  stage : Nat
  event : Event

/-- The objects of type `Event` that are alive, oldest first, the state that the stages and
what they refer to have between them, and the handler calls so far. -/
structure Machine (σ : Type) where
  state : σ
  cells : List Event := []
  log : List Invocation := []

/-- What a handler passes to `StageContext::fireInbound` or `fireOutbound`. -/
inductive Fired where
  -- the event it was given, and a typed one of its own: both are copied
  | received
  | value (evt : Event)
  -- a variant of its own: it is passed on by reference
  | variant (evt : Event)

/-- The body of a handler for events of one kind. It changes the state and the event it was given,
fires an event and goes on with what it then finds in the state, in the event it was given
and in the one it fired, until it is done. -/
inductive Body (σ : Type) (k : EventKind) where
  | done (state : σ) (evt : k.Payload)
  | fire (state : σ) (evt : k.Payload) (fired : Fired)
      (resume : σ → k.Payload → Event → Body σ k)

/-- A handler knows its position from `StageContext::index()`. -/
abbrev Handler (σ : Type) (k : EventKind) : Type := Nat → σ → k.Payload → Body σ k

/-- A handler for every kind of event that a stage cares about. -/
abbrev Handlers (σ : Type) : Type := (k : EventKind) → Option (Handler σ k)

structure Stage (σ : Type) where
  onInbound : Handlers σ
  onOutbound : Handlers σ

/-- The context of a stage: its position, and `fireInbound<Event>` or `fireOutbound<Event>`,
which take a reference to an event. -/
structure StageContext (σ : Type) where
  index : Nat
  fire : Nat → Machine σ → Option (Machine σ)

variable {σ : Type} {k : EventKind}

namespace Machine

/-- A new event comes to life. -/
def push (m : Machine σ) (evt : Event) : Machine σ :=
  { m with cells := m.cells ++ [evt] }

/-- The newest event goes out of scope. -/
def pop (m : Machine σ) : Machine σ :=
  { m with cells := m.cells.dropLast }

def write (m : Machine σ) (cell : Nat) (evt : Event) (state : σ) : Machine σ :=
  { m with state, cells := m.cells.set cell evt }

def read (m : Machine σ) (k : EventKind) (cell : Nat) : Option k.Payload :=
  m.cells[cell]?.bind (Event.get k)

end Machine

namespace StageContext

/-- `fireInbound(E&)` and `fireOutbound(E&)`: `Event wrapped{evt}` is what goes on. -/
def fireTyped (ctx : StageContext σ) (cell : Nat) (m : Machine σ) : Option (Machine σ) :=
  match m.cells[cell]? with
  | none => none
  | some evt => (ctx.fire m.cells.length (m.push evt)).map Machine.pop

/-- Fires, and reads the fired object afterwards. -/
def fireAny (ctx : StageContext σ) (cell : Nat) (m : Machine σ) :
    Fired → Option (Event × Machine σ)
  | .received =>
      (ctx.fireTyped cell m).bind fun m => m.cells[cell]?.map fun held => (held, m)
  | .value evt =>
      (ctx.fireTyped m.cells.length (m.push evt)).bind fun m =>
        m.cells.getLast?.map fun held => (held, m.pop)
  | .variant evt =>
      (ctx.fire m.cells.length (m.push evt)).bind fun m =>
        m.cells.getLast?.map fun held => (held, m.pop)

end StageContext

/-- Runs a handler on the event in `cell`. -/
def Body.run (ctx : StageContext σ) (cell : Nat) :
    Body σ k → Machine σ → Option (Machine σ)
  | .done state evt, m => some (m.write cell ⟨k, evt⟩ state)
  | .fire state evt fired resume, m =>
      (ctx.fireAny cell (m.write cell ⟨k, evt⟩ state) fired).bind fun result =>
        (result.2.read k cell).bind fun own =>
          (resume result.2.state own result.1).run ctx cell result.2

/-- `StageAdapter::onInboundEvent` and `onOutboundEvent`: the handler for the alternative that
the event holds, or the event itself to the next stage. -/
def onEvent (handlers : Handlers σ) (ctx : StageContext σ) (cell : Nat) (m : Machine σ) :
    Option (Machine σ) :=
  match m.cells[cell]? with
  | none => none
  | some evt =>
      match handlers evt.kind with
      | none => ctx.fire cell m
      | some handler =>
          (handler ctx.index m.state evt.value).run ctx cell
            { m with log := m.log ++ [⟨ctx.index, evt⟩] }

def fireInboundFrom (stages : List (Stage σ)) (idx cell : Nat) (m : Machine σ) :
    Option (Machine σ) :=
  if h : idx < stages.length then
    let fireInbound := fun cell m => fireInboundFrom stages (idx + 1) cell m
    onEvent stages[idx].onInbound ⟨idx, fireInbound⟩ cell m
  else
    some m
termination_by stages.length - idx

def fireOutboundFrom (stages : List (Stage σ)) (idx cell : Nat) (m : Machine σ) :
    Option (Machine σ) :=
  if h : idx < stages.length then
    let fireOutbound := fun cell m =>
      if 0 < idx then fireOutboundFrom stages (idx - 1) cell m else some m
    onEvent stages[idx].onOutbound ⟨idx, fireOutbound⟩ cell m
  else
    some m
termination_by idx

def fireInbound (stages : List (Stage σ)) (evt : Event) (m : Machine σ) : Option (Machine σ) :=
  if stages.isEmpty then
    some m
  else
    (fireInboundFrom stages 0 m.cells.length (m.push evt)).map Machine.pop

def fireOutbound (stages : List (Stage σ)) (evt : Event) (m : Machine σ) : Option (Machine σ) :=
  if stages.isEmpty then
    some m
  else
    (fireOutboundFrom stages (stages.length - 1) m.cells.length (m.push evt)).map Machine.pop

namespace StageContext

/-- The context that stage `i` gets with an inbound event. -/
def inbound (stages : List (Stage σ)) (i : Nat) : StageContext σ :=
  ⟨i, fun cell m => fireInboundFrom stages (i + 1) cell m⟩

def outbound (stages : List (Stage σ)) (i : Nat) : StageContext σ :=
  ⟨i, fun cell m => if 0 < i then fireOutboundFrom stages (i - 1) cell m else some m⟩

end StageContext

theorem fireInboundFrom_eq (stages : List (Stage σ)) (idx cell : Nat) (m : Machine σ)
    (inside : idx < stages.length) :
    fireInboundFrom stages idx cell m =
      onEvent stages[idx].onInbound (.inbound stages idx) cell m := by
  rw [fireInboundFrom, dif_pos inside]
  rfl

theorem fireInboundFrom_end (stages : List (Stage σ)) (idx cell : Nat) (m : Machine σ)
    (outside : stages.length ≤ idx) : fireInboundFrom stages idx cell m = some m := by
  rw [fireInboundFrom, dif_neg (Nat.not_lt.mpr outside)]

theorem fireOutboundFrom_eq (stages : List (Stage σ)) (idx cell : Nat) (m : Machine σ)
    (inside : idx < stages.length) :
    fireOutboundFrom stages idx cell m =
      onEvent stages[idx].onOutbound (.outbound stages idx) cell m := by
  rw [fireOutboundFrom, dif_pos inside]
  rfl

end Conveyor

end Getrafty
