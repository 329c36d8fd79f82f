import Getrafty.EventWatcher
import Getrafty.Lib.Transition

set_option autoImplicit false

namespace Getrafty

def kQLimit : Nat := 1 <<< 10

def kMaxEvents : Nat := 1 <<< 6

/-- `EPOLLERR | EPOLLHUP | EPOLLRDHUP`. -/
def brokenMask : BitVec 32 := 0x008 ||| 0x010 ||| 0x2000

/-- An `epoll_event` that `epoll_impl_` filled in. -/
structure ReadyEvent where
  fd : Nat
  events : BitVec 32
  deriving DecidableEq, Repr

/-- The checks an event leads to, in order: both when the descriptor is broken. -/
def ReadyEvent.checks (event : ReadyEvent) : List (Nat × WatchFlag) :=
  if event.events &&& brokenMask ≠ 0 then
    [(event.fd, .RDONLY), (event.fd, .WRONLY)]
  else
    (if event.events &&& WatchFlag.bits .RDONLY ≠ 0 then [(event.fd, .RDONLY)] else []) ++
      (if event.events &&& WatchFlag.bits .WRONLY ≠ 0 then [(event.fd, .WRONLY)] else [])

/-- A call on the public interface. -/
inductive Call (κ : Type) where
  | watch (fd : Int) (flag : WatchFlag) (callback : κ)
  | unwatch (fd : Int) (flag : WatchFlag)
  | unwatchAll
  | runInEventWatcherLoop (task : κ)
  deriving DecidableEq

/-- What the calls pass to `runInEventWatcherLoop`. -/
inductive Task (κ : Type) where
  | handleWatch (fd : Nat) (flag : WatchFlag) (callback : κ)
  | handleUnwatch (fd : Nat) (flag : WatchFlag)
  | handleUnwatchAll
  | user (task : κ)
  deriving DecidableEq

variable {κ : Type}

/-- Nothing is submitted for a negative descriptor. -/
def Call.task : Call κ → Option (Task κ)
  | .watch fd flag callback => if fd < 0 then none else some (.handleWatch fd.toNat flag callback)
  | .unwatch fd flag => if fd < 0 then none else some (.handleUnwatch fd.toNat flag)
  | .unwatchAll => some .handleUnwatchAll
  | .runInEventWatcherLoop task => some (.user task)

/-- What a task itself does to the watcher; the calls a user's task makes are steps of
their own. -/
def Task.perform : Task κ → EventWatcher κ → EventWatcher κ
  | .handleWatch fd flag callback, ew => ew.handleWatch fd flag (.user callback)
  | .handleUnwatch fd flag, ew => ew.handleUnwatch fd flag
  | .handleUnwatchAll, ew => ew.handleUnwatchAll
  | .user _, ew => ew

/-- A call made on the loop thread itself. -/
def Call.inline (call : Call κ) (ew : EventWatcher κ) : EventWatcher κ :=
  match call.task with
  | none => ew
  | some task => task.perform ew

/-- Where the loop thread is. -/
inductive Phase (κ : Type) where
  | outside
  | polling
  | dispatching
  | waking
  | draining
  | inCallback (callback : κ)
  | inTask (task : κ)
  -- an empty `std::optional` was dereferenced
  | undefined
  deriving DecidableEq

/-- One watcher, its loop thread and the threads that submit to it. `current` says that
`self() == this` on the loop thread, `saved` what `loop()` will restore, and
`signalling` which threads are between their push and their signal. -/
structure LoopState (κ : Type) where
  ew : EventWatcher κ
  queue : List (Task κ) := []
  counter : Nat := 0
  signalling : Nat → Bool := fun _ => false
  current : Bool := false
  saved : Bool := false
  phase : Phase κ := .outside
  events : List ReadyEvent := []
  checks : List (Nat × WatchFlag) := []

/-- The steps. A call is tagged with the object that makes it, a call from elsewhere
also with its thread and with what `push` returned. -/
inductive Label (κ : Type) where
  | submit (thread : Nat) (caller : κ) (call : Call κ) (pushed : Bool)
  | signal (thread : Nat)
  | inline (caller : κ) (call : Call κ)
  | enter
  | ready (events : List ReadyEvent)
  | failed
  | take
  | skip
  | invoke (fd : Nat) (flag : WatchFlag) (callback : WatchCallback κ)
  | dereference
  | clear
  | run (task : Task κ)
  | drained
  | finish
  | leave
  deriving DecidableEq

namespace LoopState

def init (eventfd : Nat) : LoopState κ where
  ew := .create eventfd

/-- `(entry.bitmask_ & flag) != 0`. -/
def wants (s : LoopState κ) (fd : Nat) (flag : WatchFlag) : Bool :=
  (s.ew.fdMap.entry fd).bitmask &&& flag.bits ≠ 0

/-- User code runs on the loop thread, so its calls take the inline shortcut. -/
def runsUserCode (s : LoopState κ) : Bool :=
  s.current &&
    match s.phase with
    | .outside | .inCallback _ | .inTask _ => true
    | _ => false

/-- The call returns at once when it submits nothing or when the queue is full. -/
def submit (s : LoopState κ) (thread : Nat) (call : Call κ) (pushed : Bool) :
    Option (LoopState κ) :=
  if s.signalling thread then
    none
  else
    match call.task with
    | none => if pushed then none else some s
    | some task =>
        if s.queue.length < kQLimit then
          if pushed then
            some { s with
              queue := s.queue ++ [task]
              signalling := Function.update s.signalling thread true }
          else
            none
        else
          if pushed then none else some s

def inline (s : LoopState κ) (call : Call κ) : Option (LoopState κ) :=
  if s.runsUserCode then
    match call.task with
    | none => some s
    | some task => some { s with ew := task.perform s.ew }
  else
    none

/-- `if ((entry.bitmask_ & flag) != 0) handleCallback(*entry.cb_[...])`. -/
def invoke (s : LoopState κ) [DecidableEq κ] (fd : Nat) (flag : WatchFlag)
    (callback : WatchCallback κ) : Option (LoopState κ) :=
  match s.phase, s.checks with
  | .dispatching, check :: checks =>
      if check = (fd, flag) ∧ s.wants fd flag ∧ (s.ew.fdMap.entry fd).cb flag = some callback then
        match callback with
        | .wakeup => some { s with phase := .waking, checks }
        | .user name => some { s with phase := .inCallback name, checks }
      else
        none
  | _, _ => none

def step [DecidableEq κ] (s : LoopState κ) : Label κ → Option (LoopState κ)
  | .submit thread _ call pushed => s.submit thread call pushed
  | .signal thread =>
      if s.signalling thread then
        some { s with
          counter := s.counter + 1
          signalling := Function.update s.signalling thread false }
      else
        none
  | .inline _ call => s.inline call
  | .enter =>
      match s.phase with
      | .outside => some { s with phase := .polling, saved := s.current, current := true }
      | _ => none
  | .ready events =>
      match s.phase with
      | .polling =>
          if events.length ≤ kMaxEvents then some { s with phase := .dispatching, events } else none
      | _ => none
  -- this return leaves `curr_` as it is
  | .failed =>
      match s.phase with
      | .polling => some { s with phase := .outside }
      | _ => none
  | .take =>
      match s.phase, s.checks, s.events with
      | .dispatching, [], event :: events =>
          let ew := { s.ew with fdMap := s.ew.fdMap.tryEmplace event.fd }
          some { s with ew, events, checks := event.checks }
      | _, _, _ => none
  | .skip =>
      match s.phase, s.checks with
      | .dispatching, (fd, flag) :: checks =>
          if s.wants fd flag then none else some { s with checks }
      | _, _ => none
  | .invoke fd flag callback => s.invoke fd flag callback
  | .dereference =>
      match s.phase, s.checks with
      | .dispatching, (fd, flag) :: _ =>
          if s.wants fd flag ∧ (s.ew.fdMap.entry fd).cb flag = none then
            some { s with phase := .undefined }
          else
            none
      | _, _ => none
  | .clear =>
      match s.phase with
      | .waking => some { s with phase := .draining, counter := 0 }
      | _ => none
  | .run task =>
      match s.phase, s.queue with
      | .draining, first :: queue =>
          if first = task then
            match task with
            | .user name => some { s with queue, phase := .inTask name }
            | task => some { s with queue, ew := task.perform s.ew }
          else
            none
      | _, _ => none
  | .drained =>
      match s.phase, s.queue with
      | .draining, [] => some { s with phase := .dispatching }
      | _, _ => none
  | .finish =>
      match s.phase with
      | .inCallback _ => some { s with phase := .dispatching }
      | .inTask _ => some { s with phase := .draining }
      | _ => none
  | .leave =>
      match s.phase, s.checks, s.events with
      | .dispatching, [], [] => some { s with phase := .outside, current := s.saved }
      | _, _, _ => none

/-- A run of the watcher from its construction. -/
def Run [DecidableEq κ] (eventfd : Nat) (labels : List (Label κ)) (s : LoopState κ) : Prop :=
  Transition.Exec (Transition.Of step) (init eventfd) labels s

end LoopState

end Getrafty
