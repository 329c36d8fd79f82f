import Getrafty.EventLoop
import Getrafty.EventWatcherTable

set_option autoImplicit false

namespace Getrafty

open Transition (Exec Of)

variable {κ : Type}

namespace Label

/-- The task a step executes on the watcher. -/
def effect : Label κ → Option (Task κ)
  | .inline _ call => call.task
  | .run task => some task
  | _ => none

/-- The task a step puts into the queue. -/
def pushed : Label κ → Option (Task κ)
  | .submit _ _ call true => call.task
  | _ => none

/-- The task a step takes out of the queue. -/
def popped : Label κ → Option (Task κ)
  | .run task => some task
  | _ => none

def effects (labels : List (Label κ)) : List (Task κ) := labels.filterMap effect

def pushes (labels : List (Label κ)) : List (Task κ) := labels.filterMap pushed

def pops (labels : List (Label κ)) : List (Task κ) := labels.filterMap popped

theorem effects_snoc (labels : List (Label κ)) (label : Label κ) :
    effects (labels ++ [label]) = effects labels ++ label.effect.toList := by
  rw [effects, List.filterMap_append]
  cases found : label.effect <;> simp [effects, found]

theorem pushes_snoc (labels : List (Label κ)) (label : Label κ) :
    pushes (labels ++ [label]) = pushes labels ++ label.pushed.toList := by
  rw [pushes, List.filterMap_append]
  cases found : label.pushed <;> simp [pushes, found]

theorem pops_snoc (labels : List (Label κ)) (label : Label κ) :
    pops (labels ++ [label]) = pops labels ++ label.popped.toList := by
  rw [pops, List.filterMap_append]
  cases found : label.popped <;> simp [pops, found]

end Label

/-- The callbacks registered for each descriptor and flag. -/
abbrev Registrations (κ : Type) := Nat → WatchFlag → Option (WatchCallback κ)

/-- The latest `watch` or `unwatch` of a descriptor and flag decides. -/
def Task.apply : Task κ → Registrations κ → Registrations κ
  | .handleWatch fd flag callback, registered => fun fd' flag' =>
      if fd' = fd ∧ flag' = flag then some (.user callback) else registered fd' flag'
  | .handleUnwatch fd flag, registered => fun fd' flag' =>
      if fd' = fd ∧ flag' = flag then none else registered fd' flag'
  | .handleUnwatchAll, registered => registered
  | .user _, registered => registered

namespace Registrations

/-- The constructor watches its eventfd. -/
def initial (eventfd : Nat) : Registrations κ := fun fd flag =>
  if fd = eventfd ∧ flag = .RDONLY then some .wakeup else none

/-- What is registered once these tasks were executed one after the other. -/
def after (eventfd : Nat) (tasks : List (Task κ)) : Registrations κ :=
  tasks.foldl (fun registered task => task.apply registered) (initial eventfd)

theorem after_append (eventfd : Nat) (front back : List (Task κ)) :
    after eventfd (front ++ back) =
      back.foldl (fun registered task => task.apply registered) (after eventfd front) :=
  List.foldl_append

end Registrations

open EventWatcher (Tidy Consistent)

namespace Task

theorem perform_tidy (task : Task κ) {ew : EventWatcher κ} (tidy : ew.Tidy) :
    (task.perform ew).Tidy := by
  cases task with
  | handleWatch fd flag callback => exact tidy.handleWatch fd flag _
  | handleUnwatch fd flag => exact tidy.handleUnwatch fd flag
  | handleUnwatchAll => exact tidy.handleUnwatchAll
  | user task => exact tidy

/-- The watcher executes a task the way the registrations record it. -/
theorem registered_perform (task : Task κ) {ew : EventWatcher κ} (tidy : ew.Tidy) :
    (task.perform ew).registered = task.apply ew.registered := by
  funext fd flag
  cases task with
  | handleWatch fd' flag' callback => exact tidy.registered_handleWatch fd' fd flag' flag _
  | handleUnwatch fd' flag' => exact tidy.registered_handleUnwatch fd' fd flag' flag
  | handleUnwatchAll => exact ew.registered_handleUnwatchAll fd flag
  | user task => rfl

theorem perform_consistent {task : Task κ} (single : task ≠ .handleUnwatchAll)
    {ew : EventWatcher κ} (consistent : ew.Consistent) : (task.perform ew).Consistent := by
  cases task with
  | handleWatch fd flag callback => exact consistent.handleWatch fd flag _
  | handleUnwatch fd flag => exact consistent.handleUnwatch fd flag
  | handleUnwatchAll => exact absurd rfl single
  | user task => exact consistent

end Task

namespace LoopState

/-- What each step requires and what it leaves behind. -/
inductive Step (s : LoopState κ) : Label κ → LoopState κ → Prop
  | nothing {thread caller call} (none : call.task = none) :
      Step s (.submit thread caller call false) s
  | push {thread caller call task} (some : call.task = some task)
      (ready : s.signalling thread = false) (room : s.queue.length < kQLimit) :
      Step s (.submit thread caller call true)
        { s with
          queue := s.queue ++ [task]
          signalling := Function.update s.signalling thread true }
  | drop {thread caller call task} (some : call.task = some task)
      (full : kQLimit ≤ s.queue.length) : Step s (.submit thread caller call false) s
  | signal {thread} (pushed : s.signalling thread = true) :
      Step s (.signal thread)
        { s with
          counter := s.counter + 1
          signalling := Function.update s.signalling thread false }
  | ignore {caller call} (user : s.runsUserCode = true) (none : call.task = none) :
      Step s (.inline caller call) s
  | inline {caller call task} (user : s.runsUserCode = true) (some : call.task = some task) :
      Step s (.inline caller call) { s with ew := task.perform s.ew }
  | enter (phase : s.phase = .outside) :
      Step s .enter { s with phase := .polling, saved := s.current, current := true }
  | ready {events} (phase : s.phase = .polling) (few : events.length ≤ kMaxEvents) :
      Step s (.ready events) { s with phase := .dispatching, events }
  | failed (phase : s.phase = .polling) : Step s .failed { s with phase := .outside }
  | take {event events} (phase : s.phase = .dispatching) (checks : s.checks = [])
      (more : s.events = event :: events) :
      Step s .take
        { s with
          ew := { s.ew with fdMap := s.ew.fdMap.tryEmplace event.fd }
          events
          checks := event.checks }
  | skip {fd flag checks} (phase : s.phase = .dispatching) (more : s.checks = (fd, flag) :: checks)
      (unset : s.wants fd flag = false) : Step s .skip { s with checks }
  | wake {fd flag checks} (phase : s.phase = .dispatching) (more : s.checks = (fd, flag) :: checks)
      (set : s.wants fd flag = true) (slot : s.ew.registered fd flag = some .wakeup) :
      Step s (.invoke fd flag .wakeup) { s with phase := .waking, checks }
  | call {fd flag name checks} (phase : s.phase = .dispatching)
      (more : s.checks = (fd, flag) :: checks) (set : s.wants fd flag = true)
      (slot : s.ew.registered fd flag = some (.user name)) :
      Step s (.invoke fd flag (.user name)) { s with phase := .inCallback name, checks }
  | dereference {fd flag checks} (phase : s.phase = .dispatching)
      (more : s.checks = (fd, flag) :: checks) (set : s.wants fd flag = true)
      (slot : s.ew.registered fd flag = none) : Step s .dereference { s with phase := .undefined }
  | clear (phase : s.phase = .waking) : Step s .clear { s with phase := .draining, counter := 0 }
  | runUser {name queue} (phase : s.phase = .draining) (more : s.queue = .user name :: queue) :
      Step s (.run (.user name)) { s with queue, phase := .inTask name }
  | run {task queue} (phase : s.phase = .draining) (more : s.queue = task :: queue)
      (own : ∀ name, task ≠ .user name) :
      Step s (.run task) { s with queue, ew := task.perform s.ew }
  | drained (phase : s.phase = .draining) (empty : s.queue = []) :
      Step s .drained { s with phase := .dispatching }
  | finishCallback {name} (phase : s.phase = .inCallback name) :
      Step s .finish { s with phase := .dispatching }
  | finishTask {name} (phase : s.phase = .inTask name) :
      Step s .finish { s with phase := .draining }
  | leave (phase : s.phase = .dispatching) (checks : s.checks = []) (events : s.events = []) :
      Step s .leave { s with phase := .outside, current := s.saved }

/-- Tasks enter the queue at its end and leave it at its head. -/
theorem Step.queue_eq {s next : LoopState κ} {label : Label κ} (taken : Step s label next) :
    s.queue ++ label.pushed.toList = label.popped.toList ++ next.queue := by
  cases taken with
  | push some ready room => simp [Label.pushed, Label.popped, some]
  | run phase more own => simp [Label.pushed, Label.popped, more]
  | runUser phase more => simp [Label.pushed, Label.popped, more]
  | _ => simp [Label.pushed, Label.popped]

/-- Every step keeps the table tidy and changes the registrations by its effect only. -/
theorem Step.registered_eq {s next : LoopState κ} {label : Label κ} (taken : Step s label next)
    (tidy : s.ew.Tidy) :
    next.ew.Tidy ∧ next.ew.registered =
      label.effect.toList.foldl (fun registered task => task.apply registered) s.ew.registered := by
  cases taken with
  | ignore user none => exact ⟨tidy, by simp [Label.effect, none]⟩
  | @inline caller call task user some =>
      exact ⟨task.perform_tidy tidy, by simp [Label.effect, some, task.registered_perform tidy]⟩
  | take phase checks more => exact tidy.emplaced _
  | @run task queue phase more own => exact ⟨task.perform_tidy tidy, task.registered_perform tidy⟩
  | _ => exact ⟨tidy, rfl⟩

theorem Step.consistent {s next : LoopState κ} {label : Label κ} (taken : Step s label next)
    (single : label.effect ≠ some .handleUnwatchAll) (consistent : s.ew.Consistent) :
    next.ew.Consistent := by
  cases taken with
  | inline user some =>
      exact Task.perform_consistent (fun all => single (some.trans (congrArg _ all))) consistent
  | run phase more own =>
      exact Task.perform_consistent (fun all => single (congrArg _ all)) consistent
  | take phase checks more =>
      refine ⟨(consistent.tidy.emplaced _).1, fun other => ?_, consistent.legal⟩
      have kernel := consistent.kernel other
      simpa only [EventWatcher.Agrees, consistent.tidy.tryEmplace] using kernel
  | _ => exact consistent

variable [DecidableEq κ]

theorem step_cases {s next : LoopState κ} {label : Label κ} (taken : step s label = some next) :
    Step s label next := by
  cases label with
  | submit thread caller call pushed =>
      simp only [step, submit] at taken
      split at taken
      · cases taken
      · rename_i ready
        split at taken
        · rename_i none
          cases pushed <;> simp at taken
          subst taken
          exact .nothing none
        · rename_i task some
          split at taken
          · rename_i room
            cases pushed <;> simp at taken
            subst taken
            exact .push some (by simpa using ready) room
          · rename_i full
            cases pushed <;> simp at taken
            subst taken
            exact .drop some (by omega)
  | signal thread =>
      simp only [step] at taken
      split at taken <;> simp at taken
      rename_i pushed
      subst taken
      exact .signal pushed
  | inline caller call =>
      simp only [step, inline] at taken
      split at taken
      · rename_i user
        split at taken <;> simp at taken <;> subst taken
        · rename_i none
          exact .ignore user none
        · rename_i task some
          exact .inline user some
      · cases taken
  | enter =>
      simp only [step] at taken
      split at taken <;> simp at taken
      rename_i phase
      subst taken
      exact .enter phase
  | ready events =>
      simp only [step] at taken
      split at taken
      · rename_i phase
        split at taken <;> simp at taken
        rename_i few
        subst taken
        exact .ready phase few
      · cases taken
  | failed =>
      simp only [step] at taken
      split at taken <;> simp at taken
      rename_i phase
      subst taken
      exact .failed phase
  | take =>
      simp only [step] at taken
      split at taken <;> simp at taken
      rename_i phase checks more
      subst taken
      exact .take phase checks more
  | skip =>
      simp only [step] at taken
      split at taken
      · rename_i phase more
        split at taken <;> simp at taken
        rename_i unset
        subst taken
        exact .skip phase more (by simpa using unset)
      · cases taken
  | invoke fd flag callback =>
      simp only [step, invoke] at taken
      split at taken
      · rename_i phase more
        split at taken
        · rename_i found
          obtain ⟨rfl, set, slot⟩ := found
          cases callback <;> simp at taken <;> subst taken
          · exact .wake phase more set slot
          · exact .call phase more set slot
        · cases taken
      · cases taken
  | dereference =>
      simp only [step] at taken
      split at taken
      · rename_i phase more
        split at taken <;> simp at taken
        rename_i found
        subst taken
        exact .dereference phase more found.1 found.2
      · cases taken
  | clear =>
      simp only [step] at taken
      split at taken <;> simp at taken
      rename_i phase
      subst taken
      exact .clear phase
  | run task =>
      simp only [step] at taken
      split at taken
      · rename_i phase more
        split at taken
        · rename_i same
          subst same
          split at taken <;> simp at taken <;> subst taken
          · exact .runUser phase more
          · rename_i own
            exact .run phase more own
        · cases taken
      · cases taken
  | drained =>
      simp only [step] at taken
      split at taken <;> simp at taken
      rename_i phase empty
      subst taken
      exact .drained phase empty
  | finish =>
      simp only [step] at taken
      split at taken <;> simp at taken <;> rename_i phase <;> subst taken
      · exact .finishCallback phase
      · exact .finishTask phase
  | leave =>
      simp only [step] at taken
      split at taken <;> simp at taken
      rename_i phase checks events
      subst taken
      exact .leave phase checks events

theorem Run.of_isSome (eventfd : Nat) (labels : List (Label κ))
    (runs : (Transition.run step (init eventfd) labels).isSome = true) :
    Run eventfd labels ((Transition.run step (init eventfd) labels).get runs) :=
  Transition.exec_of_isSome runs

/-- In every run the table holds what the executed tasks registered. -/
theorem Run.registered_eq {eventfd : Nat} {labels : List (Label κ)} {s : LoopState κ}
    (run : Run eventfd labels s) :
    s.ew.Tidy ∧ s.ew.registered = Registrations.after eventfd (Label.effects labels) := by
  refine run.history (fun labels s => s.ew.Tidy ∧
    s.ew.registered = Registrations.after eventfd (Label.effects labels)) ?_ ?_
  · refine ⟨(EventWatcher.create_consistent eventfd).tidy, ?_⟩
    funext fd flag
    exact EventWatcher.registered_create eventfd fd flag
  · rintro labels s label next ⟨tidy, same⟩ taken
    obtain ⟨tidy', same'⟩ := (step_cases taken).registered_eq tidy
    rw [Label.effects_snoc, Registrations.after_append, ← same]
    exact ⟨tidy', same'⟩

/-- In every run the tasks executed from the queue and those still in it are the tasks
pushed, in order. -/
theorem Run.queue_eq {eventfd : Nat} {labels : List (Label κ)} {s : LoopState κ}
    (run : Run eventfd labels s) : Label.pushes labels = Label.pops labels ++ s.queue := by
  refine run.history (fun labels s => Label.pushes labels = Label.pops labels ++ s.queue) rfl ?_
  intro labels s label next same taken
  rw [Label.pushes_snoc, Label.pops_snoc, same, List.append_assoc, List.append_assoc,
    (step_cases taken).queue_eq]

end LoopState

end Getrafty
