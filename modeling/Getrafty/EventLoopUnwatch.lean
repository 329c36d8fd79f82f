import Getrafty.EventLoopQueue
import Getrafty.TcpDialer

set_option autoImplicit false

namespace Getrafty

open Transition (Exec Of Guarded)

variable {κ : Type}

namespace Label

/-- The call a step makes, and the object that makes it. -/
def made : Label κ → Option (κ × Call κ)
  | .submit _ caller call _ => some (caller, call)
  | .inline caller call => some (caller, call)
  | _ => none

/-- The calls of one object, in order. -/
def callsBy [DecidableEq κ] (object : κ) (labels : List (Label κ)) : List (Call κ) :=
  labels.filterMap fun label => label.made.bind fun made =>
    if made.1 = object then some made.2 else none

/-- The last of these steps is where a call that asked for `task` returns: at once on the
loop thread or when the queue is full, else behind the signal. -/
inductive Returned (task : Task κ) : List (Label κ) → Prop
  | inline {before caller call} (asked : call.task = some task) :
      Returned task (before ++ [.inline caller call])
  | dropped {before thread caller call} (asked : call.task = some task) :
      Returned task (before ++ [.submit thread caller call false])
  | signalled {before thread caller call between} (asked : call.task = some task)
      (waiting : .signal thread ∉ between) :
      Returned task (before ++ .submit thread caller call true :: (between ++ [.signal thread]))

end Label

/-- The task registers something for this descriptor and flag. -/
def Task.watches (fd : Nat) (flag : WatchFlag) : Task κ → Bool
  | .handleWatch fd' flag' _ => fd = fd' && flag = flag'
  | _ => false

theorem Task.apply_eq_some {task : Task κ} {registered : Registrations κ} {fd : Nat}
    {flag : WatchFlag}
    {callback : WatchCallback κ} (found : task.apply registered fd flag = some callback) :
    (∃ name, callback = .user name ∧ task = .handleWatch fd flag name) ∨
      (registered fd flag = some callback ∧ task ≠ .handleUnwatch fd flag) := by
  cases task with
  | handleWatch fd' flag' name =>
      simp only [Task.apply] at found
      split at found
      · rename_i same
        obtain ⟨rfl, rfl⟩ := same
        exact Or.inl ⟨name, (Option.some.inj found).symm, rfl⟩
      · exact Or.inr ⟨found, by simp⟩
  | handleUnwatch fd' flag' =>
      simp only [Task.apply] at found
      split at found
      · cases found
      · rename_i apart
        refine Or.inr ⟨found, fun same => apart ?_⟩
        cases same
        exact ⟨rfl, rfl⟩
  | handleUnwatchAll => exact Or.inr ⟨found, by simp⟩
  | user task => exact Or.inr ⟨found, by simp⟩

namespace LoopState

/-- An `unwatch` takes effect before it returns, and stays in effect: it is made on the
loop thread while no `watch` it would have to undo is waiting in the queue. -/
def Prompt (s : LoopState κ) : Label κ → Bool
  | .submit _ _ call _ =>
      match call.task with
      | some (.handleUnwatch _ _) => false
      | _ => true
  | .inline _ call =>
      match call.task with
      | some (.handleUnwatch fd flag) => s.queue.all (fun task => !task.watches fd flag)
      | _ => true
  | _ => true

/-- A run in which every `unwatch` is prompt. -/
def PromptRun [DecidableEq κ] (eventfd : Nat) (labels : List (Label κ)) (s : LoopState κ) : Prop :=
  Exec (Guarded (fun s label => Prompt s label = true) (Of step)) (init eventfd) labels s

/-- Behind an `unwatch` that returned, a callback is only invoked for the descriptor and
flag if a `watch` called since names it. -/
def SilentAfterUnwatch (labels : List (Label κ)) : Prop :=
  ∀ fd flag front middle callback back,
    labels = front ++ (middle ++ .invoke fd flag callback :: back) →
      Label.Returned (.handleUnwatch fd flag) front →
        ∃ name, callback = .user name ∧
          .handleWatch fd flag name ∈ Label.submissions middle

/-- What is registered for a descriptor and flag, or waiting to be, stems from these calls. -/
structure FromCalls (calls : List (Task κ)) (fd : Nat) (flag : WatchFlag) (s : LoopState κ) :
    Prop where
  slot : ∀ callback, s.ew.registered fd flag = some callback →
    ∃ name, callback = .user name ∧ .handleWatch fd flag name ∈ calls
  queue : ∀ name, .handleWatch fd flag name ∈ s.queue → .handleWatch fd flag name ∈ calls

/-- Where the tasks of a step come from. -/
theorem Step.sources {s next : LoopState κ} {label : Label κ} (taken : Step s label next) :
    (∀ task ∈ label.effect, task ∈ s.queue ∨ label.submitted = some task) ∧
      ∀ task ∈ next.queue, task ∈ s.queue ∨ label.submitted = some task := by
  cases taken with
  | push some ready room =>
      refine ⟨by simp [Label.effect], fun task member => ?_⟩
      rcases List.mem_append.mp member with member | member
      · exact Or.inl member
      · exact Or.inr (by simp [Label.submitted, some, List.mem_singleton.mp member])
  | ignore user none => exact ⟨by simp [Label.effect, none], fun task member => Or.inl member⟩
  | inline user some =>
      exact ⟨by simp [Label.effect, Label.submitted, some], fun task member => Or.inl member⟩
  | runUser phase more =>
      refine ⟨by simp [Label.effect, more], fun task member => Or.inl ?_⟩
      rw [more]
      exact List.mem_cons_of_mem _ member
  | run phase more own =>
      refine ⟨by simp [Label.effect, more], fun task member => Or.inl ?_⟩
      rw [more]
      exact List.mem_cons_of_mem _ member
  | _ => exact ⟨by simp [Label.effect], fun task member => Or.inl member⟩

theorem Step.fromCalls {s next : LoopState κ} {label : Label κ} (taken : Step s label next)
    (tidy : s.ew.Tidy) {calls : List (Task κ)} {fd : Nat} {flag : WatchFlag}
    (known : FromCalls calls fd flag s) :
    FromCalls (calls ++ label.submitted.toList) fd flag next := by
  obtain ⟨executed, queued⟩ := taken.sources
  have same := (taken.registered_eq tidy).2
  refine ⟨fun callback found => ?_, fun name member => ?_⟩
  · rw [same] at found
    cases effect : label.effect with
    | none =>
        rw [effect] at found
        obtain ⟨name, rfl, member⟩ := known.slot callback found
        exact ⟨name, rfl, List.mem_append_left _ member⟩
    | some task =>
        rw [effect] at found
        rcases Task.apply_eq_some found with ⟨name, rfl, rfl⟩ | ⟨old, -⟩
        · refine ⟨name, rfl, ?_⟩
          rcases executed _ effect with waiting | asked
          · exact List.mem_append_left _ (known.queue name waiting)
          · exact List.mem_append_right _ (by simp [asked])
        · obtain ⟨name, rfl, member⟩ := known.slot callback old
          exact ⟨name, rfl, List.mem_append_left _ member⟩
  · rcases queued _ member with waiting | asked
    · exact List.mem_append_left _ (known.queue name waiting)
    · exact List.mem_append_right _ (by simp [asked])

/-- A prompt `unwatch` is executed at once and has nothing waiting to undo it. -/
theorem prompt_unwatch {s : LoopState κ} {label : Label κ} (prompt : s.Prompt label = true)
    {caller : κ} {call : Call κ} {fd : Nat} {flag : WatchFlag}
    (made : label.made = some (caller, call)) (asked : call.task = some (.handleUnwatch fd flag)) :
    label.effect = some (.handleUnwatch fd flag) ∧
      ∀ callback, .handleWatch fd flag callback ∉ s.queue := by
  cases label with
  | submit thread caller' call' pushed =>
      cases made
      simp [Prompt, asked] at prompt
  | inline caller' call' =>
      cases made
      refine ⟨asked, fun callback member => ?_⟩
      simp only [Prompt, asked, List.all_eq_true] at prompt
      have other := prompt _ member
      simp [Task.watches] at other
  | _ => cases made

/-- Right behind a prompt `unwatch` nothing is registered and nothing waits to be. -/
theorem Step.fromCalls_nil {s next : LoopState κ} {caller : κ} {call : Call κ} {fd : Nat}
    {flag : WatchFlag} (taken : Step s (.inline caller call) next) (tidy : s.ew.Tidy)
    (prompt : s.Prompt (.inline caller call) = true)
    (asked : call.task = some (.handleUnwatch fd flag)) : FromCalls [] fd flag next := by
  have same := (taken.registered_eq tidy).2
  obtain ⟨effect, quiet⟩ := prompt_unwatch prompt rfl asked
  refine ⟨fun callback found => ?_, fun name member => ?_⟩
  · simp only [same, effect, Option.toList_some, List.foldl_cons, List.foldl_nil] at found
    rcases Task.apply_eq_some found with ⟨name, -, wrong⟩ | ⟨-, wrong⟩
    · cases wrong
    · exact absurd rfl wrong
  · cases taken with
    | ignore user none => exact absurd (none.symm.trans asked) (by simp)
    | inline user some => exact absurd member (quiet name)

variable [DecidableEq κ]

theorem PromptRun.of_isSome (eventfd : Nat) (labels : List (Label κ))
    (runs : (Transition.run (Transition.guardedStep Prompt step) (init eventfd) labels).isSome =
      true) :
    PromptRun eventfd labels
      ((Transition.run (Transition.guardedStep Prompt step) (init eventfd) labels).get runs) :=
  (Transition.exec_of_isSome runs).mono Transition.guardedStep_of

theorem fromCalls_exec {start last : LoopState κ} {labels : List (Label κ)} {fd : Nat}
    {flag : WatchFlag} (run : Exec (Of step) start labels last) (tidy : start.ew.Tidy)
    (silent : FromCalls [] fd flag start) :
    last.ew.Tidy ∧ FromCalls (Label.submissions labels) fd flag last := by
  refine run.history (fun labels s => s.ew.Tidy ∧ FromCalls (Label.submissions labels) fd flag s)
    ⟨tidy, silent⟩ ?_
  rintro labels s label next ⟨tidy, known⟩ taken
  have moved := step_cases taken
  refine ⟨(moved.registered_eq tidy).1, ?_⟩
  rw [Label.submissions_snoc]
  exact moved.fromCalls tidy known

theorem silentAfterUnwatch_of_prompt {eventfd : Nat} {labels : List (Label κ)} {s : LoopState κ}
    (run : PromptRun eventfd labels s) : SilentAfterUnwatch labels := by
  rintro fd flag front middle callback back rfl returned
  obtain ⟨state, first, rest⟩ := run.split front _ rfl
  have tidy := (Run.registered_eq first.unguarded).1
  have silent : FromCalls [] fd flag state := by
    cases returned with
    | inline asked =>
        obtain ⟨before, next, prior, ⟨prompt, taken⟩, none⟩ := first.at
        rw [none.eq_start rfl]
        exact (step_cases taken).fromCalls_nil (Run.registered_eq prior.unguarded).1 prompt asked
    | dropped asked =>
        obtain ⟨before, next, prior, ⟨prompt, taken⟩, none⟩ := first.at
        have effect := (prompt_unwatch prompt rfl asked).1
        cases effect
    | signalled asked waiting =>
        obtain ⟨before, next, prior, ⟨prompt, taken⟩, none⟩ := first.at
        have effect := (prompt_unwatch prompt rfl asked).1
        cases effect
  obtain ⟨before, next, between, ⟨-, taken⟩, -⟩ := rest.at
  obtain ⟨-, known⟩ := fromCalls_exec between.unguarded tidy silent
  cases step_cases taken with
  | wake phase more set slot => exact known.slot _ slot
  | call phase more set slot => exact known.slot _ slot

end LoopState

/-- What the calls of one object leave registered. -/
def Registrations.left (calls : List (Call κ)) : Registrations κ :=
  (calls.filterMap Call.task).foldl (fun registered task => task.apply registered) (fun _ _ => none)

theorem Registrations.left_append (front back : List (Call κ)) :
    left (front ++ back) = (back.filterMap Call.task).foldl
      (fun registered task => task.apply registered) (left front) := by
  rw [left, List.filterMap_append, List.foldl_append]
  rfl

section Objects

variable [DecidableEq κ]

/-- The object registers nothing but its own callback, which nobody else does. -/
def Owns (object : κ) (labels : List (Label κ)) : Prop :=
  ∀ label ∈ labels, ∀ caller call, label.made = some (caller, call) →
    ∀ fd flag name, call.task = some (.handleWatch fd flag name) → (caller = object ↔ name = object)

/-- A `watch` registers its caller's own callback. -/
def Label.namesCaller : Label κ → Bool
  | .submit _ caller (.watch _ _ name) _ | .inline caller (.watch _ _ name) => caller = name
  | _ => true

theorem owns_of_namesCaller {labels : List (Label κ)}
    (named : labels.all Label.namesCaller = true) (object : κ) : Owns object labels := by
  intro label among caller call made fd flag name asked
  have own := List.all_eq_true.mp named label among
  suffices caller = name by rw [this]
  cases call with
  | watch fd' flag' name' =>
      rw [Call.task] at asked
      split at asked
      · cases asked
      · obtain ⟨-, -, rfl⟩ := Task.handleWatch.inj (Option.some.inj asked)
        cases label <;> cases made <;> exact of_decide_eq_true own
  | unwatch fd' flag' =>
      rw [Call.task] at asked
      split at asked <;> cases asked
  | _ => cases asked

theorem Label.callsBy_snoc (object : κ) (labels : List (Label κ)) (label : Label κ) :
    callsBy object (labels ++ [label]) =
      callsBy object labels ++ (label.made.bind fun made =>
        if made.1 = object then some made.2 else none).toList := by
  rw [callsBy, List.filterMap_append]
  cases found : (label.made.bind fun made =>
    if made.1 = object then some made.2 else none) <;> simp [callsBy, found]

/-- If an object's callback is registered or waiting to be, then its own calls so far
leave it registered. -/
def Accounted (object : κ) (labels : List (Label κ)) (s : LoopState κ) : Prop :=
  ∀ fd flag, (s.ew.registered fd flag = some (.user object) ∨
      .handleWatch fd flag object ∈ s.queue) →
    Registrations.left (Label.callsBy object labels) fd flag = some (.user object)

/-- A call keeps what the object's calls leave registered, unless it is the object's own
`unwatch`, and its own `watch` puts it there. -/
theorem left_snoc {object : κ} {labels : List (Label κ)} {label : Label κ}
    (owns : Owns object (labels ++ [label])) {fd : Nat} {flag : WatchFlag}
    (kept : label.submitted = some (.handleWatch fd flag object) ∨
      Registrations.left (Label.callsBy object labels) fd flag = some (.user object) ∧
        ∀ call, label.made = some (object, call) → call.task ≠ some (.handleUnwatch fd flag)) :
    Registrations.left (Label.callsBy object (labels ++ [label])) fd flag =
      some (.user object) := by
  have own := owns label (List.mem_append_right _ List.mem_cons_self)
  rw [Label.callsBy_snoc]
  cases made : label.made with
  | none =>
      have nothing : label.submitted = none := by
        cases label <;> first | rfl | cases made
      rcases kept with asked | ⟨before, -⟩
      · rw [nothing] at asked
        cases asked
      · simpa using before
  | some pair =>
      obtain ⟨caller, call⟩ := pair
      have submitted : label.submitted = call.task := by
        cases label <;> cases made <;> rfl
      rw [submitted] at kept
      simp only [Option.bind_some]
      by_cases self : caller = object
      · subst self
        rw [if_pos rfl, Option.toList_some, Registrations.left_append]
        cases task : call.task with
        | none =>
            rw [task] at kept
            rcases kept with asked | ⟨before, -⟩
            · cases asked
            · simpa [task] using before
        | some t =>
            simp only [List.filterMap_cons, task, List.filterMap_nil, List.foldl_cons,
              List.foldl_nil]
            rw [task] at kept
            rcases kept with asked | ⟨before, other⟩
            · obtain rfl := Option.some.inj asked
              simp only [Task.apply, and_self, ↓reduceIte]
            · have apart := other call made
              rw [task] at apart
              cases t with
              | handleWatch fd' flag' name =>
                  obtain rfl := (own caller call made fd' flag' name task).mp rfl
                  simp only [Task.apply]
                  split
                  · rfl
                  · exact before
              | handleUnwatch fd' flag' =>
                  simp only [Task.apply]
                  rw [if_neg]
                  · exact before
                  · rintro ⟨rfl, rfl⟩
                    exact apart rfl
              | handleUnwatchAll => exact before
              | user task => exact before
      · rw [if_neg self, Option.toList_none, List.append_nil]
        rcases kept with asked | ⟨before, -⟩
        · exact absurd ((own caller call made fd flag object asked).mpr rfl) self
        · exact before

open LoopState (step_cases Step Prompt PromptRun prompt_unwatch init)

theorem Accounted.step {object : κ} {labels : List (Label κ)} {s next : LoopState κ}
    {label : Label κ} (accounted : Accounted object labels s)
    (owns : Owns object (labels ++ [label])) (tidy : s.ew.Tidy) (prompt : s.Prompt label = true)
    (taken : Step s label next) : Accounted object (labels ++ [label]) next := by
  obtain ⟨executed, queued⟩ := taken.sources
  have same := (taken.registered_eq tidy).2
  intro fd flag present
  refine left_snoc owns ?_
  rcases present with found | member
  · rw [same] at found
    cases effect : label.effect with
    | none =>
        rw [effect] at found
        refine Or.inr ⟨accounted fd flag (Or.inl found), fun call made asked => ?_⟩
        have executes := (prompt_unwatch prompt made asked).1
        rw [effect] at executes
        cases executes
    | some task =>
        simp only [effect, Option.toList_some, List.foldl_cons, List.foldl_nil] at found
        rcases Task.apply_eq_some found with ⟨name, callback, rfl⟩ | ⟨old, other⟩
        · cases callback
          rcases executed _ effect with waiting | asked
          · refine Or.inr ⟨accounted fd flag (Or.inr waiting), fun call made asked => ?_⟩
            exact (prompt_unwatch prompt made asked).2 _ waiting
          · exact Or.inl asked
        · refine Or.inr ⟨accounted fd flag (Or.inl old), fun call made asked => other ?_⟩
          exact Option.some.inj (effect.symm.trans (prompt_unwatch prompt made asked).1)
  · rcases queued _ member with waiting | asked
    · refine Or.inr ⟨accounted fd flag (Or.inr waiting), fun call made asked => ?_⟩
      exact (prompt_unwatch prompt made asked).2 _ waiting
    · exact Or.inl asked

theorem accounted_exec {eventfd : Nat} {object : κ} {labels : List (Label κ)} {s : LoopState κ}
    (run : PromptRun eventfd labels s)
    (owns : Owns object labels) : Accounted object labels s := by
  refine (run.history (fun labels s => s.ew.Tidy ∧ (Owns object labels → Accounted object labels s))
    ?_ ?_).2 owns
  · refine ⟨(EventWatcher.create_consistent eventfd).tidy, fun _ fd flag present => ?_⟩
    rcases present with found | member
    · simp only [init, EventWatcher.registered_create] at found
      split at found <;> cases found
    · cases member
  · rintro labels s label next ⟨tidy, accounted⟩ ⟨prompt, taken⟩
    have moved := step_cases taken
    refine ⟨(moved.registered_eq tidy).1, fun owns => ?_⟩
    have before : Owns object labels := fun l member => owns l (List.mem_append_left _ member)
    exact (accounted before).step owns tidy prompt moved

/-- An object is gone when its own calls leave nothing registered and no more of them
come: its callback is not invoked again. -/
theorem object_silent {eventfd : Nat} {object : κ} {front back : List (Label κ)} {s : LoopState κ}
    (run : PromptRun eventfd (front ++ back) s)
    (owns : Owns object (front ++ back))
    (released : Registrations.left (Label.callsBy object front) = fun _ _ => none)
    (gone : Label.callsBy object back = []) (fd : Nat) (flag : WatchFlag) :
    .invoke fd flag (.user object) ∉ back := by
  intro member
  obtain ⟨middle, rest, rfl⟩ := List.append_of_mem member
  rw [← List.append_assoc] at run
  obtain ⟨before, next, prior, ⟨-, taken⟩, -⟩ := run.at
  have accounted := accounted_exec prior (fun l inside => owns l (by
    rw [← List.append_assoc]
    exact List.mem_append_left _ inside))
  have slot : before.ew.registered fd flag = some (.user object) := by
    cases step_cases taken with
    | call phase more set slot => exact slot
  have left := accounted fd flag (Or.inl slot)
  have silent : Label.callsBy object (front ++ middle) = Label.callsBy object front := by
    simp only [Label.callsBy, List.filterMap_append, List.append_eq_nil_iff] at gone ⊢
    rw [gone.1, List.append_nil]
  rw [silent, released] at left
  cases left

end Objects

section Lives

/-- The calls of a transport on its watcher: any on its own descriptor, and at last those
of `~AbstractEventLoopTransport()`. -/
def TransportLife (fd : Int) (self : κ) (calls : List (Call κ)) : Prop :=
  ∃ uses, calls = uses ++ [.unwatch fd .RDONLY, .unwatch fd .WRONLY] ∧
    ∀ call ∈ uses, ∃ flag, call = .watch fd flag self ∨ call = .unwatch fd flag

/-- Calls on one descriptor leave nothing registered elsewhere. -/
theorem left_elsewhere {fd : Int} {self : κ} {uses : List (Call κ)}
    (own : ∀ call ∈ uses, ∃ flag, call = .watch fd flag self ∨ call = .unwatch fd flag)
    {other : Nat} (apart : 0 ≤ fd → other ≠ fd.toNat) (flag : WatchFlag) :
    Registrations.left uses other flag = none := by
  induction uses using List.reverseRecOn with
  | nil => rfl
  | append_singleton uses call ih =>
      have before := ih (fun c member => own c (List.mem_append_left _ member))
      rw [Registrations.left_append]
      by_cases negative : fd < 0
      · obtain ⟨flag', rfl | rfl⟩ := own call (by simp) <;> simpa [Call.task, negative] using before
      · have elsewhere := apart (by omega)
        obtain ⟨flag', rfl | rfl⟩ := own call (by simp) <;>
          simpa [Call.task, negative, Task.apply, elsewhere] using before

theorem TransportLife.released {fd : Int} {self : κ} {calls : List (Call κ)}
    (life : TransportLife fd self calls) : Registrations.left calls = fun _ _ => none := by
  obtain ⟨uses, rfl, own⟩ := life
  funext other flag
  rw [Registrations.left_append]
  by_cases negative : fd < 0
  · simpa [Call.task, negative] using left_elsewhere own (fun valid => by omega) flag
  · by_cases same : other = fd.toNat
    · cases flag <;> simp [Call.task, negative, Task.apply, same]
    · have elsewhere := left_elsewhere own (fun _ => same) flag
      simpa [Call.task, negative, Task.apply, same] using elsewhere

/-- Executes the calls among what a dialer does. -/
def Registrations.dialed (registered : Registrations κ) (actions : List (DialerAction κ)) :
    Registrations κ :=
  ((DialerAction.calls actions).filterMap Call.task).foldl
    (fun registered task => task.apply registered) registered

theorem dialed_append (registered : Registrations κ) (front back : List (DialerAction κ)) :
    registered.dialed (front ++ back) = (registered.dialed front).dialed back := by
  simp only [Registrations.dialed, DialerAction.calls, List.filterMap_append, List.foldl_append]

/-- At any time a dialer has at most the descriptor of its attempt registered. -/
def DialerOwns (d : TcpDialer) (registered : Registrations κ) : Prop :=
  ∀ fd flag, registered fd flag ≠ none → d.fd_ = (fd : Int) ∧ flag = .WRONLY

theorem DialerOwns.none_of_idle {d : TcpDialer} {registered : Registrations κ}
    (own : DialerOwns d registered) (idle : d.fd_ < 0) : registered = fun _ _ => none := by
  funext fd flag
  refine Classical.not_not.mp fun present => ?_
  have valid := (own fd flag present).1
  omega

theorem DialerOwns.unwatch {d : TcpDialer} {registered : Registrations κ}
    (own : DialerOwns d registered) :
    registered.dialed [.call (.unwatch d.fd_ .WRONLY)] = fun _ _ => none := by
  by_cases idle : d.fd_ < 0
  · rw [own.none_of_idle idle]
    simp [Registrations.dialed, DialerAction.calls, Call.task, idle]
  · funext fd flag
    simp only [Registrations.dialed, DialerAction.calls, Call.task, List.filterMap_cons,
      List.filterMap_nil, idle, ↓reduceIte, List.foldl_cons, List.foldl_nil, Task.apply]
    split
    · rfl
    · rename_i apart
      refine Classical.not_not.mp fun present => apart ?_
      obtain ⟨valid, rfl⟩ := own fd flag present
      exact ⟨by omega, rfl⟩

theorem DialerOwns.idle : DialerOwns { fd_ := -1 } (fun _ _ => (none : Option (WatchCallback κ))) :=
  fun _ _ present => absurd rfl present

theorem DialerOwns.onWritable {d : TcpDialer} {registered : Registrations κ}
    (own : DialerOwns d registered) (error : Int) :
    registered.dialed (d.onWritable error).2 = fun _ _ => none := by
  have first : (d.onWritable error).2 =
      ([.call (.unwatch d.fd_ .WRONLY)] : List (DialerAction κ)) ++
      if error ≠ 0 then [.close d.fd_, .failure error] else [.connected d.fd_] := rfl
  rw [first, dialed_append, own.unwatch]
  split <;> rfl

theorem DialerOwns.use {d : TcpDialer} {registered : Registrations κ}
    (own : DialerOwns d registered)
    (self : κ) {use : TcpDialer.Use} (once : ∀ outcome, use = .dial outcome → d.fd_ < 0) :
    DialerOwns (d.use self use).1 (registered.dialed (d.use self use).2) := by
  cases use with
  | onWritable error =>
      have nothing := own.onWritable error
      simp only [TcpDialer.use, nothing]
      exact DialerOwns.idle
  | dial outcome =>
      have nothing := own.none_of_idle (once outcome rfl)
      subst nothing
      cases outcome with
      | unparsable => exact own
      | connected fd error =>
          have fresh : DialerOwns { fd_ := fd } (fun _ _ => (none : Option (WatchCallback κ))) :=
            fun _ _ present => absurd rfl present
          have nothing := fresh.onWritable error
          simp only [TcpDialer.use, TcpDialer.dial, nothing]
          exact DialerOwns.idle
      | inProgress fd =>
          intro other flag present
          have valid : ¬ ((fd : Int) < 0) := by omega
          simp only [TcpDialer.use, TcpDialer.dial, Registrations.dialed, DialerAction.calls,
            List.filterMap_cons, Call.task, List.filterMap_nil, valid, ↓reduceIte, List.foldl_cons,
            List.foldl_nil, Task.apply] at present ⊢
          split at present
          · rename_i same
            exact ⟨by omega, same.2⟩
          · exact absurd rfl present
      | _ => exact DialerOwns.idle

/-- A dialer that dials only once at a time leaves nothing registered behind. -/
theorem dialer_released (self : κ) (uses : List TcpDialer.Use) (d : TcpDialer)
    (once : d.DialsOnce self uses) (registered : Registrations κ) (own : DialerOwns d registered) :
    registered.dialed (d.life self uses) = fun _ _ => none := by
  induction uses generalizing d registered with
  | nil =>
      simp only [TcpDialer.life, TcpDialer.destroy]
      split
      · rename_i valid
        have parts : ([.call (.unwatch d.fd_ .WRONLY), .close d.fd_] : List (DialerAction κ)) =
            [.call (.unwatch d.fd_ .WRONLY)] ++ [.close d.fd_] := rfl
        rw [parts, dialed_append, own.unwatch]
        rfl
      · rename_i idle
        exact own.none_of_idle (by omega)
  | cons first uses ih =>
      rw [TcpDialer.life, dialed_append]
      exact ih _ once.2 _ (own.use self once.1)

/-- An object of one of the two kinds made these calls, those of its destructor last. -/
def ObjectLife (self : κ) (calls : List (Call κ)) : Prop :=
  (∃ fd, TransportLife fd self calls) ∨
    ∃ uses, TcpDialer.DialsOnce {} self uses ∧
      calls = DialerAction.calls (TcpDialer.life {} self uses)

theorem ObjectLife.released {self : κ} {calls : List (Call κ)} (life : ObjectLife self calls) :
    Registrations.left calls = fun _ _ => none := by
  rcases life with ⟨fd, life⟩ | ⟨uses, once, rfl⟩
  · exact life.released
  · exact dialer_released self uses {} once _ DialerOwns.idle

end Lives

namespace LoopState

variable [DecidableEq κ]

/-- If every `unwatch` is made on the loop thread while no `watch` of the same descriptor
and flag is waiting in the queue, then nothing that was unwatched is invoked again, and
neither is a callback of a transport or dialer whose destructor has returned. -/
theorem no_callback_after_unwatch {eventfd : Nat} {labels : List (Label κ)} {s : LoopState κ}
    (run : PromptRun eventfd labels s) :
    SilentAfterUnwatch labels ∧
      ∀ object front back, labels = front ++ back → Owns object labels →
        ObjectLife object (Label.callsBy object front) → Label.callsBy object back = [] →
          ∀ fd flag, .invoke fd flag (.user object) ∉ back := by
  refine ⟨silentAfterUnwatch_of_prompt run, ?_⟩
  rintro object front back rfl owns life gone
  exact object_silent run owns life.released gone

/-- The steps that bring a reader of descriptor 7 into its callback. -/
def reading : List (Label Nat) :=
  [.submit 1 0 (.watch 7 .RDONLY 0) true, .signal 1, .enter, .ready [⟨5, 1⟩], .take,
    .invoke 5 .RDONLY .wakeup, .clear, .run (.handleWatch 7 .RDONLY 0), .drained, .leave, .enter,
    .ready [⟨7, 1⟩, ⟨7, 1⟩], .take, .invoke 7 .RDONLY (.user 0)]

/-- The destructor of the reader runs in its callback. -/
def destroying : List (Label Nat) :=
  reading ++ [.inline 0 (.unwatch 7 .RDONLY), .inline 0 (.unwatch 7 .WRONLY)]

/-- The reader is destroyed in its own callback, and not invoked for the rest. -/
theorem no_callback_after_unwatch_by_reader :
    SilentAfterUnwatch (destroying ++ [.finish, .take, .skip]) ∧
      ∀ fd flag, .invoke fd flag (.user 0) ∉ ([.finish, .take, .skip] : List (Label Nat)) := by
  have run := PromptRun.of_isSome 5 (destroying ++ [.finish, .take, .skip]) (by decide +kernel)
  obtain ⟨silent, destroyed⟩ := no_callback_after_unwatch run
  have owns : Owns 0 (destroying ++ [.finish, .take, .skip]) :=
    owns_of_namesCaller (by decide +kernel) 0
  have made : Label.callsBy 0 destroying =
      [.watch 7 .RDONLY 0] ++ [.unwatch 7 .RDONLY, .unwatch 7 .WRONLY] := by decide +kernel
  have life : ObjectLife 0 (Label.callsBy 0 destroying) := by
    refine .inl ⟨7, [.watch 7 .RDONLY 0], made, fun call among => ?_⟩
    exact ⟨.RDONLY, .inl (List.mem_singleton.mp among)⟩
  exact ⟨silent, destroyed 0 destroying _ rfl owns life (by decide +kernel)⟩

/-- A callback dials twice, for descriptors 8 and 9, and destroys the dialer. -/
def dialing : List (Label Nat) :=
  reading ++ [.inline 1 (.watch 8 .WRONLY 1), .inline 1 (.watch 9 .WRONLY 1),
    .inline 1 (.unwatch 9 .WRONLY)]

/-- Then descriptor 8 gets writable. -/
def redialed : List (Label Nat) :=
  [.finish, .take, .invoke 7 .RDONLY (.user 0), .finish, .leave, .enter, .ready [⟨8, 4⟩], .take,
    .invoke 8 .WRONLY (.user 1)]

/-- Another thread unwatches descriptor 7; its call has returned, its task still waits, and
the callback is invoked. A dialer that dials again forgets the descriptor of its first attempt,
and its callback is invoked for it when the dialer is destroyed. -/
theorem callback_after_unwatch :
    (¬ ∀ (labels : List (Label Nat)) (s : LoopState Nat), Run 5 labels s →
      SilentAfterUnwatch labels) ∧
    ¬ ∀ (labels : List (Label Nat)) (s : LoopState Nat), PromptRun 5 labels s →
      ∀ object front back uses, labels = front ++ back → Owns object labels →
        Label.callsBy object front = DialerAction.calls (TcpDialer.life {} object uses) →
          Label.callsBy object back = [] → ∀ fd flag, .invoke fd flag (.user object) ∉ back := by
  constructor
  · intro silent
    have run := Run.of_isSome 5
      [.submit 1 0 (.watch 7 .RDONLY 0) true, .signal 1, .enter, .ready [⟨5, 1⟩], .take,
        .invoke 5 .RDONLY .wakeup, .clear, .run (.handleWatch 7 .RDONLY 0), .drained, .leave,
        .submit 2 0 (.unwatch 7 .RDONLY) true, .signal 2, .enter, .ready [⟨7, 1⟩, ⟨5, 1⟩], .take,
        .invoke 7 .RDONLY (.user 0)] (by decide +kernel)
    have returned : Label.Returned (.handleUnwatch 7 .RDONLY)
        ([.submit 1 0 (.watch 7 .RDONLY 0) true, .signal 1, .enter, .ready [⟨5, 1⟩], .take,
          .invoke 5 .RDONLY .wakeup, .clear, .run (.handleWatch 7 .RDONLY 0), .drained, .leave] ++
          .submit 2 0 (.unwatch 7 .RDONLY) true :: ([] ++ [.signal 2])) :=
      .signalled rfl List.not_mem_nil
    obtain ⟨name, -, called⟩ := silent _ _ run 7 .RDONLY _ [.enter, .ready [⟨7, 1⟩, ⟨5, 1⟩], .take]
      (.user 0) [] rfl returned
    cases called
  · intro silent
    have run := PromptRun.of_isSome 5 (dialing ++ redialed) (by decide +kernel)
    have owns : Owns 1 (dialing ++ redialed) := owns_of_namesCaller (by decide +kernel) 1
    have made : Label.callsBy 1 dialing = DialerAction.calls
        (TcpDialer.life {} 1 [.dial (.inProgress 8), .dial (.inProgress 9)]) := by decide +kernel
    have gone : Label.callsBy 1 redialed = [] := by decide +kernel
    exact silent _ _ run 1 dialing redialed _ rfl owns made gone 8 .WRONLY (by decide +kernel)

end LoopState

end Getrafty
