import Mathlib
import Getrafty.EventLoopSteps

set_option autoImplicit false

namespace Getrafty

variable {κ : Type}

namespace LoopState

/-- Between `event_.clear()` and the `tryPop` that finds the queue empty. -/
def Draining (s : LoopState κ) : Prop :=
  s.phase = .draining ∨ ∃ task, s.phase = .inTask task

/-- A task in the queue will be found: the eventfd is readable, the loop is draining, or
a thread that pushed is about to signal. -/
def Noticed (s : LoopState κ) : Prop :=
  s.queue ≠ [] → 0 < s.counter ∨ s.Draining ∨ ∃ thread, s.signalling thread = true

theorem Step.noticed {s next : LoopState κ} {label : Label κ} (taken : Step s label next)
    (noticed : s.Noticed) : next.Noticed := by
  cases taken with
  | @push thread caller call task some ready room =>
      exact fun _ => Or.inr (Or.inr ⟨thread, Function.update_self ..⟩)
  | signal pushed => exact fun _ => Or.inl (Nat.succ_pos _)
  | clear phase => exact fun _ => Or.inr (Or.inl (Or.inl rfl))
  | runUser phase more => exact fun _ => Or.inr (Or.inl (Or.inr ⟨_, rfl⟩))
  | run phase more own => exact fun _ => Or.inr (Or.inl (Or.inl phase))
  | drained phase empty => exact fun waiting => absurd empty waiting
  | finishTask phase => exact fun _ => Or.inr (Or.inl (Or.inl rfl))
  | _ => simp_all [Noticed, Draining]

variable [DecidableEq κ]

/-- No wakeup is lost, and the queue executes what was pushed, each task once and in the
order of the pushes. -/
theorem no_lost_wakeup {eventfd : Nat} {labels : List (Label κ)} {s : LoopState κ}
    (run : Run eventfd labels s) :
    (s.queue ≠ [] → 0 < s.counter ∨ s.Draining ∨ ∃ thread, s.signalling thread = true) ∧
      Label.pushes labels = Label.pops labels ++ s.queue := by
  refine ⟨run.invariant Noticed ?_ ?_, Run.queue_eq run⟩
  · exact fun waiting => absurd rfl waiting
  · exact fun s label next noticed taken => (step_cases taken).noticed noticed

/-- A second task is pushed between the clear and the pop, a third one is never signalled. -/
theorem no_lost_wakeup_pushed_while_draining :
    Label.pushes (κ := Nat) [.submit 1 0 (.watch 7 .RDONLY 0) true, .signal 1, .enter,
        .ready [⟨5, 1⟩], .take, .invoke 5 .RDONLY .wakeup, .clear,
        .submit 2 0 (.unwatch 7 .RDONLY) true, .run (.handleWatch 7 .RDONLY 0),
        .run (.handleUnwatch 7 .RDONLY), .submit 3 0 .unwatchAll true] =
      [.handleWatch 7 .RDONLY 0, .handleUnwatch 7 .RDONLY] ++ [.handleUnwatchAll] :=
  (no_lost_wakeup (Run.of_isSome 5
      [.submit 1 0 (.watch 7 .RDONLY 0) true, .signal 1, .enter,
        .ready [⟨5, 1⟩], .take, .invoke 5 .RDONLY .wakeup, .clear,
        .submit 2 0 (.unwatch 7 .RDONLY) true, .run (.handleWatch 7 .RDONLY 0),
        .run (.handleUnwatch 7 .RDONLY), .submit 3 0 .unwatchAll true] (by decide))).2

end LoopState

namespace Task

/-- The task decides what is registered for this descriptor and flag. -/
def about (fd : Nat) (flag : WatchFlag) : Task κ → Bool
  | .handleWatch fd' flag' _ => fd = fd' && flag = flag'
  | .handleUnwatch fd' flag' => fd = fd' && flag = flag'
  | _ => false

theorem apply_of_not_about {task : Task κ} {fd : Nat} {flag : WatchFlag}
    (other : task.about fd flag = false) (registered : Registrations κ) :
    task.apply registered fd flag = registered fd flag := by
  cases task <;> simp_all [about, apply]

theorem apply_of_about {task : Task κ} {fd : Nat} {flag : WatchFlag}
    (this : task.about fd flag = true) (registered registered' : Registrations κ) :
    task.apply registered fd flag = task.apply registered' fd flag := by
  cases task <;> simp_all [about, apply]

end Task

/-- Only the tasks about a descriptor and flag matter for it. -/
theorem Registrations.after_filter (eventfd : Nat) (tasks : List (Task κ)) (fd : Nat)
    (flag : WatchFlag) :
    after eventfd tasks fd flag = after eventfd (tasks.filter (Task.about fd flag)) fd flag := by
  unfold after
  induction tasks using List.reverseRecOn with
  | nil => rfl
  | append_singleton tasks task ih =>
      rw [List.filter_append, List.foldl_append, List.foldl_append]
      cases this : task.about fd flag with
      | true =>
          simp only [List.filter_cons, this, ↓reduceIte, List.filter_nil, List.foldl_cons,
            List.foldl_nil]
          exact Task.apply_of_about this _ _
      | false =>
          simp only [List.filter_cons, this, Bool.false_eq_true, ↓reduceIte, List.filter_nil,
            List.foldl_cons, List.foldl_nil]
          rw [Task.apply_of_not_about this, ih]

namespace Label

/-- The task a call asked for, whether it was executed at once, queued or dropped. -/
def submitted : Label κ → Option (Task κ)
  | .submit _ _ call _ => call.task
  | .inline _ call => call.task
  | _ => none

/-- The tasks of all calls, in the order of the calls. -/
def submissions (labels : List (Label κ)) : List (Task κ) := labels.filterMap submitted

/-- The task of a call that found the queue full. -/
def dropped : Label κ → Option (Task κ)
  | .submit _ _ call false => call.task
  | _ => none

/-- The tasks pushed and not yet executed. -/
def pending (labels : List (Label κ)) : List (Task κ) :=
  (pushes labels).drop (pops labels).length

/-- No call about this descriptor and flag was executed inline while another one about
them was waiting in the queue. -/
def InOrder (labels : List (Label κ)) (fd : Nat) (flag : WatchFlag) : Prop :=
  ∀ front caller call back, labels = front ++ .inline caller call :: back →
    ∀ task ∈ call.task, task.about fd flag = true →
      ∀ waiting ∈ pending front, waiting.about fd flag = false

theorem submissions_snoc (labels : List (Label κ)) (label : Label κ) :
    submissions (labels ++ [label]) = submissions labels ++ label.submitted.toList := by
  rw [submissions, List.filterMap_append]
  cases found : label.submitted <;> simp [submissions, found]

theorem InOrder.init {labels : List (Label κ)} {label : Label κ} {fd : Nat} {flag : WatchFlag}
    (ordered : InOrder (labels ++ [label]) fd flag) : InOrder labels fd flag :=
  fun front caller call back cut => ordered front caller call (back ++ [label])
    (by rw [cut, List.append_assoc, List.cons_append])

end Label

namespace LoopState

/-- A step adds to the calls what it adds to the executed tasks and the queue. -/
theorem Step.submitted_cases {s next : LoopState κ} {label : Label κ} (taken : Step s label next)
    (kept : label.dropped = none) :
    (label.effect.toList ++ next.queue = s.queue ++ label.submitted.toList) ∨
      ∃ caller call, label = .inline caller call ∧ next.queue = s.queue := by
  cases taken with
  | nothing none => exact Or.inl (by simp [Label.effect, Label.submitted, none])
  | push some ready room => exact Or.inl (by simp [Label.effect, Label.submitted, some])
  | drop some full =>
      rw [Label.dropped, some] at kept
      cases kept
  | @ignore caller call user none => exact Or.inr ⟨caller, call, rfl, rfl⟩
  | @inline caller call task user some => exact Or.inr ⟨caller, call, rfl, rfl⟩
  | runUser phase more => exact Or.inl (by simp [Label.effect, Label.submitted, more])
  | run phase more own => exact Or.inl (by simp [Label.effect, Label.submitted, more])
  | _ => exact Or.inl (by simp [Label.effect, Label.submitted])

variable [DecidableEq κ]

theorem Run.pending_eq {eventfd : Nat} {labels : List (Label κ)} {s : LoopState κ}
    (run : Run eventfd labels s) : Label.pending labels = s.queue := by
  rw [Label.pending, Run.queue_eq run, List.drop_left]

/-- What was asked for was executed or is waiting. -/
theorem Run.submissions_perm {eventfd : Nat} {labels : List (Label κ)} {s : LoopState κ}
    (run : Run eventfd labels s) (kept : ∀ label ∈ labels, label.dropped = none) :
    (Label.effects labels ++ s.queue).Perm (Label.submissions labels) := by
  refine run.history (fun labels s => (∀ label ∈ labels, label.dropped = none) →
    (Label.effects labels ++ s.queue).Perm (Label.submissions labels)) (fun _ => .nil) ?_ kept
  intro labels s label next before taken kept
  have same := before (fun l member => kept l (List.mem_append_left _ member))
  have keeps := kept label (List.mem_append_right _ List.mem_cons_self)
  rw [Label.effects_snoc, Label.submissions_snoc, List.append_assoc]
  rcases (step_cases taken).submitted_cases keeps with moved | ⟨caller, call, rfl, queue⟩
  · rw [moved, ← List.append_assoc]
    exact same.append_right _
  · rw [queue]
    calc (Label.effects labels ++ (call.task.toList ++ s.queue)).Perm
          (Label.effects labels ++ (s.queue ++ call.task.toList)) :=
        (List.perm_append_comm).append_left _
      _ = (Label.effects labels ++ s.queue) ++ call.task.toList := (List.append_assoc ..).symm
      List.Perm _ (Label.submissions labels ++ call.task.toList) := same.append_right _

/-- About one descriptor and flag, what was asked for in order is executed in order. -/
theorem Run.submissions_filter {eventfd : Nat} {labels : List (Label κ)} {s : LoopState κ}
    (run : Run eventfd labels s) (kept : ∀ label ∈ labels, label.dropped = none) {fd : Nat}
    {flag : WatchFlag} (ordered : Label.InOrder labels fd flag) :
    (Label.effects labels ++ s.queue).filter (Task.about fd flag) =
      (Label.submissions labels).filter (Task.about fd flag) := by
  refine (run.history (fun labels s => Run eventfd labels s ∧
    ((∀ label ∈ labels, label.dropped = none) → Label.InOrder labels fd flag →
      (Label.effects labels ++ s.queue).filter (Task.about fd flag) =
        (Label.submissions labels).filter (Task.about fd flag))) ⟨.nil, fun _ _ => rfl⟩ ?_).2
    kept ordered
  rintro labels s label next ⟨before, same⟩ taken
  refine ⟨before.snoc taken, fun kept ordered => ?_⟩
  replace same := same (fun l member => kept l (List.mem_append_left _ member)) ordered.init
  have keeps := kept label (List.mem_append_right _ List.mem_cons_self)
  rw [Label.effects_snoc, Label.submissions_snoc, List.append_assoc]
  rcases (step_cases taken).submitted_cases keeps with moved | ⟨caller, call, rfl, queue⟩
  · rw [moved, ← List.append_assoc, List.filter_append, same, ← List.filter_append]
  · have waiting := ordered labels caller call [] rfl
    rw [Run.pending_eq before] at waiting
    have task : Label.effect (.inline caller call : Label κ) = call.task := rfl
    have asked : Label.submitted (.inline caller call : Label κ) = call.task := rfl
    rw [queue, task, asked]
    simp only [List.filter_append] at same ⊢
    cases found : call.task with
    | none => simpa using same
    | some task =>
        cases this : task.about fd flag with
        | false => simpa [this] using same
        | true =>
            -- nothing about them waits, so the inline call overtakes nothing
            have quiet : s.queue.filter (Task.about fd flag) = [] := by
              rw [List.filter_eq_nil_iff]
              intro pending member
              rw [waiting task (by rw [found]; rfl) this pending member]
              exact Bool.false_ne_true
            rw [quiet, List.append_nil] at same
            simp [this, quiet, same]

/-- Once the queue is drained and nothing was dropped, every call was executed exactly
once: calls from outside the loop in their order, calls on the loop thread at once. About
a descriptor and flag for which none of the latter overtook a call still waiting, the
table is the one that the calls in the order they were made lead to. -/
theorem drained_table {eventfd : Nat} {labels : List (Label κ)} {s : LoopState κ}
    (run : Run eventfd labels s) (kept : ∀ label ∈ labels, label.dropped = none)
    (drained : s.queue = []) :
    Label.pops labels = Label.pushes labels ∧
      (Label.effects labels).Perm (Label.submissions labels) ∧
      s.ew.registered = Registrations.after eventfd (Label.effects labels) ∧
      ∀ fd flag, Label.InOrder labels fd flag →
        s.ew.registered fd flag =
          Registrations.after eventfd (Label.submissions labels) fd flag := by
  have pushes := Run.queue_eq run
  have perm := Run.submissions_perm run kept
  rw [drained, List.append_nil] at pushes perm
  refine ⟨pushes.symm, perm, (Run.registered_eq run).2, fun fd flag ordered => ?_⟩
  have same := Run.submissions_filter run kept ordered
  rw [drained, List.append_nil] at same
  rw [(Run.registered_eq run).2, Registrations.after_filter, same, ← Registrations.after_filter]

/-- Another thread watches, the loop thread then unwatches inline: the table ends up with
the callback, although the `unwatch` was the later call. -/
theorem inline_unwatch_overtakes :
    ¬ ∀ (labels : List (Label Nat)) (s : LoopState Nat), Run 5 labels s → s.queue = [] →
      s.ew.registered = Registrations.after 5 (Label.submissions labels) := by
  intro applied
  have run := Run.of_isSome 5
      [.submit 1 9 (.runInEventWatcherLoop 9) true, .signal 1, .enter, .ready [⟨5, 1⟩], .take,
      .invoke 5 .RDONLY .wakeup, .clear, .run (.user 9), .submit 2 0 (.watch 7 .RDONLY 0) true,
      .signal 2, .inline 9 (.unwatch 7 .RDONLY), .finish, .run (.handleWatch 7 .RDONLY 0),
      .drained] (by decide)
  have same := congrFun (congrFun (applied _ _ run (by decide)) 7) .RDONLY
  rw [(Run.registered_eq run).2] at same
  revert same
  decide

/-- Two threads watch and unwatch, in this order. -/
theorem drained_table_two_threads :
    Label.pops (κ := Nat) [.submit 1 0 (.watch 7 .RDONLY 0) true, .signal 1,
        .submit 2 0 (.unwatch 7 .RDONLY) true, .enter, .ready [⟨5, 1⟩], .take,
        .invoke 5 .RDONLY .wakeup, .clear, .run (.handleWatch 7 .RDONLY 0),
        .run (.handleUnwatch 7 .RDONLY)] =
      [.handleWatch 7 .RDONLY 0, .handleUnwatch 7 .RDONLY] :=
  (drained_table (Run.of_isSome 5
      [.submit 1 0 (.watch 7 .RDONLY 0) true, .signal 1,
        .submit 2 0 (.unwatch 7 .RDONLY) true, .enter, .ready [⟨5, 1⟩], .take,
        .invoke 5 .RDONLY .wakeup, .clear, .run (.handleWatch 7 .RDONLY 0),
        .run (.handleUnwatch 7 .RDONLY)] (by decide)) (by decide) (by decide)).1

end LoopState

end Getrafty
