import Getrafty.EventLoopSteps

set_option autoImplicit false

namespace Getrafty

variable {κ : Type} [DecidableEq κ]

namespace LoopState

/-- The check before a call looks at the bit, so the slot behind it is never empty. -/
theorem Run.defined {eventfd : Nat} {labels : List (Label κ)} {s : LoopState κ}
    (run : Run eventfd labels s) : s.phase ≠ .undefined := by
  refine (run.invariant (fun s => s.ew.Tidy ∧ s.phase ≠ .undefined) ?_ ?_).2
  · exact ⟨(EventWatcher.create_consistent eventfd).tidy, by simp [init]⟩
  · rintro s label next ⟨tidy, defined⟩ taken
    have moved := step_cases taken
    refine ⟨(moved.registered_eq tidy).1, ?_⟩
    cases moved with
    | @dereference fd flag checks phase more set slot =>
        simp only [wants, tidy fd, maskOf_bit, decide_eq_true_eq] at set
        rw [EventWatcher.registered] at slot
        rw [slot] at set
        cases set
    | _ => simp_all

/-- As long as `unwatchAll` is not executed, the kernel knows what the table knows. -/
theorem Run.consistent {eventfd : Nat} {labels : List (Label κ)} {s : LoopState κ}
    (run : Run eventfd labels s) (single : .handleUnwatchAll ∉ Label.effects labels) :
    s.ew.Consistent := by
  refine run.history (fun labels s => .handleUnwatchAll ∉ Label.effects labels →
    s.ew.Consistent) (fun _ => EventWatcher.create_consistent eventfd) ?_ single
  intro labels s label next before taken single
  rw [Label.effects_snoc, List.mem_append, not_or] at single
  refine (step_cases taken).consistent (fun all => single.2 ?_) (before single.1)
  rw [all]
  exact List.mem_singleton.mpr rfl

/-- A callback is invoked only where it is the latest registration. -/
theorem Run.invoke_registered {eventfd : Nat} {front back : List (Label κ)} {fd : Nat}
    {flag : WatchFlag} {callback : WatchCallback κ} {s : LoopState κ}
    (run : Run eventfd (front ++ .invoke fd flag callback :: back) s) :
    Registrations.after eventfd (Label.effects front) fd flag = some callback := by
  obtain ⟨before, next, first, taken, -⟩ := run.at
  obtain ⟨-, same⟩ := Run.registered_eq first
  rw [← same]
  cases step_cases taken with
  | wake phase more set slot => exact slot
  | call phase more set slot => exact slot

/-- Slots, bits and the kernel's interest agree in every state of a run, and whatever
the callbacks of a batch do to the table, the loop calls what is registered then. -/
theorem dispatch_valid {eventfd : Nat} {labels : List (Label κ)} {s : LoopState κ}
    (run : Run eventfd labels s) (single : .handleUnwatchAll ∉ Label.effects labels) :
    (∀ fd flag, ((s.ew.fdMap.entry fd).cb flag).isSome = true ↔
        (s.ew.fdMap.entry fd).bitmask &&& flag.bits ≠ 0) ∧
      (∀ fd, s.ew.interest fd = if (s.ew.fdMap.entry fd).bitmask = 0 then none
        else some (s.ew.fdMap.entry fd).bitmask) ∧
      s.ew.refused = [] ∧ s.phase ≠ .undefined ∧
      ∀ front fd flag callback back, labels = front ++ .invoke fd flag callback :: back →
        Registrations.after eventfd (Label.effects front) fd flag = some callback := by
  have consistent := Run.consistent run single
  refine ⟨fun fd flag => ?_, consistent.kernel, consistent.legal, Run.defined run, ?_⟩
  · rw [consistent.tidy fd, maskOf_bit]
  · rintro front fd flag callback back rfl
    exact Run.invoke_registered run

/-- The reader of descriptor 7 unwatches the writer while the batch holds both. -/
theorem dispatch_valid_unwatched_writer :
    Registrations.after 5 (Label.effects (κ := Nat)
      [.enter, .ready [⟨5, 1⟩], .submit 1 0 (.watch 7 .RDONLY 0) true,
        .submit 2 0 (.watch 7 .WRONLY 1) true, .signal 1, .take, .invoke 5 .RDONLY .wakeup, .clear,
        .run (.handleWatch 7 .RDONLY 0), .run (.handleWatch 7 .WRONLY 1), .drained, .leave, .enter,
        .ready [⟨7, 5⟩], .take]) 7 .RDONLY = some (.user 0) :=
  (dispatch_valid (Run.of_isSome 5
      [.enter, .ready [⟨5, 1⟩], .submit 1 0 (.watch 7 .RDONLY 0) true,
        .submit 2 0 (.watch 7 .WRONLY 1) true, .signal 1, .take, .invoke 5 .RDONLY .wakeup, .clear,
        .run (.handleWatch 7 .RDONLY 0), .run (.handleWatch 7 .WRONLY 1), .drained, .leave, .enter,
        .ready [⟨7, 5⟩], .take, .invoke 7 .RDONLY (.user 0), .inline 0 (.unwatch 7 .WRONLY),
        .finish, .skip] (by decide)) (by decide)).2.2.2.2 _ 7 .RDONLY (.user 0)
          [.inline 0 (.unwatch 7 .WRONLY), .finish, .skip] rfl

end LoopState

end Getrafty
