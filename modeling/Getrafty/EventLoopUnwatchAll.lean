import Getrafty.EventLoopSteps

set_option autoImplicit false

namespace Getrafty

open Transition (Exec Of Guarded)

variable {κ : Type}

namespace EventWatcher

/-- The kernel has no interest in a descriptor without bits. -/
def Covered (ew : EventWatcher κ) : Prop :=
  ∀ fd, (ew.fdMap.entry fd).bitmask = 0 → ew.interest fd = none

theorem Consistent.covered {ew : EventWatcher κ} (consistent : ew.Consistent) : ew.Covered :=
  fun fd zero => (consistent.kernel fd).trans (if_pos zero)

theorem interest_epollCtl_ne (ew : EventWatcher κ) (op : EpollOp) {fd other : Nat}
    (apart : other ≠ fd) (mask : BitVec 32) :
    (ew.epollCtl op fd mask).interest other = ew.interest other := by
  unfold epollCtl
  split
  · exact Function.update_of_ne apart _ _
  · rfl

theorem interest_epollCtl_of_illegal (ew : EventWatcher κ) {op : EpollOp} {fd : Nat}
    (illegal : ew.legal op fd = false) (mask : BitVec 32) :
    (ew.epollCtl op fd mask).interest = ew.interest := by
  simp only [epollCtl, illegal, Bool.false_eq_true, ↓reduceIte]

/-- A mode change concerns its own descriptor only. -/
theorem interest_handleWatch_ne (ew : EventWatcher κ) {fd other : Nat} (apart : other ≠ fd)
    (flag : WatchFlag) (callback : WatchCallback κ) :
    (ew.handleWatch fd flag callback).interest other = ew.interest other := by
  simp only [handleWatch, handleFdWatchModeChange]
  split
  · exact interest_epollCtl_ne _ _ apart _
  · rfl

theorem interest_handleUnwatch_ne (ew : EventWatcher κ) {fd other : Nat} (apart : other ≠ fd)
    (flag : WatchFlag) : (ew.handleUnwatch fd flag).interest other = ew.interest other := by
  simp only [handleUnwatch, handleFdWatchModeChange]
  split
  · exact interest_epollCtl_ne _ _ apart _
  · rfl

/-- A descriptor with bits is never added: its slot is full, or `MOD` fails. -/
theorem Tidy.interest_handleWatch_none {ew : EventWatcher κ} (tidy : ew.Tidy) {fd : Nat}
    (bits : (ew.fdMap.entry fd).bitmask ≠ 0) (absent : ew.interest fd = none) (flag : WatchFlag)
    (callback : WatchCallback κ) : (ew.handleWatch fd flag callback).interest fd = none := by
  simp only [EventWatcher.handleWatch, handleFdWatchModeChange, tidy.tryEmplace fd fd, bits,
    ↓reduceIte]
  split
  · rw [interest_epollCtl_of_illegal _ (by simp only [legal, absent, Option.isSome_none])]
    exact absent
  · exact absent

theorem Tidy.covered_handleWatch {ew : EventWatcher κ} (tidy : ew.Tidy) (covered : ew.Covered)
    (fd : Nat) (flag : WatchFlag) (callback : WatchCallback κ) :
    (ew.handleWatch fd flag callback).Covered := by
  intro other zero
  rw [tidy.entry_handleWatch] at zero
  by_cases same : other = fd
  · rw [if_pos same] at zero
    rw [tidy fd] at zero
    exact absurd zero (maskOf_or_ne_zero _ flag)
  · rw [if_neg same] at zero
    rw [interest_handleWatch_ne _ same]
    exact covered other zero

theorem Tidy.covered_handleUnwatch {ew : EventWatcher κ} (tidy : ew.Tidy) (covered : ew.Covered)
    (fd : Nat) (flag : WatchFlag) : (ew.handleUnwatch fd flag).Covered := by
  intro other zero
  rw [tidy.entry_handleUnwatch] at zero
  by_cases same : other = fd
  · subst same
    rw [if_pos rfl] at zero
    dsimp only at zero
    simp only [EventWatcher.handleUnwatch, handleFdWatchModeChange, tidy.tryEmplace other other,
      zero, ↓reduceIte, FdWatchMap.entry_assign]
    split
    · rw [epollCtl_interest, if_pos rfl]
    · rename_i vacant
      -- nothing was registered, so the mask was zero before
      rw [tidy other, maskOf_and_of_isNone _ _ (by simpa using vacant), ← tidy other] at zero
      exact covered other zero
  · rw [if_neg same] at zero
    rw [interest_handleUnwatch_ne _ same]
    exact covered other zero

theorem Covered.interest_handleUnwatchAll {ew : EventWatcher κ} (covered : ew.Covered) (fd : Nat) :
    ew.handleUnwatchAll.interest fd = none := by
  rw [ew.handleUnwatchAll_spec.2.2]
  split
  · rename_i zero
    exact covered fd zero
  · rfl

end EventWatcher

open EventWatcher (Tidy Covered)

theorem Task.perform_covered (task : Task κ) {ew : EventWatcher κ} (tidy : ew.Tidy)
    (covered : ew.Covered) : (task.perform ew).Covered := by
  cases task with
  | handleWatch fd flag callback => exact tidy.covered_handleWatch covered fd flag _
  | handleUnwatch fd flag => exact tidy.covered_handleUnwatch covered fd flag
  | handleUnwatchAll => exact fun fd _ => covered.interest_handleUnwatchAll fd
  | user task => exact covered

namespace LoopState

theorem Step.covered {s next : LoopState κ} {label : Label κ} (taken : Step s label next)
    (tidy : s.ew.Tidy) (covered : s.ew.Covered) : next.ew.Covered := by
  cases taken with
  | inline user some => exact Task.perform_covered _ tidy covered
  | run phase more own => exact Task.perform_covered _ tidy covered
  | take phase checks more =>
      intro other zero
      dsimp only at zero
      rw [tidy.tryEmplace] at zero
      exact covered other zero
  | _ => exact covered

/-- The kernel reports only descriptors it has an interest in. -/
def Reported (s : LoopState κ) : Label κ → Prop
  | .ready events => ∀ event ∈ events, s.ew.interest event.fd ≠ none
  | _ => True

variable [DecidableEq κ]

theorem Run.covered {eventfd : Nat} {labels : List (Label κ)} {s : LoopState κ}
    (run : Run eventfd labels s) : s.ew.Tidy ∧ s.ew.Covered := by
  refine run.invariant (fun s => s.ew.Tidy ∧ s.ew.Covered) ?_ ?_
  · have created := EventWatcher.create_consistent (κ := κ) eventfd
    exact ⟨created.tidy, created.covered⟩
  · rintro s label next ⟨tidy, covered⟩ taken
    have moved := step_cases taken
    exact ⟨(moved.registered_eq tidy).1, moved.covered tidy covered⟩

/-- What the users of a watcher may expect of the state behind `unwatchAll`. -/
structure Usable (eventfd : Nat) (s : LoopState κ) : Prop where
  /-- Only callbacks of users that were registered since are invoked. -/
  silent : ∀ labels last, Exec (Guarded Reported (Of step)) s labels last →
    ∀ front fd flag name back, labels = front ++ .invoke fd flag (.user name) :: back →
      Task.handleWatch fd flag name ∈ Label.effects front
  agrees : ∀ fd, s.ew.Agrees fd
  rewatch : ∀ fd flag callback, (s.ew.handleWatch fd flag callback).interest fd ≠ none
  /-- The kernel reports the eventfd once it was signalled. -/
  woken : ∃ mask, s.ew.interest eventfd = some mask ∧ mask &&& WatchFlag.bits .RDONLY ≠ 0

/-- `unwatchAll` leaves the kernel without any interest, that in the eventfd included, but
keeps bits and slots: a descriptor registered before is no longer in agreement, and no
later `watch` brings it back. -/
theorem not_usable_after_unwatchAll {eventfd : Nat} {labels : List (Label κ)} {s next : LoopState κ}
    (label : Label κ) (run : Run eventfd labels s) (taken : step s label = some next)
    (all : label.effect = some .handleUnwatchAll) :
    ¬ Usable eventfd next ∧ (∀ fd, next.ew.interest fd = none) ∧
      ∀ fd flag, (s.ew.registered fd flag).isSome = true →
        ¬ next.ew.Agrees fd ∧
          ∀ flag' callback, (next.ew.handleWatch fd flag' callback).interest fd = none := by
  obtain ⟨tidy, covered⟩ := Run.covered run
  have performed : next.ew = s.ew.handleUnwatchAll := by
    cases step_cases taken with
    | inline user some =>
        obtain rfl : _ = Task.handleUnwatchAll := Option.some.inj (some.symm.trans all)
        rfl
    | run phase more own =>
        obtain rfl : _ = Task.handleUnwatchAll := Option.some.inj all
        rfl
    | ignore user none => exact absurd (none.symm.trans all) (by simp)
    | _ => cases all
  have absent : ∀ fd, next.ew.interest fd = none := by
    rw [performed]
    exact covered.interest_handleUnwatchAll
  refine ⟨fun usable => ?_, absent, fun fd flag engaged => ?_⟩
  · obtain ⟨mask, present, -⟩ := usable.woken
    rw [absent] at present
    cases present
  · have tidyNext : next.ew.Tidy := by
      rw [performed]
      exact tidy.handleUnwatchAll
    have bits : (next.ew.fdMap.entry fd).bitmask ≠ 0 := by
      rw [performed, s.ew.handleUnwatchAll_spec.1, tidy fd]
      intro zero
      rw [EventWatcher.registered, (maskOf_eq_zero _).mp zero] at engaged
      cases engaged
    refine ⟨fun agrees => ?_, tidyNext.interest_handleWatch_none bits (absent fd)⟩
    have present := agrees.symm.trans (absent fd)
    rw [if_neg bits] at present
    cases present

theorem not_usable_after_unwatchAll_watched :
    ∃ s next : LoopState Nat, Run 5 [.submit 1 0 (.watch 7 .RDONLY 0) true, .signal 1,
        .submit 1 0 .unwatchAll true, .enter, .ready [⟨5, 1⟩], .take, .invoke 5 .RDONLY .wakeup,
        .clear, .run (.handleWatch 7 .RDONLY 0)] s ∧
      step s (.run .handleUnwatchAll) = some next ∧ ¬ Usable 5 next := by
  have run := Run.of_isSome 5
      [.submit 1 0 (.watch 7 .RDONLY 0) true, .signal 1, .submit 1 0 .unwatchAll true, .enter,
      .ready [⟨5, 1⟩], .take, .invoke 5 .RDONLY .wakeup, .clear,
      .run (.handleWatch 7 .RDONLY 0)] (by decide)
  refine ⟨_, _, run, rfl, ?_⟩
  exact (not_usable_after_unwatchAll (.run .handleUnwatchAll) run rfl rfl).1

/-- Another thread watches descriptor 7 and then unwatches everything: its bit stays, the
kernel's interest is gone. -/
theorem unwatchAll_not_usable :
    ¬ ∀ (labels : List (Label Nat)) (s next : LoopState Nat) (label : Label Nat), Run 5 labels s →
      step s label = some next → label.effect = some .handleUnwatchAll → Usable 5 next := by
  intro usable
  have run := Run.of_isSome 5
      [.submit 1 0 (.watch 7 .RDONLY 0) true, .signal 1, .submit 1 0 .unwatchAll true, .enter,
      .ready [⟨5, 1⟩], .take, .invoke 5 .RDONLY .wakeup, .clear,
      .run (.handleWatch 7 .RDONLY 0)] (by decide)
  have agrees := (usable _ _ _ (.run .handleUnwatchAll) run rfl rfl).agrees 7
  revert agrees
  unfold EventWatcher.Agrees
  decide

end LoopState

end Getrafty
