import Getrafty.EventWatcher
import Getrafty.Lib.Transition

set_option autoImplicit false

namespace Getrafty

open Transition (Exec Of Guarded)

def EPOLLIN : BitVec 32 := 0x001

def EPOLLOUT : BitVec 32 := 0x004

/-- The watcher that keeps its callbacks in one map, together with the kernel's side of
`epoll_fd_`. -/
structure MapEventWatcher (κ : Type) where
  read_end_ : Int
  write_end_ : Int
  callbacks_ : AList (fun _ : Int × WatchFlag => κ) := ∅
  interest : Int → Option (BitVec 32) := fun _ => none

variable {κ : Type}

namespace MapEventWatcher

/-- Succeeds when it is legal, and has no effect otherwise. -/
def epoll_ctl (w : MapEventWatcher κ) (op : EpollOp) (fd : Int) (events : BitVec 32) :
    MapEventWatcher κ :=
  match op, w.interest fd with
  | .EPOLL_CTL_ADD, none => { w with interest := Function.update w.interest fd (some events) }
  | .EPOLL_CTL_MOD, some _ => { w with interest := Function.update w.interest fd (some events) }
  | .EPOLL_CTL_DEL, some _ => { w with interest := Function.update w.interest fd none }
  | _, _ => w

/-- The constructor adds the end of the pipe that wakes the loop up. -/
def create (read_end_ write_end_ : Int) : MapEventWatcher κ :=
  ({ read_end_, write_end_ } : MapEventWatcher κ).epoll_ctl .EPOLL_CTL_ADD read_end_ EPOLLIN

/-- The task of `watch`. -/
def watch (w : MapEventWatcher κ) (fd : Int) (flag : WatchFlag) (callback : κ) :
    MapEventWatcher κ :=
  let inserted := (fd, flag) ∉ w.callbacks_
  let w := { w with callbacks_ := w.callbacks_.insert (fd, flag) callback }
  if ¬ inserted then
    w
  else
    let (events, fd_in_epoll) := match flag with
      | .RDONLY =>
          if (fd, WatchFlag.WRONLY) ∈ w.callbacks_ then (EPOLLIN ||| EPOLLOUT, true)
          else (EPOLLIN, false)
      | .WRONLY =>
          if (fd, WatchFlag.RDONLY) ∈ w.callbacks_ then (EPOLLOUT ||| EPOLLIN, true)
          else (EPOLLOUT, false)
    w.epoll_ctl (if fd_in_epoll then .EPOLL_CTL_MOD else .EPOLL_CTL_ADD) fd events

/-- The task of `unwatch`. -/
def unwatch (w : MapEventWatcher κ) (fd : Int) (flag : WatchFlag) : MapEventWatcher κ :=
  let w := { w with callbacks_ := w.callbacks_.erase (fd, flag) }
  let (events, fd_in_epoll) : BitVec 32 × Bool := match flag with
    | .RDONLY => if (fd, WatchFlag.WRONLY) ∈ w.callbacks_ then (EPOLLOUT, true) else (0, false)
    | .WRONLY => if (fd, WatchFlag.RDONLY) ∈ w.callbacks_ then (EPOLLIN, true) else (0, false)
  w.epoll_ctl (if fd_in_epoll then .EPOLL_CTL_MOD else .EPOLL_CTL_DEL) fd events

/-- The loop of `unwatchAll`, which erases as it goes on. -/
def unwatchAllLoop (w : MapEventWatcher κ) :
    List ((_ : Int × WatchFlag) × κ) → MapEventWatcher κ
  | [] => w
  | ⟨(fd, flag), _⟩ :: rest =>
      if fd ≠ w.read_end_ ∧ fd ≠ w.write_end_ then
        let w := w.epoll_ctl .EPOLL_CTL_DEL fd 0
        { w with callbacks_ := w.callbacks_.erase (fd, flag) }.unwatchAllLoop rest
      else
        w.unwatchAllLoop rest

/-- The task of `unwatchAll`. -/
def unwatchAll (w : MapEventWatcher κ) : MapEventWatcher κ :=
  w.unwatchAllLoop w.callbacks_.entries

/-- The tasks that are submitted to the loop. -/
inductive Task (κ : Type) where
  | watch (fd : Int) (flag : WatchFlag) (callback : κ)
  | unwatch (fd : Int) (flag : WatchFlag)
  | unwatchAll

def step (w : MapEventWatcher κ) : Task κ → Option (MapEventWatcher κ)
  | .watch fd flag callback => some (w.watch fd flag callback)
  | .unwatch fd flag => some (w.unwatch fd flag)
  | .unwatchAll => some w.unwatchAll

/-- The task is not about the pipe. -/
def Apart (w : MapEventWatcher κ) : Task κ → Prop
  | .watch fd _ _ => fd ≠ w.read_end_ ∧ fd ≠ w.write_end_
  | .unwatch fd _ => fd ≠ w.read_end_ ∧ fd ≠ w.write_end_
  | .unwatchAll => True

instance (w : MapEventWatcher κ) : DecidablePred w.Apart :=
  fun task => match task with
    | .watch _ _ _ => inferInstanceAs (Decidable (_ ∧ _))
    | .unwatch _ _ => inferInstanceAs (Decidable (_ ∧ _))
    | .unwatchAll => isTrue trivial

def Run (read_end_ write_end_ : Int) (tasks : List (Task κ)) (w : MapEventWatcher κ) : Prop :=
  Exec (Guarded Apart (Of step)) (create read_end_ write_end_) tasks w

section Mirror

variable {w : MapEventWatcher κ} {fd : Int} {flag : WatchFlag} {callback : κ}

/-- The events to wait for, where there is a callback for some of them. -/
def wanted (reader writer : Prop) [Decidable reader] [Decidable writer] : Option (BitVec 32) :=
  if reader then
    if writer then some (EPOLLIN ||| EPOLLOUT) else some EPOLLIN
  else
    if writer then some EPOLLOUT else none

/-- The kernel waits for the events that have callbacks, and for the pipe. -/
structure Mirrors (w : MapEventWatcher κ) : Prop where
  mirror : ∀ fd, fd ≠ w.read_end_ → fd ≠ w.write_end_ →
    w.interest fd = wanted ((fd, WatchFlag.RDONLY) ∈ w.callbacks_)
      ((fd, WatchFlag.WRONLY) ∈ w.callbacks_)
  apart : ∀ key, key ∈ w.callbacks_ → key.1 ≠ w.read_end_ ∧ key.1 ≠ w.write_end_
  pipe : w.interest w.read_end_ = some EPOLLIN

theorem events_comm : EPOLLOUT ||| EPOLLIN = EPOLLIN ||| EPOLLOUT := BitVec.or_comm _ _

theorem watch_eq (before : w.interest fd = wanted ((fd, WatchFlag.RDONLY) ∈ w.callbacks_)
      ((fd, WatchFlag.WRONLY) ∈ w.callbacks_)) :
    w.watch fd flag callback = { w with
      callbacks_ := w.callbacks_.insert (fd, flag) callback
      interest := Function.update w.interest fd
        (wanted ((fd, WatchFlag.RDONLY) ∈ w.callbacks_.insert (fd, flag) callback)
          ((fd, WatchFlag.WRONLY) ∈ w.callbacks_.insert (fd, flag) callback)) } := by
  have kept := Function.update_eq_self fd w.interest
  rw [before] at kept
  cases flag with
  | RDONLY =>
      by_cases reader : (fd, WatchFlag.RDONLY) ∈ w.callbacks_ <;>
        by_cases writer : (fd, WatchFlag.WRONLY) ∈ w.callbacks_ <;>
        simp_all [watch, epoll_ctl, wanted]
  | WRONLY =>
      by_cases reader : (fd, WatchFlag.RDONLY) ∈ w.callbacks_ <;>
        by_cases writer : (fd, WatchFlag.WRONLY) ∈ w.callbacks_ <;>
        simp_all [watch, epoll_ctl, wanted, events_comm]

theorem unwatch_eq (before : w.interest fd = wanted ((fd, WatchFlag.RDONLY) ∈ w.callbacks_)
      ((fd, WatchFlag.WRONLY) ∈ w.callbacks_)) :
    w.unwatch fd flag = { w with
      callbacks_ := w.callbacks_.erase (fd, flag)
      interest := Function.update w.interest fd
        (wanted ((fd, WatchFlag.RDONLY) ∈ w.callbacks_.erase (fd, flag))
          ((fd, WatchFlag.WRONLY) ∈ w.callbacks_.erase (fd, flag))) } := by
  have kept := Function.update_eq_self fd w.interest
  rw [before] at kept
  cases flag with
  | RDONLY =>
      by_cases reader : (fd, WatchFlag.RDONLY) ∈ w.callbacks_ <;>
        by_cases writer : (fd, WatchFlag.WRONLY) ∈ w.callbacks_ <;>
        simp_all [unwatch, epoll_ctl, wanted]
  | WRONLY =>
      by_cases reader : (fd, WatchFlag.RDONLY) ∈ w.callbacks_ <;>
        by_cases writer : (fd, WatchFlag.WRONLY) ∈ w.callbacks_ <;>
        simp_all [unwatch, epoll_ctl, wanted]

/-- The table and the interest are changed together, for one descriptor. -/
theorem Mirrors.changed (mirrors : w.Mirrors) (other : fd ≠ w.read_end_ ∧ fd ≠ w.write_end_)
    {callbacks : AList fun _ : Int × WatchFlag => κ}
    (keys : ∀ key, key.1 ≠ fd → (key ∈ callbacks ↔ key ∈ w.callbacks_)) :
    Mirrors { w with
      callbacks_ := callbacks
      interest := Function.update w.interest fd
        (wanted ((fd, WatchFlag.RDONLY) ∈ callbacks) ((fd, WatchFlag.WRONLY) ∈ callbacks)) } := by
  constructor
  case mirror =>
    intro fd' not_read not_write
    dsimp only
    by_cases here : fd' = fd
    · rw [here, Function.update_self]
    · rw [Function.update_of_ne here, mirrors.mirror fd' not_read not_write]
      simp only [keys (fd', _) here]
  case apart =>
    intro key inside
    by_cases here : key.1 = fd
    · rw [here]
      exact other
    · exact mirrors.apart key ((keys key here).mp inside)
  case pipe =>
    dsimp only
    rw [Function.update_of_ne (Ne.symm other.1)]
    exact mirrors.pipe

theorem Mirrors.watch (mirrors : w.Mirrors) (other : fd ≠ w.read_end_ ∧ fd ≠ w.write_end_) :
    (w.watch fd flag callback).Mirrors := by
  rw [watch_eq (mirrors.mirror fd other.1 other.2)]
  apply mirrors.changed other
  intro key elsewhere
  rw [AList.mem_insert, or_iff_right]
  exact fun same => elsewhere (congrArg Prod.fst same)

theorem Mirrors.unwatch (mirrors : w.Mirrors) (other : fd ≠ w.read_end_ ∧ fd ≠ w.write_end_) :
    (w.unwatch fd flag).Mirrors := by
  rw [unwatch_eq (mirrors.mirror fd other.1 other.2)]
  apply mirrors.changed other
  intro key elsewhere
  rw [AList.mem_erase, and_iff_right]
  exact fun same => elsewhere (congrArg Prod.fst same)

theorem del_interest (fd' : Int) : (w.epoll_ctl .EPOLL_CTL_DEL fd 0).interest fd' =
    if fd' = fd then none else w.interest fd' := by
  unfold epoll_ctl
  cases held : w.interest fd with
  | none =>
      by_cases here : fd' = fd
      · rw [if_pos here, here]
        exact held
      · rw [if_neg here]
  | some events =>
      by_cases here : fd' = fd
      · rw [if_pos here, here]
        exact Function.update_self ..
      · rw [if_neg here]
        exact Function.update_of_ne here ..

theorem del_rest : (w.epoll_ctl .EPOLL_CTL_DEL fd 0).callbacks_ = w.callbacks_ ∧
    (w.epoll_ctl .EPOLL_CTL_DEL fd 0).read_end_ = w.read_end_ ∧
    (w.epoll_ctl .EPOLL_CTL_DEL fd 0).write_end_ = w.write_end_ := by
  unfold epoll_ctl
  cases w.interest fd with
  | none => exact ⟨rfl, rfl, rfl⟩
  | some events => exact ⟨rfl, rfl, rfl⟩

/-- What the loop of `unwatchAll` has done when it comes to its end. -/
structure Cleared (w after : MapEventWatcher κ) (entries : List ((_ : Int × WatchFlag) × κ)) :
    Prop where
  ends : after.read_end_ = w.read_end_ ∧ after.write_end_ = w.write_end_
  interest : ∀ fd, after.interest fd =
    if fd ∈ entries.map (fun entry => entry.1.1) then none else w.interest fd
  callbacks : ∀ key, key ∈ after.callbacks_ ↔ key ∈ w.callbacks_ ∧ key ∉ entries.map Sigma.fst

theorem unwatchAllLoop_cleared (entries : List ((_ : Int × WatchFlag) × κ))
    (apart : ∀ entry ∈ entries, entry.1.1 ≠ w.read_end_ ∧ entry.1.1 ≠ w.write_end_) :
    w.Cleared (w.unwatchAllLoop entries) entries := by
  induction entries generalizing w with
  | nil => exact ⟨⟨rfl, rfl⟩, fun _ => rfl, fun key => by simp [unwatchAllLoop]⟩
  | cons entry entries ih =>
      obtain ⟨⟨fd, flag⟩, callback⟩ := entry
      have here := apart _ List.mem_cons_self
      obtain ⟨same_callbacks, same_read, same_write⟩ := @del_rest κ w fd
      rw [unwatchAllLoop, if_pos here]
      dsimp only
      have rest := @ih { (w.epoll_ctl .EPOLL_CTL_DEL fd 0) with
        callbacks_ := (w.epoll_ctl .EPOLL_CTL_DEL fd 0).callbacks_.erase (fd, flag) } (by
          intro other inside
          dsimp only
          rw [same_read, same_write]
          exact apart other (List.mem_cons_of_mem _ inside))
      constructor
      case ends => exact ⟨rest.ends.1.trans same_read, rest.ends.2.trans same_write⟩
      case interest =>
        intro fd'
        rw [rest.interest]
        dsimp only
        rw [del_interest, List.map_cons]
        by_cases first : fd' = fd
        · rw [if_pos first, ite_self, if_pos (first ▸ List.mem_cons_self)]
        · simp only [List.mem_cons, first, false_or, if_false]
      case callbacks =>
        intro key
        rw [rest.callbacks]
        dsimp only
        rw [AList.mem_erase, same_callbacks, List.map_cons, List.mem_cons, not_or]
        tauto

theorem Mirrors.unwatchAll_cleared (mirrors : w.Mirrors) :
    w.Cleared w.unwatchAll w.callbacks_.entries :=
  unwatchAllLoop_cleared _ fun entry inside => mirrors.apart entry.1 (List.mem_map_of_mem inside)

theorem Mirrors.unwatchAll_empty (mirrors : w.Mirrors) (key : Int × WatchFlag) :
    key ∉ w.unwatchAll.callbacks_ := by
  rw [mirrors.unwatchAll_cleared.callbacks]
  exact fun both => both.2 (AList.mem_keys.mp both.1)

theorem Mirrors.unwatchAll (mirrors : w.Mirrors) : w.unwatchAll.Mirrors := by
  have cleared := mirrors.unwatchAll_cleared
  have empty := mirrors.unwatchAll_empty
  constructor
  case mirror =>
    intro fd not_read not_write
    rw [cleared.ends.1] at not_read
    rw [cleared.ends.2] at not_write
    rw [cleared.interest]
    simp only [empty, wanted, if_false]
    by_cases listed : fd ∈ w.callbacks_.entries.map fun entry => entry.1.1
    · rw [if_pos listed]
    · have unlisted : ∀ flag, (fd, flag) ∉ w.callbacks_ := by
        intro flag inside
        obtain ⟨entry, held, same⟩ := List.mem_map.mp (AList.mem_keys.mp inside)
        exact listed (List.mem_map.mpr ⟨entry, held, congrArg Prod.fst same⟩)
      rw [if_neg listed, mirrors.mirror fd not_read not_write]
      simp only [unlisted, wanted, if_false]
  case apart => exact fun key inside => absurd inside (empty key)
  case pipe =>
    have unlisted : w.read_end_ ∉ w.callbacks_.entries.map fun entry => entry.1.1 := by
      intro listed
      obtain ⟨entry, inside, same⟩ := List.mem_map.mp listed
      exact (mirrors.apart entry.1 (List.mem_map_of_mem inside)).1 same
    rw [cleared.ends.1, cleared.interest, if_neg unlisted]
    exact mirrors.pipe

theorem mirrors_create (read_end_ write_end_ : Int) :
    (create read_end_ write_end_ : MapEventWatcher κ).Mirrors := by
  constructor
  case mirror =>
    intro fd not_read not_write
    exact Function.update_of_ne not_read ..
  case apart => exact fun key inside => absurd inside (AList.notMem_empty key)
  case pipe => exact Function.update_self ..

end Mirror

section Runs

variable {w : MapEventWatcher κ} {read_end_ write_end_ : Int} {tasks : List (Task κ)}

/-- The callback of a key after a task. -/
def Task.registers (key : Int × WatchFlag) (before : Option κ) : Task κ → Option κ
  | .watch fd flag callback => if key = (fd, flag) then some callback else before
  | .unwatch fd flag => if key = (fd, flag) then none else before
  | .unwatchAll => none

/-- The callback of the last `watch` that nothing has undone. -/
def lastWatch (key : Int × WatchFlag) (tasks : List (Task κ)) : Option κ :=
  tasks.foldl (Task.registers key) none

/-- What holds after the tasks so far. -/
structure After (read_end_ write_end_ : Int) (tasks : List (Task κ)) (w : MapEventWatcher κ) :
    Prop where
  ends : w.read_end_ = read_end_ ∧ w.write_end_ = write_end_
  mirrors : w.Mirrors
  entries : ∀ key, w.callbacks_.lookup key = lastWatch key tasks

theorem lastWatch_snoc (key : Int × WatchFlag) (tasks : List (Task κ)) (task : Task κ) :
    lastWatch key (tasks ++ [task]) = task.registers key (lastWatch key tasks) := by
  rw [lastWatch, List.foldl_append]
  rfl

theorem after_step {task : Task κ} {next : MapEventWatcher κ}
    (after : After read_end_ write_end_ tasks w) (other : w.Apart task)
    (taken : w.step task = some next) : After read_end_ write_end_ (tasks ++ [task]) next := by
  cases task with
  | watch fd flag callback =>
      obtain rfl : w.watch fd flag callback = next := Option.some.inj taken
      have eq := @watch_eq κ w fd flag callback (after.mirrors.mirror fd other.1 other.2)
      refine ⟨by rw [eq]; exact after.ends, after.mirrors.watch other, fun key => ?_⟩
      rw [eq, lastWatch_snoc, ← after.entries]
      dsimp only [Task.registers]
      by_cases same : key = (fd, flag)
      · rw [if_pos same, same, AList.lookup_insert]
      · rw [if_neg same, AList.lookup_insert_ne same]
  | unwatch fd flag =>
      obtain rfl : w.unwatch fd flag = next := Option.some.inj taken
      have eq := @unwatch_eq κ w fd flag (after.mirrors.mirror fd other.1 other.2)
      refine ⟨by rw [eq]; exact after.ends, after.mirrors.unwatch other, fun key => ?_⟩
      rw [eq, lastWatch_snoc, ← after.entries]
      dsimp only [Task.registers]
      by_cases same : key = (fd, flag)
      · rw [if_pos same, same, AList.lookup_erase]
      · rw [if_neg same, AList.lookup_erase_ne same]
  | unwatchAll =>
      obtain rfl : w.unwatchAll = next := Option.some.inj taken
      have cleared := after.mirrors.unwatchAll_cleared
      refine ⟨?_, after.mirrors.unwatchAll, fun key => ?_⟩
      · rw [cleared.ends.1, cleared.ends.2]
        exact after.ends
      · rw [lastWatch_snoc, Task.registers]
        exact AList.lookup_eq_none.mpr (after.mirrors.unwatchAll_empty key)

theorem after_run (run : Run read_end_ write_end_ tasks w) :
    After read_end_ write_end_ tasks w := by
  refine run.history (After read_end_ write_end_) ?_ ?_
  · exact ⟨⟨rfl, rfl⟩, mirrors_create read_end_ write_end_, fun key => AList.lookup_empty key⟩
  · exact fun tasks w task next after taken => after_step after taken.1 taken.2

/-- The kernel waits for an event of `fd`. -/
def Waits (w : MapEventWatcher κ) (fd : Int) (event : BitVec 32) : Prop :=
  ∃ events, w.interest fd = some events ∧ events &&& event ≠ 0

/-- Whatever is watched and unwatched, the kernel waits for what has a callback, the callback is
that of the last `watch`, and the pipe stays where it is. -/
theorem interest_mirrors (run : Run read_end_ write_end_ tasks w) :
    (∀ fd, fd ≠ read_end_ → fd ≠ write_end_ →
      (w.Waits fd EPOLLIN ↔ (fd, .RDONLY) ∈ w.callbacks_) ∧
      (w.Waits fd EPOLLOUT ↔ (fd, .WRONLY) ∈ w.callbacks_) ∧
      (w.interest fd = none ↔ (fd, .RDONLY) ∉ w.callbacks_ ∧ (fd, .WRONLY) ∉ w.callbacks_)) ∧
    (∀ key, w.callbacks_.lookup key = lastWatch key tasks) ∧
    w.interest read_end_ = some EPOLLIN := by
  obtain ⟨⟨rfl, rfl⟩, mirrors, entries⟩ := after_run run
  refine ⟨fun fd not_read not_write => ?_, entries, mirrors.pipe⟩
  have mirror := mirrors.mirror fd not_read not_write
  unfold Waits
  rw [mirror]
  by_cases reader : (fd, WatchFlag.RDONLY) ∈ w.callbacks_ <;>
    by_cases writer : (fd, WatchFlag.WRONLY) ∈ w.callbacks_ <;>
    simp [wanted, reader, writer, EPOLLIN, EPOLLOUT]

/-- Both flags, one of them undone, a callback replaced, and a descriptor watched again after
all. -/
theorem interest_mirrors_example :
    ∃ (tasks : List (Task Nat)) (w : MapEventWatcher Nat), Run 3 4 tasks w ∧ tasks.length = 7 ∧
      w.Waits 5 EPOLLIN ∧ ¬ w.Waits 5 EPOLLOUT ∧ w.callbacks_.lookup (5, .RDONLY) = some 4 ∧
      w.interest 6 = none ∧ w.interest 3 = some EPOLLIN := by
  let tasks : List (Task Nat) := [.watch 5 .RDONLY 1, .watch 5 .WRONLY 2, .unwatch 5 .RDONLY,
    .watch 6 .WRONLY 3, .unwatchAll, .watch 5 .RDONLY 3, .watch 5 .RDONLY 4]
  have runs : (Transition.run (Transition.guardedStep (fun w t => decide (Apart w t)) step)
      (create 3 4) tasks).isSome = true := by decide +kernel
  have kept := Transition.guarded_of_isSome runs
  obtain ⟨mirror, entries, pipe⟩ := interest_mirrors kept
  obtain ⟨reader, writer, -⟩ := mirror 5 (by decide) (by decide)
  obtain ⟨-, -, neither⟩ := mirror 6 (by decide) (by decide)
  have read := entries (5, .RDONLY)
  have not_written := entries (5, .WRONLY)
  refine ⟨tasks, _, kept, rfl, reader.mpr ?_, fun waits => ?_, read, neither.mpr ⟨?_, ?_⟩, pipe⟩
  · exact AList.lookup_isSome.mp (by rw [read]; rfl)
  · exact AList.lookup_eq_none.mp not_written (writer.mp waits)
  · exact AList.lookup_eq_none.mp (entries (6, .RDONLY))
  · exact AList.lookup_eq_none.mp (entries (6, .WRONLY))

end Runs

end MapEventWatcher

end Getrafty
