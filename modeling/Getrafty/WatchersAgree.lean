import Getrafty.EventLoop
import Getrafty.EventWatcherTable
import Getrafty.MapEventWatcher

set_option autoImplicit false

namespace Getrafty

open Transition (Exec Of Guarded)

variable {κ : Type}

/-- What a user asks of either watcher. -/
inductive WatchRequest (κ : Type) where
  | watch (fd : Nat) (flag : WatchFlag) (callback : κ)
  | unwatch (fd : Nat) (flag : WatchFlag)
  | unwatchAll
  deriving DecidableEq

namespace WatchRequest

def onMap : WatchRequest κ → MapEventWatcher.Task κ
  | .watch fd flag callback => .watch fd flag callback
  | .unwatch fd flag => .unwatch fd flag
  | .unwatchAll => .unwatchAll

def onBlocks : WatchRequest κ → Task κ
  | .watch fd flag callback => .handleWatch fd flag callback
  | .unwatch fd flag => .handleUnwatch fd flag
  | .unwatchAll => .handleUnwatchAll

def fd? : WatchRequest κ → Option Nat
  | .watch fd _ _ | .unwatch fd _ => some fd
  | .unwatchAll => none

end WatchRequest

/-- The watcher with one map and the watcher with blocks, which are asked for the same. -/
structure Watchers (κ : Type) where
  map : MapEventWatcher κ
  blocks : EventWatcher κ

namespace Watchers

/-- A descriptor that neither of the watchers has for itself. -/
def Users (w : Watchers κ) (fd : Nat) : Prop :=
  fd ≠ w.blocks.eventfd ∧ (fd : Int) ≠ w.map.read_end_ ∧ (fd : Int) ≠ w.map.write_end_

instance (w : Watchers κ) : DecidablePred w.Users :=
  fun _ => inferInstanceAs (Decidable (_ ∧ _ ∧ _))

def start (eventfd : Nat) (read_end_ write_end_ : Int) : Watchers κ where
  map := .create read_end_ write_end_
  blocks := .create eventfd

/-- The tasks of both watchers run to their ends. -/
def step (w : Watchers κ) (request : WatchRequest κ) : Option (Watchers κ) :=
  if ∀ fd ∈ request.fd?, w.Users fd then
    (w.map.step request.onMap).map fun map => { map, blocks := request.onBlocks.perform w.blocks }
  else
    none

def Run (eventfd : Nat) (read_end_ write_end_ : Int) (requests : List (WatchRequest κ))
    (w : Watchers κ) : Prop :=
  Exec (Of step) (start eventfd read_end_ write_end_) requests w

/-- The same callbacks are invoked for the same events, and both loops can be woken up. -/
structure Agree (w : Watchers κ) : Prop where
  callbacks : ∀ fd, w.Users fd → ∀ flag,
    w.blocks.registered fd flag = (w.map.callbacks_.lookup ((fd : Int), flag)).map .user
  interest : ∀ fd : Nat, w.Users fd → w.blocks.interest fd = w.map.interest fd
  wakeups : w.blocks.interest w.blocks.eventfd = some EPOLLIN ∧
    w.map.interest w.map.read_end_ = some EPOLLIN

/-- What both keep, so that they agree. -/
structure Sound (w : Watchers κ) : Prop where
  consistent : w.blocks.Consistent
  mirrors : w.map.Mirrors
  callbacks : ∀ fd, w.Users fd → ∀ flag,
    w.blocks.registered fd flag = (w.map.callbacks_.lookup ((fd : Int), flag)).map .user
  wakeup : ∀ flag, w.blocks.registered w.blocks.eventfd flag =
    if flag = .RDONLY then some .wakeup else none

section Steps

variable {w next : Watchers κ} {request : WatchRequest κ} {fd : Nat} {flag : WatchFlag}

/-- The mask of the blocks is what the map asks for. -/
theorem masked (cb : WatchFlag → Option (WatchCallback κ)) {reader writer : Prop}
    [Decidable reader] [Decidable writer] (reads : (cb .RDONLY).isSome = true ↔ reader)
    (writes : (cb .WRONLY).isSome = true ↔ writer) :
    (if maskOf cb = 0 then none else some (maskOf cb)) = MapEventWatcher.wanted reader writer := by
  unfold maskOf MapEventWatcher.wanted
  by_cases reader <;> by_cases writer <;>
    simp_all [EPOLLIN, EPOLLOUT, WatchFlag.bits]

theorem interest_blocks {ew : EventWatcher κ} (consistent : ew.Consistent) (fd : Nat) :
    ew.interest fd =
      if maskOf (ew.registered fd) = 0 then none else some (maskOf (ew.registered fd)) := by
  have kernel := consistent.kernel fd
  rw [EventWatcher.Agrees, consistent.tidy fd] at kernel
  exact kernel

theorem Sound.agree (sound : w.Sound) : w.Agree where
  callbacks := sound.callbacks
  interest fd users := by
    have engaged (flag : WatchFlag) : (w.blocks.registered fd flag).isSome = true ↔
        ((fd : Int), flag) ∈ w.map.callbacks_ := by
      rw [sound.callbacks fd users, Option.isSome_map, AList.lookup_isSome]
    rw [interest_blocks sound.consistent, sound.mirrors.mirror fd users.2.1 users.2.2]
    exact masked _ (engaged .RDONLY) (engaged .WRONLY)
  wakeups := by
    refine ⟨?_, sound.mirrors.pipe⟩
    rw [interest_blocks sound.consistent]
    have reads : (w.blocks.registered w.blocks.eventfd .RDONLY).isSome = true ↔ True := by
      simp [sound.wakeup]
    have writes : (w.blocks.registered w.blocks.eventfd .WRONLY).isSome = true ↔ False := by
      simp [sound.wakeup]
    rw [masked _ reads writes]
    rfl

theorem sound_start (eventfd : Nat) (read_end_ write_end_ : Int) :
    (start eventfd read_end_ write_end_ : Watchers κ).Sound := by
  have eventfd_eq : (EventWatcher.create eventfd : EventWatcher κ).eventfd = eventfd :=
    EventWatcher.handleWatch_eventfd ..
  constructor
  · exact EventWatcher.create_consistent eventfd
  · exact MapEventWatcher.mirrors_create read_end_ write_end_
  · intro fd users flag
    have elsewhere : fd ≠ eventfd := eventfd_eq ▸ users.1
    refine (EventWatcher.registered_create eventfd fd flag).trans ?_
    rw [if_neg (fun here => elsewhere here.1)]
    rfl
  · intro flag
    refine (EventWatcher.registered_create eventfd _ flag).trans ?_
    simp only [start, eventfd_eq, true_and]

/-- Both have changed the callback of one flag of one descriptor in the same way. -/
theorem Sound.changed (sound : w.Sound) (users : w.Users fd) (flag : WatchFlag)
    (callback : Option κ) (consistent : next.blocks.Consistent) (mirrors : next.map.Mirrors)
    (own : next.blocks.eventfd = w.blocks.eventfd ∧ next.map.read_end_ = w.map.read_end_ ∧
      next.map.write_end_ = w.map.write_end_)
    (registered : ∀ other flag', next.blocks.registered other flag' =
      if other = fd ∧ flag' = flag then callback.map .user else w.blocks.registered other flag')
    (lookup : ∀ key, next.map.callbacks_.lookup key =
      if key = ((fd : Int), flag) then callback else w.map.callbacks_.lookup key) : next.Sound := by
  constructor
  · exact consistent
  · exact mirrors
  · intro other known flag'
    rw [registered, lookup]
    by_cases same : other = fd ∧ flag' = flag
    · rw [if_pos same, same.1, same.2, if_pos rfl]
    · have apart : ((other : Int), flag') ≠ ((fd : Int), flag) := by
        simpa [Prod.ext_iff] using same
      rw [if_neg same, if_neg apart]
      apply sound.callbacks
      rw [Users, own.1, own.2.1, own.2.2] at known
      exact known
  · intro flag'
    rw [own.1, registered, if_neg (fun here => users.1 here.1.symm)]
    exact sound.wakeup flag'

theorem Sound.watch (sound : w.Sound) (users : w.Users fd) (callback : κ) :
    Sound ⟨w.map.watch fd flag callback, w.blocks.handleWatch fd flag (.user callback)⟩ := by
  have eq := @MapEventWatcher.watch_eq κ w.map fd flag callback
    (sound.mirrors.mirror fd users.2.1 users.2.2)
  apply sound.changed users flag (some callback)
  · exact sound.consistent.handleWatch fd flag (.user callback)
  · exact sound.mirrors.watch users.2
  · exact ⟨EventWatcher.handleWatch_eventfd .., by rw [eq], by rw [eq]⟩
  · intro other flag'
    exact sound.consistent.tidy.registered_handleWatch fd other flag flag' (.user callback)
  · intro key
    rw [eq]
    by_cases same : key = ((fd : Int), flag)
    · rw [if_pos same, same, AList.lookup_insert]
    · rw [if_neg same, AList.lookup_insert_ne same]

theorem Sound.unwatch (sound : w.Sound) (users : w.Users fd) :
    Sound ⟨w.map.unwatch fd flag, w.blocks.handleUnwatch fd flag⟩ := by
  have eq := @MapEventWatcher.unwatch_eq κ w.map fd flag
    (sound.mirrors.mirror fd users.2.1 users.2.2)
  apply sound.changed users flag none
  · exact sound.consistent.handleUnwatch fd flag
  · exact sound.mirrors.unwatch users.2
  · exact ⟨EventWatcher.handleUnwatch_eventfd .., by rw [eq], by rw [eq]⟩
  · intro other flag'
    exact sound.consistent.tidy.registered_handleUnwatch fd other flag flag'
  · intro key
    rw [eq]
    by_cases same : key = ((fd : Int), flag)
    · rw [if_pos same, same, AList.lookup_erase]
    · rw [if_neg same, AList.lookup_erase_ne same]

theorem step_cases (taken : w.step request = some next) : (∀ fd ∈ request.fd?, w.Users fd) ∧
    ∃ map, w.map.step request.onMap = some map ∧
      next = { map, blocks := request.onBlocks.perform w.blocks } := by
  obtain ⟨users, taken⟩ := Option.ite_none_right_eq_some.mp taken
  obtain ⟨map, did, same⟩ := Option.map_eq_some_iff.mp taken
  exact ⟨users, map, did, same.symm⟩

theorem Sound.step (sound : w.Sound) (kept : request ≠ .unwatchAll)
    (taken : w.step request = some next) : next.Sound := by
  obtain ⟨users, map, did, rfl⟩ := step_cases taken
  cases request with
  | watch fd flag callback =>
      obtain rfl : w.map.watch fd flag callback = map := Option.some.inj did
      exact sound.watch (users fd rfl) callback
  | unwatch fd flag =>
      obtain rfl : w.map.unwatch fd flag = map := Option.some.inj did
      exact sound.unwatch (users fd rfl)
  | unwatchAll => exact absurd rfl kept

/-- The blocks lose the descriptor that wakes the loop up, the map keeps its own. -/
theorem Sound.parts (sound : w.Sound) (taken : w.step .unwatchAll = some next) : ¬ next.Agree := by
  obtain ⟨-, map, -, rfl⟩ := step_cases taken
  intro agree
  have gone := sound.consistent.interest_handleUnwatchAll w.blocks.handleUnwatchAll.eventfd
  exact absurd (gone.symm.trans agree.wakeups.1) (by simp)

end Steps

section Runs

variable {eventfd : Nat} {read_end_ write_end_ : Int} {requests : List (WatchRequest κ)}
  {w : Watchers κ}

theorem sound_of_kept (run : Exec (Guarded (fun _ request => request ≠ .unwatchAll) (Of step))
    (start eventfd read_end_ write_end_) requests w) : w.Sound :=
  run.invariant Sound (sound_start eventfd read_end_ write_end_)
    fun _ _ _ sound taken => sound.step taken.1 taken.2

/-- The two implementations of the watcher do the same in every state of a run exactly when nobody
unwatches all. -/
theorem agree_iff (run : Run eventfd read_end_ write_end_ requests w) :
    (∀ front back middle, requests = front ++ back →
      Run eventfd read_end_ write_end_ front middle → middle.Agree) ↔ .unwatchAll ∉ requests := by
  have kept : Exec (Guarded (fun _ request => request ≠ .unwatchAll) (Of step))
      (start eventfd read_end_ write_end_) requests w ↔ .unwatchAll ∉ requests := by
    rw [run.guarded_labels]
    exact ⟨fun all among => all _ among rfl, fun none request among same => none (same ▸ among)⟩
  rw [← kept]
  apply run.always_iff Agree (sound_start eventfd read_end_ write_end_).agree
  intro front state request next guarded taken
  have sound := sound_of_kept guarded
  constructor
  · rintro agree rfl
    exact sound.parts taken agree
  · intro other
    exact (sound.step other taken).agree

/-- A handler is replaced, one of two flags is taken back, and one that nobody watched. -/
def rewatched : List (WatchRequest Nat) :=
  [.watch 5 .RDONLY 1, .watch 5 .WRONLY 2, .watch 5 .RDONLY 3, .unwatch 5 .WRONLY,
    .unwatch 6 .RDONLY, .watch 70 .WRONLY 4]

theorem agree_iff_rewatched : ∃ w, Run 3 7 8 rewatched w ∧ w.Agree ∧
    w.blocks.registered 5 .RDONLY = some (.user 3) ∧ w.map.interest 70 = some EPOLLOUT := by
  obtain ⟨w, run, first, last⟩ : ∃ w, Exec (Of step) (start 3 7 8) rewatched w ∧
      w.blocks.registered 5 .RDONLY = some (.user 3) ∧ w.map.interest 70 = some EPOLLOUT :=
    Transition.exists_exec (by decide +kernel)
  have agree := (agree_iff run).mpr (by decide) rewatched [] w (List.append_nil _).symm run
  exact ⟨w, run, agree, first, last⟩

end Runs

end Watchers

end Getrafty
