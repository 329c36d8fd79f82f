import Getrafty.Lib.Custody
import Getrafty.ProcessCalls

set_option autoImplicit false

namespace Getrafty

open Transition (Exec Of Guarded)
open EventWatcher (Rewatched)

namespace Process

/-- A descriptor member; a negative one is none. -/
def descriptor (fd : Int) : Option Nat := if 0 ≤ fd then some fd.toNat else none

theorem descriptor_nat (fd : Nat) : descriptor fd = some fd := if_pos (Int.natCast_nonneg fd)

theorem descriptor_negative {fd : Int} (negative : fd < 0) : descriptor fd = none :=
  if_neg (not_le.mpr negative)

theorem descriptor_eq {fd : Int} {n : Nat} : descriptor fd = some n ↔ fd = n := by
  unfold descriptor
  split
  · rw [Option.some.injEq]
    omega
  · constructor
    · intro none
      cases none
    · intro same
      omega

/-- What each object has in its descriptor member. -/
def holds (p : Process) : Owner → Option Nat
  | .dialer id => (p.dialers id).bind fun d => descriptor d.fd_
  | .listener id => (p.listeners id).bind fun l => descriptor l.listen_fd_
  | .transport id => (p.transports id).map fun t => t.transport.fd

def custody (ew : EventWatcher Handler) (fds : List Nat) (holds : Owner → Option Nat) :
    Custody Owner Nat WatchFlag where
  holds
  opened fd := fd ∈ fds ∧ fd ≠ ew.eventfd
  listed fd flag owner := ∃ handler, ew.registered fd flag = some (.user handler) ∧
    handler.owner = owner

/-- A handler of its owner, for what it handles. -/
def Entered (owner : Owner) (flag : WatchFlag) (handler : Handler) : Prop :=
  handler.owner = owner ∧ handler.flag = flag

/-- Each open descriptor but that of the watcher has one object that knows it, and the watcher calls
objects only for descriptors that are theirs. -/
structure Core (ew : EventWatcher Handler) (fds : List Nat) (holds : Owner → Option Nat) :
    Prop where
  consistent : ew.Consistent
  custody : (custody ew fds holds).Sound
  flags : ∀ {fd flag handler}, ew.registered fd flag = some (.user handler) → handler.flag = flag
  wakeup : ∀ fd flag, ew.registered fd flag = some .wakeup ↔ fd = ew.eventfd ∧ flag = .RDONLY
  eventfd : ew.eventfd ∈ fds
  nodup : fds.Nodup

section Core

variable {ew next : EventWatcher Handler} {fds : List Nat} {holds : Owner → Option Nat}
  {owner : Owner} {fd : Nat}

theorem Core.open_of_holds (core : Core ew fds holds) (held : holds owner = some fd) :
    fd ∈ fds ∧ fd ≠ ew.eventfd :=
  core.custody.live held

theorem Core.registered (core : Core ew fds holds) {flag : WatchFlag} {handler : Handler}
    (registered : ew.registered fd flag = some (.user handler)) : holds handler.owner = some fd :=
  core.custody.entered ⟨handler, registered, rfl⟩

/-- For a descriptor the watcher calls nobody but the object that has it. -/
theorem Core.only (core : Core ew fds holds) (held : holds owner = some fd) {flag : WatchFlag}
    {callback : WatchCallback Handler} (registered : ew.registered fd flag = some callback) :
    ∃ handler, callback = .user handler ∧ Entered owner flag handler := by
  cases callback with
  | wakeup =>
      exact absurd ((core.wakeup fd flag).mp registered).1 (core.open_of_holds held).2
  | user handler =>
      exact ⟨handler, rfl, core.custody.apart (core.registered registered) held,
        core.flags registered⟩

/-- Nobody is called for a descriptor that is not open. -/
theorem Core.unlisted (core : Core ew fds holds) (fresh : fd ∉ fds) (flag : WatchFlag) :
    ew.registered fd flag = none := by
  cases registered : ew.registered fd flag with
  | none => rfl
  | some callback =>
      cases callback with
      | wakeup =>
          have here := ((core.wakeup fd flag).mp registered).1
          exact absurd (here ▸ core.eventfd) fresh
      | user handler =>
          exact absurd (core.open_of_holds (core.registered registered)).1 fresh

/-- What the kernel watches is what has a handler. -/
theorem interest_registered {ew : EventWatcher Handler} (consistent : ew.Consistent) {fd : Nat}
    (interest : ew.interest fd ≠ none) :
    ∃ flag callback, ew.registered fd flag = some callback := by
  by_contra none
  simp only [not_exists] at none
  have vacant : (ew.fdMap.entry fd).cb = fun _ => .none := by
    funext flag
    exact Option.eq_none_iff_forall_ne_some.mpr (none flag)
  apply interest
  rw [consistent.kernel fd, if_pos]
  rw [consistent.tidy fd, vacant, maskOf_none]

theorem quiet_of_unlisted (consistent : ew.Consistent)
    (unlisted : ∀ flag, ew.registered fd flag = none) : ew.interest fd = none := by
  by_contra interest
  obtain ⟨flag, callback, registered⟩ := interest_registered consistent interest
  rw [unlisted flag] at registered
  cases registered

theorem Core.rewatch (core : Core ew fds holds) (held : holds owner = some fd)
    (rewatched : Rewatched fd (Entered owner) ew next) : Core next fds holds := by
  have apart := (core.open_of_holds held).2
  have registered : ∀ {other flag callback}, next.registered other flag = some callback →
      ew.registered other flag = some callback ∨
        other = fd ∧ ∃ handler, callback = .user handler ∧ Entered owner flag handler := by
    intro other flag callback after
    by_cases same : other = fd
    · subst same
      exact (rewatched.here flag callback after).imp id (fun new => ⟨rfl, new⟩)
    · rw [rewatched.elsewhere other flag same] at after
      exact Or.inl after
  constructor
  · exact rewatched.consistent
  · refine core.custody.relist rfl (fun x => ?_) ?_
    · show x ∈ fds ∧ x ≠ next.eventfd ↔ _
      rw [rewatched.eventfd]
      rfl
    · rintro x flag k ⟨handler, after, rfl⟩
      rcases registered after with before | ⟨rfl, other, same, entered⟩
      · exact Or.inl ⟨handler, before, rfl⟩
      · obtain rfl := WatchCallback.user.inj same
        rw [entered.1]
        exact Or.inr held
  · intro other flag handler after
    rcases registered after with before | ⟨-, name, same, entered⟩
    · exact core.flags before
    · obtain rfl := WatchCallback.user.inj same
      exact entered.2
  · intro other flag
    rw [rewatched.eventfd]
    constructor
    · intro after
      rcases registered after with before | ⟨-, name, same, -⟩
      · exact (core.wakeup other flag).mp before
      · cases same
    · intro here
      have other_ne : other ≠ fd := fun same => apart (same.symm.trans here.1)
      rw [rewatched.elsewhere other flag other_ne]
      exact (core.wakeup other flag).mpr here
  · rw [rewatched.eventfd]
    exact core.eventfd
  · exact core.nodup

theorem Core.acquire (core : Core ew fds holds) (idle : holds owner = none) (fresh : fd ∉ fds) :
    Core ew (fd :: fds) (Function.update holds owner (some fd)) := by
  have apart : fd ≠ ew.eventfd := fun same => fresh (same ▸ core.eventfd)
  constructor
  · exact core.consistent
  · refine core.custody.acquire idle (fun open_ => fresh open_.1) rfl (fun x => ?_)
      (fun _ _ _ entry => Or.inl entry)
    show x ∈ fd :: fds ∧ x ≠ ew.eventfd ↔ x = fd ∨ x ∈ fds ∧ x ≠ ew.eventfd
    rw [List.mem_cons]
    constructor
    · intro after
      exact after.1.imp id (fun before => ⟨before, after.2⟩)
    · rintro (rfl | ⟨before, other⟩)
      · exact ⟨Or.inl rfl, apart⟩
      · exact ⟨Or.inr before, other⟩
  · exact core.flags
  · exact core.wakeup
  · exact List.mem_cons_of_mem _ core.eventfd
  · exact List.nodup_cons.mpr ⟨fresh, core.nodup⟩

/-- Entries that are left are for other descriptors. -/
theorem listed_elsewhere (unwatched : ∀ flag, ew.registered fd flag = none) (x : Nat)
    (flag : WatchFlag) (k : Owner) (entry : (Process.custody ew fds holds).listed x flag k) :
    (Process.custody ew fds holds).listed x flag k ∧ x ≠ fd := by
  refine ⟨entry, ?_⟩
  rintro rfl
  obtain ⟨handler, registered, -⟩ := entry
  rw [unwatched flag] at registered
  cases registered

theorem Core.release (core : Core ew fds holds) (held : holds owner = some fd)
    (unwatched : ∀ flag, ew.registered fd flag = none) :
    Core ew (fds.erase fd) (Function.update holds owner none) := by
  constructor
  · exact core.consistent
  · refine core.custody.release held rfl (fun x => ?_) (listed_elsewhere unwatched)
    show x ∈ fds.erase fd ∧ x ≠ ew.eventfd ↔ (x ∈ fds ∧ x ≠ ew.eventfd) ∧ x ≠ fd
    rw [core.nodup.mem_erase_iff]
    tauto
  · exact core.flags
  · exact core.wakeup
  · exact core.nodup.mem_erase_iff.mpr ⟨(core.open_of_holds held).2.symm, core.eventfd⟩
  · exact core.nodup.erase fd

theorem Core.hand (core : Core ew fds holds) {heir : Owner} (held : holds owner = some fd)
    (idle : holds heir = none) (unwatched : ∀ flag, ew.registered fd flag = none) :
    Core ew fds (Function.update (Function.update holds owner none) heir (some fd)) := by
  constructor
  · exact core.consistent
  · exact core.custody.hand held idle rfl (fun _ => Iff.rfl) (listed_elsewhere unwatched)
  · exact core.flags
  · exact core.wakeup
  · exact core.eventfd
  · exact core.nodup

theorem Core.lost (core : Core ew fds holds) (held : holds owner = some fd) {fds' : List Nat}
    {holds' : Owner → Option Nat} (eventfd : next.eventfd = ew.eventfd) (still : fd ∈ fds')
    (others : ∀ k, holds' k = some fd → k ≠ owner ∧ holds k = some fd) :
    ¬ Core next fds' holds' := by
  intro after
  have opened : (Process.custody next fds' holds').opened fd :=
    ⟨still, by rw [eventfd]; exact (core.open_of_holds held).2⟩
  exact Custody.Sound.lost core.custody held opened others after.custody

/-- An object with no descriptor may come and go. -/
theorem Core.congr (core : Core ew fds holds) {other : Owner → Option Nat} (same : other = holds) :
    Core ew fds other := by
  rw [same]
  exact core

end Core

section Fields

variable (p : Process) (id : Nat)

theorem holds_setDialer (d : Option TcpDialer) : (p.setDialer id d).holds =
    Function.update p.holds (.dialer id) (d.bind fun d => descriptor d.fd_) := by
  funext owner
  cases owner with
  | dialer other =>
      by_cases same : other = id
      · subst same
        simp only [holds, setDialer, Function.update_self]
      · have apart : Owner.dialer other ≠ .dialer id := by simpa using same
        simp only [holds, setDialer, Function.update_of_ne same, Function.update_of_ne apart]
  | listener other => rw [Function.update_of_ne (by simp)]; rfl
  | transport other => rw [Function.update_of_ne (by simp)]; rfl

theorem holds_setListener (l : Option ListenerMembers) : (p.setListener id l).holds =
    Function.update p.holds (.listener id) (l.bind fun l => descriptor l.listen_fd_) := by
  funext owner
  cases owner with
  | listener other =>
      by_cases same : other = id
      · subst same
        simp only [holds, setListener, Function.update_self]
      · have apart : Owner.listener other ≠ .listener id := by simpa using same
        simp only [holds, setListener, Function.update_of_ne same, Function.update_of_ne apart]
  | dialer other => rw [Function.update_of_ne (by simp)]; rfl
  | transport other => rw [Function.update_of_ne (by simp)]; rfl

theorem holds_setTransport (t : Option Transport.State) : (p.setTransport id t).holds =
    Function.update p.holds (.transport id) (t.map fun t => t.transport.fd) := by
  funext owner
  cases owner with
  | transport other =>
      by_cases same : other = id
      · subst same
        simp only [holds, setTransport, Function.update_self]
      · have apart : Owner.transport other ≠ .transport id := by simpa using same
        simp only [holds, setTransport, Function.update_of_ne same, Function.update_of_ne apart]
  | dialer other => rw [Function.update_of_ne (by simp)]; rfl
  | listener other => rw [Function.update_of_ne (by simp)]; rfl

theorem close_open {fd : Nat} (open_ : fd ∈ p.fds) (quiet : p.ew.interest fd = none) :
    p.close fd = { p with fds := p.fds.erase fd } := by
  have valid : ¬ ((fd : Int) < 0) := not_lt.mpr (Int.natCast_nonneg fd)
  have same : Function.update p.ew.interest fd none = p.ew.interest := by
    rw [← quiet, Function.update_eq_self]
  rw [close, if_neg valid, Int.toNat_natCast, if_pos open_, same]

theorem call_watch (fd : Nat) (flag : WatchFlag) (handler : Handler) :
    p.call .loop (.watch fd flag handler) =
      { p with ew := p.ew.handleWatch fd flag (.user handler) } := by
  rw [call, Call.inline_watch]

theorem call_unwatch (fd : Nat) (flag : WatchFlag) :
    p.call .loop (.unwatch fd flag) = { p with ew := p.ew.handleUnwatch fd flag } := by
  rw [call, Call.inline_unwatch]

theorem foldl_call (calls : List (Call Handler)) :
    calls.foldl (call .loop) p = { p with ew := Call.inlineAll calls p.ew } := by
  induction calls generalizing p with
  | nil => rfl
  | cons first calls ih =>
      rw [List.foldl_cons, ih]
      rfl

end Fields

/-- A member function of the listener runs, or a closure that will run calls one. -/
def Busy (p : Process) (id : Nat) : Prop :=
  (∃ task, .listener id task ∈ p.tasks) ∨ (∃ frame, (id, frame) ∈ p.stack) ∨
    (p.callers id ≠ .notCalled ∧ p.callers id ≠ .returned)

/-- A callback of a lone transport, as the shared watcher knows it. -/
def shared (id : Nat) : WatchCallback TransportCallback → WatchCallback Handler
  | .wakeup => .wakeup
  | .user callback => .user (.transport id callback)

/-- The transport does what it would do on a watcher of its own, and finds in the shared one what it
would find there. -/
structure Alone (ew : EventWatcher Handler) (id : Nat) (t : Transport.State) : Prop where
  run : ∃ alloc ops, Transport.Run ew.eventfd t.transport.fd alloc ops t
  alive : t.destroyed = false
  consistent : t.transport.ew.Consistent
  echoes : ∀ flag, ew.registered t.transport.fd flag =
    (t.transport.ew.registered t.transport.fd flag).map (shared id)

/-- `listenAndWait()` has not made its socket. -/
def Unopened (stage : Listening) : Prop :=
  stage = .notCalled ∨ stage = .parseAddress ∨ stage = .makeSockTcp

/-- `listenAndWait()` has not posted the closure that watches. -/
def Unposted (stage : Listening) : Prop := stage ≠ .waiting ∧ stage ≠ .returned

/-- The watcher has the listener's handler. -/
def Entry (ew : EventWatcher Handler) (id : Nat) : Prop :=
  ∃ fd flag, ew.registered fd flag = some (.user (.listener id))

/-- Objects are used only while they are there, no descriptor is lost or closed twice, and no
transport notices the others. -/
structure Sound (p : Process) : Prop where
  core : Core p.ew p.fds p.holds
  alone : ∀ id t, p.transports id = some t → Alone p.ew id t
  busy : ∀ id, p.Busy id → p.listeners id ≠ none
  unopened : ∀ id l, p.listeners id = some l → Unopened (p.callers id) → l.listen_fd_ < 0
  unposted : ∀ id, Unposted (p.callers id) → .listener id .watch ∉ p.tasks ∧ ¬ Entry p.ew id
  inline : ∀ task, .watcher task ∉ p.tasks
  safe : p.fault = none

end Process

end Getrafty
