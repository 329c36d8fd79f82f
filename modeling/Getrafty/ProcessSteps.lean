import Getrafty.ProcessCustody

set_option autoImplicit false

namespace Getrafty

open Transition (Exec Of Guarded)
open EventWatcher (Rewatched)

namespace Process

theorem minus_one_negative : (-1 : Int) < 0 := by decide

section Objects

variable {p next : Process} {id fd : Nat} {made : Made} {d : TcpDialer} {l : ListenerMembers}

/-- Only the descriptors and the handlers of other objects than listeners change. -/
theorem Sound.recore (sound : p.Sound) (core : Core next.ew next.fds next.holds)
    (alone : ∀ id t, next.transports id = some t → Alone next.ew id t)
    (entries : ∀ id, Entry next.ew id → Entry p.ew id) (listeners : next.listeners = p.listeners)
    (callers : next.callers = p.callers) (tasks : next.tasks = p.tasks)
    (stack : next.stack = p.stack) (safe : next.fault = p.fault) : next.Sound where
  core
  alone
  busy := by
    simp only [Busy, listeners, callers, tasks, stack]
    exact sound.busy
  unopened := by
    rw [listeners, callers]
    exact sound.unopened
  unposted := by
    intro id early
    rw [callers] at early
    obtain ⟨unqueued, unlisted⟩ := sound.unposted id early
    rw [tasks]
    exact ⟨unqueued, fun entry => unlisted (entries id entry)⟩
  inline := by
    rw [tasks]
    exact sound.inline
  safe := safe.trans sound.safe

/-- Calls that register no listener leave the entries of listeners as they are, or fewer. -/
theorem entries_of_rewatched {ew after : EventWatcher Handler}
    {entered : WatchFlag → Handler → Prop} (rewatched : Rewatched fd entered ew after)
    (other : ∀ flag id, ¬ entered flag (.listener id)) :
    ∀ id, Entry after id → Entry ew id := by
  rintro id ⟨x, flag, registered⟩
  by_cases same : x = fd
  · subst same
    rcases rewatched.here flag _ registered with before | ⟨name, new, entered⟩
    · exact ⟨x, flag, before⟩
    · obtain rfl := WatchCallback.user.inj new
      exact absurd entered (other flag id)
  · rw [rewatched.elsewhere x flag same] at registered
    exact ⟨x, flag, registered⟩

theorem entries_unwatch {ew : EventWatcher Handler} (consistent : ew.Consistent) (fd : Nat)
    (flag : WatchFlag) : ∀ id, Entry (ew.handleUnwatch fd flag) id → Entry ew id := by
  have unwatched : Rewatched fd (fun _ _ => False) ew (ew.handleUnwatch fd flag) :=
    Rewatched.unwatch consistent flag
  exact entries_of_rewatched unwatched fun _ _ => not_false

theorem update_same {holds : Owner → Option Nat} {owner : Owner} {value : Option Nat}
    (same : holds owner = value) : Function.update holds owner value = holds := by
  rw [← same, Function.update_eq_self]

/-- Where all handlers of an owner are for one flag, `unwatch` of that flag leaves none. -/
theorem Core.unwatched {ew : EventWatcher Handler} {fds : List Nat} {holds : Owner → Option Nat}
    {owner : Owner} {flag : WatchFlag} (core : Core ew fds holds) (held : holds owner = some fd)
    (one : ∀ handler : Handler, handler.owner = owner → handler.flag = flag) (other : WatchFlag) :
    (ew.handleUnwatch fd flag).registered fd other = none := by
  rw [core.consistent.tidy.registered_handleUnwatch]
  split
  · rfl
  · rename_i apart
    cases registered : ew.registered fd other with
    | none => rfl
    | some callback =>
        obtain ⟨handler, -, entered⟩ := core.only held registered
        exact absurd ⟨rfl, entered.2.symm.trans (one handler entered.1)⟩ apart

theorem dialer_flag (handler : Handler) (owns : handler.owner = .dialer id) :
    handler.flag = .WRONLY := by
  cases handler with
  | dialer other => rfl
  | listener other => cases owns
  | transport other callback => cases owns

theorem listener_flag (handler : Handler) (owns : handler.owner = .listener id) :
    handler.flag = .RDONLY := by
  cases handler with
  | listener other => rfl
  | dialer other => cases owns
  | transport other callback => cases owns

/-- The watcher has nothing but the listener's own handler for its descriptor. -/
theorem Core.entry_listener {ew : EventWatcher Handler} {fds : List Nat}
    {holds : Owner → Option Nat} {flag : WatchFlag} {callback : WatchCallback Handler}
    (core : Core ew fds holds) (held : holds (.listener id) = some fd)
    (registered : ew.registered fd flag = some callback) :
    callback = .user (.listener id) ∧ flag = .RDONLY := by
  obtain ⟨handler, rfl, owner, rfl⟩ := core.only held registered
  cases handler with
  | listener other =>
      obtain rfl := Owner.listener.inj owner
      exact ⟨rfl, rfl⟩
  | dialer other => cases owner
  | transport other callback => cases owner

theorem holds_dialer (there : p.dialers id = some d) :
    p.holds (.dialer id) = descriptor d.fd_ := by
  rw [holds, there, Option.bind_some]

theorem holds_listener (there : p.listeners id = some l) :
    p.holds (.listener id) = descriptor l.listen_fd_ := by
  rw [holds, there, Option.bind_some]

theorem held_dialer (there : p.dialers id = some d) (owns : d.fd_ = fd) :
    p.holds (.dialer id) = some fd := by
  rw [holds_dialer there, owns, descriptor_nat]

theorem held_listener (there : p.listeners id = some l) (owns : l.listen_fd_ = fd) :
    p.holds (.listener id) = some fd := by
  rw [holds_listener there, owns, descriptor_nat]

theorem holds_transport {t : Transport.State} (there : p.transports id = some t) :
    p.holds (.transport id) = some t.transport.fd := by
  rw [holds, there, Option.map_some]

theorem holds_no_transport (absent : p.transports id = none) : p.holds (.transport id) = none := by
  rw [holds, absent, Option.map_none]

end Objects

section Beside

variable {p : Process} {ew next : EventWatcher Handler} {id fd : Nat} {t : Transport.State}
  {entered : WatchFlag → Handler → Prop}

theorem Alone.rewatch (alone : Alone ew id t) (rewatched : Rewatched fd entered ew next)
    (apart : t.transport.fd ≠ fd) : Alone next id t where
  run := by
    rw [rewatched.eventfd]
    exact alone.run
  alive := alone.alive
  consistent := alone.consistent
  echoes flag := by
    rw [rewatched.elsewhere _ flag apart]
    exact alone.echoes flag

/-- Transports do not notice what happens to the descriptor of something else. -/
theorem Sound.beside (sound : p.Sound) {owner : Owner} (held : p.holds owner = some fd)
    (other : ∀ id, owner ≠ .transport id) (rewatched : Rewatched fd entered p.ew next) :
    ∀ id t, p.transports id = some t → Alone next id t := by
  intro id t there
  refine (sound.alone id t there).rewatch rewatched ?_
  intro same
  exact other id (sound.core.custody.apart held (same ▸ holds_transport there))

theorem Sound.unwatch_beside (sound : p.Sound) {owner : Owner} (held : p.holds owner = some fd)
    (other : ∀ id, owner ≠ .transport id) (flag : WatchFlag) :
    ∀ id t, p.transports id = some t → Alone (p.ew.handleUnwatch fd flag) id t := by
  have unwatched : Rewatched fd (Entered owner) p.ew (p.ew.handleUnwatch fd flag) :=
    Rewatched.unwatch sound.core.consistent flag
  exact sound.beside held other unwatched

theorem alone_start (apart : fd ≠ ew.eventfd) (unwatched : ∀ flag, ew.registered fd flag = none)
    (alloc : Allocator) : Alone ew id (Transport.start ew.eventfd fd alloc) where
  run := ⟨alloc, [], .nil⟩
  alive := rfl
  consistent := EventWatcher.create_consistent ew.eventfd
  echoes flag := by
    have vacant := EventWatcher.registered_create (κ := TransportCallback) ew.eventfd fd flag
    rw [if_neg (fun here => apart here.1)] at vacant
    exact (unwatched flag).trans (by rw [Transport.start, vacant, Option.map_none])

theorem alone_made {transports : Nat → Option Transport.State} {made : Nat}
    (others : ∀ id t, transports id = some t → Alone ew id t) (new : Alone ew made t) :
    ∀ id t', Function.update transports made (some t) id = some t' → Alone ew id t' := by
  intro id t' there
  rw [Function.update_apply] at there
  split at there
  · rename_i same
    obtain rfl := Option.some.inj there
    exact same ▸ new
  · exact others id t' there

end Beside

section Dialers

variable {p next : Process} {id fd : Nat} {made : Made} {d : TcpDialer}

theorem dialed_setDialer (other : Option TcpDialer)
    (done : TcpDialer × List (DialerAction Handler)) :
    (p.setDialer id other).dialed .loop id made done = p.dialed .loop id made done := by
  simp only [dialed, setDialer, Function.update_idem]

/-- `onWritable` of a dialer closes its descriptor or hands it to a transport. -/
theorem Sound.onWritable (sound : p.Sound) (there : p.dialers id = some d) (owns : d.fd_ = fd)
    (absent : p.transports made.id = none) (error : Int) :
    (p.dialed .loop id made (d.onWritable error)).Sound := by
  have held := held_dialer there owns
  have core := sound.core.rewatch held (Rewatched.unwatch sound.core.consistent .WRONLY)
  have unwatched := sound.core.unwatched held dialer_flag
  have beside := sound.unwatch_beside held (fun _ same => by cases same) .WRONLY
  have entries := entries_unwatch sound.core.consistent fd .WRONLY
  by_cases refused : error ≠ 0
  · have steps : p.dialed .loop id made (d.onWritable error) = { p.setDialer id (some {}) with
        ew := p.ew.handleUnwatch fd .WRONLY
        fds := p.fds.erase fd } := by
      simp only [dialed, TcpDialer.onWritable, owns, if_pos refused, List.foldl_cons,
        List.foldl_nil, act, call_unwatch]
      rw [close_open]
      · rfl
      · exact (sound.core.open_of_holds held).1
      · exact quiet_of_unlisted core.consistent unwatched
    rw [steps]
    refine sound.recore ?_ beside entries rfl rfl rfl rfl rfl
    refine (core.release held unwatched).congr ?_
    exact p.holds_setDialer id (some {})
  · have steps : p.dialed .loop id made (d.onWritable error) =
        { (p.setDialer id (some {})).setTransport made.id
            (some (Transport.start (p.ew.handleUnwatch fd .WRONLY).eventfd fd made.alloc)) with
          ew := p.ew.handleUnwatch fd .WRONLY } := by
      simp only [dialed, TcpDialer.onWritable, owns, if_neg refused, List.foldl_cons,
        List.foldl_nil, act, call_unwatch, Int.toNat_natCast]
      rfl
    rw [steps]
    have apart : fd ≠ (p.ew.handleUnwatch fd .WRONLY).eventfd := (core.open_of_holds held).2
    refine sound.recore ?_ (alone_made beside (alone_start apart unwatched made.alloc)) entries rfl
      rfl rfl rfl rfl
    refine (core.hand held (holds_no_transport absent) unwatched).congr ?_
    show ((p.setDialer id _).setTransport made.id _).holds = _
    rw [holds_setTransport, holds_setDialer]
    rfl

/-- A dialer without a descriptor gets a new one. -/
theorem Sound.dials (sound : p.Sound) (idle : p.holds (.dialer id) = none) (fresh : fd ∉ p.fds) :
    ((p.opened fd).setDialer id (some { fd_ := fd })).Sound := by
  refine sound.recore ?_ sound.alone (fun _ entry => entry) rfl rfl rfl rfl rfl
  refine (sound.core.acquire idle fresh).congr ?_
  rw [holds_setDialer, Option.bind_some, descriptor_nat]
  rfl

theorem Sound.idle (sound : p.Sound) (idle : p.holds (.dialer id) = none) {d : Option TcpDialer}
    (none : (d.bind fun d => descriptor d.fd_) = none) : (p.setDialer id d).Sound := by
  refine sound.recore ?_ sound.alone (fun _ entry => entry) rfl rfl rfl rfl rfl
  refine sound.core.congr ?_
  rw [holds_setDialer, none, update_same idle]

/-- The kernel has no interest in a descriptor that is not open. -/
theorem Sound.quiet (sound : p.Sound) (fresh : fd ∉ p.fds) : p.ew.interest fd = none :=
  quiet_of_unlisted sound.core.consistent (sound.core.unlisted fresh)

/-- A descriptor that was opened and closed again leaves a dialer without one. -/
theorem dialed_reclosed (p : Process) (id : Nat) {fd : Nat} (made : Made) (err : Int)
    (quiet : p.ew.interest fd = none) :
    (p.opened fd).dialed .loop id made ({ fd_ := -1 }, [.close fd, .failure err]) =
      p.setDialer id (some {}) := by
  simp only [dialed, List.foldl_cons, List.foldl_nil, act]
  rw [close_open]
  · simp only [setDialer, opened, List.erase_cons_head]
  · exact List.mem_cons_self
  · exact quiet

/-- What `dial` comes to: no socket that stays, an attempt in progress, or one that is over. -/
inductive DialCase (p : Process) (id : Nat) (made : Made) : DialOutcome → Process → Prop
  | unparsable : DialCase p id made .unparsable p
  | gaveUp (outcome : DialOutcome) (goesOn : outcome ≠ .unparsable) :
      DialCase p id made outcome (p.setDialer id (some {}))
  | inProgress (fd : Nat) (fresh : p.Fresh fd made) :
      DialCase p id made (.inProgress fd) { (p.opened fd).setDialer id (some { fd_ := fd }) with
        ew := p.ew.handleWatch fd .WRONLY (.user (.dialer id)) }
  | connected (fd : Nat) (error : Int) (fresh : p.Fresh fd made) :
      DialCase p id made (.connected fd error)
        (((p.opened fd).setDialer id (some { fd_ := fd })).dialed .loop id made
          (TcpDialer.onWritable { fd_ := fd } error))

theorem Sound.dial_cases (sound : p.Sound) {outcome : DialOutcome}
    (taken : p.dial .loop id outcome made = some next) : DialCase p id made outcome next := by
  unfold Process.dial at taken
  cases there : p.dialers id with
  | none =>
      rw [there] at taken
      cases taken
  | some d =>
      rw [there] at taken
      have opens : ∀ {fd}, outcome.fd = some fd → p.Fresh fd made ∧
          (p.opened fd).dialed .loop id made (d.dial (.dialer id) outcome) = next := by
        intro fd same
        rw [same] at taken
        dsimp only at taken
        split at taken
        · exact ⟨‹_›, Option.some.inj taken⟩
        · cases taken
      cases outcome with
      | unparsable =>
          obtain rfl := Option.some.inj taken
          have same : p.setDialer id (some d) = p := by
            rw [setDialer, ← there, Function.update_eq_self]
          show DialCase p id made .unparsable (p.setDialer id (some d))
          rw [same]
          exact .unparsable
      | noSocket err =>
          obtain rfl := Option.some.inj taken
          exact .gaveUp _ (by simp)
      | blocking fd err =>
          obtain ⟨fresh, rfl⟩ := opens rfl
          rw [TcpDialer.dial, dialed_reclosed _ _ _ _ (sound.quiet fresh.1)]
          exact .gaveUp _ (by simp)
      | refused fd err =>
          obtain ⟨fresh, rfl⟩ := opens rfl
          rw [TcpDialer.dial, dialed_reclosed _ _ _ _ (sound.quiet fresh.1)]
          exact .gaveUp _ (by simp)
      | inProgress fd =>
          obtain ⟨fresh, rfl⟩ := opens rfl
          simp only [dialed, TcpDialer.dial, List.foldl_cons, List.foldl_nil, act, call_watch]
          exact .inProgress fd fresh
      | connected fd error =>
          obtain ⟨fresh, rfl⟩ := opens rfl
          rw [TcpDialer.dial, ← dialed_setDialer (some { fd_ := fd })]
          exact .connected fd error fresh

/-- An attempt that waits for the descriptor to become writable. -/
theorem Sound.attempts (sound : p.Sound) (idle : p.holds (.dialer id) = none)
    (fresh : fd ∉ p.fds) :
    ({ (p.opened fd).setDialer id (some { fd_ := fd }) with
      ew := p.ew.handleWatch fd .WRONLY (.user (.dialer id)) } : Process).Sound := by
  have dials := sound.dials idle fresh
  have held : ((p.opened fd).setDialer id (some { fd_ := fd })).holds (.dialer id) = some fd :=
    held_dialer (Function.update_self ..) rfl
  have watched : Rewatched fd (Entered (.dialer id)) p.ew
      (p.ew.handleWatch fd .WRONLY (.user (.dialer id))) :=
    Rewatched.watch sound.core.consistent ⟨rfl, rfl⟩
  have entries := entries_of_rewatched watched fun _ _ entered => by cases entered.1
  exact dials.recore (dials.core.rewatch held watched)
    (dials.beside held (fun _ same => by cases same) watched) entries rfl rfl rfl rfl rfl

theorem Sound.dial (sound : p.Sound) {outcome : DialOutcome}
    (once : ∀ d, p.dialers id = some d → d.fd_ < 0 ∨ outcome = .unparsable)
    (taken : p.dial .loop id outcome made = some next) : next.Sound := by
  have idle (goesOn : outcome ≠ .unparsable) : p.holds (.dialer id) = none := by
    cases there : p.dialers id with
    | none => rw [holds, there, Option.bind_none]
    | some d =>
        rw [holds_dialer there]
        exact descriptor_negative ((once d there).resolve_right goesOn)
  cases sound.dial_cases taken with
  | unparsable => exact sound
  | gaveUp outcome goesOn =>
      exact sound.idle (idle goesOn) (descriptor_negative minus_one_negative)
  | inProgress fd fresh => exact sound.attempts (idle (by simp)) fresh.1
  | connected fd error fresh =>
      exact (sound.dials (idle (by simp)) fresh.1).onWritable (Function.update_self ..) rfl
        fresh.2 error

theorem Sound.destroyDialer (sound : p.Sound) (taken : p.destroyDialer .loop id = some next) :
    next.Sound := by
  unfold Process.destroyDialer at taken
  cases there : p.dialers id with
  | none =>
      rw [there] at taken
      cases taken
  | some d =>
      rw [there] at taken
      obtain rfl := Option.some.inj taken
      by_cases busy : 0 ≤ d.fd_
      · obtain ⟨fd, owns⟩ := Int.eq_ofNat_of_zero_le busy
        have held := held_dialer there owns
        have core := sound.core.rewatch held (Rewatched.unwatch sound.core.consistent .WRONLY)
        have unwatched := sound.core.unwatched held dialer_flag
        have beside := sound.unwatch_beside held (fun _ same => by cases same) .WRONLY
        rw [owns] at busy
        simp only [TcpDialer.destroy, owns, if_pos busy, List.foldl_cons, List.foldl_nil, act,
          call_unwatch]
        rw [close_open]
        · refine sound.recore ?_ beside (entries_unwatch sound.core.consistent fd .WRONLY)
            rfl rfl rfl rfl rfl
          refine (core.release held unwatched).congr ?_
          exact p.holds_setDialer id none
        · exact (sound.core.open_of_holds held).1
        · exact quiet_of_unlisted core.consistent unwatched
      · simp only [TcpDialer.destroy, if_neg busy, List.foldl_nil]
        refine sound.idle ?_ rfl
        rw [holds_dialer there, descriptor_negative (by omega)]

end Dialers

section Listeners

variable {p next : Process} {id fd : Nat} {made : Made} {l : ListenerMembers}

/-- A listener keeps what is left to do for it, whatever becomes of the others. -/
theorem Sound.relisten (sound : p.Sound) (core : Core next.ew next.fds next.holds)
    (alone : ∀ id t, next.transports id = some t → Alone next.ew id t)
    (listeners : ∀ other, p.listeners other ≠ none → next.listeners other ≠ none)
    (busy : ∀ other, next.Busy other → p.Busy other ∨ next.listeners other ≠ none)
    (unopened : ∀ other l, next.listeners other = some l → Unopened (next.callers other) →
      l.listen_fd_ < 0)
    (unposted : ∀ other, Unposted (next.callers other) →
      .listener other .watch ∉ next.tasks ∧ ¬ Entry next.ew other)
    (inline : ∀ task, .watcher task ∉ next.tasks) (safe : next.fault = p.fault) : next.Sound where
  core
  alone
  busy := by
    intro other after
    rcases busy other after with before | there
    · exact listeners other (sound.busy other before)
    · exact there
  unopened
  unposted
  inline
  safe := safe.trans sound.safe

theorem setListener_present (other : Nat) (value : ListenerMembers)
    (there : p.listeners other ≠ none) :
    (p.setListener id (some value)).listeners other ≠ none := by
  simp only [setListener, Function.update_apply]
  split
  · exact Option.some_ne_none value
  · exact there

/-- A listener that stays where it is changes its members. -/
theorem Sound.setListener (sound : p.Sound) {ew : EventWatcher Handler} {fds : List Nat}
    {value : ListenerMembers}
    (core : Core ew fds (Function.update p.holds (.listener id) (descriptor value.listen_fd_)))
    (alone : ∀ id t, p.transports id = some t → Alone ew id t)
    (entries : ∀ id, Entry ew id → Entry p.ew id)
    (unopened : Unopened (p.callers id) → value.listen_fd_ < 0) :
    ({ p.setListener id (some value) with ew, fds } : Process).Sound := by
  refine sound.relisten (core.congr (p.holds_setListener id (some value))) alone
    (fun other => setListener_present other value) (fun _ before => Or.inl before) ?_ ?_
    sound.inline rfl
  · intro other l' present early
    simp only [Process.setListener, Function.update_apply] at present
    split at present
    · rename_i same
      obtain rfl := Option.some.inj present
      exact unopened (same ▸ early)
    · exact sound.unopened other l' present early
  · intro other early
    obtain ⟨unqueued, unlisted⟩ := sound.unposted other early
    exact ⟨unqueued, fun entry => unlisted (entries other entry)⟩

/-- An object that is not there has no entries. -/
theorem Sound.no_entry (sound : p.Sound) (absent : p.listeners id = none) : ¬ Entry p.ew id := by
  rintro ⟨x, flag, registered⟩
  have held := sound.core.registered registered
  rw [Handler.owner, holds, absent, Option.bind_none] at held
  cases held

theorem Sound.newListener (sound : p.Sound) (absent : p.listeners id = none) :
    ({ p.setListener id (some {}) with
      callers := Function.update p.callers id .notCalled } : Process).Sound := by
  have idle : p.holds (.listener id) = none := by rw [holds, absent, Option.bind_none]
  refine sound.relisten (sound.core.congr ?_) sound.alone
    (fun other => setListener_present other {}) ?_ ?_ ?_ sound.inline rfl
  · exact (p.holds_setListener id (some {})).trans (update_same idle)
  · intro other after
    by_cases same : other = id
    · subst same
      refine Or.inr ?_
      simp only [Process.setListener, Function.update_self, ne_eq, reduceCtorEq,
        not_false_eq_true]
    · refine Or.inl ?_
      simp only [Busy, Process.setListener, Function.update_of_ne same] at after
      exact after
  · intro other l present early
    simp only [Process.setListener, Function.update_apply] at present early
    split at present
    · obtain rfl := Option.some.inj present
      decide
    · rename_i apart
      rw [if_neg apart] at early
      exact sound.unopened other l present early
  · intro other early
    by_cases same : other = id
    · subst same
      refine ⟨fun queued => ?_, sound.no_entry absent⟩
      exact sound.busy other (Or.inl ⟨.watch, queued⟩) absent
    · simp only [Function.update_of_ne same] at early
      exact sound.unposted other early

theorem mem_push {closure new : Closure} (among : closure ∈ (p.push new).tasks) :
    closure ∈ p.tasks ∨ closure = new := by
  simp only [push] at among
  split at among
  · rcases List.mem_append.mp among with before | last
    · exact Or.inl before
    · exact Or.inr (List.mem_singleton.mp last)
  · exact Or.inl among

/-- The thread in `listenAndWait()` of a listener goes on, and may post a closure. -/
theorem Sound.recall (sound : p.Sound) (there : p.listeners id = some l) (stage : Listening)
    (opened : ¬ Unopened stage) {tasks : List Closure} {pushes : Nat}
    (own : ∀ closure ∈ tasks, closure ∈ p.tasks ∨ ∃ task, closure = .listener id task)
    (unposted : Unposted stage → .listener id .watch ∉ tasks ∧ ¬ Entry p.ew id) :
    ({ p with callers := Function.update p.callers id stage, tasks, pushes } : Process).Sound := by
  refine sound.relisten sound.core sound.alone (fun _ there => there) ?_ ?_ ?_ ?_ rfl
  · intro other after
    by_cases same : other = id
    · subst same
      exact Or.inr (by rw [there]; exact Option.some_ne_none l)
    · refine Or.inl ?_
      rcases after with ⟨task, among⟩ | frame | thread
      · rcases own _ among with before | ⟨task', new⟩
        · exact Or.inl ⟨task, before⟩
        · exact absurd (Closure.listener.inj new).1 same
      · exact Or.inr (Or.inl frame)
      · dsimp only at thread
        rw [Function.update_of_ne same] at thread
        exact Or.inr (Or.inr thread)
  · intro other l' present early
    simp only [Function.update_apply] at early
    split at early
    · exact absurd early opened
    · exact sound.unopened other l' present early
  · intro other early
    simp only [Function.update_apply] at early
    split at early
    · rename_i same
      exact same ▸ unposted early
    · rename_i apart
      obtain ⟨unqueued, unlisted⟩ := sound.unposted other early
      refine ⟨fun queued => ?_, unlisted⟩
      rcases own _ queued with before | ⟨task, new⟩
      · exact unqueued before
      · exact apart (Closure.listener.inj new).1
  · intro task queued
    rcases own _ queued with before | ⟨task', new⟩
    · exact sound.inline task before
    · cases new

/-- The thread in `listenAndWait()` comes to its next system call. -/
theorem Sound.advance (sound : p.Sound) (there : p.listeners id = some l) {fds : List Nat}
    {value : ListenerMembers} {stage : Listening} (before : Unposted (p.callers id))
    (unopened : Unopened stage → value.listen_fd_ < 0)
    (core : Core p.ew fds (Function.update p.holds (.listener id) (descriptor value.listen_fd_))) :
    ({ p.setListener id (some value) with
      fds, callers := Function.update p.callers id stage } : Process).Sound := by
  refine sound.relisten (core.congr (p.holds_setListener id (some value))) sound.alone
    (fun other => setListener_present other value) ?_ ?_ ?_ sound.inline rfl
  · intro other after
    by_cases same : other = id
    · subst same
      exact Or.inr (setListener_present other value (by rw [there]; exact Option.some_ne_none l))
    · refine Or.inl ?_
      simp only [Busy, Process.setListener, Function.update_of_ne same] at after
      exact after
  · intro other l' present early
    simp only [Process.setListener, Function.update_apply] at present early
    split at present
    · rename_i same
      obtain rfl := Option.some.inj present
      rw [if_pos same] at early
      exact unopened early
    · rename_i apart
      rw [if_neg apart] at early
      exact sound.unopened other l' present early
  · intro other early
    simp only [Function.update_apply] at early
    split at early
    · rename_i same
      exact same ▸ sound.unposted id before
    · exact sound.unposted other early

theorem Sound.listen (sound : p.Sound) (taken : p.listen id = some next) : next.Sound := by
  unfold Process.listen at taken
  split at taken
  · rename_i l there quiet
    obtain rfl := Option.some.inj taken
    have negative := sound.unopened id l there (Or.inl quiet)
    have same : p.setListener id (some l) = p := by
      rw [Process.setListener, ← there, Function.update_eq_self]
    have called : ({ p.setListener id (some l) with
        callers := Function.update p.callers id .parseAddress } : Process).Sound := by
      refine sound.advance there ?_ (fun _ => negative) ?_
      · simp only [Unposted, quiet, ne_eq, reduceCtorEq, not_false_eq_true, and_self]
      · exact sound.core.congr (update_same (holds_listener there))
    rw [same] at called
    exact called
  · cases taken

/-- A listener's own descriptor has no entries before the closure that watches is posted. -/
theorem Sound.unlisted (sound : p.Sound) (held : p.holds (.listener id) = some fd)
    (before : Unposted (p.callers id)) (flag : WatchFlag) : p.ew.registered fd flag = none := by
  cases registered : p.ew.registered fd flag with
  | none => rfl
  | some callback =>
      obtain ⟨rfl, -⟩ := sound.core.entry_listener held registered
      exact absurd ⟨fd, flag, registered⟩ (sound.unposted id before).2

/-- A system call fails: the descriptor is closed, if it has not been already. -/
theorem Sound.setupFailed (sound : p.Sound) (there : p.listeners id = some l)
    (before : Unposted (p.callers id)) (err : Int) :
    ({ (p.close l.listen_fd_).setListener id (some { l with listen_fd_ := -1 }) with
      callers := Function.update (p.close l.listen_fd_).callers id (.postFailed err) } :
        Process).Sound := by
  have unopened : Unopened (.postFailed err) → (-1 : Int) < 0 := fun _ => minus_one_negative
  by_cases negative : l.listen_fd_ < 0
  · rw [close, if_pos negative]
    refine sound.advance there before unopened (sound.core.congr ?_)
    refine update_same ?_
    rw [holds_listener there, descriptor_negative negative]
    exact (descriptor_negative minus_one_negative).symm
  · obtain ⟨fd, owns⟩ := Int.eq_ofNat_of_zero_le (not_lt.mp negative)
    have held := held_listener there owns
    have unlisted := sound.unlisted held before
    rw [owns, close_open _ (sound.core.open_of_holds held).1
      (quiet_of_unlisted sound.core.consistent unlisted)]
    refine sound.advance there before unopened ?_
    exact sound.core.release held unlisted

/-- `listenAndWait()` has a socket and works on it. -/
def Configures (stage : Listening) : Prop :=
  stage = .setSockOptNonBlocking ∨ stage = .sockBind ∨ stage = .sockListen ∨
    stage = .getSockOptHostPort

/-- What a system call of `listenAndWait()` comes to. -/
inductive SetupCase (a : TcpListener) : SetupOutcome → TcpListener → Prop
  | parsed (outcome : SetupOutcome) (stage : Listening) (here : a.listening = .parseAddress) :
      SetupCase a outcome { a with listening := stage }
  | noSocket (err : Int) (here : a.listening = .makeSockTcp) :
      SetupCase a (.failed err) { a with listen_fd_ := -1, listening := .postFailed err }
  | socket (fd : Nat) (address : String) (here : a.listening = .makeSockTcp) :
      SetupCase a (.ok fd address)
        { a with listen_fd_ := fd, listening := .setSockOptNonBlocking }
  | configured (fd : Nat) (address : String) (stage : Listening) (here : Configures a.listening)
      (opened : ¬ Unopened stage) : SetupCase a (.ok fd address) { a with listening := stage }
  | failed (err : Int) (here : Configures a.listening) :
      SetupCase a (.failed err) { a with listen_fd_ := -1, listening := .postFailed err }

theorem setup_cases {a after : TcpListener} {outcome : SetupOutcome}
    (goes : a.setup outcome = some after) : SetupCase a outcome after := by
  unfold TcpListener.setup at goes
  split at goes
  · obtain rfl := Option.some.inj goes
    exact .parsed _ _ ‹_›
  · obtain rfl := Option.some.inj goes
    exact .parsed _ _ ‹_›
  · obtain rfl := Option.some.inj goes
    exact .noSocket _ ‹_›
  · obtain rfl := Option.some.inj goes
    exact .socket _ _ ‹_›
  · obtain rfl := Option.some.inj goes
    exact .failed _ (Or.inl ‹_›)
  · obtain rfl := Option.some.inj goes
    exact .failed _ (Or.inr (Or.inl ‹_›))
  · obtain rfl := Option.some.inj goes
    exact .failed _ (Or.inr (Or.inr (Or.inl ‹_›)))
  · obtain rfl := Option.some.inj goes
    exact .failed _ (Or.inr (Or.inr (Or.inr ‹_›)))
  · obtain rfl := Option.some.inj goes
    exact .configured _ _ _ (Or.inl ‹_›) (by simp [Unopened])
  · obtain rfl := Option.some.inj goes
    exact .configured _ _ _ (Or.inr (Or.inl ‹_›)) (by simp [Unopened])
  · obtain rfl := Option.some.inj goes
    exact .configured _ _ _ (Or.inr (Or.inr (Or.inl ‹_›))) (by simp [Unopened])
  · obtain rfl := Option.some.inj goes
    exact .configured _ _ _ (Or.inr (Or.inr (Or.inr ‹_›))) (by simp [Unopened])
  · cases goes

theorem SetupCase.stage {a after : TcpListener} {outcome : SetupOutcome}
    (case : SetupCase a outcome after) : a.listening ≠ .notCalled ∧ Unposted a.listening := by
  have configures (here : Configures a.listening) :
      a.listening ≠ .notCalled ∧ Unposted a.listening := by
    rcases here with here | here | here | here <;> rw [here] <;> simp [Unposted]
  cases case with
  | parsed outcome stage here => rw [here]; simp [Unposted]
  | noSocket err here => rw [here]; simp [Unposted]
  | socket fd address here => rw [here]; simp [Unposted]
  | configured fd address stage here opened => exact configures here
  | failed err here => exact configures here

theorem setupFds_configures {stage : Listening} (here : Configures stage) :
    (∀ err, p.setupFds l stage (.failed err) = some (p.close l.listen_fd_)) ∧
      ∀ fd address, p.setupFds l stage (.ok fd address) =
        if 0 ≤ l.listen_fd_ then some p else none := by
  rcases here with rfl | rfl | rfl | rfl <;> exact ⟨fun _ => rfl, fun _ _ => rfl⟩

theorem Sound.setup (sound : p.Sound) {outcome : SetupOutcome}
    (taken : p.setup id outcome = some next) : next.Sound := by
  unfold Process.setup at taken
  cases there : p.listeners id with
  | none =>
      rw [there] at taken
      obtain ⟨after, goes, -⟩ := Option.map_eq_some_iff.mp taken
      obtain ⟨called, before⟩ := (setup_cases goes).stage
      exact absurd there (sound.busy id (Or.inr (Or.inr ⟨called, before.2⟩)))
  | some l =>
      rw [there] at taken
      obtain ⟨after, goes, taken⟩ := Option.bind_eq_some_iff.mp taken
      obtain ⟨q, fds, rfl⟩ := Option.map_eq_some_iff.mp taken
      have case := setup_cases goes
      have before : Unposted (p.callers id) := case.stage.2
      have held := holds_listener there
      cases case with
      | parsed _ stage here =>
          have here : p.callers id = .parseAddress := here
          rw [here] at fds
          obtain rfl := Option.some.inj fds
          refine sound.advance there before (fun _ => ?_) (sound.core.congr (update_same held))
          exact sound.unopened id l there (Or.inr (Or.inl here))
      | noSocket err here =>
          have here : p.callers id = .makeSockTcp := here
          rw [here] at fds
          obtain rfl := Option.some.inj fds
          refine sound.advance there before (fun _ => minus_one_negative) (sound.core.congr ?_)
          have negative := sound.unopened id l there (Or.inr (Or.inr here))
          rw [descriptor_negative negative] at held
          exact update_same (held.trans (descriptor_negative minus_one_negative).symm)
      | socket fd address here =>
          have here : p.callers id = .makeSockTcp := here
          rw [here] at fds
          simp only [setupFds] at fds
          split at fds
          · rename_i fresh
            obtain rfl := Option.some.inj fds
            have negative := sound.unopened id l there (Or.inr (Or.inr here))
            rw [descriptor_negative negative] at held
            refine sound.advance there before (fun early => ?_) ?_
            · simp [Unopened] at early
            · rw [descriptor_nat]
              exact sound.core.acquire held fresh
          · cases fds
      | configured fd address stage here opened =>
          have here : Configures (p.callers id) := here
          rw [(setupFds_configures here).2] at fds
          split at fds
          · obtain rfl := Option.some.inj fds
            exact sound.advance there before (fun early => absurd early opened)
              (sound.core.congr (update_same held))
          · cases fds
      | failed err here =>
          have here : Configures (p.callers id) := here
          rw [(setupFds_configures here).1] at fds
          obtain rfl := Option.some.inj fds
          exact sound.setupFailed there before err

theorem posting_eq {stage after : Listening} {task : ListenerTask}
    (posts : TcpListener.posting stage = some (task, after)) :
    stage ≠ .notCalled ∧ Unposted stage ∧ ¬ Unopened after ∧
      (Unposted after → task ≠ .watch) := by
  cases stage with
  | postFailed err => cases posts; simp [Unposted, Unopened]
  | postStarted address => cases posts; simp [Unposted, Unopened]
  | postWatch => cases posts; simp [Unposted, Unopened]
  | _ => cases posts

theorem Sound.present (sound : p.Sound) (busy : p.Busy id) : ∃ l, p.listeners id = some l :=
  Option.ne_none_iff_exists'.mp (sound.busy id busy)

theorem Sound.post (sound : p.Sound) (taken : p.post id = some next) : next.Sound := by
  unfold Process.post at taken
  split at taken
  · cases taken
  · rename_i task after posts
    obtain ⟨called, before, opened, other⟩ := posting_eq posts
    obtain ⟨l, there⟩ := sound.present (Or.inr (Or.inr ⟨called, before.2⟩))
    rw [if_neg (by rw [there]; exact Option.some_ne_none l)] at taken
    obtain rfl := Option.some.inj taken
    refine sound.recall there after opened ?_ ?_
    · intro closure among
      exact (mem_push among).imp_right fun new => ⟨task, new⟩
    · intro early
      obtain ⟨unqueued, unlisted⟩ := sound.unposted id before
      refine ⟨fun queued => ?_, unlisted⟩
      rcases mem_push queued with earlier | new
      · exact unqueued earlier
      · exact other early (Closure.listener.inj new).2.symm

theorem Sound.released (sound : p.Sound) (taken : p.released id = some next) : next.Sound := by
  unfold Process.released at taken
  split at taken
  · rename_i waits
    have busy : p.Busy id := by
      refine Or.inr (Or.inr ?_)
      rw [waits]
      simp
    obtain ⟨l, there⟩ := sound.present busy
    rw [there] at taken
    dsimp only at taken
    split at taken
    · obtain rfl := Option.some.inj taken
      exact sound.recall there .returned (by simp [Unopened]) (fun _ before => Or.inl before)
        (fun early => absurd rfl early.2)
    · cases taken
  · cases taken

theorem Sound.closeListener (sound : p.Sound) (there : p.listeners id = some l) :
    (p.closeListener id l).Sound := by
  unfold Process.closeListener
  by_cases busy : 0 ≤ l.listen_fd_
  · obtain ⟨fd, owns⟩ := Int.eq_ofNat_of_zero_le busy
    have held := held_listener there owns
    have core := sound.core.rewatch held (Rewatched.unwatch sound.core.consistent .RDONLY)
    have unwatched := sound.core.unwatched held listener_flag
    have beside := sound.unwatch_beside held (fun _ same => by cases same) .RDONLY
    rw [if_pos busy, owns, call_unwatch, close_open]
    · refine sound.setListener ?_ beside (entries_unwatch sound.core.consistent fd .RDONLY)
        (fun _ => minus_one_negative)
      exact core.release held unwatched
    · exact (sound.core.open_of_holds held).1
    · exact quiet_of_unlisted core.consistent unwatched
  · rw [if_neg busy]
    exact sound

/-- A member function of a listener that is there begins. -/
theorem Sound.enter (sound : p.Sound) (there : p.listeners id ≠ none) (frame : Frame) :
    ({ p with stack := (id, frame) :: p.stack } : Process).Sound := by
  refine sound.relisten sound.core sound.alone (fun _ there => there) ?_ sound.unopened
    sound.unposted sound.inline rfl
  intro other after
  rcases after with task | ⟨frame', among⟩ | thread
  · exact Or.inl (Or.inl task)
  · rcases List.mem_cons.mp among with new | before
    · rw [(Prod.mk.inj new).1]
      exact Or.inr there
    · exact Or.inl (Or.inr (Or.inl ⟨frame', before⟩))
  · exact Or.inl (Or.inr (Or.inr thread))

/-- What is still to do is less. -/
theorem Sound.fewer (sound : p.Sound) {tasks : List Closure} {stack : List (Nat × Frame)}
    (fewer : ∀ closure ∈ tasks, closure ∈ p.tasks)
    (lower : ∀ entry ∈ stack, ∃ frame, (entry.1, frame) ∈ p.stack) :
    ({ p with tasks, stack } : Process).Sound := by
  refine sound.relisten sound.core sound.alone (fun _ there => there) ?_ sound.unopened ?_
    (fun task queued => sound.inline task (fewer _ queued)) rfl
  · intro other after
    rcases after with ⟨task, among⟩ | ⟨frame, among⟩ | thread
    · exact Or.inl (Or.inl ⟨task, fewer _ among⟩)
    · exact Or.inl (Or.inr (Or.inl (lower _ among)))
    · exact Or.inl (Or.inr (Or.inr thread))
  · intro other early
    obtain ⟨unqueued, unlisted⟩ := sound.unposted other early
    exact ⟨fun queued => unqueued (fewer _ queued), unlisted⟩

/-- The closure that watches is only run when `listenAndWait()` has posted it. -/
theorem Sound.watches (sound : p.Sound) (there : p.listeners id = some l)
    (posted : ¬ Unposted (p.callers id)) :
    (p.call .loop (.watch l.listen_fd_ .RDONLY (.listener id))).Sound := by
  by_cases negative : l.listen_fd_ < 0
  · simp only [call, Call.inline, Call.task, if_pos negative]
    exact sound
  · obtain ⟨fd, owns⟩ := Int.eq_ofNat_of_zero_le (not_lt.mp negative)
    have held := held_listener there owns
    rw [owns, call_watch]
    have watched : Rewatched fd (Entered (.listener id)) p.ew
        (p.ew.handleWatch fd .RDONLY (.user (.listener id))) :=
      Rewatched.watch sound.core.consistent ⟨rfl, rfl⟩
    refine sound.relisten (sound.core.rewatch held watched)
      (sound.beside held (fun _ same => by cases same) watched) (fun _ there => there)
      (fun _ before => Or.inl before) sound.unopened ?_ sound.inline rfl
    intro other early
    obtain ⟨unqueued, unlisted⟩ := sound.unposted other early
    refine ⟨unqueued, ?_⟩
    rintro ⟨x, flag, registered⟩
    rw [sound.core.consistent.tidy.registered_handleWatch] at registered
    split at registered
    · obtain rfl := Handler.listener.inj (WatchCallback.user.inj (Option.some.inj registered))
      exact posted early
    · exact unlisted ⟨x, flag, registered⟩

theorem Sound.runTask (sound : p.Sound) (there : p.listeners id = some l) {task : ListenerTask}
    (posted : task = .watch → ¬ Unposted (p.callers id)) : (p.runTask id task).Sound := by
  have present : p.listeners id ≠ none := by
    rw [there]
    exact Option.some_ne_none l
  unfold Process.runTask
  rw [there]
  cases task with
  | failed err => exact sound.enter present .countDown
  | started address => exact sound
  | watch => exact sound.watches there (posted rfl)
  | shutdown =>
      refine (sound.closeListener there).enter ?_ .countDown
      unfold Process.closeListener close
      split
      · split
        · exact setListener_present id _ present
        · split <;> exact setListener_present id _ present
      · exact present

theorem Sound.shutdown (sound : p.Sound) (taken : p.shutdown .loop id = some next) :
    next.Sound := by
  unfold Process.shutdown at taken
  obtain ⟨l, there, rfl⟩ := Option.map_eq_some_iff.mp taken
  exact sound.runTask there nofun

theorem Sound.task (sound : p.Sound) (taken : p.task = some next) : next.Sound := by
  unfold Process.task at taken
  split at taken
  · cases taken
  · rename_i task tasks queue
    exact absurd (by rw [queue]; exact List.mem_cons_self) (sound.inline task)
  · rename_i id first tasks queue
    obtain rfl := Option.some.inj taken
    have among : .listener id first ∈ p.tasks := by
      rw [queue]
      exact List.mem_cons_self
    obtain ⟨l, there⟩ := sound.present (Or.inl ⟨first, among⟩)
    have rest : ({ p with tasks } : Process).Sound := by
      refine sound.fewer (fun closure later => ?_) (fun entry later => ⟨entry.2, later⟩)
      rw [queue]
      exact List.mem_cons_of_mem _ later
    refine rest.runTask there ?_
    rintro rfl early
    exact (sound.unposted id early).1 among

/-- A new descriptor goes to a new transport. -/
theorem Sound.makeTransport (sound : p.Sound) (fresh : p.Fresh fd made) :
    ((p.opened fd).makeTransport fd made).Sound := by
  have unwatched := sound.core.unlisted fresh.1
  have apart : fd ≠ p.ew.eventfd := fun same => fresh.1 (same ▸ sound.core.eventfd)
  refine sound.recore ?_ (alone_made sound.alone (alone_start apart unwatched made.alloc))
    (fun _ entry => entry) rfl rfl rfl rfl rfl
  refine (sound.core.acquire (holds_no_transport fresh.2) fresh.1).congr ?_
  exact holds_setTransport _ _ _

theorem Sound.accept (sound : p.Sound) {outcome : AcceptOutcome}
    (taken : p.accept outcome made = some next) : next.Sound := by
  unfold Process.accept at taken
  split at taken
  · rename_i id left stack top
    have here : (id, .accept (left + 1)) ∈ p.stack := by
      rw [top]
      exact List.mem_cons_self
    obtain ⟨l, there⟩ := sound.present (Or.inr (Or.inl ⟨_, here⟩))
    rw [there] at taken
    dsimp only at taken
    have rest : ({ p with
        stack :=
          if (TcpListener.acceptTurn outcome).2 then (id, .accept left) :: stack else stack } :
            Process).Sound := by
      refine sound.fewer (fun _ before => before) (fun entry after => ?_)
      split at after
      · rcases List.mem_cons.mp after with rfl | later
        · exact ⟨_, here⟩
        · exact ⟨entry.2, by rw [top]; exact List.mem_cons_of_mem _ later⟩
      · exact ⟨entry.2, by rw [top]; exact List.mem_cons_of_mem _ after⟩
    cases outcome with
    | failed err =>
        obtain rfl := Option.some.inj taken
        obtain ⟨effects, again, turn, case⟩ := TcpListener.acceptTurn_cases (.failed err)
        rw [turn] at rest ⊢
        cases case with
        | interrupted => exact rest
        | transient err interrupted transient => exact rest
        | broken err interrupted transient => exact rest
    | accepted fd nonBlocking =>
        dsimp only at taken
        split at taken
        · rename_i possible
          obtain rfl := Option.some.inj taken
          cases nonBlocking with
          | true =>
              rw [TcpListener.acceptTurn_accepted] at rest ⊢
              exact rest.makeTransport possible.2
          | false =>
              rw [TcpListener.acceptTurn_refused] at rest ⊢
              simp only [List.foldl_cons, List.foldl_nil, accepted]
              rw [close_open]
              · simp only [opened, List.erase_cons_head]
                exact rest
              · exact List.mem_cons_self
              · exact sound.quiet possible.2.1
        · cases taken
  · cases taken

theorem Sound.resume (sound : p.Sound) (taken : p.resume = some next) : next.Sound := by
  unfold Process.resume at taken
  split at taken
  · rename_i id stack top
    obtain rfl := Option.some.inj taken
    refine sound.fewer (fun _ before => before) (fun entry later => ⟨entry.2, ?_⟩)
    rw [top]
    exact List.mem_cons_of_mem _ later
  · rename_i id stack top
    have here : (id, .countDown) ∈ p.stack := by
      rw [top]
      exact List.mem_cons_self
    obtain ⟨l, there⟩ := sound.present (Or.inr (Or.inl ⟨_, here⟩))
    rw [there] at taken
    obtain rfl := Option.some.inj taken
    have counted : (p.setListener id (some { l with latch := l.latch - 1 })).Sound := by
      have held : p.holds (.listener id) = descriptor l.listen_fd_ := holds_listener there
      exact sound.setListener (sound.core.congr (update_same held)) sound.alone
        (fun _ entry => entry) (sound.unopened id l there)
    refine counted.fewer (fun _ before => before) (fun entry later => ⟨entry.2, ?_⟩)
    show _ ∈ p.stack
    rw [top]
    exact List.mem_cons_of_mem _ later
  · cases taken

/-- The watcher may still call a listener. -/
def Watched (p : Process) (id : Nat) : Prop :=
  ∃ l, p.listeners id = some l ∧ 0 ≤ l.listen_fd_ ∧
    p.ew.registered l.listen_fd_.toNat .RDONLY = some (.user (.listener id))

/-- `~TcpListener()` does not `unwatch`. -/
theorem Sound.destroyListener (sound : p.Sound) (rests : ¬ p.Busy id)
    (unwatched : ¬ p.Watched id) (taken : p.destroyListener id = some next) : next.Sound := by
  unfold Process.destroyListener at taken
  cases there : p.listeners id with
  | none =>
      rw [there] at taken
      cases taken
  | some l =>
      rw [there] at taken
      obtain rfl := Option.some.inj taken
      have others : ∀ {q : Process}, q.listeners = Function.update p.listeners id none →
          q.callers = p.callers → q.tasks = p.tasks → q.stack = p.stack → q.ew = p.ew →
          q.fault = p.fault → Core q.ew q.fds q.holds →
          (∀ id t, q.transports id = some t → Alone q.ew id t) → q.Sound := by
        intro q listeners callers tasks stack ew safe core alone
        refine ⟨core, alone, ?_, ?_, ?_, ?_, safe.trans sound.safe⟩
        · intro other after
          simp only [Busy, callers, tasks, stack] at after
          have apart : other ≠ id := fun same => rests (same ▸ after)
          rw [listeners, Function.update_of_ne apart]
          exact sound.busy other after
        · intro other l' present early
          rw [listeners, Function.update_apply] at present
          split at present
          · cases present
          · exact sound.unopened other l' present (callers ▸ early)
        · rw [callers, tasks, ew]
          exact sound.unposted
        · rw [tasks]
          exact sound.inline
      by_cases held : 0 ≤ l.listen_fd_
      · obtain ⟨fd, owns⟩ := Int.eq_ofNat_of_zero_le held
        have holds := held_listener there owns
        have none : ∀ flag, p.ew.registered fd flag = none := by
          intro flag
          cases registered : p.ew.registered fd flag with
          | none => rfl
          | some callback =>
              obtain ⟨rfl, rfl⟩ := sound.core.entry_listener holds registered
              refine absurd ⟨l, there, held, ?_⟩ unwatched
              rw [owns]
              exact registered
        dsimp only
        rw [if_pos held, owns, close_open]
        · refine others rfl rfl rfl rfl rfl rfl ((sound.core.release holds none).congr ?_)
            sound.alone
          exact p.holds_setListener id .none
        · exact (sound.core.open_of_holds holds).1
        · exact quiet_of_unlisted sound.core.consistent none
      · dsimp only
        rw [if_neg held]
        refine others rfl rfl rfl rfl rfl rfl (sound.core.congr ?_) sound.alone
        rw [holds_setListener]
        refine update_same ?_
        rw [holds_listener there, descriptor_negative (not_le.mp held), Option.bind_none]

end Listeners

section Transports

variable {p next : Process} {id : Nat}

/-- The calls of a transport on its own descriptor enter its own handlers. -/
theorem rewatched_calls {fd : Nat} {calls : List (Call TransportCallback)}
    (own : ∀ call ∈ calls, Transport.Own fd call) {ew : EventWatcher Handler}
    (consistent : ew.Consistent) : Rewatched fd (Entered (.transport id)) ew
      (Call.inlineAll (calls.map (Call.map (Handler.transport id))) ew) := by
  induction calls generalizing ew with
  | nil => exact Rewatched.refl consistent
  | cons call calls ih =>
      have first : Rewatched fd (Entered (.transport id)) ew
          ((Call.map (Handler.transport id) call).inline ew) := by
        rcases own call List.mem_cons_self with rfl | rfl | ⟨flag, rfl⟩
        · rw [Call.map, Call.inline_watch]
          exact Rewatched.watch consistent ⟨rfl, rfl⟩
        · rw [Call.map, Call.inline_watch]
          exact Rewatched.watch consistent ⟨rfl, rfl⟩
        · rw [Call.map, Call.inline_unwatch]
          exact Rewatched.unwatch consistent flag
      exact first.trans (ih (fun other later => own other (List.mem_cons_of_mem _ later))
        first.consistent)

/-- `~AbstractEventLoopTransport()` leaves nothing registered. -/
theorem unwatched_destroy {fd : Nat} {ew : EventWatcher Handler} (consistent : ew.Consistent)
    (flag : WatchFlag) :
    ((ew.handleUnwatch fd .RDONLY).handleUnwatch fd .WRONLY).registered fd flag = none := by
  rw [(consistent.handleUnwatch fd .RDONLY).tidy.registered_handleUnwatch,
    consistent.tidy.registered_handleUnwatch]
  cases flag <;> simp

/-- A call of a transport does on the shared watcher what it would do on its own. -/
theorem echoes_call {fd : Nat} {call : Call TransportCallback} (own : Transport.Own fd call)
    {ew : EventWatcher Handler} {lone : EventWatcher TransportCallback}
    (consistent : ew.Consistent) (alone : lone.Consistent)
    (echoes : ∀ flag, ew.registered fd flag = (lone.registered fd flag).map (shared id))
    (flag : WatchFlag) : ((Call.map (Handler.transport id) call).inline ew).registered fd flag =
      ((call.inline lone).registered fd flag).map (shared id) := by
  have watches : ∀ flag' name, ((Call.map (Handler.transport id)
      (.watch fd flag' name)).inline ew).registered fd flag =
        (((Call.watch fd flag' name).inline lone).registered fd flag).map (shared id) := by
    intro flag' name
    rw [Call.map, Call.inline_watch, Call.inline_watch, consistent.tidy.registered_handleWatch,
      alone.tidy.registered_handleWatch]
    split
    · rfl
    · exact echoes flag
  rcases own with rfl | rfl | ⟨flag', rfl⟩
  · exact watches .WRONLY .onWritable
  · exact watches .RDONLY .onReadable
  · rw [Call.map, Call.inline_unwatch, Call.inline_unwatch,
      consistent.tidy.registered_handleUnwatch, alone.tidy.registered_handleUnwatch]
    split
    · rfl
    · exact echoes flag

theorem inline_consistent {κ : Type} {fd : Nat} {call : Call TransportCallback}
    (own : Transport.Own fd call) (name : TransportCallback → κ) {ew : EventWatcher κ}
    (consistent : ew.Consistent) : ((Call.map name call).inline ew).Consistent := by
  rcases own with rfl | rfl | ⟨flag, rfl⟩
  · rw [Call.map, Call.inline_watch]
    exact consistent.handleWatch ..
  · rw [Call.map, Call.inline_watch]
    exact consistent.handleWatch ..
  · rw [Call.map, Call.inline_unwatch]
    exact consistent.handleUnwatch ..

theorem map_id (call : Call TransportCallback) :
    Call.map (fun callback => callback) call = call := by
  cases call <;> rfl

theorem echoes_calls {fd : Nat} {calls : List (Call TransportCallback)}
    (own : ∀ call ∈ calls, Transport.Own fd call) {ew : EventWatcher Handler}
    {lone : EventWatcher TransportCallback} (consistent : ew.Consistent) (alone : lone.Consistent)
    (echoes : ∀ flag, ew.registered fd flag = (lone.registered fd flag).map (shared id)) :
    (Call.inlineAll calls lone).Consistent ∧ ∀ flag,
      (Call.inlineAll (calls.map (Call.map (Handler.transport id))) ew).registered fd flag =
        ((Call.inlineAll calls lone).registered fd flag).map (shared id) := by
  induction calls generalizing ew lone with
  | nil => exact ⟨alone, echoes⟩
  | cons call calls ih =>
      have first := own call List.mem_cons_self
      refine ih (fun other later => own other (List.mem_cons_of_mem _ later))
        (inline_consistent first _ consistent) ?_ (echoes_call first consistent alone echoes)
      have kept := inline_consistent first (fun callback => callback) alone
      rwa [map_id] at kept

/-- An operation of a transport is a step of the one on its own. -/
theorem Alone.perform {ew : EventWatcher Handler} {t after : Transport.State} {op : Transport.Op}
    (alone : Alone ew id t) (consistent : ew.Consistent) (goesOn : op ≠ .destroy)
    (stepped : Transport.step t op = some after) : after.transport.fd = t.transport.fd ∧
      Alone (Call.inlineAll ((t.transport.calls op).map (Call.map (Handler.transport id))) ew) id
        after := by
  obtain ⟨alloc, ops, run⟩ := alone.run
  have longer := run.snoc stepped
  have rewatched : Rewatched t.transport.fd (Entered (.transport id)) ew
      (Call.inlineAll ((t.transport.calls op).map (Call.map (Handler.transport id))) ew) :=
    rewatched_calls (t.transport.calls_own op) consistent
  obtain ⟨kept, echoes⟩ := echoes_calls (t.transport.calls_own op) consistent alone.consistent
    alone.echoes
  obtain ⟨fd, behind⟩ := t.transport.perform_calls op
  unfold Transport.step at stepped
  split at stepped
  · cases stepped
  · obtain rfl := Option.some.inj stepped
    refine ⟨fd, ⟨?_, ?_, ?_, ?_⟩⟩
    · rw [rewatched.eventfd]
      exact ⟨alloc, ops ++ [op], by rw [fd]; exact longer⟩
    · cases op with
      | destroy => exact absurd rfl goesOn
      | _ => rfl
    · rw [behind]
      exact kept
    · intro flag
      rw [fd, behind]
      exact echoes flag

theorem Sound.transports_apart (sound : p.Sound) {other : Nat} {t t' : Transport.State}
    (there : p.transports id = some t) (present : p.transports other = some t')
    (apart : other ≠ id) : t'.transport.fd ≠ t.transport.fd := by
  intro same
  have held : p.holds (.transport other) = some t.transport.fd := same ▸ holds_transport present
  have owner : Owner.transport other = .transport id :=
    sound.core.custody.apart held (holds_transport there)
  exact apart (Owner.transport.inj owner)

theorem Sound.setTransport (sound : p.Sound) {t after : Transport.State} {op : Transport.Op}
    (there : p.transports id = some t) (goesOn : op ≠ .destroy)
    (stepped : Transport.step t op = some after) :
    (({ p with
        ew := Call.inlineAll ((t.transport.calls op).map (Call.map (Handler.transport id))) p.ew } :
          Process).setTransport id (some after)).Sound := by
  have held := holds_transport there
  obtain ⟨fd, alone⟩ := (sound.alone id t there).perform sound.core.consistent goesOn stepped
  have rewatched : Rewatched t.transport.fd (Entered (.transport id)) p.ew
      (Call.inlineAll ((t.transport.calls op).map (Call.map (Handler.transport id))) p.ew) :=
    rewatched_calls (t.transport.calls_own op) sound.core.consistent
  have entries := entries_of_rewatched rewatched fun _ _ entered => by cases entered.1
  refine sound.recore ?_ ?_ entries rfl rfl rfl rfl rfl
  · refine (sound.core.rewatch held rewatched).congr ?_
    rw [holds_setTransport, Option.map_some, fd]
    exact update_same held
  · intro other t' present
    simp only [Process.setTransport, Function.update_apply] at present
    split at present
    · rename_i same
      obtain rfl := Option.some.inj present
      exact same ▸ alone
    · rename_i apart
      exact (sound.alone other t' present).rewatch rewatched
        (sound.transports_apart there present apart)

theorem Sound.perform (sound : p.Sound) {op : Transport.Op}
    (taken : p.perform .loop id op = some next) : next.Sound := by
  unfold Process.perform at taken
  obtain ⟨t, there, taken⟩ := Option.bind_eq_some_iff.mp taken
  obtain ⟨after, stepped, taken⟩ := Option.map_eq_some_iff.mp taken
  rw [foldl_call] at taken
  cases op with
  | destroy =>
      have held := holds_transport there
      have rewatched : Rewatched t.transport.fd (Entered (.transport id)) p.ew
          (Call.inlineAll ((t.transport.calls .destroy).map (Call.map (Handler.transport id)))
            p.ew) := rewatched_calls (t.transport.calls_own .destroy) sound.core.consistent
      have others : ∀ other t', Function.update p.transports id none other = some t' →
          Alone (Call.inlineAll ((t.transport.calls .destroy).map
            (Call.map (Handler.transport id))) p.ew) other t' := by
        intro other t' present
        rw [Function.update_apply] at present
        split at present
        · cases present
        · rename_i apart
          exact (sound.alone other t' present).rewatch rewatched
            (sound.transports_apart there present apart)
      have core := sound.core.rewatch held rewatched
      have entries := entries_of_rewatched rewatched fun _ _ entered => by cases entered.1
      rw [Transport.calls] at core taken others entries
      simp only [List.map_cons, List.map_nil, Call.map, Call.inlineAll, List.foldl_cons,
        List.foldl_nil, Call.inline_unwatch] at core taken others entries
      rw [close_open] at taken
      · rw [← taken]
        refine sound.recore ?_ others entries rfl rfl rfl rfl rfl
        refine (core.release held (unwatched_destroy sound.core.consistent)).congr ?_
        exact p.holds_setTransport id .none
      · exact (sound.core.open_of_holds held).1
      · exact quiet_of_unlisted core.consistent (unwatched_destroy sound.core.consistent)
  | write buf => exact taken ▸ sound.setTransport there (by simp) stepped
  | flush => exact taken ▸ sound.setTransport there (by simp) stepped
  | onWritable outcomes replies => exact taken ▸ sound.setTransport there (by simp) stepped
  | readableStateChanged readable => exact taken ▸ sound.setTransport there (by simp) stepped
  | onReadable received last => exact taken ▸ sound.setTransport there (by simp) stepped

/-- A handler of a transport that is not destroyed in the midst of it. -/
theorem Sound.invoke (sound : p.Sound) (there : p.transports id ≠ none) {op : Transport.Op}
    (taken : p.invoke id op false = some next) : next.Sound := by
  unfold Process.invoke at taken
  split at taken
  · rename_i absent
    exact absurd absent there
  · rw [if_neg Bool.false_ne_true] at taken
    exact sound.perform taken

/-- The handler goes on with a transport that is not there any more. -/
def Happening.Destroys : Happening → Prop
  | .transport _ destroyed => destroyed = true
  | _ => False

/-- A handler finds its object where it was, with the descriptor that is ready. -/
theorem Sound.handle (sound : p.Sound) {fd : Nat} {flag : WatchFlag} {handler : Handler}
    (registered : p.ew.registered fd flag = some (.user handler)) {happening : Happening}
    (kept : ¬ happening.Destroys) (taken : p.handle handler happening = some next) :
    next.Sound := by
  have held := sound.core.registered registered
  unfold Process.handle at taken
  split at taken
  · rename_i id error made
    cases there : p.dialers id with
    | none =>
        simp only [Handler.owner, holds, there, Option.bind_none, reduceCtorEq] at held
    | some d =>
        rw [there] at taken
        dsimp only at taken
        split at taken
        · rename_i absent
          obtain rfl := Option.some.inj taken
          rw [Handler.owner, holds_dialer there] at held
          exact sound.onWritable there (descriptor_eq.mp held) absent error
        · cases taken
  · rename_i id
    cases there : p.listeners id with
    | none =>
        simp only [Handler.owner, holds, there, Option.bind_none, reduceCtorEq] at held
    | some l =>
        rw [there] at taken
        obtain rfl := Option.some.inj taken
        exact sound.enter (by rw [there]; exact Option.some_ne_none l) _
  · rename_i id received last destroyed
    obtain rfl := Bool.eq_false_of_not_eq_true kept
    refine sound.invoke (fun absent => ?_) taken
    simp only [Handler.owner, holds, absent, Option.map_none, reduceCtorEq] at held
  · rename_i id outcomes replies destroyed
    obtain rfl := Bool.eq_false_of_not_eq_true kept
    refine sound.invoke (fun absent => ?_) taken
    simp only [Handler.owner, holds, absent, Option.map_none, reduceCtorEq] at held
  · cases taken

end Transports

end Process

end Getrafty
