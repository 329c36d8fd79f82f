import Getrafty.ProcessSteps

set_option autoImplicit false

namespace Getrafty

open Transition (Exec Of Guarded)

namespace Process

/-- A closure of the listener. -/
def Closure.By (id : Nat) : Closure → Prop
  | .watcher _ => False
  | .listener other _ => other = id

instance (id : Nat) : DecidablePred (Closure.By id) := fun closure =>
  match closure with
  | .watcher _ => isFalse not_false
  | .listener other _ => inferInstanceAs (Decidable (other = id))

instance (p : Process) : DecidablePred p.Busy := fun id =>
  decidable_of_iff ((∃ closure ∈ p.tasks, Closure.By id closure) ∨
      (∃ entry ∈ p.stack, entry.1 = id) ∨
      (p.callers id ≠ .notCalled ∧ p.callers id ≠ .returned)) <| by
    unfold Busy
    refine or_congr ⟨?_, ?_⟩ (or_congr ⟨?_, ?_⟩ Iff.rfl)
    · rintro ⟨closure, among, own⟩
      cases closure with
      | watcher task => exact absurd own not_false
      | listener other task => exact ⟨task, own ▸ among⟩
    · rintro ⟨task, among⟩
      exact ⟨_, among, rfl⟩
    · rintro ⟨entry, among, rfl⟩
      exact ⟨entry.2, among⟩
    · rintro ⟨frame, among⟩
      exact ⟨_, among, rfl⟩

instance (p : Process) : DecidablePred p.Watched := fun id =>
  inferInstanceAs (Decidable (∃ l ∈ p.listeners id, _ ∧ _))

/-- The step is no call made outside `loop()`. -/
def Label.Inside : Label → Prop
  | .dial place _ _ _ | .destroyDialer place _ | .shutdown place _ | .use place _ _ => place = .loop
  | _ => True

instance : DecidablePred Label.Inside := fun label =>
  match label with
  | .dial _ _ _ _ | .destroyDialer _ _ | .shutdown _ _ | .use _ _ _ =>
      inferInstanceAs (Decidable (_ = _))
  | .newDialer _ | .newListener _ | .listen _ | .setup _ _ | .post _ | .released _
  | .destroyListener _ | .task | .ready _ _ _ | .accept _ _ | .resume => isTrue trivial

instance : DecidablePred Happening.Destroys := fun happening =>
  match happening with
  | .transport _ _ => inferInstanceAs (Decidable (_ = true))
  | .dialer _ _ | .listener => isFalse not_false

/-- `dial()` is called while no attempt is in progress, a listener is destroyed when none of its
member functions is left to run and the watcher does not know it any more, and no transport is
destroyed in the midst of its own `onReadable()`. -/
def Proper (p : Process) : Label → Prop
  | .dial _ id outcome _ => ∀ d ∈ p.dialers id, d.fd_ < 0 ∨ outcome = .unparsable
  | .destroyListener id => ¬ p.Busy id ∧ ¬ p.Watched id
  | .ready _ _ happening => ¬ happening.Destroys
  | _ => True

instance (p : Process) : DecidablePred p.Proper := fun label =>
  match label with
  | .dial _ id _ _ => inferInstanceAs (Decidable (∀ d ∈ p.dialers id, _ ∨ _))
  | .destroyListener _ => inferInstanceAs (Decidable (_ ∧ _))
  | .ready _ _ _ => inferInstanceAs (Decidable (¬ _))
  | .newDialer _ | .destroyDialer _ _ | .newListener _ | .listen _ | .setup _ _ | .post _
  | .released _ | .shutdown _ _ | .use _ _ _ | .task | .accept _ _ | .resume => isTrue trivial

section Steps

variable {p next : Process} {label : Label}

theorem Sound.step (sound : p.Sound) (inside : label.Inside) (proper : p.Proper label)
    (taken : step p label = some next) : next.Sound := by
  unfold Process.step at taken
  rw [sound.safe, Option.isSome_none, if_neg Bool.false_ne_true] at taken
  cases label with
  | newDialer id =>
      dsimp only at taken
      split at taken
      · rename_i absent
        obtain rfl := Option.some.inj taken
        refine sound.idle ?_ (descriptor_negative minus_one_negative)
        rw [holds, absent, Option.bind_none]
      · cases taken
  | dial place id outcome made =>
      obtain rfl : place = .loop := inside
      exact sound.dial proper taken
  | destroyDialer place id =>
      obtain rfl : place = .loop := inside
      exact sound.destroyDialer taken
  | newListener id =>
      dsimp only at taken
      split at taken
      · rename_i absent
        obtain rfl := Option.some.inj taken
        exact sound.newListener absent
      · cases taken
  | listen id => exact sound.listen taken
  | setup id outcome => exact sound.setup taken
  | post id => exact sound.post taken
  | released id => exact sound.released taken
  | shutdown place id =>
      obtain rfl : place = .loop := inside
      exact sound.shutdown taken
  | destroyListener id => exact sound.destroyListener proper.1 proper.2 taken
  | use place id op =>
      obtain rfl : place = .loop := inside
      dsimp only at taken
      split at taken
      · exact sound.perform taken
      · cases taken
  | task => exact sound.task taken
  | ready fd flag happening =>
      dsimp only at taken
      split at taken
      · rename_i handler registered
        exact sound.handle registered proper taken
      · cases taken
  | accept outcome made => exact sound.accept taken
  | resume => exact sound.resume taken

/-- What a dialer has in flight is forgotten when it dials again. -/
theorem dial_forgets (sound : p.Sound) {id : Nat} {outcome : DialOutcome} {made : Made}
    (goesOn : outcome ≠ .unparsable) (taken : p.dial .loop id outcome made = some next) :
    (∀ fd ∈ p.fds, fd ∈ next.fds) ∧ next.ew.eventfd = p.ew.eventfd ∧
      ∀ fd ∈ p.fds, ∀ owner, next.holds owner = some fd →
        owner ≠ .dialer id ∧ p.holds owner = some fd := by
  have idles : ∀ {q : Process}, q.holds = (p.setDialer id (some {})).holds → ∀ fd ∈ p.fds,
      ∀ owner, q.holds owner = some fd → owner ≠ .dialer id ∧ p.holds owner = some fd := by
    intro q same fd _ owner held
    rw [same, holds_setDialer, Function.update_apply] at held
    split at held
    · rw [Option.bind_some, descriptor_negative minus_one_negative] at held
      cases held
    · rename_i other
      exact ⟨other, held⟩
  have gets : ∀ {q : Process} (who : Owner) {new : Nat}, new ∉ p.fds →
      q.holds = Function.update (p.setDialer id (some {})).holds who (some new) → ∀ fd ∈ p.fds,
      ∀ owner, q.holds owner = some fd → owner ≠ .dialer id ∧ p.holds owner = some fd := by
    intro q who new fresh same fd open_ owner held
    rw [same, Function.update_apply] at held
    split at held
    · obtain rfl := Option.some.inj held
      exact absurd open_ fresh
    · exact idles rfl fd open_ owner held
  cases sound.dial_cases taken with
  | unparsable => exact absurd rfl goesOn
  | gaveUp outcome goesOn => exact ⟨fun _ open_ => open_, rfl, idles rfl⟩
  | inProgress fd fresh =>
      refine ⟨fun _ open_ => List.mem_cons_of_mem _ open_, EventWatcher.handleWatch_eventfd ..,
        gets (.dialer id) fresh.1 ?_⟩
      rw [holds_setDialer, Function.update_idem]
      exact (holds_setDialer ..).trans (by rw [Option.bind_some, descriptor_nat]; rfl)
  | connected fd error fresh =>
      rw [dialed_setDialer]
      simp only [dialed, TcpDialer.onWritable]
      by_cases refused : error ≠ 0
      · simp only [if_pos refused, List.foldl_cons, List.foldl_nil, act, call_unwatch]
        rw [close_open]
        · refine ⟨fun x open_ => ?_, EventWatcher.handleUnwatch_eventfd .., idles rfl⟩
          show x ∈ (fd :: p.fds).erase fd
          rw [List.erase_cons_head]
          exact open_
        · exact List.mem_cons_self
        · have calm := sound.core.consistent.handleUnwatch fd .WRONLY
          refine quiet_of_unlisted calm fun flag => ?_
          show (p.ew.handleUnwatch fd .WRONLY).registered fd flag = none
          rw [sound.core.consistent.tidy.registered_handleUnwatch]
          split
          · rfl
          · exact sound.core.unlisted fresh.1 flag
      · simp only [if_neg refused, List.foldl_cons, List.foldl_nil, act, call_unwatch,
          Int.toNat_natCast]
        refine ⟨fun _ open_ => List.mem_cons_of_mem _ open_,
          EventWatcher.handleUnwatch_eventfd .., gets (.transport made.id) fresh.1 ?_⟩
        exact holds_setTransport ..

theorem destroyListener_rest {id : Nat} (taken : p.destroyListener id = some next) :
    next.listeners id = none ∧ next.Busy = p.Busy ∧
      next.ew.registered = p.ew.registered := by
  unfold destroyListener at taken
  obtain ⟨l, -, rfl⟩ := Option.map_eq_some_iff.mp taken
  have gone : (p.setListener id none).listeners id = none := Function.update_self ..
  dsimp only
  split
  · unfold close
    split
    · exact ⟨gone, rfl, rfl⟩
    · split <;> exact ⟨gone, rfl, rfl⟩
  · exact ⟨gone, rfl, rfl⟩

/-- A transport that is destroyed in the midst of its handler is gone when the handler goes on. -/
theorem handle_destroys {handler : Handler} {happening : Happening} (destroys : happening.Destroys)
    (taken : p.handle handler happening = some next) : next.fault ≠ none := by
  have invoked : ∀ {id op}, p.invoke id op true = some next → next.fault ≠ none := by
    intro id op taken
    unfold Process.invoke at taken
    split at taken
    · obtain rfl := Option.some.inj taken
      exact Option.some_ne_none _
    · rw [if_pos rfl] at taken
      split at taken
      · obtain rfl := Option.some.inj taken
        exact Option.some_ne_none _
      · cases taken
  unfold Process.handle at taken
  split at taken
  · exact absurd destroys not_false
  · exact absurd destroys not_false
  · obtain rfl : _ = true := destroys
    exact invoked taken
  · obtain rfl : _ = true := destroys
    exact invoked taken
  · cases taken

theorem Sound.improper (sound : p.Sound) (inside : label.Inside) (improper : ¬ p.Proper label)
    (taken : Process.step p label = some next) : ¬ next.Sound := by
  unfold Process.step at taken
  rw [sound.safe, Option.isSome_none, if_neg Bool.false_ne_true] at taken
  cases label with
  | dial place id outcome made =>
      obtain rfl : place = .loop := inside
      simp only [Proper, Option.mem_def, not_forall, not_or] at improper
      obtain ⟨d, there, busy, goesOn⟩ := improper
      obtain ⟨fd, owns⟩ := Int.eq_ofNat_of_zero_le (not_lt.mp busy)
      have held := held_dialer there owns
      obtain ⟨open_, -⟩ := sound.core.open_of_holds held
      obtain ⟨still, eventfd, others⟩ := dial_forgets sound goesOn taken
      intro after
      exact sound.core.lost held eventfd (still fd open_) (others fd open_) after.core
  | destroyListener id =>
      obtain ⟨gone, busy, ew⟩ := destroyListener_rest taken
      intro after
      refine improper ⟨fun before => ?_, fun watched => ?_⟩
      · exact after.busy id (busy ▸ before) gone
      · obtain ⟨l, -, -, registered⟩ := watched
        rw [← ew] at registered
        have held := after.core.registered registered
        simp only [Handler.owner, holds, gone, Option.bind_none, reduceCtorEq] at held
  | ready fd flag happening =>
      dsimp only at taken
      split at taken
      · intro after
        exact handle_destroys (not_not.mp improper) taken after.safe
      · cases taken
  | newDialer id => exact absurd trivial improper
  | destroyDialer place id => exact absurd trivial improper
  | newListener id => exact absurd trivial improper
  | listen id => exact absurd trivial improper
  | setup id outcome => exact absurd trivial improper
  | post id => exact absurd trivial improper
  | released id => exact absurd trivial improper
  | shutdown place id => exact absurd trivial improper
  | use place id op => exact absurd trivial improper
  | task => exact absurd trivial improper
  | accept outcome made => exact absurd trivial improper
  | resume => exact absurd trivial improper

end Steps

section Runs

variable {eventfd : Nat} {room : Nat → Bool} {labels : List Label} {p : Process}

theorem sound_init (eventfd : Nat) (room : Nat → Bool) : (init eventfd room).Sound where
  core := by
    have registered := EventWatcher.registered_create (κ := Handler) eventfd
    have same : (EventWatcher.create eventfd : EventWatcher Handler).eventfd = eventfd :=
      EventWatcher.handleWatch_eventfd ..
    have nobody : ∀ owner, (init eventfd room).holds owner = none := by
      intro owner
      cases owner <;> rfl
    constructor
    · exact EventWatcher.create_consistent eventfd
    · constructor
      · intro owner fd held
        exact absurd (held.symm.trans (nobody owner)) (by simp)
      · intro owner other fd held
        exact absurd (held.symm.trans (nobody owner)) (by simp)
      · rintro fd ⟨open_, apart⟩
        exact absurd (List.mem_singleton.mp open_) (same ▸ apart)
      · rintro fd flag owner ⟨handler, entry, -⟩
        rw [show (init eventfd room).ew = EventWatcher.create eventfd from rfl, registered] at entry
        split at entry <;> cases entry
    · intro fd flag handler entry
      rw [show (init eventfd room).ew = EventWatcher.create eventfd from rfl, registered] at entry
      split at entry <;> cases entry
    · intro fd flag
      rw [show (init eventfd room).ew = EventWatcher.create eventfd from rfl, registered, same]
      split
      · rename_i here
        exact iff_of_true rfl here
      · rename_i elsewhere
        exact iff_of_false (by simp) elsewhere
    · exact List.mem_singleton.mpr same
    · exact List.nodup_singleton eventfd
  alone _ _ there := by cases there
  busy id busy := by
    rcases busy with ⟨task, among⟩ | ⟨frame, among⟩ | ⟨called, -⟩
    · cases among
    · cases among
    · exact absurd rfl called
  unopened _ _ there := by cases there
  unposted id _ := by
    refine ⟨List.not_mem_nil, ?_⟩
    rintro ⟨fd, flag, entry⟩
    rw [show (init eventfd room).ew = EventWatcher.create eventfd from rfl,
      EventWatcher.registered_create] at entry
    split at entry <;> cases entry
  inline _ := List.not_mem_nil
  safe := rfl

theorem sound_of_proper (run : Exec (Guarded Proper (Of step)) (init eventfd room) labels p)
    (inside : ∀ label ∈ labels, label.Inside) : p.Sound := by
  refine (run.guarded_labels.mpr inside).invariant Sound (sound_init eventfd room) ?_
  intro state label next sound taken
  exact sound.step taken.1 taken.2.1 taken.2.2

/-- The system calls of `listenAndWait()` on descriptor 7 succeed, and its closures run. -/
def listening : List Label :=
  [.newListener 0, .listen 0, .setup 0 (.ok 0 ""), .setup 0 (.ok 7 ""), .setup 0 (.ok 0 ""),
    .setup 0 (.ok 0 ""), .setup 0 (.ok 0 ""), .setup 0 (.ok 0 "localhost:7"), .post 0, .task,
    .post 0, .task]

/-- A client connects to the listener. -/
def accepting (id : Nat) : List Label :=
  let made : Made := ⟨id, { grants := fun _ => true }⟩
  [.ready 7 .RDONLY .listener, .accept (.accepted 9 true) made, .accept (.failed EAGAIN) made,
    .use .loop id (.readableStateChanged true)]

/-- Through a whole run each descriptor is known to one object, closed once and by it, and each
handler is invoked on an object that is there, exactly when no `dial()` overtakes another one, no
listener is destroyed under its own feet and no transport in the midst of its own handler; as long
as the calls are made inside `loop()`. -/
theorem always_sound_iff (run : Run eventfd room labels p)
    (inside : ∀ label ∈ labels, label.Inside) :
    (∀ front back middle, labels = front ++ back → Run eventfd room front middle →
      middle.Sound) ↔ Exec (Guarded Proper (Of step)) (init eventfd room) labels p := by
  refine run.always_iff_of_labels Sound (sound_init eventfd room) ?_ inside
  intro front state label next allowed guarded taken
  have sound := sound_of_proper guarded fun l earlier => allowed l (List.mem_append_left _ earlier)
  have here := allowed label (List.mem_append_right _ List.mem_cons_self)
  constructor
  · intro after
    by_contra improper
    exact sound.improper here improper taken after
  · intro proper
    exact sound.step here proper taken

/-- What is destroyed outside `loop()` stays in the watcher for a while: the descriptor is opened
again, and the queued `unwatch` takes the handler of its next owner away. -/
example : ∃ p, Exec (Guarded Proper (Of step)) (init 3 fun _ => true)
    (listening ++ accepting 0 ++ [.use .elsewhere 0 .destroy] ++ accepting 1 ++ [.task, .task]) p ∧
      p.ew.refused = [(.EPOLL_CTL_DEL, 9)] ∧ p.ew.registered 9 .RDONLY = none ∧
        (p.transports 1).isSome = true := Transition.exists_guarded (by decide +kernel)

/-- A client whose connection is refused once, and a server with one connection. -/
def session : List Label :=
  let made : Made := ⟨1, { grants := fun _ => true }⟩
  listening ++ [.newDialer 0, .dial .loop 0 (.refused 8 EINVAL) made,
    .dial .loop 0 (.inProgress 8) made] ++ accepting 0 ++ [.ready 8 .WRONLY (.dialer 0 made),
    .use .loop 1 (.write (.ofBytes [7] (by decide))),
    .ready 9 .RDONLY (.transport (.onReadable [] .eof) false),
    .ready 8 .WRONLY (.transport (.onWritable (fun _ => .accepted 1 0) []) false)]

/-- The socket of another listener cannot be bound. -/
def closing : List Label :=
  [.use .loop 0 .destroy, .shutdown .loop 0, .resume, .released 0, .destroyListener 0,
    .newListener 1, .listen 1, .setup 1 (.ok 0 ""), .setup 1 (.ok 7 ""), .setup 1 (.ok 0 ""),
    .setup 1 (.failed EINVAL), .post 1, .task, .resume, .released 1, .destroyListener 1,
    .destroyDialer .loop 0, .use .loop 1 .destroy]

theorem always_sound_iff_session :
    ∃ p, Run 3 (fun _ => true) (session ++ closing) p ∧
      ∀ front back middle, session ++ closing = front ++ back →
        Run 3 (fun _ => true) front middle → middle.Sound := by
  obtain ⟨p, run, -⟩ : ∃ p, Exec (Guarded Proper (Of step)) (init 3 fun _ => true)
      (session ++ closing) p ∧ p.fault = none := Transition.exists_guarded (by decide +kernel)
  exact ⟨p, run.unguarded, (always_sound_iff run.unguarded (by decide +kernel)).mpr run⟩

/-- Once nobody has a descriptor, nothing is open but the descriptor that wakes the loop up, and
the watcher and the kernel know of nothing else. -/
theorem leaves_nothing (run : Exec (Guarded Proper (Of step)) (init eventfd room) labels p)
    (inside : ∀ label ∈ labels, label.Inside) (gone : ∀ owner, p.holds owner = none) :
    p.fds = [p.ew.eventfd] ∧ p.ew.refused = [] ∧
      (∀ fd flag callback, p.ew.registered fd flag = some callback →
        fd = p.ew.eventfd ∧ flag = .RDONLY ∧ callback = .wakeup) ∧
      ∀ fd, p.ew.interest fd ≠ none → fd = p.ew.eventfd := by
  have sound := sound_of_proper run inside
  have entries : ∀ fd flag callback, p.ew.registered fd flag = some callback →
      fd = p.ew.eventfd ∧ flag = .RDONLY ∧ callback = .wakeup := by
    intro fd flag callback entry
    cases callback with
    | wakeup =>
        obtain ⟨here, read⟩ := (sound.core.wakeup fd flag).mp entry
        exact ⟨here, read, rfl⟩
    | user handler =>
        have held := sound.core.registered entry
        rw [gone] at held
        cases held
  refine ⟨?_, sound.core.consistent.legal, entries, ?_⟩
  · refine List.perm_singleton.mp ?_
    refine (List.perm_ext_iff_of_nodup sound.core.nodup (List.nodup_singleton _)).mpr fun fd => ?_
    rw [List.mem_singleton]
    constructor
    · intro open_
      by_contra apart
      obtain ⟨owner, held⟩ := sound.core.custody.kept ⟨open_, apart⟩
      exact absurd (held.symm.trans (gone owner)) (by simp)
    · rintro rfl
      exact sound.core.eventfd
  · intro fd interest
    obtain ⟨flag, callback, entry⟩ := interest_registered sound.core.consistent interest
    exact (entries fd flag callback entry).1

theorem leaves_nothing_session : ∃ p, Run 3 (fun _ => true) (session ++ closing) p ∧
    p.ew.eventfd = 3 ∧ p.ew.refused = [] ∧ ∀ fd, p.ew.interest fd ≠ none → fd = 3 := by
  obtain ⟨p, run, closed, eventfd⟩ : ∃ p, Exec (Guarded Proper (Of step)) (init 3 fun _ => true)
      (session ++ closing) p ∧ p.fds = [3] ∧ p.ew.eventfd = 3 :=
    Transition.exists_guarded (by decide +kernel)
  have inside : ∀ label ∈ session ++ closing, label.Inside := by decide +kernel
  have gone : ∀ owner, p.holds owner = none := by
    intro owner
    cases held : p.holds owner with
    | none => rfl
    | some fd =>
        obtain ⟨open_, apart⟩ := (sound_of_proper run inside).core.open_of_holds held
        rw [closed, List.mem_singleton] at open_
        exact absurd (open_.trans eventfd.symm) apart
  obtain ⟨-, refused, -, interest⟩ := leaves_nothing run inside gone
  rw [eventfd] at interest
  exact ⟨p, run.unguarded, eventfd, refused, interest⟩

theorem interest_shared {ew : EventWatcher Handler} {lone : EventWatcher TransportCallback}
    (consistent : ew.Consistent) (alone : lone.Consistent) {id fd : Nat}
    (echoes : ∀ flag, ew.registered fd flag = (lone.registered fd flag).map (shared id)) :
    ew.interest fd = lone.interest fd := by
  have same : maskOf (ew.fdMap.entry fd).cb = maskOf (lone.fdMap.entry fd).cb := by
    have engaged : ∀ flag, ((ew.fdMap.entry fd).cb flag).isSome =
        ((lone.fdMap.entry fd).cb flag).isSome := by
      intro flag
      have echo := congrArg Option.isSome (echoes flag)
      rwa [Option.isSome_map] at echo
    simp only [maskOf, engaged]
  rw [consistent.kernel fd, alone.kernel fd, consistent.tidy fd, alone.tidy fd, same]

/-- On a shared watcher a transport does what it does on one of its own: its state is one of a
run of its own operations, and for its descriptor the shared watcher and the kernel hold what its
own watcher would. -/
theorem run_isolates (run : Exec (Guarded Proper (Of step)) (init eventfd room) labels p)
    (inside : ∀ label ∈ labels, label.Inside) {id : Nat} {t : Transport.State}
    (there : p.transports id = some t) :
    (∃ alloc ops, Transport.Run p.ew.eventfd t.transport.fd alloc ops t) ∧
      p.ew.interest t.transport.fd = t.transport.ew.interest t.transport.fd ∧
      ∀ flag, p.ew.registered t.transport.fd flag =
        (t.transport.ew.registered t.transport.fd flag).map (shared id) := by
  have sound := sound_of_proper run inside
  have alone := sound.alone id t there
  exact ⟨alone.run, interest_shared sound.core.consistent alone.consistent alone.echoes,
    alone.echoes⟩

theorem run_isolates_session : ∃ p t, Run 3 (fun _ => true) session p ∧
    p.transports 0 = some t ∧ t.transport.fd = 9 ∧ (∃ alloc ops, Transport.Run 3 9 alloc ops t) ∧
      p.ew.interest 9 = t.transport.ew.interest 9 := by
  obtain ⟨p, run, there, eventfd⟩ : ∃ p, Exec (Guarded Proper (Of step)) (init 3 fun _ => true)
      session p ∧ (p.transports 0).map (fun t => t.transport.fd) = some 9 ∧ p.ew.eventfd = 3 :=
    Transition.exists_guarded (by decide +kernel)
  obtain ⟨t, there, fd⟩ := Option.map_eq_some_iff.mp there
  obtain ⟨lone, interest, -⟩ := run_isolates run (by decide +kernel) there
  rw [eventfd, fd] at lone
  rw [fd] at interest
  exact ⟨p, t, run.unguarded, there, fd, lone, interest⟩

end Runs

end Process

end Getrafty
