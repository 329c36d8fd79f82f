import Getrafty.EventWatcherTable
import Getrafty.TcpListener

set_option autoImplicit false

namespace Getrafty

open Transition (Exec Of Guarded guardedStep guardedStep_of)

namespace TcpListener

/-- `onShutdown` comes once, the latch is counted down once, and nothing that the owner
could see comes behind `onShutdown`. -/
structure Protocol (log : List ListenerEvent) : Prop where
  once : log.count .shutdown ≤ 1
  latch : log.count .countDown ≤ 1
  silent : ∀ front back, log = front ++ .shutdown :: back →
    ∀ event ∈ back, event = .shutdown ∨ event = .countDown

/-- Nothing is under way that could still invoke a callback. -/
def Calm (s : TcpListener) : Prop :=
  .shutdown ∉ s.log ∧
    (s.listening = .notCalled ∨ s.listening = .postWatch ∨ s.listening = .waiting) ∧
    (∀ task ∈ s.queue, task = .watch ∨ task = .shutdown) ∧
      ∀ frame ∈ s.stack, frame = .user ∨ frame = .listening ∨ frame = .accept 0

instance (s : TcpListener) : Decidable s.Calm := inferInstanceAs (Decidable (_ ∧ _ ∧ _ ∧ _))

/-- A closure of `shutdown()` starts when all is calm, and `listenAndWait()` is not called
after one. -/
def Timely (s : TcpListener) : Label → Prop
  | .listen _ => .shutdown ∉ s.log
  | .shutdownInline => s.Calm
  | .task => s.queue.head? = some .shutdown → s.Calm
  | _ => True

instance (s : TcpListener) : DecidablePred s.Timely :=
  fun label => match label with
    | .listen _ => inferInstanceAs (Decidable (_ ∉ _))
    | .shutdownInline => inferInstanceAs (Decidable s.Calm)
    | .task => inferInstanceAs (Decidable (_ → _))
    | .setup _ | .post _ | .released | .shutdown _ | .other | .readable _ | .accept _ | .resume =>
        isTrue trivial

/-- No descriptor calls the listener back. -/
def Unwatched (s : TcpListener) : Prop :=
  ∀ fd, s.ew.registered fd .RDONLY ≠ some (.user .onReadable)

/-- Between the call of `listenAndWait()` and its first post. -/
inductive Setting : Listening → Prop
  | parseAddress : Setting .parseAddress
  | makeSockTcp : Setting .makeSockTcp
  | setSockOptNonBlocking : Setting .setSockOptNonBlocking
  | sockBind : Setting .sockBind
  | sockListen : Setting .sockListen
  | getSockOptHostPort : Setting .getSockOptHostPort
  | postFailed (err : Int) : Setting (.postFailed err)
  | postStarted (address : String) : Setting (.postStarted address)

def Waits (l : Listening) : Prop := l = .waiting ∨ l = .returned

/-- A closure that will report a failure. -/
def isFailed : ListenerTask → Bool
  | .failed _ => true
  | _ => false

/-- What is under way before `onShutdown`. -/
inductive Stage (s : TcpListener) : Prop
  | fresh (at_ : s.listening = .notCalled) (fd : s.listen_fd_ < 0) (unwatched : s.Unwatched)
      (tasks : ∀ task ∈ s.queue, task = .shutdown) (frames : ∀ frame ∈ s.stack, frame = .user)
  | setting (at_ : Setting s.listening) (unwatched : s.Unwatched)
      (fd : s.listening = .parseAddress ∨ (∃ err, s.listening = .postFailed err) →
        s.listen_fd_ < 0)
      (tasks : ∀ task ∈ s.queue, task = .shutdown)
      (frames : ∀ frame ∈ s.stack, frame = .user ∨ frame = .listening)
  | posted (at_ : s.listening = .postWatch) (unwatched : s.Unwatched)
      (tasks : ∀ task ∈ s.queue, task = .shutdown ∨ ∃ address, task = .started address)
      (frames : ∀ frame ∈ s.stack, frame = .user ∨ frame = .listening)
  | serving (at_ : Waits s.listening)
      (tasks : ∀ task ∈ s.queue, isFailed task = false)
      (frames : ∀ frame ∈ s.stack, frame = .user ∨ frame = .listening ∨
        ∃ left, frame = .accept left)
  | failing (at_ : Waits s.listening) (fd : s.listen_fd_ < 0) (unwatched : s.Unwatched)
      (tasks : ∀ task ∈ s.queue, task = .shutdown ∨ ∃ err, task = .failed err)
      (frames : ∀ frame ∈ s.stack, ∀ left, frame ≠ .accept left)
      (token : s.queue.countP isFailed + s.stack.count .onShutdown = 1)

/-- Nothing is under way any more but the countdown. -/
structure Quiet (s : TcpListener) : Prop where
  at_ : s.listening = .notCalled ∨ s.listening = .postWatch ∨ Waits s.listening
  fd : s.listen_fd_ < 0
  unwatched : s.Unwatched
  tasks : ∀ task ∈ s.queue, task = .watch ∨ task = .shutdown
  frames : ∀ frame ∈ s.stack,
    frame = .user ∨ frame = .listening ∨ frame = .accept 0 ∨ frame = .countDown

/-- The invariant of timely runs. -/
structure Sound (s : TcpListener) : Prop where
  tidy : s.ew.Tidy
  owns : ∀ fd, s.ew.registered fd .RDONLY = some (.user .onReadable) → s.listen_fd_ = fd
  balance : s.stack.count .countDown + s.log.count .countDown =
    s.stack.count .onShutdown + s.log.count .shutdown
  order : s.log.Pairwise fun early late => early = .shutdown → late = .countDown
  opened : .shutdown ∉ s.log → s.Stage
  closed : .shutdown ∈ s.log → s.Quiet

theorem count_shutdown_le {log : List ListenerEvent}
    (order : log.Pairwise fun early late => early = .shutdown → late = .countDown) :
    log.count .shutdown ≤ 1 := by
  induction log with
  | nil => exact Nat.zero_le _
  | cons event log ih =>
      obtain ⟨head, tail⟩ := List.pairwise_cons.mp order
      rw [List.count_cons]
      split
      · rename_i same
        have none : log.count .shutdown = 0 := by
          rw [List.count_eq_zero]
          intro again
          cases head _ again (beq_iff_eq.mp same)
        omega
      · exact ih tail

theorem Sound.protocol {s : TcpListener} (sound : s.Sound) : Protocol s.log := by
  have once := count_shutdown_le sound.order
  refine ⟨once, ?_, fun front back cut event behind => ?_⟩
  · have balance := sound.balance
    by_cases closed : .shutdown ∈ s.log
    · have none : s.stack.count .onShutdown = 0 := by
        rw [List.count_eq_zero]
        intro among
        rcases (sound.closed closed).frames _ among with same | same | same | same <;> cases same
      omega
    · have zero : s.log.count .shutdown = 0 := List.count_eq_zero.mpr closed
      have one : s.stack.count .onShutdown ≤ 1 := by
        have absent : (∀ frame ∈ s.stack, frame ≠ .onShutdown) → s.stack.count .onShutdown ≤ 1 :=
          fun apart => Nat.le_trans
            (Nat.le_of_eq (List.count_eq_zero.mpr fun among => apart _ among rfl)) (Nat.zero_le 1)
        cases sound.opened closed with
        | fresh _ _ _ _ frames => exact absent fun frame among => by simp [frames frame among]
        | setting _ _ _ _ frames =>
            exact absent fun frame among => by rcases frames frame among with rfl | rfl <;> nofun
        | posted _ _ _ frames =>
            exact absent fun frame among => by rcases frames frame among with rfl | rfl <;> nofun
        | serving _ _ frames =>
            exact absent fun frame among => by
              rcases frames frame among with rfl | rfl | ⟨left, rfl⟩ <;> nofun
        | failing _ _ _ _ _ token => omega
      omega
  · have order := sound.order
    rw [cut, List.pairwise_append, List.pairwise_cons] at order
    exact Or.inr (order.2.1.1 event behind rfl)

section Steps

variable {s next : TcpListener}

/-- A step that invokes nothing. -/
theorem Sound.of_same_log (sound : s.Sound) (log : next.log = s.log) (tidy : next.ew.Tidy)
    (owns : ∀ fd, next.ew.registered fd .RDONLY = some (.user .onReadable) → next.listen_fd_ = fd)
    (countDowns : next.stack.count .countDown = s.stack.count .countDown)
    (onShutdowns : next.stack.count .onShutdown = s.stack.count .onShutdown)
    (opened : .shutdown ∉ s.log → s.Stage → next.Stage)
    (closed : .shutdown ∈ s.log → s.Quiet → next.Quiet) : next.Sound := by
  refine ⟨tidy, owns, ?_, ?_, ?_, ?_⟩
  · rw [countDowns, onShutdowns, log]
    exact sound.balance
  · rw [log]
    exact sound.order
  · intro open_
    rw [log] at open_
    exact opened open_ (sound.opened open_)
  · intro shut
    rw [log] at shut
    exact closed shut (sound.closed shut)

/-- A callback other than `onShutdown` is invoked, before `onShutdown`. -/
theorem Sound.event (sound : s.Sound) (open_ : .shutdown ∉ s.log) {event : ListenerEvent}
    (apart : event ≠ .shutdown ∧ event ≠ .countDown) (log : next.log = s.log ++ [event])
    (tidy : next.ew.Tidy)
    (owns : ∀ fd, next.ew.registered fd .RDONLY = some (.user .onReadable) → next.listen_fd_ = fd)
    (counts : next.stack.count .countDown + s.log.count .countDown = next.stack.count .onShutdown)
    (stage : next.Stage) : next.Sound := by
  have still : .shutdown ∉ next.log := by
    simp only [log, List.mem_append, open_, List.mem_singleton, apart.1.symm, or_self,
      not_false_eq_true]
  refine ⟨tidy, owns, ?_, ?_, fun _ => stage, fun shut => absurd shut still⟩
  · have zero : next.log.count .shutdown = 0 := List.count_eq_zero.mpr still
    rw [zero, log, List.count_append, List.count_singleton, if_neg (by simpa using apart.2)]
    exact counts
  · rw [log]
    refine List.pairwise_append.mpr ⟨sound.order, List.pairwise_singleton _ _, ?_⟩
    intro early among late _ same
    exact absurd (same ▸ among) open_

theorem Sound.no_countDown (sound : s.Sound) (open_ : .shutdown ∉ s.log) :
    s.stack.count .countDown + s.log.count .countDown = s.stack.count .onShutdown := by
  have zero : s.log.count .shutdown = 0 := List.count_eq_zero.mpr open_
  rw [sound.balance, zero, Nat.add_zero]

/-- `onShutdown` is invoked when nothing else is under way. -/
theorem Sound.shutdown (sound : s.Sound) (open_ : .shutdown ∉ s.log)
    (log : next.log = s.log ++ [.shutdown]) (tidy : next.ew.Tidy)
    (counts : next.stack.count .countDown + s.log.count .countDown = 1) (quiet : next.Quiet) :
    next.Sound := by
  have now : .shutdown ∈ next.log := by
    rw [log]
    exact List.mem_append_right _ (List.mem_singleton.mpr rfl)
  have none : next.stack.count .onShutdown = 0 := by
    rw [List.count_eq_zero]
    intro among
    rcases quiet.frames _ among with same | same | same | same <;> cases same
  refine ⟨tidy, fun fd held => absurd held (quiet.unwatched fd), ?_, ?_,
    fun other => absurd now other, fun _ => quiet⟩
  · have zero : s.log.count .shutdown = 0 := List.count_eq_zero.mpr open_
    rw [none, log]
    simp only [List.count_append, List.count_cons, List.count_nil, zero, beq_iff_eq, reduceCtorEq,
      ↓reduceIte]
    omega
  · rw [log]
    refine List.pairwise_append.mpr ⟨sound.order, List.pairwise_singleton _ _, ?_⟩
    intro early among late _ same
    exact absurd (same ▸ among) open_

theorem inline_watch (ew : EventWatcher ListenerCallback) (fd : Int) (flag : WatchFlag)
    (callback : ListenerCallback) : (Call.watch fd flag callback).inline ew =
      if fd < 0 then ew else ew.handleWatch fd.toNat flag (.user callback) := by
  simp only [Call.inline, Call.task]
  by_cases negative : fd < 0 <;> simp only [negative, ↓reduceIte, Task.perform]

theorem inline_unwatch (ew : EventWatcher ListenerCallback) (fd : Int) (flag : WatchFlag) :
    (Call.unwatch fd flag).inline ew = if fd < 0 then ew else ew.handleUnwatch fd.toNat flag := by
  simp only [Call.inline, Call.task]
  by_cases negative : fd < 0 <;> simp only [negative, ↓reduceIte, Task.perform]

/-- The task that watches, which a negative descriptor makes one that does nothing. -/
theorem Sound.watch (sound : s.Sound) : s.watch.ew.Tidy ∧
    (∀ fd, s.watch.ew.registered fd .RDONLY = some (.user .onReadable) → s.listen_fd_ = fd) ∧
      (s.listen_fd_ < 0 → s.watch = s) := by
  simp only [TcpListener.watch, inline_watch]
  by_cases negative : s.listen_fd_ < 0
  · simp only [negative, ↓reduceIte]
    exact ⟨sound.tidy, sound.owns, fun _ => trivial⟩
  · simp only [negative, ↓reduceIte]
    refine ⟨sound.tidy.handleWatch _ _ _, fun fd held => ?_, nofun⟩
    rw [sound.tidy.registered_handleWatch] at held
    split at held
    · rename_i same
      omega
    · exact sound.owns fd held

/-- After the first statement of its closure `shutdown()` has no descriptor, watched or not. -/
theorem Sound.close (sound : s.Sound) :
    s.close.ew.Tidy ∧ s.close.listen_fd_ < 0 ∧ s.close.Unwatched := by
  unfold TcpListener.close
  split
  · rename_i valid
    have negative : ¬ s.listen_fd_ < 0 := by omega
    simp only [inline_unwatch, negative, ↓reduceIte]
    refine ⟨sound.tidy.handleUnwatch _ _, by decide, fun fd held => ?_⟩
    dsimp only at held
    rw [sound.tidy.registered_handleUnwatch] at held
    split at held
    · cases held
    · rename_i other
      have own := sound.owns fd held
      refine other ⟨?_, rfl⟩
      omega
  · rename_i invalid
    refine ⟨sound.tidy, by omega, fun fd held => ?_⟩
    have own := sound.owns fd held
    omega

/-- A closure of `shutdown()` that starts when all is calm. -/
theorem Sound.runTask_shutdown (sound : s.Sound) (calm : s.Calm) {queue : List ListenerTask}
    (kept : ∀ task ∈ queue, task ∈ s.queue) : (runTask { s with queue } .shutdown).Sound := by
  obtain ⟨open_, at_, tasks, frames⟩ := calm
  obtain ⟨tidy, fd, unwatched⟩ := sound.close
  have same : runTask { s with queue } .shutdown =
      { s with
        ew := s.close.ew
        listen_fd_ := s.close.listen_fd_
        queue
        log := s.log ++ [.shutdown]
        stack := .user :: .countDown :: s.stack } := by
    simp only [runTask, TcpListener.close]
    split <;> rfl
  rw [same]
  have noShutdown : s.stack.count .onShutdown = 0 := by
    rw [List.count_eq_zero]
    intro among
    rcases frames _ among with same | same | same <;> cases same
  refine sound.shutdown open_ rfl tidy ?_ ⟨?_, fd, unwatched, ?_, ?_⟩
  · have counts := sound.no_countDown open_
    rw [noShutdown] at counts
    simp only [List.count_cons, beq_self_eq_true, ↓reduceIte, beq_iff_eq, reduceCtorEq]
    omega
  · exact at_.imp_right (Or.imp_right Or.inl)
  · exact fun task among => tasks task (kept task among)
  · intro frame among
    rcases List.mem_cons.mp among with rfl | among
    · exact Or.inl rfl
    · rcases List.mem_cons.mp among with rfl | among
      · exact Or.inr (Or.inr (Or.inr rfl))
      · exact (frames frame among).imp_right (Or.imp_right Or.inl)

/-- Without its head, which is not a failure, the queue is as harmless as before. -/
theorem Stage.dequeue (stage : s.Stage) {task : ListenerTask} {queue : List ListenerTask}
    (first : s.queue = task :: queue) (fine : isFailed task = false) :
    Stage { s with queue } := by
  have rest : ∀ other ∈ queue, other ∈ s.queue := by
    rw [first]
    exact fun other among => List.mem_cons_of_mem _ among
  cases stage with
  | fresh at_ fd unwatched tasks frames =>
      exact .fresh at_ fd unwatched (fun other among => tasks other (rest other among)) frames
  | setting at_ unwatched fd tasks frames =>
      exact .setting at_ unwatched fd (fun other among => tasks other (rest other among)) frames
  | posted at_ unwatched tasks frames =>
      exact .posted at_ unwatched (fun other among => tasks other (rest other among)) frames
  | serving at_ tasks frames =>
      exact .serving at_ (fun other among => tasks other (rest other among)) frames
  | failing at_ fd unwatched tasks frames token =>
      refine .failing at_ fd unwatched (fun other among => tasks other (rest other among)) frames ?_
      rw [first, List.countP_cons, fine] at token
      exact token

theorem Sound.dequeue (sound : s.Sound) {task : ListenerTask} {queue : List ListenerTask}
    (first : s.queue = task :: queue) (fine : isFailed task = false) :
    Sound { s with queue } := by
  have rest : ∀ other ∈ queue, other ∈ s.queue := by
    rw [first]
    exact fun other among => List.mem_cons_of_mem _ among
  refine sound.of_same_log rfl sound.tidy sound.owns rfl rfl
    (fun _ stage => stage.dequeue first fine) (fun _ quiet => ?_)
  exact ⟨quiet.at_, quiet.fd, quiet.unwatched, fun other among => quiet.tasks other (rest _ among),
    quiet.frames⟩

/-- A callback of the owner may run at any stage. -/
theorem Stage.push_user (stage : s.Stage) (log : List ListenerEvent) :
    Stage { s with log, stack := .user :: s.stack } := by
  have user : ∀ {allowed : Frame → Prop}, allowed .user → (∀ frame ∈ s.stack, allowed frame) →
      ∀ frame ∈ Frame.user :: s.stack, allowed frame := by
    intro allowed one all frame among
    rcases List.mem_cons.mp among with rfl | among
    · exact one
    · exact all frame among
  cases stage with
  | fresh at_ fd unwatched tasks frames => exact .fresh at_ fd unwatched tasks (user rfl frames)
  | setting at_ unwatched fd tasks frames =>
      exact .setting at_ unwatched fd tasks (user (Or.inl rfl) frames)
  | posted at_ unwatched tasks frames =>
      exact .posted at_ unwatched tasks (user (Or.inl rfl) frames)
  | serving at_ tasks frames => exact .serving at_ tasks (user (Or.inl rfl) frames)
  | failing at_ fd unwatched tasks frames token =>
      refine .failing at_ fd unwatched tasks (user (fun left => nofun) frames) ?_
      dsimp only
      rw [List.count_cons_of_ne (show Frame.user ≠ .onShutdown by nofun)]
      exact token

theorem Sound.fire (sound : s.Sound) (open_ : .shutdown ∉ s.log) {event : ListenerEvent}
    (apart : event ≠ .shutdown ∧ event ≠ .countDown) : (s.fire event s.stack).Sound := by
  refine sound.event open_ apart rfl sound.tidy sound.owns ?_ ((sound.opened open_).push_user _)
  simp only [TcpListener.fire, List.count_cons_of_ne (show Frame.user ≠ .countDown by nofun),
    List.count_cons_of_ne (show Frame.user ≠ .onShutdown by nofun)]
  exact sound.no_countDown open_

/-- The closure of a failure starts, and will invoke `onShutdown`. -/
theorem Sound.runTask_failed (sound : s.Sound) (open_ : .shutdown ∉ s.log) (err : Int)
    {listening : Listening} {queue : List ListenerTask} (at_ : Waits listening)
    (fd : s.listen_fd_ < 0) (unwatched : s.Unwatched)
    (tasks : ∀ task ∈ queue, task = .shutdown)
    (frames : ∀ frame ∈ s.stack, frame = .user ∨ frame = .listening) :
    (runTask { s with listening, queue } (.failed err)).Sound := by
  have noShutdown : s.stack.count .onShutdown = 0 := by
    rw [List.count_eq_zero]
    intro among
    rcases frames _ among with same | same <;> cases same
  have noFailure : queue.countP isFailed = 0 := by
    rw [List.countP_eq_zero]
    intro task among
    rw [tasks task among]
    exact Bool.false_ne_true
  have counts := sound.no_countDown open_
  have apart : ListenerEvent.failure err ≠ .shutdown ∧ ListenerEvent.failure err ≠ .countDown :=
    ⟨nofun, nofun⟩
  refine sound.event open_ apart rfl sound.tidy sound.owns ?_ ?_
  · simp only [runTask, TcpListener.fire, List.count_cons, beq_iff_eq, reduceCtorEq, ↓reduceIte]
    omega
  · refine .failing at_ fd unwatched (fun task among => Or.inl (tasks task among)) ?_ ?_
    · intro frame among left
      simp only [runTask, TcpListener.fire, List.mem_cons] at among
      rcases among with rfl | rfl | rfl | among
      · nofun
      · nofun
      · nofun
      · rcases frames frame among with rfl | rfl <;> nofun
    · simp only [runTask, TcpListener.fire, List.count_cons, beq_iff_eq, reduceCtorEq, ↓reduceIte]
      omega

/-- The next task of the queue, unless it is one of `shutdown()`. -/
theorem Sound.runTask (sound : s.Sound) {task : ListenerTask} {queue : List ListenerTask}
    (idle : s.stack = []) (first : s.queue = task :: queue) (apart : task ≠ .shutdown) :
    (runTask { s with queue } task).Sound := by
  have head : task ∈ s.queue := by
    rw [first]
    exact List.mem_cons_self
  have open_ : task ≠ .watch → .shutdown ∉ s.log := fun other shut =>
    ((sound.closed shut).tasks task head).elim other apart
  cases task with
  | shutdown => exact absurd rfl apart
  | started address => exact (sound.dequeue first rfl).fire (open_ nofun) ⟨nofun, nofun⟩
  | watch =>
      have dequeued := sound.dequeue first rfl
      obtain ⟨tidy, owns, nothing⟩ := dequeued.watch
      refine dequeued.of_same_log rfl tidy owns rfl rfl (fun open_ _ => ?_) (fun shut quiet => ?_)
      · cases sound.opened open_ with
        | fresh _ _ _ tasks _ => cases tasks _ head
        | setting _ _ _ tasks _ => cases tasks _ head
        | posted _ _ tasks _ =>
            rcases tasks _ head with same | ⟨_, same⟩ <;> cases same
        | serving at_ tasks frames =>
            refine .serving at_ (fun other among => tasks other ?_) frames
            rw [first]
            exact List.mem_cons_of_mem _ among
        | failing _ _ _ tasks _ _ =>
            rcases tasks _ head with same | ⟨_, same⟩ <;> cases same
      · rw [TcpListener.runTask, nothing quiet.fd]
        exact quiet
  | failed err =>
      cases sound.opened (open_ nofun) with
      | fresh _ _ _ tasks _ => cases tasks _ head
      | setting _ _ _ tasks _ => cases tasks _ head
      | posted _ _ tasks _ => rcases tasks _ head with same | ⟨_, same⟩ <;> cases same
      | serving _ tasks _ => cases tasks _ head
      | failing at_ fd unwatched tasks _ token =>
          rw [idle, first, List.countP_cons] at token
          simp only [isFailed, ↓reduceIte, List.count_nil] at token
          have none : queue.countP isFailed = 0 := by omega
          refine sound.runTask_failed (open_ nofun) err at_ fd unwatched (fun task among => ?_) ?_
          · rw [first] at tasks
            rcases tasks task (List.mem_cons_of_mem _ among) with same | ⟨_, rfl⟩
            · exact same
            · exact absurd rfl (List.countP_eq_zero.mp none _ among)
          · rw [idle]
            nofun

/-- A system call of `listenAndWait()` changes the descriptor and its own progress. -/
theorem setup_cases {outcome : SetupOutcome} (taken : s.setup outcome = some next) :
    Setting s.listening ∧ ∃ fd listening, next = { s with listen_fd_ := fd, listening } ∧
      Setting listening ∧ listening ≠ .parseAddress ∧
      (∀ err, listening = .postFailed err →
        fd < 0 ∨ s.listening = .parseAddress ∧ fd = s.listen_fd_) := by
  unfold setup at taken
  split at taken
  all_goals first
    | cases taken
      done
    | rename_i at_
      obtain rfl := Option.some.inj taken
      rw [at_]
      refine ⟨by constructor, _, _, rfl, by constructor, nofun, ?_⟩
      intro err same
      first
        | exact Or.inr ⟨rfl, rfl⟩
        | exact Or.inl (by decide)
        | cases same

theorem Sound.setup (sound : s.Sound) {outcome : SetupOutcome}
    (taken : s.setup outcome = some next) : next.Sound := by
  obtain ⟨setting, fd, listening, rfl, after, moved, failed⟩ := setup_cases taken
  have open_ : .shutdown ∉ s.log := by
    intro shut
    rcases (sound.closed shut).at_ with at_ | at_ | at_ | at_ <;> rw [at_] at setting <;>
      cases setting
  have stage : Stage { s with listen_fd_ := fd, listening } ∧ s.Unwatched := by
    cases sound.opened open_ with
    | setting _ unwatched negative tasks frames =>
        refine ⟨.setting after unwatched ?_ tasks frames, unwatched⟩
        rintro (same | ⟨err, same⟩)
        · exact absurd same moved
        · rcases failed err same with known | ⟨parse, kept⟩
          · exact known
          · exact kept ▸ negative (Or.inl parse)
    | fresh at_ => rw [at_] at setting; cases setting
    | posted at_ => rw [at_] at setting; cases setting
    | serving at_ => rcases at_ with at_ | at_ <;> rw [at_] at setting <;> cases setting
    | failing at_ => rcases at_ with at_ | at_ <;> rw [at_] at setting <;> cases setting
  refine sound.of_same_log rfl sound.tidy (fun fd held => absurd held (stage.2 fd)) rfl rfl
    (fun _ _ => stage.1) (fun shut => absurd shut open_)

/-- What may be posted where: behind `onShutdown` only the task that watches. -/
theorem Sound.may_post (sound : s.Sound) {task : ListenerTask} {listening : Listening}
    (posts : posting s.listening = some (task, listening)) :
    (.shutdown ∈ s.log ∧ task = .watch ∧ listening = .waiting) ∨
      .shutdown ∉ s.log ∧ s.Unwatched ∧
        (∀ frame ∈ s.stack, frame = .user ∨ frame = .listening) ∧
        ((∃ err, task = .failed err) ∧ listening = .waiting ∧ s.listen_fd_ < 0 ∧
            (∀ task ∈ s.queue, task = .shutdown) ∨
          (∃ address, task = .started address) ∧ listening = .postWatch ∧
            (∀ task ∈ s.queue, task = .shutdown) ∨
          task = .watch ∧ listening = .waiting ∧
            ∀ task ∈ s.queue, task = .shutdown ∨ ∃ address, task = .started address) := by
  by_cases shut : .shutdown ∈ s.log
  · rcases (sound.closed shut).at_ with at_ | at_ | at_ | at_ <;> rw [at_] at posts <;>
      cases posts
    exact Or.inl ⟨shut, rfl, rfl⟩
  · refine Or.inr ⟨shut, ?_⟩
    cases sound.opened shut with
    | fresh at_ => rw [at_] at posts; cases posts
    | serving at_ => rcases at_ with at_ | at_ <;> rw [at_] at posts <;> cases posts
    | failing at_ => rcases at_ with at_ | at_ <;> rw [at_] at posts <;> cases posts
    | posted at_ unwatched tasks frames =>
        rw [at_] at posts
        obtain ⟨rfl, rfl⟩ := Prod.mk.inj (Option.some.inj posts)
        exact ⟨unwatched, frames, Or.inr (Or.inr ⟨rfl, rfl, tasks⟩)⟩
    | setting at_ unwatched fd tasks frames =>
        refine ⟨unwatched, frames, ?_⟩
        cases current : s.listening with
        | postFailed err =>
            rw [current] at posts
            obtain ⟨rfl, rfl⟩ := Prod.mk.inj (Option.some.inj posts)
            exact Or.inl ⟨⟨err, rfl⟩, rfl, fd (Or.inr ⟨err, current⟩), tasks⟩
        | postStarted address =>
            rw [current] at posts
            obtain ⟨rfl, rfl⟩ := Prod.mk.inj (Option.some.inj posts)
            exact Or.inr (Or.inl ⟨⟨address, rfl⟩, rfl, tasks⟩)
        | postWatch => rw [current] at at_; cases at_
        | _ => rw [current] at posts; cases posts

/-- A task is queued, or dropped because the queue is full. -/
theorem Sound.post_queue (sound : s.Sound) {task : ListenerTask} {listening : Listening}
    (posts : posting s.listening = some (task, listening)) {queue : List ListenerTask}
    (grown : queue = s.queue ++ [task] ∨ queue = s.queue) :
    Sound { s with listening, queue } := by
  have among : ∀ other ∈ queue, other ∈ s.queue ∨ other = task := by
    intro other inside
    rcases grown with rfl | rfl
    · exact (List.mem_append.mp inside).imp_right List.mem_singleton.mp
    · exact Or.inl inside
  rcases sound.may_post posts with ⟨shut, rfl, rfl⟩ | ⟨open_, unwatched, frames, cases⟩
  · refine sound.of_same_log rfl sound.tidy sound.owns rfl rfl (fun open_ => absurd shut open_)
      (fun _ quiet => ⟨Or.inr (Or.inr (Or.inl rfl)), quiet.fd, quiet.unwatched, ?_, quiet.frames⟩)
    exact fun other inside => (among other inside).elim (quiet.tasks other) Or.inl
  have noShutdown : s.stack.count .onShutdown = 0 := by
    rw [List.count_eq_zero]
    intro inside
    rcases frames _ inside with same | same <;> cases same
  have served : ∀ frame ∈ s.stack,
      frame = .user ∨ frame = .listening ∨ ∃ left, frame = .accept left :=
    fun frame inside => (frames frame inside).imp_right Or.inl
  refine sound.of_same_log rfl sound.tidy sound.owns rfl rfl (fun _ _ => ?_)
    (fun shut => absurd shut open_)
  rcases cases with ⟨⟨err, rfl⟩, rfl, fd, tasks⟩ | ⟨⟨address, rfl⟩, rfl, tasks⟩ | ⟨rfl, rfl, tasks⟩
  · rcases grown with rfl | rfl
    · refine .failing (Or.inl rfl) fd unwatched (fun other inside => ?_)
        (fun frame inside left => ?_) ?_
      · exact (among other inside).imp (tasks other) fun same => ⟨err, same⟩
      · rcases frames frame inside with rfl | rfl <;> nofun
      · have none : s.queue.countP isFailed = 0 := by
          rw [List.countP_eq_zero]
          intro other inside
          rw [tasks other inside]
          exact Bool.false_ne_true
        simp only [List.countP_append, none, noShutdown]
        rfl
    · refine .serving (Or.inl rfl) (fun other inside => ?_) served
      rw [tasks other inside]
      rfl
  · refine .posted rfl unwatched (fun other inside => ?_) frames
    exact (among other inside).imp (tasks other) fun same => ⟨address, same⟩
  · refine .serving (Or.inl rfl) (fun other inside => ?_) served
    rcases among other inside with before | rfl
    · rcases tasks other before with rfl | ⟨address, rfl⟩ <;> rfl
    · rfl

theorem Sound.post (sound : s.Sound) {queued : Bool} (taken : s.post queued = some next) :
    next.Sound := by
  unfold TcpListener.post at taken
  split at taken
  · cases taken
  · rename_i task listening posts
    dsimp only at taken
    split at taken
    · obtain rfl := Option.some.inj taken
      have kept := sound.post_queue posts (Or.inr rfl)
      rcases sound.may_post posts with ⟨shut, rfl, rfl⟩ | ⟨open_, unwatched, frames, cases⟩
      · rw [TcpListener.runTask, kept.watch.2.2 (sound.closed shut).fd]
        exact kept
      rcases cases with ⟨⟨err, rfl⟩, rfl, fd, tasks⟩ | ⟨⟨address, rfl⟩, rfl, -⟩ | ⟨rfl, rfl, tasks⟩
      · exact sound.runTask_failed open_ err (Or.inl rfl) fd unwatched tasks frames
      · exact kept.fire open_ ⟨nofun, nofun⟩
      · obtain ⟨tidy, owns, -⟩ := kept.watch
        refine kept.of_same_log rfl tidy owns rfl rfl (fun _ _ => ?_)
          (fun shut => absurd shut open_)
        refine .serving (Or.inl rfl) (fun other inside => ?_)
          (fun frame inside => (frames frame inside).imp_right Or.inl)
        rcases tasks other inside with rfl | ⟨address, rfl⟩ <;> rfl
    · split at taken
      · obtain rfl := Option.some.inj taken
        exact sound.post_queue posts (Or.inl rfl)
      · obtain rfl := Option.some.inj taken
        exact sound.post_queue posts (Or.inr rfl)

theorem Sound.listen (sound : s.Sound) (open_ : .shutdown ∉ s.log)
    (called : s.listening = .notCalled) {onLoop : Bool} {stack : List Frame}
    (grown : stack = s.stack ∨ stack = .listening :: s.stack) :
    Sound { s with listening := .parseAddress, onLoop, stack } := by
  have count : ∀ frame : Frame, frame ≠ .listening → stack.count frame = s.stack.count frame := by
    intro frame other
    rcases grown with rfl | rfl
    · rfl
    · exact List.count_cons_of_ne other.symm
  refine sound.of_same_log rfl sound.tidy sound.owns (count _ nofun) (count _ nofun) (fun _ _ => ?_)
    (fun shut => absurd shut open_)
  cases sound.opened open_ with
  | fresh _ fd unwatched tasks frames =>
      refine .setting .parseAddress unwatched (fun _ => fd) tasks fun frame among => ?_
      rcases grown with rfl | rfl
      · exact Or.inl (frames frame among)
      · exact (List.mem_cons.mp among).symm.imp_left (frames frame)
  | setting at_ => rw [called] at at_; cases at_
  | posted at_ => rw [called] at at_; cases at_
  | serving at_ => rcases at_ with at_ | at_ <;> rw [called] at at_ <;> cases at_
  | failing at_ => rcases at_ with at_ | at_ <;> rw [called] at at_ <;> cases at_

/-- A frame that invokes nothing is left. -/
theorem Stage.pop (stage : s.Stage) {frame : Frame} {frames : List Frame} {log : List ListenerEvent}
    {latch : Nat} (top : s.stack = frame :: frames) (apart : frame ≠ .onShutdown) :
    Stage { s with log, latch, stack := frames } := by
  have rest : ∀ {allowed : Frame → Prop}, (∀ frame ∈ s.stack, allowed frame) →
      ∀ frame ∈ frames, allowed frame := by
    rw [top]
    exact fun all frame among => all frame (List.mem_cons_of_mem _ among)
  cases stage with
  | fresh at_ fd unwatched tasks all => exact .fresh at_ fd unwatched tasks (rest all)
  | setting at_ unwatched fd tasks all => exact .setting at_ unwatched fd tasks (rest all)
  | posted at_ unwatched tasks all => exact .posted at_ unwatched tasks (rest all)
  | serving at_ tasks all => exact .serving at_ tasks (rest all)
  | failing at_ fd unwatched tasks all token =>
      refine .failing at_ fd unwatched tasks (rest all) ?_
      rw [top, List.count_cons_of_ne apart] at token
      exact token

theorem Quiet.pop (quiet : s.Quiet) {frame : Frame} {frames : List Frame} {log : List ListenerEvent}
    {latch : Nat} (top : s.stack = frame :: frames) :
    Quiet { s with log, latch, stack := frames } := by
  refine ⟨quiet.at_, quiet.fd, quiet.unwatched, quiet.tasks,
    fun other among => quiet.frames other ?_⟩
  rw [top]
  exact List.mem_cons_of_mem _ among

theorem Sound.pop (sound : s.Sound) {frame : Frame} {frames : List Frame}
    (top : s.stack = frame :: frames) (apart : frame ≠ .onShutdown ∧ frame ≠ .countDown) :
    Sound { s with stack := frames } := by
  have count : ∀ other : Frame, frame ≠ other → frames.count other = s.stack.count other := by
    intro other differs
    rw [top, List.count_cons_of_ne differs]
  exact sound.of_same_log rfl sound.tidy sound.owns (count _ apart.2) (count _ apart.1)
    (fun _ stage => stage.pop top apart.1) (fun _ quiet => quiet.pop top)

theorem Sound.countDown (sound : s.Sound) {frames : List Frame} {latch : Nat}
    (top : s.stack = .countDown :: frames) :
    Sound { s with log := s.log ++ [.countDown], latch, stack := frames } := by
  have same : .shutdown ∈ s.log ++ [.countDown] ↔ .shutdown ∈ s.log := by
    simp only [List.mem_append, List.mem_singleton, reduceCtorEq, or_false]
  refine ⟨sound.tidy, sound.owns, ?_, ?_, fun open_ => ?_, fun shut => ?_⟩
  · have balance := sound.balance
    rw [top, List.count_cons_self,
      List.count_cons_of_ne (show Frame.countDown ≠ .onShutdown by nofun)] at balance
    simp only [List.count_append, List.count_singleton_self]
    rw [List.count_eq_zero_of_not_mem (show ListenerEvent.shutdown ∉ [.countDown] by simp)]
    omega
  · refine List.pairwise_append.mpr ⟨sound.order, List.pairwise_singleton _ _, ?_⟩
    exact fun early _ late among _ => List.mem_singleton.mp among
  · exact (sound.opened (mt same.mpr open_)).pop top nofun
  · exact (sound.closed (same.mp shut)).pop top

/-- The second callback of a failure's closure. -/
theorem Sound.onShutdown (sound : s.Sound) {frames : List Frame}
    (top : s.stack = .onShutdown :: frames) : (s.fire .shutdown frames).Sound := by
  have inside : Frame.onShutdown ∈ s.stack := by
    rw [top]
    exact List.mem_cons_self
  have open_ : .shutdown ∉ s.log := by
    intro shut
    rcases (sound.closed shut).frames _ inside with same | same | same | same <;> cases same
  cases sound.opened open_ with
  | fresh _ _ _ _ all => cases all _ inside
  | setting _ _ _ _ all => rcases all _ inside with same | same <;> cases same
  | posted _ _ _ all => rcases all _ inside with same | same <;> cases same
  | serving _ _ all => rcases all _ inside with same | same | ⟨_, same⟩ <;> cases same
  | failing at_ fd unwatched tasks all token =>
      have counts := sound.no_countDown open_
      rw [top, List.count_cons_self] at token counts
      rw [List.count_cons_of_ne (show Frame.onShutdown ≠ .countDown by nofun)] at counts
      have noShutdown : frames.count .onShutdown = 0 := by omega
      have noFailure : s.queue.countP isFailed = 0 := by omega
      refine sound.shutdown open_ rfl sound.tidy ?_ ⟨Or.inr (Or.inr at_), fd, unwatched, ?_, ?_⟩
      · simp only [TcpListener.fire, List.count_cons_of_ne (show Frame.user ≠ .countDown by nofun)]
        omega
      · intro task among
        rcases tasks task among with rfl | ⟨err, rfl⟩
        · exact Or.inr rfl
        · exact absurd rfl (List.countP_eq_zero.mp noFailure _ among)
      · intro frame among
        rcases List.mem_cons.mp among with rfl | among
        · exact Or.inl rfl
        · cases frame with
          | user => exact Or.inl rfl
          | listening => exact Or.inr (Or.inl rfl)
          | countDown => exact Or.inr (Or.inr (Or.inr rfl))
          | onShutdown => exact absurd among (List.count_eq_zero.mp noShutdown)
          | accept left =>
              rw [top] at all
              exact absurd rfl (all _ (List.mem_cons_of_mem _ among) left)

/-- The accept loop runs only before `onShutdown`, in a listener that waits. -/
theorem Sound.accept (sound : s.Sound) {left : Nat} {frames : List Frame}
    (top : s.stack = .accept (left + 1) :: frames) (outcome : AcceptOutcome) :
    (s.accept left frames outcome).Sound := by
  have inside : Frame.accept (left + 1) ∈ s.stack := by
    rw [top]
    exact List.mem_cons_self
  have open_ : .shutdown ∉ s.log := by
    intro shut
    rcases (sound.closed shut).frames _ inside with same | same | same | same <;> cases same
  cases sound.opened open_ with
  | fresh _ _ _ _ all => cases all _ inside
  | setting _ _ _ _ all => rcases all _ inside with same | same <;> cases same
  | posted _ _ _ all => rcases all _ inside with same | same <;> cases same
  | failing _ _ _ _ all _ => exact absurd rfl (all _ inside _)
  | serving at_ tasks all =>
      have counts := sound.no_countDown open_
      rw [top, List.count_cons_of_ne (show Frame.accept (left + 1) ≠ .countDown by nofun),
        List.count_cons_of_ne (show Frame.accept (left + 1) ≠ .onShutdown by nofun)] at counts
      have rest : ∀ frame ∈ frames, frame = .user ∨ frame = .listening ∨
          ∃ left, frame = .accept left := by
        rw [top] at all
        exact fun frame among => all frame (List.mem_cons_of_mem _ among)
      have again : ∀ frame ∈ Frame.accept left :: frames,
          frame = .user ∨ frame = .listening ∨ ∃ left, frame = .accept left := by
        intro frame among
        rcases List.mem_cons.mp among with rfl | among
        · exact Or.inr (Or.inr ⟨left, rfl⟩)
        · exact rest frame among
      have fired : ∀ (event : ListenerEvent), event ≠ .shutdown ∧ event ≠ .countDown →
          ∀ behind, behind = frames ∨ behind = .accept left :: frames →
            (s.fire event behind).Sound := by
        intro event apart behind kind
        refine sound.event open_ apart rfl sound.tidy sound.owns ?_ (.serving at_ tasks ?_)
        · rcases kind with rfl | rfl <;>
            simp only [TcpListener.fire, List.count_cons, beq_iff_eq, reduceCtorEq, ↓reduceIte] <;>
            omega
        · intro frame among
          rcases List.mem_cons.mp among with rfl | among
          · exact Or.inl rfl
          · rcases kind with rfl | rfl
            · exact rest frame among
            · exact again frame among
      cases outcome with
      | accepted fd nonBlocking => exact fired (.accepted _) ⟨nofun, nofun⟩ _ (Or.inr rfl)
      | failed err =>
          unfold TcpListener.accept
          dsimp only
          split
          · refine sound.of_same_log rfl sound.tidy sound.owns ?_ ?_
              (fun _ _ => .serving at_ tasks again) (fun shut => absurd shut open_)
            · rw [top]
              simp only [List.count_cons, beq_iff_eq, reduceCtorEq, ↓reduceIte]
            · rw [top]
              simp only [List.count_cons, beq_iff_eq, reduceCtorEq, ↓reduceIte]
          · split
            · exact fired (.error err) ⟨nofun, nofun⟩ _ (Or.inl rfl)
            · exact fired (.failure err) ⟨nofun, nofun⟩ _ (Or.inl rfl)

theorem Sound.readable (sound : s.Sound) (idle : s.stack = []) {fd : Nat}
    (held : s.ew.registered fd .RDONLY = some (.user .onReadable)) (left : Nat) :
    Sound { s with stack := [.accept left] } := by
  refine sound.of_same_log rfl sound.tidy sound.owns ?_ ?_ (fun _ stage => ?_) (fun _ quiet => ?_)
  · rw [idle]
    rfl
  · rw [idle]
    rfl
  · cases stage with
    | fresh _ _ unwatched => exact absurd held (unwatched fd)
    | setting _ unwatched => exact absurd held (unwatched fd)
    | posted _ unwatched => exact absurd held (unwatched fd)
    | failing _ _ unwatched => exact absurd held (unwatched fd)
    | serving at_ tasks _ =>
        exact .serving at_ tasks fun frame among =>
          Or.inr (Or.inr ⟨left, List.mem_singleton.mp among⟩)
  · exact absurd held (quiet.unwatched fd)

theorem Sound.other (sound : s.Sound) (idle : s.stack = []) :
    Sound { s with stack := [.user] } := by
  refine sound.of_same_log rfl sound.tidy sound.owns ?_ ?_ (fun _ stage => ?_) (fun _ quiet => ?_)
  · rw [idle]
    rfl
  · rw [idle]
    rfl
  · have pushed := stage.push_user s.log
    rw [idle] at pushed
    exact pushed
  · exact ⟨quiet.at_, quiet.fd, quiet.unwatched, quiet.tasks,
      fun frame among => Or.inl (List.mem_singleton.mp among)⟩

/-- Another thread's `shutdown()` waits in the queue. -/
theorem Sound.queue_shutdown (sound : s.Sound) :
    Sound { s with queue := s.queue ++ [.shutdown] } := by
  have both : ∀ {allowed : ListenerTask → Prop}, allowed .shutdown →
      (∀ task ∈ s.queue, allowed task) → ∀ task ∈ s.queue ++ [.shutdown], allowed task := by
    intro allowed one all task among
    rcases List.mem_append.mp among with among | last
    · exact all task among
    · exact List.mem_singleton.mp last ▸ one
  refine sound.of_same_log rfl sound.tidy sound.owns rfl rfl (fun _ stage => ?_) (fun _ quiet => ?_)
  · cases stage with
    | fresh at_ fd unwatched tasks frames => exact .fresh at_ fd unwatched (both rfl tasks) frames
    | setting at_ unwatched fd tasks frames =>
        exact .setting at_ unwatched fd (both rfl tasks) frames
    | posted at_ unwatched tasks frames =>
        exact .posted at_ unwatched (both (Or.inl rfl) tasks) frames
    | serving at_ tasks frames => exact .serving at_ (both rfl tasks) frames
    | failing at_ fd unwatched tasks frames token =>
        refine .failing at_ fd unwatched (both (Or.inl rfl) tasks) frames ?_
        rw [List.countP_append]
        exact token
  · exact ⟨quiet.at_, quiet.fd, quiet.unwatched, both (Or.inr rfl) quiet.tasks, quiet.frames⟩

theorem Sound.released (sound : s.Sound) (waits : s.listening = .waiting) {frames : List Frame}
    (kept : s.stack = frames ∨ s.stack = .listening :: frames) :
    Sound { s with listening := .returned, stack := frames } := by
  have count : ∀ frame : Frame, frame ≠ .listening → frames.count frame = s.stack.count frame := by
    intro frame other
    rcases kept with same | same <;> rw [same]
    rw [List.count_cons_of_ne other.symm]
  have rest : ∀ {allowed : Frame → Prop}, (∀ frame ∈ s.stack, allowed frame) →
      ∀ frame ∈ frames, allowed frame := by
    rcases kept with same | same <;> rw [same]
    · exact fun all => all
    · exact fun all frame among => all frame (List.mem_cons_of_mem _ among)
  refine sound.of_same_log rfl sound.tidy sound.owns (count _ nofun) (count _ nofun)
    (fun _ stage => ?_) (fun _ quiet => ?_)
  · cases stage with
    | fresh at_ => rw [waits] at at_; cases at_
    | setting at_ => rw [waits] at at_; cases at_
    | posted at_ => rw [waits] at at_; cases at_
    | serving _ tasks all => exact .serving (Or.inr rfl) tasks (rest all)
    | failing _ fd unwatched tasks all token =>
        refine .failing (Or.inr rfl) fd unwatched tasks (rest all) ?_
        rw [← count .onShutdown nofun] at token
        exact token
  · exact ⟨Or.inr (Or.inr (Or.inr rfl)), quiet.fd, quiet.unwatched, quiet.tasks, rest quiet.frames⟩

theorem Sound.resume (sound : s.Sound) (taken : step s .resume = some next) : next.Sound := by
  simp only [step] at taken
  split at taken
  · rename_i top
    exact Option.some.inj taken ▸ sound.pop top ⟨nofun, nofun⟩
  · rename_i top
    exact Option.some.inj taken ▸ sound.pop top ⟨nofun, nofun⟩
  · rename_i top
    exact Option.some.inj taken ▸ sound.onShutdown top
  · rename_i top
    exact Option.some.inj taken ▸ sound.countDown top
  · cases taken

theorem Sound.step (sound : s.Sound) {label : Label} (timely : s.Timely label)
    (taken : step s label = some next) : next.Sound := by
  cases label with
  | listen onLoop =>
      simp only [TcpListener.step] at taken
      split at taken
      · rename_i called
        split at taken
        · split at taken
          · rename_i frames top
            rw [← top] at taken
            exact Option.some.inj taken ▸ sound.listen timely called (Or.inr rfl)
          · cases taken
        · exact Option.some.inj taken ▸ sound.listen timely called (Or.inl rfl)
      · cases taken
  | setup outcome =>
      simp only [TcpListener.step] at taken
      split at taken
      · exact sound.setup taken
      · cases taken
  | post queued =>
      simp only [TcpListener.step] at taken
      split at taken
      · exact sound.post taken
      · cases taken
  | released =>
      simp only [TcpListener.step] at taken
      split at taken
      · rename_i ready
        obtain ⟨listens, waits, -⟩ := ready
        rw [← Option.some.inj taken]
        refine sound.released waits ?_
        split
        · rename_i onLoop
          simp only [TcpListener.listens, onLoop, Bool.not_true, Bool.false_or, decide_eq_true_eq]
            at listens
          cases top : s.stack with
          | nil => rw [top] at listens; cases listens
          | cons frame frames =>
              rw [top, List.head?_cons] at listens
              rw [Option.some.inj listens]
              exact Or.inr rfl
        · exact Or.inl rfl
      · cases taken
  | shutdown queued =>
      simp only [TcpListener.step] at taken
      split at taken
      · exact Option.some.inj taken ▸ sound.queue_shutdown
      · exact Option.some.inj taken ▸ sound
  | shutdownInline =>
      simp only [TcpListener.step] at taken
      split at taken
      · have closing := @Sound.runTask_shutdown _ sound timely s.queue fun _ among => among
        exact Option.some.inj taken ▸ closing
      · cases taken
  | other =>
      simp only [TcpListener.step] at taken
      split at taken
      · rename_i idle
        exact Option.some.inj taken ▸ sound.other idle
      · cases taken
  | task =>
      simp only [TcpListener.step] at taken
      split at taken
      · rename_i task queue idle first
        rw [← Option.some.inj taken]
        by_cases closing : task = .shutdown
        · subst closing
          refine sound.runTask_shutdown (timely (by rw [first]; rfl)) fun other among => ?_
          rw [first]
          exact List.mem_cons_of_mem _ among
        · exact sound.runTask idle first closing
      · cases taken
  | readable fd =>
      simp only [TcpListener.step] at taken
      split at taken
      · rename_i idle
        split at taken
        · rename_i held
          exact Option.some.inj taken ▸ sound.readable idle held 256
        · cases taken
      · cases taken
  | accept outcome =>
      simp only [TcpListener.step] at taken
      split at taken
      · rename_i top
        exact Option.some.inj taken ▸ sound.accept top outcome
      · cases taken
  | resume => exact sound.resume taken

end Steps

theorem Sound.init (eventfd : Nat) : Sound (init eventfd) := by
  have unwatched : (TcpListener.init eventfd).Unwatched := by
    intro fd held
    simp only [TcpListener.init, EventWatcher.registered_create] at held
    split at held <;> cases held
  have tidy : (TcpListener.init eventfd).ew.Tidy :=
    (EventWatcher.create_consistent eventfd).tidy
  refine ⟨tidy, fun fd held => absurd held (unwatched fd), rfl, List.Pairwise.nil, fun _ => ?_,
    fun shut => absurd shut List.not_mem_nil⟩
  exact .fresh rfl (show (-1 : Int) < 0 by decide) unwatched
    (fun _ among => absurd among List.not_mem_nil) (fun _ among => absurd among List.not_mem_nil)

/-- The protocol of shutdown holds in every run whose `shutdown()` closures start when
nothing else is under way that could still invoke a callback. -/
theorem shutdown_protocol {eventfd : Nat} {labels : List Label} {s : TcpListener}
    (timely : Exec (Guarded Timely (Of step)) (init eventfd) labels s) : Protocol s.log := by
  have sound : s.Sound := timely.invariant Sound (Sound.init eventfd)
    fun _ _ _ before taken => before.step taken.1 taken.2
  exact sound.protocol

/-- A listener that accepts one client and is shut down by another thread. -/
def oneClient : List Label :=
  [.listen false, .setup (.ok 7 ""), .setup (.ok 7 ""), .setup (.ok 7 ""), .setup (.ok 7 ""),
    .setup (.ok 7 ""), .setup (.ok 7 "127.0.0.1:9000"), .post true, .post true, .task, .resume,
    .task, .readable 7, .accept (.accepted 8 true), .resume, .shutdown true,
    .accept (.failed EAGAIN), .resume, .task, .resume, .resume, .released]

theorem shutdown_protocol_oneClient :
    ∃ s, Run 5 oneClient s ∧ s.listening = .returned ∧ Protocol s.log := by
  have runs : (Transition.run (guardedStep (fun s label => decide (Timely s label)) step) (init 5)
      oneClient).isSome = true := by decide +kernel
  have timely : Exec (Guarded Timely (Of step)) (init 5) oneClient _ :=
    (Transition.exec_of_isSome runs).mono fun state label next taken =>
      have guarded := guardedStep_of state label next taken
      ⟨of_decide_eq_true guarded.1, guarded.2⟩
  refine ⟨_, timely.unguarded, ?_, shutdown_protocol timely⟩
  clear timely
  revert runs
  decide +kernel

/-- `shutdown()` is called from `onAccepted`: the loop goes on with the closed descriptor. -/
def shutDownByClient : List Label :=
  [.listen false, .setup (.ok 7 ""), .setup (.ok 7 ""), .setup (.ok 7 ""), .setup (.ok 7 ""),
    .setup (.ok 7 ""), .setup (.ok 7 "127.0.0.1:9000"), .post true, .post true, .task, .resume,
    .task, .readable 7, .accept (.accepted 8 true), .shutdownInline, .resume, .resume, .resume,
    .accept (.failed EBADF)]

theorem failure_follows_shutdown :
    ¬ ∀ (labels : List Label) (s : TcpListener), Run 5 labels s → Protocol s.log := by
  intro protocol
  have runs : (Transition.run step (init 5) shutDownByClient).isSome = true := by decide +kernel
  have silent := (protocol _ _ (Transition.exec_of_isSome runs)).silent
    [.started "127.0.0.1:9000", .accepted (some 8)] [.countDown, .failure EBADF]
  revert runs silent
  decide +kernel

end TcpListener

end Getrafty
