import Getrafty.TcpSocketPhases

set_option autoImplicit false

namespace Getrafty

open Transition (Exec Of Guarded)
open TcpTransport (attempt openFds)

namespace TcpSocket

/-- `client_fd_` is open and watched for, and when it is ready one reply follows. -/
structure Awaits (t : TcpTransport) : Prop where
  opened : t.client_fd_ ∈ openFds t.calls
  watched : t.watched.lookup (t.client_fd_, .WRONLY) = some .onConnectReady
  once : ∀ o, (∃ status, (t.onConnectReady o).inflight = t.inflight ++ [.ConnectRep status]) ∧
    (t.onConnectReady o).watched.lookup (t.client_fd_, .WRONLY) = none

/-- The reply that the socket waits for is in flight, or will be. -/
structure Resolving (s : TcpSocket) : Prop where
  bind : s.socket.state_ = .BindWait →
    ∃ status endpoint, .BindRep status endpoint ∈ s.transport.inflight
  connect : s.socket.state_ = .ConnectWait →
    (∃ status, .ConnectRep status ∈ s.transport.inflight) ∨ Awaits s.transport

/-- An attempt to connect is under way once `connect` returns. -/
def Starts (s : TcpSocket) : Label → Prop
  | .connect o => s.socket.state_ = .Idle → TcpTransport.ConnectOutcome.Starts o
  | _ => True

instance (s : TcpSocket) : DecidablePred s.Starts :=
  fun label => match label with
    | .connect _ => inferInstanceAs (Decidable (_ → _))
    | .bind _ | .read | .write _ _ | .close | .deliver _ | .acceptReady _ _ | .connectReady _ _
    | .readReady _ | .writeReady _ | .resumeRead _ _ | .resumeWrite _ | .failWrite _ | .resume =>
        isTrue trivial

section Resolving

variable {s next : TcpSocket} {label : Label} {labels : List Label} {t : TcpTransport} {fd : Fd}

theorem awaits_attempt (some_fd : 0 ≤ fd) : Awaits (attempt fd) where
  opened := List.mem_singleton.mpr rfl
  watched := (TcpTransport.attempt_watched fd fd .WRONLY).trans (if_pos rfl)
  once := fun o =>
    have ends := TcpTransport.attempt_ends some_fd o
    ⟨ends.1, ends.2 _⟩

theorem Phased.awaits (phased : Phased s) (awaits : Awaits s.transport) :
    ∃ fd, 0 ≤ fd ∧ s.transport = TcpTransport.attempt fd := (phased.attempt _ awaits.watched).2

/-- What is waited for stays in flight, or to come. -/
theorem Resolving.carried (resolving : Resolving s) (same : next.socket.state_ = s.socket.state_)
    (posted : ∀ reply ∈ s.transport.inflight, reply ∈ next.transport.inflight)
    (awaits : Awaits s.transport → Awaits next.transport) : Resolving next := by
  constructor
  · intro waits
    obtain ⟨status, endpoint, flies⟩ := resolving.bind (same ▸ waits)
    exact ⟨status, endpoint, posted _ flies⟩
  · intro waits
    rcases resolving.connect (same ▸ waits) with ⟨status, flies⟩ | pending
    · exact Or.inl ⟨status, posted _ flies⟩
    · exact Or.inr (awaits pending)

/-- Nothing is waited for. -/
theorem Resolving.settled (bind : s.socket.state_ ≠ .BindWait)
    (connect : s.socket.state_ ≠ .ConnectWait) : Resolving s :=
  ⟨fun waits => absurd waits bind, fun waits => absurd waits connect⟩

theorem bind_posts (t : TcpTransport) (o : BindOutcome) :
    ∃ status endpoint, .BindRep status endpoint ∈ (t.bind o).inflight := by
  rcases TcpTransport.bind_cases t o with ⟨-, result⟩ | ⟨-, result⟩ | ⟨-, endpoint, result⟩
  · rw [result]
    exact ⟨.Fatal, "", List.mem_append_right _ (List.mem_singleton.mpr rfl)⟩
  · rw [result]
    exact ⟨.Fatal, "", List.mem_append_right _ (List.mem_singleton.mpr rfl)⟩
  · rw [result]
    exact ⟨.Ok, endpoint, List.mem_append_right _ (List.mem_singleton.mpr rfl)⟩

/-- The tick of a reply that is waited for ends the wait. -/
theorem reply_settles {socket after : Socket} {reply : Socket.Reply} (sound : socket.Sound)
    (taken : Socket.Step socket (.reply reply) after) (same : after.state_ = socket.state_) :
    (socket.state_ = .BindWait → ∀ status endpoint, reply ≠ .BindRep status endpoint) ∧
      (socket.state_ = .ConnectWait → ∀ status, reply ≠ .ConnectRep status) := by
  constructor
  · rintro waits status endpoint rfl
    cases taken with
    | bindIgnored _ _ other => exact other waits
    | bindReplied _ _ id queue _ first =>
        rw [waits] at same
        split at same <;> cases same
    | bindMoved _ _ queue _ first =>
        rw [waits] at same
        split at same <;> cases same
    | bindMissing _ _ _ empty =>
        obtain ⟨id, held⟩ := sound.bind_slot.waits waits
        rw [empty] at held
        cases held
  · rintro waits status rfl
    cases taken with
    | connectIgnored _ other => exact other waits
    | connectReplied _ id queue _ first =>
        rw [waits] at same
        split at same <;> cases same
    | connectMoved _ queue _ first =>
        rw [waits] at same
        split at same <;> cases same
    | connectMissing _ _ empty =>
        obtain ⟨id, held⟩ := sound.connect_slot.waits waits
        rw [empty] at held
        cases held

theorem Resolving.delivered (resolving : Resolving s) (phased : Phased s)
    (sound : s.socket.Sound) {reply : Socket.Reply} {socket : Socket}
    (taken : Socket.Step s.socket (.reply reply) socket) (posted : reply ∈ s.transport.inflight) :
    Resolving { s with
      socket
      transport := { s.transport with inflight := s.transport.inflight.erase reply } } := by
  rcases Socket.reply_state taken with same | ⟨_, _, -, -, moved⟩ | ⟨_, -, -, moved⟩
  · obtain ⟨bind, connect⟩ := reply_settles sound taken same
    constructor
    · intro waits
      have waited : s.socket.state_ = .BindWait := same ▸ waits
      obtain ⟨status, endpoint, flies⟩ := resolving.bind waited
      exact ⟨status, endpoint, (List.mem_erase_of_ne (bind waited status endpoint).symm).mpr flies⟩
    · intro waits
      have waited : s.socket.state_ = .ConnectWait := same ▸ waits
      rcases resolving.connect waited with ⟨status, flies⟩ | pending
      · exact Or.inl ⟨status, (List.mem_erase_of_ne (connect waited status).symm).mpr flies⟩
      · obtain ⟨fd, -, going⟩ := phased.awaits pending
        rw [going] at posted
        cases posted
  · apply Resolving.settled <;> dsimp only <;> rw [moved] <;> split <;> decide
  · apply Resolving.settled <;> dsimp only <;> rw [moved] <;> split <;> decide

theorem Step.resolving (taken : Step s label next) (phased : Phased s)
    (coherent : Socket.Coherent s.socket) (sound : s.socket.Sound) (starts : Starts s label)
    (resolving : Resolving s) : Resolving next := by
  -- an operation without connections leaves an attempt alone
  have kept {after : TcpTransport}
      (bare : TcpTransport.Bare s.transport → after = s.transport) :
      Awaits s.transport → Awaits after := by
    intro pending
    obtain ⟨fd, -, going⟩ := phased.awaits pending
    rw [bare (going ▸ TcpTransport.bare_attempt fd)]
    exact pending
  cases taken with
  | binds o socket fresh did idle waits =>
      refine ⟨fun _ => bind_posts s.transport o, fun other => ?_⟩
      rw [waits] at other
      cases other
  | connects o socket fresh did idle waits =>
      refine ⟨fun other => ?_, fun _ => Or.inr ?_⟩
      · rw [waits] at other
        cases other
      · have started := starts idle
        rw [phased.idle idle]
        obtain ⟨-, ⟨-, going⟩ | ⟨fails, -⟩⟩ := connect_start o
        · rw [going]
          exact awaits_attempt started.1
        · exact absurd started fails
  | closes socket did open_ closing =>
      apply Resolving.settled <;> rw [closing] <;> decide
  | asked _ request socket asks did same =>
      exact resolving.carried same (fun _ flies => flies) id
  | delivered reply socket idle did posted =>
      exact resolving.delivered phased sound (Socket.step_cases did).2 posted
  | handled _ op transport runs idle unharmed did =>
      have carries := TcpTransport.carries_handler runs did
      refine ⟨fun waits => ?_, fun waits => ?_⟩
      · obtain ⟨status, endpoint, flies⟩ := resolving.bind waits
        exact ⟨status, endpoint, carries.posted _ flies⟩
      · left
        rcases resolving.connect waits with ⟨status, flies⟩ | pending
        · exact ⟨status, carries.posted _ flies⟩
        · obtain ⟨fd, some_fd, going⟩ := phased.awaits pending
          rw [going] at did
          obtain ⟨_, o, -, rfl⟩ := TcpTransport.attempt_handles runs did
          obtain ⟨⟨status, posts⟩, -⟩ := TcpTransport.attempt_ends some_fd o
          exact ⟨status, posts ▸ List.mem_singleton.mpr rfl⟩
  | readTurn order recv socket all did same =>
      exact resolving.carried same (TcpTransport.carries_resumeRead recv all).posted
        (kept fun bare => congrArg Prod.snd (bare.resumeRead recv all))
  | readEnded order recv socket all did connected closing eof =>
      apply Resolving.settled <;> rw [closing] <;> decide
  | writeTurn send peer frames req socket top held did =>
      exact resolving.carried (Socket.write_state (Socket.step_cases did).2)
        (TcpTransport.carries_resumeWrite s.transport req.data (s.socket.writeKey peer) send).posted
        (kept fun bare => bare.resumeWrite req.data (s.socket.writeKey peer) send)
  | resumed _ inner socket runs did other =>
      rcases Socket.inner_state runs (Socket.step_cases did).2 coherent with same | ⟨-, closed⟩
      · exact resolving.carried same (fun _ flies => flies) id
      · apply Resolving.settled <;> rw [closed] <;> decide
  | suspended frames top did empty =>
      exact resolving.carried rfl (TcpTransport.suspendRead_spec s.transport).1.carries.posted
        (kept TcpTransport.Bare.suspendRead)

/-- A connect that gives up without a reply leaves nothing to wait for. -/
theorem Step.not_resolving (taken : Step s label next) (phased : Phased s)
    (sound : s.socket.Sound) (fails : ¬ Starts s label) : ¬ Resolving next := by
  intro resolving
  cases label with
  | connect o =>
      obtain ⟨idle, fails⟩ := Classical.not_imp.mp fails
      cases taken with
      | connects _ socket fresh did _ waits =>
          have after : (s.transport.connect o).inflight = [] ∧
              (s.transport.connect o).watched = ∅ := by
            rw [phased.idle idle]
            obtain ⟨posts, ⟨starts, -⟩ | ⟨-, empty⟩⟩ := connect_start o
            · exact absurd starts fails
            · exact ⟨posts, empty⟩
          rcases resolving.connect waits with ⟨status, flies⟩ | pending
          · rw [after.1] at flies
            cases flies
          · have watched := pending.watched
            rw [after.2] at watched
            cases watched
      | asked _ request socket asks did same =>
          cases asks
          cases (Socket.step_cases did).2 with
          | connectRejected busy => exact busy idle
          | connectAsked _ room =>
              rw [idle] at same
              cases same
          | connectFull _ full =>
              have empty := sound.connect_slot.free (by rw [idle]; rfl) (by rw [idle]; decide)
              rw [empty] at full
              exact absurd Nat.zero_lt_one full
      | handled _ op transport runs => cases runs
      | resumed _ inner socket runs => cases runs
  | _ => exact fails trivial

theorem resolving_start : Resolving {} := Resolving.settled (by decide) (by decide)

theorem kept_resolving (run : Exec (Guarded Starts (Of step)) {} labels s) : Resolving s := by
  induction run with
  | nil => exact resolving_start
  | snoc before taken resolving =>
      have whole := before.unguarded
      have case := step_cases taken.2
      obtain ⟨seen, socket⟩ := Run.socket whole
      exact case.resolving (Run.phased whole) (Run.coherent whole case) (Socket.Run.sound socket)
        taken.1 resolving

/-- All along a run what the socket waits for is in flight or to come, exactly when no `connect`
gives up before it has begun. -/
theorem resolving_iff_starts (run : Run labels s) :
    (∀ front back middle, labels = front ++ back → Run front middle → Resolving middle) ↔
      Exec (Guarded Starts (Of step)) {} labels s := by
  refine run.always_iff Resolving resolving_start fun labels state label next guarded taken => ?_
  have whole := guarded.unguarded
  have case := step_cases taken
  obtain ⟨seen, socket⟩ := Run.socket whole
  have sound := Socket.Run.sound socket
  constructor
  · intro resolving
    by_contra fails
    exact case.not_resolving (Run.phased whole) sound fails resolving
  · intro starts
    exact case.resolving (Run.phased whole) (Run.coherent whole case) sound starts
      (kept_resolving guarded)

/-- An attempt goes on when `connect` returns, and fails later. -/
def lateFailure : List Label :=
  [.connect { fd := 5, rc := -1, errno := EINPROGRESS }, .resume, .connectReady 5 { error := 111 },
    .deliver (.ConnectRep .Fatal)]

theorem resolving_iff_starts_lateFailure :
    ∃ s, Run lateFailure s ∧ s.socket.state_ = .Closed ∧
      ∀ front back middle, lateFailure = front ++ back → Run front middle → Resolving middle := by
  have runs : (Transition.run (Transition.guardedStep (fun s l => decide (Starts s l)) step) {}
      lateFailure).isSome = true := by decide +kernel
  have kept := Transition.guarded_of_isSome runs
  refine ⟨_, kept.unguarded, ?_, (resolving_iff_starts kept.unguarded).mpr kept⟩
  clear kept
  revert runs
  decide +kernel

/-- No descriptor is left for the attempt. -/
def noDescriptor : List Label := [.connect { fd := -1 }]

/-- A connect that gives up at once is never answered. -/
theorem failed_connect_unanswered :
    ¬ ∀ (labels : List Label) (s : TcpSocket), Run labels s → Resolving s := by
  intro always
  have runs : (Transition.run step {} noDescriptor).isSome = true := by decide +kernel
  have run := Transition.exec_of_isSome runs
  have gaveUp : ((Transition.run step {} noDescriptor).get runs).socket.state_ = .ConnectWait ∧
      ((Transition.run step {} noDescriptor).get runs).transport.inflight = [] ∧
      ((Transition.run step {} noDescriptor).get runs).transport.watched.lookup (-1, .WRONLY) =
      none ∧ ((Transition.run step {} noDescriptor).get runs).transport.client_fd_ = -1 := by
    clear run
    revert runs
    decide +kernel
  obtain ⟨waits, flight, watched, client⟩ := gaveUp
  rcases (always _ _ run).connect waits with ⟨status, flies⟩ | pending
  · rw [flight] at flies
    cases flies
  · have watches := pending.watched
    rw [client, watched] at watches
    cases watches

end Resolving

end TcpSocket

end Getrafty
