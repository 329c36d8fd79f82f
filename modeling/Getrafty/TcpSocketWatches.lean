import Getrafty.TcpSocketPhases

set_option autoImplicit false

namespace Getrafty

open Transition (Exec Of)

namespace TcpTransport

/-- `onReadReady` or `onWriteReady`, by the flag. -/
def readyHandler (fd : Fd) : WatchFlag → ReadyHandler
  | .RDONLY => .onReadReady fd
  | .WRONLY => .onWriteReady fd

/-- The handler of a descriptor without a connection. -/
def idleHandler (t : TcpTransport) (fd : Fd) (flag : WatchFlag) : Option ReadyHandler :=
  if 0 ≤ t.listen_fd_ ∧ fd = t.listen_fd_ ∧ flag = .RDONLY then some .onAcceptReady
  else if Attempting t ∧ fd = t.client_fd_ ∧ flag = .WRONLY then some .onConnectReady
  else none

/-- The handler that the members of the transport call for. -/
def handlerFor (t : TcpTransport) (fd : Fd) (flag : WatchFlag) : Option ReadyHandler :=
  match t.conn fd with
  | some c => if c.armed flag then some (readyHandler fd flag) else none
  | none => t.idleHandler fd flag

/-- The watcher has the handlers that the members call for, and no others. -/
structure Mirrors (t : TcpTransport) : Prop where
  nonneg : ∀ fd ∈ openFds t.calls, 0 ≤ fd
  keyed : ∀ fd c, t.conn fd = some c → c.fd_ = fd ∧ fd ∈ openFds t.calls
  listener : 0 ≤ t.listen_fd_ → t.listen_fd_ ∈ openFds t.calls ∧ t.conn t.listen_fd_ = none
  mirror : ∀ fd flag, t.watched.lookup (fd, flag) = t.handlerFor fd flag

section Parts

variable {t t' : TcpTransport} {fd : Fd} {flag : WatchFlag}

theorem handlerFor_conn {c : Connection} (held : t.conn fd = some c) :
    t.handlerFor fd flag = if c.armed flag then some (readyHandler fd flag) else none := by
  rw [handlerFor, held]

theorem handlerFor_idle (none : t.conn fd = none) :
    t.handlerFor fd flag = t.idleHandler fd flag := by
  rw [handlerFor, none]

/-- The listener and the attempt are what they were. -/
structure SameIdle (t t' : TcpTransport) : Prop where
  listen : t'.listen_fd_ = t.listen_fd_
  attempting : Attempting t' ↔ Attempting t
  client : t'.client_fd_ = t.client_fd_

theorem SameIdle.idleHandler (same : SameIdle t t') :
    t'.idleHandler fd flag = t.idleHandler fd flag := by
  simp only [TcpTransport.idleHandler, same.listen, same.client, same.attempting]

theorem attempting_congr (listen : t'.listen_fd_ = t.listen_fd_)
    (client : t'.client_fd_ = t.client_fd_)
    (opened : t.client_fd_ ∈ openFds t'.calls ↔ t.client_fd_ ∈ openFds t.calls)
    (conn : t'.conn t.client_fd_ = none ↔ t.conn t.client_fd_ = none) :
    Attempting t' ↔ Attempting t := by
  unfold Attempting
  rw [listen, client, opened, conn]

theorem Frame.sameIdle (frame : Frame t t')
    (conn : t'.conn t.client_fd_ = none ↔ t.conn t.client_fd_ = none) : SameIdle t t' :=
  ⟨frame.listen, attempting_congr frame.listen frame.client (by rw [frame.fds]) conn, frame.client⟩

theorem armed_setArmed (c : Connection) (flag flag' : WatchFlag) (on : Bool) :
    (c.setArmed flag on).armed flag' = if flag' = flag then on else c.armed flag' := by
  cases flag <;> cases flag' <;> rfl

/-- One connection changes one way of its arming, and the watcher follows. -/
theorem Mirrors.rearm (mirrors : Mirrors t) {c : Connection} {on : Bool} (frame : Frame t t')
    (held : t.conn fd = some c)
    (conn : ∀ fd', t'.conn fd' = if fd' = fd then some (c.setArmed flag on) else t.conn fd')
    (watched : ∀ key, t'.watched.lookup key =
      if key = (fd, flag) then if on then some (readyHandler fd flag) else none
      else t.watched.lookup key) : Mirrors t' := by
  have none_iff : ∀ fd', t'.conn fd' = none ↔ t.conn fd' = none := by
    intro fd'
    rw [conn]
    split
    · rename_i same
      rw [same, held]
      simp
    · exact Iff.rfl
  constructor
  · rw [frame.fds]
    exact mirrors.nonneg
  · intro fd' c' held'
    rw [frame.fds]
    rw [conn] at held'
    split at held'
    · rename_i same
      obtain rfl := Option.some.inj held'
      rw [setArmed_fd, same]
      exact mirrors.keyed fd c held
    · exact mirrors.keyed fd' c' held'
  · rw [frame.listen, frame.fds, none_iff]
    exact mirrors.listener
  · intro fd' flag'
    rw [watched]
    by_cases same : fd' = fd
    · subst same
      have held' : t'.conn fd' = some (c.setArmed flag on) := by rw [conn, if_pos rfl]
      rw [handlerFor_conn held', armed_setArmed]
      by_cases way : flag' = flag
      · rw [if_pos (by rw [way]), if_pos way, way]
      · rw [if_neg (fun same => way (Prod.mk.inj same).2), if_neg way, mirrors.mirror,
          handlerFor_conn held]
    · rw [if_neg (fun here => same (Prod.mk.inj here).1), mirrors.mirror]
      have kept : t'.conn fd' = t.conn fd' := by rw [conn, if_neg same]
      unfold handlerFor
      rw [kept, (frame.sameIdle (none_iff _)).idleHandler]

theorem lookup_watch (key : Fd × WatchFlag) (handler : ReadyHandler) :
    (t.watch fd flag handler).watched.lookup key =
      if key = (fd, flag) then some handler else t.watched.lookup key := by
  split
  · rename_i same
    rw [same]
    exact AList.lookup_insert _
  · rename_i apart
    exact AList.lookup_insert_ne apart

theorem lookup_unwatch (key : Fd × WatchFlag) : (t.unwatch fd flag).watched.lookup key =
    if key = (fd, flag) then none else t.watched.lookup key := by
  split
  · rename_i same
    rw [same]
    exact AList.lookup_erase _ _
  · rename_i apart
    exact AList.lookup_erase_ne apart

theorem Mirrors.arm (mirrors : Mirrors t) {handler : Fd → ReadyHandler}
    (mine : ∀ fd, handler fd = readyHandler fd flag) : Mirrors (t.arm fd flag handler) := by
  have other : ∀ fd, handler fd ≠ .onConnectReady := by
    intro fd
    rw [mine]
    cases flag <;> simp [readyHandler]
  obtain ⟨frame, conn⟩ := t.arm_spec fd flag other
  unfold TcpTransport.arm at frame conn ⊢
  split
  · rename_i c held
    split
    · exact mirrors
    · rename_i unarmed
      rw [held] at frame conn
      simp only [if_neg unarmed] at frame conn
      refine mirrors.rearm frame held (fun fd' => (conn fd').trans rfl) (fun key => ?_)
      show (t.watch c.fd_ flag (handler c.fd_)).watched.lookup key = _
      rw [mine, (mirrors.keyed fd c held).1, lookup_watch, if_pos rfl]
  · exact mirrors

theorem Mirrors.disarm (mirrors : Mirrors t) (fd : Fd) (flag : WatchFlag) :
    Mirrors (t.disarm fd flag) := by
  obtain ⟨frame, conn⟩ := t.disarm_spec fd flag
  unfold TcpTransport.disarm at frame conn ⊢
  split
  · rename_i c held
    split
    · rename_i armed
      rw [held] at frame conn
      simp only [if_pos armed] at frame conn
      refine mirrors.rearm frame held (fun fd' => (conn fd').trans rfl) (fun key => ?_)
      show (t.unwatch c.fd_ flag).watched.lookup key = _
      rw [(mirrors.keyed fd c held).1, lookup_unwatch, if_neg Bool.false_ne_true]
    · exact mirrors
  · exact mirrors

/-- What the watcher has does not depend on the rest. -/
theorem Mirrors.same (mirrors : Mirrors t) (listen : t'.listen_fd_ = t.listen_fd_)
    (client : t'.client_fd_ = t.client_fd_) (fds : openFds t'.calls = openFds t.calls)
    (conn : ∀ fd, t'.conn fd = t.conn fd) (watched : t'.watched = t.watched) : Mirrors t' := by
  constructor
  · rw [fds]
    exact mirrors.nonneg
  · intro fd c held
    rw [fds]
    exact mirrors.keyed fd c ((conn fd).symm.trans held)
  · rw [listen, fds, conn]
    exact mirrors.listener
  · intro fd flag
    have idle : SameIdle t t' :=
      ⟨listen, attempting_congr listen client (by rw [fds]) (by rw [conn]), client⟩
    rw [watched, mirrors.mirror]
    unfold handlerFor
    rw [conn, idle.idleHandler]

theorem idleHandler_none (listening : 0 ≤ t.listen_fd_ → fd ≠ t.listen_fd_)
    (attempting : Attempting t → fd ≠ t.client_fd_) : t.idleHandler fd flag = none := by
  unfold idleHandler
  rw [if_neg (fun here => listening here.1 here.2.1),
    if_neg (fun here => attempting here.1 here.2.1)]

/-- A descriptor with a connection is nobody else's. -/
theorem Mirrors.listening (mirrors : Mirrors t) {c : Connection} (held : t.conn fd = some c)
    (listening : 0 ≤ t.listen_fd_) : fd ≠ t.listen_fd_ := by
  rintro rfl
  rw [(mirrors.listener listening).2] at held
  cases held

theorem Mirrors.release (mirrors : Mirrors t) (fd : Fd) : Mirrors (t.releaseConnection fd) := by
  cases held : t.conn fd with
  | none =>
      unfold releaseConnection
      rw [held]
      exact mirrors
  | some c =>
      have released := releaseConnection_spec held
      have disarmed := (mirrors.disarm fd .RDONLY).disarm fd .WRONLY
      have conn := closeConn_conn t fd
      have watched : (t.releaseConnection fd).watched =
          ((t.disarm fd .RDONLY).disarm fd .WRONLY).watched := by
        unfold releaseConnection
        rw [held]
        rfl
      obtain ⟨first, -⟩ := disarm_spec t fd .RDONLY
      obtain ⟨second, -⟩ := disarm_spec (t.disarm fd .RDONLY) fd .WRONLY
      have frame := first.trans second
      have open_iff : ∀ fd', fd' ∈ openFds (t.releaseConnection fd).calls ↔
          fd' ∈ openFds t.calls ∧ fd' ≠ fd := by
        intro fd'
        rw [released.fds, List.mem_filter, decide_eq_true_iff]
      constructor
      · intro fd' opened
        exact mirrors.nonneg fd' ((open_iff fd').mp opened).1
      · intro fd' c' held'
        rw [released.conn] at held'
        split at held'
        · cases held'
        · rename_i other
          obtain ⟨key, opened⟩ := mirrors.keyed fd' c' held'
          exact ⟨key, (open_iff fd').mpr ⟨opened, other⟩⟩
      · rw [released.listen]
        intro listens
        have other := (mirrors.listening held listens).symm
        rw [open_iff, released.conn, if_neg other]
        exact ⟨⟨(mirrors.listener listens).1, other⟩, (mirrors.listener listens).2⟩
      · intro fd' flag'
        rw [watched, disarmed.mirror]
        have kept : ((t.disarm fd .RDONLY).disarm fd .WRONLY).conn fd' =
            (t.closeConn fd).conn fd' := rfl
        by_cases same : fd' = fd
        · subst same
          rw [conn, if_pos rfl, held, Option.map_some] at kept
          have gone : (t.releaseConnection fd').conn fd' = none := by
            rw [released.conn, if_pos rfl]
          rw [handlerFor_conn kept, handlerFor_idle gone, idleHandler_none]
          · rw [armed_setArmed, armed_setArmed]
            cases flag' <;> rfl
          · rw [released.listen]
            exact mirrors.listening held
          · intro attempting here
            rw [released.client] at here
            have opened := ((open_iff _).mp attempting.1).2
            rw [released.client] at opened
            exact opened here.symm
        · rw [conn, if_neg same] at kept
          have kept' : (t.releaseConnection fd).conn fd' = t.conn fd' := by
            rw [released.conn, if_neg same]
          have attempting : Attempting (t.releaseConnection fd) ↔
              Attempting ((t.disarm fd .RDONLY).disarm fd .WRONLY) := by
            unfold Attempting
            rw [released.client, released.listen, frame.client, frame.listen, open_iff, frame.fds,
              released.conn]
            have client : ((t.disarm fd .RDONLY).disarm fd .WRONLY).conn t.client_fd_ =
                (t.closeConn fd).conn t.client_fd_ := rfl
            rw [client, conn]
            by_cases mine : t.client_fd_ = fd
            · simp [mine, held]
            · simp [mine]
          unfold handlerFor
          rw [kept, kept']
          cases t.conn fd' with
          | some c' => rfl
          | none =>
              unfold idleHandler
              simp only [attempting, released.listen, released.client, frame.listen, frame.client]

theorem Mirrors.recv (mirrors : Mirrors t) (fd : Fd) : Mirrors (t.call (.recv fd)) :=
  mirrors.same rfl rfl (openFds_append _ _) (fun _ => rfl) rfl

theorem Mirrors.send (mirrors : Mirrors t) (fd : Fd) : Mirrors (t.call (.send fd)) :=
  mirrors.same rfl rfl (openFds_append _ _) (fun _ => rfl) rfl

theorem Mirrors.cool (mirrors : Mirrors t) : Mirrors t.coolRead :=
  mirrors.same rfl rfl rfl (fun _ => rfl) rfl

theorem Mirrors.watchRead (mirrors : Mirrors t) (fd : Fd) : Mirrors (t.watchRead fd) :=
  mirrors.arm (fun _ => rfl)

theorem Mirrors.watchWrite (mirrors : Mirrors t) (fd : Fd) : Mirrors (t.watchWrite fd) :=
  mirrors.arm (fun _ => rfl)

theorem Mirrors.scan (mirrors : Mirrors t) (recv : Fd → RecvOutcome) (order : List Fd) :
    Mirrors (TcpTransport.scan recv t order).2 := by
  induction order generalizing t with
  | nil => exact mirrors
  | cons fd rest ih =>
      have visited := (mirrors.watchRead fd).recv fd
      rw [TcpTransport.scan]
      cases recv fd with
      | received chunk => exact visited
      | eof => exact visited.release fd
      | failed errno =>
          dsimp only
          split
          · exact ih visited
          · exact visited.release fd

theorem Mirrors.resumeRead (mirrors : Mirrors t) (order : List Fd) (recv : Fd → RecvOutcome) :
    Mirrors (t.resumeRead order recv).2 := by
  unfold TcpTransport.resumeRead
  cases t.hotFd with
  | none => exact mirrors.cool.scan recv order
  | some fd =>
      have read := mirrors.recv fd
      dsimp only
      cases recv fd with
      | received chunk =>
          rw [readHot]
          dsimp only
          split
          · exact read.cool
          · exact read
      | eof => exact read.cool.release fd
      | failed errno =>
          rw [readHot]
          split
          · exact (read.watchRead fd).cool
          · exact read.cool.release fd

theorem Mirrors.resumeWrite (mirrors : Mirrors t) (data : Buffer) (peer : Peer)
    (send : SendOutcome) : Mirrors (t.resumeWrite data peer send).2 := by
  obtain ⟨result, after, same, case⟩ := resumeWrite_cases t data peer send
  rw [same]
  cases case with
  | unresolved status missing => exact mirrors
  | sent fd n found out some_byte => exact mirrors.send fd
  | blocked fd errno found out full => exact (mirrors.send fd).watchWrite fd
  | ended fd n found out no_byte => exact (mirrors.send fd).release fd
  | broken fd errno found out hard => exact (mirrors.send fd).release fd

theorem Mirrors.suspendRead (mirrors : Mirrors t) : Mirrors t.suspendRead := by
  unfold TcpTransport.suspendRead
  generalize t.connection_by_fd_.keys = fds
  induction fds generalizing t with
  | nil => exact mirrors
  | cons fd fds ih => exact ih (mirrors.disarm fd .RDONLY)

end Parts

section Descriptors

variable {t t' : TcpTransport} {fd : Fd}

/-- The kernel returns no descriptor that anybody knows. -/
theorem Mirrors.fresh (mirrors : Mirrors t) (fresh : t.Fresh fd) : t.conn fd = none ∧
    (0 ≤ t.listen_fd_ → t.listen_fd_ ≠ fd) ∧ (Attempting t → t.client_fd_ ≠ fd) ∧
      ∀ flag, t.watched.lookup (fd, flag) = none := by
  have none : t.conn fd = none := by
    cases held : t.conn fd with
    | none => rfl
    | some c => exact absurd (mirrors.keyed fd c held).2 fresh
  have listening : 0 ≤ t.listen_fd_ → t.listen_fd_ ≠ fd := by
    rintro listens rfl
    exact fresh (mirrors.listener listens).1
  have attempting : Attempting t → t.client_fd_ ≠ fd := by
    rintro attempting rfl
    exact fresh attempting.1
  refine ⟨none, listening, attempting, fun flag => ?_⟩
  rw [mirrors.mirror, handlerFor_idle none]
  exact idleHandler_none (fun listens => (listening listens).symm)
    (fun going => (attempting going).symm)

theorem handlerFor_congr {flag : WatchFlag} (conn : t'.conn fd = t.conn fd)
    (idle : t'.idleHandler fd flag = t.idleHandler fd flag) :
    t'.handlerFor fd flag = t.handlerFor fd flag := by
  unfold handlerFor
  rw [conn, idle]

/-- A connection over a new descriptor. -/
theorem Mirrors.adds (mirrors : Mirrors t) {c : Connection} (nonneg : 0 ≤ fd)
    (fresh : t.Fresh fd) (key : c.fd_ = fd) (unarmed : ∀ flag, c.armed flag = false)
    (listen : t'.listen_fd_ = t.listen_fd_) (client : t'.client_fd_ = t.client_fd_)
    (fds : openFds t'.calls = fd :: openFds t.calls)
    (conn : ∀ other, t'.conn other = if other = fd then some c else t.conn other)
    (watched : t'.watched = t.watched) : Mirrors t' := by
  obtain ⟨none, listening, attempting, unwatched⟩ := mirrors.fresh fresh
  constructor
  · rw [fds]
    intro other opened
    rcases List.mem_cons.mp opened with rfl | before
    · exact nonneg
    · exact mirrors.nonneg other before
  · intro other c' held
    rw [conn] at held
    rw [fds]
    split at held
    · rename_i same
      obtain rfl := Option.some.inj held
      rw [same]
      exact ⟨key, List.mem_cons_self⟩
    · obtain ⟨key', before⟩ := mirrors.keyed other c' held
      exact ⟨key', List.mem_cons_of_mem _ before⟩
  · rw [listen, fds, conn]
    intro listens
    rw [if_neg (listening listens)]
    exact ⟨List.mem_cons_of_mem _ (mirrors.listener listens).1, (mirrors.listener listens).2⟩
  · intro other flag
    rw [watched]
    by_cases same : other = fd
    · subst same
      have held : t'.conn other = some c := by rw [conn, if_pos rfl]
      rw [unwatched, handlerFor_conn held, unarmed]
      rfl
    · rw [mirrors.mirror]
      refine (handlerFor_congr (by rw [conn, if_neg same]) ?_).symm
      refine SameIdle.idleHandler ⟨listen, ?_, client⟩
      unfold Attempting
      rw [listen, client, fds, conn]
      by_cases mine : t.client_fd_ = fd
      · rw [mine]
        simp [show fd ∉ openFds t.calls from fresh]
      · simp [mine]

theorem Mirrors.accept (mirrors : Mirrors t) {accepted : Accepted} (nonneg : 0 ≤ accepted.fd)
    (fresh : t.Fresh accepted.fd) : Mirrors (t.accept accepted) := by
  refine Mirrors.watchRead ?_ accepted.fd
  refine mirrors.adds (c := { fd_ := accepted.fd, peer_ := Accepted.peer accepted }) nonneg fresh
    rfl ?_ rfl rfl (openFds_append _ _) ?_ rfl
  · intro flag
    cases flag <;> rfl
  · exact fun other => conn_setConn _ _ other _

theorem Mirrors.acceptAll (mirrors : Mirrors t) (accepted : List Accepted)
    (nodup : (accepted.map (·.fd)).Nodup) (fresh : ∀ a ∈ accepted, 0 ≤ a.fd ∧ t.Fresh a.fd) :
    Mirrors (accepted.foldl TcpTransport.accept t) := by
  induction accepted generalizing t with
  | nil => exact mirrors
  | cons first rest ih =>
      rw [List.map_cons, List.nodup_cons] at nodup
      obtain ⟨some_fd, new⟩ := fresh first List.mem_cons_self
      refine ih (mirrors.accept some_fd new) nodup.2 fun a later => ?_
      obtain ⟨nonneg, unopened⟩ := fresh a (List.mem_cons_of_mem _ later)
      refine ⟨nonneg, fun opened => ?_⟩
      rw [(accept_spec t first).fds] at opened
      rcases List.mem_cons.mp opened with same | before
      · exact nodup.1 (same ▸ List.mem_map_of_mem later)
      · exact unopened before

/-- Without connections the listener and the attempt alone have handlers. -/
theorem Mirrors.bare (none : ∀ fd, t.conn fd = none) (nonneg : ∀ fd ∈ openFds t.calls, 0 ≤ fd)
    (listener : 0 ≤ t.listen_fd_ → t.listen_fd_ ∈ openFds t.calls)
    (mirror : ∀ fd flag, t.watched.lookup (fd, flag) = t.idleHandler fd flag) : Mirrors t := by
  constructor
  · exact nonneg
  · intro fd c held
    rw [none] at held
    cases held
  · exact fun listens => ⟨listener listens, none _⟩
  · intro fd flag
    rw [mirror, handlerFor_idle (none fd)]

theorem idleHandler_free {flag : WatchFlag} (free : t.listen_fd_ < 0) (still : ¬ Attempting t) :
    t.idleHandler fd flag = none :=
  idleHandler_none (fun listens => absurd listens (Int.not_le.mpr free))
    (fun attempting => absurd attempting still)

theorem idleHandler_listening {flag : WatchFlag} (listens : 0 ≤ t.listen_fd_)
    (still : ¬ Attempting t) : t.idleHandler fd flag =
      if (fd, flag) = (t.listen_fd_, .RDONLY) then some .onAcceptReady else none := by
  unfold idleHandler
  simp only [Prod.mk.injEq, listens, still, true_and, false_and, ↓reduceIte]

theorem idleHandler_attempting {flag : WatchFlag} (free : t.listen_fd_ < 0)
    (attempting : Attempting t) : t.idleHandler fd flag =
      if (fd, flag) = (t.client_fd_, .WRONLY) then some .onConnectReady else none := by
  have deaf : ¬ 0 ≤ t.listen_fd_ := Int.not_le.mpr free
  unfold idleHandler
  simp only [Prod.mk.injEq, deaf, attempting, true_and, false_and, ↓reduceIte]

/-- Nothing is known and nothing is watched. -/
theorem Mirrors.free (none : ∀ fd, t.conn fd = none) (nonneg : ∀ fd ∈ openFds t.calls, 0 ≤ fd)
    (free : t.listen_fd_ < 0) (still : ¬ Attempting t)
    (unwatched : ∀ key, t.watched.lookup key = Option.none) : Mirrors t := by
  refine .bare none nonneg (fun listens => absurd listens (Int.not_le.mpr free)) fun fd flag => ?_
  rw [unwatched, idleHandler_free free still]

theorem Mirrors.blank (none : ∀ fd, t.conn fd = none) (closed : openFds t.calls = [])
    (free : t.listen_fd_ < 0) (unwatched : ∀ key, t.watched.lookup key = Option.none) :
    Mirrors t := by
  apply Mirrors.free none _ free _ unwatched
  · intro fd opened
    rw [closed] at opened
    cases opened
  · intro attempting
    have opened := attempting.1
    rw [closed] at opened
    cases opened

theorem mirrors_start : Mirrors {} :=
  .blank (fun _ => rfl) rfl neg_one_lt_zero fun _ => rfl

end Descriptors

section Starts

variable {t : TcpTransport} {fd : Fd}

theorem openFds_start (fd : Fd) : openFds [.opened fd, .closed fd] = [] := by
  have fresh : fd ∉ openFds [] := List.not_mem_nil
  exact openFds_reclosed fresh

theorem mirrors_bind (o : BindOutcome) : Mirrors (TcpTransport.bind {} o) := by
  rcases bind_cases {} o with ⟨failed, result⟩ | ⟨-, result⟩ | ⟨opened, endpoint, result⟩
  · rw [result]
    exact .blank (fun _ => rfl) rfl failed fun _ => rfl
  · rw [result]
    exact .blank (fun _ => rfl) (openFds_start o.fd) neg_one_lt_zero fun _ => rfl
  · rw [result]
    have one : openFds ((listening {} o.fd).watchAccept.replay_ (.BindRep .Ok endpoint)).calls =
        [o.fd] := rfl
    apply Mirrors.bare
    · exact fun fd => rfl
    · intro fd among
      rw [one] at among
      rw [List.mem_singleton.mp among]
      exact opened
    · exact fun _ => List.mem_singleton.mpr rfl
    · intro fd flag
      have watched :
          ((listening {} o.fd).watchAccept.replay_ (.BindRep .Ok endpoint)).watched.lookup
          (fd, flag) =
            if (fd, flag) = (o.fd, .RDONLY) then some .onAcceptReady else none :=
        lookup_watch (t := listening {} o.fd) (fd, flag) .onAcceptReady
      rw [watched]
      refine (idleHandler_listening (t := (listening {} o.fd).watchAccept.replay_
        (.BindRep .Ok endpoint)) opened ?_).symm
      intro attempting
      rw [Attempting, one] at attempting
      have same : (-1 : Fd) = o.fd := List.mem_singleton.mp attempting.1
      exact absurd (same ▸ opened) (by decide)

theorem attempting_attempt (fd : Fd) : Attempting (attempt fd) :=
  ⟨List.mem_singleton.mpr rfl, rfl, fun listens => absurd listens (Int.not_le.mpr neg_one_lt_zero)⟩

theorem mirrors_attempt (some_fd : 0 ≤ fd) : Mirrors (attempt fd) := by
  apply Mirrors.bare
  · exact fun fd => rfl
  · intro other among
    rw [List.mem_singleton.mp among]
    exact some_fd
  · intro listens
    exact absurd listens (Int.not_le.mpr neg_one_lt_zero)
  · intro other flag
    rw [attempt_watched]
    exact (idleHandler_attempting neg_one_lt_zero (attempting_attempt fd)).symm

theorem mirrors_connect (o : ConnectOutcome) : Mirrors (TcpTransport.connect {} o) := by
  rcases connect_cases {} o with ⟨none, result⟩ | ⟨-, -, result⟩ | ⟨starts, result⟩
  · rw [result]
    exact .blank (fun _ => rfl) rfl neg_one_lt_zero fun _ => rfl
  · rw [result]
    exact .blank (fun _ => rfl) (openFds_start o.fd) neg_one_lt_zero fun _ => rfl
  · rw [result]
    exact mirrors_attempt starts.1

/-- The attempt is over, and its descriptor is that of a connection or closed. -/
theorem mirrors_onConnectReady (some_fd : 0 ≤ fd) (o : ConnectedOutcome) :
    Mirrors ((attempt fd).onConnectReady o) := by
  have unwatched := (attempt_ends some_fd o).2
  have ended : (attempt fd).unwatchConnect = (attempt fd).unwatch fd .WRONLY := if_pos some_fd
  rcases onConnectReady_cases (attempt fd) o with ⟨-, result⟩ | ⟨peer, -, -, result⟩
  · rw [result, ended] at unwatched ⊢
    exact .blank (fun _ => rfl) (openFds_start fd) neg_one_lt_zero unwatched
  · rw [result, ended] at unwatched ⊢
    have conn (other : Fd) : (((attempt fd).unwatch fd .WRONLY).completed peer).conn other =
        if other = fd then some { fd_ := fd, peer_ := peer } else none :=
      conn_setConn ((attempt fd).unwatch fd .WRONLY) fd other _
    constructor
    · intro other among
      rw [List.mem_singleton.mp among]
      exact some_fd
    · intro other c held
      obtain ⟨rfl, same⟩ := Option.ite_none_right_eq_some.mp ((conn other).symm.trans held)
      obtain rfl := Option.some.inj same
      exact ⟨rfl, List.mem_singleton.mpr rfl⟩
    · intro listens
      exact absurd listens (Int.not_le.mpr neg_one_lt_zero)
    · intro other flag
      rw [unwatched]
      by_cases mine : other = fd
      · have held := (conn other).trans (if_pos mine)
        refine ((handlerFor_conn held).trans ?_).symm
        cases flag <;> rfl
      · have none := (conn other).trans (if_neg mine)
        refine ((handlerFor_idle none).trans ?_).symm
        refine idleHandler_free neg_one_lt_zero fun attempting => ?_
        have client := (conn fd).trans (if_pos rfl)
        exact Option.some_ne_none _ (client.symm.trans attempting.2.1)

end Starts

/-- Only connections that are armed have handlers. -/
structure Covered (t : TcpTransport) : Prop where
  keyed : ∀ fd c, t.conn fd = some c → c.fd_ = fd
  armed : ∀ fd flag handler, t.watched.lookup (fd, flag) = some handler →
    ∃ c, t.conn fd = some c ∧ c.armed flag = true

section Close

variable {t t' : TcpTransport} {fd : Fd}

theorem Covered.disarm (covered : Covered t) (fd : Fd) (flag : WatchFlag) :
    Covered (t.disarm fd flag) := by
  obtain ⟨-, conn⟩ := t.disarm_spec fd flag
  unfold TcpTransport.disarm at conn ⊢
  split
  · rename_i c held
    split
    · rename_i armed
      rw [held] at conn
      simp only [if_pos armed] at conn
      have key := covered.keyed fd c held
      constructor
      · intro fd' c' held'
        rw [conn] at held'
        split at held'
        · rename_i same
          obtain rfl := Option.some.inj held'
          rw [setArmed_fd, same]
          exact key
        · exact covered.keyed fd' c' held'
      · intro fd' flag' handler there
        have there : (t.unwatch c.fd_ flag).watched.lookup (fd', flag') = some handler := there
        rw [lookup_unwatch, key] at there
        obtain ⟨other, before⟩ := Option.ite_none_left_eq_some.mp there
        obtain ⟨c', held', armed'⟩ := covered.armed fd' flag' handler before
        rw [conn]
        by_cases same : fd' = fd
        · subst same
          obtain rfl := Option.some.inj (held.symm.trans held')
          refine ⟨_, if_pos rfl, ?_⟩
          rw [armed_setArmed, if_neg (fun way => other (by rw [way]))]
          exact armed'
        · exact ⟨c', (if_neg same).trans held', armed'⟩
    · exact covered
  · exact covered

theorem Covered.closeConn (covered : Covered t) (fd : Fd) : Covered (t.closeConn fd) :=
  have disarmed := (covered.disarm fd .RDONLY).disarm fd .WRONLY
  ⟨disarmed.keyed, disarmed.armed⟩

theorem openFds_closeConn (t : TcpTransport) (fd : Fd) :
    ∀ other ∈ openFds (t.closeConn fd).calls, other ∈ openFds t.calls := by
  intro other opened
  have frame := (disarm_spec t fd .RDONLY).1.trans (disarm_spec (t.disarm fd .RDONLY) fd .WRONLY).1
  have calls := openFds_append ((t.unwatchRead fd).unwatchWrite fd).calls (.closed fd)
  have among := (mem_filter_ne.mp (calls ▸ opened)).1
  exact frame.fds ▸ among

theorem closeConns_covered (fds : List Fd) (covered : Covered t) :
    Covered (fds.foldl TcpTransport.closeConn t) ∧
      ∀ fd ∈ openFds (fds.foldl TcpTransport.closeConn t).calls, fd ∈ openFds t.calls := by
  induction fds generalizing t with
  | nil => exact ⟨covered, fun fd opened => opened⟩
  | cons fd fds ih =>
      obtain ⟨after, opened⟩ := ih (covered.closeConn fd)
      exact ⟨after, fun other there => openFds_closeConn t fd other (opened other there)⟩

/-- A connection that the loop came to is armed for nothing. -/
theorem closeConns_unarmed (fds : List Fd) {c : Connection}
    (held : (fds.foldl TcpTransport.closeConn t).conn fd = some c) :
    (∀ flag, c.armed flag = false) ∨ fd ∉ fds ∧ t.conn fd = some c := by
  induction fds generalizing t with
  | nil => exact Or.inr ⟨List.not_mem_nil, held⟩
  | cons first fds ih =>
      rcases ih held with unarmed | ⟨later, before⟩
      · exact Or.inl unarmed
      · rw [closeConn_conn] at before
        split at before
        · left
          obtain ⟨c', -, rfl⟩ := Option.map_eq_some_iff.mp (‹fd = first› ▸ before)
          intro flag
          rw [armed_setArmed, armed_setArmed]
          cases flag <;> rfl
        · rename_i other
          refine Or.inr ⟨?_, before⟩
          intro member
          exact (List.mem_cons.mp member).elim other later

theorem closeListener_spec (t : TcpTransport) :
    (∀ fd ∈ openFds t.closeListener.calls, fd ∈ openFds t.calls) ∧
      ∀ key handler, t.closeListener.watched.lookup key = some handler →
        t.watched.lookup key = some handler ∧
          (0 ≤ t.listen_fd_ → key ≠ (t.listen_fd_, .RDONLY)) := by
  unfold closeListener
  split
  · rename_i listens
    unfold unwatchAccept
    rw [if_pos listens]
    constructor
    · intro fd opened
      have calls := openFds_append (t.calls ++ [.unwatch t.listen_fd_ .RDONLY])
        (.closed t.listen_fd_)
      have among := (mem_filter_ne.mp (calls ▸ opened)).1
      have kept : openFds (t.calls ++ [.unwatch t.listen_fd_ .RDONLY]) = openFds t.calls :=
        openFds_append t.calls (.unwatch t.listen_fd_ .RDONLY)
      exact kept ▸ among
    · intro key handler there
      have there : (t.unwatch t.listen_fd_ .RDONLY).watched.lookup key = some handler := there
      rw [lookup_unwatch] at there
      obtain ⟨other, before⟩ := Option.ite_none_left_eq_some.mp there
      exact ⟨before, fun _ => other⟩
  · rename_i free
    exact ⟨fun fd opened => opened,
      fun key handler there => ⟨there, fun listens => absurd listens free⟩⟩

theorem closeClient_spec (t : TcpTransport) : ∀ key handler,
    t.closeClient.watched.lookup key = some handler → t.watched.lookup key = some handler ∧
      (0 ≤ t.client_fd_ → key ≠ (t.client_fd_, .WRONLY)) := by
  intro key handler there
  unfold closeClient at there
  split at there
  · rename_i client
    unfold unwatchConnect at there
    rw [if_pos client] at there
    have there : (t.unwatch t.client_fd_ .WRONLY).watched.lookup key = some handler := there
    rw [lookup_unwatch] at there
    obtain ⟨other, before⟩ := Option.ite_none_left_eq_some.mp there
    exact ⟨before, fun _ => other⟩
  · rename_i free
    exact ⟨there, fun client => absurd client free⟩

/-- Before the loop in `close` only connections have handlers. -/
theorem Mirrors.unlisten (mirrors : Mirrors t) : Covered t.closeListener.closeClient := by
  obtain ⟨-, -, connsL, -⟩ := closeListener_frame t
  obtain ⟨-, -, connsC, -, -⟩ := closeClient_frame t.closeListener
  obtain ⟨-, client, -⟩ := closeListener_frame t
  have conns (fd : Fd) : t.closeListener.closeClient.conn fd = t.conn fd := by
    rw [conn, connsC, connsL]
    rfl
  constructor
  · intro fd c held
    exact (mirrors.keyed fd c ((conns fd).symm.trans held)).1
  · intro fd flag handler there
    obtain ⟨before, unclient⟩ := closeClient_spec t.closeListener _ _ there
    obtain ⟨before, unlistened⟩ := (closeListener_spec t).2 _ _ before
    rw [client] at unclient
    rw [conns]
    rw [mirrors.mirror] at before
    cases held : t.conn fd with
    | some c =>
        rw [handlerFor_conn held] at before
        exact ⟨c, rfl, (Option.ite_none_right_eq_some.mp before).1⟩
    | none =>
        rw [handlerFor_idle held, idleHandler] at before
        split at before
        · rename_i here
          exact absurd (Prod.ext here.2.1 here.2.2) (unlistened here.1)
        · obtain ⟨here, -⟩ := Option.ite_none_right_eq_some.mp before
          exact absurd (Prod.ext here.2.1 here.2.2) (unclient (mirrors.nonneg _ here.1.1))

/-- `close` leaves nothing watched. -/
theorem Mirrors.close (mirrors : Mirrors t) : Mirrors t.close := by
  obtain ⟨listenL, -, connsL, -⟩ := closeListener_frame t
  obtain ⟨clientC, listenC, connsC, fdsC, -⟩ := closeClient_frame t.closeListener
  have keys : t.closeListener.closeClient.connection_by_fd_ = t.connection_by_fd_ :=
    connsC.trans connsL
  obtain ⟨listen, client, -⟩ := closeConns_frame t.closeListener.closeClient.connection_by_fd_.keys
    t.closeListener.closeClient
  obtain ⟨covered, fds⟩ := closeConns_covered
    t.closeListener.closeClient.connection_by_fd_.keys mirrors.unlisten
  have opened : ∀ fd ∈ openFds t.close.calls, 0 ≤ fd := by
    intro fd there
    have before := fds fd there
    rw [fdsC] at before
    exact mirrors.nonneg fd ((closeListener_spec t).1 fd before)
  apply Mirrors.free
  · exact fun fd => rfl
  · exact opened
  · exact lt_of_eq_of_lt (listen.trans listenC) listenL
  · intro attempting
    have negative : t.close.client_fd_ < 0 := lt_of_eq_of_lt client clientC
    exact Int.not_le.mpr negative (opened _ attempting.1)
  · rintro ⟨fd, flag⟩
    refine Option.eq_none_iff_forall_ne_some.mpr fun handler there => ?_
    obtain ⟨c, held, armed⟩ := covered.armed fd flag handler there
    rcases closeConns_unarmed _ held with unarmed | ⟨elsewhere, before⟩
    · rw [unarmed flag] at armed
      cases armed
    · exact elsewhere (mem_keys.mpr ⟨c, before⟩)

/-- Handlers are those of open descriptors. -/
theorem Mirrors.opened (mirrors : Mirrors t) {flag : WatchFlag}
    (watched : t.handlerFor fd flag ≠ none) : fd ∈ openFds t.calls := by
  cases held : t.conn fd with
  | some c => exact (mirrors.keyed fd c held).2
  | none =>
      rw [handlerFor_idle held, idleHandler] at watched
      split at watched
      · rename_i here
        rw [here.2.1]
        exact (mirrors.listener here.1).1
      · split at watched
        · rename_i here
          rw [here.2.1]
          exact here.1.1
        · exact absurd rfl watched

end Close

end TcpTransport

namespace TcpSocket

open TcpTransport (Mirrors)

section Runs

variable {s next : TcpSocket} {label : Label} {labels : List Label}

theorem mirrors_handler {t t' : TcpTransport} {op : TcpTransport.Op} (mirrors : Mirrors t)
    (attempts : ∀ key, t.watched.lookup key = some .onConnectReady →
      ∃ fd, 0 ≤ fd ∧ t = TcpTransport.attempt fd)
    (runs : label.handler? = some op) (taken : t.step op = some t') : Mirrors t' := by
  cases label with
  | acceptReady fd accepted =>
      cases runs
      obtain ⟨⟨-, nodup, fresh⟩, same⟩ := Option.ite_none_right_eq_some.mp taken
      obtain rfl := Option.some.inj same
      apply mirrors.acceptAll
      · exact nodup.sublist ((List.take_sublist 10 accepted).map _)
      · exact fun a among => fresh a (List.mem_of_mem_take among)
  | connectReady fd o =>
      cases runs
      obtain ⟨⟨watched, -⟩, same⟩ := Option.ite_none_right_eq_some.mp taken
      obtain rfl := Option.some.inj same
      obtain ⟨client, some_fd, going⟩ := attempts _ watched
      rw [going]
      exact TcpTransport.mirrors_onConnectReady some_fd o
  | readReady fd =>
      cases runs
      obtain ⟨-, same⟩ := Option.ite_none_right_eq_some.mp taken
      rw [← Option.some.inj same, TcpTransport.onReadReady]
      split
      · exact mirrors.same rfl rfl rfl (fun _ => rfl) rfl
      · exact mirrors
  | writeReady fd =>
      cases runs
      obtain ⟨-, same⟩ := Option.ite_none_right_eq_some.mp taken
      rw [← Option.some.inj same, TcpTransport.onWriteReady]
      split
      · exact mirrors.same rfl rfl rfl (fun _ => rfl) rfl
      · exact mirrors
  | _ => cases runs

theorem Step.mirrors (taken : Step s label next) (phased : Phased s)
    (mirrors : Mirrors s.transport) : Mirrors next.transport := by
  cases taken with
  | binds o socket fresh did idle waits =>
      show Mirrors (s.transport.bind o)
      rw [phased.idle idle]
      exact TcpTransport.mirrors_bind o
  | connects o socket fresh did idle waits =>
      show Mirrors (s.transport.connect o)
      rw [phased.idle idle]
      exact TcpTransport.mirrors_connect o
  | closes socket did open_ closing => exact mirrors.close
  | asked _ request socket asks did same => exact mirrors
  | delivered reply socket idle did posted => exact mirrors.same rfl rfl rfl (fun _ => rfl) rfl
  | handled _ op transport runs idle sound did =>
      exact mirrors_handler mirrors (fun key there => (phased.attempt key there).2) runs did
  | readTurn order recv socket all did same => exact mirrors.resumeRead order recv
  | readEnded order recv socket all did connected closing eof =>
      exact (mirrors.resumeRead order recv).close
  | writeTurn send peer frames req socket top held did =>
      exact mirrors.resumeWrite req.data (s.socket.writeKey peer) send
  | resumed _ inner socket runs did other => exact mirrors
  | suspended frames top did empty => exact mirrors.suspendRead

theorem Run.mirrors (run : Run labels s) : Mirrors s.transport := by
  induction run with
  | nil => exact TcpTransport.mirrors_start
  | snoc before taken mirrors =>
      exact (step_cases taken).mirrors (Run.phased before) mirrors

/-- In every run the watcher has the handlers that the members of the transport call for and no
others, each for a descriptor that is open. -/
theorem watcher_mirrors (run : Run labels s) (fd : Fd) (flag : WatchFlag) :
    s.transport.watched.lookup (fd, flag) = s.transport.handlerFor fd flag ∧
      (s.transport.watched.lookup (fd, flag) ≠ none →
        fd ∈ TcpTransport.openFds s.transport.calls) := by
  have mirrors := Run.mirrors run
  refine ⟨mirrors.mirror fd flag, fun watched => ?_⟩
  rw [mirrors.mirror] at watched
  exact mirrors.opened watched

/-- A server with two clients: one has gone, and a write to the other waits. -/
def oneLeft : List Label :=
  [.bind { fd := 3, hostPort := some "0.0.0.0:80" }, .resume, .deliver (.BindRep .Ok "0.0.0.0:80"),
    .resume, .acceptReady 3 [⟨4, "10.0.0.1", 5000⟩, ⟨6, "10.0.0.2", 5000⟩],
    .write [1, 2] "10.0.0.1:5000", .resumeWrite (.failed EAGAIN), .write [3] "10.0.0.2:5000",
    .resumeWrite (.failed EINVAL), .resume]

theorem watcher_mirrors_oneLeft : ∃ s, Run oneLeft s ∧
    s.transport.watched.lookup (4, .WRONLY) = some (.onWriteReady 4) ∧
    s.transport.watched.lookup (6, .RDONLY) = none ∧
    4 ∈ TcpTransport.openFds s.transport.calls := by
  obtain ⟨s, run, waits, gone⟩ : ∃ s, Exec (Of step) {} oneLeft s ∧
      s.transport.handlerFor 4 .WRONLY = some (.onWriteReady 4) ∧
      s.transport.handlerFor 6 .RDONLY = none := Transition.exists_exec (by decide +kernel)
  obtain ⟨mirror, opened⟩ := watcher_mirrors run 4 .WRONLY
  obtain ⟨elsewhere, -⟩ := watcher_mirrors run 6 .RDONLY
  rw [waits] at mirror
  refine ⟨s, run, mirror, elsewhere.trans gone, opened ?_⟩
  rw [mirror]
  exact Option.some_ne_none _

end Runs

end TcpSocket

end Getrafty
