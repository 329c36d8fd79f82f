import Getrafty.SocketTransportSteps

set_option autoImplicit false

namespace Getrafty

open Transition (Exec Of Guarded)

namespace TcpTransport

/-- The descriptor that has to be open for the call. -/
def FdCall.needs : FdCall → Option Fd
  | .opened _ => none
  | .closed fd | .watch fd _ | .unwatch fd _ | .recv fd | .send fd => some fd

/-- Only open descriptors are closed, watched, unwatched, read from and written to. -/
def Proper (calls : List FdCall) : Prop :=
  ∀ front call back, calls = front ++ call :: back →
    ∀ fd, FdCall.needs call = some fd → fd ∈ openFds front

/-- `client_fd_` is the descriptor of an attempt to connect that goes on. -/
def Attempting (t : TcpTransport) : Prop :=
  t.client_fd_ ∈ openFds t.calls ∧ t.conn t.client_fd_ = none ∧
    (0 ≤ t.listen_fd_ → t.client_fd_ ≠ t.listen_fd_)

instance (t : TcpTransport) : Decidable (Attempting t) :=
  inferInstanceAs (Decidable (_ ∧ _ ∧ (_ → _)))

/-- `bind` and `connect` forget no descriptor, and `close` meets no `client_fd_` but that of an open
connection. -/
def KeepsFds (t : TcpTransport) : Op → Prop
  | .bind _ => t.listen_fd_ < 0
  | .connect _ => ¬ Attempting t
  | .close => t.client_fd_ < 0 ∨ (t.conn t.client_fd_).isSome = true
  | _ => True

instance (t : TcpTransport) : DecidablePred (KeepsFds t) :=
  fun op => match op with
    | .bind _ => inferInstanceAs (Decidable (_ < _))
    | .connect _ => inferInstanceAs (Decidable (¬ _))
    | .close => inferInstanceAs (Decidable (_ ∨ _))
    | .acceptReady _ _ | .connectReady _ _ | .readReady _ | .writeReady _ | .resumeRead _ _
    | .resumeWrite _ _ _ | .suspendRead | .suspendWrite _ | .deliver _ => isTrue trivial

/-- Every open descriptor is that of the listener, of a connection or of an attempt. -/
structure Owned (t : TcpTransport) : Prop where
  proper : Proper t.calls
  nonneg : ∀ fd ∈ openFds t.calls, 0 ≤ fd
  keyed : ∀ fd c, t.conn fd = some c → c.fd_ = fd ∧ fd ∈ openFds t.calls
  listener : 0 ≤ t.listen_fd_ → t.listen_fd_ ∈ openFds t.calls ∧ t.conn t.listen_fd_ = none
  attempt : ∀ key, t.watched.lookup key = some .onConnectReady →
    key = (t.client_fd_, .WRONLY) ∧ Attempting t
  owner : ∀ fd ∈ openFds t.calls, fd = t.listen_fd_ ∨ (∃ c, t.conn fd = some c) ∨
    fd = t.client_fd_

section Calls

variable {t t' : TcpTransport} {fd : Fd} {c : Connection} {calls : List FdCall}

theorem proper_append (calls : List FdCall) (call : FdCall) : Proper (calls ++ [call]) ↔
    Proper calls ∧ ∀ fd, FdCall.needs call = some fd → fd ∈ openFds calls := by
  constructor
  · intro proper
    refine ⟨fun front other back cut => ?_, proper calls call [] rfl⟩
    exact proper front other (back ++ [call]) (by rw [cut, List.append_assoc, List.cons_append])
  · rintro ⟨proper, last⟩ front other back cut
    rcases List.eq_nil_or_concat back with rfl | ⟨back, final, rfl⟩
    · obtain ⟨rfl, same⟩ := List.append_inj' cut rfl
      rw [← List.singleton_inj.mp same]
      exact last
    · rw [List.concat_eq_append, ← List.cons_append, ← List.append_assoc] at cut
      exact proper front other back (List.append_inj' cut rfl).1

/-- A call on an open descriptor. -/
theorem Proper.snoc (proper : Proper calls) {call : FdCall} (needs : FdCall.needs call = some fd)
    (usable : fd ∈ openFds calls) : Proper (calls ++ [call]) := by
  refine (proper_append calls call).mpr ⟨proper, fun other same => ?_⟩
  rw [needs, Option.some.injEq] at same
  exact same ▸ usable

theorem Proper.opened (proper : Proper calls) (fd : Fd) : Proper (calls ++ [.opened fd]) := by
  refine (proper_append calls _).mpr ⟨proper, fun other same => ?_⟩
  cases same

theorem Proper.arm (proper : Proper t.calls) (fd : Fd) (flag : WatchFlag)
    (handler : Fd → ReadyHandler) (usable : ∀ c, t.conn fd = some c → c.fd_ ∈ openFds t.calls) :
    Proper (t.arm fd flag handler).calls := by
  unfold TcpTransport.arm
  split
  · rename_i c held
    split
    · exact proper
    · exact proper.snoc rfl (usable c held)
  · exact proper

theorem Proper.disarm (proper : Proper t.calls) (fd : Fd) (flag : WatchFlag)
    (usable : ∀ c, t.conn fd = some c → c.fd_ ∈ openFds t.calls) :
    Proper (t.disarm fd flag).calls := by
  unfold TcpTransport.disarm
  split
  · rename_i c held
    split
    · exact proper.snoc rfl (usable c held)
    · exact proper
  · exact proper

theorem mem_filter_ne {fds : List Fd} {fd fd' : Fd} :
    fd' ∈ fds.filter (fun other => other ≠ fd) ↔ fd' ∈ fds ∧ fd' ≠ fd := by
  rw [List.mem_filter, decide_eq_true_eq]

/-- Closing a connection closes its descriptor, which was open until then. -/
theorem Proper.closeConn (proper : Proper t.calls) (held : t.conn fd = some c) (key : c.fd_ = fd)
    (opened : fd ∈ openFds t.calls) : Proper (t.closeConn fd).calls ∧
      ∀ fd', fd' ∈ openFds (t.closeConn fd).calls ↔ fd' ∈ openFds t.calls ∧ fd' ≠ fd := by
  obtain ⟨first, conn⟩ := disarm_spec t fd .RDONLY
  obtain ⟨second, -⟩ := disarm_spec (t.disarm fd .RDONLY) fd .WRONLY
  have usable : ∀ c', t.conn fd = some c' → c'.fd_ ∈ openFds t.calls := by
    intro c' held'
    rw [held, Option.some.injEq] at held'
    rw [← held', key]
    exact opened
  have disarmed := proper.disarm fd .RDONLY usable
  have disarmed' := disarmed.disarm fd .WRONLY fun c' held' => by
    rw [conn fd, if_pos rfl, held, Option.map_some, Option.some.injEq] at held'
    rw [← held', first.fds]
    exact key ▸ opened
  have fds := (first.trans second).fds
  refine ⟨disarmed'.snoc rfl (by rw [fds]; exact opened), fun fd' => ?_⟩
  have calls := openFds_append ((t.unwatchRead fd).unwatchWrite fd).calls (.closed fd)
  rw [TcpTransport.closeConn, call, calls, mem_filter_ne]
  exact and_congr_left fun _ => by rw [unwatchWrite, unwatchRead, fds]

/-- The loop in `close`. -/
theorem closeConns_spec (fds : List Fd) (t : TcpTransport) (nodup : fds.Nodup)
    (proper : Proper t.calls) (keyed : ∀ fd ∈ fds, ∃ c, t.conn fd = some c ∧ c.fd_ = fd)
    (opened : ∀ fd ∈ fds, fd ∈ openFds t.calls) :
    Proper (fds.foldl TcpTransport.closeConn t).calls ∧
      ∀ fd', fd' ∈ openFds (fds.foldl TcpTransport.closeConn t).calls ↔
        fd' ∈ openFds t.calls ∧ fd' ∉ fds := by
  induction fds generalizing t with
  | nil => exact ⟨proper, fun fd' => ⟨fun member => ⟨member, List.not_mem_nil⟩, fun both => both.1⟩⟩
  | cons fd fds ih =>
      obtain ⟨c, held, key⟩ := keyed fd List.mem_cons_self
      obtain ⟨absent, nodup⟩ := List.nodup_cons.mp nodup
      obtain ⟨closed, left⟩ := proper.closeConn held key (opened fd List.mem_cons_self)
      have others (fd' : Fd) (member : fd' ∈ fds) : fd' ≠ fd := by
        rintro rfl
        exact absent member
      obtain ⟨rest, left'⟩ := ih (t.closeConn fd) nodup closed
        (fun fd' member => by
          obtain ⟨c', held', key'⟩ := keyed fd' (List.mem_cons_of_mem _ member)
          refine ⟨c', ?_, key'⟩
          rw [closeConn_conn, if_neg (others fd' member)]
          exact held')
        (fun fd' member => (left fd').mpr
          ⟨opened fd' (List.mem_cons_of_mem _ member), others fd' member⟩)
      refine ⟨rest, fun fd' => (left' fd').trans ?_⟩
      rw [left fd', List.mem_cons, not_or, and_assoc]

end Calls

section Owners

variable {t t' : TcpTransport} {fd : Fd} {c : Connection} {op : Op} {ops : List Op}

/-- Arming connections takes no descriptor and gives none back. -/
theorem Owned.frame (owned : Owned t) (frame : Frame t t')
    (alike : ∀ fd, (t'.conn fd).map (·.fd_) = (t.conn fd).map (·.fd_)) (proper : Proper t'.calls) :
    Owned t' := by
  have found (fd : Fd) (c' : Connection) (held : t'.conn fd = some c') :
      ∃ c, t.conn fd = some c ∧ c.fd_ = c'.fd_ := by
    have same := alike fd
    rw [held, Option.map_some] at same
    exact Option.map_eq_some_iff.mp same.symm
  have absent (fd : Fd) (missing : t.conn fd = none) : t'.conn fd = none := by
    have same := alike fd
    rw [missing, Option.map_none] at same
    exact Option.map_eq_none_iff.mp same
  refine ⟨proper, ?_, ?_, ?_, ?_, ?_⟩
  · rw [frame.fds]
    exact owned.nonneg
  · intro fd c' held
    obtain ⟨c, held, same⟩ := found fd c' held
    rw [frame.fds, ← same]
    exact owned.keyed fd c held
  · rw [frame.listen, frame.fds]
    intro listens
    exact ⟨(owned.listener listens).1, absent _ (owned.listener listens).2⟩
  · intro key there
    obtain ⟨same, attempting⟩ := owned.attempt key (frame.attempts key there)
    unfold Attempting
    rw [frame.client, frame.fds, frame.listen]
    exact ⟨same, attempting.1, absent _ attempting.2.1, attempting.2.2⟩
  · intro fd opened
    rw [frame.fds] at opened
    rw [frame.listen, frame.client]
    rcases owned.owner fd opened with listener | ⟨c, held⟩ | client
    · exact Or.inl listener
    · have same := alike fd
      rw [held, Option.map_some] at same
      obtain ⟨c', held', -⟩ := Option.map_eq_some_iff.mp same
      exact Or.inr (Or.inl ⟨c', held'⟩)
    · exact Or.inr (Or.inr client)

theorem setArmed_fd (c : Connection) (flag : WatchFlag) (on : Bool) :
    (c.setArmed flag on).fd_ = c.fd_ := by cases flag <;> rfl

/-- Connections whose arming is set keep their descriptors. -/
theorem alike_setArmed (flag : WatchFlag) (on : Bool)
    (conn : t'.conn fd = (t.conn fd).map (·.setArmed flag on) ∨ t'.conn fd = t.conn fd) :
    (t'.conn fd).map (·.fd_) = (t.conn fd).map (·.fd_) := by
  rcases conn with armed | same
  · rw [armed, Option.map_map]
    congr 1
    funext c
    exact setArmed_fd c flag on
  · rw [same]

theorem Owned.usable (owned : Owned t) (fd : Fd) :
    ∀ c, t.conn fd = some c → c.fd_ ∈ openFds t.calls := by
  intro c held
  obtain ⟨key, opened⟩ := owned.keyed fd c held
  rw [key]
  exact opened

theorem Owned.arm (owned : Owned t) (fd : Fd) (flag : WatchFlag) {handler : Fd → ReadyHandler}
    (other : ∀ fd, handler fd ≠ .onConnectReady) : Owned (t.arm fd flag handler) := by
  obtain ⟨frame, conn⟩ := arm_spec t fd flag other
  refine owned.frame frame (fun fd' => alike_setArmed flag true ?_)
    (owned.proper.arm fd flag handler (owned.usable fd))
  rw [conn fd']
  by_cases same : fd' = fd
  · rw [if_pos same, same]
    exact Or.inl rfl
  · rw [if_neg same]
    exact Or.inr rfl

theorem Owned.disarm (owned : Owned t) (fd : Fd) (flag : WatchFlag) :
    Owned (t.disarm fd flag) := by
  obtain ⟨frame, conn⟩ := disarm_spec t fd flag
  refine owned.frame frame (fun fd' => alike_setArmed flag false ?_)
    (owned.proper.disarm fd flag (owned.usable fd))
  rw [conn fd']
  by_cases same : fd' = fd
  · rw [if_pos same, same]
    exact Or.inl rfl
  · rw [if_neg same]
    exact Or.inr rfl

theorem Owned.recv (owned : Owned t) (opened : fd ∈ openFds t.calls) :
    Owned (t.call (.recv fd)) :=
  owned.frame (frame_recv t fd) (fun _ => rfl) (owned.proper.snoc rfl opened)

theorem Owned.send (owned : Owned t) (opened : fd ∈ openFds t.calls) :
    Owned (t.call (.send fd)) :=
  owned.frame (frame_send t fd) (fun _ => rfl) (owned.proper.snoc rfl opened)

theorem Owned.coolRead (owned : Owned t) : Owned t.coolRead :=
  owned.frame (frame_coolRead t) (fun _ => rfl) owned.proper

theorem Owned.release (owned : Owned t) (fd : Fd) : Owned (t.releaseConnection fd) := by
  cases held : t.conn fd with
  | none =>
      unfold releaseConnection
      rw [held]
      exact owned
  | some c =>
      have released := releaseConnection_spec held
      obtain ⟨key, opened⟩ := owned.keyed fd c held
      have proper : Proper (t.releaseConnection fd).calls := by
        have closed := (owned.proper.closeConn held key opened).1
        unfold releaseConnection
        rw [held]
        exact closed
      have fds (fd' : Fd) : fd' ∈ openFds (t.releaseConnection fd).calls ↔
          fd' ∈ openFds t.calls ∧ fd' ≠ fd := by
        rw [released.fds, mem_filter_ne]
      refine ⟨proper, ?_, ?_, ?_, ?_, ?_⟩
      · exact fun fd' member => owned.nonneg fd' ((fds fd').mp member).1
      · intro fd' c' held'
        rw [released.conn fd'] at held'
        split at held'
        · cases held'
        · obtain ⟨key', opened'⟩ := owned.keyed fd' c' held'
          exact ⟨key', (fds fd').mpr ⟨opened', ‹_›⟩⟩
      · rw [released.listen]
        intro listens
        obtain ⟨opened', free⟩ := owned.listener listens
        have other : t.listen_fd_ ≠ fd := by
          intro same
          rw [same, held] at free
          cases free
        refine ⟨(fds _).mpr ⟨opened', other⟩, ?_⟩
        rw [released.conn, if_neg other]
        exact free
      · intro key' there
        obtain ⟨same, attempting⟩ := owned.attempt key' (released.attempts key' there)
        have other : t.client_fd_ ≠ fd := by
          intro same
          have free := attempting.2.1
          rw [same, held] at free
          cases free
        unfold Attempting
        rw [released.client, released.listen, released.conn, if_neg other]
        exact ⟨same, (fds _).mpr ⟨attempting.1, other⟩, attempting.2⟩
      · intro fd' opened'
        obtain ⟨opened', other⟩ := (fds fd').mp opened'
        rw [released.listen, released.client, released.conn, if_neg other]
        exact owned.owner fd' opened'

theorem Owned.accept (owned : Owned t) (accepted : Accepted) (some_fd : 0 ≤ accepted.fd)
    (fresh : accepted.fd ∉ openFds t.calls) : Owned (t.accept accepted) := by
  have spec := accept_spec t accepted
  have others {fd : Fd} (opened : fd ∈ openFds t.calls) : fd ≠ accepted.fd := by
    rintro rfl
    exact fresh opened
  refine ⟨?_, ?_, ?_, ?_, ?_, ?_⟩
  · refine (owned.proper.opened accepted.fd).arm (t :=
      { (t.call (.opened accepted.fd)).setConn accepted.fd
          { fd_ := accepted.fd, peer_ := Accepted.peer accepted } with
        fd_by_peer_ := t.fd_by_peer_.insert (Accepted.peer accepted) accepted.fd })
      accepted.fd .RDONLY .onReadReady fun c held => ?_
    have added := conn_setConn (t.call (.opened accepted.fd)) accepted.fd accepted.fd
      { fd_ := accepted.fd, peer_ := Accepted.peer accepted }
    rw [if_pos rfl] at added
    have same := Option.some.inj (held.symm.trans added)
    have calls := openFds_append t.calls (.opened accepted.fd)
    rw [same]
    exact calls ▸ List.mem_cons_self
  · rw [spec.fds]
    intro fd member
    rcases List.mem_cons.mp member with rfl | member
    · exact some_fd
    · exact owned.nonneg fd member
  · intro fd c held
    rw [spec.conn fd] at held
    rw [spec.fds]
    split at held
    · rename_i same
      rw [Option.some.injEq] at held
      rw [← held, same]
      exact ⟨rfl, List.mem_cons_self⟩
    · obtain ⟨key, opened⟩ := owned.keyed fd c held
      exact ⟨key, List.mem_cons_of_mem _ opened⟩
  · rw [spec.listen, spec.fds]
    intro listens
    obtain ⟨opened, free⟩ := owned.listener listens
    rw [spec.conn, if_neg (others opened)]
    exact ⟨List.mem_cons_of_mem _ opened, free⟩
  · intro key there
    obtain ⟨same, attempting⟩ := owned.attempt key (spec.attempts key there)
    unfold Attempting
    rw [spec.client, spec.listen, spec.fds, spec.conn, if_neg (others attempting.1)]
    exact ⟨same, List.mem_cons_of_mem _ attempting.1, attempting.2⟩
  · intro fd member
    rw [spec.fds] at member
    rw [spec.listen, spec.client, spec.conn]
    by_cases same : fd = accepted.fd
    · rw [if_pos same]
      exact Or.inr (Or.inl ⟨_, rfl⟩)
    · rw [if_neg same]
      exact owned.owner fd ((List.mem_cons.mp member).resolve_left same)

theorem Owned.acceptAll (accepted : List Accepted) (owned : Owned t)
    (nodup : (accepted.map (·.fd)).Nodup)
    (fresh : ∀ a ∈ accepted, 0 ≤ a.fd ∧ a.fd ∉ openFds t.calls) :
    Owned (accepted.foldl TcpTransport.accept t) := by
  induction accepted generalizing t with
  | nil => exact owned
  | cons first rest ih =>
      rw [List.map_cons, List.nodup_cons] at nodup
      obtain ⟨some_fd, new⟩ := fresh first List.mem_cons_self
      refine ih (owned.accept first some_fd new) nodup.2 fun a member => ?_
      obtain ⟨some_fd', new'⟩ := fresh a (List.mem_cons_of_mem _ member)
      refine ⟨some_fd', fun opened => ?_⟩
      rw [(accept_spec t first).fds] at opened
      rcases List.mem_cons.mp opened with same | opened
      · exact nodup.1 (List.mem_map.mpr ⟨a, member, same⟩)
      · exact new' opened

/-- Replies and hot peers have nothing to do with descriptors. -/
theorem Owned.same (owned : Owned t) (listen : t'.listen_fd_ = t.listen_fd_)
    (client : t'.client_fd_ = t.client_fd_) (conns : ∀ fd, t'.conn fd = t.conn fd)
    (watched : t'.watched = t.watched) (calls : t'.calls = t.calls) : Owned t' := by
  have attempting : Attempting t' ↔ Attempting t := by
    unfold Attempting
    rw [client, conns, calls, listen]
  refine ⟨?_, ?_, ?_, ?_, ?_, ?_⟩
  · exact calls ▸ owned.proper
  · exact calls ▸ owned.nonneg
  · intro fd c held
    rw [conns] at held
    exact calls ▸ owned.keyed fd c held
  · rw [listen, conns, calls]
    exact owned.listener
  · rw [watched, client, attempting]
    exact owned.attempt
  · intro fd opened
    rw [calls] at opened
    rw [listen, client, conns]
    exact owned.owner fd opened

theorem Owned.visit (owned : Owned t) (held : ∃ c, t.conn fd = some c) : Owned (t.visit fd) := by
  obtain ⟨c, held⟩ := held
  have frame := (arm_spec t fd .RDONLY readHandler).1
  refine (owned.arm fd .RDONLY readHandler).recv ?_
  rw [frame.fds]
  exact (owned.keyed fd c held).2

theorem Owned.scan (recv : Fd → RecvOutcome) (order : List Fd) (owned : Owned t)
    (keys : ∀ fd ∈ order, ∃ c, t.conn fd = some c) : Owned (scan recv t order).2 := by
  induction order generalizing t with
  | nil => exact owned
  | cons fd rest ih =>
      have visited := owned.visit (keys fd List.mem_cons_self)
      rw [TcpTransport.scan]
      cases recv fd with
      | received chunk => exact visited
      | eof => exact visited.release fd
      | failed errno =>
          dsimp only
          split
          · refine ih visited fun fd' member => ?_
            obtain ⟨c, held⟩ := keys fd' (List.mem_cons_of_mem _ member)
            have conn : (t.visit fd).conn fd' = _ := (arm_spec t fd .RDONLY readHandler).2 fd'
            have same : ((t.visit fd).conn fd').map (·.fd_) = (t.conn fd').map (·.fd_) := by
              refine alike_setArmed .RDONLY true ?_
              rw [conn]
              by_cases here : fd' = fd
              · rw [if_pos here, here]
                exact Or.inl rfl
              · rw [if_neg here]
                exact Or.inr rfl
            rw [held, Option.map_some] at same
            obtain ⟨c', held', -⟩ := Option.map_eq_some_iff.mp same
            exact ⟨c', held'⟩
          · exact visited.release fd

theorem Owned.resumeRead (recv : Fd → RecvOutcome) {order : List Fd} (owned : Owned t)
    (all : order.Perm t.connection_by_fd_.keys) : Owned (t.resumeRead order recv).2 := by
  unfold TcpTransport.resumeRead
  split
  · rename_i fd hot
    obtain ⟨c, held⟩ := hotFd_conn hot
    have read := owned.recv (owned.keyed fd c held).2
    cases recv fd with
    | received chunk =>
        dsimp only [readHot]
        split
        · exact read.coolRead
        · exact read
    | eof => exact read.coolRead.release fd
    | failed errno =>
        dsimp only [readHot]
        split
        · exact (read.arm fd .RDONLY readHandler).coolRead
        · exact read.coolRead.release fd
  · exact owned.coolRead.scan recv order fun fd member => mem_keys.mp (all.mem_iff.mp member)

theorem Owned.resumeWrite (owned : Owned t) (data : Buffer) (peer : Peer) (send : SendOutcome) :
    Owned (t.resumeWrite data peer send).2 := by
  have called (fd : Fd) (found : t.resolve peer = .ok fd) : Owned (t.call (.send fd)) := by
    obtain ⟨⟨c, held⟩, -⟩ := resolve_conn found
    exact owned.send (owned.keyed fd c held).2
  obtain ⟨result, after, eq, case⟩ := resumeWrite_cases t data peer send
  rw [eq]
  cases case with
  | unresolved => exact owned
  | sent fd n found => exact called fd found
  | blocked fd errno found => exact (called fd found).arm fd .WRONLY writeHandler
  | ended fd n found => exact (called fd found).release fd
  | broken fd errno found => exact (called fd found).release fd

theorem Owned.suspendRead (owned : Owned t) : Owned t.suspendRead := by
  unfold TcpTransport.suspendRead
  induction t.connection_by_fd_.keys generalizing t with
  | nil => exact owned
  | cons fd rest ih => exact ih (owned.disarm fd .RDONLY)

theorem Owned.suspendWrite (owned : Owned t) (peer : Peer) : Owned (t.suspendWrite peer) := by
  unfold TcpTransport.suspendWrite
  split
  · exact owned.disarm _ .WRONLY
  · exact owned

/-- A descriptor that is opened and closed at once. -/
theorem openFds_reclosed {calls : List FdCall} (fresh : fd ∉ openFds calls) :
    openFds (calls ++ [.opened fd] ++ [.closed fd]) = openFds calls := by
  rw [openFds_append, openFds_append]
  dsimp only
  rw [List.filter_cons_of_neg (by simp), List.filter_eq_self]
  intro fd' member
  rw [decide_eq_true_eq]
  rintro rfl
  exact fresh member

theorem Owned.absent (owned : Owned t) (fresh : fd ∉ openFds t.calls) : t.conn fd = none := by
  cases held : t.conn fd with
  | none => rfl
  | some c => exact absurd (owned.keyed fd c held).2 fresh

/-- Without a listener, one may be taken. -/
theorem Owned.bind (owned : Owned t) (o : BindOutcome) (free : t.listen_fd_ < 0)
    (fresh : o.fd ∉ openFds t.calls) : Owned (t.bind o) := by
  have others {fd : Fd} (opened : fd ∈ openFds t.calls) : fd ≠ o.fd := by
    rintro rfl
    exact fresh opened
  have unlistened {fd : Fd} (opened : fd ∈ openFds t.calls) :
      (∃ c, t.conn fd = some c) ∨ fd = t.client_fd_ := by
    refine (owned.owner fd opened).resolve_left fun same => ?_
    have some_fd := owned.nonneg fd opened
    rw [same] at some_fd
    exact Int.not_le.mpr free some_fd
  rcases bind_cases t o with ⟨none, eq⟩ | ⟨opened, eq⟩ | ⟨opened, endpoint, eq⟩
  · rw [eq]
    refine ⟨owned.proper, owned.nonneg, owned.keyed, fun listens => ?_, fun key there => ?_, ?_⟩
    · exact absurd none (Int.not_lt.mpr listens)
    · obtain ⟨same, attempting⟩ := owned.attempt key there
      exact ⟨same, attempting.1, attempting.2.1, fun listens => absurd none
        (Int.not_lt.mpr listens)⟩
    · exact fun fd opened => Or.inr (unlistened opened)
  · have fds : openFds (t.listening o.fd).failBind.calls = openFds t.calls :=
      openFds_reclosed fresh
    rw [eq]
    refine ⟨?_, ?_, ?_, fun listens => ?_, fun key there => ?_, ?_⟩
    · refine (owned.proper.opened o.fd).snoc rfl ?_
      rw [openFds_append]
      exact List.mem_cons_self
    · exact fds ▸ owned.nonneg
    · exact fds ▸ owned.keyed
    · exact absurd (show (0 : Int) ≤ -1 from listens) (by decide)
    · obtain ⟨same, attempting⟩ := owned.attempt key there
      exact ⟨same, fds ▸ attempting.1, attempting.2.1,
        fun listens => absurd (show (0 : Int) ≤ -1 from listens) (by decide)⟩
    · rw [fds]
      exact fun fd opened => Or.inr (unlistened opened)
  · have fds : openFds ((t.listening o.fd).watchAccept.replay_ (.BindRep .Ok endpoint)).calls =
        o.fd :: openFds t.calls :=
      (openFds_append _ (.watch o.fd .RDONLY)).trans (openFds_append t.calls (.opened o.fd))
    rw [eq]
    refine ⟨?_, ?_, ?_, fun listens => ?_, fun key there => ?_, ?_⟩
    · refine (owned.proper.opened o.fd).snoc rfl ?_
      rw [openFds_append]
      exact List.mem_cons_self
    · rw [fds]
      intro fd member
      rcases List.mem_cons.mp member with rfl | member
      · exact opened
      · exact owned.nonneg fd member
    · rw [fds]
      intro fd c held
      obtain ⟨key, opened⟩ := owned.keyed fd c held
      exact ⟨key, List.mem_cons_of_mem _ opened⟩
    · rw [fds]
      exact ⟨List.mem_cons_self, owned.absent fresh⟩
    · have before := lookup_insert_attempt (by decide) there
      obtain ⟨same, attempting⟩ := owned.attempt key before
      unfold Attempting
      rw [fds]
      exact ⟨same, List.mem_cons_of_mem _ attempting.1, attempting.2.1,
        fun _ => others attempting.1⟩
    · rw [fds]
      intro fd member
      rcases List.mem_cons.mp member with same | member
      · exact Or.inl same
      · exact Or.inr (unlistened member)

/-- Without an attempt under way, another may start. -/
theorem Owned.connect (owned : Owned t) (o : ConnectOutcome) (free : ¬ Attempting t)
    (fresh : o.fd ∉ openFds t.calls) : Owned (t.connect o) := by
  have idle (key : Fd × WatchFlag) : t.watched.lookup key ≠ some .onConnectReady :=
    fun there => free (owned.attempt key there).2
  have ownedElse {fd : Fd} (opened : fd ∈ openFds t.calls) :
      fd = t.listen_fd_ ∨ ∃ c, t.conn fd = some c := by
    rcases owned.owner fd opened with listener | held | client
    · exact Or.inl listener
    · exact Or.inr held
    · cases held : t.conn fd with
      | some c => exact Or.inr ⟨c, rfl⟩
      | none =>
          by_contra nowhere
          refine free ⟨client ▸ opened, client ▸ held, fun listens same => ?_⟩
          exact nowhere (Or.inl (client.trans same))
  rcases connect_cases t o with ⟨none, eq⟩ | ⟨opened, -, eq⟩ | ⟨starts, eq⟩
  · rw [eq]
    refine ⟨owned.proper, owned.nonneg, owned.keyed, owned.listener, fun key there => ?_, ?_⟩
    · exact absurd there (idle key)
    · intro fd opened
      rcases ownedElse opened with listener | held
      · exact Or.inl listener
      · exact Or.inr (Or.inl held)
  · have fds : openFds (t.connecting o.fd).dropClient.calls = openFds t.calls :=
      openFds_reclosed fresh
    rw [eq]
    refine ⟨?_, ?_, ?_, ?_, fun key there => ?_, ?_⟩
    · refine (owned.proper.opened o.fd).snoc rfl ?_
      rw [openFds_append]
      exact List.mem_cons_self
    · exact fds ▸ owned.nonneg
    · exact fds ▸ owned.keyed
    · exact fds ▸ owned.listener
    · exact absurd there (idle key)
    · rw [fds]
      intro fd opened
      rcases ownedElse opened with listener | held
      · exact Or.inl listener
      · exact Or.inr (Or.inl held)
  · have fds : openFds (t.connecting o.fd).watchConnect.calls = o.fd :: openFds t.calls :=
      (openFds_append _ (.watch o.fd .WRONLY)).trans (openFds_append t.calls (.opened o.fd))
    rw [eq]
    refine ⟨?_, ?_, ?_, fun listens => ?_, fun key there => ?_, ?_⟩
    · refine (owned.proper.opened o.fd).snoc rfl ?_
      rw [openFds_append]
      exact List.mem_cons_self
    · rw [fds]
      intro fd member
      rcases List.mem_cons.mp member with rfl | member
      · exact starts.1
      · exact owned.nonneg fd member
    · rw [fds]
      intro fd c held
      obtain ⟨key, opened⟩ := owned.keyed fd c held
      exact ⟨key, List.mem_cons_of_mem _ opened⟩
    · rw [fds]
      exact ⟨List.mem_cons_of_mem _ (owned.listener listens).1, (owned.listener listens).2⟩
    · by_cases same : key = (o.fd, .WRONLY)
      · refine ⟨same, ?_, owned.absent fresh, fun listens here => ?_⟩
        · rw [fds]
          exact List.mem_cons_self
        · have opened := (owned.listener listens).1
          exact fresh ((show o.fd = t.listen_fd_ from here) ▸ opened)
      · exact absurd ((AList.lookup_insert_ne same).symm.trans there) (idle key)
    · rw [fds]
      intro fd member
      rcases List.mem_cons.mp member with same | member
      · exact Or.inr (Or.inr same)
      · rcases ownedElse member with listener | held
        · exact Or.inl listener
        · exact Or.inr (Or.inl held)

theorem Owned.unwatchConnect (owned : Owned t) (opened : t.client_fd_ ∈ openFds t.calls) :
    Owned t.unwatchConnect := by
  obtain ⟨frame, conns⟩ := unwatchConnect_spec t
  refine owned.frame frame (fun fd => ?_) ?_
  · rw [conn, conn, conns]
  · unfold TcpTransport.unwatchConnect
    split
    · exact owned.proper.snoc rfl opened
    · exact owned.proper

theorem unwatchConnect_attempts (owned : Owned t) (key : Fd × WatchFlag) :
    t.unwatchConnect.watched.lookup key ≠ some .onConnectReady := by
  intro there
  have before := (unwatchConnect_spec t).1.attempts key there
  obtain ⟨same, attempting⟩ := owned.attempt key before
  unfold TcpTransport.unwatchConnect at there
  rw [if_pos (owned.nonneg _ attempting.1)] at there
  exact (lookup_of_erase there).1 same

theorem Owned.onConnectReady (owned : Owned t) (o : ConnectedOutcome) (attempting : Attempting t) :
    Owned (t.onConnectReady o) := by
  obtain ⟨frame, conns⟩ := unwatchConnect_spec t
  have unwatched := owned.unwatchConnect attempting.1
  have idle := unwatchConnect_attempts owned
  have opened : t.unwatchConnect.client_fd_ ∈ openFds t.unwatchConnect.calls := by
    rw [frame.client, frame.fds]
    exact attempting.1
  have unused : t.unwatchConnect.conn t.unwatchConnect.client_fd_ = none := by
    rw [conn, conns, frame.client]
    exact attempting.2.1
  have unlistened : 0 ≤ t.unwatchConnect.listen_fd_ →
      t.unwatchConnect.listen_fd_ ≠ t.unwatchConnect.client_fd_ := by
    rw [frame.listen, frame.client]
    exact fun listens same => attempting.2.2 listens same.symm
  rcases onConnectReady_cases t o with ⟨-, eq⟩ | ⟨peer, -, -, eq⟩
  · rw [eq]
    generalize t.unwatchConnect = u at unwatched idle opened unused unlistened
    have fds (fd : Fd) : fd ∈ openFds (u.dropClient.replay_ (.ConnectRep .Fatal)).calls ↔
        fd ∈ openFds u.calls ∧ fd ≠ u.client_fd_ := by
      rw [replay_, dropClient, call, openFds_append, mem_filter_ne]
    refine ⟨?_, ?_, ?_, fun listens => ?_, fun key there => ?_, ?_⟩
    · exact unwatched.proper.snoc rfl opened
    · exact fun fd member => unwatched.nonneg fd ((fds fd).mp member).1
    · intro fd c held
      obtain ⟨key, opened'⟩ := unwatched.keyed fd c held
      refine ⟨key, (fds fd).mpr ⟨opened', fun same => ?_⟩⟩
      have missing : u.conn fd = none := same ▸ unused
      exact absurd (missing.symm.trans held) (by simp)
    · obtain ⟨opened', free⟩ := unwatched.listener listens
      exact ⟨(fds _).mpr ⟨opened', unlistened listens⟩, free⟩
    · exact absurd there (idle key)
    · intro fd member
      obtain ⟨opened', other⟩ := (fds fd).mp member
      rcases unwatched.owner fd opened' with listener | held | client
      · exact Or.inl listener
      · exact Or.inr (Or.inl held)
      · exact absurd client other
  · rw [eq]
    generalize t.unwatchConnect = u at unwatched idle opened unused unlistened
    have conn' (fd : Fd) : ((u.completed peer).replay_ (.ConnectRep .Ok)).conn fd =
        if fd = u.client_fd_ then some { fd_ := u.client_fd_, peer_ := peer } else u.conn fd :=
      conn_setConn u u.client_fd_ fd _
    refine ⟨unwatched.proper, unwatched.nonneg, ?_, fun listens => ?_, fun key there => ?_, ?_⟩
    · intro fd c held
      rw [conn' fd] at held
      split at held
      · rename_i same
        rw [Option.some.injEq] at held
        rw [← held]
        exact ⟨same.symm, same ▸ opened⟩
      · exact unwatched.keyed fd c held
    · obtain ⟨opened', free⟩ := unwatched.listener listens
      exact ⟨opened', (conn' u.listen_fd_).trans ((if_neg (unlistened listens)).trans free)⟩
    · exact absurd there (idle key)
    · intro fd member
      rw [conn' fd]
      rcases unwatched.owner fd member with listener | held | client
      · exact Or.inl listener
      · by_cases same : fd = u.client_fd_
        · exact Or.inr (Or.inr same)
        · rw [if_neg same]
          exact Or.inr (Or.inl held)
      · exact Or.inr (Or.inr client)

theorem Owned.closeListener (owned : Owned t) : Proper t.closeListener.calls ∧
    ∀ fd, fd ∈ openFds t.closeListener.calls ↔ fd ∈ openFds t.calls ∧ fd ≠ t.listen_fd_ := by
  unfold TcpTransport.closeListener
  split
  · rename_i listens
    have opened := (owned.listener listens).1
    unfold unwatchAccept
    rw [if_pos listens]
    have unwatched : Proper (t.calls ++ [.unwatch t.listen_fd_ .RDONLY]) :=
      owned.proper.snoc rfl opened
    have fds := openFds_append t.calls (.unwatch t.listen_fd_ .RDONLY)
    refine ⟨unwatched.snoc rfl (fds ▸ opened), fun fd => ?_⟩
    have closed := openFds_append (t.calls ++ [.unwatch t.listen_fd_ .RDONLY])
      (.closed t.listen_fd_)
    rw [unwatch, call, closed, mem_filter_ne, fds]
  · rename_i free
    refine ⟨owned.proper, fun fd => ⟨fun opened => ⟨opened, ?_⟩, fun both => both.1⟩⟩
    rintro rfl
    exact free (owned.nonneg _ opened)

theorem closeListener_frame (t : TcpTransport) : t.closeListener.listen_fd_ < 0 ∧
    t.closeListener.client_fd_ = t.client_fd_ ∧
      t.closeListener.connection_by_fd_ = t.connection_by_fd_ ∧
        ∀ key, t.closeListener.watched.lookup key = some .onConnectReady →
          t.watched.lookup key = some .onConnectReady := by
  unfold TcpTransport.closeListener
  split
  · rename_i listens
    unfold unwatchAccept
    rw [if_pos listens]
    exact ⟨neg_one_lt_zero, rfl, rfl, fun key there => (lookup_of_erase there).2⟩
  · rename_i free
    exact ⟨Int.not_le.mp free, rfl, rfl, fun key there => there⟩

theorem closeClient_frame (t : TcpTransport) : t.closeClient.client_fd_ < 0 ∧
    t.closeClient.listen_fd_ = t.listen_fd_ ∧
      t.closeClient.connection_by_fd_ = t.connection_by_fd_ ∧
        openFds t.closeClient.calls = openFds t.calls ∧
          ∀ key, t.closeClient.watched.lookup key = some .onConnectReady →
            t.watched.lookup key = some .onConnectReady := by
  obtain ⟨frame, conns⟩ := unwatchConnect_spec t
  unfold closeClient
  split
  · exact ⟨neg_one_lt_zero, frame.listen, conns, frame.fds, frame.attempts⟩
  · rename_i free
    exact ⟨Int.not_le.mp free, rfl, rfl, rfl, fun key there => there⟩

theorem Proper.closeClient (proper : Proper t.calls)
    (live : 0 ≤ t.client_fd_ → t.client_fd_ ∈ openFds t.calls) : Proper t.closeClient.calls := by
  unfold TcpTransport.closeClient
  split
  · rename_i client
    unfold TcpTransport.unwatchConnect
    rw [if_pos client]
    exact proper.snoc rfl (live client)
  · exact proper

theorem closeConns_frame (fds : List Fd) (t : TcpTransport) :
    (fds.foldl closeConn t).listen_fd_ = t.listen_fd_ ∧
      (fds.foldl closeConn t).client_fd_ = t.client_fd_ ∧
        ∀ key, (fds.foldl closeConn t).watched.lookup key = some .onConnectReady →
          t.watched.lookup key = some .onConnectReady := by
  induction fds generalizing t with
  | nil => exact ⟨rfl, rfl, fun key there => there⟩
  | cons fd fds ih =>
      have frame := (disarm_spec t fd .RDONLY).1.trans
        (disarm_spec (t.disarm fd .RDONLY) fd .WRONLY).1
      obtain ⟨listen, client, attempts⟩ := ih (t.closeConn fd)
      exact ⟨listen.trans frame.listen, client.trans frame.client,
        fun key there => frame.attempts key (attempts key there)⟩

/-- Without an attempt or a stale `client_fd_`, `close` gives every descriptor back. -/
theorem Owned.close (owned : Owned t)
    (live : t.client_fd_ < 0 ∨ (t.conn t.client_fd_).isSome = true) :
    Owned t.close ∧ openFds t.close.calls = [] := by
  obtain ⟨properL, fdsL⟩ := owned.closeListener
  obtain ⟨listenL, clientL, connsL, attemptsL⟩ := closeListener_frame t
  obtain ⟨clientC, listenC, connsC, fdsC, attemptsC⟩ := closeClient_frame t.closeListener
  obtain ⟨listen, client, attempts⟩ :=
    closeConns_frame t.connection_by_fd_.keys t.closeListener.closeClient
  have kept (fd : Fd) (c : Connection) (held : t.conn fd = some c) :
      fd ∈ openFds t.closeListener.calls := by
    refine (fdsL fd).mpr ⟨(owned.keyed fd c held).2, ?_⟩
    rintro rfl
    have free := (owned.listener (owned.nonneg _ (owned.keyed _ c held).2)).2
    rw [held] at free
    cases free
  have properC : Proper t.closeListener.closeClient.calls := by
    refine properL.closeClient fun some_fd => ?_
    rw [clientL] at some_fd ⊢
    obtain ⟨c, held⟩ := Option.isSome_iff_exists.mp (live.resolve_left (Int.not_lt.mpr some_fd))
    exact kept _ c held
  have conns (fd : Fd) : t.closeListener.closeClient.conn fd = t.conn fd := by
    rw [conn, connsC, connsL]
    rfl
  obtain ⟨proper, fds⟩ := closeConns_spec t.connection_by_fd_.keys t.closeListener.closeClient
    t.connection_by_fd_.nodupKeys properC
    (fun fd member => by
      obtain ⟨c, held⟩ := mem_keys.mp member
      exact ⟨c, (conns fd).trans held, (owned.keyed fd c held).1⟩)
    (fun fd member => by
      obtain ⟨c, held⟩ := mem_keys.mp member
      rw [fdsC]
      exact kept fd c held)
  have none_open : openFds t.close.calls = [] := by
    refine List.eq_nil_iff_forall_not_mem.mpr fun fd opened => ?_
    have left : fd ∈ openFds (t.connection_by_fd_.keys.foldl closeConn
        t.closeListener.closeClient).calls := by
      rw [← connsL, ← connsC]
      exact opened
    obtain ⟨opened, unheld⟩ := (fds fd).mp left
    rw [fdsC] at opened
    obtain ⟨opened, unlistened⟩ := (fdsL fd).mp opened
    rcases owned.owner fd opened with listener | held | stale
    · exact unlistened listener
    · exact unheld (mem_keys.mpr held)
    · rcases live with none | held
      · exact Int.not_le.mpr none (stale ▸ owned.nonneg fd opened)
      · exact unheld (mem_keys.mpr (stale ▸ Option.isSome_iff_exists.mp held))
  have eq : t.close = { t.connection_by_fd_.keys.foldl closeConn t.closeListener.closeClient with
      connection_by_fd_ := ∅, fd_by_peer_ := ∅, hot_read_peer_ := "", hot_write_peer_ := "" } := by
    rw [← connsL, ← connsC]
    rfl
  refine ⟨?_, none_open⟩
  rw [eq] at none_open ⊢
  refine ⟨proper, fun fd opened => ?_, fun fd c held => ?_, fun listens => ?_, fun key there => ?_,
    fun fd opened => ?_⟩
  · rw [none_open] at opened
    cases opened
  · cases held
  · have closed := listen.trans listenC
    exact absurd (closed ▸ listens) (Int.not_le.mpr listenL)
  · obtain ⟨-, attempting⟩ := owned.attempt key (attemptsL key (attemptsC key (attempts key there)))
    rcases live with none | held
    · exact absurd (owned.nonneg _ attempting.1) (Int.not_le.mpr none)
    · rw [attempting.2.1] at held
      cases held
  · rw [none_open] at opened
    cases opened

/-- A step that forgets no descriptor. -/
theorem Owned.step (owned : Owned t) (keeps : KeepsFds t op)
    (taken : TcpTransport.step t op = some t') : Owned t' ∧
    (op = .close → openFds t'.calls = []) := by
  cases op with
  | bind o =>
      obtain ⟨fresh, ⟨⟩⟩ := Option.ite_none_right_eq_some.mp taken
      exact ⟨owned.bind o keeps fresh, fun other => by cases other⟩
  | connect o =>
      obtain ⟨fresh, ⟨⟩⟩ := Option.ite_none_right_eq_some.mp taken
      exact ⟨owned.connect o keeps fresh, fun other => by cases other⟩
  | close =>
      obtain rfl := Option.some.inj taken
      obtain ⟨closed, none⟩ := owned.close keeps
      exact ⟨closed, fun _ => none⟩
  | acceptReady fd accepted =>
      obtain ⟨⟨-, nodup, fresh⟩, ⟨⟩⟩ := Option.ite_none_right_eq_some.mp taken
      refine ⟨owned.acceptAll (accepted.take 10) ?_ ?_, fun other => by cases other⟩
      · rw [List.map_take]
        exact nodup.sublist (List.take_sublist _ _)
      · exact fun a member => fresh a (List.mem_of_mem_take member)
  | connectReady fd o =>
      obtain ⟨⟨watched, -⟩, ⟨⟩⟩ := Option.ite_none_right_eq_some.mp taken
      exact ⟨owned.onConnectReady o (owned.attempt _ watched).2, fun other => by cases other⟩
  | readReady fd =>
      obtain ⟨-, ⟨⟩⟩ := Option.ite_none_right_eq_some.mp taken
      refine ⟨?_, fun other => by cases other⟩
      unfold onReadReady
      split
      · exact owned.same rfl rfl (fun _ => rfl) rfl rfl
      · exact owned
  | writeReady fd =>
      obtain ⟨-, ⟨⟩⟩ := Option.ite_none_right_eq_some.mp taken
      refine ⟨?_, fun other => by cases other⟩
      unfold onWriteReady
      split
      · exact owned.same rfl rfl (fun _ => rfl) rfl rfl
      · exact owned
  | resumeRead order recv =>
      obtain ⟨all, ⟨⟩⟩ := Option.ite_none_right_eq_some.mp taken
      exact ⟨owned.resumeRead recv all, fun other => by cases other⟩
  | resumeWrite data peer send =>
      obtain rfl := Option.some.inj taken
      exact ⟨owned.resumeWrite data peer send, fun other => by cases other⟩
  | suspendRead =>
      obtain rfl := Option.some.inj taken
      exact ⟨owned.suspendRead, fun other => by cases other⟩
  | suspendWrite peer =>
      obtain rfl := Option.some.inj taken
      exact ⟨owned.suspendWrite peer, fun other => by cases other⟩
  | deliver reply =>
      obtain ⟨-, ⟨⟩⟩ := Option.ite_none_right_eq_some.mp taken
      exact ⟨owned.same rfl rfl (fun _ => rfl) rfl rfl, fun other => by cases other⟩

theorem owned_initial : Owned {} := by
  refine ⟨fun front call back cut => ?_, fun fd opened => ?_, fun fd c held => ?_,
    fun listens => ?_, fun key there => ?_, fun fd opened => ?_⟩
  · simp at cut
  · cases opened
  · cases held
  · exact absurd listens (by decide)
  · cases there
  · cases opened

/-- A run that takes no second listener, starts no attempt during another and closes no stale or
pending `client_fd_` uses and closes descriptors only while they are open, and leaves none open once
it closes. -/
theorem fds_conserved (run : Exec (Guarded KeepsFds (Of step)) {} ops t) :
    Proper t.calls ∧ (ops.getLast? = some .close → openFds t.calls = []) := by
  have kept := run.history
    (fun ops t => Owned t ∧ (ops.getLast? = some .close → openFds t.calls = []))
    ⟨owned_initial, fun last => by cases last⟩ fun ops t op t' before taken => by
      obtain ⟨after, closed⟩ := before.1.step taken.1 taken.2
      refine ⟨after, fun last => closed ?_⟩
      rw [List.getLast?_concat, Option.some.injEq] at last
      exact last
  exact ⟨kept.1.proper, kept.2⟩

end Owners

/-- Two peers connect, one of them ends its connection, and the listener closes. -/
theorem fds_conserved_twoPeers : ∃ ops t, Exec (Guarded KeepsFds (Of step)) {} ops t ∧
    ops.length = 5 ∧ openFds (t.calls.take 9) = [5, 3] ∧
      Proper t.calls ∧ (ops.getLast? = some .close → openFds t.calls = []) := by
  have runs : (Transition.run (Transition.guardedStep (fun t op => decide (KeepsFds t op)) step) {}
      [.bind { fd := 3 }, .acceptReady 3 [⟨4, "1.1.1.1", 7⟩, ⟨5, "1.1.1.2", 7⟩], .readReady 4,
        .resumeRead [4, 5] fun _ => .eof, .close]).isSome = true := by decide +kernel
  have kept := Transition.guarded_of_isSome runs
  have conserved := fds_conserved kept
  refine ⟨_, _, kept, rfl, ?_, conserved⟩
  clear kept conserved
  revert runs
  decide +kernel

/-- `close` during an attempt to connect forgets its descriptor. -/
theorem close_leaks_attempt : ¬ ∀ ops t, Run ops t →
    Proper t.calls ∧ (ops.getLast? = some .close → openFds t.calls = []) := by
  intro conserved
  have runs : (Transition.run step {} [.connect { fd := 3 }, .close]).isSome = true := by
    decide +kernel
  have none := (conserved _ _ (Transition.exec_of_isSome runs)).2 rfl
  clear conserved
  revert runs none
  decide +kernel

end TcpTransport

end Getrafty
