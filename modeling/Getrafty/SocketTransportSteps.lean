import Getrafty.SocketTransport

set_option autoImplicit false

namespace Getrafty

namespace TcpTransport

/-- Nothing changed but the arming of connections, the hot peers and what was called. -/
structure Frame (t t' : TcpTransport) : Prop where
  listen : t'.listen_fd_ = t.listen_fd_
  client : t'.client_fd_ = t.client_fd_
  connected : t'.connected_ = t.connected_
  index : t'.fd_by_peer_ = t.fd_by_peer_
  inflight : t'.inflight = t.inflight
  fds : openFds t'.calls = openFds t.calls
  attempts : ∀ key, t'.watched.lookup key = some .onConnectReady →
    t.watched.lookup key = some .onConnectReady

section Arming

variable {t t' t'' : TcpTransport} {fd fd' : Fd}

theorem Frame.refl (t : TcpTransport) : Frame t t :=
  ⟨rfl, rfl, rfl, rfl, rfl, rfl, fun _ there => there⟩

theorem Frame.trans (first : Frame t t') (second : Frame t' t'') : Frame t t'' :=
  ⟨second.listen.trans first.listen, second.client.trans first.client,
    second.connected.trans first.connected, second.index.trans first.index,
    second.inflight.trans first.inflight, second.fds.trans first.fds,
    fun key there => first.attempts key (second.attempts key there)⟩

theorem openFds_append (calls : List FdCall) (call : FdCall) :
    openFds (calls ++ [call]) = match call with
      | .opened fd => fd :: openFds calls
      | .closed fd => (openFds calls).filter (fun other => other ≠ fd)
      | .watch _ _ | .unwatch _ _ | .recv _ | .send _ => openFds calls := by
  cases call <;> simp only [openFds, List.foldl_append, List.foldl_cons, List.foldl_nil]

theorem conn_setConn (t : TcpTransport) (fd fd' : Fd) (c : Connection) :
    (t.setConn fd c).conn fd' = if fd' = fd then some c else t.conn fd' := by
  by_cases same : fd' = fd
  · subst same
    rw [if_pos rfl]
    exact AList.lookup_insert _
  · rw [if_neg same]
    exact AList.lookup_insert_ne same

theorem lookup_insert_attempt {watched : AList (fun _ : Fd × WatchFlag => ReadyHandler)}
    {key key' : Fd × WatchFlag} {handler : ReadyHandler} (other : handler ≠ .onConnectReady)
    (there : (watched.insert key' handler).lookup key = some .onConnectReady) :
    watched.lookup key = some .onConnectReady := by
  by_cases same : key = key'
  · rw [same, AList.lookup_insert, Option.some.injEq] at there
    exact absurd there other
  · rwa [AList.lookup_insert_ne same] at there

theorem lookup_of_erase {watched : AList (fun _ : Fd × WatchFlag => ReadyHandler)}
    {key key' : Fd × WatchFlag} {handler : ReadyHandler}
    (there : (watched.erase key').lookup key = some handler) :
    key ≠ key' ∧ watched.lookup key = some handler := by
  by_cases same : key = key'
  · rw [same, AList.lookup_erase] at there
    cases there
  · rw [AList.lookup_erase_ne same] at there
    exact ⟨same, there⟩

theorem frame_watch (t : TcpTransport) (fd : Fd) (flag : WatchFlag) {handler : ReadyHandler}
    (other : handler ≠ .onConnectReady) : Frame t (t.watch fd flag handler) :=
  ⟨rfl, rfl, rfl, rfl, rfl, openFds_append _ _, fun _ there => lookup_insert_attempt other there⟩

theorem frame_unwatch (t : TcpTransport) (fd : Fd) (flag : WatchFlag) :
    Frame t (t.unwatch fd flag) :=
  ⟨rfl, rfl, rfl, rfl, rfl, openFds_append _ _, fun _ there => (lookup_of_erase there).2⟩

theorem frame_recv (t : TcpTransport) (fd : Fd) : Frame t (t.call (.recv fd)) :=
  ⟨rfl, rfl, rfl, rfl, rfl, openFds_append _ _, fun _ there => there⟩

theorem frame_send (t : TcpTransport) (fd : Fd) : Frame t (t.call (.send fd)) :=
  ⟨rfl, rfl, rfl, rfl, rfl, openFds_append _ _, fun _ there => there⟩

theorem frame_setConn (t : TcpTransport) (fd : Fd) (c : Connection) : Frame t (t.setConn fd c) :=
  ⟨rfl, rfl, rfl, rfl, rfl, rfl, fun _ there => there⟩

theorem frame_coolRead (t : TcpTransport) : Frame t t.coolRead :=
  ⟨rfl, rfl, rfl, rfl, rfl, rfl, fun _ there => there⟩

theorem setArmed_same {c : Connection} {flag : WatchFlag} {on : Bool} (same : c.armed flag = on) :
    c.setArmed flag on = c := by
  cases flag with
  | RDONLY => exact same ▸ rfl
  | WRONLY => exact same ▸ rfl

/-- A connection that is armed or disarmed already, or absent. -/
theorem conn_setArmed_same {flag : WatchFlag} {on : Bool}
    (same : ∀ c, t.conn fd = some c → c.armed flag = on) (fd' : Fd) :
    t.conn fd' = if fd' = fd then (t.conn fd).map (·.setArmed flag on) else t.conn fd' := by
  by_cases here : fd' = fd
  · rw [if_pos here, here]
    cases held : t.conn fd with
    | none => rfl
    | some c => rw [Option.map_some, setArmed_same (same c held)]
  · rw [if_neg here]

theorem arm_spec (t : TcpTransport) (fd : Fd) (flag : WatchFlag) {handler : Fd → ReadyHandler}
    (other : ∀ fd, handler fd ≠ .onConnectReady) :
    Frame t (t.arm fd flag handler) ∧ ∀ fd', (t.arm fd flag handler).conn fd' =
      if fd' = fd then (t.conn fd).map (·.setArmed flag true) else t.conn fd' := by
  unfold arm
  split
  · rename_i c held
    split
    · rename_i armed
      refine ⟨.refl t, conn_setArmed_same fun c' held' => ?_⟩
      rw [held, Option.some.injEq] at held'
      exact held' ▸ armed
    · refine ⟨(frame_watch t _ _ (other _)).trans (frame_setConn _ _ _), fun fd' => ?_⟩
      rw [conn_setConn, held]
      rfl
  · rename_i absent
    refine ⟨.refl t, conn_setArmed_same fun c held => ?_⟩
    rw [absent] at held
    cases held

theorem disarm_spec (t : TcpTransport) (fd : Fd) (flag : WatchFlag) :
    Frame t (t.disarm fd flag) ∧ ∀ fd', (t.disarm fd flag).conn fd' =
      if fd' = fd then (t.conn fd).map (·.setArmed flag false) else t.conn fd' := by
  unfold disarm
  split
  · rename_i c held
    split
    · refine ⟨(frame_unwatch t _ _).trans (frame_setConn _ _ _), fun fd' => ?_⟩
      rw [conn_setConn, held]
      rfl
    · rename_i idle
      refine ⟨.refl t, conn_setArmed_same fun c' held' => ?_⟩
      rw [held, Option.some.injEq] at held'
      exact held' ▸ Bool.eq_false_iff.mpr idle
  · rename_i absent
    refine ⟨.refl t, conn_setArmed_same fun c held => ?_⟩
    rw [absent] at held
    cases held

/-- The handlers of connections are others than that of an attempt to connect. -/
theorem readHandler (fd : Fd) : ReadyHandler.onReadReady fd ≠ .onConnectReady := by
  intro same
  cases same

theorem writeHandler (fd : Fd) : ReadyHandler.onWriteReady fd ≠ .onConnectReady := by
  intro same
  cases same

end Arming

section Loops

variable {t t' : TcpTransport} {fd : Fd}

/-- `closeConn` disarms both ways and gives the descriptor back. -/
theorem closeConn_conn (t : TcpTransport) (fd fd' : Fd) : (t.closeConn fd).conn fd' =
    if fd' = fd then (t.conn fd).map (fun c => (c.setArmed .RDONLY false).setArmed .WRONLY false)
    else t.conn fd' := by
  have written : (t.closeConn fd).conn fd' =
      ((t.unwatchRead fd).unwatchWrite fd).conn fd' := rfl
  rw [written, unwatchWrite, (disarm_spec _ fd .WRONLY).2, unwatchRead,
    (disarm_spec t fd .RDONLY).2, (disarm_spec t fd .RDONLY).2]
  by_cases same : fd' = fd
  · rw [if_pos same, if_pos rfl, if_pos same, Option.map_map]
    rfl
  · rw [if_neg same, if_neg same, if_neg same]

theorem suspendRead_fold (t : TcpTransport) (fds : List Fd) :
    Frame t (fds.foldl unwatchRead t) ∧ ∀ fd, (fds.foldl unwatchRead t).conn fd =
      if fd ∈ fds then (t.conn fd).map (·.setArmed .RDONLY false) else t.conn fd := by
  induction fds generalizing t with
  | nil => exact ⟨.refl t, fun fd => (if_neg List.not_mem_nil).symm⟩
  | cons first fds ih =>
      obtain ⟨frame, conn⟩ := disarm_spec t first .RDONLY
      obtain ⟨frame', conn'⟩ := ih (t.disarm first .RDONLY)
      refine ⟨frame.trans frame', fun fd => (conn' fd).trans ?_⟩
      rw [conn fd]
      by_cases here : fd = first
      · rw [if_pos here, here, if_pos List.mem_cons_self]
        split
        · rw [Option.map_map]
          rfl
        · rfl
      · rw [if_neg here]
        simp only [List.mem_cons, here, false_or]

theorem mem_keys {fd : Fd} : fd ∈ t.connection_by_fd_.keys ↔ ∃ c, t.conn fd = some c := by
  rw [← AList.mem_keys, ← AList.lookup_isSome, Option.isSome_iff_exists]
  exact Iff.rfl

/-- `suspendRead` disarms every connection. -/
theorem suspendRead_spec (t : TcpTransport) : Frame t t.suspendRead ∧
    ∀ fd, t.suspendRead.conn fd = (t.conn fd).map (·.setArmed .RDONLY false) := by
  obtain ⟨frame, conn⟩ := suspendRead_fold t t.connection_by_fd_.keys
  refine ⟨frame, fun fd => (conn fd).trans ?_⟩
  split
  · rfl
  · rename_i absent
    cases held : t.conn fd with
    | none => rfl
    | some c => exact absurd (mem_keys.mpr ⟨c, held⟩) absent

/-- The connections that a scan came to are armed, and read from. -/
def visit (t : TcpTransport) (fd : Fd) : TcpTransport := (t.watchRead fd).call (.recv fd)

/-- Nothing but the arming of these connections changed. -/
structure Visits (t t' : TcpTransport) (fds : List Fd) : Prop where
  frame : Frame t t'
  conn : ∀ fd, t'.conn fd =
    if fd ∈ fds then (t.conn fd).map (·.setArmed .RDONLY true) else t.conn fd

theorem Visits.none (frame : Frame t t') (same : t'.connection_by_fd_ = t.connection_by_fd_) :
    Visits t t' [] :=
  ⟨frame, fun fd => by rw [if_neg List.not_mem_nil, TcpTransport.conn, same]; rfl⟩

theorem visit_fold (t : TcpTransport) (fds : List Fd) : Visits t (fds.foldl visit t) fds := by
  induction fds generalizing t with
  | nil => exact .none (.refl t) rfl
  | cons first fds ih =>
      obtain ⟨frame, conn⟩ := arm_spec t first .RDONLY readHandler
      have rest := ih (t.visit first)
      refine ⟨(frame.trans (frame_recv _ _)).trans rest.frame, fun fd => (rest.conn fd).trans ?_⟩
      have one : (t.visit first).conn fd = (t.arm first .RDONLY .onReadReady).conn fd := rfl
      rw [one, conn fd]
      by_cases here : fd = first
      · rw [if_pos here, here, if_pos List.mem_cons_self]
        split
        · rw [Option.map_map]
          rfl
        · rfl
      · rw [if_neg here]
        simp only [List.mem_cons, here, false_or]

end Loops

/-- What `releaseConnection` leaves when it finds the connection. -/
structure Released (t t' : TcpTransport) (fd : Fd) (c : Connection) : Prop where
  listen : t'.listen_fd_ = t.listen_fd_
  client : t'.client_fd_ = t.client_fd_
  connected : t'.connected_ = t.connected_
  inflight : t'.inflight = t.inflight
  index : t'.fd_by_peer_ = t.fd_by_peer_.erase c.peer_
  conn : ∀ fd', t'.conn fd' = if fd' = fd then none else t.conn fd'
  fds : openFds t'.calls = (openFds t.calls).filter (fun other => other ≠ fd)
  attempts : ∀ key, t'.watched.lookup key = some .onConnectReady →
    t.watched.lookup key = some .onConnectReady

/-- What one turn of the loop in `onAcceptReady` leaves. -/
structure Accepts (t t' : TcpTransport) (accepted : Accepted) : Prop where
  listen : t'.listen_fd_ = t.listen_fd_
  client : t'.client_fd_ = t.client_fd_
  connected : t'.connected_ = t.connected_
  inflight : t'.inflight = t.inflight
  index : t'.fd_by_peer_ = t.fd_by_peer_.insert (Accepted.peer accepted) accepted.fd
  conn : ∀ fd, t'.conn fd = if fd = accepted.fd then
    some { fd_ := accepted.fd, peer_ := Accepted.peer accepted, read_armed_ := true } else t.conn fd
  fds : openFds t'.calls = accepted.fd :: openFds t.calls
  attempts : ∀ key, t'.watched.lookup key = some .onConnectReady →
    t.watched.lookup key = some .onConnectReady

/-- The connection that the outcome of `resumeRead` comes from. -/
def Decides (t : TcpTransport) (order : List Fd) (recv : Fd → RecvOutcome) (fd : Fd) : Prop :=
  t.hotFd = some fd ∨ t.hotFd = none ∧ ∃ front back, order = front ++ fd :: back ∧
    ∀ f ∈ front, ∃ errno, recv f = .failed errno ∧ wouldBlock errno = true

/-- Everything `resumeRead` can do. -/
inductive ReadCase (t : TcpTransport) (order : List Fd) (recv : Fd → RecvOutcome) :
    ReadResult → TcpTransport → Prop
  | hotBlocked (fd : Fd) (errno : Int) (t' : TcpTransport) (hot : t.hotFd = some fd)
      (out : recv fd = .failed errno) (full : wouldBlock errno = true) (visits : Visits t t' [fd]) :
      ReadCase t order recv { n := 0, status := .WouldBlock, data := filled [] } t'
  | scanBlocked (t' : TcpTransport) (cold : t.hotFd = none)
      (out : ∀ fd ∈ order, ∃ errno, recv fd = .failed errno ∧ wouldBlock errno = true)
      (visits : Visits t t' order) :
      ReadCase t order recv { n := 0, status := .WouldBlock, data := filled [] } t'
  | received (fd : Fd) (c : Connection) (chunk : ReadChunk) (t' : TcpTransport) (fds : List Fd)
      (source : Decides t order recv fd) (held : t.conn fd = some c)
      (out : recv fd = .received chunk) (visits : Visits t t' fds) :
      ReadCase t order recv
        { n := chunk.bytes.length, status := .Ok, data := filled chunk.bytes, peer := c.peer_ } t'
  | ended (fd : Fd) (c : Connection) (t' : TcpTransport) (fds : List Fd)
      (source : Decides t order recv fd) (held : t.conn fd = some c) (out : recv fd = .eof)
      (visits : Visits t t' fds) :
      ReadCase t order recv { n := 0, status := .Eof, data := filled [] } (t'.releaseConnection fd)
  | broken (fd : Fd) (c : Connection) (errno : Int) (t' : TcpTransport) (fds : List Fd)
      (source : Decides t order recv fd) (held : t.conn fd = some c)
      (out : recv fd = .failed errno) (hard : wouldBlock errno = false) (visits : Visits t t' fds) :
      ReadCase t order recv { n := minusOne, status := .Fatal, data := filled [] }
        (t'.releaseConnection fd)

/-- Everything `resumeWrite` can do. -/
inductive WriteCase (t : TcpTransport) (data : Buffer) (peer : Peer) (send : SendOutcome) :
    WriteResult → TcpTransport → Prop
  | unresolved (status : IOStatus) (missing : t.resolve peer = .error status) :
      WriteCase t data peer send { n := minusOne, status } t
  | sent (fd : Fd) (n : Nat) (found : t.resolve peer = .ok fd) (out : send = .sent n)
      (some_byte : 0 < min n data.length) :
      WriteCase t data peer send { n := min n data.length, status := .Ok } (t.call (.send fd))
  | blocked (fd : Fd) (errno : Int) (found : t.resolve peer = .ok fd) (out : send = .failed errno)
      (full : wouldBlock errno = true) :
      WriteCase t data peer send { n := 0, status := .WouldBlock }
        ((t.call (.send fd)).watchWrite fd)
  | ended (fd : Fd) (n : Nat) (found : t.resolve peer = .ok fd) (out : send = .sent n)
      (no_byte : min n data.length = 0) :
      WriteCase t data peer send { n := 0, status := .Eof }
        ((t.call (.send fd)).releaseConnection fd)
  | broken (fd : Fd) (errno : Int) (found : t.resolve peer = .ok fd) (out : send = .failed errno)
      (hard : wouldBlock errno = false) :
      WriteCase t data peer send { n := minusOne, status := .Fatal }
        ((t.call (.send fd)).releaseConnection fd)

/-- The peer of the connection that `onConnectReady` completes. -/
def ConnectedOutcome.peer (o : ConnectedOutcome) : Option Peer :=
  if o.rc < 0 ∨ o.error ≠ 0 then none else o.hostPort

/-- The attempt is under way once `connect` returns. -/
def ConnectOutcome.Starts (o : ConnectOutcome) : Prop :=
  0 ≤ o.fd ∧ o.nonBlocking = true ∧ (0 ≤ o.rc ∨ o.errno = EINPROGRESS)

instance (o : ConnectOutcome) : Decidable (ConnectOutcome.Starts o) :=
  inferInstanceAs (Decidable (_ ∧ _ ∧ _))

/-- Where `bind` and `connect` start from. -/
def listening (t : TcpTransport) (fd : Fd) : TcpTransport :=
  { t with listen_fd_ := fd }.call (.opened fd)

def connecting (t : TcpTransport) (fd : Fd) : TcpTransport :=
  { t with client_fd_ := fd }.call (.opened fd)

/-- Where `onConnectReady` ends when there is a connection. -/
def completed (t : TcpTransport) (peer : Peer) : TcpTransport :=
  { t.setConn t.client_fd_ { fd_ := t.client_fd_, peer_ := peer } with
    fd_by_peer_ := t.fd_by_peer_.insert peer t.client_fd_
    connected_ := true }

section Cases

variable {t t' t'' : TcpTransport} {fd : Fd} {fds : List Fd} {c : Connection}

theorem releaseConnection_spec (held : t.conn fd = some c) :
    Released t (t.releaseConnection fd) fd c := by
  have closed := closeConn_conn t fd
  obtain ⟨first, -⟩ := disarm_spec t fd .RDONLY
  obtain ⟨second, -⟩ := disarm_spec (t.disarm fd .RDONLY) fd .WRONLY
  have frame := first.trans second
  unfold releaseConnection
  rw [held]
  refine ⟨frame.listen, frame.client, frame.connected, frame.inflight, ?_, fun fd' => ?_, ?_,
    frame.attempts⟩
  · exact congrArg (AList.erase c.peer_) frame.index
  · by_cases same : fd' = fd
    · rw [if_pos same, same]
      exact AList.lookup_erase _ _
    · rw [if_neg same]
      have kept := closed fd'
      rw [if_neg same] at kept
      exact (AList.lookup_erase_ne same).trans kept
  · have calls := openFds_append ((t.unwatchRead fd).unwatchWrite fd).calls (.closed fd)
    exact calls.trans (congrArg (List.filter (fun other => other ≠ fd)) frame.fds)

theorem accept_spec (t : TcpTransport) (accepted : Accepted) :
    Accepts t (t.accept accepted) accepted := by
  obtain ⟨frame, conn⟩ := arm_spec
    { (t.call (.opened accepted.fd)).setConn accepted.fd
        { fd_ := accepted.fd, peer_ := Accepted.peer accepted } with
      fd_by_peer_ := t.fd_by_peer_.insert (Accepted.peer accepted) accepted.fd }
    accepted.fd .RDONLY readHandler
  have added (fd : Fd) := conn_setConn (t.call (.opened accepted.fd)) accepted.fd fd
    { fd_ := accepted.fd, peer_ := Accepted.peer accepted }
  refine ⟨frame.listen, frame.client, frame.connected, frame.inflight, frame.index,
    fun fd => (conn fd).trans ?_, frame.fds.trans ?_, frame.attempts⟩
  · by_cases same : fd = accepted.fd
    · rw [if_pos same, if_pos same]
      have first := added accepted.fd
      rw [if_pos rfl] at first
      exact congrArg (Option.map (·.setArmed .RDONLY true)) first
    · rw [if_neg same, if_neg same]
      have other := added fd
      rw [if_neg same] at other
      exact other
  · exact openFds_append t.calls (.opened accepted.fd)

theorem hotFd_conn (hot : t.hotFd = some fd) : ∃ c, t.conn fd = some c := by
  unfold hotFd at hot
  split at hot
  · cases hot
  · split at hot
    · split at hot
      · rename_i held
        rw [Option.some.injEq] at hot
        rw [hot] at held
        exact Option.isSome_iff_exists.mp held
      · cases hot
    · cases hot

theorem Visits.peerOf (visits : Visits t t' fds) (held : t.conn fd = some c) :
    t'.peerOf fd = c.peer_ := by
  have kept := visits.conn fd
  unfold TcpTransport.peerOf
  rw [kept, held]
  by_cases among : fd ∈ fds
  · rw [if_pos among]
    rfl
  · rw [if_neg among]

theorem Visits.trans {back : List Fd} (first : Visits t t' fds) (second : Visits t' t'' back) :
    Visits t t'' (fds ++ back) := by
  refine ⟨first.frame.trans second.frame, fun fd => (second.conn fd).trans ?_⟩
  rw [first.conn fd]
  by_cases front : fd ∈ fds
  · rw [if_pos front, if_pos (List.mem_append_left back front)]
    split
    · rw [Option.map_map]
      rfl
    · rfl
  · rw [if_neg front]
    simp only [List.mem_append, front, false_or]

theorem Visits.cool (visits : Visits t t' fds) : Visits t t'.coolRead fds :=
  ⟨visits.frame.trans (frame_coolRead t'), visits.conn⟩

/-- The scan has come to the connections in `front`, which would block. -/
theorem scan_cases {order : List Fd} {recv : Fd → RecvOutcome} (cold : t.hotFd = none)
    (keys : ∀ fd ∈ order, ∃ c, t.conn fd = some c) (rest front : List Fd) (u : TcpTransport)
    (visits : Visits t u front) (whole : order = front ++ rest)
    (blocked : ∀ f ∈ front, ∃ errno, recv f = .failed errno ∧ wouldBlock errno = true) :
    ReadCase t order recv (scan recv u rest).1 (scan recv u rest).2 := by
  induction rest generalizing front u with
  | nil =>
      rw [List.append_nil] at whole
      exact .scanBlocked u cold (whole ▸ blocked) (whole ▸ visits)
  | cons fd rest ih =>
      have source : Decides t order recv fd := Or.inr ⟨cold, front, rest, whole, blocked⟩
      obtain ⟨c, held⟩ := keys fd (whole ▸ List.mem_append_right _ List.mem_cons_self)
      have more : Visits t (u.visit fd) (front ++ [fd]) := visits.trans (visit_fold u [fd])
      rw [scan]
      cases out : recv fd with
      | received chunk =>
          have peer : (u.visit fd).peerOf fd = c.peer_ := more.peerOf held
          have case := ReadCase.received fd c chunk (u.visit fd) _ source held out more
          rw [← peer] at case
          exact case
      | eof => exact .ended fd c (u.visit fd) _ source held out more
      | failed errno =>
          cases full : wouldBlock errno with
          | true =>
              simp only [full, ↓reduceIte]
              refine ih (front ++ [fd]) (u.visit fd) more ?_ fun f member => ?_
              · rw [whole, List.append_assoc, List.singleton_append]
              · rcases List.mem_append.mp member with earlier | last
                · exact blocked f earlier
                · rw [List.mem_singleton.mp last]
                  exact ⟨errno, out, full⟩
          | false =>
              simp only [full, Bool.false_eq_true, ↓reduceIte]
              exact .broken fd c errno (u.visit fd) _ source held out full more

theorem readHot_cases {order : List Fd} {recv : Fd → RecvOutcome} (hot : t.hotFd = some fd) :
    ReadCase t order recv (t.readHot fd (recv fd)).1 (t.readHot fd (recv fd)).2 := by
  obtain ⟨c, held⟩ := hotFd_conn hot
  have source : Decides t order recv fd := Or.inl hot
  have read : Visits t (t.call (.recv fd)) [] := .none (frame_recv t fd) rfl
  cases out : recv fd with
  | received chunk =>
      have peer := read.peerOf held
      simp only [readHot, peer]
      split
      · exact .received fd c chunk _ _ source held out read.cool
      · exact .received fd c chunk _ _ source held out read
  | eof => exact .ended fd c _ _ source held out read.cool
  | failed errno =>
      cases full : wouldBlock errno with
      | true =>
          simp only [readHot, full, ↓reduceIte]
          obtain ⟨frame, conn⟩ := arm_spec (t.call (.recv fd)) fd .RDONLY readHandler
          have armed : Visits t ((t.call (.recv fd)).watchRead fd) [fd] := by
            refine ⟨(frame_recv t fd).trans frame, fun fd' => (conn fd').trans ?_⟩
            by_cases same : fd' = fd
            · rw [if_pos same, same, if_pos (List.mem_singleton.mpr rfl)]
              rfl
            · rw [if_neg same, if_neg (fun member => same (List.mem_singleton.mp member))]
              rfl
          exact .hotBlocked fd errno _ hot out full armed.cool
      | false =>
          simp only [readHot, full, Bool.false_eq_true, ↓reduceIte]
          exact .broken fd c errno _ _ source held out full read.cool

theorem resumeRead_cases (t : TcpTransport) {order : List Fd} (recv : Fd → RecvOutcome)
    (all : order.Perm t.connection_by_fd_.keys) : ∃ result after,
      t.resumeRead order recv = (result, after) ∧ ReadCase t order recv result after := by
  refine ⟨_, _, rfl, ?_⟩
  cases hot : t.hotFd with
  | some fd => exact readHot_cases hot
  | none =>
      refine scan_cases hot (fun fd member => mem_keys.mp (all.mem_iff.mp member)) order []
        t.coolRead (.none (frame_coolRead t) rfl) rfl fun f member => ?_
      cases member

theorem resolve_conn {peer : Peer} (found : t.resolve peer = .ok fd) :
    (∃ c, t.conn fd = some c) ∧ (peer ≠ "" → t.fd_by_peer_.lookup peer = some fd) := by
  unfold resolve at found
  split at found
  · split at found
    · rename_i index
      split at found
      · rename_i held
        rw [Except.ok.injEq] at found
        rw [found] at held index
        exact ⟨Option.isSome_iff_exists.mp held, fun _ => index⟩
      · cases found
    · cases found
  · rename_i none
    refine ⟨?_, fun some => absurd some none⟩
    split at found
    · rename_i client
      rw [Except.ok.injEq] at found
      exact found ▸ Option.isSome_iff_exists.mp client.2
    · split at found
      · rename_i only
        rw [Except.ok.injEq] at found
        refine mem_keys.mp ?_
        rw [only, found]
        exact List.mem_singleton.mpr rfl
      · cases found

theorem resumeWrite_cases (t : TcpTransport) (data : Buffer) (peer : Peer) (send : SendOutcome) :
    ∃ result after, t.resumeWrite data peer send = (result, after) ∧
      WriteCase t data peer send result after := by
  refine ⟨_, _, rfl, ?_⟩
  cases found : t.resolve peer with
  | error status => exact .unresolved status found
  | ok fd =>
      cases send with
      | sent n =>
          simp only [sendTo]
          split
          · exact .sent fd n found rfl ‹_›
          · rename_i none
            exact .ended fd n found rfl (Nat.le_zero.mp (Nat.le_of_not_lt none))
      | failed errno =>
          simp only [sendTo]
          cases full : wouldBlock errno with
          | true =>
              simp only [↓reduceIte]
              exact .blocked fd errno found rfl full
          | false =>
              simp only [Bool.false_eq_true, ↓reduceIte]
              exact .broken fd errno found rfl full

theorem bind_cases (t : TcpTransport) (o : BindOutcome) :
    (o.fd < 0 ∧ t.bind o = { t with listen_fd_ := o.fd }.replay_ (.BindRep .Fatal "")) ∨
      (0 ≤ o.fd ∧ t.bind o = (t.listening o.fd).failBind) ∨
      (0 ≤ o.fd ∧ ∃ endpoint, t.bind o =
        (t.listening o.fd).watchAccept.replay_ (.BindRep .Ok endpoint)) := by
  unfold bind
  dsimp only
  by_cases none : o.fd < 0
  · rw [if_pos none]
    exact Or.inl ⟨none, rfl⟩
  · rw [if_neg none]
    have opened := Int.not_lt.mp none
    right
    split
    · exact Or.inl ⟨opened, rfl⟩
    · split
      · exact Or.inl ⟨opened, rfl⟩
      · split
        · exact Or.inl ⟨opened, rfl⟩
        · cases o.hostPort with
          | none => exact Or.inl ⟨opened, rfl⟩
          | some endpoint => exact Or.inr ⟨opened, endpoint, rfl⟩

theorem connect_cases (t : TcpTransport) (o : ConnectOutcome) :
    (o.fd < 0 ∧ t.connect o = { t with client_fd_ := o.fd }) ∨
      (0 ≤ o.fd ∧ ¬ ConnectOutcome.Starts o ∧ t.connect o = (t.connecting o.fd).dropClient) ∨
      (ConnectOutcome.Starts o ∧ t.connect o = (t.connecting o.fd).watchConnect) := by
  unfold connect
  dsimp only
  by_cases none : o.fd < 0
  · rw [if_pos none]
    exact Or.inl ⟨none, rfl⟩
  · rw [if_neg none]
    have opened := Int.not_lt.mp none
    right
    split
    · rename_i blocking
      refine Or.inl ⟨opened, fun starts => ?_, rfl⟩
      rw [starts.2.1] at blocking
      cases blocking
    · rename_i nonBlocking
      split
      · rename_i refused
        refine Or.inl ⟨opened, fun starts => ?_, rfl⟩
        rcases starts.2.2 with accepted | pending
        · omega
        · exact refused.2 pending
      · rename_i pending
        refine Or.inr ⟨⟨opened, eq_true_of_ne_false nonBlocking, ?_⟩, rfl⟩
        by_cases accepted : 0 ≤ o.rc
        · exact Or.inl accepted
        · exact Or.inr (not_not.mp fun other => pending ⟨Int.not_le.mp accepted, other⟩)

theorem onConnectReady_cases (t : TcpTransport) (o : ConnectedOutcome) :
    (ConnectedOutcome.peer o = none ∧
        t.onConnectReady o = t.unwatchConnect.dropClient.replay_ (.ConnectRep .Fatal)) ∨
      ∃ peer, ConnectedOutcome.peer o = some peer ∧ 0 ≤ o.rc ∧
        t.onConnectReady o = (t.unwatchConnect.completed peer).replay_ (.ConnectRep .Ok) := by
  unfold onConnectReady ConnectedOutcome.peer
  dsimp only
  by_cases failed : o.rc < 0
  · rw [if_pos failed, if_pos (Or.inl failed)]
    exact Or.inl ⟨rfl, rfl⟩
  · rw [if_neg failed]
    by_cases error : o.error ≠ 0
    · rw [if_pos error, if_pos (Or.inr error)]
      exact Or.inl ⟨rfl, rfl⟩
    · rw [if_neg error, if_neg (not_or.mpr ⟨failed, error⟩)]
      cases o.hostPort with
      | none => exact Or.inl ⟨rfl, rfl⟩
      | some peer => exact Or.inr ⟨peer, rfl, Int.not_lt.mp failed, rfl⟩

theorem unwatchConnect_spec (t : TcpTransport) : Frame t t.unwatchConnect ∧
    t.unwatchConnect.connection_by_fd_ = t.connection_by_fd_ := by
  unfold unwatchConnect
  split
  · exact ⟨frame_unwatch t _ _, rfl⟩
  · exact ⟨.refl t, rfl⟩

end Cases

end TcpTransport

end Getrafty
