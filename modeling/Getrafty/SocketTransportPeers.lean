import Getrafty.SocketTransportSteps

set_option autoImplicit false

namespace Getrafty

open Transition (Exec Of Guarded)

namespace TcpTransport

/-- The peer of the connection with this descriptor. -/
def peerAt (t : TcpTransport) (fd : Fd) : Option Peer := (t.conn fd).map (·.peer_)

/-- `fd_by_peer_` and `connection_by_fd_` are inverse to each other. -/
def Inverse (t : TcpTransport) : Prop :=
  ∀ peer fd, t.fd_by_peer_.lookup peer = some fd ↔ t.peerAt fd = some peer

/-- The added peers differ, and a connection there already has one of them exactly when it has one
of the added descriptors. -/
def Adds (t : TcpTransport) (added : List (Fd × Peer)) : Prop :=
  (added.map (·.2)).Nodup ∧ ∀ entry ∈ t.connection_by_fd_.entries,
    entry.1 ∈ added.map (·.1) ↔ entry.2.peer_ ∈ added.map (·.2)

instance (t : TcpTransport) (added : List (Fd × Peer)) : Decidable (Adds t added) :=
  inferInstanceAs (Decidable (_ ∧ ∀ _ ∈ _, (_ ↔ _)))

/-- The connections that an operation adds. -/
def additions (t : TcpTransport) : Op → List (Fd × Peer)
  | .acceptReady _ accepted => (accepted.take 10).map fun a => (a.fd, Accepted.peer a)
  | .connectReady _ o => (ConnectedOutcome.peer o).toList.map fun peer => (t.client_fd_, peer)
  | _ => []

/-- No connection is added with the peer of another. -/
def KeepsPeers (t : TcpTransport) : Op → Prop
  | .acceptReady fd accepted => Adds t (t.additions (.acceptReady fd accepted))
  | .connectReady fd o => ConnectedOutcome.peer o = none ∨ Adds t (t.additions (.connectReady fd o))
  | _ => True

instance (t : TcpTransport) : DecidablePred (KeepsPeers t) :=
  fun op => match op with
    | .acceptReady _ _ => inferInstanceAs (Decidable (Adds _ _))
    | .connectReady _ _ => inferInstanceAs (Decidable (_ ∨ Adds _ _))
    | .bind _ | .connect _ | .close | .readReady _ | .writeReady _ | .resumeRead _ _
    | .resumeWrite _ _ _ | .suspendRead | .suspendWrite _ | .deliver _ => isTrue trivial

section Peers

variable {t t' : TcpTransport} {fd : Fd} {peer : Peer} {op : Op} {ops : List Op}

theorem peerAt_of_conn {c : Connection} (held : t.conn fd = some c) :
    t.peerAt fd = some c.peer_ := by rw [peerAt, held, Option.map_some]

theorem adds_iff {added : List (Fd × Peer)} : Adds t added ↔ (added.map (·.2)).Nodup ∧
    ∀ fd peer, t.peerAt fd = some peer → (fd ∈ added.map (·.1) ↔ peer ∈ added.map (·.2)) := by
  refine and_congr_right fun _ => ?_
  constructor
  · intro adds fd peer held
    obtain ⟨c, found, rfl⟩ := Option.map_eq_some_iff.mp held
    exact adds ⟨fd, c⟩ (AList.mem_lookup_iff.mp found)
  · intro adds entry member
    have found : t.conn entry.1 = some entry.2 := AList.mem_lookup_iff.mpr member
    exact adds entry.1 entry.2.peer_ (peerAt_of_conn found)

/-- The same connections under the same index. -/
theorem Inverse.same (inverse : Inverse t) (index : t'.fd_by_peer_ = t.fd_by_peer_)
    (peers : ∀ fd, t'.peerAt fd = t.peerAt fd) : Inverse t' := by
  intro peer fd
  rw [index, peers fd]
  exact inverse peer fd

theorem peerAt_setArmed (c : Connection) (flag : WatchFlag) (on : Bool) :
    (c.setArmed flag on).peer_ = c.peer_ := by cases flag <;> rfl

/-- Arming changes no peer. -/
theorem peerAt_of_map {f : Connection → Connection} (peers : ∀ c, (f c).peer_ = c.peer_)
    (conn : t'.conn fd = (t.conn fd).map f ∨ t'.conn fd = t.conn fd) :
    t'.peerAt fd = t.peerAt fd := by
  unfold peerAt
  rcases conn with mapped | same
  · rw [mapped, Option.map_map]
    congr 1
    funext c
    exact peers c
  · rw [same]

theorem Visits.peerAt {fds : List Fd} (visits : Visits t t' fds) (fd : Fd) :
    t'.peerAt fd = t.peerAt fd := by
  refine peerAt_of_map (fun c => peerAt_setArmed c .RDONLY true) ?_
  rw [visits.conn fd]
  split
  · exact Or.inl rfl
  · exact Or.inr rfl

theorem Inverse.visits {fds : List Fd} (inverse : Inverse t) (visits : Visits t t' fds) :
    Inverse t' := inverse.same visits.frame.index visits.peerAt

theorem Inverse.arm (inverse : Inverse t) (fd : Fd) (flag : WatchFlag)
    {handler : Fd → ReadyHandler} (other : ∀ fd, handler fd ≠ .onConnectReady) :
    Inverse (t.arm fd flag handler) := by
  obtain ⟨frame, conn⟩ := arm_spec t fd flag other
  refine inverse.same frame.index fun fd' => ?_
  refine peerAt_of_map (fun c => peerAt_setArmed c flag true) ?_
  rw [conn fd']
  by_cases same : fd' = fd
  · rw [if_pos same, same]
    exact Or.inl rfl
  · rw [if_neg same]
    exact Or.inr rfl

theorem Inverse.disarm (inverse : Inverse t) (fd : Fd) (flag : WatchFlag) :
    Inverse (t.disarm fd flag) := by
  obtain ⟨frame, conn⟩ := disarm_spec t fd flag
  refine inverse.same frame.index fun fd' => ?_
  refine peerAt_of_map (fun c => peerAt_setArmed c flag false) ?_
  rw [conn fd']
  by_cases same : fd' = fd
  · rw [if_pos same, same]
    exact Or.inl rfl
  · rw [if_neg same]
    exact Or.inr rfl

theorem Inverse.release (inverse : Inverse t) (fd : Fd) : Inverse (t.releaseConnection fd) := by
  cases held : t.conn fd with
  | none =>
      unfold releaseConnection
      rw [held]
      exact inverse
  | some c =>
      have released := releaseConnection_spec held
      have here := (inverse c.peer_ fd).mpr (peerAt_of_conn held)
      intro peer fd'
      rw [released.index]
      unfold peerAt
      rw [released.conn fd']
      by_cases peerEq : peer = c.peer_
      · rw [peerEq, AList.lookup_erase]
        refine iff_of_false (fun none => by cases none) ?_
        by_cases fdEq : fd' = fd
        · rw [if_pos fdEq]
          exact fun none => by cases none
        · rw [if_neg fdEq]
          intro other
          have found := (inverse c.peer_ fd').mpr other
          rw [here, Option.some.injEq] at found
          exact fdEq found.symm
      · rw [AList.lookup_erase_ne peerEq]
        by_cases fdEq : fd' = fd
        · rw [if_pos fdEq, fdEq]
          refine iff_of_false (fun found => ?_) (fun none => by cases none)
          have there := (inverse peer fd).mp found
          rw [peerAt_of_conn held, Option.some.injEq] at there
          exact peerEq there.symm
        · rw [if_neg fdEq]
          exact inverse peer fd'

/-- What adding connections does to the maps. -/
structure Added (t t' : TcpTransport) (added : List (Fd × Peer)) : Prop where
  here : ∀ a ∈ added, t'.peerAt a.1 = some a.2
  others : ∀ fd ∉ added.map (·.1), t'.peerAt fd = t.peerAt fd
  indexed : ∀ peer ∈ added.map (·.2), ∃ a ∈ added, a.2 = peer ∧
    t'.fd_by_peer_.lookup peer = some a.1
  unindexed : ∀ peer ∉ added.map (·.2), t'.fd_by_peer_.lookup peer = t.fd_by_peer_.lookup peer

/-- Connections that are added keep the maps inverse exactly when they are new. -/
theorem Inverse.added_iff (inverse : Inverse t) {added : List (Fd × Peer)}
    (maps : Added t t' added) (fds : (added.map (·.1)).Nodup) : Inverse t' ↔ Adds t added := by
  rw [adds_iff]
  constructor
  · intro after
    refine ⟨List.Nodup.map_on ?_ fds.of_map, fun fd peer held => ⟨fun among => ?_, fun among => ?_⟩⟩
    · intro a member b member' same
      have first := (after a.2 a.1).mpr (maps.here a member)
      have second := (after b.2 b.1).mpr (maps.here b member')
      rw [same, second, Option.some.injEq] at first
      exact Prod.ext first.symm same
    · by_contra absent
      have found := (inverse peer fd).mpr held
      have kept := (after peer fd).mp ((maps.unindexed peer absent).trans found)
      obtain ⟨a, member, rfl⟩ := List.mem_map.mp among
      rw [maps.here a member, Option.some.injEq] at kept
      exact absent (List.mem_map.mpr ⟨a, member, kept⟩)
    · by_contra absent
      have found := (after peer fd).mpr ((maps.others fd absent).trans held)
      obtain ⟨a, member, -, there⟩ := maps.indexed peer among
      rw [there, Option.some.injEq] at found
      exact absent (List.mem_map.mpr ⟨a, member, found⟩)
  · rintro ⟨distinct, new⟩ peer fd
    by_cases among : peer ∈ added.map (·.2)
    · obtain ⟨a, member, peerEq, there⟩ := maps.indexed peer among
      rw [there, Option.some.injEq]
      constructor
      · intro same
        rw [← same, maps.here a member, peerEq]
      · intro held
        by_cases fdAmong : fd ∈ added.map (·.1)
        · obtain ⟨b, member', rfl⟩ := List.mem_map.mp fdAmong
          rw [maps.here b member', Option.some.injEq] at held
          have same : a = b :=
              List.inj_on_of_nodup_map distinct member member' (peerEq.trans held.symm)
          rw [same]
        · rw [maps.others fd fdAmong] at held
          exact absurd ((new fd peer held).mpr among) fdAmong
    · rw [maps.unindexed peer among]
      by_cases fdAmong : fd ∈ added.map (·.1)
      · refine iff_of_false (fun found => ?_) (fun held => ?_)
        · exact among ((new fd peer ((inverse peer fd).mp found)).mp fdAmong)
        · obtain ⟨a, member, rfl⟩ := List.mem_map.mp fdAmong
          rw [maps.here a member, Option.some.injEq] at held
          exact among (List.mem_map.mpr ⟨a, member, held⟩)
      · rw [maps.others fd fdAmong]
        exact inverse peer fd

theorem added_nil (t : TcpTransport) : Added t t [] := by
  refine ⟨fun a member => ?_, fun _ _ => rfl, fun peer member => ?_, fun _ _ => rfl⟩
  · cases member
  · cases member

theorem accept_added (t : TcpTransport) (first : Accepted) (rest : List Accepted)
    (fds : first.fd ∉ rest.map (·.fd))
    (later : Added (t.accept first) t' (rest.map fun a => (a.fd, Accepted.peer a))) :
    Added t t' ((first :: rest).map fun a => (a.fd, Accepted.peer a)) := by
  have spec := accept_spec t first
  have firsts : (rest.map fun a => (a.fd, Accepted.peer a)).map (·.1) = rest.map (·.fd) := by
    rw [List.map_map]
    rfl
  have peers (fd : Fd) : (t.accept first).peerAt fd =
      if fd = first.fd then some (Accepted.peer first) else t.peerAt fd := by
    unfold peerAt
    rw [spec.conn fd]
    split <;> rfl
  rw [List.map_cons]
  constructor
  · intro a member
    rcases List.mem_cons.mp member with rfl | member
    · have kept := later.others first.fd (firsts ▸ fds)
      rw [peers, if_pos rfl] at kept
      exact kept
    · exact later.here a member
  · intro fd absent
    rw [List.map_cons, List.mem_cons, not_or] at absent
    rw [later.others fd absent.2, peers, if_neg absent.1]
  · intro peer among
    rw [List.map_cons, List.mem_cons] at among
    by_cases later_ : peer ∈ (rest.map fun a => (a.fd, Accepted.peer a)).map (·.2)
    · obtain ⟨a, member, same, there⟩ := later.indexed peer later_
      exact ⟨a, List.mem_cons_of_mem _ member, same, there⟩
    · have here : peer = Accepted.peer first := among.resolve_right later_
      refine ⟨_, List.mem_cons_self, here.symm, ?_⟩
      rw [later.unindexed peer later_, spec.index, here, AList.lookup_insert]
  · intro peer absent
    rw [List.map_cons, List.mem_cons, not_or] at absent
    rw [later.unindexed peer absent.2, spec.index, AList.lookup_insert_ne absent.1]

theorem onAcceptReady_added (t : TcpTransport) (accepted : List Accepted)
    (fds : (accepted.map (·.fd)).Nodup) :
    Added t (accepted.foldl accept t) (accepted.map fun a => (a.fd, Accepted.peer a)) := by
  induction accepted generalizing t with
  | nil => exact added_nil t
  | cons first rest ih =>
      rw [List.map_cons, List.nodup_cons] at fds
      exact accept_added t first rest fds.1 (ih (t.accept first) fds.2)

theorem completed_added (t : TcpTransport) (peer : Peer) :
    Added t (t.completed peer) [(t.client_fd_, peer)] := by
  have peers (fd : Fd) : (t.completed peer).peerAt fd =
      if fd = t.client_fd_ then some peer else t.peerAt fd := by
    have added := conn_setConn t t.client_fd_ fd { fd_ := t.client_fd_, peer_ := peer }
    have same : (t.completed peer).peerAt fd =
        (t.setConn t.client_fd_ { fd_ := t.client_fd_, peer_ := peer }).peerAt fd := rfl
    rw [same, peerAt, added]
    split <;> rfl
  constructor
  · intro a member
    rw [List.mem_singleton.mp member, peers, if_pos rfl]
  · intro fd absent
    rw [peers, if_neg (fun same => absent (List.mem_singleton.mpr same))]
  · intro peer' among
    rw [List.mem_singleton.mp among]
    exact ⟨_, List.mem_singleton.mpr rfl, rfl, AList.lookup_insert _⟩
  · intro peer' absent
    exact AList.lookup_insert_ne fun same => absent (List.mem_singleton.mpr same)

theorem bind_maps (t : TcpTransport) (o : BindOutcome) :
    (t.bind o).connection_by_fd_ = t.connection_by_fd_ ∧
      (t.bind o).fd_by_peer_ = t.fd_by_peer_ := by
  rcases bind_cases t o with ⟨-, same⟩ | ⟨-, same⟩ | ⟨-, endpoint, same⟩ <;> rw [same] <;>
    exact ⟨rfl, rfl⟩

theorem connect_maps (t : TcpTransport) (o : ConnectOutcome) :
    (t.connect o).connection_by_fd_ = t.connection_by_fd_ ∧
      (t.connect o).fd_by_peer_ = t.fd_by_peer_ := by
  rcases connect_cases t o with ⟨-, same⟩ | ⟨-, -, same⟩ | ⟨-, same⟩ <;> rw [same] <;>
    exact ⟨rfl, rfl⟩

/-- The same maps. -/
theorem Inverse.maps (inverse : Inverse t)
    (maps : t'.connection_by_fd_ = t.connection_by_fd_ ∧ t'.fd_by_peer_ = t.fd_by_peer_) :
    Inverse t' := by
  refine inverse.same maps.2 fun fd => ?_
  rw [peerAt, peerAt, conn, conn, maps.1]

theorem inverse_close (t : TcpTransport) : Inverse t.close := by
  intro peer fd
  refine iff_of_false (fun found => ?_) (fun held => ?_)
  · cases found
  · cases held

theorem Inverse.resumeRead (inverse : Inverse t) {order : List Fd} (recv : Fd → RecvOutcome)
    (all : order.Perm t.connection_by_fd_.keys) : Inverse (t.resumeRead order recv).2 := by
  obtain ⟨result, after, read, case⟩ := resumeRead_cases t recv all
  rw [read]
  cases case with
  | hotBlocked fd errno t' hot out full visits => exact inverse.visits visits
  | scanBlocked t' cold out visits => exact inverse.visits visits
  | received fd c chunk t' fds source held out visits => exact inverse.visits visits
  | ended fd c t' fds source held out visits => exact (inverse.visits visits).release fd
  | broken fd c errno t' fds source held out hard visits => exact (inverse.visits visits).release fd

theorem Inverse.resumeWrite (inverse : Inverse t) (data : Buffer) (peer : Peer)
    (send : SendOutcome) : Inverse (t.resumeWrite data peer send).2 := by
  have called (fd : Fd) : Inverse (t.call (.send fd)) := inverse.maps ⟨rfl, rfl⟩
  obtain ⟨result, after, wrote, case⟩ := resumeWrite_cases t data peer send
  rw [wrote]
  cases case with
  | unresolved status missing => exact inverse
  | sent fd n found out some_byte => exact called fd
  | blocked fd errno found out full => exact (called fd).arm fd .WRONLY writeHandler
  | ended fd n found out no_byte => exact (called fd).release fd
  | broken fd errno found out hard => exact (called fd).release fd

theorem Inverse.suspendRead (inverse : Inverse t) : Inverse t.suspendRead := by
  obtain ⟨frame, conn⟩ := suspendRead_spec t
  refine inverse.same frame.index fun fd => ?_
  exact peerAt_of_map (fun c => peerAt_setArmed c .RDONLY false) (Or.inl (conn fd))

/-- An operation keeps the maps inverse exactly when no connection is added with the peer of
another. -/
theorem Inverse.step_iff (inverse : Inverse t) (taken : t.step op = some t') :
    Inverse t' ↔ KeepsPeers t op := by
  cases op with
  | bind o =>
      rw [step] at taken
      split at taken <;> cases taken
      exact iff_of_true (inverse.maps (bind_maps t o)) trivial
  | connect o =>
      rw [step] at taken
      split at taken <;> cases taken
      exact iff_of_true (inverse.maps (connect_maps t o)) trivial
  | close =>
      cases taken
      exact iff_of_true (inverse_close t) trivial
  | acceptReady fd accepted =>
      rw [step] at taken
      split at taken <;> cases taken
      rename_i may
      have fds : ((accepted.take 10).map (·.fd)).Nodup := by
        rw [List.map_take]
        exact may.2.1.sublist (List.take_sublist _ _)
      refine inverse.added_iff (onAcceptReady_added t _ fds) ?_
      unfold additions
      rw [List.map_map]
      exact fds
  | connectReady fd o =>
      rw [step] at taken
      split at taken <;> cases taken
      obtain ⟨frame, same⟩ := unwatchConnect_spec t
      have before : Inverse t.unwatchConnect := inverse.maps ⟨same, frame.index⟩
      rcases onConnectReady_cases t o with ⟨none, result⟩ | ⟨peer, some, -, result⟩
      · rw [result]
        exact iff_of_true (before.maps ⟨rfl, rfl⟩) (Or.inl none)
      · have added : Inverse (t.unwatchConnect.completed peer) ↔
            Adds t.unwatchConnect [(t.unwatchConnect.client_fd_, peer)] :=
          before.added_iff (completed_added t.unwatchConnect peer) (List.nodup_singleton _)
        have additions : t.additions (.connectReady fd o) =
            [(t.unwatchConnect.client_fd_, peer)] := by
          rw [TcpTransport.additions, some, frame.client]
          rfl
        have entries : Adds t.unwatchConnect [(t.unwatchConnect.client_fd_, peer)] ↔
            Adds t [(t.unwatchConnect.client_fd_, peer)] := by
          unfold Adds
          rw [same]
        rw [result, KeepsPeers, additions, some, ← entries, ← added]
        have fewer : ¬ Option.some peer = none := fun none => by cases none
        rw [eq_false fewer, false_or]
        exact ⟨fun after => after.maps ⟨rfl, rfl⟩, fun after => after.maps ⟨rfl, rfl⟩⟩
  | readReady fd =>
      rw [step] at taken
      split at taken <;> cases taken
      refine iff_of_true ?_ trivial
      unfold onReadReady
      split
      · exact inverse.maps ⟨rfl, rfl⟩
      · exact inverse
  | writeReady fd =>
      rw [step] at taken
      split at taken <;> cases taken
      refine iff_of_true ?_ trivial
      unfold onWriteReady
      split
      · exact inverse.maps ⟨rfl, rfl⟩
      · exact inverse
  | resumeRead order recv =>
      rw [step] at taken
      split at taken <;> cases taken
      exact iff_of_true (inverse.resumeRead recv ‹_›) trivial
  | resumeWrite data peer send =>
      cases taken
      exact iff_of_true (inverse.resumeWrite data peer send) trivial
  | suspendRead =>
      cases taken
      exact iff_of_true inverse.suspendRead trivial
  | suspendWrite peer =>
      cases taken
      refine iff_of_true ?_ trivial
      unfold suspendWrite
      split
      · exact inverse.disarm _ .WRONLY
      · exact inverse
  | deliver reply =>
      rw [step] at taken
      split at taken <;> cases taken
      exact iff_of_true (inverse.maps ⟨rfl, rfl⟩) trivial

theorem inverse_start : Inverse {} := by
  intro peer fd
  refine iff_of_false (fun found => ?_) (fun held => ?_)
  · cases found
  · cases held

theorem kept_inverse (run : Exec (Guarded KeepsPeers (Of step)) {} ops t) : Inverse t := by
  induction run with
  | nil => exact inverse_start
  | snoc before taken inverse => exact (inverse.step_iff taken.2).mpr taken.1

/-- Every connection can be written to by its peer. -/
theorem Inverse.reachable (inverse : Inverse t) {c : Connection} (held : t.conn fd = some c)
    (named : c.peer_ ≠ "") : t.resolve c.peer_ = .ok fd := by
  have found := (inverse c.peer_ fd).mpr (peerAt_of_conn held)
  unfold resolve
  rw [if_pos named, found]
  simp only [held, Option.isSome_some, ↓reduceIte]

/-- The maps are inverse all along a run, and every connection is reached by its peer, exactly when
no connection is added with the peer of another. -/
theorem inverse_iff_keepsPeers (run : Run ops t) :
    (∀ front back middle, ops = front ++ back → Run front middle → Inverse middle ∧
      ∀ fd c, middle.conn fd = some c → c.peer_ ≠ "" → middle.resolve c.peer_ = .ok fd) ↔
      Exec (Guarded KeepsPeers (Of step)) {} ops t := by
  have always := @Exec.always_iff _ _ step KeepsPeers _ _ _ Inverse inverse_start
    (fun _ _ _ _ guarded taken => (kept_inverse guarded).step_iff taken) run
  rw [← always]
  constructor
  · intro holds front back middle cut reached
    exact (holds front back middle cut reached).1
  · intro holds front back middle cut reached
    have inverse := holds front back middle cut reached
    exact ⟨inverse, fun fd c held named => inverse.reachable held named⟩

/-- Two peers are accepted and one of them is released. -/
def twoPeers : List Op :=
  [.bind ⟨3, true, true, true, some "0.0.0.0:1"⟩,
    .acceptReady 3 [⟨4, "1.1.1.1", 7⟩, ⟨5, "1.1.1.1", 8⟩],
    .readReady 4, .resumeRead [4, 5] (fun _ => .eof), .close]

theorem inverse_iff_keepsPeers_twoPeers :
    ∃ t, Run twoPeers t ∧ t.fd_by_peer_.keys = [] ∧ Inverse t := by
  have runs : (Transition.run (Transition.guardedStep
      (fun t op => decide (KeepsPeers t op)) step) {} twoPeers).isSome = true := by
    decide +kernel
  have kept := Transition.guarded_of_isSome runs
  have inverse := ((inverse_iff_keepsPeers kept.unguarded).mpr kept _ [] _
    (List.append_nil _).symm kept.unguarded).1
  refine ⟨_, kept.unguarded, ?_, inverse⟩
  clear kept inverse
  revert runs
  decide +kernel

/-- A peer connects again from its old address before its old connection is released. -/
def samePeer : List Op :=
  [.bind ⟨3, true, true, true, some "0.0.0.0:1"⟩, .acceptReady 3 [⟨4, "1.1.1.1", 7⟩],
    .acceptReady 3 [⟨5, "1.1.1.1", 7⟩]]

/-- The old connection keeps a peer that leads to the new one. -/
theorem same_peer_breaks_inverse :
    ¬ ∀ (ops : List Op) (t : TcpTransport), Run ops t → Inverse t := by
  intro always
  have runs : (Transition.run step {} samePeer).isSome = true := by decide +kernel
  have back := (always _ _ (Transition.exec_of_isSome runs) "1.1.1.1:7" 4).mpr
  clear always
  revert runs back
  decide +kernel

end Peers

end TcpTransport

end Getrafty
