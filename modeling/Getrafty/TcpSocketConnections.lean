import Getrafty.TcpSocketReads

set_option autoImplicit false

namespace Getrafty

open Transition (Exec Of Guarded)

namespace TcpTransport

/-- Nothing changed for a write but the connections that were lost. -/
structure KeepsWrites (t t' : TcpTransport) (lost : List Fd) : Prop where
  left : ∀ fd c', t'.conn fd = some c' → fd ∉ lost ∧
    ∃ c, t.conn fd = some c ∧ c'.peer_ = c.peer_ ∧ c'.write_armed_ = c.write_armed_
  held : ∀ fd c, t.conn fd = some c → fd ∉ lost →
    ∃ c', t'.conn fd = some c' ∧ c'.peer_ = c.peer_ ∧ c'.write_armed_ = c.write_armed_
  resolved : ∀ key fd, t.resolve key = .ok fd → fd ∉ lost → t'.resolve key = .ok fd

/-- The connection that `resumeRead` releases. -/
def lostTo : Option (Fd × RecvOutcome) → List Fd
  | some (fd, .eof) => [fd]
  | some (fd, .failed _) => [fd]
  | some (_, .received _) => []
  | none => []

section Resolve

variable {t t' t'' : TcpTransport} {key : Peer} {fd : Fd} {c : Connection}

theorem keys_singleton : t.connection_by_fd_.keys = [fd] ↔
    ∀ fd', (t.conn fd').isSome = true ↔ fd' = fd := by
  have member (fd' : Fd) : (t.conn fd').isSome = true ↔ fd' ∈ t.connection_by_fd_.keys := by
    rw [mem_keys, Option.isSome_iff_exists]
  have nodup : t.connection_by_fd_.keys.Nodup := t.connection_by_fd_.keys_nodup
  constructor
  · intro only fd'
    rw [member, only, List.mem_singleton]
  · intro only
    apply List.perm_singleton.mp
    apply (List.perm_ext_iff_of_nodup nodup (List.nodup_singleton fd)).mpr
    intro fd'
    rw [← member, only, List.mem_singleton]

/-- Where a write goes that names its peer. -/
theorem resolve_named (named : key ≠ "") : t.resolve key = .ok fd ↔
    t.fd_by_peer_.lookup key = some fd ∧ (t.conn fd).isSome = true := by
  unfold resolve
  rw [if_pos named]
  cases found : t.fd_by_peer_.lookup key with
  | none => exact iff_of_false (fun same => by cases same) fun both => by cases both.1
  | some fd' =>
      rw [Option.some.injEq]
      by_cases held : (t.conn fd').isSome = true
      · simp only [held, ↓reduceIte, Except.ok.injEq]
        exact ⟨fun same => ⟨same, same ▸ held⟩, And.left⟩
      · simp only [held]
        exact iff_of_false (fun same => by cases same) fun both => held (both.1 ▸ both.2)

/-- Where a write goes that does not. -/
theorem resolve_empty : t.resolve "" = .ok fd ↔
    t.connected_ = true ∧ (t.conn t.client_fd_).isSome = true ∧ t.client_fd_ = fd ∨
      ¬ (t.connected_ = true ∧ (t.conn t.client_fd_).isSome = true) ∧
        ∀ fd', (t.conn fd').isSome = true ↔ fd' = fd := by
  unfold resolve
  rw [if_neg (not_not.mpr rfl)]
  by_cases client : t.connected_ = true ∧ (t.conn t.client_fd_).isSome = true
  · rw [if_pos client, Except.ok.injEq]
    simp only [client, and_self, not_true_eq_false, false_and, or_false, true_and]
  · rw [if_neg client, ← keys_singleton]
    have other : ¬ (t.connected_ = true ∧ (t.conn t.client_fd_).isSome = true ∧
        t.client_fd_ = fd) := fun both => client ⟨both.1, both.2.1⟩
    simp only [other, client, false_or, not_false_eq_true, true_and]
    split
    · rename_i fd' only
      rw [only, Except.ok.injEq, List.cons.injEq]
      exact ⟨fun same => ⟨same, rfl⟩, And.left⟩
    · rename_i several
      exact iff_of_false (fun same => by cases same) fun only => several fd only

theorem resolve_same (index : t'.fd_by_peer_ = t.fd_by_peer_)
    (client : t'.client_fd_ = t.client_fd_) (connected : t'.connected_ = t.connected_)
    (there : ∀ fd, (t'.conn fd).isSome = (t.conn fd).isSome) :
    t'.resolve key = .ok fd ↔ t.resolve key = .ok fd := by
  by_cases empty : key = ""
  · rw [empty, resolve_empty, resolve_empty]
    simp only [client, connected, there]
  · rw [resolve_named empty, resolve_named empty, index, there]

theorem resolve_held (found : t.resolve key = .ok fd) : ∃ c, t.conn fd = some c :=
  (resolve_conn found).1

end Resolve

section Keeps

variable {t t' t'' : TcpTransport} {fd : Fd} {c : Connection} {lost more : List Fd}

theorem KeepsWrites.refl (t : TcpTransport) : KeepsWrites t t [] :=
  ⟨fun _ c held => ⟨List.not_mem_nil, c, held, rfl, rfl⟩, fun _ c held _ => ⟨c, held, rfl, rfl⟩,
    fun _ _ found _ => found⟩

theorem KeepsWrites.trans (first : KeepsWrites t t' lost) (second : KeepsWrites t' t'' more) :
    KeepsWrites t t'' (lost ++ more) := by
  constructor
  · intro fd c'' held''
    obtain ⟨kept, c', held', peer', armed'⟩ := second.left fd c'' held''
    obtain ⟨kept', c, held, peer, armed⟩ := first.left fd c' held'
    refine ⟨fun gone => ?_, c, held, peer'.trans peer, armed'.trans armed⟩
    rcases List.mem_append.mp gone with gone | gone
    · exact kept' gone
    · exact kept gone
  · intro fd c held kept
    rw [List.mem_append, not_or] at kept
    obtain ⟨c', held', peer', armed'⟩ := first.held fd c held kept.1
    obtain ⟨c'', held'', peer'', armed''⟩ := second.held fd c' held' kept.2
    exact ⟨c'', held'', peer''.trans peer', armed''.trans armed'⟩
  · intro key fd found kept
    rw [List.mem_append, not_or] at kept
    exact second.resolved key fd (first.resolved key fd found kept.1) kept.2

/-- A change of the connections that keeps their peers and what they are armed to write. -/
theorem keepsWrites_map {f : Fd → Connection → Connection} (frame : Frame t t')
    (conn : ∀ fd, t'.conn fd = (t.conn fd).map (f fd))
    (same : ∀ fd c, (f fd c).peer_ = c.peer_ ∧ (f fd c).write_armed_ = c.write_armed_) :
    KeepsWrites t t' [] := by
  constructor
  · intro fd c' held'
    rw [conn fd] at held'
    obtain ⟨c, held, rfl⟩ := Option.map_eq_some_iff.mp held'
    exact ⟨List.not_mem_nil, c, held, same fd c⟩
  · intro fd c held _
    refine ⟨f fd c, ?_, same fd c⟩
    rw [conn fd, held, Option.map_some]
  · intro key fd found _
    apply (resolve_same frame.index frame.client frame.connected fun fd => ?_).mpr found
    rw [conn fd, Option.isSome_map]

theorem setArmed_read (c : Connection) (on : Bool) : (c.setArmed .RDONLY on).peer_ = c.peer_ ∧
    (c.setArmed .RDONLY on).write_armed_ = c.write_armed_ := ⟨rfl, rfl⟩

theorem Visits.keepsWrites {fds : List Fd} (visits : Visits t t' fds) : KeepsWrites t t' [] := by
  refine keepsWrites_map (f := fun fd c => if fd ∈ fds then c.setArmed .RDONLY true else c)
    visits.frame (fun fd => ?_) (fun fd c => ?_)
  · rw [visits.conn fd]
    split
    · rfl
    · exact (Option.map_id_apply).symm
  · split
    · exact setArmed_read c true
    · exact ⟨rfl, rfl⟩

theorem keepsWrites_suspendRead (t : TcpTransport) : KeepsWrites t t.suspendRead [] := by
  obtain ⟨frame, conn⟩ := suspendRead_spec t
  exact keepsWrites_map frame conn fun _ c => setArmed_read c false

theorem Inverse.keepsWrites_release (inverse : Inverse t) (held : t.conn fd = some c) :
    KeepsWrites t (t.releaseConnection fd) [fd] := by
  have released := releaseConnection_spec held
  have others {fd' : Fd} (other : fd' ≠ fd) : (t.releaseConnection fd).conn fd' = t.conn fd' := by
    rw [released.conn fd', if_neg other]
  constructor
  · intro fd' c' held'
    by_cases same : fd' = fd
    · rw [released.conn fd', if_pos same] at held'
      cases held'
    · rw [others same] at held'
      exact ⟨fun gone => same (List.mem_singleton.mp gone), c', held', rfl, rfl⟩
  · intro fd' c' held' kept
    have other : fd' ≠ fd := fun same => kept (List.mem_singleton.mpr same)
    exact ⟨c', (others other).trans held', rfl, rfl⟩
  · intro key fd' found kept
    have other : fd' ≠ fd := fun same => kept (List.mem_singleton.mpr same)
    by_cases empty : key = ""
    · rw [empty, resolve_empty] at found ⊢
      rcases found with ⟨connected, client, same⟩ | ⟨-, only⟩
      · refine Or.inl ?_
        rw [released.connected, released.client, others (same ▸ other)]
        exact ⟨connected, client, same⟩
      · have here := (only fd).mp (by rw [held]; rfl)
        exact absurd here.symm other
    · rw [resolve_named empty] at found ⊢
      obtain ⟨index, there⟩ := found
      have apart : key ≠ c.peer_ := by
        rintro rfl
        have here := (inverse c.peer_ fd).mpr (peerAt_of_conn held)
        rw [here, Option.some.injEq] at index
        exact other index.symm
      rw [released.index, AList.lookup_erase_ne apart, others other]
      exact ⟨index, there⟩

theorem Inverse.keepsWrites_resumeRead (inverse : Inverse t) {order : List Fd}
    (recv : Fd → RecvOutcome) (all : order.Perm t.connection_by_fd_.keys) :
    KeepsWrites t (t.resumeRead order recv).2 (lostTo (t.decisive order recv)) := by
  obtain ⟨result, after, same, case⟩ := resumeRead_cases t recv all
  rw [same]
  -- the connection that is released was there before the visits
  have release {fds : List Fd} {t' : TcpTransport} {fd : Fd} {c : Connection}
      (visits : Visits t t' fds) (held : t.conn fd = some c) :
      KeepsWrites t (t'.releaseConnection fd) [fd] := by
    obtain ⟨c', held', -⟩ := visits.keepsWrites.held fd c held List.not_mem_nil
    exact visits.keepsWrites.trans ((inverse.visits visits).keepsWrites_release held')
  cases case with
  | hotBlocked fd errno _ hot out full visits =>
      have none : t.decisive order recv = none := by
        rw [decisive, tried, hot, Option.map_eq_none_iff, List.find?_eq_none]
        intro fd' member
        rw [List.mem_singleton.mp member, blocks_iff.mpr ⟨errno, out, full⟩]
        decide
      rw [none]
      exact visits.keepsWrites
  | scanBlocked _ cold out visits =>
      have none : t.decisive order recv = none := by
        rw [decisive, tried, cold, Option.map_eq_none_iff, List.find?_eq_none]
        intro fd' member
        rw [blocks_iff.mpr (out fd' member)]
        decide
      rw [none]
      exact visits.keepsWrites
  | received fd c chunk _ fds source held out visits =>
      rw [source.decisive (by rw [out]; rfl), out]
      exact visits.keepsWrites
  | ended fd c _ fds source held out visits =>
      rw [source.decisive (by rw [out]; rfl), out]
      exact release visits held
  | broken fd c errno _ fds source held out hard visits =>
      rw [source.decisive (by rw [out]; exact hard), out]
      exact release visits held

/-- Arming for writes changes nothing else. -/
theorem watchWrite_spec (t : TcpTransport) (fd : Fd) :
    (∀ fd', (t.watchWrite fd).conn fd' =
      if fd' = fd then (t.conn fd).map (·.setArmed .WRONLY true) else t.conn fd') ∧
    ∀ key fd', (t.watchWrite fd).resolve key = .ok fd' ↔ t.resolve key = .ok fd' := by
  obtain ⟨frame, conn⟩ := arm_spec t fd .WRONLY writeHandler
  refine ⟨conn, fun key fd' => resolve_same frame.index frame.client frame.connected fun other =>
    ?_⟩
  have whole : (t.watchWrite fd).conn other =
      if other = fd then (t.conn fd).map (·.setArmed .WRONLY true) else t.conn other := conn other
  rw [whole]
  by_cases same : other = fd
  · rw [if_pos same, same, Option.isSome_map]
  · rw [if_neg same]

/-- The connections behind the loop of `onAcceptReady`. -/
theorem accepted_conn (accepted : List Accepted) (t : TcpTransport) (fd : Fd) :
    fd ∉ accepted.map (·.fd) ∧ (accepted.foldl accept t).conn fd = t.conn fd ∨
      fd ∈ accepted.map (·.fd) ∧ ∃ a ∈ accepted, a.fd = fd ∧
        (accepted.foldl accept t).conn fd =
          some { fd_ := fd, peer_ := Accepted.peer a, read_armed_ := true } := by
  induction accepted generalizing t with
  | nil => exact Or.inl ⟨List.not_mem_nil, rfl⟩
  | cons first rest ih =>
      have spec := (accept_spec t first).conn fd
      rcases ih (t.accept first) with ⟨absent, same⟩ | ⟨among, a, member, here, same⟩
      · by_cases this : fd = first.fd
        · refine Or.inr ⟨List.mem_map.mpr ⟨first, List.mem_cons_self, this.symm⟩, first,
            List.mem_cons_self, this.symm, ?_⟩
          rw [List.foldl_cons, same, spec, if_pos this, this]
        · refine Or.inl ⟨?_, ?_⟩
          · rw [List.map_cons, List.mem_cons, not_or]
            exact ⟨this, absent⟩
          · rw [List.foldl_cons, same, spec, if_neg this]
      · exact Or.inr ⟨List.mem_cons_of_mem _ among, a, List.mem_cons_of_mem _ member, here, same⟩

/-- Accepted connections change nothing for a write to another one. -/
theorem Inverse.resolve_accepted (inverse : Inverse t) {key : Peer} {fd' : Fd}
    {accepted : List Accepted} (new : KeepsPeers t (.acceptReady fd accepted))
    (fds : (accepted.map (·.fd)).Nodup) (absent : fd' ∉ (accepted.take 10).map (·.fd))
    (named : key ≠ "") (found : t.resolve key = .ok fd') :
    (t.onAcceptReady accepted).resolve key = .ok fd' := by
  have first : ((accepted.take 10).map (·.fd)).Nodup := by
    rw [List.map_take]
    exact fds.sublist (List.take_sublist _ _)
  have added := onAcceptReady_added t (accepted.take 10) first
  have mapped : ((accepted.take 10).map fun a => (a.fd, Accepted.peer a)).map (·.1) =
      (accepted.take 10).map (·.fd) := by
    rw [List.map_map]
    rfl
  have same : (t.onAcceptReady accepted).conn fd' = t.conn fd' := by
    rcases accepted_conn (accepted.take 10) t fd' with ⟨-, same⟩ | ⟨among, -⟩
    · exact same
    · exact absurd among absent
  rw [resolve_named named] at found ⊢
  have peer := (inverse key fd').mp found.1
  have other : key ∉ ((accepted.take 10).map fun a => (a.fd, Accepted.peer a)).map (·.2) := by
    intro among
    exact absurd (((adds_iff.mp new).2 fd' key peer).mpr among) (mapped ▸ absent)
  exact ⟨(added.unindexed key other).trans found.1, same ▸ found.2⟩

end Keeps

end TcpTransport

end Getrafty
