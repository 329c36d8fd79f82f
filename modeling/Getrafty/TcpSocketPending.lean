import Getrafty.TcpSocketInterest

set_option autoImplicit false

namespace Getrafty

open Transition (Exec Of Guarded)
open TcpTransport (KeepsWrites Inverse Owned Carries openFds)

/-- The reply makes `transportWrite` look for the write with that key. -/
def Socket.Reply.Finds (s : Socket) (key : Peer) : Socket.Reply → Prop
  | .WriteReadyRep peer => s.writeKey peer = key
  | .BindRep _ _ | .ConnectRep _ | .ReadReadyRep => False

instance (s : Socket) (key : Peer) : DecidablePred (Socket.Reply.Finds s key) :=
  fun reply => match reply with
    | .WriteReadyRep peer => inferInstanceAs (Decidable (s.writeKey peer = key))
    | .BindRep _ _ | .ConnectRep _ | .ReadReadyRep => isFalse id

/-- A write with that key is found by a reply of its connection, now or when the socket is bound or
connected. -/
def SocketState.Findable (key : Peer) : SocketState → Prop
  | .Idle => True
  | .BindWait | .Bound => key ≠ ""
  | .ConnectWait | .Connected => key = ""
  | .CloseWait | .Closed => False

instance (key : Peer) : DecidablePred (SocketState.Findable key) :=
  fun state_ => match state_ with
    | .Idle => isTrue trivial
    | .BindWait | .Bound => inferInstanceAs (Decidable (key ≠ ""))
    | .ConnectWait | .Connected => inferInstanceAs (Decidable (key = ""))
    | .CloseWait | .Closed => isFalse id

/-- The write with that key goes to a connection that is armed for writes. -/
def TcpTransport.WaitsFor (t : TcpTransport) (key : Peer) : Prop :=
  ∃ fd c, t.resolve key = .ok fd ∧ t.conn fd = some c ∧ c.write_armed_ = true

/-- Once a socket is shut it stays so. -/
theorem SocketState.Moves.open_before {before after : SocketState} (moves : before.Moves after)
    (open_ : after.shut = false) : before.shut = false := by
  cases moves with
  | stay => exact open_
  | closing _ still => exact still
  | closed => cases open_
  | bindAsked | bindReplied | connectAsked | connectReplied => rfl

namespace TcpSocket

/-- `transportWrite` is about to look for the write with that key. -/
def Turning (s : TcpSocket) (key : Peer) : Prop :=
  ∃ peer frames, s.socket.stack = .write peer :: frames ∧ s.socket.writeKey peer = key

/-- A reply is in flight that makes `transportWrite` look for the write with that key. -/
def Signalled (s : TcpSocket) (key : Peer) : Prop :=
  ∃ reply ∈ s.transport.inflight, Socket.Reply.Finds s.socket key reply

instance (s : TcpSocket) (key : Peer) : Decidable (Signalled s key) :=
  inferInstanceAs (Decidable
    (∃ reply ∈ s.transport.inflight, Socket.Reply.Finds s.socket key reply))

def Attended (s : TcpSocket) (key : Peer) : Prop :=
  s.Turning key ∨ s.Signalled key ∨ s.transport.WaitsFor key

/-- Every queued write that can be found is attended to, and there are no others once the socket is
bound or connected. -/
structure Attentive (s : TcpSocket) : Prop where
  attended : ∀ key req, s.socket.write_queue_.lookup key = some req →
    s.socket.state_.Findable key → s.Attended key
  findable : s.socket.state_ = .Bound ∨ s.socket.state_ = .Connected →
    ∀ key req, s.socket.write_queue_.lookup key = some req → s.socket.state_.Findable key

/-- The write belongs to an open connection that is armed for writes, and the next reply of that
connection makes `transportWrite` find it. -/
def Served (s : TcpSocket) (key : Peer) (req : WriteReq) : Prop :=
  ∃ fd c, s.transport.conn fd = some c ∧ fd ∈ openFds s.transport.calls ∧
    s.transport.resolve key = .ok fd ∧ c.write_armed_ = true ∧
    current (s.socket.tick (.WriteReadyRep c.peer_)) = some (key, req)

/-- No queued write is stuck. -/
def NoneStuck (s : TcpSocket) : Prop :=
  ∀ key req, s.socket.write_queue_.lookup key = some req → s.Served key req

/-- The connections that a step gives up while the socket stays open. -/
def givesUp (s : TcpSocket) : Label → List Fd
  | .resumeRead order recv =>
      match s.transport.decisive order recv with
      | some (fd, .eof) => if s.socket.state_ = .Connected then [] else [fd]
      | ends => TcpTransport.lostTo ends
  | .resumeWrite send =>
      match current s.socket with
      | some (key, req) =>
          match s.transport.resolve key, send with
          | .ok fd, .sent n => if min n req.data.length = 0 then [fd] else []
          | .ok fd, .failed errno => if wouldBlock errno then [] else [fd]
          | .error _, _ => []
      | none => []
  | _ => []

/-- Each write that waits for a connection which is given up has a reply in flight to find it, but
for the one that has its turn. -/
def SparesWaiting (s : TcpSocket) (label : Label) : Prop :=
  ∀ fd ∈ s.givesUp label, ∀ key ∈ s.socket.write_queue_.keys,
    (current s.socket).map Prod.fst ≠ some key → s.socket.state_.Findable key →
      s.transport.resolve key = .ok fd → s.Signalled key

instance (s : TcpSocket) (label : Label) : Decidable (SparesWaiting s label) :=
  inferInstanceAs (Decidable (∀ fd ∈ s.givesUp label, ∀ key ∈ s.socket.write_queue_.keys,
    (current s.socket).map Prod.fst ≠ some key → s.socket.state_.Findable key →
      s.transport.resolve key = .ok fd → s.Signalled key))

/-- Writes to a connected socket name no peer, no other kind of write is queued when the socket gets
bound or connected, and no connection is given up that a queued write waits for. -/
def FindsWrites (s : TcpSocket) : Label → Prop
  | .write data peer => s.socket.state_ = .Connected → data = [] ∨ peer = ""
  | .deliver (.BindRep status _) => status = .Ok ∧ s.socket.state_ = .BindWait →
      ∀ key ∈ s.socket.write_queue_.keys, SocketState.Bound.Findable key
  | .deliver (.ConnectRep status) => status = .Ok ∧ s.socket.state_ = .ConnectWait →
      ∀ key ∈ s.socket.write_queue_.keys, SocketState.Connected.Findable key
  | .resumeRead order recv => s.SparesWaiting (.resumeRead order recv)
  | .resumeWrite send => s.SparesWaiting (.resumeWrite send)
  | _ => True

instance (s : TcpSocket) : DecidablePred s.FindsWrites :=
  fun label => match label with
    | .write data peer =>
        inferInstanceAs (Decidable (s.socket.state_ = .Connected → data = [] ∨ peer = ""))
    | .deliver (.BindRep status _) => inferInstanceAs (Decidable
        (status = .Ok ∧ s.socket.state_ = .BindWait →
          ∀ key ∈ s.socket.write_queue_.keys, SocketState.Bound.Findable key))
    | .deliver (.ConnectRep status) => inferInstanceAs (Decidable
        (status = .Ok ∧ s.socket.state_ = .ConnectWait →
          ∀ key ∈ s.socket.write_queue_.keys, SocketState.Connected.Findable key))
    | .resumeRead order recv =>
        inferInstanceAs (Decidable (s.SparesWaiting (.resumeRead order recv)))
    | .resumeWrite send => inferInstanceAs (Decidable (s.SparesWaiting (.resumeWrite send)))
    | .deliver .ReadReadyRep | .deliver (.WriteReadyRep _) | .bind _ | .connect _ | .read | .close
    | .acceptReady _ _ | .connectReady _ _ | .readReady _ | .writeReady _ | .failWrite _
    | .resume =>
        isTrue trivial

section Open

variable {s next : TcpSocket} {label : Label} {labels : List Label}

theorem Step.open_before (taken : Step s label next) (coherent : Socket.Coherent s.socket)
    (open_ : next.socket.state_.shut = false) : s.socket.state_.shut = false := by
  have before {inner : Socket.Label} {socket : Socket} (did : s.socket.step inner = some socket)
      (open_ : socket.state_.shut = false) : s.socket.state_.shut = false :=
    ((Socket.step_cases did).2.moves coherent).open_before open_
  cases taken with
  | binds o socket fresh did idle waits => exact before did open_
  | connects o socket fresh did idle waits => exact before did open_
  | closes socket did _ closing => exact before did open_
  | asked _ request socket asks did same => exact before did open_
  | delivered reply socket idle did posted => exact before did open_
  | handled _ op transport runs idle sound did => exact open_
  | readTurn order recv socket all did same => exact before did open_
  | readEnded order recv socket all did connected closing eof => exact before did open_
  | writeTurn send peer frames req socket top held did => exact before did open_
  | resumed _ inner socket runs did other => exact before did open_
  | suspended frames top did empty => exact open_

/-- Until a close, no descriptor is forgotten. -/
theorem Step.owned (taken : Step s label next) (phased : Phased s)
    (owned : Owned s.transport) (open_ : next.socket.state_.shut = false) :
    Owned next.transport := by
  cases taken with
  | binds o socket fresh did idle waits =>
      have keeps : TcpTransport.KeepsFds s.transport (.bind o) := by
        rw [phased.idle idle]
        exact Int.negSucc_lt_zero 0
      exact (owned.step keeps (if_pos fresh)).1
  | connects o socket fresh did idle waits =>
      have keeps : TcpTransport.KeepsFds s.transport (.connect o) := by
        rw [phased.idle idle]
        exact fun attempting => List.not_mem_nil attempting.1
      exact (owned.step keeps (if_pos fresh)).1
  | closes socket did _ closing =>
      rw [closing] at open_
      cases open_
  | asked _ request socket asks did same => exact owned
  | delivered reply socket idle did posted =>
      have keeps : TcpTransport.KeepsFds s.transport (.deliver reply) := trivial
      exact (owned.step keeps (if_pos posted)).1
  | handled _ op transport runs idle sound did =>
      refine (owned.step ?_ did).1
      cases label <;> cases runs <;> trivial
  | readTurn order recv socket all did same => exact owned.resumeRead recv all
  | readEnded order recv socket all did connected closing eof =>
      rw [closing] at open_
      cases open_
  | writeTurn send peer frames req socket top held did => exact owned.resumeWrite _ _ _
  | resumed _ inner socket runs did other => exact owned
  | suspended frames top did empty => exact owned.suspendRead

theorem Run.owned (run : Run labels s) (open_ : s.socket.state_.shut = false) :
    Owned s.transport := by
  revert open_
  induction run with
  | nil => exact fun _ => TcpTransport.owned_initial
  | snoc before taken owned =>
      have case := step_cases taken
      have coherent := Run.coherent before case
      exact fun open_ => case.owned (Run.phased before)
        (owned (case.open_before coherent open_)) open_

end Open

end TcpSocket

namespace TcpTransport

section Waits

variable {t t' : TcpTransport} {key : Peer} {lost : List Fd}

theorem KeepsWrites.waitsFor (keeps : KeepsWrites t t' lost) (waits : t.WaitsFor key) :
    t'.WaitsFor key ∨ ∃ fd ∈ lost, t.resolve key = .ok fd := by
  obtain ⟨fd, c, found, held, armed⟩ := waits
  by_cases gone : fd ∈ lost
  · exact Or.inr ⟨fd, gone, found⟩
  · obtain ⟨c', held', -, same⟩ := keeps.held fd c held gone
    exact Or.inl ⟨fd, c', keeps.resolved key fd found gone, held', same.trans armed⟩

theorem KeepsWrites.waitsFor_all (keeps : KeepsWrites t t' []) (waits : t.WaitsFor key) :
    t'.WaitsFor key := by
  rcases keeps.waitsFor waits with kept | ⟨fd, gone, -⟩
  · exact kept
  · cases gone

/-- Arming a connection for writes keeps those that are armed. -/
theorem WaitsFor.watchWrite (waits : t.WaitsFor key) (fd : Fd) :
    (t.watchWrite fd).WaitsFor key := by
  obtain ⟨conn, resolve⟩ := watchWrite_spec t fd
  obtain ⟨fd', c, found, held, armed⟩ := waits
  by_cases here : fd' = fd
  · refine ⟨fd', c.setArmed .WRONLY true, (resolve key fd').mpr found, ?_, rfl⟩
    rw [conn fd', if_pos here, ← here, held]
    rfl
  · refine ⟨fd', c, (resolve key fd').mpr found, ?_, armed⟩
    rw [conn fd', if_neg here, held]

theorem waitsFor_watchWrite {fd : Fd} (found : t.resolve key = .ok fd) :
    (t.watchWrite fd).WaitsFor key := by
  obtain ⟨conn, resolve⟩ := watchWrite_spec t fd
  obtain ⟨c, held⟩ := resolve_held found
  refine ⟨fd, c.setArmed .WRONLY true, (resolve key fd).mpr found, ?_, rfl⟩
  rw [conn fd, if_pos rfl, held]
  rfl

/-- Accepted connections do not get in the way of those that are there. -/
theorem WaitsFor.accepted (waits : t.WaitsFor key) (inverse : Inverse t) (owned : Owned t)
    {fd : Fd} {accepted : List Accepted} (new : KeepsPeers t (.acceptReady fd accepted))
    (nodup : (accepted.map (·.fd)).Nodup) (fresh : ∀ a ∈ accepted, t.Fresh a.fd)
    (named : key ≠ "") : (t.onAcceptReady accepted).WaitsFor key := by
  obtain ⟨fd', c, found, held, armed⟩ := waits
  have absent : fd' ∉ (accepted.take 10).map (·.fd) := by
    intro among
    obtain ⟨a, member, same⟩ := List.mem_map.mp among
    exact fresh a (List.mem_of_mem_take member) (same ▸ (owned.keyed fd' c held).2)
  refine ⟨fd', c, inverse.resolve_accepted new nodup absent named found, ?_, armed⟩
  rcases accepted_conn (accepted.take 10) t fd' with ⟨-, same⟩ | ⟨among, -⟩
  · exact same.trans held
  · exact absurd among absent

end Waits

end TcpTransport

namespace TcpSocket

section Attention

variable {s next : TcpSocket} {label : Label} {labels : List Label} {key : Peer}

theorem Signalled.carried (signalled : s.Signalled key)
    (state : next.socket.state_ = s.socket.state_)
    (posted : ∀ reply ∈ s.transport.inflight, reply ∈ next.transport.inflight) :
    next.Signalled key := by
  obtain ⟨reply, member, finds⟩ := signalled
  refine ⟨reply, posted reply member, ?_⟩
  cases reply with
  | WriteReadyRep peer =>
      have same : next.socket.writeKey peer = s.socket.writeKey peer := by
        rw [Socket.writeKey, Socket.writeKey, state]
      exact same.trans finds
  | _ => exact finds

/-- A step that is no turn of a write, and what it keeps of the connections. -/
theorem Attended.carried (attended : s.Attended key) (idle : ¬ s.Turning key)
    (state : next.socket.state_ = s.socket.state_)
    (posted : ∀ reply ∈ s.transport.inflight, reply ∈ next.transport.inflight)
    (waits : s.transport.WaitsFor key → next.Attended key) : next.Attended key := by
  rcases attended with turning | signalled | waiting
  · exact absurd turning idle
  · exact Or.inr (Or.inl (signalled.carried state posted))
  · exact waits waiting

theorem not_turning (top : ∀ peer frames, s.socket.stack ≠ .write peer :: frames) :
    ¬ s.Turning key := by
  rintro ⟨peer, frames, same, -⟩
  exact top peer frames same

/-- A user asks between ticks, or from a callback. -/
theorem asks_between {request : Socket.Request} {socket : Socket}
    (did : s.socket.step (.request request) = some socket) : ¬ s.Turning key := by
  apply not_turning
  intro peer frames top
  unfold Socket.step at did
  obtain ⟨-, did⟩ := Option.ite_none_left_eq_some.mp did
  obtain ⟨may, -⟩ := Option.ite_none_right_eq_some.mp did
  unfold Socket.mayAsk at may
  rw [top] at may
  cases may

/-- Nothing is in flight before there is a connection. -/
theorem not_attended (bare : TcpTransport.Bare s.transport)
    (silent : s.transport.inflight = []) (idle : ¬ s.Turning key) : ¬ s.Attended key := by
  rintro (turning | ⟨reply, member, -⟩ | ⟨fd, c, -, held, -⟩)
  · exact idle turning
  · rw [silent] at member
    cases member
  · rw [bare.conn fd] at held
    cases held

theorem Attentive.kept (attentive : Attentive s) (state : next.socket.state_ = s.socket.state_)
    (queue : ∀ key req, next.socket.write_queue_.lookup key = some req →
      s.socket.write_queue_.lookup key = some req)
    (attended : ∀ key req, next.socket.write_queue_.lookup key = some req →
      s.socket.state_.Findable key → s.Attended key → next.Attended key) : Attentive next := by
  constructor
  · intro key req queued findable
    rw [state] at findable
    exact attended key req queued findable
      (attentive.attended key req (queue key req queued) findable)
  · rw [state]
    exact fun settled key req queued => attentive.findable settled key req (queue key req queued)

theorem open_of_findable {state_ : SocketState} (findable : state_.Findable key) :
    state_.shut = false := by
  cases state_ with
  | CloseWait | Closed => exact findable.elim
  | _ => rfl

theorem Attentive.shut (shut : s.socket.state_.shut = true) : Attentive s := by
  constructor
  · intro key req queued findable
    rw [open_of_findable findable] at shut
    cases shut
  · rintro (bound | connected)
    · rw [bound] at shut
      cases shut
    · rw [connected] at shut
      cases shut

/-- A request leaves the queue alone, or a write gets its turn at once. -/
theorem queue_asked {request : Socket.Request} {socket : Socket}
    (taken : Socket.Step s.socket (.request request) socket) :
    socket.write_queue_ = s.socket.write_queue_ ∨ ∃ data peer id, request = .write data peer ∧
      data ≠ [] ∧ (s.socket.state_ = .Bound → peer ≠ "") ∧
      socket.write_queue_ = s.socket.write_queue_.insert peer ⟨data, peer, id⟩ ∧
      socket.stack = .write peer :: s.socket.stack := by
  cases taken with
  | writeAsked data peer open_ addressed some_byte free =>
      exact Or.inr ⟨data, peer, _, rfl, some_byte, addressed, rfl, rfl⟩
  | _ => exact Or.inl rfl

theorem Attentive.asked (attentive : Attentive s) {request : Socket.Request} {socket : Socket}
    (asks : label.request? = some request) (did : s.socket.step (.request request) = some socket)
    (same : socket.state_ = s.socket.state_) (finds : FindsWrites s label) :
    Attentive { s with socket, writes := s.writes ++ label.data } := by
  -- what was queued before is attended to as before
  have before {key : Peer} (attended : s.Attended key) :
      Attended { s with socket, writes := s.writes ++ label.data } key :=
    attended.carried (asks_between did) same (fun _ posted => posted)
      fun waits => Or.inr (Or.inr waits)
  rcases queue_asked (Socket.step_cases did).2 with
    queue | ⟨data, peer, id, rfl, some_byte, addressed, queue, top⟩
  · refine attentive.kept same (fun key req queued => ?_) fun _ _ _ _ => before
    rw [← queue]
    exact queued
  · obtain rfl : label = .write data peer := by
      cases label <;> cases asks
      rfl
    have named (connected : s.socket.state_ = .Connected) : peer = "" :=
      (finds connected).resolve_left some_byte
    have old {key : Peer} {req : WriteReq} (other : key ≠ peer)
        (queued : socket.write_queue_.lookup key = some req) :
        s.socket.write_queue_.lookup key = some req := by
      rw [queue, AList.lookup_insert_ne other] at queued
      exact queued
    constructor
    · intro key req queued findable
      by_cases here : key = peer
      · refine Or.inl ⟨peer, _, top, ?_⟩
        rw [here, Socket.writeKey]
        split
        · rename_i connected
          exact (named (same.symm.trans connected)).symm
        · rfl
      · exact before (attentive.attended key req (old here queued) (same ▸ findable))
    · rintro (bound | connected) key req queued
      · by_cases here : key = peer
        · have findable : SocketState.Bound.Findable key := here ▸ addressed (same.symm.trans bound)
          exact bound ▸ findable
        · exact same ▸ attentive.findable (Or.inl (same.symm.trans bound)) key req (old here queued)
      · by_cases here : key = peer
        · have findable : SocketState.Connected.Findable key :=
            here.trans (named (same.symm.trans connected))
          exact connected ▸ findable
        · exact same ▸ attentive.findable (Or.inr (same.symm.trans connected)) key req
            (old here queued)

/-- What a reply makes of the state and of what is looked up. -/
theorem Attentive.delivered (attentive : Attentive s) {reply : Socket.Reply} {socket : Socket}
    (idle : s.socket.stack = [] ∨ ∃ frames status endpoint,
      s.socket.stack = .transport .bind :: frames ∧ reply = .BindRep status endpoint)
    (did : s.socket.step (.reply reply) = some socket) (finds : FindsWrites s (.deliver reply)) :
    Attentive { s with
      socket
      transport := { s.transport with inflight := s.transport.inflight.erase reply } } := by
  obtain ⟨queue, -⟩ := Socket.queue_same (Socket.step_cases did).2 rfl
  have unturned (key : Peer) : ¬ s.Turning key := by
    apply not_turning
    rintro peer frames top
    rcases idle with empty | ⟨_, _, _, inline, -⟩
    · rw [top] at empty
      cases empty
    · rw [top] at inline
      cases inline
  have old {key : Peer} {req : WriteReq} (queued : socket.write_queue_.lookup key = some req) :
      s.socket.write_queue_.lookup key = some req := queue ▸ queued
  -- a reply that stays in flight finds what it would have found
  have attended {key : Peer} (before : s.Attended key)
      (found : ∀ peer, s.socket.writeKey peer = key → socket.writeKey peer = key)
      (now : Socket.Reply.Finds s.socket key reply →
        Attended { s with
          socket
          transport := { s.transport with inflight := s.transport.inflight.erase reply } } key) :
      Attended { s with
        socket
        transport := { s.transport with inflight := s.transport.inflight.erase reply } } key := by
    rcases before with turning | ⟨other, member, hits⟩ | waits
    · exact absurd turning (unturned key)
    · by_cases same : other = reply
      · exact now (same ▸ hits)
      · refine Or.inr (Or.inl ⟨other, (List.mem_erase_of_ne same).mpr member, ?_⟩)
        cases other with
        | WriteReadyRep peer => exact found peer hits
        | _ => exact hits
    · exact Or.inr (Or.inr waits)
  have case := (Socket.step_cases did).2
  rcases Socket.reply_state case with
    same | ⟨status, endpoint, rfl, waits, moved⟩ | ⟨status, rfl, waits, moved⟩
  · refine attentive.kept same (fun _ _ queued => old queued) fun key req queued _ before => ?_
    have keys (peer : Peer) : socket.writeKey peer = s.socket.writeKey peer := by
      rw [Socket.writeKey, Socket.writeKey, same]
    refine attended before (fun peer found => (keys peer).trans found) fun hits => ?_
    cases reply with
    | WriteReadyRep peer =>
        cases case with
        | writeReady _ inline => exact Or.inl ⟨peer, _, rfl, hits⟩
    | _ => exact hits.elim
  · by_cases ok : status = .Ok
    · rw [if_pos ok] at moved
      have named {key : Peer} {req : WriteReq}
          (queued : socket.write_queue_.lookup key = some req) :
          SocketState.Bound.Findable key :=
        finds ⟨ok, waits⟩ key (AList.mem_keys.mp (AList.lookup_isSome.mp (by rw [old queued]; rfl)))
      constructor
      · intro key req queued findable
        refine attended (attentive.attended key req (old queued) ?_)
          (fun peer found => ?_) False.elim
        · rw [waits]
          exact named queued
        · rw [Socket.writeKey, if_neg (by rw [waits]; decide)] at found
          rw [Socket.writeKey, if_neg (by rw [moved]; decide), found]
      · intro _ key req queued
        exact moved ▸ named queued
    · rw [if_neg ok] at moved
      exact .shut (by rw [moved]; rfl)
  · by_cases ok : status = .Ok
    · rw [if_pos ok] at moved
      have unnamed {key : Peer} {req : WriteReq}
          (queued : socket.write_queue_.lookup key = some req) :
          SocketState.Connected.Findable key :=
        finds ⟨ok, waits⟩ key (AList.mem_keys.mp (AList.lookup_isSome.mp (by rw [old queued]; rfl)))
      constructor
      · intro key req queued findable
        refine attended (attentive.attended key req (old queued) ?_) (fun peer _ => ?_) False.elim
        · rw [waits]
          exact unnamed queued
        · rw [Socket.writeKey, if_pos moved]
          exact (unnamed queued).symm
      · intro _ key req queued
        exact moved ▸ unnamed queued
    · rw [if_neg ok] at moved
      exact .shut (by rw [moved]; rfl)

theorem Attentive.handled (attentive : Attentive s) {op : TcpTransport.Op}
    {transport : TcpTransport} (phased : Phased s) (inverse : Inverse s.transport)
    (owned : s.socket.state_.shut = false → Owned s.transport) (runs : label.handler? = some op)
    (idle : s.socket.stack = []) (did : s.transport.step op = some transport)
    (apart : AcceptsApart s label) : Attentive { s with transport } := by
  have unturned (key : Peer) : ¬ s.Turning key := by
    apply not_turning
    intro peer frames top
    rw [idle] at top
    cases top
  have posted := (TcpTransport.carries_handler runs did).posted
  refine attentive.kept rfl (fun _ _ queued => queued) fun key req queued findable attended => ?_
  refine attended.carried (unturned key) rfl posted fun waits => Or.inr (Or.inr ?_)
  cases label with
  | acceptReady fd accepted =>
      cases runs
      obtain ⟨⟨-, nodup, fresh⟩, same⟩ := Option.ite_none_right_eq_some.mp did
      obtain ⟨new, unnamed⟩ := apart
      rw [← Option.some.inj same]
      rcases unnamed with none | free
      · rw [none]
        exact waits
      · refine waits.accepted inverse (owned (open_of_findable findable)) new nodup
          (fun a member => (fresh a member).2) ?_
        rintro rfl
        rw [free] at queued
        cases queued
  | connectReady fd o =>
      cases runs
      obtain ⟨⟨watched, -⟩, -⟩ := Option.ite_none_right_eq_some.mp did
      obtain ⟨-, attempted, -, going⟩ := phased.attempt _ watched
      exact absurd attended (not_attended (going ▸ TcpTransport.bare_attempt attempted)
        (by rw [going]; rfl) (unturned key))
  | readReady fd =>
      cases runs
      obtain ⟨-, same⟩ := Option.ite_none_right_eq_some.mp did
      rw [← Option.some.inj same, TcpTransport.onReadReady]
      split <;> exact waits
  | writeReady fd =>
      cases runs
      obtain ⟨-, same⟩ := Option.ite_none_right_eq_some.mp did
      rw [← Option.some.inj same, TcpTransport.onWriteReady]
      split <;> exact waits
  | _ => cases runs

/-- An end of stream on a connected socket closes it. -/
theorem eof_closes {order : List Fd} {recv : Fd → RecvOutcome} {socket : Socket} {fd : Fd}
    (all : order.Perm s.transport.connection_by_fd_.keys)
    (did : s.socket.step (.resumeRead (s.transport.resumeRead order recv).1) = some socket)
    (connected : s.socket.state_ = .Connected)
    (ends : s.transport.decisive order recv = some (fd, .eof)) : socket.state_ = .CloseWait := by
  obtain ⟨frames, req, queue, top, first, rfl⟩ := Socket.resumeRead_turn did
  obtain ⟨result, after, same, case⟩ := TcpTransport.resumeRead_cases s.transport recv all
  rw [same, case.result_eq, ends]
  simp only [TcpTransport.readResult, Socket.readTurn, Socket.tick, connected]
  rfl

theorem Attentive.readTurn (attentive : Attentive s) (inverse : Inverse s.transport)
    {order : List Fd} {recv : Fd → RecvOutcome} {socket : Socket}
    (all : order.Perm s.transport.connection_by_fd_.keys)
    (did : s.socket.step (.resumeRead (s.transport.resumeRead order recv).1) = some socket)
    (same : socket.state_ = s.socket.state_) (finds : FindsWrites s (.resumeRead order recv)) :
    Attentive { s with socket, transport := (s.transport.resumeRead order recv).2 } := by
  obtain ⟨queue, -⟩ := Socket.queue_same (Socket.step_cases did).2 rfl
  obtain ⟨frames, req, reads, top, first, -⟩ := Socket.resumeRead_turn did
  have posted := (TcpTransport.carries_resumeRead recv all).posted
  refine attentive.kept same (fun key req queued => queue ▸ queued)
    fun key req queued findable attended => ?_
  have unturned : ¬ s.Turning key := by
    apply not_turning
    intro peer frames' write
    rw [top] at write
    cases write
  refine attended.carried unturned same posted fun waits => ?_
  rcases (inverse.keepsWrites_resumeRead recv all).waitsFor waits with kept | ⟨fd, gone, found⟩
  · exact Or.inr (Or.inr kept)
  · have given : fd ∈ s.givesUp (.resumeRead order recv) := by
      simp only [givesUp]
      split
      · rename_i ended ends
        rw [ends] at gone
        rw [if_neg fun connected => ?_]
        · exact gone
        · have closed := eof_closes all did connected ends
          rw [same, connected] at closed
          cases closed
      · exact gone
    have other : (current s.socket).map Prod.fst ≠ some key := by
      unfold current
      rw [top]
      exact fun same => by cases same
    have member : key ∈ s.socket.write_queue_.keys :=
      AList.mem_keys.mp (AList.lookup_isSome.mp (by rw [← queue, queued]; rfl))
    exact Or.inr (Or.inl ((finds fd given key member other findable found).carried same posted))

theorem Attentive.turn (attentive : Attentive s) (booked : Booked s) (inverse : Inverse s.transport)
    {send : SendOutcome} {peer : Peer} {frames : List SocketFrame} {req : WriteReq}
    {socket : Socket} (top : s.socket.stack = .write peer :: frames)
    (held : s.socket.write_queue_.lookup (s.socket.writeKey peer) = some req)
    (taken : Socket.Step s.socket (.resumeWrite
      (s.transport.resumeWrite req.data (s.socket.writeKey peer) send).1) socket)
    (finds : FindsWrites s (.resumeWrite send)) : Attentive { s with
      socket
      transport := (s.transport.resumeWrite req.data (s.socket.writeKey peer) send).2
      sends := s.sends ++ s.sent (s.socket.writeKey peer) req send } := by
  obtain ⟨id, owner, -⟩ := booked.held _ req held
  have same := Socket.write_state taken
  have found : current s.socket = some (s.socket.writeKey peer, req) := by
    unfold current
    rw [top]
    simp only [held, Option.map_some]
  have posted := (TcpTransport.carries_resumeWrite s.transport req.data
    (s.socket.writeKey peer) send).posted
  have spec := Socket.resumeWrite_spec taken top held owner
  obtain ⟨result, after, eq, write⟩ :=
    TcpTransport.resumeWrite_cases s.transport req.data (s.socket.writeKey peer) send
  rw [eq] at spec posted ⊢
  have unturned {key : Peer} (other : key ≠ s.socket.writeKey peer) : ¬ s.Turning key := by
    rintro ⟨peer', frames', top', rfl⟩
    rw [top] at top'
    cases top'
    exact other rfl
  -- the write is over, and the others wait as before for what is left
  have settled {lost : List Fd} (final : result.status ≠ .WouldBlock)
      (keeps : KeepsWrites s.transport after lost)
      (given : ∀ fd ∈ lost, fd ∈ s.givesUp (.resumeWrite send)) : Attentive { s with
        socket
        transport := after
        sends := s.sends ++ s.sent (s.socket.writeKey peer) req send } := by
    have queue : socket.write_queue_ = s.socket.write_queue_.erase (s.socket.writeKey peer) := by
      rcases spec with ⟨blocked, -⟩ | ⟨-, -, -, queue⟩
      · exact absurd blocked final
      · exact queue
    refine attentive.kept same (fun key req queued => (lookup_erase (queue ▸ queued)).2)
      fun key req queued findable attended => ?_
    obtain ⟨other, before⟩ := lookup_erase (queue ▸ queued)
    refine attended.carried (unturned other) same posted fun waits => ?_
    rcases keeps.waitsFor waits with kept | ⟨fd, gone, resolved⟩
    · exact Or.inr (Or.inr kept)
    · have apart : (current s.socket).map Prod.fst ≠ some key := by
        rw [found]
        exact fun here => other (Option.some.inj here).symm
      have member : key ∈ s.socket.write_queue_.keys :=
        AList.mem_keys.mp (AList.lookup_isSome.mp (by rw [before]; rfl))
      have signalled := finds fd (given fd gone) key member apart findable resolved
      exact Or.inr (Or.inl (signalled.carried same posted))
  -- a connection that the send has given up
  have released {fd : Fd} (resolved : s.transport.resolve (s.socket.writeKey peer) = .ok fd) :
      KeepsWrites s.transport ((s.transport.call (.send fd)).releaseConnection fd) [fd] := by
    obtain ⟨c, there⟩ := TcpTransport.resolve_held resolved
    have sending : Inverse (s.transport.call (.send fd)) := inverse.maps ⟨rfl, rfl⟩
    exact (keepsWrites_send s.transport fd).trans (sending.keepsWrites_release there)
  cases write with
  | unresolved status missing =>
      exact settled (resolve_error missing).1 (.refl _) fun fd gone => absurd gone List.not_mem_nil
  | sent fd n resolved out some_byte =>
      exact settled (fun same => by cases same) (keepsWrites_send s.transport fd) fun fd gone =>
        absurd gone List.not_mem_nil
  | blocked fd errno resolved out full =>
      have queue : socket.write_queue_ = s.socket.write_queue_ := by
        rcases spec with ⟨-, -, -, queue⟩ | ⟨final, -⟩
        · exact queue rfl
        · exact absurd rfl final
      refine attentive.kept same (fun key req queued => queue ▸ queued)
        fun key req queued findable attended => ?_
      by_cases here : key = s.socket.writeKey peer
      · have sending : (s.transport.call (.send fd)).resolve key = .ok fd := here ▸ resolved
        exact Or.inr (Or.inr (TcpTransport.waitsFor_watchWrite sending))
      · refine attended.carried (unturned here) same posted fun waits => Or.inr (Or.inr ?_)
        have sending : (s.transport.call (.send fd)).WaitsFor key := waits
        exact sending.watchWrite fd
  | ended fd n resolved out no_byte =>
      refine settled (by decide) (released resolved) fun fd' gone => ?_
      simp only [givesUp, found, resolved, out, no_byte, if_pos]
      exact gone
  | broken fd errno resolved out hard =>
      refine settled (by decide) (released resolved) fun fd' gone => ?_
      simp only [givesUp, found, resolved, out, hard]
      exact gone

/-- A turn that is left has found no write. -/
theorem left_unturned {inner : Socket.Label} {socket : Socket} {req : WriteReq}
    (runs : label.inner? = some inner) (taken : Socket.Step s.socket inner socket)
    (queued : s.socket.write_queue_.lookup key = some req) : ¬ s.Turning key := by
  rintro ⟨peer, frames, top, rfl⟩
  cases label with
  | failWrite peer =>
      cases runs
      cases taken with
      | writeFailed _ _ _ _ _ _ closing | writeSkipped _ _ _ _ closing =>
          rw [top] at closing
          cases closing
  | resume =>
      cases runs
      cases taken with
      | left frame frames' closing kind =>
          rw [top] at closing
          cases closing
          rcases kind with same | ⟨_, same⟩ | ⟨same, -⟩ | ⟨_, same, none⟩
          · cases same
          · cases same
          · cases same
          · cases same
            rw [none] at queued
            cases queued
      | closingBind _ _ closing | closingConnect _ _ closing | closingReads _ _ closing
      | closingWrites _ _ closing | bindFailed _ _ _ _ closing | bindGone _ _ _ closing
      | connectFailed _ _ _ _ closing | connectGone _ _ _ closing | readFailed _ _ _ _ closing
      | readSkipped _ _ _ closing | closed _ _ closing | closedSilently _ closing =>
          rw [top] at closing
          cases closing
  | _ => cases runs

theorem Step.attentive (taken : Step s label next) (phased : Phased s)
    (coherent : Socket.Coherent s.socket) (booked : Booked s) (inverse : Inverse s.transport)
    (owned : s.socket.state_.shut = false → Owned s.transport) (apart : AcceptsApart s label)
    (finds : FindsWrites s label) (attentive : Attentive s) : Attentive next := by
  -- nothing can be queued before `bind` or `connect`
  have unqueued {request : Socket.Request} {socket : Socket} (idle : s.socket.state_ = .Idle)
      (did : s.socket.step (.request request) = some socket) (key : Peer) :
      s.socket.write_queue_.lookup key = none := by
    cases queued : s.socket.write_queue_.lookup key with
    | none => rfl
    | some req =>
        have start := phased.idle idle
        have attended := attentive.attended key req queued (by rw [idle]; trivial)
        exact absurd attended (not_attended (start ▸ TcpTransport.bare_start) (by rw [start])
          (asks_between did))
  cases taken with
  | binds o socket fresh did idle waits =>
      obtain ⟨queue, -⟩ := Socket.queue_same (Socket.step_cases did).2 rfl
      constructor
      · intro key req queued
        rw [queue, unqueued idle did key] at queued
        cases queued
      · intro _ key req queued
        rw [queue, unqueued idle did key] at queued
        cases queued
  | connects o socket fresh did idle waits =>
      obtain ⟨queue, -⟩ := Socket.queue_same (Socket.step_cases did).2 rfl
      constructor
      · intro key req queued
        rw [queue, unqueued idle did key] at queued
        cases queued
      · intro _ key req queued
        rw [queue, unqueued idle did key] at queued
        cases queued
  | closes socket did _ closing => exact .shut (by rw [closing]; rfl)
  | asked _ request socket asks did same => exact attentive.asked asks did same finds
  | delivered reply socket idle did posted => exact attentive.delivered idle did finds
  | handled _ op transport runs idle sound did =>
      exact attentive.handled phased inverse owned runs idle did apart
  | readTurn order recv socket all did same => exact attentive.readTurn inverse all did same finds
  | readEnded order recv socket all did connected closing eof => exact .shut (by rw [closing]; rfl)
  | writeTurn send peer frames req socket top held did =>
      exact attentive.turn booked inverse top held (Socket.step_cases did).2 finds
  | resumed _ inner socket runs did other =>
      have case := (Socket.step_cases did).2
      rcases Socket.inner_state runs case coherent with same | ⟨-, closed⟩
      · have queue : socket.write_queue_ = s.socket.write_queue_ := by
          refine (Socket.queue_same case ?_).1
          cases label <;> cases runs <;> rfl
        refine attentive.kept same (fun key req queued => queue ▸ queued)
          fun key req queued findable attended => ?_
        have before : s.socket.write_queue_.lookup key = some req := queue ▸ queued
        exact attended.carried (left_unturned runs case before) same (fun _ posted => posted)
          fun waits => Or.inr (Or.inr waits)
      · exact .shut (by rw [closed]; rfl)
  | suspended frames top did empty =>
      refine attentive.kept rfl
        (fun _ _ queued => queued) fun key req queued findable attended => ?_
      have unturned : ¬ s.Turning key := by
        apply not_turning
        intro peer frames' write
        rw [top] at write
        cases write
      exact attended.carried unturned rfl
        (TcpTransport.suspendRead_spec s.transport).1.carries.posted
        fun waits => Or.inr (Or.inr
          ((TcpTransport.keepsWrites_suspendRead s.transport).waitsFor_all waits))

theorem attentive_start : Attentive {} := by
  constructor
  · intro key req queued
    cases queued
  · intro _ key req queued
    cases queued

theorem attentive_run
    (run : Exec (Guarded (fun s l => AcceptsApart s l ∧ FindsWrites s l) (Of step)) {} labels s) :
    Attentive s ∧ Inverse s.transport := by
  have inverse {labels : List Label} {s : TcpSocket}
      (run : Exec (Guarded (fun s l => AcceptsApart s l ∧ FindsWrites s l) (Of step)) {} labels s) :
      Inverse s.transport :=
    inverse_run (run.mono fun _ _ _ taken => ⟨taken.1.1, taken.2⟩)
  refine ⟨?_, inverse run⟩
  induction run with
  | nil => exact attentive_start
  | snoc before taken attentive =>
      have whole := before.unguarded
      have case := step_cases taken.2
      exact case.attentive (Run.phased whole) (Run.coherent whole case) (Run.booked whole)
        (inverse before) (Run.owned whole) taken.1.1 taken.1.2 attentive

/-- What the next reply of a connection finds. -/
theorem current_signalled (socket : Socket) (peer : Peer) :
    current (socket.tick (.WriteReadyRep peer)) =
      (socket.write_queue_.lookup (socket.writeKey peer)).map
        fun req => (socket.writeKey peer, req) := rfl

/-- As long as writes can be found and no connection is given up that one waits for, none is stuck:
when nothing runs and nothing is in flight, each is armed for, and found by the next reply. -/
theorem writes_served
    (run : Exec (Guarded (fun s l => AcceptsApart s l ∧ FindsWrites s l) (Of step)) {} labels s)
    (quiet : Quiet s) (settled : s.socket.state_ = .Bound ∨ s.socket.state_ = .Connected) :
    NoneStuck s := by
  obtain ⟨attentive, inverse⟩ := attentive_run run
  obtain ⟨stack, inflight, -⟩ := quiet
  intro key req queued
  have findable := attentive.findable settled key req queued
  have owned := Run.owned run.unguarded (open_of_findable findable)
  rcases attentive.attended key req queued findable with
    ⟨peer, frames, top, -⟩ | ⟨reply, member, -⟩ | ⟨fd, c, found, held, armed⟩
  · rw [stack] at top
    cases top
  · rw [inflight] at member
    cases member
  · refine ⟨fd, c, held, (owned.keyed fd c held).2, found, armed, ?_⟩
    have hits : s.socket.writeKey c.peer_ = key := by
      rw [Socket.writeKey]
      rcases settled with bound | connected
      · rw [bound] at findable
        rw [if_neg (by rw [bound]; decide)]
        have index := ((TcpTransport.resolve_named findable).mp found).1
        have peer := (inverse key fd).mp index
        rw [TcpTransport.peerAt_of_conn held] at peer
        exact Option.some.inj peer
      · rw [connected] at findable
        rw [if_pos connected]
        exact findable.symm
    rw [current_signalled, hits, queued]
    rfl

theorem writes_served_oneWaits : ∃ s,
    Exec (Guarded (fun s l => AcceptsApart s l ∧ FindsWrites s l) (Of step)) {} oneWaits s ∧
      s.socket.write_queue_.keys = ["10.0.0.1:5000"] ∧ NoneStuck s := by
  have runs : (Transition.run
      (Transition.guardedStep (fun s l => decide (AcceptsApart s l ∧ FindsWrites s l)) step)
      {} oneWaits).isSome = true := by
    decide +kernel
  have kept := Transition.guarded_of_isSome runs
  have served := writes_served kept
  have waits : ((Transition.run (Transition.guardedStep
      (fun s l => decide (AcceptsApart s l ∧ FindsWrites s l)) step) {} oneWaits).get
        runs).socket.write_queue_.keys = ["10.0.0.1:5000"] ∧
      Quiet ((Transition.run (Transition.guardedStep
        (fun s l => decide (AcceptsApart s l ∧ FindsWrites s l)) step) {} oneWaits).get runs) ∧
      ((Transition.run (Transition.guardedStep
        (fun s l => decide (AcceptsApart s l ∧ FindsWrites s l)) step) {} oneWaits).get
          runs).socket.state_ = .Bound := by
    clear served kept
    unfold Quiet
    revert runs
    decide +kernel
  obtain ⟨queued, quiet, bound⟩ := waits
  exact ⟨_, kept, queued, served quiet (Or.inl bound)⟩

/-- A write to a connected socket that names its peer. -/
def namedWrite : List Label := connection ++ [.write [1] "10.0.0.1:80", .resume]

/-- It is queued under a key that is never looked up. -/
theorem named_write_stuck : ¬ ∀ (labels : List Label) (s : TcpSocket), Run labels s → Quiet s →
    s.socket.state_ = .Bound ∨ s.socket.state_ = .Connected → NoneStuck s := by
  intro always
  have runs : (Transition.run step {} namedWrite).isSome = true := by decide +kernel
  have run := Transition.exec_of_isSome runs
  have waits : Quiet ((Transition.run step {} namedWrite).get runs) ∧
      ((Transition.run step {} namedWrite).get runs).socket.state_ = .Connected ∧
      (((Transition.run step {} namedWrite).get runs).socket.write_queue_.lookup
        "10.0.0.1:80").isSome = true := by
    clear run always
    unfold Quiet
    revert runs
    decide +kernel
  obtain ⟨quiet, connected, queued⟩ := waits
  obtain ⟨req, held⟩ := Option.isSome_iff_exists.mp queued
  obtain ⟨fd, c, -, -, -, -, found⟩ := always _ _ run quiet (Or.inr connected) _ req held
  rw [current_signalled, Socket.writeKey, if_pos connected] at found
  obtain ⟨_, -, same⟩ := Option.map_eq_some_iff.mp found
  have keys : "" = "10.0.0.1:80" := congrArg Prod.fst same
  exact absurd keys (by decide)

end Attention

end TcpSocket

end Getrafty
