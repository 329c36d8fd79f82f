import Getrafty.TcpSocketPhases

set_option autoImplicit false

namespace Getrafty

open Transition (Exec Of Guarded)

namespace Socket

/-- Neither the request for a write nor a turn of one. -/
def Label.aside : Label → Bool
  | .request (.write _ _) | .resumeWrite _ => false
  | _ => true

section Writes

variable {s next : Socket} {label : Label}

/-- Only a write that enters the queue and the end of one change the queue. -/
theorem queue_same (taken : Step s label next) (aside : label.aside = true) :
    next.write_queue_ = s.write_queue_ ∧ next.askedWrites = s.askedWrites := by
  cases taken with
  | writeRejected | writeBusy | writeAsked | writeBlocked | writeAnswered | writeMoved =>
      cases aside
  | _ => exact ⟨rfl, rfl⟩

theorem ne_resumeWrite (aside : label.aside = true) (result : WriteResult) :
    label ≠ .resumeWrite result := by
  rintro rfl
  cases aside

/-- A request for a write reports no success. -/
theorem write_told {data : Buffer} {peer : Peer} (s : Socket) :
    (s.ask (.write data peer)).log = s.log ∨ ∃ status, status ≠ .Ok ∧
      (s.ask (.write data peer)).log = s.log ++ [.write s.askedWrites status] := by
  simp only [ask, tick]
  split
  · exact Or.inr ⟨.Error, by decide, rfl⟩
  · split
    · exact Or.inr ⟨.Error, by decide, rfl⟩
    · split
      · exact Or.inr ⟨.Fatal, by decide, rfl⟩
      · split
        · exact Or.inl rfl
        · exact Or.inl rfl

/-- Only the end of a write reports its success. -/
theorem ok_same {id : Nat} (taken : step s label = some next)
    (other : ∀ result, label ≠ .resumeWrite result) (told : .write id .Ok ∈ next.log) :
    .write id .Ok ∈ s.log := by
  have kept (last : Completion) (apart : last ≠ .write id .Ok)
      (member : .write id .Ok ∈ s.log ++ [last]) : .write id .Ok ∈ s.log := by
    rcases List.mem_append.mp member with before | now
    · exact before
    · exact absurd (List.mem_singleton.mp now).symm apart
  by_cases request : ∃ data peer, label = .request (.write data peer)
  · obtain ⟨data, peer, rfl⟩ := request
    unfold step at taken
    obtain ⟨-, taken⟩ := Option.ite_none_left_eq_some.mp taken
    obtain ⟨-, same⟩ := Option.ite_none_right_eq_some.mp taken
    rw [← Option.some.inj same] at told
    rcases write_told s with silent | ⟨status, failed, log⟩
    · rw [silent] at told
      exact told
    · rw [log] at told
      refine kept _ (fun same => ?_) told
      rw [Completion.write.injEq] at same
      exact failed same.2
  · cases (step_cases taken).2 with
    | writeRejected data peer | writeBusy data peer | writeAsked data peer =>
        exact absurd ⟨data, peer, rfl⟩ request
    | writeBlocked result | writeAnswered result | writeMoved result =>
        exact absurd rfl (other result)
    | writeFailed peer left callback frames req owner =>
        refine kept _ (fun same => ?_) told
        rw [Completion.write.injEq] at same
        cases same.2
    | bindRejected | connectRejected | readRejected | closeAgain | bindReplied | connectReplied
    | readAnswered | bindFailed | connectFailed | readFailed | closed =>
        exact kept _ (fun same => by cases same) told
    | _ => exact told

/-- A turn of a write leaves it queued, or ends it. -/
theorem resumeWrite_spec {result : WriteResult} {peer : Peer} {frames : List SocketFrame}
    {req : WriteReq} {id : Nat} (taken : Step s (.resumeWrite result) next)
    (top : s.stack = .write peer :: frames)
    (held : s.write_queue_.lookup (s.writeKey peer) = some req) (owner : req.callback = some id) :
    result.status = .WouldBlock ∧ next.log = s.log ∧ next.stack = frames ∧
        (result.taken = false → next.write_queue_ = s.write_queue_) ∨
      result.status ≠ .WouldBlock ∧ next.log = s.log ++ [.write id result.status] ∧
        next.stack = .user :: frames ∧
        next.write_queue_ = s.write_queue_.erase (s.writeKey peer) := by
  cases taken with
  | writeBlocked _ peer' req' frames' top' held' blocked =>
      rw [top] at top'
      cases top'
      refine Or.inl ⟨blocked, rfl, rfl, fun untaken => ?_⟩
      rw [untaken]
      rfl
  | writeAnswered _ peer' req' id' frames' top' held' owner' final =>
      rw [top] at top'
      cases top'
      rw [held] at held'
      cases held'
      rw [owner] at owner'
      cases owner'
      exact Or.inr ⟨final, rfl, rfl, rfl⟩
  | writeMoved _ peer' req' frames' top' held' owner' =>
      rw [top] at top'
      cases top'
      rw [held] at held'
      cases held'
      rw [owner] at owner'
      cases owner'

end Writes

end Socket

namespace TcpSocket

/-- Every queued write has its own number, and nothing of it was sent. -/
structure Booked (s : TcpSocket) : Prop where
  asked : s.writes.length = s.socket.askedWrites
  held : ∀ key req, s.socket.write_queue_.lookup key = some req →
    ∃ id, req.callback = some id ∧ s.writes[id]? = some req.data ∧ req.data ≠ [] ∧
      (∀ e ∈ s.sends, e.id ≠ id) ∧ .write id .Ok ∉ s.socket.log
  apart : ∀ key key' req req', s.socket.write_queue_.lookup key = some req →
    s.socket.write_queue_.lookup key' = some req' → req.callback = req'.callback → key = key'
  sent : ∀ e ∈ s.sends, e.id < s.writes.length
  told : ∀ id, .write id .Ok ∈ s.socket.log → id < s.writes.length

/-- All of a write was sent to one connection, without anything between. -/
def InOnePiece (sends : List Sent) (id : Nat) (data : Buffer) : Prop :=
  ∃ fd front piece back, (sends.filter fun e => e.fd = fd) = front ++ piece ++ back ∧
    (∀ e ∈ piece, e.id = id) ∧ (∀ e ∈ front ++ back, e.id ≠ id) ∧
    (∀ e ∈ sends, e.id = id → e.fd = fd) ∧ piece.flatMap Sent.bytes = data

/-- A write that was reported as done was sent. -/
def WrittenInFull (s : TcpSocket) : Prop :=
  ∀ id data, s.writes[id]? = some data → .write id .Ok ∈ s.socket.log → InOnePiece s.sends id data

/-- What `send` accepts of a write is all of it, or nothing. -/
def Whole (s : TcpSocket) : Label → Prop
  | .resumeWrite (.sent n) =>
      match current s.socket with
      | some (key, req) =>
          match s.transport.resolve key with
          | .ok _ => n = 0 ∨ req.data.length ≤ n
          | .error _ => True
      | none => True
  | _ => True

instance (s : TcpSocket) : DecidablePred s.Whole :=
  fun label => match label with
    | .resumeWrite (.sent n) =>
        match found : current s.socket with
        | none => isTrue (by simp only [Whole, found])
        | some (key, req) =>
            match resolved : s.transport.resolve key with
            | .error _ => isTrue (by simp only [Whole, found, resolved])
            | .ok _ => decidable_of_iff (n = 0 ∨ req.data.length ≤ n)
                (by simp only [Whole, found, resolved])
    | .resumeWrite (.failed _) => isTrue trivial
    | .bind _ | .connect _ | .read | .write _ _ | .close | .deliver _ | .acceptReady _ _
    | .connectReady _ _ | .readReady _ | .writeReady _ | .resumeRead _ _ | .failWrite _ | .resume =>
        isTrue trivial

/-- A write that was reported as done was sent by one call. -/
def AtOnce (s : TcpSocket) : Prop :=
  ∀ id data, s.writes[id]? = some data → .write id .Ok ∈ s.socket.log →
    ∃ fd front back, s.sends = front ++ ⟨fd, id, data⟩ :: back ∧ ∀ e ∈ front ++ back, e.id ≠ id

section Pieces

variable {s next : TcpSocket} {sends : List Sent} {id : Nat} {data : Buffer} {fd : Fd}

theorem inOnePiece_single {front back : List Sent} (whole : sends = front ++ ⟨fd, id, data⟩ :: back)
    (others : ∀ e ∈ front ++ back, e.id ≠ id) : InOnePiece sends id data := by
  refine ⟨fd, front.filter (fun e => e.fd = fd), [⟨fd, id, data⟩], back.filter (fun e => e.fd = fd),
    ?_, ?_, ?_, ?_, ?_⟩
  · rw [whole, List.filter_append, List.filter_cons_of_pos (by simp), List.append_assoc]
    rfl
  · intro e member
    rw [List.mem_singleton.mp member]
  · intro e member
    rw [← List.filter_append] at member
    exact others e (List.mem_of_mem_filter member)
  · intro e member same
    rw [whole] at member
    rcases List.mem_append.mp member with before | here | ⟨_, after⟩
    · exact absurd same (others e (List.mem_append_left _ before))
    · rfl
    · exact absurd same (others e (List.mem_append_right _ ‹_›))
  · exact List.append_nil data

/-- The one call for a write has sent all of it. -/
theorem InOnePiece.bytes_eq {bytes : Buffer}
    (piece : InOnePiece (sends ++ [⟨fd, id, bytes⟩]) id data)
    (first : ∀ e ∈ sends, e.id ≠ id) : bytes = data := by
  obtain ⟨fd', front, piece, back, whole, mine, others, there, flat⟩ := piece
  obtain rfl : fd = fd' :=
    there ⟨fd, id, bytes⟩ (List.mem_append_right _ (List.mem_singleton.mpr rfl)) rfl
  have picked := congrArg (List.filter fun e => e.id = id) whole
  have none_of {list : List Sent} (apart : ∀ e ∈ list, e.id ≠ id) :
      list.filter (fun e => e.id = id) = [] :=
    List.filter_eq_nil_iff.mpr fun e member => by simp [apart e member]
  have own : piece.filter (fun e => e.id = id) = piece :=
    List.filter_eq_self.mpr fun e member => by simp [mine e member]
  rw [List.filter_append, List.filter_append, List.filter_append, List.filter_append, own,
    none_of fun e member => first e (List.mem_of_mem_filter member),
    none_of fun e member => others e (List.mem_append_left _ member),
    none_of fun e member => others e (List.mem_append_right _ member)] at picked
  simp only [List.filter_cons_of_pos, decide_true, List.filter_nil, List.nil_append,
    List.append_nil] at picked
  rw [← flat, ← picked]
  exact (List.append_nil bytes).symm

theorem AtOnce.inFull (once : AtOnce s) : WrittenInFull s := by
  intro id data asked told
  obtain ⟨fd, front, back, whole, others⟩ := once id data asked told
  exact inOnePiece_single whole others

end Pieces

/-- No connection accepts a byte of the write that was found. -/
def SendsNothing (s : TcpSocket) (send : SendOutcome) : Prop :=
  ∀ key req fd n, current s.socket = some (key, req) → s.transport.resolve key = .ok fd →
    send = .sent n → n = 0

/-- What a turn of `transportWrite` makes of the write that it has found. -/
inductive Turn (s next : TcpSocket) (send : SendOutcome) : Prop
  | blocked (nothing : SendsNothing s send)
      (queue : next.socket.write_queue_ = s.socket.write_queue_)
      (sends : next.sends = s.sends) (log : next.socket.log = s.socket.log)
  | failed (key : Peer) (req : WriteReq) (id : Nat) (status : IOStatus)
      (nothing : SendsNothing s send)
      (held : s.socket.write_queue_.lookup key = some req) (owner : req.callback = some id)
      (wrong : status ≠ .Ok) (queue : next.socket.write_queue_ = s.socket.write_queue_.erase key)
      (sends : next.sends = s.sends) (log : next.socket.log = s.socket.log ++ [.write id status])
  | done (key : Peer) (req : WriteReq) (id : Nat) (fd : Fd) (n : Nat)
      (found : current s.socket = some (key, req))
      (held : s.socket.write_queue_.lookup key = some req) (owner : req.callback = some id)
      (resolved : s.transport.resolve key = .ok fd) (out : send = .sent n) (some_byte : n ≠ 0)
      (queue : next.socket.write_queue_ = s.socket.write_queue_.erase key)
      (sends : next.sends = s.sends ++ [⟨fd, id, req.data.take n⟩])
      (log : next.socket.log = s.socket.log ++ [.write id .Ok])

section Books

variable {s next : TcpSocket} {label : Label} {labels : List Label} {send : SendOutcome}

/-- Nothing is sent in a turn that ends without success. -/
theorem SendsNothing.sent {key : Peer} {req : WriteReq} (nothing : SendsNothing s send)
    (found : current s.socket = some (key, req)) : s.sent key req send = [] := by
  unfold TcpSocket.sent
  split
  · rename_i fd id n resolved owner
    rw [if_pos (nothing key req fd n found resolved rfl)]
  · rfl

theorem sendsNothing_failed {errno : Int} (s : TcpSocket) (out : send = .failed errno) :
    SendsNothing s send := by
  intro _ _ _ _ _ _ sent
  rw [out] at sent
  cases sent

/-- A write without a connection fails. -/
theorem resolve_error {t : TcpTransport} {key : Peer} {status : IOStatus}
    (missing : t.resolve key = .error status) : status ≠ .WouldBlock ∧ status ≠ .Ok := by
  unfold TcpTransport.resolve at missing
  split at missing
  · split at missing
    · split at missing
      · cases missing
      · cases missing
        decide
    · cases missing
      decide
  · split at missing
    · cases missing
    · split at missing
      · cases missing
      · cases missing
        decide

theorem Step.turn (taken : Step s (.resumeWrite send) next) (booked : Booked s) :
    next.writes = s.writes ∧ next.socket.askedWrites = s.socket.askedWrites ∧
      Turn s next send := by
  cases taken with
  | asked _ request socket asks => cases asks
  | handled _ op transport runs => cases runs
  | resumed _ inner socket runs => cases runs
  | writeTurn _ peer frames req socket top held did =>
      obtain ⟨id, owner, -, some_data, -⟩ := booked.held _ req held
      have found : current s.socket = some (s.socket.writeKey peer, req) := by
        unfold current
        rw [top]
        simp only [held, Option.map_some]
      have case := (Socket.step_cases did).2
      obtain ⟨result, after, same, write⟩ :=
        TcpTransport.resumeWrite_cases s.transport req.data (s.socket.writeKey peer) send
      rw [same] at case
      refine ⟨rfl, by cases case <;> rfl, ?_⟩
      have spec := Socket.resumeWrite_spec case top held owner
      -- what a turn does that does not block
      have ends (final : result.status ≠ .WouldBlock) :
          socket.write_queue_ = s.socket.write_queue_.erase (s.socket.writeKey peer) ∧
            socket.log = s.socket.log ++ [.write id result.status] := by
        rcases spec with ⟨blocked, -⟩ | ⟨-, log, -, queue⟩
        · exact absurd blocked final
        · exact ⟨queue, log⟩
      have silent (nothing : SendsNothing s send) :
          s.sends ++ s.sent (s.socket.writeKey peer) req send = s.sends := by
        rw [nothing.sent found, List.append_nil]
      cases write with
      | unresolved status missing =>
          obtain ⟨blocked, wrong⟩ := resolve_error missing
          obtain ⟨queue, log⟩ := ends blocked
          have nothing : SendsNothing s send := by
            intro key req' fd n found' resolved _
            obtain ⟨rfl, -⟩ := Prod.mk.injEq _ _ _ _ ▸ Option.some.inj (found.symm.trans found')
            rw [missing] at resolved
            cases resolved
          exact .failed _ req id status nothing held owner wrong queue (silent nothing) log
      | sent fd n resolved out some_byte =>
          obtain ⟨queue, log⟩ := ends fun same => by cases same
          have some_sent : n ≠ 0 := by omega
          refine .done _ req id fd n found held owner resolved out some_sent queue ?_ log
          simp only [TcpSocket.sent, resolved, owner, out, if_neg some_sent]
      | blocked fd errno resolved out full =>
          have nothing := sendsNothing_failed s out
          rcases spec with ⟨-, log, -, queue⟩ | ⟨final, -⟩
          · exact .blocked nothing (queue rfl) (silent nothing) log
          · exact absurd rfl final
      | ended fd n resolved out no_byte =>
          obtain ⟨queue, log⟩ := ends (by decide)
          have length : req.data.length ≠ 0 := fun none =>
            some_data (List.length_eq_zero_iff.mp none)
          have nothing : SendsNothing s send := by
            intro _ _ _ m _ _ sent
            rw [out, SendOutcome.sent.injEq] at sent
            omega
          exact .failed _ req id .Eof nothing held owner (by decide) queue (silent nothing) log
      | broken fd errno resolved out hard =>
          obtain ⟨queue, log⟩ := ends (by decide)
          have nothing := sendsNothing_failed s out
          exact .failed _ req id .Fatal nothing held owner (by decide) queue (silent nothing) log

theorem lookup_erase {queue : AList (fun _ : Peer => WriteReq)} {key key' : Peer} {req : WriteReq}
    (held : (queue.erase key').lookup key = some req) :
    key ≠ key' ∧ queue.lookup key = some req := by
  by_cases same : key = key'
  · rw [same, AList.lookup_erase] at held
    cases held
  · rw [AList.lookup_erase_ne same] at held
    exact ⟨same, held⟩

theorem Booked.kept (booked : Booked s) (writes : next.writes = s.writes)
    (asked : next.socket.askedWrites = s.socket.askedWrites)
    (queue : next.socket.write_queue_ = s.socket.write_queue_) (sends : next.sends = s.sends)
    (log : ∀ id, .write id .Ok ∈ next.socket.log → .write id .Ok ∈ s.socket.log) :
    Booked next := by
  constructor
  · rw [writes, asked]
    exact booked.asked
  · intro key req held
    rw [queue] at held
    obtain ⟨id, owner, data, some_data, unsent, untold⟩ := booked.held key req held
    exact ⟨id, owner, writes ▸ data, some_data, sends ▸ unsent, fun told => untold (log id told)⟩
  · rw [queue]
    exact booked.apart
  · rw [writes, sends]
    exact booked.sent
  · rw [writes]
    exact fun id told => booked.told id (log id told)

/-- A write that has ended, with what was sent of it. -/
theorem Booked.ended (booked : Booked s) {key : Peer} {req : WriteReq} {id : Nat}
    {status : IOStatus} {new : List Sent} (writes : next.writes = s.writes)
    (asked : next.socket.askedWrites = s.socket.askedWrites)
    (held : s.socket.write_queue_.lookup key = some req) (owner : req.callback = some id)
    (queue : next.socket.write_queue_ = s.socket.write_queue_.erase key)
    (sends : next.sends = s.sends ++ new) (own : ∀ e ∈ new, e.id = id)
    (log : next.socket.log = s.socket.log ++ [.write id status]) : Booked next := by
  obtain ⟨_, same, data, -⟩ := booked.held key req held
  obtain rfl := Option.some.inj (owner.symm.trans same)
  have issued : id < s.writes.length := (List.getElem?_eq_some_iff.mp data).1
  have told (other : Nat) (member : .write other .Ok ∈ next.socket.log) :
      .write other .Ok ∈ s.socket.log ∨ other = id := by
    rw [log] at member
    rcases List.mem_append.mp member with before | now
    · exact Or.inl before
    · rw [List.mem_singleton, Completion.write.injEq] at now
      exact Or.inr now.1
  constructor
  · rw [writes, asked]
    exact booked.asked
  · intro other req' held'
    rw [queue] at held'
    obtain ⟨apart, held'⟩ := lookup_erase held'
    obtain ⟨id', owner', data', some_data, unsent, untold⟩ := booked.held other req' held'
    have different : id' ≠ id := by
      rintro rfl
      exact apart (booked.apart other key req' req held' held (owner'.trans owner.symm))
    refine ⟨id', owner', writes ▸ data', some_data, fun e member => ?_, fun member => ?_⟩
    · rw [sends] at member
      rcases List.mem_append.mp member with before | now
      · exact unsent e before
      · rw [own e now]
        exact different.symm
    · rcases told id' member with before | now
      · exact untold before
      · exact different now
  · intro first second req' req'' held' held''
    rw [queue] at held' held''
    exact booked.apart first second req' req'' (lookup_erase held').2 (lookup_erase held'').2
  · intro e member
    rw [sends] at member
    rw [writes]
    rcases List.mem_append.mp member with before | now
    · exact booked.sent e before
    · rw [own e now]
      exact issued
  · intro other member
    rw [writes]
    rcases told other member with before | rfl
    · exact booked.told other before
    · exact issued

/-- A write that was asked for gets the next number. -/
theorem Booked.asked_write (booked : Booked s) {data : Buffer} {peer : Peer} {socket : Socket}
    (did : s.socket.step (.request (.write data peer)) = some socket) :
    Booked { s with socket, writes := s.writes ++ [data] } := by
  have log (id : Nat) (told : .write id .Ok ∈ socket.log) : .write id .Ok ∈ s.socket.log :=
    Socket.ok_same did (fun _ same => by cases same) told
  have older {id : Nat} {old : Buffer} (there : s.writes[id]? = some old) :
      id < s.writes.length ∧ (s.writes ++ [data])[id]? = some old := by
    have issued := (List.getElem?_eq_some_iff.mp there).1
    exact ⟨issued, (List.getElem?_append_left issued).trans there⟩
  have grown (id : Nat) (issued : id < s.writes.length) : id < (s.writes ++ [data]).length := by
    rw [List.length_append]
    omega
  -- the queue is as before, or has the new write
  have queue : socket.askedWrites = s.socket.askedWrites + 1 ∧
      (socket.write_queue_ = s.socket.write_queue_ ∨ data ≠ [] ∧
        s.socket.write_queue_.lookup peer = none ∧ socket.write_queue_ =
          s.socket.write_queue_.insert peer ⟨data, peer, some s.socket.askedWrites⟩) := by
    cases (Socket.step_cases did).2 with
    | writeRejected _ _ status reason => exact ⟨rfl, Or.inl rfl⟩
    | writeBusy _ _ req open_ addressed some_byte held => exact ⟨rfl, Or.inl rfl⟩
    | writeAsked _ _ open_ addressed some_byte free => exact ⟨rfl, Or.inr ⟨some_byte, free, rfl⟩⟩
  have old {key : Peer} {req : WriteReq} (held : s.socket.write_queue_.lookup key = some req) :
      ∃ id, req.callback = some id ∧ id < s.writes.length ∧
      (s.writes ++ [data])[id]? = some req.data ∧
        req.data ≠ [] ∧ (∀ e ∈ s.sends, e.id ≠ id) ∧ .write id .Ok ∉ socket.log := by
    obtain ⟨id, owner, there, some_data, unsent, untold⟩ := booked.held key req held
    obtain ⟨issued, there⟩ := older there
    exact ⟨id, owner, issued, there, some_data, unsent, fun told => untold (log id told)⟩
  obtain ⟨asked, queue⟩ := queue
  have length : (s.writes ++ [data]).length = socket.askedWrites := by
    rw [List.length_append, asked, booked.asked]
    rfl
  have sent : ∀ e ∈ s.sends, e.id < (s.writes ++ [data]).length :=
    fun e member => grown e.id (booked.sent e member)
  have told : ∀ id, .write id .Ok ∈ socket.log → id < (s.writes ++ [data]).length :=
    fun id told => grown id (booked.told id (log id told))
  rcases queue with same | ⟨some_data, free, entered⟩
  · refine ⟨length, fun key req held => ?_, ?_, sent, told⟩
    · rw [same] at held
      obtain ⟨id, owner, -, rest⟩ := old held
      exact ⟨id, owner, rest⟩
    · rw [same]
      exact booked.apart
  · have cases_of {key : Peer} {req : WriteReq} (held : socket.write_queue_.lookup key = some req) :
        key = peer ∧ req = ⟨data, peer, some s.socket.askedWrites⟩ ∨
          s.socket.write_queue_.lookup key = some req := by
      rw [entered] at held
      by_cases here : key = peer
      · rw [here, AList.lookup_insert, Option.some.injEq] at held
        exact Or.inl ⟨here, held.symm⟩
      · rw [AList.lookup_insert_ne here] at held
        exact Or.inr held
    have newer {key : Peer} {req : WriteReq} (held : s.socket.write_queue_.lookup key = some req) :
        req.callback ≠ some s.socket.askedWrites := by
      obtain ⟨id, owner, issued, -⟩ := old held
      intro same
      rw [owner, Option.some.injEq] at same
      rw [booked.asked] at issued
      omega
    refine ⟨length, fun key req held => ?_, ?_, sent, told⟩
    · rcases cases_of held with ⟨-, rfl⟩ | before
      · refine ⟨s.socket.askedWrites, rfl, ?_, some_data, fun e member same => ?_, fun member => ?_⟩
        · rw [← booked.asked]
          exact List.getElem?_concat_length
        · have issued := booked.sent e member
          rw [same, booked.asked] at issued
          exact Nat.lt_irrefl _ issued
        · have issued := booked.told _ (log _ member)
          rw [booked.asked] at issued
          exact Nat.lt_irrefl _ issued
      · obtain ⟨id, owner, -, rest⟩ := old before
        exact ⟨id, owner, rest⟩
    · intro key key' req req' held held' same
      rcases cases_of held with ⟨here, rfl⟩ | before <;>
        rcases cases_of held' with ⟨here', rfl⟩ | before'
      · exact here.trans here'.symm
      · exact absurd same.symm (newer before')
      · exact absurd same (newer before)
      · exact booked.apart key key' req req' before before' same

/-- Everything but the tick of a write and the end of one. -/
theorem Booked.aside (booked : Booked s) {inner : Socket.Label} {socket : Socket}
    {transport : TcpTransport} (did : s.socket.step inner = some socket)
    (aside : inner.aside = true) : Booked { s with socket, transport } := by
  obtain ⟨queue, asked⟩ := Socket.queue_same (Socket.step_cases did).2 aside
  exact booked.kept rfl asked queue rfl fun id told =>
    Socket.ok_same did (Socket.ne_resumeWrite aside) told

theorem Step.booked (taken : Step s label next) (booked : Booked s) : Booked next := by
  cases taken with
  | binds o socket fresh did idle waits =>
      exact booked.aside did rfl
  | connects o socket fresh did idle waits =>
      exact booked.aside did rfl
  | closes socket did open_ closing =>
      exact booked.aside did rfl
  | asked _ request socket asks did same =>
      cases label with
      | write data peer =>
          cases asks
          exact booked.asked_write did
      | _ =>
          cases asks
          all_goals
            simp only [Label.data, List.append_nil]
            exact booked.aside did rfl
  | delivered reply socket idle did posted =>
      exact booked.aside did rfl
  | handled _ op transport runs idle sound did =>
      exact booked.kept rfl rfl rfl rfl fun _ told => told
  | readTurn order recv socket all did same =>
      exact booked.aside did rfl
  | readEnded order recv socket all did connected closing eof =>
      exact booked.aside did rfl
  | writeTurn send peer frames req socket top held did =>
      obtain ⟨writes, asked, turn⟩ :=
        (Step.writeTurn send peer frames req socket top held did).turn booked
      cases turn with
      | blocked nothing queue sends log =>
          exact booked.kept writes asked queue sends fun id told => log ▸ told
      | failed key req id status nothing held owner wrong queue sends log =>
          exact booked.ended writes asked held owner queue (sends.trans (List.append_nil _).symm)
            (fun _ member => absurd member List.not_mem_nil) log
      | done key req id fd n found held owner resolved out some_byte queue sends log =>
          exact booked.ended writes asked held owner queue sends
            (fun e member => by rw [List.mem_singleton.mp member]) log
  | resumed _ inner socket runs did other =>
      cases label with
      | failWrite peer =>
          cases runs
          exact booked.aside did rfl
      | resume =>
          cases runs
          exact booked.aside did rfl
      | _ => cases runs
  | suspended frames top did empty => exact booked.kept rfl rfl rfl rfl fun _ told => told

theorem booked_start : Booked {} := by
  refine ⟨rfl, fun key req held => ?_, fun key key' req req' held => ?_, fun e member => ?_,
    fun id told => ?_⟩
  · cases held
  · cases held
  · cases member
  · cases told

theorem Run.booked (run : Run labels s) : Booked s :=
  run.invariant Booked booked_start fun _ _ _ booked taken => (step_cases taken).booked booked

end Books

section Runs

variable {s next : TcpSocket} {label : Label} {labels : List Label}

/-- Steps that report no write as done and send nothing. -/
theorem AtOnce.kept (once : AtOnce s) (booked : Booked s) {more : List Buffer}
    (writes : next.writes = s.writes ++ more) (sends : next.sends = s.sends)
    (log : ∀ id, .write id .Ok ∈ next.socket.log → .write id .Ok ∈ s.socket.log) :
    AtOnce next := by
  intro id data asked told
  have before := log id told
  rw [writes, List.getElem?_append_left (booked.told id before)] at asked
  rw [sends]
  exact once id data asked before

/-- What was told and sent by a step that is no end of a write. -/
theorem Step.aside (taken : Step s label next) (other : ∀ send, label ≠ .resumeWrite send) :
    (∃ more, next.writes = s.writes ++ more) ∧ next.sends = s.sends ∧
      ∀ id, .write id .Ok ∈ next.socket.log → .write id .Ok ∈ s.socket.log := by
  have same : ∃ more, s.writes = s.writes ++ more := ⟨[], (List.append_nil _).symm⟩
  cases taken with
  | asked _ request socket asks did kept =>
      exact ⟨⟨label.data, rfl⟩, rfl, fun id told => Socket.ok_same did
        (fun _ same => by cases same) told⟩
  | handled _ op transport runs idle sound did => exact ⟨same, rfl, fun _ told => told⟩
  | writeTurn send => exact absurd rfl (other send)
  | resumed _ inner socket runs did _ =>
      refine ⟨same, rfl, fun id told => Socket.ok_same did (fun result wrong => ?_) told⟩
      rw [wrong] at runs
      cases label <;> cases runs
  | suspended frames top did empty => exact ⟨same, rfl, fun _ told => told⟩
  | binds _ _ _ did | connects _ _ _ did | closes _ did | delivered _ _ _ did
  | readTurn _ _ _ _ did | readEnded _ _ _ _ did =>
      exact ⟨same, rfl, fun id told => Socket.ok_same did (fun _ same => by cases same) told⟩

theorem Turn.atOnce {send : SendOutcome} (turn : Turn s next send)
    (writes : next.writes = s.writes) (booked : Booked s) (whole : Whole s (.resumeWrite send))
    (once : AtOnce s) : AtOnce next := by
  cases turn with
  | blocked nothing queue sends log =>
      exact once.kept booked (writes.trans (List.append_nil _).symm) sends fun id told => log ▸ told
  | failed key req id status nothing held owner wrong queue sends log =>
      refine once.kept booked (writes.trans (List.append_nil _).symm) sends fun other told => ?_
      rw [log] at told
      rcases List.mem_append.mp told with before | now
      · exact before
      · rw [List.mem_singleton, Completion.write.injEq] at now
        exact absurd now.2.symm wrong
  | done key req id fd n found held owner resolved out some_byte queue sends log =>
      obtain ⟨_, same, data, some_data, unsent, untold⟩ := booked.held key req held
      obtain rfl := Option.some.inj (owner.symm.trans same)
      have all : req.data.take n = req.data := by
        subst out
        unfold Whole at whole
        simp only [found, resolved] at whole
        exact List.take_of_length_le (whole.resolve_left some_byte)
      intro other bytes asked told
      rw [writes] at asked
      rw [sends, all]
      by_cases this : other = id
      · subst this
        obtain rfl := Option.some.inj (asked.symm.trans data)
        refine ⟨fd, s.sends, [], rfl, fun e member => ?_⟩
        rw [List.append_nil] at member
        exact unsent e member
      · have before : .write other .Ok ∈ s.socket.log := by
          rw [log] at told
          rcases List.mem_append.mp told with before | now
          · exact before
          · rw [List.mem_singleton, Completion.write.injEq] at now
            exact absurd now.1 this
        obtain ⟨fd', front, back, whole, others⟩ := once other bytes asked before
        refine ⟨fd', front, back ++ [⟨fd, id, req.data⟩], by rw [whole]; simp, fun e member => ?_⟩
        rw [← List.append_assoc] at member
        rcases List.mem_append.mp member with earlier | now
        · exact others e earlier
        · rw [List.mem_singleton.mp now]
          exact Ne.symm this

theorem Step.atOnce (taken : Step s label next) (booked : Booked s) (whole : Whole s label)
    (once : AtOnce s) : AtOnce next := by
  by_cases turns : ∃ send, label = .resumeWrite send
  · obtain ⟨send, rfl⟩ := turns
    obtain ⟨writes, -, turn⟩ := taken.turn booked
    exact turn.atOnce writes booked whole once
  · obtain ⟨⟨more, writes⟩, sends, log⟩ := taken.aside fun send same => turns ⟨send, same⟩
    exact once.kept booked writes sends log

/-- A call that accepts a part of a write. -/
theorem not_whole {n : Nat} (part : ¬ Whole s (.resumeWrite (.sent n))) :
    ∃ key req fd, current s.socket = some (key, req) ∧ s.transport.resolve key = .ok fd ∧
      n ≠ 0 ∧ n < req.data.length := by
  cases found : current s.socket with
  | none => simp only [Whole, found, not_true_eq_false] at part
  | some entry =>
      obtain ⟨key, req⟩ := entry
      cases resolved : s.transport.resolve key with
      | error status => simp only [Whole, found, resolved, not_true_eq_false] at part
      | ok fd =>
          simp only [Whole, found, resolved, not_or, not_le] at part
          exact ⟨key, req, fd, rfl, resolved, part.1, part.2⟩

/-- It is taken for the end of the write. -/
theorem Turn.not_inFull {n : Nat} (turn : Turn s next (.sent n)) (writes : next.writes = s.writes)
    (booked : Booked s) {key : Peer} {req : WriteReq} {fd : Fd}
    (found : current s.socket = some (key, req)) (resolved : s.transport.resolve key = .ok fd)
    (part : n ≠ 0 ∧ n < req.data.length) : ¬ WrittenInFull next := by
  intro full
  cases turn with
  | blocked nothing queue sends log => exact part.1 (nothing key req fd n found resolved rfl)
  | failed _ _ _ _ nothing => exact part.1 (nothing key req fd n found resolved rfl)
  | done key' req' id fd' m found' held owner resolved' out some_byte queue sends log =>
      cases out
      obtain ⟨-, rfl⟩ := Prod.mk.injEq _ _ _ _ ▸ Option.some.inj (found.symm.trans found')
      obtain ⟨_, same, data, some_data, unsent, untold⟩ := booked.held key' req held
      obtain rfl := Option.some.inj (owner.symm.trans same)
      have told : .write id .Ok ∈ next.socket.log := by
        rw [log]
        exact List.mem_append_right _ (List.mem_singleton.mpr rfl)
      have piece := full id req.data (writes ▸ data) told
      rw [sends] at piece
      have length := congrArg List.length (piece.bytes_eq unsent)
      rw [List.length_take] at length
      omega

theorem Step.not_inFull (taken : Step s label next) (booked : Booked s)
    (part : ¬ Whole s label) : ¬ WrittenInFull next := by
  cases label with
  | resumeWrite send =>
      cases send with
      | failed errno => exact absurd trivial part
      | sent n =>
          obtain ⟨writes, -, turn⟩ := taken.turn booked
          obtain ⟨key, req, fd, found, resolved, some_byte, short⟩ := not_whole part
          exact turn.not_inFull writes booked found resolved ⟨some_byte, short⟩
  | _ => exact absurd trivial part

theorem atOnce_start : AtOnce {} := by
  intro id data asked
  cases asked

theorem kept_atOnce (run : Exec (Guarded Whole (Of step)) {} labels s) : AtOnce s := by
  induction run with
  | nil => exact atOnce_start
  | snoc before taken once =>
      exact (step_cases taken.2).atOnce (Run.booked before.unguarded) taken.1 once

/-- All along a run each write that was reported as done was sent in full and in one piece, exactly
when no call accepts only a part of one. -/
theorem written_iff_whole (run : Run labels s) :
    (∀ front back middle, labels = front ++ back → Run front middle → WrittenInFull middle) ↔
      Exec (Guarded Whole (Of step)) {} labels s := by
  refine run.always_iff WrittenInFull atOnce_start.inFull ?_
  intro labels state label next guarded taken
  have booked := Run.booked guarded.unguarded
  have case := step_cases taken
  constructor
  · intro full
    by_contra part
    exact case.not_inFull booked part full
  · intro whole
    exact (case.atOnce booked whole (kept_atOnce guarded)).inFull

/-- A connected socket. -/
def connection : List Label :=
  [.connect { fd := 5 }, .resume, .connectReady 5 { hostPort := some "10.0.0.1:80" },
    .deliver (.ConnectRep .Ok), .resume]

/-- A write has to wait, and is sent when the connection is ready. -/
def secondTry : List Label :=
  connection ++ [.write [1, 2, 3] "", .resumeWrite (.failed EAGAIN), .writeReady 5,
    .deliver (.WriteReadyRep "10.0.0.1:80"), .resumeWrite (.sent 3)]

theorem written_iff_whole_secondTry :
    ∃ s, Run secondTry s ∧ .write 0 .Ok ∈ s.socket.log ∧
      ∀ front back middle, secondTry = front ++ back → Run front middle → WrittenInFull middle := by
  have runs : (Transition.run (Transition.guardedStep (fun s l => decide (Whole s l)) step) {}
      secondTry).isSome = true := by decide +kernel
  have kept := Transition.guarded_of_isSome runs
  refine ⟨_, kept.unguarded, ?_, (written_iff_whole kept.unguarded).mpr kept⟩
  clear kept
  revert runs
  decide +kernel

/-- One byte of two is accepted. -/
def halfSent : List Label := connection ++ [.write [1, 2] "", .resumeWrite (.sent 1)]

/-- The other one is never sent. -/
theorem partial_write_reported : ¬ ∀ (labels : List Label) (s : TcpSocket), Run labels s →
    WrittenInFull s := by
  intro always
  have runs : (Transition.run step {} halfSent).isSome = true := by decide +kernel
  have run := Transition.exec_of_isSome runs
  have half : ((Transition.run step {} halfSent).get runs).writes[0]? = some [1, 2] ∧
      .write 0 .Ok ∈ ((Transition.run step {} halfSent).get runs).socket.log ∧
      ((Transition.run step {} halfSent).get runs).sends = [⟨5, 0, [1]⟩] := by
    clear run always
    revert runs
    decide +kernel
  obtain ⟨data, told, sends⟩ := half
  have piece : InOnePiece ([] ++ [⟨5, 0, [1]⟩]) 0 [1, 2] :=
      sends ▸ always _ _ run 0 [1, 2] data told
  have whole := piece.bytes_eq fun e member => absurd member List.not_mem_nil
  cases whole

end Runs

end TcpSocket

end Getrafty
