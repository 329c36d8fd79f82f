import Getrafty.Socket

set_option autoImplicit false

namespace Getrafty

namespace Socket

/-- Everything a step can do, with what it found before it. -/
inductive Step (s : Socket) : Label → Socket → Prop
  | bindRejected (busy : s.state_ ≠ .Idle) : Step s (.request .bind)
      { s with
        askedBinds := s.askedBinds + 1
        log := s.log ++ [.bind s.askedBinds .Fatal ""]
        stack := .user :: s.stack }
  | bindAsked (idle : s.state_ = .Idle) (room : s.bind_queue_.length < 1) : Step s (.request .bind)
      { s with
        askedBinds := s.askedBinds + 1
        state_ := .BindWait
        bind_queue_ := s.bind_queue_ ++ [some s.askedBinds]
        stack := .transport .bind :: s.stack }
  | bindFull (idle : s.state_ = .Idle) (full : ¬ s.bind_queue_.length < 1) :
      Step s (.request .bind) { s with askedBinds := s.askedBinds + 1, fault := some .pushedFull }
  | connectRejected (busy : s.state_ ≠ .Idle) : Step s (.request .connect)
      { s with
        askedConnects := s.askedConnects + 1
        log := s.log ++ [.connect s.askedConnects .Fatal]
        stack := .user :: s.stack }
  | connectAsked (idle : s.state_ = .Idle) (room : s.connect_queue_.length < 1) :
      Step s (.request .connect)
      { s with
        askedConnects := s.askedConnects + 1
        state_ := .ConnectWait
        connect_queue_ := s.connect_queue_ ++ [some s.askedConnects]
        stack := .transport .connect :: s.stack }
  | connectFull (idle : s.state_ = .Idle) (full : ¬ s.connect_queue_.length < 1) :
      Step s (.request .connect)
      { s with askedConnects := s.askedConnects + 1, fault := some .pushedFull }
  | readRejected (status : IOStatus)
      (reason : s.state_.shut = true ∨ kReadQueue ≤ s.read_queue_.length) : Step s (.request .read)
      { s with
        askedReads := s.askedReads + 1
        log := s.log ++ [.read s.askedReads status [] ""]
        stack := .user :: s.stack }
  | readAsked (open_ : s.state_.shut = false) (room : s.read_queue_.length < kReadQueue) :
      Step s (.request .read)
      { s with
        askedReads := s.askedReads + 1
        read_queue_ := s.read_queue_ ++ [some s.askedReads]
        stack := .reads :: s.stack }
  | writeRejected (data : Buffer) (peer : Peer) (status : IOStatus)
      (reason : s.state_.shut = true ∨ s.state_ = .Bound ∧ peer = "" ∨ data = []) :
      Step s (.request (.write data peer))
      { s with
        askedWrites := s.askedWrites + 1
        log := s.log ++ [.write s.askedWrites status]
        stack := .user :: s.stack }
  | writeBusy (data : Buffer) (peer : Peer) (req : WriteReq) (open_ : s.state_.shut = false)
      (addressed : s.state_ = .Bound → peer ≠ "") (some_byte : data ≠ [])
      (held : s.write_queue_.lookup peer = some req) : Step s (.request (.write data peer))
      { s with askedWrites := s.askedWrites + 1, fault := some .emptyCallback }
  | writeAsked (data : Buffer) (peer : Peer) (open_ : s.state_.shut = false)
      (addressed : s.state_ = .Bound → peer ≠ "") (some_byte : data ≠ [])
      (free : s.write_queue_.lookup peer = none) : Step s (.request (.write data peer))
      { s with
        askedWrites := s.askedWrites + 1
        write_queue_ := s.write_queue_.insert peer ⟨data, peer, some s.askedWrites⟩
        stack := .write peer :: s.stack }
  | closeAgain (shut : s.state_.shut = true) : Step s (.request .close)
      { s with
        askedCloses := s.askedCloses + 1
        log := s.log ++ [.close s.askedCloses]
        stack := .user :: s.stack }
  | closeAsked (open_ : s.state_.shut = false) : Step s (.request .close)
      { s with
        askedCloses := s.askedCloses + 1
        state_ := .CloseWait
        stack := .transport .close :: .closing .bind (some s.askedCloses) :: s.stack }
  | bindIgnored (status : IOStatus) (endpoint : Address) (other : s.state_ ≠ .BindWait) :
      Step s (.reply (.BindRep status endpoint)) s
  | connectIgnored (status : IOStatus) (other : s.state_ ≠ .ConnectWait) :
      Step s (.reply (.ConnectRep status)) s
  | bindReplied (status : IOStatus) (endpoint : Address) (id : Nat) (queue : List Callback)
      (waits : s.state_ = .BindWait) (first : s.bind_queue_ = some id :: queue) :
      Step s (.reply (.BindRep status endpoint))
      { s with
        bind_queue_ := queue
        state_ := if status = .Ok then .Bound else .Closed
        log := s.log ++ [.bind id status (if status = .Ok then endpoint else "")]
        stack := .user :: s.stack }
  | bindMoved (status : IOStatus) (endpoint : Address) (queue : List Callback)
      (waits : s.state_ = .BindWait) (first : s.bind_queue_ = none :: queue) :
      Step s (.reply (.BindRep status endpoint))
      { s with
        bind_queue_ := queue
        state_ := if status = .Ok then .Bound else .Closed
        fault := some .emptyCallback }
  | bindMissing (status : IOStatus) (endpoint : Address) (waits : s.state_ = .BindWait)
      (empty : s.bind_queue_ = []) : Step s (.reply (.BindRep status endpoint))
      { s with fault := some .assertion }
  | connectReplied (status : IOStatus) (id : Nat) (queue : List Callback)
      (waits : s.state_ = .ConnectWait) (first : s.connect_queue_ = some id :: queue) :
      Step s (.reply (.ConnectRep status))
      { s with
        connect_queue_ := queue
        state_ := if status = .Ok then .Connected else .Closed
        log := s.log ++ [.connect id status]
        stack := .user :: s.stack }
  | connectMoved (status : IOStatus) (queue : List Callback)
      (waits : s.state_ = .ConnectWait) (first : s.connect_queue_ = none :: queue) :
      Step s (.reply (.ConnectRep status))
      { s with
        connect_queue_ := queue
        state_ := if status = .Ok then .Connected else .Closed
        fault := some .emptyCallback }
  | connectMissing (status : IOStatus) (waits : s.state_ = .ConnectWait)
      (empty : s.connect_queue_ = []) : Step s (.reply (.ConnectRep status))
      { s with fault := some .assertion }
  | readReady (inline : s.stack = [] ∨ ∃ call frames, s.stack = .transport call :: frames) :
      Step s (.reply .ReadReadyRep) { s with stack := .reads :: s.stack }
  | writeReady (peer : Peer)
      (inline : s.stack = [] ∨ ∃ call frames, s.stack = .transport call :: frames) :
      Step s (.reply (.WriteReadyRep peer)) { s with stack := .write peer :: s.stack }
  | readBlocked (result : ReadResult) (frames : List SocketFrame) (top : s.stack = .reads :: frames)
      (blocked : result.n = 0 ∧ result.status = .WouldBlock) :
      Step s (.resumeRead result) { s with stack := frames }
  | readEnded (result : ReadResult) (frames : List SocketFrame) (req : Callback)
      (queue : List Callback) (top : s.stack = .reads :: frames)
      (first : s.read_queue_ = req :: queue) (connected : s.state_ = .Connected)
      (eof : result.n = 0 ∧ result.status = .Eof) : Step s (.resumeRead result)
      { s with
        read_queue_ := queue
        state_ := .CloseWait
        stack := .transport .close :: .closing .bind none :: frames }
  | readAnswered (result : ReadResult) (frames : List SocketFrame) (id : Nat)
      (queue : List Callback) (status : IOStatus) (data : Buffer) (top : s.stack = .reads :: frames)
      (first : s.read_queue_ = some id :: queue)
      (not_eof : ¬ (s.state_ = .Connected ∧ result.n = 0 ∧ result.status = .Eof)) :
      Step s (.resumeRead result)
      { s with
        read_queue_ := queue
        log := s.log ++ [.read id status data result.peer]
        stack := .user :: .reads :: frames }
  | readMoved (result : ReadResult) (queue : List Callback)
      (first : s.read_queue_ = none :: queue) :
      Step s (.resumeRead result)
      { s with read_queue_ := queue, fault := some .emptyCallback }
  | writeBlocked (result : WriteResult) (peer : Peer) (req : WriteReq) (frames : List SocketFrame)
      (top : s.stack = .write peer :: frames)
      (held : s.write_queue_.lookup (s.writeKey peer) = some req)
      (blocked : result.status = .WouldBlock) :
      Step s (.resumeWrite result)
      { s with
        write_queue_ :=
          if result.taken then s.write_queue_.replace (s.writeKey peer) { req with data := [] }
          else s.write_queue_
        stack := frames }
  | writeAnswered (result : WriteResult) (peer : Peer) (req : WriteReq) (id : Nat)
      (frames : List SocketFrame) (top : s.stack = .write peer :: frames)
      (held : s.write_queue_.lookup (s.writeKey peer) = some req) (owner : req.callback = some id)
      (final : result.status ≠ .WouldBlock) : Step s (.resumeWrite result)
      { s with
        write_queue_ := s.write_queue_.erase (s.writeKey peer)
        log := s.log ++ [.write id result.status]
        stack := .user :: frames }
  | writeMoved (result : WriteResult) (peer : Peer) (req : WriteReq) (frames : List SocketFrame)
      (top : s.stack = .write peer :: frames)
      (held : s.write_queue_.lookup (s.writeKey peer) = some req) (owner : req.callback = none) :
      Step s (.resumeWrite result)
      { s with write_queue_ := s.write_queue_.erase (s.writeKey peer), stack := frames }
  | writeFailed (peer : Peer) (left : List Peer) (callback : Callback) (frames : List SocketFrame)
      (req : WriteReq) (id : Nat) (top : s.stack = .closing (.writes left) callback :: frames)
      (among : peer ∈ left) (held : s.write_queue_.lookup peer = some req)
      (owner : req.callback = some id) : Step s (.failWrite peer)
      { s with
        log := s.log ++ [.write id .Error]
        stack := .user :: .closing (.writes (left.erase peer)) callback :: frames }
  | writeSkipped (peer : Peer) (left : List Peer) (callback : Callback) (frames : List SocketFrame)
      (top : s.stack = .closing (.writes left) callback :: frames) (among : peer ∈ left)
      (silent : ∀ req, s.write_queue_.lookup peer = some req → req.callback = none) :
      Step s (.failWrite peer)
      { s with stack := .closing (.writes (left.erase peer)) callback :: frames }
  | left (frame : SocketFrame) (frames : List SocketFrame) (top : s.stack = frame :: frames)
      (kind : frame = .user ∨ (∃ call, frame = .transport call) ∨
        frame = .reads ∧ s.read_queue_ = [] ∨
        ∃ peer, frame = .write peer ∧ s.write_queue_.lookup (s.writeKey peer) = none) :
      Step s .resume { s with stack := frames }
  | closingBind (callback : Callback) (frames : List SocketFrame)
      (top : s.stack = .closing .bind callback :: frames) (empty : s.bind_queue_ = []) :
      Step s .resume { s with stack := .closing .connect callback :: frames }
  | bindFailed (callback : Callback) (frames : List SocketFrame) (id : Nat) (queue : List Callback)
      (top : s.stack = .closing .bind callback :: frames)
      (first : s.bind_queue_ = some id :: queue) :
      Step s .resume
      { s with
        bind_queue_ := none :: queue
        log := s.log ++ [.bind id .Error ""]
        stack := .user :: .closing .connect callback :: frames }
  | bindGone (callback : Callback) (frames : List SocketFrame) (queue : List Callback)
      (top : s.stack = .closing .bind callback :: frames) (first : s.bind_queue_ = none :: queue) :
      Step s .resume { s with bind_queue_ := none :: queue, fault := some .emptyCallback }
  | closingConnect (callback : Callback) (frames : List SocketFrame)
      (top : s.stack = .closing .connect callback :: frames) (empty : s.connect_queue_ = []) :
      Step s .resume { s with stack := .closing .reads callback :: frames }
  | connectFailed (callback : Callback) (frames : List SocketFrame) (id : Nat)
      (queue : List Callback) (top : s.stack = .closing .connect callback :: frames)
      (first : s.connect_queue_ = some id :: queue) : Step s .resume
      { s with
        connect_queue_ := none :: queue
        log := s.log ++ [.connect id .Error]
        stack := .user :: .closing .reads callback :: frames }
  | connectGone (callback : Callback) (frames : List SocketFrame) (queue : List Callback)
      (top : s.stack = .closing .connect callback :: frames)
      (first : s.connect_queue_ = none :: queue) :
      Step s .resume { s with connect_queue_ := none :: queue, fault := some .emptyCallback }
  | closingReads (callback : Callback) (frames : List SocketFrame)
      (top : s.stack = .closing .reads callback :: frames) (empty : s.read_queue_ = []) :
      Step s .resume { s with stack := .closing (.writes s.write_queue_.keys) callback :: frames }
  | readFailed (callback : Callback) (frames : List SocketFrame) (id : Nat) (queue : List Callback)
      (top : s.stack = .closing .reads callback :: frames)
      (first : s.read_queue_ = some id :: queue) :
      Step s .resume
      { s with
        read_queue_ := queue
        log := s.log ++ [.read id .Error [] ""]
        stack := .user :: .closing .reads callback :: frames }
  | readSkipped (callback : Callback) (frames : List SocketFrame) (queue : List Callback)
      (top : s.stack = .closing .reads callback :: frames) (first : s.read_queue_ = none :: queue) :
      Step s .resume { s with read_queue_ := queue, stack := .closing .reads callback :: frames }
  | closingWrites (callback : Callback) (frames : List SocketFrame)
      (top : s.stack = .closing (.writes []) callback :: frames) :
      Step s .resume { s with stack := .closing .done callback :: frames }
  | closed (id : Nat) (frames : List SocketFrame)
      (top : s.stack = .closing .done (some id) :: frames) : Step s .resume
      { s with state_ := .Closed, log := s.log ++ [.close id], stack := .user :: frames }
  | closedSilently (frames : List SocketFrame) (top : s.stack = .closing .done none :: frames) :
      Step s .resume { s with state_ := .Closed, fault := some .emptyCallback }

section Inversion

variable {s next : Socket}

theorem ask_cases (s : Socket) (request : Request) : Step s (.request request) (s.ask request) := by
  cases request with
  | bind =>
      simp only [ask, tick]
      split
      · exact .bindRejected ‹_›
      · rename_i idle
        split
        · exact .bindAsked (not_not.mp idle) ‹_›
        · exact .bindFull (not_not.mp idle) ‹_›
  | connect =>
      simp only [ask, tick]
      split
      · exact .connectRejected ‹_›
      · rename_i idle
        split
        · exact .connectAsked (not_not.mp idle) ‹_›
        · exact .connectFull (not_not.mp idle) ‹_›
  | read =>
      simp only [ask, tick]
      split
      · exact .readRejected .Error (Or.inl ‹_›)
      · rename_i open_
        split
        · exact .readRejected .WouldBlock (Or.inr ‹_›)
        · rename_i room
          exact .readAsked (Bool.eq_false_iff.mpr open_) (Nat.lt_of_not_le room)
  | write data peer =>
      simp only [ask, tick]
      split
      · exact .writeRejected data peer .Error (Or.inl ‹_›)
      · rename_i open_
        split
        · exact .writeRejected data peer .Error (Or.inr (Or.inl ‹_›))
        · rename_i unaddressed
          have addressed : s.state_ = .Bound → peer ≠ "" :=
            fun bound none => unaddressed ⟨bound, none⟩
          split
          · exact .writeRejected data peer .Fatal (Or.inr (Or.inr ‹_›))
          · rename_i some_byte
            split
            · exact .writeBusy data peer _ (Bool.eq_false_iff.mpr open_) addressed some_byte ‹_›
            · exact .writeAsked data peer (Bool.eq_false_iff.mpr open_) addressed some_byte ‹_›
  | close =>
      simp only [ask, tick]
      split
      · exact .closeAgain ‹_›
      · exact .closeAsked (Bool.eq_false_iff.mpr ‹_›)

theorem reply_cases (s : Socket) (reply : Reply) (may : s.mayReply = true) :
    Step s (.reply reply) (s.tick reply.event) := by
  have inline : s.stack = [] ∨ ∃ call frames, s.stack = .transport call :: frames := by
    unfold mayReply at may
    split at may
    · exact Or.inl ‹_›
    · exact Or.inr ⟨_, _, ‹_›⟩
    · cases may
  cases reply with
  | BindRep status endpoint =>
      simp only [Reply.event, tick]
      split
      · exact .bindIgnored status endpoint ‹_›
      · rename_i waits
        split
        · exact .bindMissing status endpoint (not_not.mp waits) ‹_›
        · rename_i req queue first
          have waiting := not_not.mp waits
          cases req with
          | some id =>
              have replied := Step.bindReplied status endpoint id queue waiting first
              by_cases ok : status = .Ok
              · simpa only [fire, if_pos ok] using replied
              · simpa only [fire, if_neg ok] using replied
          | none =>
              have moved := Step.bindMoved status endpoint queue waiting first
              by_cases ok : status = .Ok
              · simpa only [fire, raise, if_pos ok] using moved
              · simpa only [fire, raise, if_neg ok] using moved
  | ConnectRep status =>
      simp only [Reply.event, tick]
      split
      · exact .connectIgnored status ‹_›
      · rename_i waits
        split
        · exact .connectMissing status (not_not.mp waits) ‹_›
        · rename_i req queue first
          cases req with
          | some id => exact .connectReplied status id queue (not_not.mp waits) first
          | none => exact .connectMoved status queue (not_not.mp waits) first
  | ReadReadyRep => exact .readReady inline
  | WriteReadyRep peer => exact .writeReady peer inline

theorem readTurn_cases (s : Socket) (req : Callback) (queue : List Callback)
    (frames : List SocketFrame) (result : ReadResult) (top : s.stack = .reads :: frames)
    (first : s.read_queue_ = req :: queue) :
    Step s (.resumeRead result) (s.readTurn req queue frames result) := by
  unfold readTurn
  split
  · rename_i none_read
    split
    · rename_i blocked
      exact .readBlocked result frames top ⟨none_read, blocked⟩
    · split
      · rename_i eof
        have opened : s.state_.shut = false := by rw [eof.2]; rfl
        simp only [tick, opened, Bool.false_eq_true, if_false]
        exact .readEnded result frames req queue top first eof.2 ⟨none_read, eof.1⟩
      · rename_i other
        cases req with
        | some id =>
            exact .readAnswered result frames id queue result.status [] top first
              (fun eof => other ⟨eof.2.2, eof.1⟩)
        | none => exact .readMoved result queue first
  · rename_i some_read
    cases req with
    | some id =>
        exact .readAnswered result frames id queue .Ok result.data top first
          (fun eof => some_read eof.2.1)
    | none => exact .readMoved result queue first

theorem writeTurn_cases (s : Socket) (peer : Peer) (req : WriteReq) (frames : List SocketFrame)
    (result : WriteResult) (top : s.stack = .write peer :: frames)
    (held : s.write_queue_.lookup (s.writeKey peer) = some req) :
    Step s (.resumeWrite result) (s.writeTurn (s.writeKey peer) req frames result) := by
  unfold writeTurn
  split
  · rename_i blocked
    exact .writeBlocked result peer req frames top held blocked
  · rename_i final
    cases owner : req.callback with
    | some id => exact .writeAnswered result peer req id frames top held owner final
    | none => exact .writeMoved result peer req frames top held owner

theorem failWrite_cases (s : Socket) (peer : Peer) (left : List Peer) (callback : Callback)
    (frames : List SocketFrame) (top : s.stack = .closing (.writes left) callback :: frames)
    (among : peer ∈ left) :
    Step s (.failWrite peer) (s.failWrite peer left callback frames) := by
  simp only [failWrite]
  split
  · rename_i req held
    cases owner : req.callback with
    | some id => exact .writeFailed peer left callback frames req id top among held owner
    | none =>
        refine .writeSkipped peer left callback frames top among (fun other same => ?_)
        rw [held, Option.some.injEq] at same
        rw [← same, owner]
  · rename_i absent
    refine .writeSkipped peer left callback frames top among (fun other same => ?_)
    rw [absent] at same
    cases same

theorem closeTurn_cases (s : Socket) (callback : Callback) (frames : List SocketFrame)
    (stage : CloseStage) (top : s.stack = .closing stage callback :: frames)
    (taken : s.closeTurn callback frames stage = some next) : Step s .resume next := by
  cases stage with
  | bind =>
      simp only [closeTurn] at taken
      split at taken <;> rw [Option.some.injEq] at taken <;> subst taken
      · exact .closingBind callback frames top ‹_›
      · rename_i req queue first
        cases req with
        | some id => exact .bindFailed callback frames id queue top first
        | none => exact .bindGone callback frames queue top first
  | connect =>
      simp only [closeTurn] at taken
      split at taken <;> rw [Option.some.injEq] at taken <;> subst taken
      · exact .closingConnect callback frames top ‹_›
      · rename_i req queue first
        cases req with
        | some id => exact .connectFailed callback frames id queue top first
        | none => exact .connectGone callback frames queue top first
  | reads =>
      simp only [closeTurn] at taken
      split at taken <;> rw [Option.some.injEq] at taken <;> subst taken
      · exact .closingReads callback frames top ‹_›
      · rename_i req queue first
        cases req with
        | some id => exact .readFailed callback frames id queue top first
        | none => exact .readSkipped callback frames queue top first
  | writes left =>
      cases left with
      | nil =>
          simp only [closeTurn, Option.some.injEq] at taken
          subst taken
          exact .closingWrites callback frames top
      | cons peer left => cases taken
  | done =>
      simp only [closeTurn, Option.some.injEq] at taken
      subst taken
      cases callback with
      | some id => exact .closed id frames top
      | none => exact .closedSilently frames top

/-- A step starts where nothing went wrong yet, and is one of the cases above. -/
theorem step_cases {label : Label} (taken : step s label = some next) :
    s.fault = none ∧ Step s label next := by
  unfold step at taken
  split at taken
  · cases taken
  · rename_i sound
    refine ⟨Option.not_isSome_iff_eq_none.mp sound, ?_⟩
    cases label with
    | request request =>
        simp only at taken
        split at taken
        · rw [Option.some.injEq] at taken
          exact taken ▸ ask_cases s request
        · cases taken
    | reply reply =>
        simp only at taken
        split at taken
        · rw [Option.some.injEq] at taken
          exact taken ▸ reply_cases s reply ‹_›
        · cases taken
    | resumeRead result =>
        simp only at taken
        split at taken
        · rw [Option.some.injEq] at taken
          exact taken ▸ readTurn_cases s _ _ _ result ‹_› ‹_›
        · cases taken
    | resumeWrite result =>
        simp only at taken
        split at taken
        · split at taken
          · rw [Option.some.injEq] at taken
            exact taken ▸ writeTurn_cases s _ _ _ result ‹_› ‹_›
          · cases taken
        · cases taken
    | failWrite peer =>
        simp only at taken
        split at taken
        · split at taken
          · rw [Option.some.injEq] at taken
            exact taken ▸ failWrite_cases s peer _ _ _ ‹_› ‹_›
          · cases taken
        · cases taken
    | resume =>
        simp only at taken
        split at taken
        · rename_i frames top
          rw [Option.some.injEq] at taken
          exact taken ▸ .left .user frames top (.inl rfl)
        · rename_i call frames top
          rw [Option.some.injEq] at taken
          exact taken ▸ .left (.transport call) frames top (.inr (.inl ⟨call, rfl⟩))
        · rename_i frames top
          split at taken
          · rename_i empty
            rw [Option.some.injEq] at taken
            exact taken ▸ .left .reads frames top (.inr (.inr (.inl ⟨rfl, empty⟩)))
          · cases taken
        · rename_i peer frames top
          split at taken
          · rename_i absent
            rw [Option.some.injEq] at taken
            exact taken ▸ .left (.write peer) frames top (.inr (.inr (.inr ⟨peer, rfl, absent⟩)))
          · cases taken
        · exact closeTurn_cases s _ _ _ ‹_› taken
        · cases taken

end Inversion

end Socket

end Getrafty
