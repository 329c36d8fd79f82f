import Getrafty.Lib.Assoc
import Getrafty.SocketStates

set_option autoImplicit false

namespace Getrafty

namespace Socket

/-- A write to this peer, if it is in the queue, was not answered by a close. -/
def pending (stage : Option CloseStage) (state_ : SocketState) (peer : Peer) : Bool :=
  match stage with
  | some (.writes left) => decide (peer ∈ left)
  | some .done => false
  | some _ => true
  | none => decide (state_ ≠ .Closed)

def owed (stage : Option CloseStage) (state_ : SocketState)
    (entry : Sigma fun _ : Peer => WriteReq) :
    Option Nat :=
  if pending stage state_ entry.1 then entry.2.callback else none

def writes (s : Socket) : Ledger :=
  ⟨s.askedWrites, s.write_queue_.entries.filterMap (owed (closeStage s.stack) s.state_),
    s.answers Completion.write?⟩

/-- Entries hold the callbacks of writes that were asked for, and a close goes through the peers
once each. -/
structure WritesOwned (s : Socket) : Prop where
  callback : ∀ entry ∈ s.write_queue_.entries, ∃ id < s.askedWrites, entry.2.callback = some id
  nodup : ∀ left, closeStage s.stack = some (.writes left) → left.Nodup

section Writes

variable {s next : Socket} {label : Label}

theorem entry_of_lookup {queue : AList (fun _ : Peer => WriteReq)} {peer : Peer} {req : WriteReq}
    (held : queue.lookup peer = some req) : ⟨peer, req⟩ ∈ queue.entries :=
  List.of_mem_dlookup held

theorem entry_of_erase {queue : AList (fun _ : Peer => WriteReq)} {peer : Peer}
    {entry : Sigma fun _ : Peer => WriteReq} (member : entry ∈ (queue.erase peer).entries) :
    entry ∈ queue.entries :=
  (List.kerase_sublist peer queue.entries).subset member

/-- A step that keeps the callbacks of the entries and the close in progress. -/
theorem WritesOwned.same (owned : WritesOwned s) (asked : s.askedWrites ≤ next.askedWrites)
    (queue : next.write_queue_ = s.write_queue_)
    (stage : closeStage next.stack = closeStage s.stack ∨
      ∀ left, closeStage next.stack ≠ some (.writes left)) : WritesOwned next := by
  constructor
  · intro entry member
    rw [queue] at member
    obtain ⟨id, issued, owner⟩ := owned.callback entry member
    exact ⟨id, Nat.lt_of_lt_of_le issued asked, owner⟩
  · intro left same
    rcases stage with stage | none
    · exact owned.nodup left (stage ▸ same)
    · exact absurd same (none left)

theorem Step.writes_owned (taken : Step s label next) (coherent : Coherent s)
    (owned : WritesOwned s) : WritesOwned next := by
  have idle (open_ : s.state_.shut = false) := coherent.no_close (ne_closeWait open_)
  cases taken with
  | writeAsked data peer open_ addressed some_byte free =>
      refine ⟨fun entry member => ?_, owned.nodup⟩
      rw [AList.entries_insert_of_notMem (AList.lookup_eq_none.mp free)] at member
      rcases List.mem_cons.mp member with here | old
      · exact ⟨s.askedWrites, Nat.lt_succ_self _, by rw [here]⟩
      · obtain ⟨id, issued, owner⟩ := owned.callback entry old
        exact ⟨id, Nat.lt_succ_of_lt issued, owner⟩
  | writeBlocked result peer req frames top held blocked =>
      refine ⟨fun entry member => ?_, fun left same => owned.nodup left (by rw [top]; exact same)⟩
      split at member
      · rcases Assoc.mem_kreplace member with old | here
        · exact owned.callback entry old
        · rw [here]
          exact owned.callback ⟨_, req⟩ (entry_of_lookup held)
      · exact owned.callback entry member
  | writeAnswered result peer req id frames top held owner final =>
      exact ⟨fun entry member => owned.callback entry (entry_of_erase member),
        fun left same => owned.nodup left (by rw [top]; exact same)⟩
  | writeMoved result peer req frames top held owner =>
      exact ⟨fun entry member => owned.callback entry (entry_of_erase member),
        fun left same => owned.nodup left (by rw [top]; exact same)⟩
  | writeFailed peer left callback frames req id top among held owner =>
      refine ⟨owned.callback, fun other same => ?_⟩
      obtain rfl := CloseStage.writes.inj (Option.some.inj same)
      exact (owned.nodup left (by rw [top]; rfl)).erase _
  | writeSkipped peer left callback frames top among silent =>
      refine ⟨owned.callback, fun other same => ?_⟩
      obtain rfl := CloseStage.writes.inj (Option.some.inj same)
      exact (owned.nodup left (by rw [top]; rfl)).erase _
  | closingReads callback frames top empty =>
      refine ⟨owned.callback, fun other same => ?_⟩
      obtain rfl := CloseStage.writes.inj (Option.some.inj same)
      exact s.write_queue_.keys_nodup
  | left frame frames top kind =>
      refine owned.same (Nat.le_refl _) rfl (Or.inl ?_)
      rw [top]
      exact (left_frame kind).1.symm
  | closed id frames top =>
      have none := (show Shape (.closing .done (some id) :: frames) from top ▸ coherent.shape).2
      exact owned.same (Nat.le_refl _) rfl (Or.inr fun left => none ▸ nofun)
  | closedSilently frames top => exact owned.same (Nat.le_refl _) rfl (Or.inl rfl)
  | closeAsked open_ =>
      exact owned.same (Nat.le_refl _) rfl (Or.inr fun left same => by cases same)
  | readEnded result frames req queue top first connected eof =>
      exact owned.same (Nat.le_refl _) rfl (Or.inr fun left same => by cases same)
  | closingBind | bindFailed | closingConnect | connectFailed | readFailed | readSkipped
  | closingWrites => exact owned.same (Nat.le_refl _) rfl (Or.inr fun left same => by cases same)
  | readBlocked result frames top blocked =>
      exact owned.same (Nat.le_refl _) rfl (Or.inl (by rw [top]; rfl))
  | readAnswered result frames id queue status data top first not_eof =>
      exact owned.same (Nat.le_refl _) rfl (Or.inl (by rw [top]; rfl))
  | writeRejected | writeBusy => exact owned.same (Nat.le_succ _) rfl (Or.inl rfl)
  | _ => exact owned.same (Nat.le_refl _) rfl (Or.inl rfl)

/-- The step neither asks for a write whose peer has one, nor settles a write of a closed socket,
nor turns a bind or connect down while writes are queued. -/
def KeepsWrites (s : Socket) : Label → Prop
  | .request (.write data peer) =>
      s.state_.shut = true ∨ s.state_ = .Bound ∧ peer = "" ∨ data = [] ∨
        s.write_queue_.lookup peer = none
  | .resumeWrite result => s.state_ = .Closed → result.status = .WouldBlock
  | .reply (.BindRep status _) =>
      s.state_ = .BindWait → status ≠ .Ok → s.write_queue_.entries = []
  | .reply (.ConnectRep status) =>
      s.state_ = .ConnectWait → status ≠ .Ok → s.write_queue_.entries = []
  | _ => True

/-- A step that leaves the writes and what they are owed as they were. -/
theorem writes_rest (asked : next.askedWrites = s.askedWrites)
    (queue : next.write_queue_ = s.write_queue_)
    (answers : next.answers Completion.write? = s.answers Completion.write?)
    (agree : ∀ entry ∈ s.write_queue_.entries,
      pending (closeStage next.stack) next.state_ entry.1 =
        pending (closeStage s.stack) s.state_ entry.1) :
    Ledger.Move s.writes next.writes := by
  refine .rest asked ?_ answers
  have same : s.write_queue_.entries.filterMap (owed (closeStage next.stack) next.state_) =
      s.write_queue_.entries.filterMap (owed (closeStage s.stack) s.state_) :=
    List.filterMap_congr fun entry member => by simp only [owed, agree entry member]
  rw [writes, writes, queue, same]

theorem pending_open {state_ : SocketState} (peer : Peer) (open_ : state_ ≠ .Closed) :
    pending none state_ peer = true := decide_eq_true open_

/-- An answered write leaves the queue. -/
theorem writes_answered {peer : Peer} {req : WriteReq} {id : Nat}
    (held : s.write_queue_.lookup peer = some req) (owner : req.callback = some id)
    (owes : pending (closeStage s.stack) s.state_ peer = true)
    (asked : next.askedWrites = s.askedWrites)
    (queue : next.write_queue_ = s.write_queue_.erase peer)
    (answers : next.answers Completion.write? = s.answers Completion.write? ++ [id])
    (state : next.state_ = s.state_) (stage : closeStage next.stack = closeStage s.stack) :
    Ledger.Move s.writes next.writes := by
  refine .answer id asked ?_ answers
  have found := Assoc.filterMap_kerase (owed (closeStage s.stack) s.state_) held
  rw [owed, if_pos owes, owner] at found
  rw [writes, writes, queue, state, stage]
  exact found

/-- A write that a close comes to is passed over from then on. -/
theorem writes_failed {peer : Peer} {req : WriteReq} {id : Nat} {left : List Peer}
    {callback : Callback} {frames : List SocketFrame} (owned : WritesOwned s)
    (top : s.stack = .closing (.writes left) callback :: frames) (among : peer ∈ left)
    (held : s.write_queue_.lookup peer = some req) (owner : req.callback = some id)
    (asked : next.askedWrites = s.askedWrites) (queue : next.write_queue_ = s.write_queue_)
    (answers : next.answers Completion.write? = s.answers Completion.write? ++ [id])
    (stage : closeStage next.stack = some (.writes (left.erase peer))) :
    Ledger.Move s.writes next.writes := by
  have nodup := owned.nodup left (by rw [top]; rfl)
  refine .answer id asked ?_ answers
  rw [writes, writes, queue, stage, top]
  have passed := @Assoc.filterMap_pass _ _ _ _ _ _ _ (owed (some (.writes left)) s.state_)
    (owed (some (.writes (left.erase peer))) next.state_) s.write_queue_.nodupKeys held
    (by simp only [owed, pending, nodup.mem_erase_iff, ne_eq, not_true_eq_false, false_and,
      decide_false, Bool.false_eq_true, if_false])
    (fun entry member other => by
      have remains : pending (some (.writes (left.erase peer))) next.state_ entry.1 =
          pending (some (.writes left)) s.state_ entry.1 :=
        decide_eq_decide.mpr (List.mem_erase_of_ne other)
      simp only [owed, remains])
  rw [owed, pending, decide_eq_true among, if_pos rfl, owner] at passed
  exact passed

/-- The stage of a close at which no write was failed yet. -/
def Unfailed (stage : CloseStage) : Prop := stage = .bind ∨ stage = .connect ∨ stage = .reads

theorem pending_unfailed {stage : CloseStage} (early : Unfailed stage) (state_ : SocketState)
    (peer : Peer) : pending (some stage) state_ peer = true := by
  rcases early with rfl | rfl | rfl <;> rfl

theorem Step.writes_kept (taken : Step s label next) (coherent : Coherent s) (bind : BindSlot s)
    (connect : ConnectSlot s) (owned : WritesOwned s) (kept : KeepsWrites s label) :
    Ledger.Move s.writes next.writes := by
  have idle (open_ : s.state_.shut = false) := coherent.no_close (ne_closeWait open_)
  -- while no write was failed, a close that goes on owes them all
  have early {stage later : CloseStage} {callback : Callback} {frames : List SocketFrame}
      (top : s.stack = .closing stage callback :: frames) (before : Unfailed stage)
      (after : Unfailed later) (peer : Peer) :
      pending (some later) s.state_ peer = pending (closeStage s.stack) s.state_ peer := by
    rw [top, pending_unfailed after]
    exact (pending_unfailed before _ _).symm
  cases taken with
  | writeRejected data peer status reason => exact .refuse rfl (.refl _) (answers_snoc _ rfl)
  | writeBusy data peer req open_ addressed some_byte held =>
      rcases kept with shut | ⟨bound, none⟩ | empty | free
      · rw [shut] at open_
        cases open_
      · exact absurd none (addressed bound)
      · exact absurd empty some_byte
      · rw [free] at held
        cases held
  | writeAsked data peer open_ addressed some_byte free =>
      refine .accept rfl ?_ rfl
      simp only [writes, AList.entries_insert_of_notMem (AList.lookup_eq_none.mp free), closeStage,
        idle open_]
      rw [List.filterMap_cons_some (b := s.askedWrites)
        (by rw [owed, pending_open peer (ne_closed open_)]; rfl)]
  | bindAsked waits room =>
      refine writes_rest rfl rfl rfl fun entry member => ?_
      simp only [closeStage, idle (waits ▸ rfl), waits]
      rfl
  | connectAsked waits room =>
      refine writes_rest rfl rfl rfl fun entry member => ?_
      simp only [closeStage, idle (waits ▸ rfl), waits]
      rfl
  | bindReplied status endpoint id queue waits first =>
      refine writes_rest rfl rfl (answers_other _ rfl) fun entry member => ?_
      simp only [closeStage, idle (waits ▸ rfl)]
      by_cases ok : status = .Ok
      · rw [if_pos ok, waits]
        rfl
      · rw [kept waits ok] at member
        cases member
  | connectReplied status id queue waits first =>
      refine writes_rest rfl rfl (answers_other _ rfl) fun entry member => ?_
      simp only [closeStage, idle (waits ▸ rfl)]
      by_cases ok : status = .Ok
      · rw [if_pos ok, waits]
        rfl
      · rw [kept waits ok] at member
        cases member
  | bindMoved status endpoint queue waits first =>
      obtain ⟨id, held⟩ := bind.waits waits
      rw [held] at first
      cases first
  | connectMoved status queue waits first =>
      obtain ⟨id, held⟩ := connect.waits waits
      rw [held] at first
      cases first
  | closeAsked open_ =>
      refine writes_rest rfl rfl rfl fun entry member => ?_
      rw [idle open_, pending_open entry.1 (ne_closed open_)]
      rfl
  | readEnded result frames req queue top first connected eof =>
      refine writes_rest rfl rfl rfl fun entry member => ?_
      rw [idle (connected ▸ rfl), connected]
      rfl
  | readBlocked result frames top blocked =>
      exact writes_rest rfl rfl rfl fun entry member => by rw [top]; rfl
  | readAnswered result frames id queue status data top first not_eof =>
      exact writes_rest rfl rfl (answers_other _ rfl) fun entry member => by rw [top]; rfl
  | writeBlocked result peer req frames top held blocked =>
      refine .rest rfl (List.Perm.of_eq ?_) rfl
      simp only [writes, top, closeStage]
      split
      · exact Assoc.filterMap_kreplace _ held rfl
      · rfl
  | writeAnswered result peer req id frames top held owner final =>
      have shape := (show Shape (.write peer :: frames) from top ▸ coherent.shape).2
      have stage : closeStage s.stack = closeStage frames := by rw [top]; rfl
      have owes : pending (closeStage s.stack) s.state_ (s.writeKey peer) = true := by
        rw [stage]
        rcases shape with none | early
        · rw [none]
          exact pending_open _ fun closed => final (kept closed)
        · rw [early]
          rfl
      exact writes_answered held owner owes rfl rfl (answers_snoc _ rfl) rfl stage.symm
  | writeMoved result peer req frames top held owner =>
      obtain ⟨id, -, same⟩ := owned.callback _ (entry_of_lookup held)
      rw [owner] at same
      cases same
  | writeFailed peer left callback frames req id top among held owner =>
      exact writes_failed owned top among held owner rfl rfl (answers_snoc _ rfl) rfl
  | writeSkipped peer left callback frames top among silent =>
      refine writes_rest rfl rfl rfl fun entry member => ?_
      rw [top]
      refine decide_eq_decide.mpr (List.mem_erase_of_ne ?_)
      rintro rfl
      obtain ⟨id, -, owner⟩ := owned.callback _ member
      have none := silent entry.2 (AList.mem_lookup_iff.mpr member)
      rw [owner] at none
      cases none
  | left frame frames top kind =>
      refine writes_rest rfl rfl rfl fun entry member => ?_
      rw [top, (left_frame kind).1]
  | closingBind callback frames top empty =>
      exact writes_rest rfl rfl rfl fun entry member =>
        early top (.inl rfl) (.inr (.inl rfl)) entry.1
  | bindFailed callback frames id queue top first =>
      exact writes_rest rfl rfl (answers_other _ rfl) fun entry member =>
        early top (.inl rfl) (.inr (.inl rfl)) entry.1
  | closingConnect callback frames top empty =>
      exact writes_rest rfl rfl rfl fun entry member =>
        early top (.inr (.inl rfl)) (.inr (.inr rfl)) entry.1
  | connectFailed callback frames id queue top first =>
      exact writes_rest rfl rfl (answers_other _ rfl) fun entry member =>
        early top (.inr (.inl rfl)) (.inr (.inr rfl)) entry.1
  | readFailed callback frames id queue top first =>
      exact writes_rest rfl rfl (answers_other _ rfl) fun entry member =>
        early top (.inr (.inr rfl)) (.inr (.inr rfl)) entry.1
  | readSkipped callback frames queue top first =>
      exact writes_rest rfl rfl rfl fun entry member =>
        early top (.inr (.inr rfl)) (.inr (.inr rfl)) entry.1
  | closingReads callback frames top empty =>
      refine writes_rest rfl rfl rfl fun entry member => ?_
      rw [top]
      exact decide_eq_true (List.mem_keys_of_mem member)
  | closingWrites callback frames top =>
      exact writes_rest rfl rfl rfl fun entry member => by rw [top]; rfl
  | closed id frames top =>
      have none := (show Shape (.closing .done (some id) :: frames) from top ▸ coherent.shape).2
      refine writes_rest rfl rfl (answers_other _ rfl) fun entry member => ?_
      simp only [closeStage, none, top]
      rfl
  | closedSilently frames top =>
      exact writes_rest rfl rfl rfl fun entry member => by rw [top]; rfl
  | _ =>
      exact writes_rest rfl rfl (by first | rfl | exact answers_other _ rfl) fun _ _ => rfl

/-- What a step does that does not keep the writes: it answers one again, forgets the callback of
one that was just asked for, or closes the socket over one that is still owed. -/
inductive WriteLoss (s : Socket) (label : Label) (next : Socket) : Prop
  | twice (id : Nat) (again : Ledger.Again s.writes next.writes id) (issued : id < s.askedWrites)
      (released : id ∉ s.writes.held)
  | forgotten (fault : next.fault ≠ none) (asked : next.askedWrites = s.askedWrites + 1)
      (queue : next.write_queue_ = s.write_queue_)
      (answers : next.answers Completion.write? = s.answers Completion.write?)
  | abandoned (id : Nat) (owed : id ∈ s.writes.held) (closed : next.state_ = .Closed)
      (asked : next.askedWrites = s.askedWrites)
      (answers : next.answers Completion.write? = s.answers Completion.write?)
      (failed : ∃ status, status ≠ .Ok ∧
        ((∃ endpoint, label = .reply (.BindRep status endpoint) ∧ s.state_ = .BindWait) ∨
          label = .reply (.ConnectRep status) ∧ s.state_ = .ConnectWait))

/-- A closed socket owes its writes nothing. -/
theorem held_of_closed (none : closeStage s.stack = none) (closed : s.state_ = .Closed) :
    s.writes.held = [] := by
  refine List.filterMap_eq_nil_iff.mpr fun entry member => ?_
  rw [none, closed]
  rfl

/-- An open socket with a queued write owes an answer. -/
theorem held_of_open (owned : WritesOwned s) (none : closeStage s.stack = none)
    (open_ : s.state_ ≠ .Closed) (queued : s.write_queue_.entries ≠ []) :
    ∃ id, id ∈ s.writes.held := by
  obtain ⟨entry, member⟩ := List.exists_mem_of_ne_nil _ queued
  obtain ⟨id, -, owner⟩ := owned.callback entry member
  refine ⟨id, List.mem_filterMap.mpr ⟨entry, member, ?_⟩⟩
  rw [owed, none, pending_open entry.1 open_, if_pos rfl, owner]

theorem Step.writes_loss (taken : Step s label next) (coherent : Coherent s) (bind : BindSlot s)
    (connect : ConnectSlot s) (owned : WritesOwned s) (broken : ¬ KeepsWrites s label) :
    WriteLoss s label next := by
  have idle (open_ : s.state_.shut = false) := coherent.no_close (ne_closeWait open_)
  cases taken with
  | writeRejected data peer status reason =>
      exact absurd (reason.imp_right (Or.imp_right Or.inl)) broken
  | writeBusy data peer req open_ addressed some_byte held =>
      exact .forgotten (Option.some_ne_none _) rfl rfl rfl
  | writeAsked data peer open_ addressed some_byte free =>
      exact absurd (Or.inr (Or.inr (Or.inr free))) broken
  | writeBlocked result peer req frames top held blocked => exact absurd (fun _ => blocked) broken
  | writeAnswered result peer req id frames top held owner final =>
      have closed : s.state_ = .Closed := by
        by_contra open_
        exact broken fun closed => absurd closed open_
      have none := coherent.no_close (by rw [closed]; decide)
      obtain ⟨other, issued, same⟩ := owned.callback _ (entry_of_lookup held)
      obtain rfl := Option.some.inj (owner.symm.trans same)
      have released := held_of_closed none closed
      refine .twice id ⟨rfl, ?_, answers_snoc _ rfl⟩ issued (released ▸ List.not_mem_nil)
      rw [released]
      rw [top] at none
      exact List.Perm.of_eq (held_of_closed none closed)
  | writeMoved result peer req frames top held owner =>
      obtain ⟨id, -, same⟩ := owned.callback _ (entry_of_lookup held)
      rw [owner] at same
      cases same
  | bindIgnored status endpoint other => exact absurd (fun waits => absurd waits other) broken
  | connectIgnored status other => exact absurd (fun waits => absurd waits other) broken
  | bindReplied status endpoint id queue waits first =>
      simp only [KeepsWrites, waits, true_implies, Classical.not_imp] at broken
      obtain ⟨id, held⟩ := held_of_open owned (idle (waits ▸ rfl)) (waits ▸ nofun) broken.2
      exact .abandoned id held (if_neg broken.1) rfl (answers_other _ rfl)
        ⟨status, broken.1, Or.inl ⟨endpoint, rfl, waits⟩⟩
  | bindMoved status endpoint queue waits first =>
      obtain ⟨id, held⟩ := bind.waits waits
      rw [held] at first
      cases first
  | bindMissing status endpoint waits empty =>
      obtain ⟨id, held⟩ := bind.waits waits
      rw [held] at empty
      cases empty
  | connectReplied status id queue waits first =>
      simp only [KeepsWrites, waits, true_implies, Classical.not_imp] at broken
      obtain ⟨id, held⟩ := held_of_open owned (idle (waits ▸ rfl)) (waits ▸ nofun) broken.2
      exact .abandoned id held (if_neg broken.1) rfl (answers_other _ rfl)
        ⟨status, broken.1, Or.inr ⟨rfl, waits⟩⟩
  | connectMoved status queue waits first =>
      obtain ⟨id, held⟩ := connect.waits waits
      rw [held] at first
      cases first
  | connectMissing status waits empty =>
      obtain ⟨id, held⟩ := connect.waits waits
      rw [held] at empty
      cases empty
  | _ => exact absurd trivial broken

theorem owned_start : WritesOwned {} :=
  ⟨fun entry member => absurd member List.not_mem_nil, fun left same => by cases same⟩

theorem Run.writes_owned {labels : List Label} (run : Run labels s) : WritesOwned s := by
  induction run with
  | nil => exact owned_start
  | snoc before taken owned =>
      obtain ⟨unharmed, taken⟩ := step_cases taken
      exact taken.writes_owned (Run.coherent before unharmed) owned

/-- How often the callback of a write was invoked. -/
def writeCalls (s : Socket) (id : Nat) : Nat := (s.answers Completion.write?).count id

/-- Each write's callback was invoked at most once, and once if it is not in `write_queue_` or the
socket is closed. -/
def WritesAnswered (s : Socket) : Prop :=
  ∀ id < s.askedWrites, s.writeCalls id ≤ 1 ∧
    ((∀ entry ∈ s.write_queue_.entries, entry.2.callback ≠ some id) → s.writeCalls id = 1) ∧
    (s.state_ = .Closed → s.writeCalls id = 1)

theorem writesAnswered_of_exact (exact : s.writes.Exact)
    (closed : s.state_ = .Closed → s.writes.held = []) : WritesAnswered s := by
  intro id asked
  refine ⟨exact.answered_le id, fun absent => exact.answered_once asked ?_, fun shut => ?_⟩
  · intro held
    obtain ⟨entry, member, owes⟩ := List.mem_filterMap.mp held
    rw [owed] at owes
    split at owes
    · exact absent entry member owes
    · cases owes
  · exact exact.answered_once asked (closed shut ▸ List.not_mem_nil)

/-- A closed socket owes its writes nothing, also where the last callback of its close was none. -/
theorem Step.held_closed (taken : Step s label next) (sound : s.fault = none)
    (coherent : Coherent s) (bind : BindSlot s) (connect : ConnectSlot s)
    (closed : next.state_ = .Closed) : next.writes.held = [] := by
  by_cases unharmed : next.fault = none
  · exact held_of_closed ((taken.coherent coherent unharmed).no_close (closed ▸ nofun)) closed
  · cases taken with
    | closedSilently frames top =>
        refine List.filterMap_eq_nil_iff.mpr fun entry member => ?_
        rw [top]
        rfl
    | bindMoved status endpoint queue waits first =>
        obtain ⟨id, held⟩ := bind.waits waits
        rw [held] at first
        cases first
    | connectMoved status queue waits first =>
        obtain ⟨id, held⟩ := connect.waits waits
        rw [held] at first
        cases first
    | bindFull | connectFull | writeBusy | bindMissing | connectMissing | readMoved | bindGone
    | connectGone =>
        have still : s.state_ = .Closed := closed
        have none := coherent.no_close (by rw [still]; decide)
        exact held_of_closed none closed
    | _ => exact absurd sound unharmed

theorem WriteLoss.not_answered (loss : WriteLoss s label next) (exact : s.writes.Exact)
    (owned : WritesOwned s) : ¬ WritesAnswered next := by
  intro answered
  cases loss with
  | twice id again issued released =>
      have calls : next.writeCalls id = 2 := again.twice exact issued released
      have asked : next.askedWrites = s.askedWrites := again.issued
      have most := (answered id (asked ▸ issued)).1
      omega
  | forgotten fault asked queue answers =>
      have absent : ∀ entry ∈ next.write_queue_.entries,
          entry.2.callback ≠ some s.askedWrites := by
        intro entry member same
        obtain ⟨id, issued, owner⟩ := owned.callback entry (queue ▸ member)
        have := Option.some.inj (owner.symm.trans same)
        omega
      have calls := (answered s.askedWrites (asked ▸ Nat.lt_succ_self _)).2.1 absent
      have weighed := exact s.askedWrites
      rw [writeCalls, answers] at calls
      simp only [Ledger.weight, Ledger.due, writes, Nat.lt_irrefl, if_false] at weighed
      omega
  | abandoned id owed closed asked answers failed =>
      obtain ⟨issued, uncalled⟩ := exact.owed owed
      have calls := (answered id (asked ▸ issued)).2.2 closed
      rw [writeCalls, answers] at calls
      exact absurd (uncalled.symm.trans calls) nofun

theorem kept_exact {labels : List Label}
    (run : Transition.Exec (Transition.Guarded KeepsWrites (Transition.Of step)) {} labels s) :
    s.writes.Exact := by
  induction run with
  | nil => exact fun _ => rfl
  | snoc before taken exact =>
      obtain ⟨kept, taken⟩ := taken
      obtain ⟨unharmed, taken⟩ := step_cases taken
      have sound := Run.sound before.unguarded
      exact (taken.writes_kept (Run.coherent before.unguarded unharmed) sound.bind_slot
        sound.connect_slot (Run.writes_owned before.unguarded) kept).exact_iff.mpr exact

/-- A write that gets as far as the queue and finds one for its peer there. -/
structure Busy (s : Socket) (data : Buffer) (peer : Peer) : Prop where
  open_ : s.state_.shut = false
  addressed : s.state_ = .Bound → peer ≠ ""
  some_byte : data ≠ []
  held : s.write_queue_.lookup peer ≠ none

/-- All along a run every write is answered once, a busy one at once and without harm to the one
before it, exactly as long as each step keeps the writes. -/
theorem writes_answered_iff_kept {labels : List Label} (run : Run labels s) :
    ((∀ front back middle, labels = front ++ back → Run front middle → WritesAnswered middle) ∧
      ∀ front back data peer middle next, labels = front ++ .request (.write data peer) :: back →
        Run front middle → Busy middle data peer →
        step middle (.request (.write data peer)) = some next →
        next.log = middle.log ++ [.write middle.askedWrites .WouldBlock] ∧
          next.write_queue_ = middle.write_queue_) ↔
    Transition.Exec (Transition.Guarded KeepsWrites (Transition.Of step)) {} labels s := by
  have always := @Transition.Exec.always_iff _ _ step KeepsWrites _ _ _ WritesAnswered
    (fun id asked => absurd asked (Nat.not_lt_zero id)) ?_ run
  · refine ⟨fun both => always.mp both.1, fun guarded => ⟨always.mpr guarded, ?_⟩⟩
    intro front back data peer middle next cut reached busy _
    subst cut
    obtain ⟨other, after, before, taken, -⟩ := guarded.at
    obtain rfl := Transition.Exec.unique before.unguarded reached
    rcases taken.1 with shut | ⟨bound, none⟩ | empty | free
    · rw [busy.open_] at shut
      cases shut
    · exact absurd none (busy.addressed bound)
    · exact absurd empty busy.some_byte
    · exact absurd free busy.held
  · intro labels s label next guarded taken
    have exact := kept_exact guarded
    have before := guarded.unguarded
    obtain ⟨unharmed, taken⟩ := step_cases taken
    have coherent := Run.coherent before unharmed
    have owned := Run.writes_owned before
    obtain ⟨bind, connect⟩ := And.intro (Run.sound before).bind_slot (Run.sound before).connect_slot
    by_cases kept : KeepsWrites s label
    · refine iff_of_true (writesAnswered_of_exact ?_ ?_) kept
      · exact (taken.writes_kept coherent bind connect owned kept).exact_iff.mpr exact
      · exact taken.held_closed unharmed coherent bind connect
    · exact iff_of_false
        ((taken.writes_loss coherent bind connect owned kept).not_answered exact owned) kept

instance (s : Socket) : DecidablePred (KeepsWrites s) :=
  fun label => match label with
    | .request (.write _ _) => inferInstanceAs (Decidable (_ ∨ (_ ∧ _) ∨ _ ∨ _))
    | .request .bind | .request .connect | .request .read | .request .close => isTrue trivial
    | .resumeWrite _ => inferInstanceAs (Decidable (_ → _))
    | .reply (.BindRep _ _) => inferInstanceAs (Decidable (_ → _ → _))
    | .reply (.ConnectRep _) => inferInstanceAs (Decidable (_ → _ → _))
    | .reply .ReadReadyRep | .reply (.WriteReadyRep _) => isTrue trivial
    | .resumeRead _ | .failWrite _ | .resume => isTrue trivial

/-- A write is sent at once, one waits for room, and one is failed by the close. -/
def threeWrites : List Label :=
  [.request .bind, .reply (.BindRep .Ok "0.0.0.0:1"), .resume, .resume,
    .request (.write [1] "a"), .resumeWrite ⟨1, .Ok, false⟩, .resume,
    .request (.write [2] "a"), .resumeWrite ⟨0, .WouldBlock, false⟩,
    .request (.write [3] "b"), .resumeWrite ⟨0, .WouldBlock, false⟩,
    .reply (.WriteReadyRep "a"), .resumeWrite ⟨1, .Ok, false⟩, .resume,
    .request .close, .resume, .resume, .resume, .resume, .failWrite "b", .resume, .resume,
    .resume, .resume]

theorem writes_answered_iff_kept_threeWrites :
    ∃ s, Run threeWrites s ∧ s.state_ = .Closed ∧ s.writeCalls 2 = 1 ∧ WritesAnswered s := by
  have runs : (Transition.run (Transition.guardedStep
      (fun s label => decide (KeepsWrites s label)) step) {} threeWrites).isSome = true := by
    decide +kernel
  have kept := Transition.guarded_of_isSome runs
  have answered := ((writes_answered_iff_kept kept.unguarded).mpr kept).1 threeWrites [] _
    (List.append_nil _).symm kept.unguarded
  refine ⟨_, kept.unguarded, ?_, ?_, answered⟩ <;> clear kept answered <;> revert runs <;>
    decide +kernel

/-- A write waits for room, the socket is closed, and its readiness was reported meanwhile. -/
def writableAfterClose : List Label :=
  [.request .bind, .reply (.BindRep .Ok "0.0.0.0:1"), .resume, .resume,
    .request (.write [1] "a"), .resumeWrite ⟨0, .WouldBlock, false⟩,
    .request .close, .resume, .resume, .resume, .resume, .failWrite "a", .resume, .resume,
    .resume, .resume, .reply (.WriteReadyRep "a"), .resumeWrite ⟨2 ^ 64 - 1, .Fatal, false⟩]

/-- The close leaves the write in the queue, with its callback, and it is answered again. -/
theorem closed_write_answered_twice :
    ¬ ∀ (labels : List Label) (s : Socket), Run labels s → WritesAnswered s := by
  intro answered
  have runs : (Transition.run step {} writableAfterClose).isSome = true := by decide +kernel
  have once := answered _ _ (Transition.exec_of_isSome runs) 0
  clear answered
  revert runs once
  decide +kernel

end Writes

end Socket

end Getrafty
