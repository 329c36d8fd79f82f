import Getrafty.SocketLedger

set_option autoImplicit false

namespace Getrafty

namespace Socket

section Reads

variable {s next : Socket} {label : Label} {labels : List Label}

/-- How often the callback of a read was invoked. -/
def readCalls (s : Socket) (id : Nat) : Nat := (s.answers Completion.read?).count id

/-- Each read's callback was invoked at most once, and once if it is not in `read_queue_`. -/
def ReadsAnswered (s : Socket) : Prop :=
  ∀ id < s.askedReads, s.readCalls id ≤ 1 ∧ (some id ∉ s.read_queue_ → s.readCalls id = 1)

/-- The step is no end of stream for a queued read of a connected socket. -/
def KeepsReads (s : Socket) : Label → Prop
  | .resumeRead result => ¬ (s.state_ = .Connected ∧ result.n = 0 ∧ result.status = .Eof)
  | _ => True

instance (s : Socket) : DecidablePred (KeepsReads s) :=
  fun label => match label with
    | .resumeRead _ => inferInstanceAs (Decidable (¬ (_ ∧ _ ∧ _)))
    | .request _ | .reply _ | .resumeWrite _ | .failWrite _ | .resume => isTrue trivial

/-- A queued read still has its callback. -/
def ReadsOwned (s : Socket) : Prop := ∀ req ∈ s.read_queue_, req ≠ none

theorem Step.reads_owned (taken : Step s label next) (owned : ReadsOwned s) : ReadsOwned next := by
  cases taken with
  | readAsked open_ room =>
      intro req member
      rcases List.mem_append.mp member with old | new
      · exact owned req old
      · rw [List.mem_singleton.mp new]
        exact Option.some_ne_none _
  | readAnswered result frames id queue status data top first not_eof =>
      exact fun req member => owned req (first ▸ List.mem_cons_of_mem _ member)
  | readEnded result frames req queue top first connected eof =>
      exact fun req member => owned req (first ▸ List.mem_cons_of_mem _ member)
  | readMoved result queue first =>
      exact fun req member => owned req (first ▸ List.mem_cons_of_mem _ member)
  | readFailed callback frames id queue top first =>
      exact fun req member => owned req (first ▸ List.mem_cons_of_mem _ member)
  | readSkipped callback frames queue top first =>
      exact fun req member => owned req (first ▸ List.mem_cons_of_mem _ member)
  | _ => exact owned

/-- The end of a stream forgets the read that was taken from the queue. -/
theorem Step.reads_lapse {result : ReadResult} (taken : Step s (.resumeRead result) next)
    (owned : ReadsOwned s)
    (eof : s.state_ = .Connected ∧ result.n = 0 ∧ result.status = .Eof) :
    ∃ id, Ledger.Lapse s.reads next.reads id := by
  cases taken with
  | readBlocked _ frames top blocked =>
      rw [eof.2.2] at blocked
      exact absurd blocked.2 (by decide)
  | readEnded _ frames req queue top first connected eof =>
      cases req with
      | none => exact absurd rfl (owned none (first ▸ List.mem_cons_self))
      | some id =>
          refine ⟨id, rfl, ?_, rfl⟩
          simp only [reads, first, List.reduceOption_cons_of_some]
          exact .refl _
  | readAnswered _ frames id queue status data top first not_eof => exact absurd eof not_eof
  | readMoved _ queue first => exact absurd rfl (owned none (first ▸ List.mem_cons_self))

theorem readsAnswered_iff (most : s.reads.AtMost) : ReadsAnswered s ↔ s.reads.Exact := by
  rw [most.exact_iff]
  simp only [ReadsAnswered, readCalls, reads, List.reduceOption_mem_iff]

theorem Step.reads_kept (taken : Step s label next) (kept : KeepsReads s label) :
    Ledger.Move s.reads next.reads := by
  rcases taken.reads_move with move | ⟨result, queue, req, rfl, -, -, -, -, eof⟩
  · exact move
  · exact absurd eof kept

theorem Step.reads_atMost (taken : Step s label next) (owned : ReadsOwned s)
    (most : s.reads.AtMost) : next.reads.AtMost := by
  rcases taken.reads_move with move | ⟨result, queue, req, rfl, -, -, -, -, eof⟩
  · exact move.atMost most
  · obtain ⟨id, lapse⟩ := taken.reads_lapse owned eof
    exact lapse.atMost most

theorem Run.reads_sound (run : Run labels s) : ReadsOwned s ∧ s.reads.AtMost := by
  refine run.invariant (fun s => ReadsOwned s ∧ s.reads.AtMost)
    ⟨fun req member => absurd member List.not_mem_nil, fun id => Nat.zero_le _⟩ ?_
  rintro s label next ⟨owned, most⟩ taken
  have taken := (step_cases taken).2
  exact ⟨taken.reads_owned owned, taken.reads_atMost owned most⟩

/-- Every read is answered once exactly as long as no stream ends under a queued read. -/
theorem reads_answered_iff_kept (run : Run labels s) : ReadsAnswered s ↔
    Transition.Exec (Transition.Guarded KeepsReads (Transition.Of step)) {} labels s := by
  refine run.guarded_iff ReadsAnswered nofun (fun labels s label next before taken => ?_)
  obtain ⟨owned, most⟩ := Run.reads_sound before
  have taken := (step_cases taken).2
  rw [readsAnswered_iff most, readsAnswered_iff (taken.reads_atMost owned most)]
  by_cases kept : KeepsReads s label
  · rw [(taken.reads_kept kept).exact_iff]
    exact ⟨fun exact => ⟨exact, kept⟩, And.left⟩
  · refine ⟨fun exact => ?_, fun both => absurd both.2 kept⟩
    cases label with
    | resumeRead result =>
        obtain ⟨id, lapse⟩ := taken.reads_lapse owned (not_not.mp kept)
        exact absurd exact (lapse.not_exact most)
    | _ => exact absurd trivial kept

/-- The callback of a read reads again, and nothing more comes. -/
def readAgain : List Label :=
  [.request .connect, .reply (.ConnectRep .Ok), .resume, .resume, .request .read,
    .resumeRead ⟨3, .Ok, [1, 2, 3], "peer"⟩, .request .read, .resumeRead ⟨0, .WouldBlock, [], ""⟩]

theorem reads_answered_iff_kept_readAgain :
    ∃ s, Run readAgain s ∧ s.readCalls 0 = 1 ∧ s.read_queue_ = [some 1] ∧ ReadsAnswered s := by
  have runs : (Transition.run (Transition.guardedStep
      (fun s label => decide (KeepsReads s label)) step) {} readAgain).isSome = true := by
    decide +kernel
  have kept := Transition.guarded_of_isSome runs
  have answered := (reads_answered_iff_kept kept.unguarded).mpr kept
  refine ⟨_, kept.unguarded, ?_, ?_, answered⟩ <;> clear kept answered <;> revert runs <;>
    decide +kernel

/-- The other end closes its connection while a read waits. -/
def readEndOfStream : List Label :=
  [.request .connect, .reply (.ConnectRep .Ok), .resume, .resume, .request .read,
    .resumeRead ⟨0, .Eof, [], ""⟩]

/-- The read that observes the end of the stream is dropped. -/
theorem eof_drops_read :
    ¬ ∀ (labels : List Label) (s : Socket), Run labels s → ReadsAnswered s := by
  intro answered
  have runs : (Transition.run step {} readEndOfStream).isSome = true := by decide +kernel
  have dropped := answered _ _ (Transition.exec_of_isSome runs) 0
  clear answered
  revert runs dropped
  decide +kernel

end Reads

end Socket

end Getrafty
