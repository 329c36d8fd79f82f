import Mathlib
import Getrafty.Lib.Ledger
import Getrafty.SocketSteps

set_option autoImplicit false

namespace Getrafty

namespace Completion

def bind? : Completion → Option Nat
  | .bind id _ _ => some id
  | _ => none

def connect? : Completion → Option Nat
  | .connect id _ => some id
  | _ => none

def read? : Completion → Option Nat
  | .read id _ _ _ => some id
  | _ => none

def write? : Completion → Option Nat
  | .write id _ => some id
  | _ => none

end Completion

namespace Socket

/-- The requests of one kind whose callbacks were invoked, by number. -/
def answers (s : Socket) (kind : Completion → Option Nat) : List Nat := s.log.filterMap kind

def binds (s : Socket) : Ledger :=
  ⟨s.askedBinds, s.bind_queue_.reduceOption, s.answers Completion.bind?⟩

def connects (s : Socket) : Ledger :=
  ⟨s.askedConnects, s.connect_queue_.reduceOption, s.answers Completion.connect?⟩

def reads (s : Socket) : Ledger :=
  ⟨s.askedReads, s.read_queue_.reduceOption, s.answers Completion.read?⟩

section Ledgers

variable {s next : Socket} {label : Label}

theorem answers_snoc {kind : Completion → Option Nat} (log : List Completion) {final : Completion}
    {id : Nat} (same : kind final = some id) :
    (log ++ [final]).filterMap kind = log.filterMap kind ++ [id] := by
  rw [List.filterMap_append, List.filterMap_cons_some same, List.filterMap_nil]

theorem answers_other {kind : Completion → Option Nat} (log : List Completion)
    {final : Completion} (other : kind final = none) :
    (log ++ [final]).filterMap kind = log.filterMap kind := by
  rw [List.filterMap_append, List.filterMap_cons_none other, List.filterMap_nil, List.append_nil]

theorem reduceOption_snoc (queue : List Callback) (id : Nat) :
    (queue ++ [some id]).reduceOption.Perm (id :: queue.reduceOption) := by
  rw [List.reduceOption_append]
  exact List.perm_append_singleton id _

/-- What happens to the reads in one step; only an end of stream loses one. -/
theorem Step.reads_move (taken : Step s label next) :
    Ledger.Move s.reads next.reads ∨
      ∃ result queue req, label = .resumeRead result ∧ s.read_queue_ = req :: queue ∧
        next.read_queue_ = queue ∧ next.askedReads = s.askedReads ∧ next.log = s.log ∧
        s.state_ = .Connected ∧ result.n = 0 ∧ result.status = .Eof := by
  cases taken with
  | readRejected status reason => exact .inl (.refuse rfl (.refl _) (answers_snoc _ rfl))
  | readAsked open_ room => exact .inl (.accept rfl (reduceOption_snoc ..) rfl)
  | readAnswered result frames id queue status data top first not_eof =>
      refine .inl (.answer id rfl ?_ (answers_snoc _ rfl))
      simp only [reads, first, List.reduceOption_cons_of_some]
      exact .refl _
  | readEnded result frames req queue top first connected eof =>
      exact .inr ⟨result, queue, req, rfl, first, rfl, rfl, rfl, connected, eof⟩
  | readMoved result queue first =>
      refine .inl (.rest rfl ?_ rfl)
      simp only [reads, first, List.reduceOption_cons_of_none]
      exact .refl _
  | readFailed callback frames id queue top first =>
      refine .inl (.answer id rfl ?_ (answers_snoc _ rfl))
      simp only [reads, first, List.reduceOption_cons_of_some]
      exact .refl _
  | readSkipped callback frames queue top first =>
      refine .inl (.rest rfl ?_ rfl)
      simp only [reads, first, List.reduceOption_cons_of_none]
      exact .refl _
  | _ => exact .inl (.rest rfl (.refl _) (by first | rfl | exact answers_other _ rfl))

/-- A bind is lost only where its slot was taken before it was asked for. -/
theorem Step.binds_move (taken : Step s label next)
    (fresh : s.state_ = .Idle → s.bind_queue_ = []) : Ledger.Move s.binds next.binds := by
  cases taken with
  | bindRejected busy => exact .refuse rfl (.refl _) (answers_snoc _ rfl)
  | bindAsked idle room => exact .accept rfl (reduceOption_snoc ..) rfl
  | bindFull idle full =>
      rw [fresh idle] at full
      exact absurd Nat.zero_lt_one full
  | bindReplied status endpoint id queue waits first =>
      refine .answer id rfl ?_ (answers_snoc _ rfl)
      simp only [binds, first, List.reduceOption_cons_of_some]
      exact .refl _
  | bindMoved status endpoint queue waits first =>
      refine .rest rfl ?_ rfl
      simp only [binds, first, List.reduceOption_cons_of_none]
      exact .refl _
  | bindFailed callback frames id queue top first =>
      refine .answer id rfl ?_ (answers_snoc _ rfl)
      simp only [binds, first, List.reduceOption_cons_of_some, List.reduceOption_cons_of_none]
      exact .refl _
  | bindGone callback frames queue top first =>
      refine .rest rfl ?_ rfl
      simp only [binds, first]
      exact .refl _
  | _ => exact .rest rfl (.refl _) (by first | rfl | exact answers_other _ rfl)

theorem Step.connects_move (taken : Step s label next)
    (fresh : s.state_ = .Idle → s.connect_queue_ = []) :
    Ledger.Move s.connects next.connects := by
  cases taken with
  | connectRejected busy => exact .refuse rfl (.refl _) (answers_snoc _ rfl)
  | connectAsked idle room => exact .accept rfl (reduceOption_snoc ..) rfl
  | connectFull idle full =>
      rw [fresh idle] at full
      exact absurd Nat.zero_lt_one full
  | connectReplied status id queue waits first =>
      refine .answer id rfl ?_ (answers_snoc _ rfl)
      simp only [connects, first, List.reduceOption_cons_of_some]
      exact .refl _
  | connectMoved status queue waits first =>
      refine .rest rfl ?_ rfl
      simp only [connects, first, List.reduceOption_cons_of_none]
      exact .refl _
  | connectFailed callback frames id queue top first =>
      refine .answer id rfl ?_ (answers_snoc _ rfl)
      simp only [connects, first, List.reduceOption_cons_of_some, List.reduceOption_cons_of_none]
      exact .refl _
  | connectGone callback frames queue top first =>
      refine .rest rfl ?_ rfl
      simp only [connects, first]
      exact .refl _
  | _ => exact .rest rfl (.refl _) (by first | rfl | exact answers_other _ rfl)

end Ledgers

end Socket

end Getrafty
