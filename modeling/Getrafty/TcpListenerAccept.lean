import Getrafty.TcpListener

set_option autoImplicit false

namespace Getrafty

open Transition (Exec Of)

namespace TcpListener

/-- What `onReadable()` does that the outside notices: its callbacks, and the descriptors it
closes. -/
inductive AcceptEffect where
  | accepted (transport : Option Nat)
  | closed (fd : Nat)
  | error (err : Int)
  | failure (err : Int)
  deriving DecidableEq

/-- The result and the effects of `createTransport()`. -/
def createTransport (client_fd : Nat) (nonBlocking : Bool) : Option Nat × List AcceptEffect :=
  if nonBlocking then (some client_fd, []) else (none, [.closed client_fd])

structure AcceptTurn where
  outcome : AcceptOutcome
  effects : List AcceptEffect

/-- One turn of the loop, and whether another one follows it. -/
def acceptTurn : AcceptOutcome → List AcceptEffect × Bool
  | .failed err =>
      if err = EINTR then
        ([], true)
      else if err = EMFILE ∨ err = ENFILE ∨ err = ENOMEM ∨ err = EAGAIN ∨ err = EWOULDBLOCK then
        ([.error err], false)
      else
        ([.failure err], false)
  | .accepted client_fd nonBlocking =>
      let (transport, closed) := createTransport client_fd nonBlocking
      (closed ++ [.accepted transport], true)

/-- The loop of `onReadable()` with `left` turns ahead of it; the system answers turn `i` with
`outcomes i`. -/
def acceptLoop (outcomes : Nat → AcceptOutcome) : Nat → Nat → List AcceptTurn
  | 0, _ => []
  | left + 1, i =>
      let (effects, again) := acceptTurn (outcomes i)
      ⟨outcomes i, effects⟩ :: if again then acceptLoop outcomes left (i + 1) else []

def onReadable (outcomes : Nat → AcceptOutcome) : List AcceptTurn :=
  acceptLoop outcomes 256 0

theorem acceptLoop_succ (outcomes : Nat → AcceptOutcome) (left i : Nat) :
    acceptLoop outcomes (left + 1) i = ⟨outcomes i, (acceptTurn (outcomes i)).1⟩ ::
      if (acceptTurn (outcomes i)).2 then acceptLoop outcomes left (i + 1) else [] := rfl

section Turn

variable {err : Int}

/-- The failures that `onReadable()` calls transient. -/
def Transient (err : Int) : Prop :=
  err = EMFILE ∨ err = ENFILE ∨ err = ENOMEM ∨ err = EAGAIN ∨ err = EWOULDBLOCK

instance : DecidablePred Transient :=
  fun _ => inferInstanceAs (Decidable (_ ∨ _ ∨ _ ∨ _ ∨ _))

theorem acceptTurn_interrupted : acceptTurn (.failed EINTR) = ([], true) := rfl

theorem acceptTurn_transient (interrupted : err ≠ EINTR) (transient : Transient err) :
    acceptTurn (.failed err) = ([.error err], false) := by
  exact (if_neg interrupted).trans (if_pos transient)

theorem acceptTurn_broken (interrupted : err ≠ EINTR) (transient : ¬ Transient err) :
    acceptTurn (.failed err) = ([.failure err], false) := by
  exact (if_neg interrupted).trans (if_neg transient)

theorem acceptTurn_accepted (client_fd : Nat) :
    acceptTurn (.accepted client_fd true) = ([.accepted (some client_fd)], true) := rfl

theorem acceptTurn_refused (client_fd : Nat) :
    acceptTurn (.accepted client_fd false) = ([.closed client_fd, .accepted none], true) := rfl

/-- What a turn can do, by the outcome of `sockAccept()`. -/
inductive TurnCase : AcceptOutcome → List AcceptEffect → Bool → Prop
  | accepted (client_fd : Nat) :
      TurnCase (.accepted client_fd true) [.accepted (some client_fd)] true
  | refused (client_fd : Nat) :
      TurnCase (.accepted client_fd false) [.closed client_fd, .accepted none] true
  | interrupted : TurnCase (.failed EINTR) [] true
  | transient (err : Int) : err ≠ EINTR → Transient err →
      TurnCase (.failed err) [.error err] false
  | broken (err : Int) : err ≠ EINTR → ¬ Transient err →
      TurnCase (.failed err) [.failure err] false

theorem acceptTurn_cases (outcome : AcceptOutcome) :
    ∃ effects again, acceptTurn outcome = (effects, again) ∧ TurnCase outcome effects again := by
  cases outcome with
  | accepted client_fd nonBlocking =>
      cases nonBlocking with
      | false => exact ⟨_, _, acceptTurn_refused client_fd, .refused client_fd⟩
      | true => exact ⟨_, _, acceptTurn_accepted client_fd, .accepted client_fd⟩
  | failed err =>
      by_cases interrupted : err = EINTR
      · subst interrupted
        exact ⟨_, _, acceptTurn_interrupted, .interrupted⟩
      · by_cases transient : Transient err
        · exact ⟨_, _, acceptTurn_transient interrupted transient,
            .transient err interrupted transient⟩
        · exact ⟨_, _, acceptTurn_broken interrupted transient, .broken err interrupted transient⟩

end Turn

section Machine

/-- The callback of the owner behind an effect. -/
def AcceptEffect.callback : AcceptEffect → Option ListenerEvent
  | .accepted transport => some (.accepted transport)
  | .closed _ => none
  | .error err => some (.error err)
  | .failure err => some (.failure err)

def callbacks (turns : List AcceptTurn) : List ListenerEvent :=
  turns.flatMap fun turn => turn.effects.filterMap AcceptEffect.callback

def Label.outcome : Label → Option AcceptOutcome
  | .accept outcome => some outcome
  | _ => none

variable {s : TcpListener} {frames : List Frame}

theorem resume_callback {event : ListenerEvent} {behind : List Frame} :
    step (s.fire event behind) .resume =
      some { s with log := s.log ++ [event], stack := behind } := rfl

/-- One turn of the listener, its callback included, is one turn of the loop. -/
theorem turn_runs {left : Nat} (outcome : AcceptOutcome)
    (top : s.stack = .accept (left + 1) :: frames) :
    ∃ labels, labels.filterMap Label.outcome = [outcome] ∧
      Exec (Of step) s labels { s with
        log := s.log ++ (acceptTurn outcome).1.filterMap AcceptEffect.callback
        stack := if (acceptTurn outcome).2 then .accept left :: frames else frames } := by
  have begins : step s (.accept outcome) = some (s.accept left frames outcome) := by
    simp only [step, top]
  -- a turn with a callback takes a second step, the return from it
  have reported : ∀ event behind,
      s.accept left frames outcome = s.fire event behind →
      Exec (Of step) s [.accept outcome, .resume]
        { s with log := s.log ++ [event], stack := behind } := by
    intro event behind same
    rw [same] at begins
    exact (Exec.nil.snoc begins).snoc resume_callback
  obtain ⟨effects, again, eq, turn⟩ := acceptTurn_cases outcome
  rw [eq]
  cases turn with
  | accepted client_fd => exact ⟨[.accept _, .resume], rfl, reported _ _ rfl⟩
  | refused client_fd => exact ⟨[.accept _, .resume], rfl, reported _ _ rfl⟩
  | interrupted =>
      refine ⟨[.accept _], rfl, ?_⟩
      have silent : Exec (Of step) s [.accept (.failed EINTR)] _ := Exec.nil.snoc begins
      simpa [TcpListener.accept] using silent
  | transient err interrupted transient =>
      refine ⟨[.accept _, .resume], rfl, reported (.error err) frames ?_⟩
      exact (if_neg interrupted).trans (if_pos transient)
  | broken err interrupted transient =>
      refine ⟨[.accept _, .resume], rfl, reported (.failure err) frames ?_⟩
      exact (if_neg interrupted).trans (if_neg transient)

/-- The turns are what the listener does from the first `sockAccept()` to its return from
`onReadable()`, where the callbacks of the owner return at once. -/
theorem acceptLoop_runs (outcomes : Nat → AcceptOutcome) (left i : Nat)
    (top : s.stack = .accept left :: frames) :
    ∃ labels, labels.filterMap Label.outcome =
        (acceptLoop outcomes left i).map AcceptTurn.outcome ∧
      Exec (Of step) s labels { s with
        log := s.log ++ callbacks (acceptLoop outcomes left i)
        stack := frames } := by
  induction left generalizing s i with
  | zero =>
      have returns : step s .resume = some { s with stack := frames } := by
        simp only [step, top]
      refine ⟨[.resume], rfl, ?_⟩
      have ran : Exec (Of step) s [.resume] _ := Exec.nil.snoc returns
      simpa [acceptLoop, callbacks] using ran
  | succ left ih =>
      obtain ⟨first, asked, ran⟩ := turn_runs (outcomes i) top
      by_cases again : (acceptTurn (outcomes i)).2 = true
      · rw [if_pos again] at ran
        obtain ⟨rest, asked_rest, ran_rest⟩ := ih (s := { s with
          log := s.log ++ (acceptTurn (outcomes i)).1.filterMap AcceptEffect.callback
          stack := .accept left :: frames }) (i + 1) rfl
        refine ⟨first ++ rest, ?_, ?_⟩
        · rw [List.filterMap_append, asked, asked_rest]
          simp only [acceptLoop, if_pos again, List.map_cons, List.singleton_append]
        · have whole := ran.append ran_rest
          simpa only [acceptLoop, if_pos again, callbacks, List.flatMap_cons,
            List.append_assoc] using whole
      · rw [if_neg again] at ran
        refine ⟨first, ?_, ?_⟩
        · simp only [acceptLoop, if_neg again, asked, List.map_cons, List.map_nil]
        · simpa only [acceptLoop, if_neg again, callbacks, List.flatMap_cons, List.flatMap_nil,
            List.append_nil] using ran

end Machine

section Contract

/-- The accept queue is drained. -/
def WouldBlock (err : Int) : Prop := err = EAGAIN ∨ err = EWOULDBLOCK

instance : DecidablePred WouldBlock := fun _ => inferInstanceAs (Decidable (_ ∨ _))

/-- There was a connection to create, or none could be taken from the queue for want of
resources or because of an error. -/
def Uncreated : AcceptOutcome → Prop
  | .accepted _ nonBlocking => nonBlocking = false
  | .failed err => err ≠ EINTR ∧ ¬ WouldBlock err

def AcceptEffect.handed : AcceptEffect → Option Nat
  | .accepted transport => transport
  | _ => none

/-- The descriptors that `on_accepted_` gets. -/
def handed (turns : List AcceptTurn) : List Nat :=
  (turns.flatMap AcceptTurn.effects).filterMap AcceptEffect.handed

/-- The descriptors that `sockAccept()` returns. -/
def descriptors (turns : List AcceptTurn) : List Nat :=
  (turns.map AcceptTurn.outcome).filterMap fun
    | .accepted fd _ => some fd
    | .failed _ => none

/-- What the owner of a listener is promised about one call of `onReadable()`. -/
structure Faithful (turns : List AcceptTurn) : Prop where
  /-- A descriptor is handed over once, or closed and reported. -/
  owned : ∀ turn ∈ turns, ∀ fd nonBlocking, turn.outcome = .accepted fd nonBlocking →
    turn.effects = [.accepted (some fd)] ∨ ∃ err, turn.effects.Perm [.closed fd, .error err]
  /-- No other descriptor is handed over or closed. -/
  only : ∀ turn ∈ turns, ∀ err, turn.outcome = .failed err →
    (∀ transport, .accepted transport ∉ turn.effects) ∧ ∀ fd, .closed fd ∉ turn.effects
  /-- What is handed over comes in the order of the accepts. -/
  in_order : (handed turns).Sublist (descriptors turns)
  errors : ∀ turn ∈ turns, ∀ err, .error err ∈ turn.effects → Uncreated turn.outcome
  /-- Nothing comes behind `on_failure_`. -/
  failures : ∀ front err back, turns.flatMap AcceptTurn.effects = front ++ .failure err :: back →
    back = []

/-- Turn `k` of the call takes place. -/
def Reaches (outcomes : Nat → AcceptOutcome) (k : Nat) : Prop :=
  k < 256 ∧ ∀ j < k, match outcomes j with
    | .accepted _ _ => True
    | .failed err => err = EINTR

/-- A descriptor that could be made non-blocking, or a failure other than a drained queue. -/
def Clean : AcceptOutcome → Prop
  | .accepted _ nonBlocking => nonBlocking = true
  | .failed err => ¬ WouldBlock err

variable {outcomes : Nat → AcceptOutcome}

theorem again_iff (outcome : AcceptOutcome) :
    (acceptTurn outcome).2 = true ↔ match outcome with
      | .accepted _ _ => True
      | .failed err => err = EINTR := by
  obtain ⟨effects, again, eq, turn⟩ := acceptTurn_cases outcome
  rw [eq]
  cases turn with
  | accepted client_fd => exact iff_of_true rfl trivial
  | refused client_fd => exact iff_of_true rfl trivial
  | interrupted => exact iff_of_true rfl rfl
  | transient err interrupted transient => exact iff_of_false (by nofun) interrupted
  | broken err interrupted transient => exact iff_of_false (by nofun) interrupted

theorem mem_acceptLoop {turn : AcceptTurn} (left i : Nat) :
    turn ∈ acceptLoop outcomes left i ↔
      ∃ k, i ≤ k ∧ k < i + left ∧ (∀ j, i ≤ j → j < k → (acceptTurn (outcomes j)).2 = true) ∧
        turn = ⟨outcomes k, (acceptTurn (outcomes k)).1⟩ := by
  induction left generalizing i with
  | zero =>
      refine iff_of_false (List.not_mem_nil) ?_
      rintro ⟨k, above, below, -⟩
      omega
  | succ left ih =>
      rw [acceptLoop_succ, List.mem_cons]
      constructor
      · rintro (rfl | later)
        · exact ⟨i, le_rfl, by omega, fun j above below => absurd above (by omega), rfl⟩
        · by_cases again : (acceptTurn (outcomes i)).2 = true
          · rw [if_pos again] at later
            obtain ⟨k, above, below, before, same⟩ := (ih (i + 1)).mp later
            refine ⟨k, by omega, by omega, fun j from_i until_k => ?_, same⟩
            by_cases first : j = i
            · exact first ▸ again
            · exact before j (by omega) until_k
          · rw [if_neg again] at later
            exact absurd later List.not_mem_nil
      · rintro ⟨k, above, below, before, same⟩
        by_cases first : k = i
        · exact Or.inl (first ▸ same)
        · right
          rw [if_pos (before i le_rfl (by omega))]
          exact (ih (i + 1)).mpr
            ⟨k, by omega, by omega, fun j from_i => before j (by omega), same⟩

theorem mem_onReadable {turn : AcceptTurn} :
    turn ∈ onReadable outcomes ↔
      ∃ k, Reaches outcomes k ∧ turn = ⟨outcomes k, (acceptTurn (outcomes k)).1⟩ := by
  rw [onReadable, mem_acceptLoop]
  constructor
  · rintro ⟨k, -, below, before, same⟩
    exact ⟨k, ⟨by omega, fun j behind => (again_iff _).mp (before j (Nat.zero_le j) behind)⟩, same⟩
  · rintro ⟨k, ⟨below, before⟩, same⟩
    exact ⟨k, Nat.zero_le k, by omega, fun j _ behind => (again_iff _).mpr (before j behind), same⟩

/-- A turn that invokes `on_failure_` does nothing else and is the last. -/
theorem failure_alone {outcome : AcceptOutcome} {err : Int}
    (reported : .failure err ∈ (acceptTurn outcome).1) :
    (acceptTurn outcome).1 = [.failure err] ∧ (acceptTurn outcome).2 = false := by
  obtain ⟨effects, again, eq, turn⟩ := acceptTurn_cases outcome
  rw [eq] at reported ⊢
  cases turn with
  | accepted client_fd => simp at reported
  | refused client_fd => simp at reported
  | interrupted => simp at reported
  | transient err interrupted transient => simp at reported
  | broken _ interrupted transient =>
      rw [List.mem_singleton] at reported
      exact ⟨congrArg (fun effect => [effect]) reported.symm, rfl⟩

/-- `on_failure_` ends the loop. -/
theorem acceptLoop_failures (left i : Nat) (front : List AcceptEffect) (err : Int)
    (back : List AcceptEffect)
    (reported : (acceptLoop outcomes left i).flatMap AcceptTurn.effects =
      front ++ .failure err :: back) : back = [] := by
  induction left generalizing i front with
  | zero => simp [acceptLoop] at reported
  | succ left ih =>
      rw [acceptLoop_succ, List.flatMap_cons] at reported
      by_cases here : .failure err ∈ (acceptTurn (outcomes i)).1
      · obtain ⟨alone, final⟩ := failure_alone here
        simp only [alone, final, Bool.false_eq_true, if_false, List.flatMap_nil,
          List.append_nil] at reported
        have lengths := congrArg List.length reported
        simp only [List.length_append, List.length_cons, List.length_nil] at lengths
        exact List.length_eq_zero_iff.mp (by omega)
      · rcases List.append_eq_append_iff.mp reported with
          ⟨middle, cut, later⟩ | ⟨middle, cut, later⟩
        · by_cases again : (acceptTurn (outcomes i)).2 = true
          · rw [if_pos again] at later
            exact ih (i + 1) middle later
          · rw [if_neg again] at later
            simp at later
        · cases middle with
          | nil =>
              by_cases again : (acceptTurn (outcomes i)).2 = true
              · rw [if_pos again] at later
                exact ih (i + 1) [] later.symm
              · rw [if_neg again] at later
                simp at later
          | cons effect middle =>
              obtain ⟨rfl, -⟩ := List.cons.inj later
              refine absurd ?_ here
              show _ ∈ AcceptTurn.effects ⟨outcomes i, (acceptTurn (outcomes i)).1⟩
              rw [cut]
              exact List.mem_append_right _ List.mem_cons_self

theorem handed_cons (turn : AcceptTurn) (turns : List AcceptTurn) :
    handed (turn :: turns) = turn.effects.filterMap AcceptEffect.handed ++ handed turns := by
  simp only [handed, List.flatMap_cons, List.filterMap_append]

theorem descriptors_cons (turn : AcceptTurn) (turns : List AcceptTurn) :
    descriptors (turn :: turns) = descriptors [turn] ++ descriptors turns := by
  simp only [descriptors, ← List.filterMap_append, ← List.map_append, List.singleton_append]

/-- A turn hands over the descriptor that it has accepted, or none. -/
theorem acceptTurn_in_order (outcome : AcceptOutcome) :
    ((acceptTurn outcome).1.filterMap AcceptEffect.handed).Sublist
      (descriptors [⟨outcome, (acceptTurn outcome).1⟩]) := by
  obtain ⟨effects, again, eq, turn⟩ := acceptTurn_cases outcome
  rw [eq]
  cases turn with
  | accepted client_fd => exact List.Sublist.refl [client_fd]
  | refused client_fd => exact List.nil_sublist [client_fd]
  | interrupted => exact List.Sublist.refl []
  | transient err interrupted transient => exact List.Sublist.refl []
  | broken err interrupted transient => exact List.Sublist.refl []

theorem acceptLoop_in_order (left i : Nat) :
    (handed (acceptLoop outcomes left i)).Sublist (descriptors (acceptLoop outcomes left i)) := by
  induction left generalizing i with
  | zero => exact List.Sublist.refl []
  | succ left ih =>
      rw [acceptLoop_succ, handed_cons, descriptors_cons]
      apply (acceptTurn_in_order (outcomes i)).append
      split
      · exact ih (i + 1)
      · exact List.Sublist.refl []

/-- A turn breaks the contract exactly where it is not clean. -/
theorem clean_iff (outcome : AcceptOutcome) :
    Clean outcome ↔
      (∀ fd nonBlocking, outcome = .accepted fd nonBlocking →
        (acceptTurn outcome).1 = [.accepted (some fd)] ∨
          ∃ err, (acceptTurn outcome).1.Perm [.closed fd, .error err]) ∧
      (∀ err, outcome = .failed err →
        (∀ transport, .accepted transport ∉ (acceptTurn outcome).1) ∧
          ∀ fd, .closed fd ∉ (acceptTurn outcome).1) ∧
      ∀ err, .error err ∈ (acceptTurn outcome).1 → Uncreated outcome := by
  obtain ⟨effects, again, eq, turn⟩ := acceptTurn_cases outcome
  rw [eq]
  cases turn with
  | accepted client_fd => simp [Clean]
  | refused client_fd =>
      refine iff_of_false (by nofun) ?_
      rintro ⟨owned, -, -⟩
      rcases owned client_fd false rfl with same | ⟨err, same⟩
      · simp at same
      · have inside := same.mem_iff.mp (List.mem_cons_of_mem _ List.mem_cons_self)
        simp at inside
  | interrupted =>
      refine iff_of_true ?_ ?_
      · show ¬ WouldBlock EINTR
        decide
      · simp
  | transient err interrupted transient => simp [Clean, Uncreated, interrupted]
  | broken err interrupted transient =>
      refine iff_of_true ?_ (by simp)
      rintro (again | again)
      · exact transient (Or.inr (Or.inr (Or.inr (Or.inl again))))
      · exact transient (Or.inr (Or.inr (Or.inr (Or.inr again))))

theorem faithful_iff_clean (outcomes : Nat → AcceptOutcome) :
    Faithful (onReadable outcomes) ↔ ∀ k, Reaches outcomes k → Clean (outcomes k) := by
  constructor
  · intro faithful k reached
    have inside := mem_onReadable.mpr ⟨k, reached, rfl⟩
    exact (clean_iff _).mpr ⟨faithful.owned _ inside, faithful.only _ inside,
      faithful.errors _ inside⟩
  · intro clean
    have turn_clean : ∀ turn ∈ onReadable outcomes, turn.effects = (acceptTurn turn.outcome).1 ∧
        Clean turn.outcome := by
      intro turn inside
      obtain ⟨k, reached, rfl⟩ := mem_onReadable.mp inside
      exact ⟨rfl, clean k reached⟩
    constructor
    · intro turn inside
      obtain ⟨same, good⟩ := turn_clean turn inside
      rw [same]
      exact ((clean_iff _).mp good).1
    · intro turn inside
      obtain ⟨same, good⟩ := turn_clean turn inside
      rw [same]
      exact ((clean_iff _).mp good).2.1
    · exact acceptLoop_in_order 256 0
    · intro turn inside
      obtain ⟨same, good⟩ := turn_clean turn inside
      rw [same]
      exact ((clean_iff _).mp good).2.2
    · exact acceptLoop_failures 256 0

/-- A call of `onReadable()` keeps its contract exactly when no descriptor is refused and the
queue is not found empty. Its turns are those of a listener that has been called so. -/
theorem onReadable_faithful_iff (outcomes : Nat → AcceptOutcome) :
    (Faithful (onReadable outcomes) ↔ ∀ k, Reaches outcomes k → Clean (outcomes k)) ∧
      ∀ (s : TcpListener) (frames : List Frame), ∃ labels,
        labels.filterMap Label.outcome = (onReadable outcomes).map AcceptTurn.outcome ∧
        Exec (Of step) { s with stack := .accept 256 :: frames } labels
          { s with log := s.log ++ callbacks (onReadable outcomes), stack := frames } := by
  constructor
  · exact faithful_iff_clean outcomes
  · intro s frames
    exact acceptLoop_runs (s := { s with stack := .accept 256 :: frames }) outcomes 256 0 rfl

/-- A drained queue is reported through `on_error_`. -/
theorem onReadable_drained :
    ¬ ∀ outcomes : Nat → AcceptOutcome, Faithful (onReadable outcomes) := by
  intro always
  have faithful := always fun _ => .failed EAGAIN
  have drained : onReadable (fun _ => .failed EAGAIN) = [⟨.failed EAGAIN, [.error EAGAIN]⟩] := by
    rfl
  rw [drained] at faithful
  have uncreated := faithful.errors _ List.mem_cons_self EAGAIN List.mem_cons_self
  exact uncreated.2 (Or.inl rfl)

end Contract

end TcpListener

end Getrafty
