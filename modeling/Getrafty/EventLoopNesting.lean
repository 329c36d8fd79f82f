import Getrafty.EventLoop

set_option autoImplicit false

namespace Getrafty

open Transition (Exec Of Guarded)

def kMaxEpollRetries : Nat := 1 <<< 2

/-- Where a call of `loop()` is: at its retries, at the head of its `for` loop, or behind the
first of the two checks of an event. -/
inductive LoopPos where
  | polling (retry : Nat)
  | turn (i : Nat)
  | errWriter (i fd : Nat)
  | writer (i fd : Nat)
  deriving DecidableEq

/-- A call of `loop()`: its watcher, what `self(this)` returned to it, what `epoll_impl_` returned
to it, the events it has come to, and whether a callback of it is running. -/
structure LoopCall where
  ew : Nat
  prev : Option Nat
  own : List ReadyEvent := []
  seen : List ReadyEvent := []
  pos : LoopPos := .polling 0
  running : Bool := false
  deriving DecidableEq

/-- A call that returned: the current watcher before and behind it, and its events. -/
structure LoopReturn where
  before : Option Nat
  behind : Option Nat
  own : List ReadyEvent
  seen : List ReadyEvent
  deriving DecidableEq

/-- One thread: `curr_`, the array `events` that all calls of `loop()` on it share, the bits that
its watchers hold for their descriptors, and its calls of `loop()`, innermost first. -/
structure LoopThread where
  curr_ : Option Nat := none
  events : Nat → ReadyEvent := fun _ => ⟨0, 0⟩
  bitmask : Nat → Nat → BitVec 32 := fun _ _ => 0
  calls : List LoopCall := []
  returns : List LoopReturn := []
  aborted : Bool := false

/-- What happens on the thread. `loop` and `register` are user code, `done` is the end of a
callback. -/
inductive ThreadLabel where
  | loop (ew : Nat)
  | interrupted
  | failed
  | ready (events : List ReadyEvent)
  | turn
  | register (ew fd : Nat) (bits : BitVec 32)
  | done
  deriving DecidableEq

namespace LoopThread

/-- No call of `loop()`, or a callback of the innermost one. -/
def userRuns (t : LoopThread) : Bool :=
  match t.calls with
  | [] => true
  | call :: _ => call.running

/-- `return` without a look at `curr_`. -/
def ret (t : LoopThread) (call : LoopCall) (rest : List LoopCall) : LoopThread :=
  { t with
    calls := rest
    returns := t.returns ++ [⟨call.prev, t.curr_, call.own, call.seen⟩] }

/-- `assert(self(ew) == this)` and the end of the function. -/
def leave (asserts : Bool) (t : LoopThread) (call : LoopCall) (rest : List LoopCall) : LoopThread :=
  if asserts then
    ret { t with curr_ := call.prev, aborted := t.curr_ != some call.ew } call rest
  else
    t.ret call rest

/-- What `epoll_impl_` writes to the front of the array. -/
def fill (t : LoopThread) (events : List ReadyEvent) : Nat → ReadyEvent :=
  fun i => (events[i]?).getD (t.events i)

/-- `if ((entry.bitmask_ & flag) != 0) handleCallback(...)`. -/
def check (t : LoopThread) (flag : WatchFlag) (fd : Nat) (call : LoopCall) : LoopCall :=
  { call with running := t.bitmask call.ew fd &&& flag.bits ≠ 0 }

/-- The next part of the `for` loop; `event` is read from the array each time. -/
def turn (asserts : Bool) (t : LoopThread) (call : LoopCall) (rest : List LoopCall) :
    Option LoopThread :=
  match call.pos with
  | .polling _ => none
  | .turn i =>
      if i < call.own.length then
        let event := t.events i
        let call := { call with seen := call.seen ++ [event] }
        let next :=
          if event.events &&& brokenMask ≠ 0 then
            t.check .RDONLY event.fd { call with pos := .errWriter i event.fd }
          else if event.events &&& WatchFlag.bits .RDONLY ≠ 0 then
            t.check .RDONLY event.fd { call with pos := .writer i event.fd }
          else
            { call with pos := .writer i event.fd }
        some { t with calls := next :: rest }
      else
        some (t.leave asserts call rest)
  | .errWriter i fd =>
      some { t with calls := t.check .WRONLY fd { call with pos := .turn (i + 1) } :: rest }
  | .writer i fd =>
      let next :=
        if (t.events i).events &&& WatchFlag.bits .WRONLY ≠ 0 then
          t.check .WRONLY fd { call with pos := .turn (i + 1) }
        else
          { call with pos := .turn (i + 1) }
      some { t with calls := next :: rest }

/-- `asserts` says whether assertions are compiled in; behind a failed one nothing happens. -/
def step (asserts : Bool) (t : LoopThread) (label : ThreadLabel) : Option LoopThread :=
  if t.aborted then
    none
  else
    match label with
    | .loop ew =>
        if t.userRuns then
          some { t with curr_ := some ew, calls := { ew, prev := t.curr_ } :: t.calls }
        else
          none
    | .interrupted =>
        match t.calls with
        | call :: rest =>
            match call.pos with
            | .polling retry =>
                if retry + 1 < kMaxEpollRetries then
                  some { t with calls := { call with pos := .polling (retry + 1) } :: rest }
                else
                  some (t.ret call rest)
            | _ => none
        | [] => none
    | .failed =>
        match t.calls with
        | call :: rest =>
            match call.pos with
            | .polling _ => some (t.ret call rest)
            | _ => none
        | [] => none
    | .ready events =>
        match t.calls with
        | call :: rest =>
            match call.pos with
            | .polling _ =>
                if events.length ≤ kMaxEvents then
                  some { t with
                    events := t.fill events
                    calls := { call with own := events, pos := .turn 0 } :: rest }
                else
                  none
            | _ => none
        | [] => none
    | .turn =>
        match t.calls with
        | call :: rest => if call.running then none else t.turn asserts call rest
        | [] => none
    | .register ew fd bits =>
        if t.userRuns then
          some { t with
            bitmask := Function.update t.bitmask ew (Function.update (t.bitmask ew) fd bits) }
        else
          none
    | .done =>
        match t.calls with
        | call :: rest =>
            if call.running then some { t with calls := { call with running := false } :: rest }
            else none
        | [] => none

def Run (asserts : Bool) (labels : List ThreadLabel) (t : LoopThread) : Prop :=
  Exec (Of (step asserts)) {} labels t

end LoopThread

namespace LoopCall

/-- The call has come to its own events in order, and finds the others in the array. -/
def Holds (call : LoopCall) (events : Nat → ReadyEvent) : Prop :=
  match call.pos with
  | .polling _ => call.own = [] ∧ call.seen = []
  | .turn i => call.seen = call.own.take i ∧
      ∀ j, i ≤ j → j < call.own.length → call.own[j]? = some (events j)
  | .errWriter i _ => call.seen = call.own.take (i + 1) ∧
      ∀ j, i < j → j < call.own.length → call.own[j]? = some (events j)
  | .writer i _ => call.seen = call.own.take (i + 1) ∧
      (call.own[i]?).map (·.events) = some (events i).events ∧
      ∀ j, i < j → j < call.own.length → call.own[j]? = some (events j)

/-- An event in this slot of the array does not disturb the call. -/
def Spares (call : LoopCall) (j : Nat) (event : ReadyEvent) : Prop :=
  match call.pos with
  | .polling _ => True
  | .turn i => i ≤ j → j < call.own.length → call.own[j]? = some event
  | .errWriter i _ => i < j → j < call.own.length → call.own[j]? = some event
  | .writer i _ =>
      (j = i → (call.own[j]?).map (·.events) = some event.events) ∧
        (i < j → j < call.own.length → call.own[j]? = some event)

instance (call : LoopCall) (j : Nat) (event : ReadyEvent) : Decidable (call.Spares j event) := by
  unfold Spares
  cases call.pos <;> infer_instance

/-- The next interruption is the last. -/
def lastRetry (call : LoopCall) : Bool :=
  match call.pos with
  | .polling retry => kMaxEpollRetries ≤ retry + 1
  | _ => false

/-- The `for` loop is over. -/
def atEnd (call : LoopCall) : Bool :=
  match call.pos with
  | .turn i => call.own.length ≤ i
  | _ => false

end LoopCall

namespace LoopThread

/-- Every call that returned left the current watcher as it was and came to exactly its own events;
every call that goes on has its events still before it. -/
structure Transparent (t : LoopThread) : Prop where
  restored : ∀ r ∈ t.returns, r.behind = r.before
  exact : ∀ r ∈ t.returns, r.seen = r.own
  holds : ∀ call ∈ t.calls, call.Holds t.events
  intact : t.aborted = false

/-- A call that cannot poll, or that ends without assertions, is nested in one of the same watcher;
and what `epoll_impl_` returns to a nested call lies in slots that the calls around it are done
with, or is what they have there. -/
def KeepsOuter (asserts : Bool) (t : LoopThread) : ThreadLabel → Prop
  | .interrupted => ∀ call ∈ t.calls.head?, call.lastRetry = true → call.prev = t.curr_
  | .failed => ∀ call ∈ t.calls.head?, call.prev = t.curr_
  | .ready events => ∀ call ∈ t.calls.tail, ∀ j, (inside : j < events.length) →
      call.Spares j (events.get ⟨j, inside⟩)
  | .turn => ∀ call ∈ t.calls.head?, call.atEnd = true → asserts = true ∨ call.prev = t.curr_
  | .loop _ | .register _ _ _ | .done => True

instance (asserts : Bool) (t : LoopThread) (label : ThreadLabel) :
    Decidable (t.KeepsOuter asserts label) :=
  match label with
  | .interrupted => inferInstanceAs (Decidable (∀ _ ∈ _, _ → _))
  | .failed => inferInstanceAs (Decidable (∀ _ ∈ _, _))
  | .ready _ => inferInstanceAs (Decidable (∀ _ ∈ _, ∀ _, ∀ _ : _ < _, LoopCall.Spares _ _ _))
  | .turn => inferInstanceAs (Decidable (∀ _ ∈ _, _ → _))
  | .loop _ | .register _ _ _ | .done => isTrue trivial

/-- The current watcher is that of the innermost call, which returns to that of the call around
it. -/
def Chained : Option Nat → List LoopCall → Prop
  | curr, [] => curr = none
  | curr, call :: rest => curr = some call.ew ∧ Chained call.prev rest

section Steps

variable {t t' : LoopThread} {call : LoopCall} {rest : List LoopCall} {asserts : Bool}

/-- A call that has seen its own events leaves the rest transparent if it leaves `curr_` so. -/
theorem ret_transparent (transparent : Transparent t) (calls : t.calls = call :: rest)
    (seen : call.seen = call.own) : Transparent (t.ret call rest) ↔ call.prev = t.curr_ := by
  constructor
  · intro after
    have last := after.restored ⟨call.prev, t.curr_, call.own, call.seen⟩
      (List.mem_append_right _ (List.mem_singleton.mpr rfl))
    exact last.symm
  · intro same
    refine ⟨fun r member => ?_, fun r member => ?_, fun other member => ?_, transparent.intact⟩
    · rcases List.mem_append.mp member with earlier | last
      · exact transparent.restored r earlier
      · rw [List.mem_singleton.mp last]
        exact same.symm
    · rcases List.mem_append.mp member with earlier | last
      · exact transparent.exact r earlier
      · rw [List.mem_singleton.mp last]
        exact seen
    · exact transparent.holds other (calls ▸ List.mem_cons_of_mem call member)

/-- The innermost call goes on. -/
theorem advance_transparent (transparent : Transparent t) (calls : t.calls = call :: rest)
    {next : LoopCall} (holds : next.Holds t.events) :
    Transparent { t with calls := next :: rest } := by
  refine ⟨transparent.restored, transparent.exact, fun other member => ?_, transparent.intact⟩
  rcases List.mem_cons.mp member with rfl | member
  · exact holds
  · exact transparent.holds other (calls ▸ List.mem_cons_of_mem call member)

/-- New events in the array leave a call undisturbed exactly when each of them spares it. -/
theorem holds_fill (t : LoopThread) (events : List ReadyEvent) (holds : call.Holds t.events) :
    call.Holds (t.fill events) ↔
      ∀ j, (inside : j < events.length) → call.Spares j (events.get ⟨j, inside⟩) := by
  have new {j : Nat} (inside : j < events.length) :
      t.fill events j = events.get ⟨j, inside⟩ := by
    rw [fill, List.getElem?_eq_getElem inside]
    rfl
  have old {j : Nat} (outside : ¬ j < events.length) : t.fill events j = t.events j := by
    rw [fill, List.getElem?_eq_none (Nat.le_of_not_lt outside)]
    rfl
  unfold LoopCall.Holds at holds ⊢
  unfold LoopCall.Spares
  cases pos : call.pos with
  | polling retry =>
      rw [pos] at holds
      exact ⟨fun _ _ _ => trivial, fun _ => holds⟩
  | turn i =>
      rw [pos] at holds
      constructor
      · intro filled j inside from_ below
        rw [← new inside]
        exact filled.2 j from_ below
      · intro spares
        refine ⟨holds.1, fun j from_ below => ?_⟩
        by_cases inside : j < events.length
        · rw [new inside]
          exact spares j inside from_ below
        · rw [old inside]
          exact holds.2 j from_ below
  | errWriter i fd =>
      rw [pos] at holds
      constructor
      · intro filled j inside behind below
        rw [← new inside]
        exact filled.2 j behind below
      · intro spares
        refine ⟨holds.1, fun j behind below => ?_⟩
        by_cases inside : j < events.length
        · rw [new inside]
          exact spares j inside behind below
        · rw [old inside]
          exact holds.2 j behind below
  | writer i fd =>
      rw [pos] at holds
      constructor
      · intro filled j inside
        refine ⟨fun same => ?_, fun behind below => ?_⟩
        · rw [← new inside, same]
          exact filled.2.1
        · rw [← new inside]
          exact filled.2.2 j behind below
      · intro spares
        refine ⟨holds.1, ?_, fun j behind below => ?_⟩
        · by_cases inside : i < events.length
          · rw [new inside]
            exact (spares i inside).1 rfl
          · rw [old inside]
            exact holds.2.1
        · by_cases inside : j < events.length
          · rw [new inside]
            exact (spares j inside).2 behind below
          · rw [old inside]
            exact holds.2.2 j behind below

theorem take_snoc {events : List ReadyEvent} {i : Nat} {event : ReadyEvent}
    (here : events[i]? = some event) : events.take i ++ [event] = events.take (i + 1) := by
  rw [List.take_add_one, here]
  rfl

/-- A turn of the `for` loop that is not its end. -/
theorem turn_within (transparent : Transparent t) (chained : Chained t.curr_ t.calls)
    (calls : t.calls = call :: rest) (within : call.atEnd = false)
    (taken : t.turn asserts call rest = some t') : Transparent t' ∧ Chained t'.curr_ t'.calls := by
  have holds := transparent.holds call (calls ▸ List.mem_cons_self)
  rw [calls] at chained
  have chain (next : LoopCall) (ew : next.ew = call.ew) (prev : next.prev = call.prev) :
      Chained t.curr_ (next :: rest) := by
    rw [Chained, ew, prev]
    exact chained
  unfold turn at taken
  unfold LoopCall.atEnd at within
  cases pos : call.pos with
  | polling retry =>
      rw [pos] at taken
      cases taken
  | turn i =>
      rw [pos] at taken within
      have inside : i < call.own.length := by simpa using within
      simp only [LoopCall.Holds, pos] at holds
      obtain ⟨seen, left⟩ := holds
      have here := left i (Nat.le_refl i) inside
      have seen' : call.seen ++ [t.events i] = call.own.take (i + 1) := by
        rw [seen]
        exact take_snoc here
      have behind (j : Nat) (after : i < j) (below : j < call.own.length) :=
        left j (Nat.le_of_lt after) below
      have mask : (call.own[i]?).map (·.events) = some (t.events i).events := by
        rw [here]
        rfl
      simp only [inside, ↓reduceIte, Option.some.injEq] at taken
      rw [← taken]
      split
      · exact ⟨advance_transparent transparent calls ⟨seen', behind⟩, chain _ rfl rfl⟩
      · split
        · exact ⟨advance_transparent transparent calls ⟨seen', mask, behind⟩, chain _ rfl rfl⟩
        · exact ⟨advance_transparent transparent calls ⟨seen', mask, behind⟩, chain _ rfl rfl⟩
  | errWriter i fd =>
      rw [pos] at taken
      simp only [LoopCall.Holds, pos] at holds
      obtain rfl := Option.some.inj taken
      exact ⟨advance_transparent transparent calls holds, chain _ rfl rfl⟩
  | writer i fd =>
      rw [pos] at taken
      simp only [LoopCall.Holds, pos] at holds
      obtain rfl := Option.some.inj taken
      have next : LoopCall.Holds { call with pos := .turn (i + 1) } t.events :=
        ⟨holds.1, holds.2.2⟩
      split
      · exact ⟨advance_transparent transparent calls next, chain _ rfl rfl⟩
      · exact ⟨advance_transparent transparent calls next, chain _ rfl rfl⟩

/-- The end of the `for` loop, and of the call. -/
theorem turn_end (transparent : Transparent t) (chained : Chained t.curr_ t.calls)
    (calls : t.calls = call :: rest) (ends : call.atEnd = true)
    (taken : t.turn asserts call rest = some t') :
    (Transparent t' ↔ asserts = true ∨ call.prev = t.curr_) ∧
      (asserts = true ∨ call.prev = t.curr_ → Chained t'.curr_ t'.calls) := by
  have holds := transparent.holds call (calls ▸ List.mem_cons_self)
  rw [calls] at chained
  unfold LoopCall.atEnd at ends
  unfold turn at taken
  cases pos : call.pos with
  | turn i =>
      rw [pos] at taken ends
      have beyond : call.own.length ≤ i := by simpa using ends
      simp only [LoopCall.Holds, pos] at holds
      have seen : call.seen = call.own := by
        rw [holds.1, List.take_of_length_le beyond]
      simp only [Nat.not_lt.mpr beyond, ↓reduceIte, Option.some.injEq] at taken
      rw [← taken, leave]
      cases asserts with
      | true =>
          have intact : (t.curr_ != some call.ew) = false := by
            rw [chained.1, bne_self_eq_false]
          have restored : Transparent { t with
              curr_ := call.prev, aborted := t.curr_ != some call.ew } := by
            refine ⟨transparent.restored, transparent.exact, transparent.holds, intact⟩
          have after := (ret_transparent (t := { t with
            curr_ := call.prev, aborted := t.curr_ != some call.ew }) restored calls seen).mpr rfl
          exact ⟨⟨fun _ => Or.inl rfl, fun _ => after⟩, fun _ => chained.2⟩
      | false =>
          have after := ret_transparent transparent calls seen
          rw [if_neg Bool.false_ne_true, after]
          refine ⟨⟨Or.inr, fun either => either.resolve_left Bool.false_ne_true⟩, fun either => ?_⟩
          have same := either.resolve_left Bool.false_ne_true
          show Chained t.curr_ rest
          rw [← same]
          exact chained.2
  | polling retry =>
      rw [pos] at ends
      cases ends
  | errWriter i fd =>
      rw [pos] at ends
      cases ends
  | writer i fd =>
      rw [pos] at ends
      cases ends

theorem ret_chained (chained : Chained t.curr_ t.calls) (calls : t.calls = call :: rest)
    (same : call.prev = t.curr_) : Chained (t.ret call rest).curr_ (t.ret call rest).calls := by
  rw [calls] at chained
  show Chained t.curr_ rest
  rw [← same]
  exact chained.2

/-- A poll that ends the call. -/
theorem poll_ends {retry : Nat} (transparent : Transparent t) (chained : Chained t.curr_ t.calls)
    (calls : t.calls = call :: rest) (pos : call.pos = .polling retry) :
    (Transparent (t.ret call rest) ↔ call.prev = t.curr_) ∧
      (call.prev = t.curr_ → Chained (t.ret call rest).curr_ (t.ret call rest).calls) := by
  have holds := transparent.holds call (calls ▸ List.mem_cons_self)
  simp only [LoopCall.Holds, pos] at holds
  exact ⟨ret_transparent transparent calls (holds.2.trans holds.1.symm), ret_chained chained calls⟩

/-- A poll that returns events. -/
theorem poll_ready {retry : Nat} (transparent : Transparent t) (calls : t.calls = call :: rest)
    (pos : call.pos = .polling retry) (events : List ReadyEvent) :
    Transparent { t with
        events := t.fill events
        calls := { call with own := events, pos := .turn 0 } :: rest } ↔
      ∀ other ∈ rest, ∀ j, (inside : j < events.length) →
        other.Spares j (events.get ⟨j, inside⟩) := by
  have holds := transparent.holds call (calls ▸ List.mem_cons_self)
  simp only [LoopCall.Holds, pos] at holds
  have around (other : LoopCall) (member : other ∈ rest) :=
    holds_fill t events (transparent.holds other (calls ▸ List.mem_cons_of_mem _ member))
  have own : LoopCall.Holds { call with own := events, pos := .turn 0 } (t.fill events) := by
    refine ⟨holds.2, fun j _ below => ?_⟩
    rw [fill]
    rw [List.getElem?_eq_getElem below]
    rfl
  constructor
  · intro after other member
    exact (around other member).mp (after.holds other (List.mem_cons_of_mem _ member))
  · intro spares
    refine ⟨transparent.restored, transparent.exact, fun other member => ?_, transparent.intact⟩
    rcases List.mem_cons.mp member with rfl | member
    · exact own
    · exact (around other member).mpr (spares other member)

theorem forall_head {calls : List LoopCall} {holds : LoopCall → Prop} (eq : calls = call :: rest) :
    (∀ other ∈ calls.head?, holds other) ↔ holds call := by
  rw [eq, List.head?_cons]
  simp only [Option.mem_def, Option.some.injEq, forall_eq']

/-- A step from a transparent state leads to one exactly when its guard holds. -/
theorem step_transparent {label : ThreadLabel} (transparent : Transparent t)
    (chained : Chained t.curr_ t.calls) (taken : step asserts t label = some t') :
    (Transparent t' ↔ t.KeepsOuter asserts label) ∧
      (t.KeepsOuter asserts label → Chained t'.curr_ t'.calls) := by
  have running : ¬ t.aborted = true := by
    rw [transparent.intact]
    exact Bool.false_ne_true
  unfold step at taken
  rw [if_neg running] at taken
  cases label with
  | loop ew =>
      obtain ⟨-, ⟨⟩⟩ := Option.ite_none_right_eq_some.mp taken
      refine ⟨⟨fun _ => trivial, fun _ => ?_⟩, fun _ => ⟨rfl, chained⟩⟩
      refine ⟨transparent.restored, transparent.exact, fun call member => ?_, transparent.intact⟩
      rcases List.mem_cons.mp member with rfl | member
      · exact ⟨rfl, rfl⟩
      · exact transparent.holds call member
  | register ew fd bits =>
      obtain ⟨-, ⟨⟩⟩ := Option.ite_none_right_eq_some.mp taken
      exact ⟨⟨fun _ => trivial, fun _ => ⟨transparent.restored, transparent.exact,
        transparent.holds, transparent.intact⟩⟩, fun _ => chained⟩
  | interrupted =>
      dsimp only at taken
      split at taken
      · rename_i call rest calls
        have guard : t.KeepsOuter asserts .interrupted ↔
          (call.lastRetry = true → call.prev = t.curr_) := forall_head calls
        rw [guard]
        split at taken
        · rename_i retry pos
          obtain ⟨after, chain⟩ := poll_ends transparent chained calls pos
          split at taken
          · rename_i again
            obtain rfl := Option.some.inj taken
            have more : call.lastRetry = false := by
              simp only [LoopCall.lastRetry, pos, decide_eq_false_iff_not]
              omega
            have holds := transparent.holds call (calls ▸ List.mem_cons_self)
            simp only [LoopCall.Holds, pos] at holds
            rw [more]
            refine ⟨⟨fun _ last => absurd last Bool.false_ne_true, fun _ =>
              advance_transparent transparent calls holds⟩, fun _ => ?_⟩
            rw [calls] at chained
            exact chained
          · rename_i spent
            obtain rfl := Option.some.inj taken
            have last : call.lastRetry = true := by
              simp only [LoopCall.lastRetry, pos, decide_eq_true_eq]
              omega
            rw [after]
            exact ⟨⟨fun same _ => same, fun same => same last⟩, fun same => chain (same last)⟩
        · cases taken
      · cases taken
  | failed =>
      dsimp only at taken
      split at taken
      · rename_i call rest calls
        have guard : t.KeepsOuter asserts .failed ↔ call.prev = t.curr_ := forall_head calls
        rw [guard]
        split at taken
        · rename_i retry pos
          obtain rfl := Option.some.inj taken
          exact poll_ends transparent chained calls pos
        · cases taken
      · cases taken
  | ready events =>
      dsimp only at taken
      split at taken
      · rename_i call rest calls
        split at taken
        · rename_i retry pos
          obtain ⟨-, ⟨⟩⟩ := Option.ite_none_right_eq_some.mp taken
          rw [poll_ready transparent calls pos events, KeepsOuter, calls, List.tail_cons]
          refine ⟨Iff.rfl, fun _ => ?_⟩
          rw [calls] at chained
          exact chained
        · cases taken
      · cases taken
  | turn =>
      dsimp only at taken
      split at taken
      · rename_i call rest calls
        obtain ⟨-, taken⟩ := Option.ite_none_left_eq_some.mp taken
        have guard : t.KeepsOuter asserts .turn ↔
          (call.atEnd = true → asserts = true ∨ call.prev = t.curr_) := forall_head calls
        rw [guard]
        cases ends : call.atEnd with
        | false =>
            obtain ⟨after, chain⟩ := turn_within transparent chained calls ends taken
            exact ⟨⟨fun _ last => absurd last Bool.false_ne_true, fun _ => after⟩, fun _ => chain⟩
        | true =>
            obtain ⟨after, chain⟩ := turn_end transparent chained calls ends taken
            rw [after]
            exact ⟨⟨fun either _ => either, fun either => either rfl⟩,
              fun either => chain (either rfl)⟩
      · cases taken
  | done =>
      dsimp only at taken
      split at taken
      · rename_i call rest calls
        obtain ⟨-, ⟨⟩⟩ := Option.ite_none_right_eq_some.mp taken
        have holds := transparent.holds call (calls ▸ List.mem_cons_self)
        refine ⟨⟨fun _ => trivial, fun _ => advance_transparent transparent calls holds⟩,
          fun _ => ?_⟩
        rw [calls] at chained
        exact chained
      · cases taken

/-- Every state of a run is transparent exactly when each step of the run keeps the calls around
it. -/
theorem transparent_iff_keepsOuter {labels : List ThreadLabel} (run : Run asserts labels t) :
    (∀ front back u, labels = front ++ back → Run asserts front u → u.Transparent) ↔
      Exec (Guarded (KeepsOuter asserts) (Of (step asserts))) {} labels t := by
  have initial : Transparent {} :=
    ⟨(fun r member => by cases member), (fun r member => by cases member),
      (fun call member => by cases member), rfl⟩
  refine run.always_iff Transparent initial ?_
  intro labels t label t' before taken
  have kept := before.invariant (fun t => Transparent t ∧ Chained t.curr_ t.calls) ⟨initial, rfl⟩
    fun t label t' kept taken => by
      obtain ⟨after, chain⟩ := step_transparent kept.1 kept.2 taken.2
      exact ⟨after.mpr taken.1, chain taken.1⟩
  exact (step_transparent kept.1 kept.2 taken).1

end Steps

/-- A callback of one watcher waits for a single event of another, twice interrupted. -/
theorem transparent_iff_keepsOuter_nested : ∃ labels t, Run true labels t ∧
    (∀ front back u, labels = front ++ back → Run true front u → u.Transparent) ∧
      t.returns = [⟨some 1, some 1, [⟨9, 1⟩], [⟨9, 1⟩]⟩,
        ⟨none, none, [⟨5, 1⟩, ⟨6, 1⟩], [⟨5, 1⟩, ⟨6, 1⟩]⟩] := by
  have runs : (Transition.run (Transition.guardedStep
      (fun t label => decide (KeepsOuter true t label)) (step true)) {}
      [.register 1 5 1, .loop 1, .ready [⟨5, 1⟩, ⟨6, 1⟩], .turn, .loop 2, .interrupted,
        .interrupted, .ready [⟨9, 1⟩], .turn, .turn, .turn, .done, .turn, .turn, .turn,
        .turn]).isSome = true := by
    decide +kernel
  have kept := Transition.guarded_of_isSome runs
  have transparent := (transparent_iff_keepsOuter kept.unguarded).mpr kept
  refine ⟨_, _, kept.unguarded, transparent, ?_⟩
  clear kept transparent
  revert runs
  decide +kernel

/-- A nested call whose `epoll_wait` fails leaves its own watcher as the current one. -/
theorem failed_poll_keeps_watcher : ¬ ∀ asserts labels t, Run asserts labels t → t.Transparent := by
  intro transparent
  have runs : (Transition.run (step true) {}
      [.register 1 5 1, .loop 1, .ready [⟨5, 1⟩], .turn, .loop 2, .failed]).isSome = true := by
    decide +kernel
  have restored := (transparent true _ _ (Transition.exec_of_isSome runs)).restored
    ⟨some 1, some 2, [], []⟩
  clear transparent
  revert runs restored
  decide +kernel

end LoopThread

end Getrafty
