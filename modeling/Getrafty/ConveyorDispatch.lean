import Getrafty.Conveyor

set_option autoImplicit false

namespace Getrafty

namespace Conveyor

variable {σ : Type} {k : EventKind}

section Reference

/-- What comes of an event: the state, the event as the stages leave it, the handler calls,
and the events that were fired on the way. -/
structure Outcome (σ : Type) where
  state : σ
  evt : Event
  log : List Invocation
  fired : List Event

/-- The event that is fired by a handler that was given `own`. -/
def Fired.event (own : Event) : Fired → Event
  | .received => own
  | .value evt => evt
  | .variant evt => evt

/-- What the fired object holds when the later stages have left `altered` of the event they got:
only a variant is not copied. -/
def Fired.held (own altered : Event) : Fired → Event
  | .received => own
  | .value evt => evt
  | .variant _ => altered

/-- A handler in front of stages that make `next` of an event. -/
def Body.eval (next : σ → Event → Outcome σ) : Body σ k → Outcome σ
  | .done state evt => ⟨state, ⟨k, evt⟩, [], []⟩
  | .fire state evt fired resume =>
      let sent := fired.event ⟨k, evt⟩
      let out := next state sent
      let rest := (resume out.state evt (fired.held ⟨k, evt⟩ out.evt)).eval next
      ⟨rest.state, rest.evt, out.log ++ rest.log, sent :: (out.fired ++ rest.fired)⟩

/-- The stages an event still has ahead of it, the next one first, with their positions. -/
abbrev Line (σ : Type) : Type := List (Nat × Handlers σ)

/-- Depth first: an event goes through the whole line before the handler that fired it goes on. -/
def passes : Line σ → σ → Event → Outcome σ
  | [], state, evt => ⟨state, evt, [], []⟩
  | (i, handlers) :: rest, state, evt =>
      match handlers evt.kind with
      | none => passes rest state evt
      | some handler =>
          let out := (handler i state evt.value).eval (passes rest)
          { out with log := ⟨i, evt⟩ :: out.log }

/-- Every stage with its position, for one direction. -/
def numbered (handlers : Stage σ → Handlers σ) (stages : List (Stage σ)) : Line σ :=
  stages.zipIdx.map fun entry => (entry.2, handlers entry.1)

def headToTail (stages : List (Stage σ)) : Line σ := numbered Stage.onInbound stages

def tailToHead (stages : List (Stage σ)) : Line σ := (numbered Stage.onOutbound stages).reverse

theorem passes_skip {i : Nat} {handlers : Handlers σ} {rest : Line σ} {evt : Event}
    (unhandled : handlers evt.kind = none) (state : σ) :
    passes ((i, handlers) :: rest) state evt = passes rest state evt := by
  simp only [passes, unhandled]

theorem passes_handled {i : Nat} {handlers : Handlers σ} {rest : Line σ} {evt : Event}
    {handler : Handler σ evt.kind} (handled : handlers evt.kind = some handler) (state : σ) :
    passes ((i, handlers) :: rest) state evt =
      { (handler i state evt.value).eval (passes rest) with
        log := ⟨i, evt⟩ :: ((handler i state evt.value).eval (passes rest)).log } := by
  simp only [passes, handled]

end Reference

section Refinement

/-- A reference to the newest event is enough to send it down `line`. -/
def Serves (fire : Nat → Machine σ → Option (Machine σ)) (line : Line σ) : Prop :=
  ∀ below evt state log,
    fire below.length ⟨state, below ++ [evt], log⟩ =
      some ⟨(passes line state evt).state, below ++ [(passes line state evt).evt],
        log ++ (passes line state evt).log⟩

variable {ctx : StageContext σ} {line : Line σ}

/-- A typed event is copied: whatever becomes of the copy, the cells are as they were. -/
theorem Serves.fireTyped (serves : Serves ctx.fire line) {m : Machine σ} {cell : Nat}
    {evt : Event} (alive : m.cells[cell]? = some evt) :
    ctx.fireTyped cell m = some { m with
      state := (passes line m.state evt).state
      log := m.log ++ (passes line m.state evt).log } := by
  have sent := serves m.cells evt m.state m.log
  simp only [StageContext.fireTyped, alive, Machine.push, sent, Option.map_some, Machine.pop,
    List.dropLast_concat]

theorem Serves.fireAny (serves : Serves ctx.fire line) (below : List Event) (own : Event)
    (state : σ) (log : List Invocation) (fired : Fired) :
    ctx.fireAny below.length ⟨state, below ++ [own], log⟩ fired =
      some (fired.held own (passes line state (fired.event own)).evt,
        ⟨(passes line state (fired.event own)).state, below ++ [own],
          log ++ (passes line state (fired.event own)).log⟩) := by
  cases fired with
  | received =>
      have alive : (below ++ [own])[below.length]? = some own := List.getElem?_concat_length
      rw [StageContext.fireAny, serves.fireTyped alive]
      simp only [Option.bind_some, alive, Option.map_some, Fired.held, Fired.event]
  | value evt =>
      have alive : (below ++ [own] ++ [evt])[(below ++ [own]).length]? = some evt :=
        List.getElem?_concat_length
      have sent := serves.fireTyped (m := Machine.push ⟨state, below ++ [own], log⟩ evt) alive
      rw [StageContext.fireAny, sent]
      simp only [Machine.push, Option.bind_some, List.getLast?_concat, Option.map_some,
        Machine.pop, List.dropLast_concat, Fired.held, Fired.event]
  | variant evt =>
      have sent := serves (below ++ [own]) evt state log
      rw [StageContext.fireAny, Machine.push, sent]
      simp only [Option.bind_some, List.getLast?_concat, Option.map_some, Machine.pop,
        List.dropLast_concat, Fired.held, Fired.event]

theorem Event.get_self (evt : k.Payload) : Event.get k ⟨k, evt⟩ = some evt := by
  simp only [Event.get, dite_true]

theorem set_newest (below : List Event) (own evt : Event) :
    (below ++ [own]).set below.length evt = below ++ [evt] := by
  rw [List.set_append_right _ _ le_rfl, Nat.sub_self, List.set_cons_zero]

/-- A handler on the newest event does what the reference says. -/
theorem Serves.run (serves : Serves ctx.fire line) (body : Body σ k) (below : List Event)
    (own : Event) (state : σ) (log : List Invocation) :
    body.run ctx below.length ⟨state, below ++ [own], log⟩ =
      some ⟨(body.eval (passes line)).state, below ++ [(body.eval (passes line)).evt],
        log ++ (body.eval (passes line)).log⟩ := by
  induction body generalizing own state log with
  | done after evt =>
      simp only [Body.run, Machine.write, set_newest, Body.eval, List.append_nil]
  | fire after evt fired resume ih =>
      have alive : (below ++ [(⟨k, evt⟩ : Event)])[below.length]? = some ⟨k, evt⟩ :=
        List.getElem?_concat_length
      simp only [Body.run, Machine.write, set_newest, serves.fireAny, Option.bind_some,
        Machine.read, alive, Event.get_self]
      rw [ih]
      simp only [Body.eval, List.append_assoc]

theorem Serves.onEvent (serves : Serves ctx.fire line) (handlers : Handlers σ) :
    Serves (onEvent handlers ctx) ((ctx.index, handlers) :: line) := by
  intro below evt state log
  have alive : (below ++ [evt])[below.length]? = some evt := List.getElem?_concat_length
  cases handled : handlers evt.kind with
  | none =>
      simp only [Conveyor.onEvent, alive, handled, passes_skip handled]
      exact serves below evt state log
  | some handler =>
      simp only [Conveyor.onEvent, alive, handled, passes_handled handled]
      rw [serves.run]
      simp only [List.append_assoc, List.singleton_append]

theorem drop_headToTail {stages : List (Stage σ)} {idx : Nat} (inside : idx < stages.length) :
    (headToTail stages).drop idx =
      (idx, stages[idx].onInbound) :: (headToTail stages).drop (idx + 1) := by
  have bound : idx < (headToTail stages).length := by
    simpa only [headToTail, numbered, List.length_map, List.length_zipIdx] using inside
  rw [List.drop_eq_getElem_cons bound]
  simp only [headToTail, numbered, List.getElem_map, List.getElem_zipIdx, Nat.zero_add]

theorem fireInboundFrom_serves (stages : List (Stage σ)) (left : Nat) :
    ∀ idx, stages.length - idx = left →
      Serves (fireInboundFrom stages idx) ((headToTail stages).drop idx) := by
  induction left with
  | zero =>
      intro idx none_left below evt state log
      have outside : stages.length ≤ idx := by omega
      have nothing : (headToTail stages).drop idx = [] := by
        apply List.drop_eq_nil_of_le
        simpa only [headToTail, numbered, List.length_map, List.length_zipIdx] using outside
      rw [fireInboundFrom_end _ _ _ _ outside, nothing]
      simp only [passes, List.append_nil]
  | succ left ih =>
      intro idx some_left below evt state log
      have inside : idx < stages.length := by omega
      have later : Serves (StageContext.inbound stages idx).fire
          ((headToTail stages).drop (idx + 1)) := ih (idx + 1) (by omega)
      rw [fireInboundFrom_eq _ _ _ _ inside, drop_headToTail inside]
      exact later.onEvent stages[idx].onInbound below evt state log

theorem take_tailToHead {stages : List (Stage σ)} {idx : Nat} (inside : idx < stages.length) :
    ((tailToHead stages).reverse.take (idx + 1)).reverse =
      (idx, stages[idx].onOutbound) :: ((tailToHead stages).reverse.take idx).reverse := by
  have bound : idx < (tailToHead stages).reverse.length := by
    simpa only [tailToHead, numbered, List.reverse_reverse, List.length_map, List.length_zipIdx]
      using inside
  rw [List.take_succ_eq_append_getElem bound, List.reverse_append, List.reverse_singleton,
    List.singleton_append]
  simp only [tailToHead, numbered, List.reverse_reverse, List.getElem_map, List.getElem_zipIdx,
    Nat.zero_add]

theorem fireOutboundFrom_serves (stages : List (Stage σ)) (idx : Nat)
    (inside : idx < stages.length) :
    Serves (fireOutboundFrom stages idx) ((tailToHead stages).reverse.take (idx + 1)).reverse := by
  induction idx with
  | zero =>
      have later : Serves (StageContext.outbound stages 0).fire [] := by
        intro below evt state log
        simp only [StageContext.outbound, Nat.lt_irrefl, if_false, passes, List.append_nil]
      intro below evt state log
      rw [fireOutboundFrom_eq _ _ _ _ inside, take_tailToHead inside, List.take_zero,
        List.reverse_nil]
      exact later.onEvent stages[0].onOutbound below evt state log
  | succ idx ih =>
      have later : Serves (StageContext.outbound stages (idx + 1)).fire
          ((tailToHead stages).reverse.take (idx + 1)).reverse := ih (by omega)
      intro below evt state log
      rw [fireOutboundFrom_eq _ _ _ _ inside, take_tailToHead inside]
      exact later.onEvent stages[idx + 1].onOutbound below evt state log

theorem inbound_serves (stages : List (Stage σ)) (i : Nat) :
    Serves (StageContext.inbound stages i).fire ((headToTail stages).drop (i + 1)) :=
  fireInboundFrom_serves stages _ (i + 1) rfl

theorem outbound_serves (stages : List (Stage σ)) (i : Nat) (inside : i < stages.length) :
    Serves (StageContext.outbound stages i).fire
      ((tailToHead stages).reverse.take i).reverse := by
  cases i with
  | zero =>
      intro below evt state log
      simp only [StageContext.outbound, Nat.lt_irrefl, if_false, List.take_zero, List.reverse_nil,
        passes, List.append_nil]
  | succ i => exact fireOutboundFrom_serves stages i (by omega)

theorem fireInbound_eq (stages : List (Stage σ)) (evt : Event) (m : Machine σ) :
    fireInbound stages evt m = some { m with
      state := (passes (headToTail stages) m.state evt).state
      log := m.log ++ (passes (headToTail stages) m.state evt).log } := by
  rcases stages with _ | ⟨stage, stages⟩
  · simp only [fireInbound, List.isEmpty_nil, if_true, headToTail, numbered, List.zipIdx_nil,
      List.map_nil, passes, List.append_nil]
  · have sent := fireInboundFrom_serves (stage :: stages) _ 0 rfl m.cells evt m.state m.log
    rw [List.drop_zero] at sent
    simp only [fireInbound, List.isEmpty_cons, Bool.false_eq_true, if_false, Machine.push, sent,
      Option.map_some, Machine.pop, List.dropLast_concat]

theorem fireOutbound_eq (stages : List (Stage σ)) (evt : Event) (m : Machine σ) :
    fireOutbound stages evt m = some { m with
      state := (passes (tailToHead stages) m.state evt).state
      log := m.log ++ (passes (tailToHead stages) m.state evt).log } := by
  rcases stages with _ | ⟨stage, stages⟩
  · simp only [fireOutbound, List.isEmpty_nil, if_true, tailToHead, numbered, List.zipIdx_nil,
      List.map_nil, List.reverse_nil, passes, List.append_nil]
  · have sent := fireOutboundFrom_serves (stage :: stages) _ (Nat.lt_succ_self stages.length)
      m.cells evt m.state m.log
    have whole : (tailToHead (stage :: stages)).reverse.take (stages.length + 1) =
        (tailToHead (stage :: stages)).reverse := by
      apply List.take_of_length_le
      simp only [tailToHead, numbered, List.reverse_reverse, List.length_map, List.length_zipIdx,
        List.length_cons, le_rfl]
    rw [whole, List.reverse_reverse] at sent
    simp only [fireOutbound, List.isEmpty_cons, Bool.false_eq_true, if_false, Machine.push,
      List.length_cons, Nat.add_sub_cancel, sent, Option.map_some, Machine.pop,
      List.dropLast_concat]

end Refinement

section Independence

/-- The events that a handler is offered, handled or not. -/
def involved (line : Line σ) (state : σ) (evt : Event) : List Event :=
  evt :: (passes line state evt).fired

/-- `handlers` has none for the events involved in a line without it or in one with it. -/
def Inert (handlers : Handlers σ) (absent present : Line σ) (state : σ) (evt : Event) : Prop :=
  (∀ fired ∈ involved absent state evt, handlers fired.kind = none) ∨
    ∀ fired ∈ involved present state evt, handlers fired.kind = none

/-- Handlers that do not ask for their position. -/
def Blind (handlers : Handlers σ) : Prop :=
  ∀ k handler, handlers k = some handler → ∀ i j, handler i = handler j

def Outcome.relabel (f : Nat → Nat) (out : Outcome σ) : Outcome σ :=
  { out with log := out.log.map fun call => { call with stage := f call.stage } }

/-- Only the events that a handler fires tell what comes behind it. -/
theorem Body.eval_congr {next other : σ → Event → Outcome σ} {good : Event → Prop}
    (agree : ∀ state evt, good evt → (∀ fired ∈ (next state evt).fired, good fired) →
      other state evt = next state evt)
    (body : Body σ k) (all : ∀ fired ∈ (body.eval next).fired, good fired) :
    body.eval other = body.eval next := by
  induction body with
  | done state evt => rfl
  | fire state evt fired resume ih =>
      simp only [Body.eval, List.mem_cons, List.mem_append] at all
      have same := agree state (fired.event ⟨k, evt⟩) (all _ (Or.inl rfl))
        (fun later inside => all later (Or.inr (Or.inl inside)))
      simp only [Body.eval, same]
      rw [ih _ _ _ (fun later inside => all later (Or.inr (Or.inr inside)))]

theorem Body.eval_relabel {next : σ → Event → Outcome σ} (f : Nat → Nat) (body : Body σ k) :
    body.eval (fun state evt => (next state evt).relabel f) = (body.eval next).relabel f := by
  induction body with
  | done state evt => rfl
  | fire state evt fired resume ih =>
      simp only [Body.eval, Outcome.relabel, List.map_append] at ih ⊢
      simp only [ih]

theorem passes_relabel (f : Nat → Nat) (line : Line σ)
    (blind : ∀ entry ∈ line, Blind entry.2) (state : σ) (evt : Event) :
    passes (line.map fun entry => (f entry.1, entry.2)) state evt =
      (passes line state evt).relabel f := by
  induction line generalizing state evt with
  | nil => rfl
  | cons entry line ih =>
      obtain ⟨i, handlers⟩ := entry
      have later : passes (line.map fun entry => (f entry.1, entry.2)) =
          fun state evt => (passes line state evt).relabel f := by
        funext state evt
        exact ih (fun entry inside => blind entry (List.mem_cons_of_mem _ inside)) state evt
      rw [List.map_cons]
      cases handled : handlers evt.kind with
      | none => rw [passes_skip handled, passes_skip handled, later]
      | some handler =>
          have unseen := blind (i, handlers) List.mem_cons_self evt.kind handler handled (f i) i
          rw [passes_handled handled, passes_handled handled, later, Body.eval_relabel, unseen]
          rfl

/-- Lines that agree on good events still agree behind the same stages. -/
theorem passes_congr {first second : Line σ} {good : Event → Prop}
    (agree : ∀ state evt, good evt → (∀ fired ∈ (passes first state evt).fired, good fired) →
      passes second state evt = passes first state evt)
    (front : Line σ) (state : σ) (evt : Event) (begins : good evt)
    (all : ∀ fired ∈ (passes (front ++ first) state evt).fired, good fired) :
    passes (front ++ second) state evt = passes (front ++ first) state evt := by
  induction front generalizing state evt with
  | nil => exact agree state evt begins all
  | cons entry front ih =>
      obtain ⟨i, handlers⟩ := entry
      rw [List.cons_append, List.cons_append] at *
      cases handled : handlers evt.kind with
      | none =>
          rw [passes_skip handled] at all
          rw [passes_skip handled, passes_skip handled]
          exact ih state evt begins all
      | some handler =>
          rw [passes_handled handled] at all
          rw [passes_handled handled, passes_handled handled,
            Body.eval_congr (fun state evt good_evt => ih state evt good_evt) _ all]

/-- A stage without handlers for the events involved may be there or not. -/
theorem passes_insert (front back : Line σ) (i : Nat) (handlers : Handlers σ) (state : σ)
    (evt : Event)
    (inert : Inert handlers (front ++ back) (front ++ (i, handlers) :: back) state evt) :
    passes (front ++ (i, handlers) :: back) state evt = passes (front ++ back) state evt := by
  rcases inert with absent | present
  · apply passes_congr (fun state evt unhandled _ => passes_skip unhandled state) front state evt
    · exact absent evt List.mem_cons_self
    · exact fun fired inside => absent fired (List.mem_cons_of_mem _ inside)
  · symm
    apply passes_congr (fun state evt unhandled _ => (passes_skip unhandled state).symm) front
    · exact present evt List.mem_cons_self
    · exact fun fired inside => present fired (List.mem_cons_of_mem _ inside)

/-- The position of a stage once there is a new stage `p`. -/
def shift (p i : Nat) : Nat := if i < p then i else i + 1

theorem numbered_shift (handlers : Stage σ → Handlers σ) (front back : List (Stage σ)) :
    (numbered handlers (front ++ back)).map (fun entry => (shift front.length entry.1, entry.2)) =
      numbered handlers front ++
        (back.zipIdx (front.length + 1)).map fun entry => (entry.2, handlers entry.1) := by
  rw [numbered, List.zipIdx_append, List.map_append, List.map_append]
  congr 1
  · rw [numbered, List.map_map]
    apply List.map_congr_left
    intro entry inside
    have below : entry.2 < front.length := by
      have bound := List.snd_lt_of_mem_zipIdx inside
      omega
    simp only [Function.comp, shift, if_pos below]
  · rw [List.map_map, Nat.add_comm front.length 1, Nat.zero_add]
    apply List.ext_getElem
    · simp only [List.length_map, List.length_zipIdx]
    · intro i first second
      have above : ¬ front.length + i < front.length := by omega
      simp only [List.getElem_map, List.getElem_zipIdx, Function.comp, shift, if_neg above]
      rw [show front.length + i + 1 = 1 + front.length + i by omega]

theorem numbered_insert (handlers : Stage σ → Handlers σ) (front back : List (Stage σ))
    (stage : Stage σ) :
    numbered handlers (front ++ stage :: back) = numbered handlers front ++
      (front.length, handlers stage) ::
        (back.zipIdx (front.length + 1)).map fun entry => (entry.2, handlers entry.1) := by
  rw [numbered, List.zipIdx_append, List.map_append, List.zipIdx_cons, List.map_cons,
    Nat.zero_add]
  rfl

theorem blind_numbered {handlers : Stage σ → Handlers σ} {stages : List (Stage σ)}
    (blind : ∀ stage ∈ stages, Blind (handlers stage)) :
    ∀ entry ∈ numbered handlers stages, Blind entry.2 := by
  intro entry inside
  obtain ⟨place, found, rfl⟩ := List.mem_map.mp inside
  exact blind place.1 (List.fst_mem_of_mem_zipIdx found)

variable {front back : List (Stage σ)} {stage : Stage σ} {state : σ} {evt : Event}

theorem headToTail_insert (blind : ∀ other ∈ front ++ back, Blind other.onInbound)
    (inert : Inert stage.onInbound (headToTail (front ++ back))
      (headToTail (front ++ stage :: back)) state evt) :
    passes (headToTail (front ++ stage :: back)) state evt =
      (passes (headToTail (front ++ back)) state evt).relabel (shift front.length) := by
  have moved := passes_relabel (shift front.length) (headToTail (front ++ back))
    (blind_numbered blind) state evt
  have same : (headToTail (front ++ back)).map _ = _ := numbered_shift Stage.onInbound front back
  have cut : headToTail (front ++ stage :: back) = _ := numbered_insert Stage.onInbound _ _ _
  rw [same] at moved
  rw [cut] at inert ⊢
  rw [← moved]
  apply passes_insert
  rcases inert with absent | present
  · left
    intro fired inside
    apply absent
    rwa [involved, moved] at inside
  · exact Or.inr present

theorem tailToHead_insert (blind : ∀ other ∈ front ++ back, Blind other.onOutbound)
    (inert : Inert stage.onOutbound (tailToHead (front ++ back))
      (tailToHead (front ++ stage :: back)) state evt) :
    passes (tailToHead (front ++ stage :: back)) state evt =
      (passes (tailToHead (front ++ back)) state evt).relabel (shift front.length) := by
  have reversed : ∀ entry ∈ tailToHead (front ++ back), Blind entry.2 := by
    intro entry inside
    exact blind_numbered blind entry (List.mem_reverse.mp inside)
  have moved := passes_relabel (shift front.length) (tailToHead (front ++ back)) reversed state evt
  have cut : tailToHead (front ++ stage :: back) = _ :=
    congrArg List.reverse (numbered_insert Stage.onOutbound front back stage)
  have same := congrArg List.reverse (numbered_shift Stage.onOutbound front back)
  rw [← List.map_reverse, List.reverse_append] at same
  rw [show (tailToHead (front ++ back)).map _ = _ from same] at moved
  rw [List.reverse_append, List.reverse_cons, List.append_assoc, List.singleton_append] at cut
  rw [cut] at inert ⊢
  rw [← moved]
  apply passes_insert
  rcases inert with absent | present
  · left
    intro fired inside
    apply absent
    rwa [involved, moved] at inside
  · exact Or.inr present

end Independence

section Composition

def Machine.relabel (f : Nat → Nat) (m : Machine σ) : Machine σ :=
  { m with log := m.log.map fun call => { call with stage := f call.stage } }

/-- An event can be fired by value from any stage without a change to any event there is. -/
def FiredByValue (stages : List (Stage σ)) : Prop :=
  ∀ i < stages.length, ∀ (cell : Nat) (fired : Event) (m : Machine σ),
    m.cells[cell]? = some fired →
      (∃ state log, (StageContext.inbound stages i).fireTyped cell m =
        some ⟨state, m.cells, log⟩) ∧
      ∃ state log, (StageContext.outbound stages i).fireTyped cell m = some ⟨state, m.cells, log⟩

theorem firedByValue (stages : List (Stage σ)) : FiredByValue stages := by
  intro i inside cell fired m alive
  exact ⟨⟨_, _, (inbound_serves stages i).fireTyped alive⟩,
    ⟨_, _, (outbound_serves stages i inside).fireTyped alive⟩⟩

/-- Another stage at the end of `front`, without a handler for the events involved, leaves the
calls of the stages as they are but for their positions. -/
def UnaffectedInbound (front back : List (Stage σ)) (stage : Stage σ) : Prop :=
  ∀ state cells evt,
    Inert stage.onInbound (headToTail (front ++ back)) (headToTail (front ++ stage :: back))
      state evt →
    fireInbound (front ++ stage :: back) evt ⟨state, cells, []⟩ =
      (fireInbound (front ++ back) evt ⟨state, cells, []⟩).map
        (Machine.relabel (shift front.length))

def UnaffectedOutbound (front back : List (Stage σ)) (stage : Stage σ) : Prop :=
  ∀ state cells evt,
    Inert stage.onOutbound (tailToHead (front ++ back)) (tailToHead (front ++ stage :: back))
      state evt →
    fireOutbound (front ++ stage :: back) evt ⟨state, cells, []⟩ =
      (fireOutbound (front ++ back) evt ⟨state, cells, []⟩).map
        (Machine.relabel (shift front.length))

variable {front back : List (Stage σ)} {stage : Stage σ}

theorem unaffectedInbound (blind : ∀ other ∈ front ++ back, Blind other.onInbound) :
    UnaffectedInbound front back stage := by
  intro state cells evt inert
  rw [fireInbound_eq, fireInbound_eq, headToTail_insert blind inert]
  rfl

theorem unaffectedOutbound (blind : ∀ other ∈ front ++ back, Blind other.onOutbound) :
    UnaffectedOutbound front back stage := by
  intro state cells evt inert
  rw [fireOutbound_eq, fireOutbound_eq, tailToHead_insert blind inert]
  rfl

/-- A conveyor is the composition of its stages: an event runs through them depth first, from the
head or from the tail, what is fired by value keeps its value, and a stage without handlers for
the events involved is as good as absent to stages that do not ask for their position. -/
theorem dispatch_composes (stages : List (Stage σ)) :
    (∀ evt m, fireInbound stages evt m = some { m with
      state := (passes (headToTail stages) m.state evt).state
      log := m.log ++ (passes (headToTail stages) m.state evt).log }) ∧
    (∀ evt m, fireOutbound stages evt m = some { m with
      state := (passes (tailToHead stages) m.state evt).state
      log := m.log ++ (passes (tailToHead stages) m.state evt).log }) ∧
    FiredByValue stages ∧
    ∀ front back, stages = front ++ back → ∀ stage,
      ((∀ other ∈ stages, Blind other.onInbound) → UnaffectedInbound front back stage) ∧
      ((∀ other ∈ stages, Blind other.onOutbound) → UnaffectedOutbound front back stage) := by
  refine ⟨fireInbound_eq stages, fireOutbound_eq stages, firedByValue stages, ?_⟩
  intro front back same stage
  subst same
  exact ⟨unaffectedInbound, unaffectedOutbound⟩

/-- Becomes a suspend event on the way in. -/
def suspender : Stage Nat where
  onInbound := fun k => match k with
    | .InboundTransportActive => some fun _ state evt =>
        .fire state evt (.value ⟨.InboundSuspend, ()⟩) fun state evt _ => .done state evt
    | _ => none
  onOutbound := fun _ => none

def suspendCounter : Stage Nat where
  onInbound := fun k => match k with
    | .InboundSuspend => some fun _ state evt => .done (state + 1) evt
    | _ => none
  onOutbound := fun _ => none

def bytesCounter : Stage Nat where
  onInbound := fun k => match k with
    | .InboundBytes => some fun _ state evt => .done (state + 1) evt
    | _ => none
  onOutbound := fun _ => none

theorem dispatch_composes_example :
    fireInbound [suspender, bytesCounter, suspendCounter] ⟨.InboundTransportActive, ()⟩
    ⟨0, [], []⟩ =
      some ⟨1, [], [⟨0, ⟨.InboundTransportActive, ()⟩⟩, ⟨2, ⟨.InboundSuspend, ()⟩⟩]⟩ := by
  obtain ⟨forward, -, -, independent⟩ := dispatch_composes [suspender, suspendCounter]
  have blind : ∀ other ∈ [suspender, suspendCounter], Blind other.onInbound := by
    intro other inside k handler handled i j
    simp only [List.mem_cons, List.not_mem_nil, or_false] at inside
    rcases inside with rfl | rfl <;> cases k <;> cases handled <;> rfl
  have same := (independent [suspender] [suspendCounter] rfl bytesCounter).1 blind 0 []
    ⟨.InboundTransportActive, ()⟩ (Or.inl (by
      intro fired inside
      change fired ∈ [⟨.InboundTransportActive, ()⟩, ⟨.InboundSuspend, ()⟩] at inside
      simp only [List.mem_cons, List.not_mem_nil, or_false] at inside
      rcases inside with rfl | rfl <;> rfl))
  rw [List.singleton_append, List.singleton_append, forward] at same
  exact same

/-- Passes an event on only at the head. -/
def headOnly : Stage Nat where
  onInbound := fun k => match k with
    | .InboundTransportActive => some fun i state evt =>
        if i = 0 then
          .fire state evt (.value ⟨.InboundSuspend, ()⟩) fun state evt _ => .done state evt
        else
          .done state evt
    | _ => none
  onOutbound := fun _ => none

/-- A stage that asks for its position notices another one in front of it. -/
theorem unaffected_not_by_index :
    ¬ ∀ (front back : List (Stage Nat)) (stage : Stage Nat),
      UnaffectedInbound front back stage := by
  intro always
  have same := always [] [headOnly, suspendCounter] bytesCounter 0 [] ⟨.InboundTransportActive, ()⟩
    (Or.inr (by
      intro fired inside
      change fired ∈ [⟨.InboundTransportActive, ()⟩] at inside
      obtain rfl := List.mem_singleton.mp inside
      rfl))
  rw [List.nil_append, List.nil_append, fireInbound_eq, fireInbound_eq] at same
  have counted : (0 : Nat) = 1 := congrArg Machine.state (Option.some.inj same)
  cases counted

end Composition

end Conveyor

end Getrafty
