import Mathlib

set_option autoImplicit false

/- Finite runs of a labelled transition relation, grown at their end so that an
invariant may speak about the labels already taken. -/
namespace Transition

variable {σ ι : Type}

/-- The steps with these labels, in this order, lead from `start` to the last state. -/
inductive Exec (step : σ → ι → σ → Prop) (start : σ) : List ι → σ → Prop
  | nil : Exec step start [] start
  | snoc {labels : List ι} {state next : σ} {label : ι} :
      Exec step start labels state → step state label next →
        Exec step start (labels ++ [label]) next

section Rules

variable {step : σ → ι → σ → Prop} {start last : σ} {labels : List ι}

/-- What every step preserves, given the labels before it, holds after the run. -/
theorem Exec.history (holds : List ι → σ → Prop) (initial : holds [] start)
    (preserved : ∀ labels state label next, holds labels state → step state label next →
      holds (labels ++ [label]) next)
    (run : Exec step start labels last) : holds labels last := by
  induction run with
  | nil => exact initial
  | snoc _ taken ih => exact preserved _ _ _ _ ih taken

theorem Exec.invariant (holds : σ → Prop) (initial : holds start)
    (preserved : ∀ state label next, holds state → step state label next → holds next)
    (run : Exec step start labels last) : holds last :=
  run.history (fun _ => holds) initial (fun _ state label next => preserved state label next)

theorem Exec.mono {wider : σ → ι → σ → Prop}
    (contained : ∀ state label next, step state label next → wider state label next)
    (run : Exec step start labels last) : Exec wider start labels last := by
  induction run with
  | nil => exact .nil
  | snoc _ taken ih => exact ih.snoc (contained _ _ _ taken)

theorem Exec.append {middle : σ} {front back : List ι} (first : Exec step start front middle)
    (second : Exec step middle back last) : Exec step start (front ++ back) last := by
  induction second with
  | nil => simpa only [List.append_nil] using first
  | snoc _ taken ih => simpa only [List.append_assoc] using ih.snoc taken

/-- A run passes through a state wherever its labels are cut. -/
theorem Exec.split {whole : List ι} (run : Exec step start whole last) :
    ∀ front back, whole = front ++ back →
      ∃ middle, Exec step start front middle ∧ Exec step middle back last := by
  induction run with
  | nil =>
      intro front back cut
      obtain ⟨rfl, rfl⟩ := List.append_eq_nil_iff.mp cut.symm
      exact ⟨start, .nil, .nil⟩
  | @snoc labels state next label before taken ih =>
      intro front back cut
      rcases List.eq_nil_or_concat back with rfl | ⟨back, final, rfl⟩
      · rw [List.append_nil] at cut
        subst cut
        exact ⟨next, before.snoc taken, .nil⟩
      · rw [List.concat_eq_append, ← List.append_assoc] at cut
        obtain ⟨same, final_eq⟩ := List.append_inj' cut rfl
        obtain rfl := List.singleton_inj.mp final_eq
        obtain ⟨middle, first, second⟩ := ih front back same
        refine ⟨middle, first, ?_⟩
        rw [List.concat_eq_append]
        exact second.snoc taken

theorem Exec.eq_start (run : Exec step start labels last) (none : labels = []) : last = start := by
  cases run with
  | nil => rfl
  | snoc before taken => simp at none

theorem Exec.single {label : ι} (run : Exec step start labels last) (one : labels = [label]) :
    step start label last := by
  cases run with
  | nil => cases one
  | snoc before taken =>
      obtain ⟨none, same⟩ := List.append_inj' (one.trans (List.nil_append _).symm) rfl
      rw [before.eq_start none, List.singleton_inj.mp same] at taken
      exact taken

/-- The state before the final step of a run. -/
theorem Exec.before_last {label : ι} (run : Exec step start (labels ++ [label]) last) :
    ∃ state, Exec step start labels state ∧ step state label last := by
  obtain ⟨state, before, taken⟩ := run.split labels [label] rfl
  exact ⟨state, before, taken.single rfl⟩

/-- The states before and after one step of a run. -/
theorem Exec.at {front back : List ι} {label : ι}
    (run : Exec step start (front ++ label :: back) last) :
    ∃ state next, Exec step start front state ∧ step state label next ∧
      Exec step next back last := by
  obtain ⟨next, first, second⟩ := run.split (front ++ [label]) back (by simp)
  obtain ⟨state, before, taken⟩ := first.split front [label] rfl
  exact ⟨state, next, before, taken.single rfl, second⟩

/-- Where each step is none, one or more of another relation as seen through a view, a run is a
run of that relation. -/
theorem Exec.viewed {τ κ : Type} {other : τ → κ → τ → Prop} (view : σ → τ)
    (each : ∀ state label next, step state label next →
      ∃ seen, Exec other (view state) seen (view next))
    (run : Exec step start labels last) : ∃ seen, Exec other (view start) seen (view last) := by
  induction run with
  | nil => exact ⟨[], .nil⟩
  | snoc _ taken ih =>
      obtain ⟨front, before⟩ := ih
      obtain ⟨back, after⟩ := each _ _ _ taken
      exact ⟨front ++ back, before.append after⟩

end Rules

/-- A step taken from a state in which its guard holds. -/
def Guarded (guard : σ → ι → Prop) (step : σ → ι → σ → Prop) : σ → ι → σ → Prop :=
  fun state label next => guard state label ∧ step state label next

theorem Exec.unguarded {guard : σ → ι → Prop} {step : σ → ι → σ → Prop} {start last : σ}
    {labels : List ι} (run : Exec (Guarded guard step) start labels last) :
    Exec step start labels last :=
  run.mono (fun _ _ _ taken => taken.2)

/-- A guard on the labels alone holds along a run when it holds of each of them. -/
theorem Exec.guarded_labels {step : σ → ι → σ → Prop} {allowed : ι → Prop} {start last : σ}
    {labels : List ι} (run : Exec step start labels last) :
    Exec (Guarded (fun _ label => allowed label) step) start labels last ↔
      ∀ label ∈ labels, allowed label := by
  constructor
  · intro guarded
    clear run
    induction guarded with
    | nil =>
        intro label member
        cases member
    | snoc before taken ih =>
        intro label member
        rcases List.mem_append.mp member with earlier | final
        · exact ih label earlier
        · rw [List.mem_singleton.mp final]
          exact taken.1
  · intro all
    induction run with
    | nil => exact .nil
    | snoc before taken ih =>
        have front := ih fun label earlier => all label (List.mem_append_left _ earlier)
        exact front.snoc ⟨all _ (List.mem_append_right _ List.mem_cons_self), taken⟩

/-- The relation of a partial step function. -/
def Of (step : σ → ι → Option σ) : σ → ι → σ → Prop :=
  fun state label next => step state label = some next

/-- The labels of a run of a step function determine where it ends. -/
theorem Exec.unique {step : σ → ι → Option σ} {start last other : σ} {labels : List ι}
    (first : Exec (Of step) start labels last) (second : Exec (Of step) start labels other) :
    last = other := by
  induction first generalizing other with
  | nil => exact (second.eq_start rfl).symm
  | snoc before taken ih =>
      obtain ⟨state, front, final⟩ := second.before_last
      rw [← ih front] at final
      exact Option.some.inj (taken.symm.trans final)

/-- Where each step keeps a property exactly when its guard holds, the property tells the
guarded runs from the others. -/
theorem Exec.guarded_iff {step : σ → ι → Option σ} {guard : σ → ι → Prop} {start last : σ}
    {labels : List ι} (holds : σ → Prop) (initial : holds start)
    (exact : ∀ labels state label next, Exec (Of step) start labels state →
      step state label = some next → (holds next ↔ holds state ∧ guard state label))
    (run : Exec (Of step) start labels last) :
    holds last ↔ Exec (Guarded guard (Of step)) start labels last := by
  induction run with
  | nil => exact ⟨fun _ => .nil, fun _ => initial⟩
  | @snoc labels state next label before taken ih =>
      rw [exact labels state label next before taken, ih]
      constructor
      · rintro ⟨guarded, allowed⟩
        exact guarded.snoc ⟨allowed, taken⟩
      · intro guarded
        obtain ⟨middle, front, allowed, -⟩ := guarded.before_last
        obtain rfl := Exec.unique front.unguarded before
        exact ⟨front, allowed⟩

/-- Where a property can fail only in a step that its guard forbids, and does fail there, it holds
all along a run exactly when the run is guarded; the labels may be limited to some. -/
theorem Exec.always_iff_of_labels {step : σ → ι → Option σ} {guard : σ → ι → Prop}
    {allowed : ι → Prop} {start last : σ} {labels : List ι} (holds : σ → Prop)
    (initial : holds start)
    (exact : ∀ labels state label next, (∀ l ∈ labels ++ [label], allowed l) →
      Exec (Guarded guard (Of step)) start labels state →
      step state label = some next → (holds next ↔ guard state label))
    (run : Exec (Of step) start labels last) (all : ∀ label ∈ labels, allowed label) :
    (∀ front back middle, labels = front ++ back → Exec (Of step) start front middle →
      holds middle) ↔ Exec (Guarded guard (Of step)) start labels last := by
  induction run with
  | nil =>
      refine ⟨fun _ => .nil, fun _ front back middle cut reached => ?_⟩
      obtain ⟨rfl, -⟩ := List.append_eq_nil_iff.mp cut.symm
      rw [reached.eq_start rfl]
      exact initial
  | @snoc labels state next label before taken ih =>
      have ih := ih fun l earlier => all l (List.mem_append_left _ earlier)
      constructor
      · intro always
        have guarded := ih.mp fun front back middle cut reached =>
          always front (back ++ [label]) middle (by rw [cut, List.append_assoc]) reached
        have allowed := (exact labels state label next all guarded taken).mp
          (always _ [] next (List.append_nil _).symm (before.snoc taken))
        exact guarded.snoc ⟨allowed, taken⟩
      · intro guarded front back middle cut reached
        obtain ⟨other, front_guarded, allowed, -⟩ := guarded.before_last
        obtain rfl := Exec.unique front_guarded.unguarded before
        rcases List.eq_nil_or_concat back with rfl | ⟨back, final, rfl⟩
        · rw [List.append_nil] at cut
          subst cut
          obtain rfl := reached.unique (before.snoc taken)
          exact (exact labels other label middle all front_guarded taken).mpr allowed
        · rw [List.concat_eq_append, ← List.append_assoc] at cut
          exact ih.mpr front_guarded front back middle (List.append_inj' cut rfl).1 reached

theorem Exec.always_iff {step : σ → ι → Option σ} {guard : σ → ι → Prop} {start last : σ}
    {labels : List ι} (holds : σ → Prop) (initial : holds start)
    (exact : ∀ labels state label next, Exec (Guarded guard (Of step)) start labels state →
      step state label = some next → (holds next ↔ guard state label))
    (run : Exec (Of step) start labels last) :
    (∀ front back middle, labels = front ++ back → Exec (Of step) start front middle →
      holds middle) ↔ Exec (Guarded guard (Of step)) start labels last :=
  have all : ∀ label ∈ labels, (fun _ : ι => True) label := fun _ _ => trivial
  run.always_iff_of_labels holds initial
    (fun labels state label next _ => exact labels state label next) all

/-- Execution of a partial step function; it stops at the first disabled label. -/
def run (step : σ → ι → Option σ) : σ → List ι → Option σ
  | state, [] => some state
  | state, label :: labels => (step state label).bind (fun next => run step next labels)

theorem run_exec {step : σ → ι → Option σ} {labels : List ι} :
    ∀ {start last : σ}, run step start labels = some last → Exec (Of step) start labels last := by
  induction labels with
  | nil =>
      intro start last same
      obtain rfl : start = last := by simpa only [run, Option.some.injEq] using same
      exact .nil
  | cons label labels ih =>
      intro start last result
      simp only [run, Option.bind_eq_some_iff] at result
      obtain ⟨next, taken, rest⟩ := result
      have first : Exec (Of step) start [label] next := Exec.nil.snoc taken
      exact first.append (ih rest)

/-- Takes only the steps its guard allows. -/
def guardedStep (guard : σ → ι → Bool) (step : σ → ι → Option σ) : σ → ι → Option σ :=
  fun state label => if guard state label then step state label else none

theorem guardedStep_of {guard : σ → ι → Bool} {step : σ → ι → Option σ} (state : σ) (label : ι)
    (next : σ) (taken : Of (guardedStep guard step) state label next) :
    Guarded (fun state label => guard state label = true) (Of step) state label next := by
  simp only [Of, guardedStep] at taken
  split at taken
  · rename_i allowed
    exact ⟨allowed, taken⟩
  · cases taken

theorem guarded_of_run {guard : σ → ι → Prop} [∀ state label, Decidable (guard state label)]
    {step : σ → ι → Option σ} {start last : σ} {labels : List ι}
    (result : run (guardedStep (fun state label => decide (guard state label)) step)
      start labels = some last) : Exec (Guarded guard (Of step)) start labels last :=
  (run_exec result).mono fun state label next taken =>
    have guarded := guardedStep_of state label next taken
    ⟨of_decide_eq_true guarded.1, guarded.2⟩

theorem guarded_of_isSome {guard : σ → ι → Prop} [∀ state label, Decidable (guard state label)]
    {step : σ → ι → Option σ} {start : σ} {labels : List ι}
    (runs : (run (guardedStep (fun state label => decide (guard state label)) step)
      start labels).isSome = true) :
    Exec (Guarded guard (Of step)) start labels
      ((run (guardedStep (fun state label => decide (guard state label)) step)
        start labels).get runs) :=
  guarded_of_run (Option.some_get runs).symm

theorem exec_of_isSome {step : σ → ι → Option σ} {start : σ} {labels : List ι}
    (runs : (run step start labels).isSome = true) :
    Exec (Of step) start labels ((run step start labels).get runs) :=
  run_exec (Option.some_get runs).symm

section Examples

variable {step : σ → ι → Option σ} {start : σ} {labels : List ι} {holds : σ → Prop}
  [DecidablePred holds]

/-- A run that can be evaluated, with what is true where it ends. -/
theorem exists_exec (ends : (run step start labels).any (fun last => decide (holds last)) = true) :
    ∃ last, Exec (Of step) start labels last ∧ holds last := by
  obtain ⟨last, result, true_of⟩ := (Option.any_eq_true _ _).mp ends
  exact ⟨last, run_exec result, of_decide_eq_true true_of⟩

theorem exists_guarded {guard : σ → ι → Prop} [∀ state label, Decidable (guard state label)]
    (ends : (run (guardedStep (fun state label => decide (guard state label)) step)
      start labels).any (fun last => decide (holds last)) = true) :
    ∃ last, Exec (Guarded guard (Of step)) start labels last ∧ holds last := by
  obtain ⟨last, result, true_of⟩ := (Option.any_eq_true _ _).mp ends
  exact ⟨last, guarded_of_run result, of_decide_eq_true true_of⟩

end Examples

end Transition
