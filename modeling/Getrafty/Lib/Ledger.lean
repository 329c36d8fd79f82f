import Mathlib

set_option autoImplicit false

/-- Requests numbered in the order they are issued: how many there are, those held for a later
answer, and those answered, once for each answer. -/
structure Ledger where
  issued : Nat
  held : List Nat
  answered : List Nat

namespace Ledger

def weight (book : Ledger) (id : Nat) : Nat := book.held.count id + book.answered.count id

def due (book : Ledger) (id : Nat) : Nat := if id < book.issued then 1 else 0

/-- Each issued request is either held or answered, and once. -/
def Exact (book : Ledger) : Prop := ∀ id, book.weight id = book.due id

/-- No request is held or answered more than once, and none before it is issued. -/
def AtMost (book : Ledger) : Prop := ∀ id, book.weight id ≤ book.due id

/-- The changes that lose no request and repeat none. -/
inductive Move (book next : Ledger) : Prop
  | rest (issued : next.issued = book.issued) (held : next.held.Perm book.held)
      (answered : next.answered = book.answered)
  | refuse (issued : next.issued = book.issued + 1) (held : next.held.Perm book.held)
      (answered : next.answered = book.answered ++ [book.issued])
  | accept (issued : next.issued = book.issued + 1)
      (held : next.held.Perm (book.issued :: book.held)) (answered : next.answered = book.answered)
  | answer (id : Nat) (issued : next.issued = book.issued) (held : book.held.Perm (id :: next.held))
      (answered : next.answered = book.answered ++ [id])

/-- A held request is forgotten. -/
structure Lapse (book next : Ledger) (id : Nat) : Prop where
  issued : next.issued = book.issued
  held : book.held.Perm (id :: next.held)
  answered : next.answered = book.answered

/-- A request that is not held is answered. -/
structure Again (book next : Ledger) (id : Nat) : Prop where
  issued : next.issued = book.issued
  held : next.held.Perm book.held
  answered : next.answered = book.answered ++ [id]

/-- Each issued request is held or answered. -/
def AtLeast (book : Ledger) : Prop := ∀ id, book.due id ≤ book.weight id

section Rules

variable {book next : Ledger}

theorem count_snoc (ids : List Nat) (one id : Nat) :
    (ids ++ [one]).count id = ids.count id + if one = id then 1 else 0 := by
  rw [List.count_append, List.count_singleton]
  simp only [beq_iff_eq]

theorem due_succ (issued : next.issued = book.issued + 1) (id : Nat) :
    next.due id = book.due id + if book.issued = id then 1 else 0 := by
  unfold due
  rw [issued]
  split <;> split <;> split <;> omega

/-- What is owed and what was done stay in balance. -/
theorem Move.balance (move : Move book next) (id : Nat) :
    next.weight id + book.due id = book.weight id + next.due id := by
  cases move with
  | rest issued held answered =>
      unfold weight due
      rw [issued, held.count_eq, answered]
  | refuse issued held answered =>
      rw [due_succ issued]
      unfold weight
      rw [held.count_eq, answered, count_snoc]
      omega
  | accept issued held answered =>
      rw [due_succ issued]
      unfold weight
      rw [held.count_eq, answered, List.count_cons]
      simp only [beq_iff_eq]
      omega
  | answer one issued held answered =>
      unfold weight due
      rw [issued, held.count_eq, answered, count_snoc, List.count_cons]
      simp only [beq_iff_eq]
      omega

theorem Move.exact_iff (move : Move book next) : next.Exact ↔ book.Exact := by
  constructor <;> intro exact id <;> have := move.balance id <;> have := exact id <;> omega

theorem Move.atMost (move : Move book next) (most : book.AtMost) : next.AtMost := by
  intro id
  have := move.balance id
  have := most id
  omega

theorem Lapse.balance {gone : Nat} (lapse : Lapse book next gone) (id : Nat) :
    next.weight id + (if gone = id then 1 else 0) = book.weight id ∧ next.due id = book.due id := by
  unfold weight due
  rw [lapse.issued, lapse.held.count_eq, lapse.answered, List.count_cons]
  simp only [beq_iff_eq, and_true]
  omega

theorem Lapse.atMost {gone : Nat} (lapse : Lapse book next gone) (most : book.AtMost) :
    next.AtMost := by
  intro id
  obtain ⟨weighed, due⟩ := lapse.balance id
  have := most id
  omega

theorem Lapse.not_exact {gone : Nat} (lapse : Lapse book next gone) (most : book.AtMost) :
    ¬ next.Exact := by
  intro exact
  obtain ⟨weighed, due⟩ := lapse.balance gone
  rw [if_pos rfl] at weighed
  have := most gone
  have := exact gone
  omega

theorem Again.balance {more : Nat} (again : Again book next more) (id : Nat) :
    next.weight id = book.weight id + (if more = id then 1 else 0) ∧ next.due id = book.due id := by
  unfold weight due
  rw [again.issued, again.held.count_eq, again.answered, count_snoc]
  exact ⟨by omega, rfl⟩

theorem Move.atLeast (move : Move book next) (least : book.AtLeast) : next.AtLeast := by
  intro id
  have := move.balance id
  have := least id
  omega

theorem Again.atLeast {more : Nat} (again : Again book next more) (least : book.AtLeast) :
    next.AtLeast := by
  intro id
  obtain ⟨weighed, due⟩ := again.balance id
  have := least id
  omega

theorem AtLeast.answered (least : book.AtLeast) {id : Nat} (issued : id < book.issued)
    (released : id ∉ book.held) : 1 ≤ book.answered.count id := by
  have balanced := least id
  unfold weight due at balanced
  rw [List.count_eq_zero_of_not_mem released, if_pos issued, Nat.zero_add] at balanced
  exact balanced

theorem Exact.answered_le (exact : book.Exact) (id : Nat) : book.answered.count id ≤ 1 := by
  have balanced := exact id
  unfold weight due at balanced
  split at balanced <;> omega

theorem Exact.answered_once (exact : book.Exact) {id : Nat} (issued : id < book.issued)
    (released : id ∉ book.held) : book.answered.count id = 1 := by
  have balanced := exact id
  unfold weight due at balanced
  rw [List.count_eq_zero_of_not_mem released, if_pos issued, Nat.zero_add] at balanced
  exact balanced

theorem Again.twice {more : Nat} (again : Again book next more) (exact : book.Exact)
    (issued : more < book.issued) (released : more ∉ book.held) :
    next.answered.count more = 2 := by
  rw [again.answered, count_snoc, exact.answered_once issued released, if_pos rfl]

theorem Exact.owed (exact : book.Exact) {id : Nat} (held : id ∈ book.held) :
    id < book.issued ∧ book.answered.count id = 0 := by
  have balanced := exact id
  unfold weight due at balanced
  have := List.count_pos_iff.mpr held
  split at balanced
  · exact ⟨‹_›, by omega⟩
  · omega

/-- Exactness in the words of a caller: each request is answered at most once, and once it is no
longer held. -/
theorem AtMost.exact_iff (most : book.AtMost) : book.Exact ↔
    ∀ id < book.issued, book.answered.count id ≤ 1 ∧
      (id ∉ book.held → book.answered.count id = 1) := by
  constructor
  · intro exact id issued
    exact ⟨exact.answered_le id, exact.answered_once issued⟩
  · intro answers id
    have bounded := most id
    unfold weight due at bounded ⊢
    split at bounded
    · rename_i issued
      rw [if_pos issued]
      by_cases held : id ∈ book.held
      · have := List.count_pos_iff.mpr held
        omega
      · have := (answers id issued).2 held
        omega
    · rename_i later
      rw [if_neg later]
      omega

end Rules

end Ledger
