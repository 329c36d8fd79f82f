import Mathlib

set_option autoImplicit false

/- Reading a list by position, page after page, while it changes between the pages. -/
namespace Cursor

variable {κ : Type} [DecidableEq κ]

/-- Behind the first `n` places nothing has been returned, and of what stayed in the list all the
time nothing in front of them has been left out. -/
structure Reads (list : List κ) (n : Nat) (stable returned : List κ) : Prop where
  listed : ∀ x ∈ stable, x ∈ list
  once : returned.Nodup
  front : ∀ x ∈ stable, x ∈ list.take n → x ∈ returned
  back : ∀ x ∈ list.drop n, x ∉ returned

/-- A change moves nothing that is still to be returned in front of the place, and nothing that was
returned behind it. -/
def Steady (list after : List κ) (n : Nat) (stable returned : List κ) : Prop :=
  (∀ x ∈ stable, x ∈ after → x ∈ list.drop n → x ∈ after.drop n) ∧
    ∀ x ∈ returned, x ∉ after.drop n

instance (list after : List κ) (n : Nat) (stable returned : List κ) :
    Decidable (Steady list after n stable returned) :=
  inferInstanceAs (Decidable (_ ∧ _))

variable {list after stable returned : List κ} {n m : Nat}

omit [DecidableEq κ] in
theorem notMem_drop_of_mem_take (nodup : list.Nodup) {x : κ} (front : x ∈ list.take n) :
    x ∉ list.drop n := by
  rw [← List.take_append_drop n list, List.nodup_append] at nodup
  exact fun back => nodup.2.2 x front x back rfl

omit [DecidableEq κ] in
theorem mem_take_or_drop {x : κ} (inside : x ∈ list) : x ∈ list.take n ∨ x ∈ list.drop n := by
  rw [← List.mem_append, List.take_append_drop]
  exact inside

omit [DecidableEq κ] in
theorem reads_start (nodup : returned.Nodup) (apart : ∀ x ∈ list, x ∉ returned) :
    Reads list 0 list returned where
  listed := fun _ inside => inside
  once := nodup
  front := fun _ _ front => absurd front List.not_mem_nil
  back := apart

omit [DecidableEq κ] in
/-- A page up to the place `m`. -/
theorem Reads.advance (reads : Reads list n stable returned) (nodup : list.Nodup) (order : n ≤ m) :
    Reads list m stable (returned ++ (list.take m).drop n) := by
  have page : ∀ x ∈ (list.take m).drop n, x ∈ list.drop n := by
    intro x inside
    rw [List.drop_take] at inside
    exact List.mem_of_mem_take inside
  constructor
  case listed => exact reads.listed
  case once =>
    apply List.nodup_append.mpr
    refine ⟨reads.once, (nodup.sublist (List.take_sublist m list)).sublist (List.drop_sublist n _),
      ?_⟩
    rintro x before _ now rfl
    exact reads.back x (page x now) before
  case front =>
    intro x held inside
    rw [List.mem_append]
    rcases @mem_take_or_drop κ (list.take m) n x inside with before | now
    · left
      rw [List.take_take, Nat.min_eq_left order] at before
      exact reads.front x held before
    · exact Or.inr now
  case back =>
    intro x behind
    rw [List.mem_append, not_or]
    constructor
    · apply reads.back
      rw [← Nat.add_sub_of_le order, ← List.drop_drop] at behind
      exact List.mem_of_mem_drop behind
    · exact fun now => notMem_drop_of_mem_take nodup (List.mem_of_mem_drop now) behind

/-- Reading goes on rightly exactly after a steady change. -/
theorem Reads.change_iff (reads : Reads list n stable returned) (nodup : after.Nodup) :
    Reads after n (stable.filter (· ∈ after)) returned ↔ Steady list after n stable returned := by
  have held : ∀ x, x ∈ stable.filter (· ∈ after) ↔ x ∈ stable ∧ x ∈ after := by
    intro x
    rw [List.mem_filter, decide_eq_true_iff]
  constructor
  · intro next
    refine ⟨fun x stays present behind => ?_, fun x known behind => next.back x behind known⟩
    rcases @mem_take_or_drop κ after n x present with front | back
    · exact absurd (next.front x ((held x).mpr ⟨stays, present⟩) front) (reads.back x behind)
    · exact back
  · rintro ⟨kept, apart⟩
    constructor
    case listed => exact fun x inside => ((held x).mp inside).2
    case once => exact reads.once
    case front =>
      intro x inside front
      obtain ⟨stays, present⟩ := (held x).mp inside
      rcases @mem_take_or_drop κ list n x (reads.listed x stays) with before | behind
      · exact reads.front x stays before
      · exact absurd (kept x stays present behind) (notMem_drop_of_mem_take nodup front)
    case back => exact fun x behind known => apart x known behind

omit [DecidableEq κ] in
/-- At the end of the list, everything that stayed in it has been returned. -/
theorem Reads.complete (reads : Reads list n stable returned) (ended : list.drop n = []) :
    ∀ x ∈ stable, x ∈ returned := by
  intro x stays
  rcases @mem_take_or_drop κ list n x (reads.listed x stays) with front | back
  · exact reads.front x stays front
  · rw [ended] at back
    exact absurd back List.not_mem_nil

end Cursor
