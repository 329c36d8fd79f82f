import Getrafty.EventWatcherTable
import Getrafty.Lib.Transition
import Getrafty.Lib.Words

set_option autoImplicit false

namespace Getrafty

open Transition (Exec Of)
open Words (sizeRange toInt32 toInt32_eq)

variable {κ : Type}

namespace FdWatchMap

/-- An `int` that is not negative. -/
abbrev Fd : Type := Fin (2 ^ 31)

/-- `static_cast<int>((block_id * kBlockSize) + offset)`, where the sum is a `size_t`. -/
def descriptor (block_id offset : Nat) : Int :=
  toInt32 ((block_id * kBlockSize + offset) % sizeRange)

/-- What `forEach` calls its argument with, in this order. -/
def forEachFd (map : FdWatchMap κ) : List Int :=
  map.block.entries.flatMap fun block =>
    ((List.finRange kBlockSize).filter (fun offset => (block.2 offset).bitmask ≠ 0)).map
      (fun offset => descriptor block.1 offset.val)

/-- The calls of a client, and what they report. -/
inductive Call (κ : Type) where
  | try_emplace (fd : Fd) (value : WatchEntry κ) (inserted : Bool)
  | update (fd : Fd) (change : WatchEntry κ → WatchEntry κ)

/-- The map and the descriptors that there are references for. -/
structure Held (κ : Type) where
  map : FdWatchMap κ := {}
  refs : List Fd := []

/-- A call on the map; a change goes through a reference that `try_emplace` has returned. -/
def Held.step (held : Held κ) : Call κ → Option (Held κ)
  | .try_emplace fd value inserted =>
      let (map, reported) := held.map.try_emplace fd value
      if reported = inserted then some { map, refs := fd :: held.refs } else none
  | .update fd change =>
      if fd ∈ held.refs then
        some { held with map := held.map.assign fd (change (held.map.entry fd)) }
      else
        none

/-- One entry for each descriptor, in one map. -/
abbrev Entries (κ : Type) : Type := AList fun _ : Fd => WatchEntry κ

namespace Entries

def get (entries : Entries κ) (fd : Fd) : WatchEntry κ := (entries.lookup fd).getD {}

/-- An entry without bits counts as none. -/
def try_emplace (entries : Entries κ) (fd : Fd) (value : WatchEntry κ) : Entries κ × Bool :=
  match entries.lookup fd with
  | none => (entries.insert fd value, true)
  | some entry => if entry.bitmask = 0 then (entries.insert fd value, true) else (entries, false)

def step (entries : Entries κ) : Call κ → Option (Entries κ)
  | .try_emplace fd value inserted =>
      let (entries, reported) := entries.try_emplace fd value
      if reported = inserted then some entries else none
  | .update fd change => (entries.lookup fd).map fun entry => entries.insert fd (change entry)

end Entries

section Blocks

variable {map : FdWatchMap κ}

/-- The numbers of the blocks are those of descriptors. -/
def Bounded (map : FdWatchMap κ) : Prop := ∀ id ∈ map.block, id < 2 ^ 31 / kBlockSize

theorem Bounded.assign (bounded : map.Bounded) (fd : Fd) (value : WatchEntry κ) :
    (map.assign fd value).Bounded := by
  intro id inside
  rcases (AList.mem_insert _).mp inside with rfl | before
  · have small := fd.isLt
    show fd.val / 64 < 2 ^ 31 / 64
    omega
  · exact bounded id before

theorem descriptor_eq {block_id : Nat} (small : block_id < 2 ^ 31 / kBlockSize)
    (offset : Fin kBlockSize) :
    descriptor block_id offset = (block_id * kBlockSize + offset.val : Nat) := by
  have below : offset.val < 64 := offset.isLt
  have block : block_id < 2 ^ 31 / 64 := small
  have range : block_id * kBlockSize + offset.val < 2 ^ 31 := by
    have size := kBlockSize_eq
    generalize offset.val = place at below ⊢
    rw [size]
    omega
  unfold descriptor
  rw [Nat.mod_eq_of_lt (range.trans (by decide)), toInt32_eq range]

/-- On `size_t` and `int` the numbers come out as they were. -/
theorem Bounded.forEachFd_eq (bounded : map.Bounded) :
    map.forEachFd = map.forEach.map Int.ofNat := by
  unfold forEachFd forEach
  rw [List.map_flatMap]
  apply List.flatMap_congr
  intro block inside
  have small := bounded block.1 (AList.mem_keys.mpr (List.mem_map_of_mem inside))
  rw [List.map_map]
  apply List.map_congr_left
  intro offset _
  exact descriptor_eq small offset

theorem block_unique {first second place place' : Nat} (below : place < kBlockSize)
    (below' : place' < kBlockSize)
    (same : second * kBlockSize + place' = first * kBlockSize + place) : first = second := by
  rw [kBlockSize_eq] at below below' same
  omega

theorem forEach_nodup (map : FdWatchMap κ) : map.forEach.Nodup := by
  unfold forEach
  rw [List.nodup_flatMap]
  constructor
  · intro block _
    apply List.Nodup.map
    · intro first second same
      apply Fin.ext
      dsimp only at same
      omega
    · exact (List.nodup_finRange kBlockSize).filter _
  · apply List.Pairwise.imp _ (List.pairwise_map.mp map.block.nodupKeys)
    intro first second different
    apply List.disjoint_left.mpr
    intro fd in_first in_second
    obtain ⟨i, -, rfl⟩ := List.mem_map.mp in_first
    obtain ⟨j, -, same⟩ := List.mem_map.mp in_second
    exact different (block_unique i.isLt j.isLt same)

/-- `forEach` visits the descriptors with bits, each by its own number and once. -/
theorem Bounded.visits (bounded : map.Bounded) :
    map.forEachFd.Nodup ∧ ∀ n : Int, n ∈ map.forEachFd ↔
      ∃ fd : Fd, n = fd.val ∧ (map.entry fd).bitmask ≠ 0 := by
  rw [bounded.forEachFd_eq]
  refine ⟨(forEach_nodup map).map Int.ofNat_injective, fun n => ?_⟩
  rw [List.mem_map]
  constructor
  · rintro ⟨fd, visited, rfl⟩
    have bits := (mem_forEach map fd).mp visited
    have small : fd < 2 ^ 31 := by
      by_contra large
      apply bits
      have absent : map.block.lookup (getBlockAndIndex fd).1 = none := by
        apply AList.lookup_eq_none.mpr
        intro inside
        have below : fd / 64 < 2 ^ 31 / 64 := bounded _ inside
        omega
      rw [entry, slots, absent]
      rfl
    exact ⟨⟨fd, small⟩, rfl, bits⟩
  · rintro ⟨fd, rfl, bits⟩
    exact ⟨fd.val, (mem_forEach map fd).mpr bits, rfl⟩

end Blocks

section Refinement

variable {held next : Held κ} {entries : Entries κ} {call : Call κ} {calls : List (Call κ)}

/-- The blocks hold the entries, and there are references for the keys. -/
structure Refines (held : Held κ) (entries : Entries κ) : Prop where
  entry : ∀ fd : Fd, held.map.entry fd = entries.get fd
  refs : ∀ fd, fd ∈ held.refs ↔ fd ∈ entries
  bounded : held.map.Bounded

theorem entry_assign_fd (map : FdWatchMap κ) (fd other : Fd) (value : WatchEntry κ) :
    (map.assign fd value).entry other = if other = fd then value else map.entry other := by
  by_cases same : other = fd
  · rw [if_pos same, same, entry_assign]
  · rw [if_neg same, entry_assign_ne map (fun eq => same (Fin.ext eq))]

theorem Entries.get_insert (entries : Entries κ) (fd other : Fd) (value : WatchEntry κ) :
    Entries.get (entries.insert fd value) other =
      if other = fd then value else entries.get other := by
  unfold Entries.get
  by_cases same : other = fd
  · rw [if_pos same, same, AList.lookup_insert, Option.getD_some]
  · rw [if_neg same, AList.lookup_insert_ne same]

/-- Both sides report an insertion where the entry has no bits, and have the same entries then. -/
theorem Refines.try_emplace (refines : Refines held entries) (fd : Fd) (value : WatchEntry κ) :
    (held.map.try_emplace fd value).2 = (entries.try_emplace fd value).2 ∧
      Refines { map := (held.map.try_emplace fd value).1, refs := fd :: held.refs }
        (entries.try_emplace fd value).1 := by
  have here := refines.entry fd
  have moved : ∀ other : Fd, (held.map.assign fd value).entry other =
      Entries.get (entries.insert fd value) other := by
    intro other
    rw [entry_assign_fd, Entries.get_insert, refines.entry]
  have known : ∀ other, other ∈ fd :: held.refs ↔ other ∈ entries.insert fd value := by
    intro other
    rw [List.mem_cons, AList.mem_insert, refines.refs]
  unfold FdWatchMap.try_emplace Entries.try_emplace
  cases found : entries.lookup fd with
  | none =>
      have empty : (held.map.entry fd).bitmask = 0 := by
        rw [here, Entries.get, found]
        rfl
      dsimp only
      rw [decide_eq_true empty, if_pos empty]
      exact ⟨rfl, moved, known, refines.bounded.assign fd value⟩
  | some entry =>
      have same : held.map.entry fd = entry := by
        rw [here, Entries.get, found]
        rfl
      dsimp only
      rw [same]
      by_cases empty : entry.bitmask = 0
      · rw [decide_eq_true empty, if_pos empty, if_pos empty]
        exact ⟨rfl, moved, known, refines.bounded.assign fd value⟩
      · rw [decide_eq_false empty, if_neg empty, if_neg empty]
        refine ⟨rfl, fun other => ?_, fun other => ?_, refines.bounded.assign fd entry⟩
        · rw [entry_assign_fd, ← same, ← refines.entry]
          by_cases here : other = fd
          · rw [if_pos here, here]
          · rw [if_neg here]
        · rw [List.mem_cons, refines.refs, or_iff_right_of_imp]
          rintro rfl
          exact AList.lookup_isSome.mp (Option.isSome_of_eq_some found)

theorem Refines.update (refines : Refines held entries) (fd : Fd)
    (change : WatchEntry κ → WatchEntry κ) {entry : WatchEntry κ}
    (found : entries.lookup fd = some entry) :
    Refines { held with map := held.map.assign fd (change (held.map.entry fd)) }
      (entries.insert fd (change entry)) := by
  have same : held.map.entry fd = entry := by
    rw [refines.entry, Entries.get, found]
    rfl
  constructor
  case entry =>
    intro other
    rw [entry_assign_fd, Entries.get_insert, same, refines.entry]
  case refs =>
    intro other
    rw [AList.mem_insert, refines.refs, or_iff_right_of_imp]
    rintro rfl
    exact AList.lookup_isSome.mp (Option.isSome_of_eq_some found)
  case bounded => exact refines.bounded.assign fd _

/-- The blocks and the one map take the same steps. -/
theorem Refines.step (refines : Refines held entries) (call : Call κ) :
    (held.step call = none ∧ entries.step call = none) ∨
      ∃ next after, held.step call = some next ∧ entries.step call = some after ∧
        Refines next after := by
  cases call with
  | try_emplace fd value inserted =>
      obtain ⟨reported, emplaced⟩ := refines.try_emplace fd value
      unfold Held.step Entries.step
      dsimp only
      rw [reported]
      by_cases agreed : (entries.try_emplace fd value).2 = inserted
      · rw [if_pos agreed, if_pos agreed]
        exact Or.inr ⟨_, _, rfl, rfl, emplaced⟩
      · rw [if_neg agreed, if_neg agreed]
        exact Or.inl ⟨rfl, rfl⟩
  | update fd change =>
      unfold Held.step Entries.step
      cases found : entries.lookup fd with
      | none =>
          have unknown : fd ∉ held.refs := by
            rw [refines.refs]
            exact AList.lookup_eq_none.mp found
          dsimp only
          rw [if_neg unknown, found]
          exact Or.inl ⟨rfl, rfl⟩
      | some entry =>
          have known : fd ∈ held.refs := by
            rw [refines.refs]
            exact AList.lookup_isSome.mp (Option.isSome_of_eq_some found)
          dsimp only
          rw [if_pos known, found]
          exact Or.inr ⟨_, _, rfl, rfl, refines.update fd change found⟩

theorem refines_empty : Refines ({} : Held κ) ∅ where
  entry := fun fd => entry_empty fd.val
  refs := fun fd => iff_of_false nofun (AList.notMem_empty fd)
  bounded := fun id inside => absurd inside (AList.notMem_empty id)

/-- What the calls report is what they would report on one map of entries. -/
theorem refines_run {calls : List (Call κ)} {held : Held κ}
    (run : Exec (Of Held.step) {} calls held) :
    ∃ entries, Exec (Of Entries.step) ∅ calls entries ∧ Refines held entries := by
  induction run with
  | nil => exact ⟨∅, .nil, refines_empty⟩
  | @snoc calls held next call before taken ih =>
      obtain ⟨entries, run, refines⟩ := ih
      rcases refines.step call with ⟨stuck, -⟩ | ⟨after, other, moved, followed, kept⟩
      · cases stuck.symm.trans taken
      · obtain rfl := Option.some.inj (moved.symm.trans taken)
        exact ⟨other, run.snoc followed, kept⟩

/-- The blocks refine one map from descriptors to entries: they have a slot of its own for each
descriptor, insert where the entry has no bits and nowhere else, and visit what has bits. -/
theorem fdWatchMap_refines {calls : List (Call κ)} {held : Held κ}
    (run : Exec (Of Held.step) {} calls held) :
    (∃ entries, Exec (Of Entries.step) ∅ calls entries ∧
      (∀ fd : Fd, held.map.entry fd = entries.get fd) ∧
      ∀ call, (held.step call).isSome = (entries.step call).isSome) ∧
    (∀ fd other : Fd, fd ≠ other → getBlockAndIndex fd ≠ getBlockAndIndex other) ∧
    (∀ (fd other : Fd) (change : WatchEntry κ → WatchEntry κ), other ≠ fd →
      (held.map.assign fd (change (held.map.entry fd))).entry other = held.map.entry other) ∧
    (∀ (fd other : Fd) (value : WatchEntry κ),
      ((held.map.try_emplace fd value).2 = true ↔ (held.map.entry fd).bitmask = 0) ∧
      (held.map.try_emplace fd value).1.entry other =
        if other = fd ∧ (held.map.entry fd).bitmask = 0 then value else held.map.entry other) ∧
    held.map.forEachFd.Nodup ∧
    ∀ n : Int, n ∈ held.map.forEachFd ↔
      ∃ fd : Fd, n = fd.val ∧ (held.map.entry fd).bitmask ≠ 0 := by
  obtain ⟨entries, flat, refines⟩ := refines_run run
  refine ⟨⟨entries, flat, refines.entry, fun call => ?_⟩, ?_, ?_, ?_, refines.bounded.visits⟩
  · rcases refines.step call with ⟨stuck, also⟩ | ⟨next, after, moved, followed, -⟩
    · rw [stuck, also]
      rfl
    · rw [moved, followed]
      rfl
  · exact fun fd other different same => different (Fin.ext (getBlockAndIndex_injective same))
  · intro fd other change different
    rw [entry_assign_fd, if_neg different]
  · intro fd other value
    refine ⟨decide_eq_true_iff, ?_⟩
    show (held.map.assign fd _).entry other = _
    rw [entry_assign_fd]
    by_cases here : other = fd
    · subst here
      by_cases empty : (held.map.entry other).bitmask = 0
      · rw [if_pos rfl, if_pos empty, if_pos ⟨rfl, empty⟩]
      · rw [if_pos rfl, if_neg empty, if_neg (fun both => empty both.2)]
    · rw [if_neg here, if_neg (fun both => here both.1)]

/-- Two neighbours in a block and one in the next, one of them emptied and filled again. -/
theorem fdWatchMap_refines_example :
    ∃ (calls : List (Call Nat)) (held : Held Nat), Exec (Of Held.step) {} calls held ∧
      calls.length = 5 ∧ held.map.forEachFd.Nodup ∧ (3 : Int) ∈ held.map.forEachFd ∧
      (4 : Int) ∉ held.map.forEachFd := by
  let calls : List (Call Nat) := [.try_emplace 3 { bitmask := 1 } true,
    .try_emplace 64 { bitmask := 4 } true, .update 3 fun entry => { entry with bitmask := 0 },
    .try_emplace 3 { bitmask := 4 } true, .try_emplace 64 {} false]
  have runs : (Transition.run Held.step {} calls).isSome = true := by decide +kernel
  have run := Transition.exec_of_isSome runs
  obtain ⟨-, -, -, -, once, visited⟩ := fdWatchMap_refines run
  have set : ((((Transition.run Held.step {} calls).get runs).map.entry (3 : Fd)).bitmask ≠ 0) ∧
      (((Transition.run Held.step {} calls).get runs).map.entry (4 : Fd)).bitmask = 0 := by
    clear run once visited
    revert runs
    decide +kernel
  refine ⟨calls, _, run, rfl, once, (visited 3).mpr ⟨3, rfl, set.1⟩, ?_⟩
  intro inside
  obtain ⟨fd, same, bits⟩ := (visited 4).mp inside
  have four : (4 : Fd).val = 4 := rfl
  obtain rfl : fd = 4 := Fin.ext (by omega)
  exact bits set.2

end Refinement

end FdWatchMap

end Getrafty
