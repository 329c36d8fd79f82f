import Getrafty.MyfsTree

set_option autoImplicit false

namespace Getrafty

namespace Myfs

open Transition (Exec Of Guarded guardedStep)
open Words (sizeRange addSize subSize)

namespace Server

variable {s : Server} {fuse : Libfuse}

section Crowds

theorem length_insert_new {β : Type} {map : AList fun _ : β => FileNode} [DecidableEq β] {key : β}
    (new : key ∉ map) (node : FileNode) :
    (map.insert key node).entries.length = map.entries.length + 1 := by
  rw [AList.entries_insert_of_notMem new, List.length_cons]

theorem length_update (ino : Nat) (change : FileNode → FileNode) :
    (s.update ino change).inode_map_.entries.length = s.inode_map_.entries.length := by
  unfold update
  cases found : s.findInode ino with
  | none => rfl
  | some node =>
      have inside : ino ∈ s.inode_map_ := AList.lookup_isSome.mp (Option.isSome_of_eq_some found)
      have erased := List.length_erase_add_one (AList.mem_keys.mp inside)
      rw [AList.keys, ← List.keys_kerase] at erased
      simp only [List.keys, List.length_map] at erased
      dsimp only
      rw [AList.entries_insert, List.length_cons, erased]

/-- A name of that length. -/
def longName (n : Nat) : String := String.ofList (List.replicate n 'x')

theorem longName_length (n : Nat) : (longName n).length = n := by
  rw [longName, String.length_ofList, List.length_replicate]

/-- `n` files in the root directory, and nothing else. -/
structure Crowded (s : Server) (n : Nat) : Prop where
  sound : s.Sound
  inodes : s.inode_map_.entries.length = n + 1
  names : ∃ root, s.findDirectory 1 = some root ∧ root.children_.entries.length = n ∧
    ∀ name ∈ root.children_, name.length < n

theorem Crowded.create {n : Nat} (crowded : s.Crowded n) (fuse : Libfuse) :
    ∃ label next, s.KernelVfs label ∧ step fuse s label = some next ∧ next.Crowded (n + 1) := by
  obtain ⟨root, found, many, short⟩ := crowded.names
  obtain ⟨held, kind⟩ := findDirectory_eq_some.mp found
  have free := crowded.sound.toNumbered.nextInode_free false
  have unused : longName n ∉ root.children_ := by
    intro taken
    have below := short _ taken
    rw [longName_length] at below
    omega
  have other : 1 ≠ s.nextInode false := by
    intro same
    rw [← same, held] at free
    cases free
  have created : ∃ replies, s.create .front 1 (longName n) 0 =
      some (s.added .front 1 false (longName n), replies) := by
    unfold Server.create
    simp only [found]
    rw [if_neg unused, allocateInode_eq .front found, Option.bind_some]
    exact ⟨_, rfl⟩
  obtain ⟨replies, created⟩ := created
  refine ⟨(.create .front 1 (longName n) 0, replies), s.added .front 1 false (longName n), trivial,
    step_eq_some.mpr created, ?_⟩
  refine ⟨crowded.sound.added found unused, ?_, addChild .front (longName n) (s.nextInode false)
    root, ?_, ?_, ?_⟩
  · unfold added
    rw [length_update]
    have new : s.nextInode false ∉ s.inode_map_ := AList.lookup_eq_none.mp free
    exact (length_insert_new new _).trans (congrArg (· + 1) crowded.inodes)
  · apply findDirectory_eq_some.mpr
    rw [crowded.sound.toNumbered.findInode_added found, if_pos rfl]
    exact ⟨rfl, kind⟩
  · show (root.children_.insert (longName n) (s.nextInode false)).entries.length = n + 1
    rw [AList.entries_insert_of_notMem unused, List.length_cons, many]
  · intro name inside
    rcases (AList.mem_insert _).mp inside with rfl | before
    · rw [longName_length]
      omega
    · exact Nat.lt_succ_of_lt (short name before)

/-- Nothing limits the number of files. -/
theorem exists_crowded (fuse : Libfuse) (n : Nat) : ∃ labels s,
    Exec (Guarded KernelVfs (Of (step fuse))) (init 0 0) labels s ∧ s.Crowded n := by
  induction n with
  | zero =>
      refine ⟨[], init 0 0, .nil, sound_init, rfl, { is_directory_ := true, parent_ino_ := 1 }, ?_,
        rfl, nofun⟩
      apply findDirectory_eq_some.mpr
      rw [findInode_init, if_pos rfl]
      exact ⟨rfl, rfl⟩
  | succ n ih =>
      obtain ⟨labels, s, run, crowded⟩ := ih
      obtain ⟨label, next, kernel, taken, more⟩ := crowded.create fuse
      exact ⟨labels ++ [label], next, run.snoc ⟨kernel, taken⟩, more⟩

end Crowds

section Accounting

/-- The lengths of all files together. -/
def used (s : Server) : Nat :=
  (s.inode_map_.entries.map fun entry =>
    if entry.2.is_directory_ then 0 else entry.2.data_.length).sum

/-- The free blocks are those that the files leave, and the free inodes are the rest of the
capacity. -/
structure Accounted (s : Server) (stat : Statvfs) : Prop where
  free : stat.f_bfree = (TOTAL_SPACE - s.used) / BLOCK_SIZE
  available : stat.f_bavail = stat.f_bfree
  bounded : stat.f_bfree ≤ stat.f_blocks
  files : stat.f_files ≤ TOTAL_SPACE / BLOCK_SIZE →
    stat.f_files + stat.f_ffree = TOTAL_SPACE / BLOCK_SIZE
  full : TOTAL_SPACE / BLOCK_SIZE < stat.f_files → stat.f_ffree = 0

theorem foldl_addSize (entries : List ((_ : Nat) × FileNode)) (start : Nat)
    (small : start < sizeRange) :
    entries.foldl (fun used entry =>
      if entry.2.is_directory_ then used else addSize used entry.2.data_.length) start =
      (start + (entries.map fun entry =>
        if entry.2.is_directory_ then 0 else entry.2.data_.length).sum) % sizeRange := by
  induction entries generalizing start with
  | nil => exact (Nat.mod_eq_of_lt small).symm
  | cons entry entries ih =>
      rw [List.foldl_cons, List.map_cons, List.sum_cons]
      cases kind : entry.2.is_directory_ with
      | true =>
          simp only [if_true]
          rw [ih start small, Nat.zero_add]
      | false =>
          simp only [Bool.false_eq_true, if_false]
          have wrapped : addSize start entry.2.data_.length < sizeRange :=
            Nat.mod_lt _ (by decide)
          rw [ih _ wrapped, addSize, Nat.mod_add_mod, Nat.add_assoc]

/-- The sum of the lengths is taken on `size_t`. -/
theorem used_space_eq : s.inode_map_.entries.foldl (fun used entry =>
    if entry.2.is_directory_ then used else addSize used entry.2.data_.length) 0 =
      s.used % sizeRange := by
  rw [foldl_addSize _ 0 (by decide), Nat.zero_add]
  rfl

theorem statfs_eq : s.statfs = s.reply (.statfs {
    f_bsize := BLOCK_SIZE
    f_frsize := BLOCK_SIZE
    f_blocks := TOTAL_SPACE / BLOCK_SIZE
    f_bfree := (TOTAL_SPACE - s.used % sizeRange) / BLOCK_SIZE
    f_bavail := (TOTAL_SPACE - s.used % sizeRange) / BLOCK_SIZE
    f_files := s.inode_map_.entries.length
    f_ffree := subSize (TOTAL_SPACE / BLOCK_SIZE) s.inode_map_.entries.length
    f_namemax := NAME_MAX }) := by
  have free : (if s.used % sizeRange < TOTAL_SPACE then TOTAL_SPACE - s.used % sizeRange else 0) =
      TOTAL_SPACE - s.used % sizeRange := by
    by_cases some_left : s.used % sizeRange < TOTAL_SPACE
    · rw [if_pos some_left]
    · rw [if_neg some_left]
      omega
  unfold statfs
  simp only [used_space_eq, free]

/-- The sum is off by a multiple of 2^64, which shows unless no whole block is free either way. -/
theorem free_blocks_iff : (TOTAL_SPACE - s.used % sizeRange) / BLOCK_SIZE =
    (TOTAL_SPACE - s.used) / BLOCK_SIZE ↔
      s.used < sizeRange ∨ TOTAL_SPACE < s.used % sizeRange + BLOCK_SIZE := by
  unfold TOTAL_SPACE BLOCK_SIZE sizeRange
  omega

theorem free_inodes_iff {inodes : Nat} (counted : inodes < sizeRange) :
    (inodes ≤ TOTAL_SPACE / BLOCK_SIZE →
      inodes + subSize (TOTAL_SPACE / BLOCK_SIZE) inodes = TOTAL_SPACE / BLOCK_SIZE) ∧
    ((TOTAL_SPACE / BLOCK_SIZE < inodes → subSize (TOTAL_SPACE / BLOCK_SIZE) inodes = 0) ↔
      inodes ≤ TOTAL_SPACE / BLOCK_SIZE) := by
  unfold subSize TOTAL_SPACE BLOCK_SIZE
  unfold sizeRange at counted ⊢
  omega

/-- `statfs` accounts for everything exactly as long as there are not more inodes than blocks and
the sum of the file lengths does not wrap, or wraps to a disk that is full. -/
theorem statfs_accounts_iff (counted : s.inode_map_.entries.length < sizeRange) :
    (∃ stat, s.statfs = some (s, [.statfs stat]) ∧ s.Accounted stat) ↔
      s.inode_map_.entries.length ≤ TOTAL_SPACE / BLOCK_SIZE ∧
        (s.used < sizeRange ∨ TOTAL_SPACE < s.used % sizeRange + BLOCK_SIZE) := by
  obtain ⟨exact_files, full_iff⟩ := free_inodes_iff counted
  constructor
  · rintro ⟨stat, replied, accounted⟩
    rw [statfs_eq] at replied
    have same := Reply.statfs.inj (List.singleton_inj.mp (reply_eq replied).2)
    rw [same] at accounted
    exact ⟨full_iff.mp accounted.full, free_blocks_iff.mp accounted.free⟩
  · rintro ⟨within, fits⟩
    refine ⟨_, statfs_eq, ?_⟩
    constructor
    case free => exact free_blocks_iff.mpr fits
    case available => rfl
    case bounded => exact Nat.div_le_div_right (Nat.sub_le _ _)
    case files => exact exact_files
    case full => exact full_iff.mpr within

/-- A directory, a file of three bytes in it, and an empty one beside it. -/
def stocked : List (Request × List Reply) := [
  (.mkdir .front 1 "a" 0o755, [.entry { ino := 3, attr := {
    st_mode := S_IFDIR ||| 0o755, st_nlink := 2, st_size := 0 } }]),
  (.create .front 3 "f" 0o644, [.create { ino := 2, attr := {
    st_mode := S_IFREG ||| 0o644, st_nlink := 1, st_size := 0 } }]),
  (.create .front 1 "g" 0o644, [.create { ino := 4, attr := {
    st_mode := S_IFREG ||| 0o644, st_nlink := 1, st_size := 0 } }]),
  (.write 2 [7, 8] 1, [.write 2])]

theorem statfs_accounts_stocked : ∃ s stat,
    Exec (Guarded KernelVfs (Of (step .aligned))) (init 0 0) stocked s ∧
      s.inode_map_.entries.length = 4 ∧ s.used = 3 ∧
        s.statfs = some (s, [.statfs stat]) ∧ s.Accounted stat := by
  obtain ⟨s, run, inodes, used⟩ :
      ∃ s, Exec (Guarded KernelVfs (Of (step .aligned))) (init 0 0) stocked s ∧
        s.inode_map_.entries.length = 4 ∧ s.used = 3 :=
        Transition.exists_guarded (by decide +kernel)
  have counted : s.inode_map_.entries.length < sizeRange := by
    rw [inodes]
    decide
  have accounts := (statfs_accounts_iff counted).mpr (by rw [inodes, used]; decide)
  obtain ⟨stat, replied, accounted⟩ := accounts
  exact ⟨s, stat, run, inodes, used, replied, accounted⟩

/-- With 2048 files in the root directory, more inodes are free than there are at all. -/
theorem statfs_wraps :
    ¬ ∀ (fuse : Libfuse) (labels : List (Request × List Reply)) (s : Server),
      Exec (Guarded KernelVfs (Of (step fuse))) (init 0 0) labels s →
        ∃ stat, s.statfs = some (s, [.statfs stat]) ∧ s.Accounted stat := by
  intro always
  obtain ⟨labels, s, run, crowded⟩ := exists_crowded .aligned 2048
  obtain ⟨stat, replied, accounted⟩ := always .aligned labels s run
  rw [statfs_eq] at replied
  have same := Reply.statfs.inj (List.singleton_inj.mp (reply_eq replied).2)
  rw [same] at accounted
  have full := accounted.full
  dsimp only at full
  rw [crowded.inodes] at full
  exact absurd (full (by decide)) (by decide)

end Accounting

end Server

end Myfs

end Getrafty
