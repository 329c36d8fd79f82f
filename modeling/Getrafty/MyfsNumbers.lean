import Getrafty.MyfsSteps

set_option autoImplicit false

namespace Getrafty

namespace Myfs

namespace Server

variable {s t : Server} {fuse : Libfuse}

/-- The numbers of files are even and those of directories odd, and the counters are ahead of all
of them. -/
structure Numbered (s : Server) : Prop where
  counters : s.next_file_inode_ % 2 = 0 ∧ s.next_dir_inode_ % 2 = 1
  dirs : ∀ ino node, s.findInode ino = some node → node.is_directory_ = true →
    ino % 2 = 1 ∧ ino < s.next_dir_inode_
  files : ∀ ino node, s.findInode ino = some node → node.is_directory_ = false →
    ino % 2 = 0 ∧ ino < s.next_file_inode_

theorem Numbered.nextInode_free (numbered : s.Numbered) (is_directory : Bool) :
    s.findInode (s.nextInode is_directory) = none := by
  obtain ⟨even, odd⟩ := numbered.counters
  rw [Option.eq_none_iff_forall_ne_some]
  intro node found
  cases kind : node.is_directory_ with
  | true =>
      obtain ⟨parity, below⟩ := numbered.dirs _ node found kind
      cases is_directory with
      | true => exact absurd below (lt_irrefl _)
      | false => exact absurd (parity.symm.trans even) (by decide)
  | false =>
      obtain ⟨parity, below⟩ := numbered.files _ node found kind
      cases is_directory with
      | true => exact absurd (parity.symm.trans odd) (by decide)
      | false => exact absurd below (lt_irrefl _)

/-- There are no other nodes than before, and they are of the same kind with the same contents. -/
def Inherits (s t : Server) : Prop :=
  ∀ ino node, t.findInode ino = some node →
    ∃ old, s.findInode ino = some old ∧ old.is_directory_ = node.is_directory_ ∧
      old.data_ = node.data_

theorem Numbered.of_kinds (numbered : s.Numbered)
    (counters : t.next_file_inode_ = s.next_file_inode_ ∧ t.next_dir_inode_ = s.next_dir_inode_)
    (kinds : ∀ ino node, t.findInode ino = some node →
      ∃ old, s.findInode ino = some old ∧ old.is_directory_ = node.is_directory_) :
    t.Numbered where
  counters := by
    rw [counters.1, counters.2]
    exact numbered.counters
  dirs := by
    intro ino node present dir
    obtain ⟨old, before, same⟩ := kinds ino node present
    rw [counters.2]
    exact numbered.dirs ino old before (same.trans dir)
  files := by
    intro ino node present file
    obtain ⟨old, before, same⟩ := kinds ino node present
    rw [counters.1]
    exact numbered.files ino old before (same.trans file)

theorem Numbered.inherits (numbered : s.Numbered)
    (counters : t.next_file_inode_ = s.next_file_inode_ ∧ t.next_dir_inode_ = s.next_dir_inode_)
    (inherits : s.Inherits t) : t.Numbered := by
  apply numbered.of_kinds counters
  intro ino node present
  obtain ⟨old, before, same, -⟩ := inherits ino node present
  exact ⟨old, before, same⟩

section Added

variable {parent : Nat} {name : String} {pn : FileNode} {placement : Placement}
  {is_directory : Bool}

theorem Numbered.findInode_added (numbered : s.Numbered) (found : s.findDirectory parent = some pn)
    (x : Nat) :
    (s.added placement parent is_directory name).findInode x =
      if x = parent then some (addChild placement name (s.nextInode is_directory) pn)
      else if x = s.nextInode is_directory then
        some { is_directory_ := is_directory, parent_ino_ := parent }
      else s.findInode x := by
  have held := (findDirectory_eq_some.mp found).1
  have other : parent ≠ s.nextInode is_directory := by
    intro same
    rw [same, numbered.nextInode_free] at held
    cases held
  have inserted : ∀ y, ({ (if is_directory then
        { s with next_dir_inode_ := s.next_dir_inode_ + 2 }
        else { s with next_file_inode_ := s.next_file_inode_ + 2 }) with
      inode_map_ := s.inode_map_.insert (s.nextInode is_directory)
        { is_directory_ := is_directory, parent_ino_ := parent } } : Server).findInode y =
      if y = s.nextInode is_directory then
        some { is_directory_ := is_directory, parent_ino_ := parent }
      else s.findInode y := findInode_insert _
  rw [added, findInode_update, inserted, inserted, if_neg other, held, Option.map_some]

theorem added_counters :
    (s.added placement parent is_directory name).next_file_inode_ =
        s.next_file_inode_ + (if is_directory then 0 else 2) ∧
      (s.added placement parent is_directory name).next_dir_inode_ =
        s.next_dir_inode_ + (if is_directory then 2 else 0) := by
  unfold added
  have same := fun t : Server => @update_counters t parent
    (addChild placement name (s.nextInode is_directory))
  cases is_directory with
  | false => exact same _
  | true => exact same _

/-- A node of the new server is the new one, or comes from the one in its place. -/
theorem Numbered.added_origin (numbered : s.Numbered) (found : s.findDirectory parent = some pn)
    (ino : Nat) (node : FileNode)
    (present : (s.added placement parent is_directory name).findInode ino = some node) :
    (ino = s.nextInode is_directory ∧ node.is_directory_ = is_directory ∧ node.data_ = []) ∨
      ∃ old, s.findInode ino = some old ∧ old.is_directory_ = node.is_directory_ ∧
        old.data_ = node.data_ := by
  rw [numbered.findInode_added found] at present
  by_cases here : ino = parent
  · rw [if_pos here, Option.some.injEq] at present
    right
    exact ⟨pn, here ▸ (findDirectory_eq_some.mp found).1, present ▸ rfl, present ▸ rfl⟩
  · rw [if_neg here] at present
    by_cases new : ino = s.nextInode is_directory
    · rw [if_pos new, Option.some.injEq] at present
      exact Or.inl ⟨new, present ▸ rfl, present ▸ rfl⟩
    · rw [if_neg new] at present
      exact Or.inr ⟨node, present, rfl, rfl⟩

theorem Numbered.added (numbered : s.Numbered) (found : s.findDirectory parent = some pn) :
    (s.added placement parent is_directory name).Numbered := by
  obtain ⟨file_counter, dir_counter⟩ := @added_counters s parent name placement is_directory
  obtain ⟨even, odd⟩ := numbered.counters
  constructor
  case counters =>
    rw [file_counter, dir_counter]
    constructor <;> split <;> omega
  case dirs =>
    intro x node present dir
    rw [dir_counter]
    rcases numbered.added_origin found x node present with ⟨new, same, -⟩ | ⟨old, before, same, -⟩
    · obtain rfl : is_directory = true := same.symm.trans dir
      have given : x = s.next_dir_inode_ := new
      rw [if_pos rfl]
      omega
    · have bounds := numbered.dirs x old before (same.trans dir)
      omega
  case files =>
    intro x node present file
    rw [file_counter]
    rcases numbered.added_origin found x node present with ⟨new, same, -⟩ | ⟨old, before, same, -⟩
    · obtain rfl : is_directory = false := same.symm.trans file
      have given : x = s.next_file_inode_ := new
      rw [if_neg (by decide)]
      omega
    · have bounds := numbered.files x old before (same.trans file)
      omega

end Added

section Removed

variable {parent child : Nat} {name : String}

theorem inherits_erase (ino : Nat) :
    s.Inherits { s with inode_map_ := s.inode_map_.erase ino } := by
  intro x node present
  rw [findInode_erase] at present
  by_cases gone : x = ino
  · rw [if_pos gone] at present
    cases present
  · rw [if_neg gone] at present
    exact ⟨node, present, rfl, rfl⟩

theorem inherits_update {change : FileNode → FileNode} (ino : Nat)
    (kind : ∀ node, (change node).is_directory_ = node.is_directory_)
    (data : ∀ node, (change node).data_ = node.data_) : s.Inherits (s.update ino change) := by
  intro x node present
  rw [findInode_update] at present
  by_cases here : x = ino
  · rw [if_pos here] at present
    obtain ⟨old, before, same⟩ := Option.map_eq_some_iff.mp present
    exact ⟨old, here ▸ before, same ▸ (kind old).symm, same ▸ (data old).symm⟩
  · rw [if_neg here] at present
    exact ⟨node, present, rfl, rfl⟩

theorem Inherits.trans {u : Server} (first : s.Inherits t) (second : t.Inherits u) :
    s.Inherits u := by
  intro ino node present
  obtain ⟨middle, held, kind, data⟩ := second ino node present
  obtain ⟨old, before, again, alike⟩ := first ino middle held
  exact ⟨old, before, again.trans kind, alike.trans data⟩

theorem inherits_removed : s.Inherits (s.removed parent name child) :=
  (inherits_erase child).trans (inherits_update parent (fun _ => rfl) (fun _ => rfl))

theorem inherits_forgetInode : s.Inherits (s.forgetInode child) := by
  have erased : ∀ node, (eraseByInode child node).is_directory_ = node.is_directory_ ∧
      (eraseByInode child node).data_ = node.data_ := by
    intro node
    unfold eraseByInode
    split <;> exact ⟨rfl, rfl⟩
  unfold forgetInode
  cases s.findInode child with
  | none => exact fun ino node present => ⟨node, present, rfl, rfl⟩
  | some node =>
      dsimp only
      by_cases positive : node.parent_ino_ ≠ 0
      · rw [if_pos positive]
        exact (inherits_update _ (fun node => (erased node).1) (fun node => (erased node).2)).trans
          (inherits_erase child)
      · rw [if_neg positive]
        exact inherits_erase child

theorem removed_counters :
    (s.removed parent name child).next_file_inode_ = s.next_file_inode_ ∧
      (s.removed parent name child).next_dir_inode_ = s.next_dir_inode_ :=
  @update_counters { s with inode_map_ := s.inode_map_.erase child } parent (eraseChild name)

theorem forgetInode_counters :
    (s.forgetInode child).next_file_inode_ = s.next_file_inode_ ∧
      (s.forgetInode child).next_dir_inode_ = s.next_dir_inode_ := by
  unfold forgetInode
  cases s.findInode child with
  | none => exact ⟨rfl, rfl⟩
  | some node =>
      dsimp only
      by_cases positive : node.parent_ino_ ≠ 0
      · rw [if_pos positive]
        exact @update_counters s node.parent_ino_ (eraseByInode child)
      · rw [if_neg positive]
        exact ⟨rfl, rfl⟩

end Removed

section Filled

variable {ino : Nat} {data : List UInt8}

theorem findInode_filled (x : Nat) :
    (s.filled ino data).findInode x =
      if x = ino then (s.findInode ino).map fun node => { node with data_ := data }
      else s.findInode x := findInode_update _ x

theorem Numbered.filled (numbered : s.Numbered) : (s.filled ino data).Numbered := by
  apply numbered.of_kinds (t := s.filled ino data) (update_counters _)
  intro x node present
  rw [findInode_filled] at present
  by_cases here : x = ino
  · rw [if_pos here] at present
    obtain ⟨old, before, same⟩ := Option.map_eq_some_iff.mp present
    exact ⟨old, here ▸ before, same ▸ rfl⟩
  · rw [if_neg here] at present
    exact ⟨node, present, rfl⟩

end Filled

theorem findInode_init {files dirs : Nat} (x : Nat) :
    (init files dirs).findInode x =
      if x = 1 then some { is_directory_ := true, parent_ino_ := 1 } else none := by
  have single : (init files dirs).inode_map_ =
      AList.insert 1 { is_directory_ := true, parent_ino_ := 1 } ∅ := AList.insert_empty _ _
  rw [findInode, single]
  by_cases here : x = 1
  · rw [if_pos here, here]
    exact AList.lookup_insert _
  · rw [if_neg here]
    exact (AList.lookup_insert_ne here).trans (AList.lookup_empty x)

theorem init_only {files dirs ino : Nat} {node : FileNode}
    (found : (init files dirs).findInode ino = some node) :
    ino = 1 ∧ node = { is_directory_ := true, parent_ino_ := 1 } := by
  rw [findInode_init] at found
  by_cases here : ino = 1
  · rw [if_pos here, Option.some.injEq] at found
    exact ⟨here, found.symm⟩
  · rw [if_neg here] at found
    cases found

theorem numbered_init {files dirs : Nat} : (init files dirs).Numbered := by
  constructor
  case counters =>
    show (2 + 2 * files) % 2 = 0 ∧ (3 + 2 * dirs) % 2 = 1
    omega
  case dirs =>
    intro ino node found kind
    obtain ⟨rfl, -⟩ := init_only found
    show 1 % 2 = 1 ∧ 1 < 3 + 2 * dirs
    omega
  case files =>
    intro ino node found kind
    obtain ⟨-, rfl⟩ := init_only found
    cases kind

/-- No request gives a number out twice or to a node of another kind. -/
theorem Numbered.case (numbered : s.Numbered) {req : Request} {next : Server} {r : Reply}
    (exit : Case s req next r) : next.Numbered := by
  cases exit with
  | created placement parent name mode pn directory unused => exact numbered.added directory
  | made placement parent name mode pn directory unused => exact numbered.added directory
  | unlinked parent name pn child directory listed =>
      exact numbered.inherits removed_counters inherits_removed
  | dropped parent name pn cn child directory listed node empty =>
      exact numbered.inherits forgetInode_counters inherits_forgetInode
  | written ino buf off node resized data found kind grown copied => exact numbered.filled
  | truncated ino attr to_set node data found kind sized positive resized => exact numbered.filled
  | _ => exact numbered

end Server

end Myfs

end Getrafty
