import Getrafty.Lib.NameTree
import Getrafty.MyfsNumbers

set_option autoImplicit false

namespace Getrafty

namespace Myfs

open Transition (Exec Of Guarded guardedStep)

namespace Server

variable {s : Server} {fuse : Libfuse}

/-- The inode that `name` stands for in `dir`. -/
def entry (s : Server) (dir : Nat) (name : String) : Option Nat :=
  (s.findInode dir).bind fun node => node.children_.lookup name

/-- What the server says about the tree: the kinds and parents, and the names. -/
def nameTree (s : Server) : NameTree Nat String where
  node := fun ino => (s.findInode ino).map fun node => (node.is_directory_, node.parent_ino_)
  entry := s.entry

/-- The names make up a tree, and the map holds the inodes of that tree. -/
structure Tree (s : Server) : Prop where
  root : (s.findDirectory 1).isSome
  children : ∀ dir name child, s.entry dir name = some child →
    ∃ node, s.findInode child = some node ∧ node.parent_ino_ = dir
  named : ∀ ino, (s.findInode ino).isSome → ino ≠ 1 →
    ∃! place : Nat × String, s.entry place.1 place.2 = some ino
  ascends : ∀ ino, (s.findInode ino).isSome → s.nameTree.Ascends 1 ino
  files : ∀ ino node, s.findInode ino = some node → node.is_directory_ = false →
    node.children_ = ∅
  fresh : ∀ placement parent is_directory name ino next,
    s.allocateInode placement parent is_directory name = some (ino, next) →
      s.findInode ino = none

/-- The tree is well formed, and its numbers come from the counters. -/
structure Sound (s : Server) : Prop extends Numbered s where
  tree : s.nameTree.WellFormed 1

/-- The kernel unlinks no directories. -/
def KernelVfs (s : Server) : Request × List Reply → Prop
  | (.unlink parent name, _) => (s.entry parent name).bind s.findDirectory = none
  | _ => True

instance (s : Server) : DecidablePred s.KernelVfs :=
  fun label => match label with
    | (.unlink _ _, _) => inferInstanceAs (Decidable (_ = none))
    | (.lookup _ _, _) | (.create _ _ _ _, _) | (.open_ _, _) | (.readdir _ _ _, _)
    | (.write _ _ _, _) | (.statfs, _) | (.getattr _, _) | (.read _ _ _, _) | (.mkdir _ _ _ _, _)
    | (.rmdir _ _, _) | (.setattr _ _ _, _) | (.getxattr, _) => isTrue trivial

section Consequences

variable {ino : Nat} {node : FileNode}

theorem nameTree_node (found : s.findInode ino = some node) :
    s.nameTree.node ino = some (node.is_directory_, node.parent_ino_) :=
  congrArg (Option.map _) found

theorem nameTree_node_eq_some {value : Bool × Nat} (held : s.nameTree.node ino = some value) :
    ∃ node, s.findInode ino = some node ∧ (node.is_directory_, node.parent_ino_) = value :=
  Option.map_eq_some_iff.mp held

theorem entry_of_findInode (found : s.findInode ino = some node) (name : String) :
    s.entry ino name = node.children_.lookup name := by
  rw [entry, found, Option.bind_some]

theorem children_empty (nameless : ∀ name, node.children_.lookup name = none) :
    node.children_ = ∅ := by
  apply AList.ext
  rw [AList.empty_entries, List.eq_nil_iff_forall_not_mem]
  rintro ⟨name, child⟩ inside
  have held := AList.mem_lookup_iff.mpr inside
  rw [nameless name] at held
  cases held

theorem Sound.tree_of (sound : s.Sound) : s.Tree where
  root := by
    obtain ⟨node, found, same⟩ := nameTree_node_eq_some sound.tree.top
    rw [findDirectory_eq_some.mpr ⟨found, congrArg Prod.fst same⟩]
    rfl
  children := by
    intro dir name child held
    obtain ⟨-, kind, known⟩ := sound.tree.names dir name child held
    obtain ⟨node, found, same⟩ := nameTree_node_eq_some known
    exact ⟨node, found, congrArg Prod.snd same⟩
  named := by
    intro ino present other
    obtain ⟨node, found⟩ := Option.isSome_iff_exists.mp present
    exact sound.tree.unique (by rw [nameTree_node found]; rfl) other
  ascends := by
    intro ino present
    obtain ⟨node, found⟩ := Option.isSome_iff_exists.mp present
    exact sound.tree.ascends ino (by rw [nameTree_node found]; rfl)
  files := by
    intro ino node found kind
    apply children_empty
    intro name
    have nameless := sound.tree.files ino node.parent_ino_ (kind ▸ nameTree_node found) name
    exact (entry_of_findInode found name).symm.trans nameless
  fresh := by
    intro placement parent is_directory name ino next allocated
    rw [allocateInode_ino allocated]
    exact sound.toNumbered.nextInode_free is_directory

end Consequences

section Added

variable {parent : Nat} {name : String} {pn : FileNode} {placement : Placement}
  {is_directory : Bool}

theorem Sound.nameTree_added (sound : s.Sound) (found : s.findDirectory parent = some pn) :
    (s.added placement parent is_directory name).nameTree =
      s.nameTree.add parent name (s.nextInode is_directory) is_directory := by
  have held := (findDirectory_eq_some.mp found).1
  have free := sound.toNumbered.nextInode_free is_directory
  have other : parent ≠ s.nextInode is_directory := by
    intro same
    rw [same, free] at held
    cases held
  apply NameTree.ext
  · intro x
    show Option.map _ _ = ite _ _ _
    rw [sound.toNumbered.findInode_added found]
    by_cases here : x = parent
    · rw [if_pos here, if_neg (here ▸ other), here, nameTree_node held]
      rfl
    · rw [if_neg here]
      by_cases new : x = s.nextInode is_directory
      · rw [if_pos new, if_pos new, Option.map_some]
      · rw [if_neg new, if_neg new]
        rfl
  · intro x other_name
    show Option.bind _ _ = ite _ _ _
    rw [sound.toNumbered.findInode_added found]
    by_cases here : x = parent
    · rw [if_pos here, Option.bind_some, here]
      by_cases same : other_name = name
      · rw [if_pos ⟨rfl, same⟩, same]
        exact addChild_lookup_self
      · rw [if_neg (fun both => same both.2)]
        exact (addChild_lookup_ne same).trans (entry_of_findInode held other_name).symm
    · have elsewhere : ¬ (x = parent ∧ other_name = name) := fun both => here both.1
      rw [if_neg here, if_neg elsewhere]
      by_cases new : x = s.nextInode is_directory
      · rw [if_pos new, new, Option.bind_some, AList.lookup_empty]
        exact (congrArg (fun node => Option.bind node _) free).symm
      · rw [if_neg new]
        rfl

theorem Sound.added (sound : s.Sound) (found : s.findDirectory parent = some pn)
    (unused : name ∉ pn.children_) :
    (s.added placement parent is_directory name).Sound := by
  obtain ⟨held, kind⟩ := findDirectory_eq_some.mp found
  refine ⟨sound.toNumbered.added found, ?_⟩
  rw [sound.nameTree_added found]
  apply sound.tree.add
  · exact ⟨pn.parent_ino_, kind ▸ nameTree_node held⟩
  · exact congrArg (Option.map _) (sound.toNumbered.nextInode_free is_directory)
  · exact (entry_of_findInode held name).trans (AList.lookup_eq_none.mpr unused)

end Added

section Removed

variable {parent child : Nat} {name : String} {pn : FileNode}

theorem findInode_removed (other : parent ≠ child) (held : s.findInode parent = some pn) (x : Nat) :
    (s.removed parent name child).findInode x =
      if x = parent then some (eraseChild name pn)
      else if x = child then none else s.findInode x := by
  rw [removed, findInode_update, findInode_erase, findInode_erase, if_neg other, held,
    Option.map_some]

theorem nameTree_removed (other : parent ≠ child) (held : s.findInode parent = some pn)
    (leaf : ∀ name, s.entry child name = none) :
    (s.removed parent name child).nameTree = s.nameTree.remove parent name child := by
  apply NameTree.ext
  · intro x
    show Option.map _ _ = ite _ _ _
    rw [findInode_removed other held]
    by_cases here : x = parent
    · rw [if_pos here, if_neg (here ▸ other), here, nameTree_node held]
      rfl
    · rw [if_neg here]
      by_cases gone : x = child
      · rw [if_pos gone, if_pos gone, Option.map_none]
      · rw [if_neg gone, if_neg gone]
        rfl
  · intro x second
    show Option.bind _ _ = ite _ _ _
    rw [findInode_removed other held]
    by_cases here : x = parent
    · rw [if_pos here, Option.bind_some, here, eraseChild_lookup]
      by_cases same : second = name
      · rw [if_pos same, if_pos ⟨rfl, same⟩]
      · rw [if_neg same, if_neg (fun both => same both.2)]
        exact (entry_of_findInode held second).symm
    · have elsewhere : ¬ (x = parent ∧ second = name) := fun both => here both.1
      rw [if_neg here, if_neg elsewhere]
      by_cases gone : x = child
      · rw [if_pos gone, Option.bind_none, gone]
        exact (leaf second).symm
      · rw [if_neg gone]
        rfl

theorem entry_ne (held : s.entry parent name = some child)
    (leaf : ∀ name, s.entry child name = none) : parent ≠ child := by
  rintro rfl
  rw [leaf name] at held
  cases held

theorem leaf_of_empty {cn : FileNode} (present : s.findInode child = some cn)
    (empty : cn.children_.entries = []) (second : String) : s.entry child second = none := by
  have none_left : cn.children_ = ∅ := AList.ext empty
  rw [entry_of_findInode present, none_left, AList.lookup_empty]

/-- What the kernel unlinks is a file, and has no names in it. -/
theorem Sound.leaf_of_kernel (sound : s.Sound) {replies : List Reply}
    (kernel : s.KernelVfs (.unlink parent name, replies))
    (named : s.entry parent name = some child) (second : String) :
    s.entry child second = none := by
  obtain ⟨cn, present, -⟩ := sound.tree_of.children parent name child named
  have none_there : s.findDirectory child = none := by
    have allowed : (s.entry parent name).bind s.findDirectory = none := kernel
    rwa [named, Option.bind_some] at allowed
  have file : cn.is_directory_ = false := by
    rw [findDirectory, present] at none_there
    simpa using none_there
  rw [entry_of_findInode present, sound.tree_of.files child cn present file, AList.lookup_empty]

theorem Sound.removed (sound : s.Sound) (found : s.findDirectory parent = some pn)
    (listed : pn.children_.lookup name = some child)
    (leaf : ∀ name, s.entry child name = none) : (s.removed parent name child).Sound := by
  obtain ⟨held, kind⟩ := findDirectory_eq_some.mp found
  have named : s.entry parent name = some child := (entry_of_findInode held name).trans listed
  refine ⟨sound.toNumbered.inherits removed_counters inherits_removed, ?_⟩
  rw [nameTree_removed (entry_ne named leaf) held leaf]
  exact sound.tree.remove named leaf

/-- The loop over the values finds the name that stands for the inode, as there is only one. -/
theorem Sound.eraseByInode_eq (sound : s.Sound) (held : s.findInode parent = some pn)
    (listed : pn.children_.lookup name = some child) :
    eraseByInode child pn = eraseChild name pn := by
  have inside := AList.mem_lookup_iff.mp listed
  unfold eraseByInode
  cases found : pn.children_.entries.find? fun entry => decide (entry.2 = child) with
  | none =>
      have missed := List.find?_eq_none.mp found _ inside
      simp at missed
  | some entry =>
      obtain ⟨second, value⟩ := entry
      have chosen := List.find?_some
          (p := fun entry : (_ : String) × Nat => decide (entry.2 = child)) found
      obtain rfl : value = child := of_decide_eq_true chosen
      have again := AList.mem_lookup_iff.mpr (List.mem_of_find?_eq_some found)
      have one := sound.tree.distinct parent second name value
        ((entry_of_findInode held second).trans again) ((entry_of_findInode held name).trans listed)
      subst one
      rfl

theorem Sound.forgetInode_eq (sound : s.Sound) (found : s.findDirectory parent = some pn)
    (listed : pn.children_.lookup name = some child)
    (leaf : ∀ name, s.entry child name = none) :
    ∀ x, (s.forgetInode child).findInode x = (s.removed parent name child).findInode x := by
  obtain ⟨held, kind⟩ := findDirectory_eq_some.mp found
  have named : s.entry parent name = some child := (entry_of_findInode held name).trans listed
  have other := entry_ne named leaf
  obtain ⟨cn, present, up⟩ := sound.tree_of.children parent name child named
  have positive : cn.parent_ino_ ≠ 0 := by
    have parity := (sound.dirs parent pn held kind).1
    omega
  intro x
  rw [findInode_removed other held, forgetInode, present]
  dsimp only
  rw [if_pos positive, findInode_erase, findInode_update, up, held, Option.map_some,
    sound.eraseByInode_eq held listed]
  by_cases here : x = parent
  · rw [if_pos here, if_pos here, if_neg (here ▸ other)]
  · rw [if_neg here, if_neg here]

end Removed

section Alike

variable {t : Server}

/-- The nodes without their contents tell the tree. -/
theorem nameTree_congr
    (nodes : ∀ x, (t.findInode x).map (fun node => { node with data_ := [] }) =
      (s.findInode x).map fun node => { node with data_ := [] }) : t.nameTree = s.nameTree := by
  apply NameTree.ext
  · intro x
    have alike := congrArg
      (Option.map fun node : FileNode => (node.is_directory_, node.parent_ino_)) (nodes x)
    rw [Option.map_map, Option.map_map] at alike
    exact alike
  · intro x name
    have alike := congrArg
      (fun node : Option FileNode => node.bind fun node => node.children_.lookup name) (nodes x)
    rw [Option.bind_map, Option.bind_map] at alike
    exact alike

theorem nameTree_filled {ino : Nat} {data : List UInt8} :
    (s.filled ino data).nameTree = s.nameTree := by
  apply nameTree_congr
  intro x
  rw [findInode_filled]
  by_cases here : x = ino
  · rw [if_pos here, here, Option.map_map]
    rfl
  · rw [if_neg here]

theorem Sound.filled {ino : Nat} {data : List UInt8} (sound : s.Sound) :
    (s.filled ino data).Sound := by
  refine ⟨sound.toNumbered.filled, ?_⟩
  rw [nameTree_filled]
  exact sound.tree

end Alike

section Runs

variable {files dirs : Nat} {labels : List (Request × List Reply)}

theorem nameTree_init : (init files dirs).nameTree = NameTree.single 1 := by
  apply NameTree.ext
  · intro x
    show Option.map _ _ = ite _ _ _
    rw [findInode_init]
    by_cases here : x = 1
    · rw [if_pos here, if_pos here, Option.map_some]
    · rw [if_neg here, if_neg here, Option.map_none]
  · intro x name
    show Option.bind _ _ = none
    rw [findInode_init]
    by_cases here : x = 1
    · rw [if_pos here, Option.bind_some, AList.lookup_empty]
    · rw [if_neg here, Option.bind_none]

theorem sound_init : (init files dirs).Sound := by
  refine ⟨numbered_init, ?_⟩
  rw [nameTree_init]
  exact NameTree.wellFormed_single 1

/-- No request but an `unlink` of a directory breaks the tree. -/
theorem Sound.step (sound : s.Sound) {label : Request × List Reply} {next : Server}
    (kernel : s.KernelVfs label) (taken : step fuse s label = some next) : next.Sound := by
  obtain ⟨req, replies⟩ := label
  obtain ⟨r, -, exit⟩ := handle_cases (step_eq_some.mp taken)
  cases exit with
  | refused req err nonzero => exact sound
  | found parent name pn cn child directory listed node => exact sound
  | created placement parent name mode pn directory unused => exact sound.added directory unused
  | made placement parent name mode pn directory unused => exact sound.added directory unused
  | unlinked parent name pn child directory listed =>
      have held := (findDirectory_eq_some.mp directory).1
      have named : s.entry parent name = some child := (entry_of_findInode held name).trans listed
      exact sound.removed directory listed (sound.leaf_of_kernel kernel named)
  | dropped parent name pn cn child directory listed node empty =>
      have leaf := leaf_of_empty (findDirectory_eq_some.mp node).1 empty
      refine ⟨sound.toNumbered.inherits forgetInode_counters inherits_forgetInode, ?_⟩
      rw [nameTree_congr (fun x => congrArg _ (sound.forgetInode_eq directory listed leaf x))]
      exact (sound.removed directory listed leaf).tree
  | opened ino node found kind => exact sound
  | listed ino size off node buf directory => exact sound
  | written ino buf off node resized data found kind grown copied => exact sound.filled
  | counted stat => exact sound
  | described ino node found => exact sound
  | loaded ino size off node data found kind result => exact sound
  | truncated ino attr to_set node data found kind sized positive resized => exact sound.filled
  | kept ino attr to_set node found unsized => exact sound

theorem sound_of_run
    (run : Exec (Guarded KernelVfs (Of (Server.step fuse))) (init files dirs) labels s) : s.Sound :=
  run.invariant Sound sound_init fun _ _ _ sound taken => sound.step taken.1 taken.2

theorem Sound.lookup_returns (sound : s.Sound) (parent : Nat) (name : String) :
    s.lookup parent name ≠ none := by
  unfold lookup
  cases directory : s.findDirectory parent with
  | none => exact nofun
  | some pn =>
      dsimp only
      cases listed : pn.children_.lookup name with
      | none => exact nofun
      | some child =>
          have held := (findDirectory_eq_some.mp directory).1
          obtain ⟨cn, present, -⟩ := sound.tree_of.children parent name child
            ((entry_of_findInode held name).trans listed)
          simp only [present]
          exact nofun

/-- Where every child is there, only the `int` can stop the loop. -/
theorem readdirLoop_none {size : Nat} {off : Int} {children : List ((_ : String) × Nat)}
    (present : ∀ child ∈ children, (s.findInode child.2).isSome) (current_offset : Nat)
    (buf : DirBuf) (started : current_offset ≤ INT_MAX)
    (stopped : s.readdirLoop fuse size off children current_offset buf = none) :
    INT_MAX < current_offset + children.length := by
  induction children generalizing current_offset buf with
  | nil => cases stopped
  | cons child children ih =>
      obtain ⟨name, child_ino⟩ := child
      have rest := fun other inside => present other (List.mem_cons_of_mem _ inside)
      rw [List.length_cons]
      rw [readdirLoop] at stopped
      by_cases last : current_offset = INT_MAX
      · omega
      · rw [if_neg last] at stopped
        by_cases asked : off ≤ current_offset
        · obtain ⟨cn, found⟩ := Option.isSome_iff_exists.mp
            (present ⟨name, child_ino⟩ List.mem_cons_self)
          rw [if_pos asked] at stopped
          simp only [found] at stopped
          by_cases full : size ≤ (addDirentry fuse size buf
              (childDirent name child_ino cn current_offset)).pos
          · rw [if_pos full] at stopped
            cases stopped
          · rw [if_neg full] at stopped
            have further := ih rest (current_offset + 1) _ (by omega) stopped
            omega
        · rw [if_neg asked] at stopped
          have further := ih rest (current_offset + 1) buf (by omega) stopped
          omega

theorem Sound.children_present (sound : s.Sound) {ino : Nat} {node : FileNode}
    (found : s.findInode ino = some node) :
    ∀ child ∈ node.children_.entries, (s.findInode child.2).isSome := by
  rintro ⟨name, child⟩ inside
  have listed := AList.mem_lookup_iff.mpr inside
  obtain ⟨cn, present, -⟩ := sound.tree_of.children ino name child
    ((entry_of_findInode found name).trans listed)
  rw [present]
  rfl

theorem Sound.readdir_returns (sound : s.Sound) {ino size : Nat} {off : Int}
    (stopped : s.readdir fuse ino size off = none) :
    max_size < size ∨
      ∃ node, s.findDirectory ino = some node ∧ INT_MAX < 2 + node.children_.entries.length := by
  unfold readdir at stopped
  cases directory : s.findDirectory ino with
  | none =>
      simp only [directory] at stopped
      cases stopped
  | some node =>
      simp only [directory] at stopped
      by_cases small : size ≤ max_size
      · rw [if_pos small, Option.bind_eq_none_iff] at stopped
        right
        refine ⟨node, rfl, ?_⟩
        have held := (findDirectory_eq_some.mp directory).1
        apply readdirLoop_none (sound.children_present held) 2 _ (by decide)
        rw [Option.eq_none_iff_forall_ne_some]
        intro buf built
        exact absurd (stopped buf built) nofun
      · exact Or.inl (Nat.lt_of_not_le small)

/-- `rmdir` erases the name it was given and no other. -/
theorem Sound.rmdir_exact (sound : s.Sound) {parent : Nat} {name : String} {next : Server}
    (done : s.rmdir parent name = some (next, [.err 0])) :
    (s.entry parent name).isSome ∧ ∀ dir other, next.entry dir other =
      if dir = parent ∧ other = name then none else s.entry dir other := by
  obtain ⟨r, same, exit⟩ := rmdir_cases done
  obtain rfl : .err 0 = r := List.singleton_inj.mp same
  generalize asked : Request.rmdir parent name = req at exit
  generalize sent : Reply.err 0 = r at exit
  cases exit with
  | refused req err nonzero =>
      cases sent
      exact absurd rfl nonzero
  | dropped p n pn cn child directory listed node empty =>
      cases asked
      obtain ⟨held, -⟩ := findDirectory_eq_some.mp directory
      have named : s.entry parent name = some child := (entry_of_findInode held name).trans listed
      have leaf := leaf_of_empty (findDirectory_eq_some.mp node).1 empty
      refine ⟨by rw [named]; rfl, fun dir other => ?_⟩
      rw [entry, sound.forgetInode_eq directory listed leaf]
      exact congrArg (fun tree => tree.entry dir other)
        (nameTree_removed (entry_ne named leaf) held leaf)
  | _ => cases asked

/-- Whatever is asked of a server, as long as the kernel unlinks no directory: its names make up a
tree, `lookup` and `readdir` find every child, and `rmdir` removes what it was asked to. -/
theorem reachable_tree
    (run : Exec (Guarded KernelVfs (Of (Server.step fuse))) (init files dirs) labels s) :
    s.Tree ∧
    (∀ parent name, s.lookup parent name ≠ none) ∧
    (∀ ino size off, s.readdir fuse ino size off = none → max_size < size ∨
      ∃ node, s.findDirectory ino = some node ∧ INT_MAX < 2 + node.children_.entries.length) ∧
    ∀ parent name next, s.rmdir parent name = some (next, [.err 0]) →
      (s.entry parent name).isSome ∧ ∀ dir other, next.entry dir other =
        if dir = parent ∧ other = name then none else s.entry dir other := by
  have sound := sound_of_run run
  exact ⟨sound.tree_of, sound.lookup_returns, fun _ _ _ => sound.readdir_returns,
    fun _ _ _ => sound.rmdir_exact⟩

theorem reachable_tree_example :
    ∃ labels s, Exec (Guarded KernelVfs (Of (Server.step .aligned))) (init 0 0) labels s ∧
      labels.length = 5 ∧ s.entry 1 "a" = some 3 ∧ s.entry 3 "f" = none ∧ s.entry 3 "g" = some 4 ∧
        s.Tree := by
  let labels : List (Request × List Reply) := [
    (.mkdir .front 1 "a" 0o755, [.entry { ino := 3, attr := {
      st_mode := S_IFDIR ||| 0o755, st_nlink := 2, st_size := 0 } }]),
    (.create .front 3 "f" 0o644, [.create { ino := 2, attr := {
      st_mode := S_IFREG ||| 0o644, st_nlink := 1, st_size := 0 } }]),
    (.create .front 3 "g" 0o644, [.create { ino := 4, attr := {
      st_mode := S_IFREG ||| 0o644, st_nlink := 1, st_size := 0 } }]),
    (.rmdir 1 "a", [.err ENOTEMPTY]),
    (.unlink 3 "f", [.err 0])]
  have runs : (Transition.run (guardedStep (fun s l => decide (KernelVfs s l))
      (Server.step .aligned)) (init 0 0) labels).isSome = true := by decide +kernel
  have kept := Transition.guarded_of_isSome runs
  have tree := (reachable_tree kept).1
  refine ⟨labels, _, kept, rfl, ?_, ?_, ?_, tree⟩
  all_goals
    clear kept tree
    revert runs
    decide +kernel

end Runs

end Server

end Myfs

end Getrafty
