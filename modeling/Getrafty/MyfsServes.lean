import Getrafty.MyfsPaths
import Getrafty.MyfsStatfs

set_option autoImplicit false

namespace Getrafty

namespace Myfs

open Transition (Exec Of Guarded guardedStep)
open Words (addSize)

namespace Server

variable {s next : Server} {fuse : Libfuse} {replies : List Reply}

/-- The kernel reads at positions that `off_t` can tell. -/
def ReadArgs (_ : Server) : Request × List Reply → Prop
  | (.read _ size off, _) => 0 ≤ off ∧ off + size < 2 ^ 63
  | _ => True

instance (s : Server) : DecidablePred s.ReadArgs :=
  fun label => match label with
    | (.read _ _ _, _) => inferInstanceAs (Decidable (_ ∧ _))
    | (.lookup _ _, _) | (.create _ _ _ _, _) | (.unlink _ _, _) | (.open_ _, _)
    | (.readdir _ _ _, _) | (.statfs, _) | (.getattr _, _) | (.write _ _ _, _) | (.mkdir _ _ _ _, _)
    | (.rmdir _ _, _) | (.setattr _ _ _, _) | (.getxattr, _) => isTrue trivial

/-- What the kernel promises about its requests. -/
def FromKernel (s : Server) (label : Request × List Reply) : Prop :=
  s.KernelVfs label ∧ s.FileArgs label ∧ s.ReadArgs label

instance (s : Server) : DecidablePred s.FromKernel :=
  fun _ => inferInstanceAs (Decidable (_ ∧ _ ∧ _))

section Names

variable {parent : Nat} {name : String}

theorem lookup_serves (sound : s.Sound) (dataless : s.Dataless)
    (result : s.lookup parent name = some (next, replies)) :
    Serves fuse s.files (.lookup parent name, replies) next.files := by
  unfold lookup at result
  cases directory : s.findDirectory parent with
  | none =>
      simp only [directory] at result
      obtain ⟨rfl, rfl⟩ := reply_eq result
      exact .notDirectory _ parent rfl (notDirectory_of_none directory)
  | some pn =>
      obtain ⟨path, leads, here⟩ := sound.directory_path directory
      have held := (findDirectory_eq_some.mp directory).1
      have place := walk_child leads held name
      simp only [directory] at result
      cases entry : pn.children_.lookup name with
      | none =>
          simp only [entry] at result
          obtain ⟨rfl, rfl⟩ := reply_eq result
          refine .noName _ path parent name rfl here (sound.files_eq_none.mpr ?_)
          rw [place, entry]
      | some child =>
          simp only [entry] at result
          rw [entry] at place
          cases node : s.findInode child with
          | none =>
              simp only [node] at result
              cases result
          | some cn =>
              simp only [node] at result
              obtain ⟨rfl, rfl⟩ := reply_eq result
              have serves := @Serves.found fuse _ path parent name _ here
                (files_of_walk place node)
              rw [entryOf_ino, sound.attr_eq dataless place node] at serves
              exact serves

theorem create_serves (sound : s.Sound) {placement : Placement} {mode : Nat}
    (result : s.create placement parent name mode = some (next, replies)) :
    Serves fuse s.files (.create placement parent name mode, replies) next.files := by
  unfold create at result
  cases directory : s.findDirectory parent with
  | none =>
      simp only [directory] at result
      obtain ⟨rfl, rfl⟩ := reply_eq result
      exact .notDirectory _ parent rfl (notDirectory_of_none directory)
  | some pn =>
      obtain ⟨path, leads, here⟩ := sound.directory_path directory
      have held := (findDirectory_eq_some.mp directory).1
      have absent := sound.files_child_none leads held name
      simp only [directory] at result
      by_cases taken : name ∈ pn.children_
      · rw [if_pos taken] at result
        obtain ⟨rfl, rfl⟩ := reply_eq result
        exact .taken _ path parent name rfl here fun none => absent.mp none taken
      · rw [if_neg taken, allocateInode_eq placement directory, Option.bind_some] at result
        obtain ⟨rfl, rfl⟩ := reply_eq result
        rw [sound.files_added directory taken leads]
        exact .created placement path parent name mode (s.nextInode false) here (absent.mpr taken)
          (unused_of_none (sound.toNumbered.nextInode_free false))

theorem mkdir_serves (sound : s.Sound) {placement : Placement} {mode : Nat}
    (result : s.mkdir placement parent name mode = some (next, replies)) :
    Serves fuse s.files (.mkdir placement parent name mode, replies) next.files := by
  unfold mkdir at result
  cases directory : s.findDirectory parent with
  | none =>
      simp only [directory] at result
      obtain ⟨rfl, rfl⟩ := reply_eq result
      exact .notDirectory _ parent rfl (notDirectory_of_none directory)
  | some pn =>
      obtain ⟨path, leads, here⟩ := sound.directory_path directory
      have held := (findDirectory_eq_some.mp directory).1
      have absent := sound.files_child_none leads held name
      simp only [directory] at result
      by_cases taken : name ∈ pn.children_
      · rw [if_pos taken] at result
        obtain ⟨rfl, rfl⟩ := reply_eq result
        exact .taken _ path parent name rfl here fun none => absent.mp none taken
      · rw [if_neg taken, allocateInode_eq placement directory, Option.bind_some] at result
        obtain ⟨rfl, rfl⟩ := reply_eq result
        rw [sound.files_added directory taken leads]
        exact .made placement path parent name mode (s.nextInode true) here (absent.mpr taken)
          (unused_of_none (sound.toNumbered.nextInode_free true))

theorem unlink_serves (sound : s.Sound) (kernel : s.KernelVfs (.unlink parent name, replies))
    (result : s.unlink parent name = some (next, replies)) :
    Serves fuse s.files (.unlink parent name, replies) next.files := by
  unfold unlink at result
  cases directory : s.findDirectory parent with
  | none =>
      simp only [directory] at result
      obtain ⟨rfl, rfl⟩ := reply_eq result
      exact .notDirectory _ parent rfl (notDirectory_of_none directory)
  | some pn =>
      obtain ⟨path, leads, here⟩ := sound.directory_path directory
      have held := (findDirectory_eq_some.mp directory).1
      have place := walk_child leads held name
      simp only [directory] at result
      cases entry : pn.children_.lookup name with
      | none =>
          simp only [entry] at result
          obtain ⟨rfl, rfl⟩ := reply_eq result
          refine .noName _ path parent name rfl here (sound.files_eq_none.mpr ?_)
          rw [place, entry]
      | some child =>
          simp only [entry] at result
          obtain ⟨rfl, rfl⟩ := reply_eq result
          have named : s.entry parent name = some child :=
            (entry_of_findInode held name).trans entry
          have leaf := sound.leaf_of_kernel kernel named
          obtain ⟨cn, present⟩ := sound.walk_found (place.trans entry)
          have file : cn.is_directory_ = false := by
            have allowed : (s.entry parent name).bind s.findDirectory = none := kernel
            rw [named, Option.bind_some, findDirectory, present] at allowed
            simpa using allowed
          have gone := sound.files_removed directory entry leaf leads
          have there := files_of_walk (place.trans entry) present
          rw [entryOf_file file] at there
          change Serves fuse s.files _ (s.removed parent name child).files
          rw [gone]
          exact .unlinked path parent name child cn.data_ here there

theorem rmdir_serves (sound : s.Sound) (result : s.rmdir parent name = some (next, replies)) :
    Serves fuse s.files (.rmdir parent name, replies) next.files := by
  unfold rmdir at result
  cases directory : s.findDirectory parent with
  | none =>
      simp only [directory] at result
      obtain ⟨rfl, rfl⟩ := reply_eq result
      exact .notDirectory _ parent rfl (notDirectory_of_none directory)
  | some pn =>
      obtain ⟨path, leads, here⟩ := sound.directory_path directory
      have held := (findDirectory_eq_some.mp directory).1
      have place := walk_child leads held name
      simp only [directory] at result
      cases entry : pn.children_.lookup name with
      | none =>
          simp only [entry] at result
          obtain ⟨rfl, rfl⟩ := reply_eq result
          refine .noName _ path parent name rfl here (sound.files_eq_none.mpr ?_)
          rw [place, entry]
      | some child =>
          simp only [entry] at result
          rw [entry] at place
          cases node : s.findDirectory child with
          | none =>
              simp only [node] at result
              obtain ⟨rfl, rfl⟩ := reply_eq result
              obtain ⟨cn, present⟩ := sound.walk_found place
              have file : cn.is_directory_ = false := by
                rw [findDirectory, present] at node
                simpa using node
              have there := files_of_walk place present
              rw [entryOf_file file] at there
              exact .noDirectory path parent name child cn.data_ here there
          | some cn =>
              obtain ⟨present, kind⟩ := findDirectory_eq_some.mp node
              have there := files_of_walk place present
              rw [entryOf_directory kind] at there
              have names := sound.names_eq place present
              simp only [node] at result
              by_cases full : cn.children_.entries ≠ []
              · rw [if_pos full] at result
                obtain ⟨rfl, rfl⟩ := reply_eq result
                refine .notEmpty path parent name child here there ?_
                obtain ⟨⟨first, ino⟩, inside⟩ := List.exists_mem_of_ne_nil _ full
                rw [names, ← Set.nonempty_iff_ne_empty]
                exact ⟨first, AList.lookup_isSome.mp
                  (Option.isSome_of_eq_some (AList.mem_lookup_iff.mpr inside))⟩
              · rw [if_neg full] at result
                obtain ⟨rfl, rfl⟩ := reply_eq result
                have empty := not_ne_iff.mp full
                rw [sound.files_forgotten directory entry (leaf_of_empty present empty) leads]
                refine .dropped path parent name child here there ?_
                rw [names, show cn.children_ = ∅ from AList.ext empty]
                exact Set.eq_empty_of_forall_notMem fun name => AList.notMem_empty name

end Names

section Contents

variable {ino : Nat}

theorem open_serves (sound : s.Sound) (result : s.open_ ino = some (next, replies)) :
    Serves fuse s.files (.open_ ino, replies) next.files := by
  unfold open_ at result
  cases found : s.findInode ino with
  | none =>
      simp only [found] at result
      obtain ⟨rfl, rfl⟩ := reply_eq result
      exact .noInode _ ino rfl (unused_of_none found)
  | some node =>
      obtain ⟨path, leads, here⟩ := sound.exists_path found
      simp only [found] at result
      cases kind : node.is_directory_ with
      | true =>
          rw [if_pos kind] at result
          obtain ⟨rfl, rfl⟩ := reply_eq result
          rw [entryOf_directory kind] at here
          exact .isDirectory _ path ino rfl here
      | false =>
          rw [if_neg (by rw [kind]; decide)] at result
          obtain ⟨rfl, rfl⟩ := reply_eq result
          rw [entryOf_file kind] at here
          exact .opened path ino node.data_ here

theorem getattr_serves (sound : s.Sound) (dataless : s.Dataless)
    (result : s.getattr ino = some (next, replies)) :
    Serves fuse s.files (.getattr ino, replies) next.files := by
  unfold getattr at result
  cases found : s.findInode ino with
  | none =>
      simp only [found] at result
      obtain ⟨rfl, rfl⟩ := reply_eq result
      exact .noInode _ ino rfl (unused_of_none found)
  | some node =>
      obtain ⟨path, leads, here⟩ := sound.exists_path found
      simp only [found] at result
      obtain ⟨rfl, rfl⟩ := reply_eq result
      have serves := @Serves.described fuse _ path _ here
      rwa [entryOf_ino, sound.attr_eq dataless leads found] at serves

/-- The vector behind a write of the kernel. -/
theorem write_overwrites {data resized after buf : List UInt8} {off : Int} (nonempty : buf ≠ [])
    (positive : 0 ≤ off) (small : off + buf.length < 2 ^ 63)
    (grown : (if data.length < addSize (toSize off) buf.length then
      resize data (addSize (toSize off) buf.length) else some data) = some resized)
    (copied : memcpy resized off buf = some after) :
    after = Files.overwritten data off.toNat buf := by
  rw [write_grown positive small, Option.some.injEq] at grown
  have wide : off.toNat + buf.length ≤ resized.length := by
    rw [← grown]
    split
    · rw [List.length_append, List.length_take, List.length_replicate]
      omega
    · omega
  rw [memcpy_eq nonempty positive wide, Option.some.injEq] at copied
  rw [← copied, ← grown, Files.overwritten]
  by_cases longer : data.length < off.toNat + buf.length
  · have front : (data.take (off.toNat + buf.length) ++
        List.replicate (off.toNat + buf.length - data.length) 0).take off.toNat =
        data.take off.toNat ++ List.replicate (off.toNat - data.length) 0 := by
      rw [List.take_of_length_le (Nat.le_of_lt longer), List.take_append, List.take_replicate]
      congr 2
      omega
    have back : (data.take (off.toNat + buf.length) ++
        List.replicate (off.toNat + buf.length - data.length) 0).drop (off.toNat + buf.length) =
        data.drop (off.toNat + buf.length) := by
      rw [List.drop_eq_nil_of_le (Nat.le_of_lt longer), List.drop_eq_nil_of_le]
      rw [List.length_append, List.length_take, List.length_replicate]
      omega
    rw [if_pos longer, front, back]
  · have inside : off.toNat - data.length = 0 := by omega
    rw [if_neg longer, inside, List.replicate_zero, List.append_nil]

theorem write_serves (sound : s.Sound) {buf : List UInt8} {off : Int}
    (kernel : s.FileArgs (.write ino buf off, replies))
    (result : s.write ino buf off = some (next, replies)) :
    Serves fuse s.files (.write ino buf off, replies) next.files := by
  obtain ⟨nonempty, positive, small⟩ : buf ≠ [] ∧ 0 ≤ off ∧ off + buf.length < 2 ^ 63 := kernel
  unfold write at result
  cases found : s.findInode ino with
  | none =>
      simp only [found] at result
      obtain ⟨rfl, rfl⟩ := reply_eq result
      exact .noInode _ ino rfl (unused_of_none found)
  | some node =>
      obtain ⟨path, leads, here⟩ := sound.exists_path found
      simp only [found] at result
      cases kind : node.is_directory_ with
      | true =>
          rw [if_pos kind] at result
          obtain ⟨rfl, rfl⟩ := reply_eq result
          rw [entryOf_directory kind] at here
          exact .isDirectory _ path ino rfl here
      | false =>
          rw [if_neg (by rw [kind]; decide)] at result
          simp only [Option.bind_eq_some_iff] at result
          obtain ⟨data, ⟨resized, grown, copied⟩, result⟩ := result
          obtain ⟨rfl, rfl⟩ := reply_eq result
          rw [entryOf_file kind] at here
          have bytes := write_overwrites nonempty positive small grown copied
          change Serves fuse s.files _ (s.filled ino data).files
          rw [sound.files_filled leads found kind, bytes]
          have serves := @Serves.written fuse _ path ino off.toNat buf node.data_ here
          rwa [Int.toNat_of_nonneg positive] at serves

theorem read_serves (sound : s.Sound) (small : s.Small) {size : Nat} {off : Int}
    (kernel : s.ReadArgs (.read ino size off, replies))
    (result : s.read ino size off = some (next, replies)) :
    Serves fuse s.files (.read ino size off, replies) next.files := by
  obtain ⟨positive, ends⟩ : 0 ≤ off ∧ off + size < 2 ^ 63 := kernel
  cases found : s.findInode ino with
  | none =>
      simp only [read, found] at result
      obtain ⟨rfl, rfl⟩ := reply_eq result
      exact .noInode _ ino rfl (unused_of_none found)
  | some node =>
      obtain ⟨path, leads, here⟩ := sound.exists_path found
      cases kind : node.is_directory_ with
      | true =>
          simp only [read, found, kind, ↓reduceIte] at result
          obtain ⟨rfl, rfl⟩ := reply_eq result
          rw [entryOf_directory kind] at here
          exact .isDirectory _ path ino rfl here
      | false =>
          rw [read_bytes found kind (small ino node found) positive ends] at result
          obtain ⟨rfl, rfl⟩ := Prod.mk.inj (Option.some.inj result)
          rw [entryOf_file kind] at here
          have serves := @Serves.loaded fuse _ path ino size off.toNat node.data_ here
          rwa [Int.toNat_of_nonneg positive] at serves

theorem setattr_serves (sound : s.Sound) (dataless : s.Dataless) {attr : SetAttr} {to_set : Nat}
    (result : s.setattr ino attr to_set = some (next, replies)) :
    Serves fuse s.files (.setattr ino attr to_set, replies) next.files := by
  unfold setattr at result
  cases found : s.findInode ino with
  | none =>
      simp only [found] at result
      obtain ⟨rfl, rfl⟩ := reply_eq result
      exact .noInode _ ino rfl (unused_of_none found)
  | some node =>
      obtain ⟨path, leads, here⟩ := sound.exists_path found
      simp only [found] at result
      by_cases sized : to_set &&& FUSE_SET_ATTR_SIZE ≠ 0
      · rw [if_pos sized] at result
        cases kind : node.is_directory_ with
        | true =>
            rw [if_pos kind] at result
            obtain ⟨rfl, rfl⟩ := reply_eq result
            rw [entryOf_directory kind] at here
            exact .isDirectory _ path ino (if_pos sized) here
        | false =>
            rw [if_neg (by rw [kind]; decide)] at result
            rw [entryOf_file kind] at here
            by_cases negative : attr.st_size < 0
            · rw [if_pos negative] at result
              obtain ⟨rfl, rfl⟩ := reply_eq result
              exact .negative path ino node.data_ attr to_set here sized negative
            · rw [if_neg negative, Option.bind_eq_some_iff] at result
              obtain ⟨data, resized, result⟩ := result
              obtain ⟨rfl, rfl⟩ := reply_eq result
              obtain ⟨-, rfl⟩ := resize_some resized
              change Serves fuse s.files _ (s.filled ino _).files
              rw [sound.files_filled leads found kind]
              have serves := @Serves.truncated fuse _ path ino attr.st_size.toNat node.data_
                attr.st_mode to_set here sized
              rw [Int.toNat_of_nonneg (Int.not_lt.mp negative)] at serves
              have reported : s.files.attr path
                  (.file ino (Files.resized node.data_ attr.st_size.toNat)) =
                  stat ino { node with data_ := Files.resized node.data_ attr.st_size.toNat } := by
                simp only [Files.attr, stat, mode, nlink, kind, Bool.false_eq_true, ↓reduceIte]
              rw [reported] at serves
              exact serves
      · rw [if_neg sized] at result
        obtain ⟨rfl, rfl⟩ := reply_eq result
        have serves := @Serves.kept fuse _ path _ attr to_set here (not_ne_iff.mp sized)
        rwa [entryOf_ino, sound.attr_eq dataless leads found] at serves

end Contents

section Listing

variable {size : Nat} {off : Int} {path : List String} {ino : Nat} {node : FileNode}

theorem dirent_of_walk {name : String} {child : Nat} {cn : FileNode}
    (place : s.nameTree.walk 1 (path ++ [name]) = some child)
    (present : s.findInode child = some cn)
    (offset : Nat) : s.files.dirent path name offset = some (childDirent name child cn offset) := by
  rw [Files.dirent, files_of_walk place present, Option.map_some, entryOf_ino]
  cases kind : cn.is_directory_ with
  | true =>
      rw [entryOf_directory kind]
      simp only [childDirent, kind, ↓reduceIte]
  | false =>
      rw [entryOf_file kind]
      simp only [childDirent, kind, Bool.false_eq_true, ↓reduceIte]

/-- The loop of `readdir` adds the entries from the offset on, until the buffer is full. -/
theorem readdirLoop_fill {children : List ((_ : String) × Nat)}
    (places : ∀ child ∈ children, s.nameTree.walk 1 (path ++ [child.1]) = some child.2)
    {current_offset : Nat} {buf after : DirBuf}
    (built : s.readdirLoop fuse size off children current_offset buf = some after) :
    after = Files.fill fuse size ((s.files.dirents path (children.map Sigma.fst)
      current_offset).filter fun entry => off < entry.off) buf := by
  induction children generalizing current_offset buf with
  | nil => exact (Option.some.inj built).symm
  | cons child children ih =>
      obtain ⟨name, child_ino⟩ := child
      have rest := fun other inside => places other (List.mem_cons_of_mem _ inside)
      rw [readdirLoop] at built
      by_cases last : current_offset = INT_MAX
      · rw [if_pos last] at built
        cases built
      · rw [if_neg last] at built
        cases found : s.findInode child_ino with
        | none =>
            by_cases asked : off ≤ current_offset
            · rw [if_pos asked] at built
              simp only [found] at built
              cases built
            · have nothing : s.files.dirent path name current_offset = none := by
                rw [Files.dirent, files, places _ List.mem_cons_self, Option.bind_some, found]
                rfl
              rw [if_neg asked] at built
              rw [List.map_cons, Files.dirents, nothing]
              exact ih rest built
        | some cn =>
            have entry := dirent_of_walk (places _ List.mem_cons_self) found current_offset
            rw [List.map_cons, Files.dirents, entry, Option.toList_some, List.singleton_append,
              List.filter_cons]
            by_cases asked : off ≤ current_offset
            · have chosen : decide (off <
                  ((childDirent name child_ino cn current_offset).off : Int)) = true :=
                decide_eq_true (Int.lt_add_one_of_le asked)
              rw [if_pos asked] at built
              simp only [found] at built
              rw [if_pos chosen, Files.fill]
              split at built
              · rename_i full
                rw [if_pos full]
                exact (Option.some.inj built).symm
              · rename_i more
                rw [if_neg more]
                exact ih rest built
            · have passed : ¬ decide (off <
                  ((childDirent name child_ino cn current_offset).off : Int)) = true := by
                rw [decide_eq_true_iff]
                show ¬ off < ((current_offset + 1 : Nat) : Int)
                omega
              rw [if_neg asked] at built
              rw [if_neg passed]
              exact ih rest built

theorem addDots_fold : addDots fuse size off ino node =
    (Files.dots off ino node.parent_ino_).foldl (addDirentry fuse size) {} := by
  unfold addDots Files.dots
  split <;> split <;> rfl

/-- The parent that a directory knows stands one name higher. -/
theorem Sound.parent_path (sound : s.Sound) (leads : s.nameTree.walk 1 path = some ino)
    (found : s.findInode ino = some node) :
    s.files path.dropLast = some (.directory node.parent_ino_) := by
  rcases List.eq_nil_or_concat path with rfl | ⟨front, name, rfl⟩
  · obtain rfl : 1 = ino := Option.some.inj leads
    have top := sound.tree.top
    rw [nameTree_node found, Option.some.injEq, Prod.mk.injEq] at top
    rw [top.2]
    exact sound.shaped.top
  · rw [List.concat_eq_append, NameTree.walk_snoc, Option.bind_eq_some_iff] at leads
    obtain ⟨up, toward, held⟩ := leads
    obtain ⟨-, kind, known⟩ := sound.tree.names up name ino held
    rw [nameTree_node found, Option.some.injEq, Prod.mk.injEq] at known
    obtain ⟨above, known'⟩ := sound.tree.entry_parent held
    obtain ⟨pn, present, same⟩ := nameTree_node_eq_some known'
    rw [List.concat_eq_append, List.dropLast_concat, files_of_walk toward present,
      entryOf_directory (congrArg Prod.fst same), known.2]

theorem readdir_serves (sound : s.Sound)
    (result : s.readdir fuse ino size off = some (next, replies)) :
    Serves fuse s.files (.readdir ino size off, replies) next.files := by
  unfold readdir at result
  cases directory : s.findDirectory ino with
  | none =>
      simp only [directory] at result
      obtain ⟨rfl, rfl⟩ := reply_eq result
      exact .notDirectory _ ino rfl (notDirectory_of_none directory)
  | some node =>
      obtain ⟨path, leads, here⟩ := sound.directory_path directory
      have held := (findDirectory_eq_some.mp directory).1
      simp only [directory] at result
      by_cases fits : size ≤ max_size
      · rw [if_pos fits, Option.bind_eq_some_iff] at result
        obtain ⟨buf, built, result⟩ := result
        obtain ⟨rfl, rfl⟩ := reply_eq result
        have places : ∀ child ∈ node.children_.entries,
            next.nameTree.walk 1 (path ++ [child.1]) = some child.2 := fun child inside =>
          (walk_child leads held child.1).trans (AList.mem_lookup_iff.mpr inside)
        have filled := readdirLoop_fill places built
        rw [addDots_fold] at filled
        have keys : node.children_.entries.map Sigma.fst = node.children_.keys := rfl
        rw [filled]
        refine .listed path ino node.parent_ino_ size off _ here
          (sound.parent_path leads held) ?_ ?_
        · rw [keys]
          exact AList.keys_nodup _
        · intro name
          rw [keys, sound.names_eq leads held, Set.mem_ofPred_eq, AList.mem_keys]
      · rw [if_neg fits] at result
        cases result

end Listing

section Usage

open Classical in
/-- A path of an inode, where there is one. -/
noncomputable def pathOf (s : Server) (ino : Nat) : List String :=
  if h : ∃ path, s.nameTree.walk 1 path = some ino then h.choose else []

theorem Sound.walk_pathOf (sound : s.Sound) {ino : Nat} {node : FileNode}
    (found : s.findInode ino = some node) : s.nameTree.walk 1 (s.pathOf ino) = some ino := by
  obtain ⟨path, leads, -⟩ := sound.exists_path found
  have exists_one : ∃ path, s.nameTree.walk 1 path = some ino := ⟨path, leads⟩
  rw [pathOf, dif_pos exists_one]
  exact exists_one.choose_spec

/-- The paths of all inodes. -/
noncomputable def paths (s : Server) : Finset (List String) :=
  s.inode_map_.keys.toFinset.image s.pathOf

theorem mem_inodes {ino : Nat} :
    ino ∈ s.inode_map_.keys.toFinset ↔ ∃ node, s.findInode ino = some node := by
  rw [List.mem_toFinset, ← AList.mem_keys, ← AList.lookup_isSome, Option.isSome_iff_exists]
  rfl

theorem Sound.mem_paths (sound : s.Sound) (path : List String) :
    path ∈ s.paths ↔ s.files path ≠ none := by
  rw [paths, Finset.mem_image]
  constructor
  · rintro ⟨ino, inside, rfl⟩
    obtain ⟨node, found⟩ := mem_inodes.mp inside
    rw [files_of_walk (sound.walk_pathOf found) found]
    exact Option.some_ne_none _
  · intro here
    obtain ⟨e, there⟩ := Option.ne_none_iff_exists'.mp here
    obtain ⟨node, leads, found, -⟩ := files_eq_some there
    exact ⟨e.ino, mem_inodes.mpr ⟨node, found⟩,
      sound.tree.walk_inj (sound.walk_pathOf found) leads⟩

theorem Sound.pathOf_injOn (sound : s.Sound) :
    Set.InjOn s.pathOf s.inode_map_.keys.toFinset := by
  intro first inside second inside' same
  obtain ⟨node, found⟩ := mem_inodes.mp inside
  obtain ⟨node', found'⟩ := mem_inodes.mp inside'
  have leads := sound.walk_pathOf found
  rw [same, sound.walk_pathOf found', Option.some.injEq] at leads
  exact leads.symm

theorem Sound.card_paths (sound : s.Sound) : s.paths.card = s.inode_map_.entries.length := by
  rw [paths, Finset.card_image_of_injOn sound.pathOf_injOn,
    List.toFinset_card_of_nodup (AList.keys_nodup _), AList.keys, List.keys, List.length_map]

theorem Sound.sum_paths (sound : s.Sound) :
    ∑ path ∈ s.paths, ((s.files path).map Entry.size).getD 0 = s.used := by
  have each : ∀ entry ∈ s.inode_map_.entries,
      ((s.files (s.pathOf entry.1)).map Entry.size).getD 0 =
        if entry.2.is_directory_ then 0 else entry.2.data_.length := by
    rintro ⟨ino, node⟩ inside
    have found : s.findInode ino = some node := AList.mem_lookup_iff.mpr inside
    rw [files_of_walk (sound.walk_pathOf found) found, Option.map_some, Option.getD_some]
    dsimp only
    cases kind : node.is_directory_ with
    | true => rw [entryOf_directory kind]; rfl
    | false => rw [entryOf_file kind]; rfl
  rw [paths, Finset.sum_image sound.pathOf_injOn, List.sum_toFinset _ (AList.keys_nodup _),
    AList.keys, List.keys, List.map_map, used]
  exact congrArg List.sum (List.map_congr_left each)

theorem statfs_serves (sound : s.Sound) (result : s.statfs = some (next, replies)) :
    Serves fuse s.files (.statfs, replies) next.files := by
  rw [statfs_eq] at result
  obtain ⟨rfl, rfl⟩ := reply_eq result
  have serves := @Serves.counted fuse _ next.paths sound.mem_paths
  rwa [sound.card_paths, sound.sum_paths] at serves

end Usage

section Runs

variable {files dirs : Nat} {labels : List (Request × List Reply)}

/-- What the simulation rests on. -/
structure Kept (s : Server) : Prop where
  sound : s.Sound
  small : s.Small
  dataless : s.Dataless

theorem kept_init : (init files dirs).Kept := by
  refine ⟨sound_init, ?_, ?_⟩
  · intro ino node found
    obtain ⟨-, rfl⟩ := init_only found
    exact Nat.zero_le _
  · intro ino node found _
    obtain ⟨-, rfl⟩ := init_only found
    rfl

theorem Kept.step (kept : s.Kept) {label : Request × List Reply} (kernel : s.FromKernel label)
    (taken : Server.step fuse s label = some next) : next.Kept := by
  obtain ⟨r, -, exit⟩ := handle_cases (step_eq_some.mp taken)
  have numbered := kept.sound.toNumbered
  exact ⟨kept.sound.step kernel.1 taken, kept.small.case numbered exit,
    kept.dataless.case numbered exit⟩

/-- One request is served as the paths say. -/
theorem Kept.serves (kept : s.Kept) {label : Request × List Reply} (kernel : s.FromKernel label)
    (taken : Server.step fuse s label = some next) : Serves fuse s.files label next.files := by
  obtain ⟨req, replies⟩ := label
  obtain ⟨vfs, args, reads⟩ := kernel
  have result := step_eq_some.mp taken
  have sound := kept.sound
  have dataless := kept.dataless
  cases req with
  | lookup parent name => exact lookup_serves sound dataless result
  | create placement parent name mode => exact create_serves sound result
  | unlink parent name => exact unlink_serves sound vfs result
  | open_ ino => exact open_serves sound result
  | readdir ino size off => exact readdir_serves sound result
  | write ino buf off => exact write_serves sound args result
  | statfs => exact statfs_serves sound result
  | getattr ino => exact getattr_serves sound dataless result
  | read ino size off => exact read_serves sound kept.small reads result
  | mkdir placement parent name mode => exact mkdir_serves sound result
  | rmdir parent name => exact rmdir_serves sound result
  | setattr ino attr to_set => exact setattr_serves sound dataless result
  | getxattr =>
      obtain ⟨rfl, rfl⟩ := reply_eq result
      exact .unsupported

/-- Whatever the kernel asks in whatever order, and wherever the hash tables put their entries: the
server is the file system that its paths show. Each request changes what stands at one path at most,
every reply says what the paths say, and the paths make up a tree in which every inode stands
once. -/
theorem run_serves
    (run : Exec (Guarded FromKernel (Of (step fuse))) (init files dirs) labels s) :
    Exec (Serves fuse) Files.root labels s.files ∧ s.files.Shaped := by
  have simulated : s.Kept ∧ Exec (Serves fuse) Files.root labels s.files := by
    refine run.history (fun labels s => s.Kept ∧ Exec (Serves fuse) Files.root labels s.files)
      ⟨kept_init, ?_⟩ ?_
    · rw [files_init]
      exact .nil
    · rintro labels state label next ⟨kept, before⟩ ⟨kernel, taken⟩
      exact ⟨kept.step kernel taken, before.snoc (kept.serves kernel taken)⟩
  exact ⟨simulated.2, simulated.1.sound.shaped⟩

theorem run_serves_example :
    ∃ labels s, Exec (Guarded FromKernel (Of (step .aligned))) (init 0 0) labels s ∧
      labels.length = 6 ∧ s.files ["a", "g"] = some (.file 4 [0, 7]) ∧ s.files ["a", "f"] = none ∧
        Exec (Serves .aligned) Files.root labels s.files := by
  let labels : List (Request × List Reply) := [
    (.mkdir .front 1 "a" 0o755, [.entry { ino := 3, attr := {
      st_mode := S_IFDIR ||| 0o755, st_nlink := 2, st_size := 0 } }]),
    (.create .front 3 "f" 0o644, [.create { ino := 2, attr := {
      st_mode := S_IFREG ||| 0o644, st_nlink := 1, st_size := 0 } }]),
    (.create .front 3 "g" 0o644, [.create { ino := 4, attr := {
      st_mode := S_IFREG ||| 0o644, st_nlink := 1, st_size := 0 } }]),
    (.write 4 [7] 1, [.write 1]),
    (.rmdir 1 "a", [.err ENOTEMPTY]),
    (.unlink 3 "f", [.err 0])]
  obtain ⟨s, run, written, gone⟩ :
      ∃ s, Exec (Guarded FromKernel (Of (step .aligned))) (init 0 0) labels s ∧
        s.files ["a", "g"] = some (.file 4 [0, 7]) ∧ s.files ["a", "f"] = none :=
    Transition.exists_guarded (by decide +kernel)
  exact ⟨labels, s, run, rfl, written, gone, (run_serves run).1⟩

end Runs

end Server

end Myfs

end Getrafty
