import Getrafty.Lib.NamePaths
import Getrafty.MyfsFiles
import Getrafty.MyfsReplies

set_option autoImplicit false

namespace Getrafty

namespace Myfs

namespace Server

variable {s : Server}

/-- A node as it stands at its path. -/
def entryOf (ino : Nat) (node : FileNode) : Entry :=
  if node.is_directory_ then .directory ino else .file ino node.data_

/-- What stands at the paths of the server. -/
def files (s : Server) : Files := fun path =>
  (s.nameTree.walk 1 path).bind fun ino => (s.findInode ino).map (entryOf ino)

/-- No directory holds bytes. -/
def Dataless (s : Server) : Prop :=
  ∀ ino node, s.findInode ino = some node → node.is_directory_ = true → node.data_ = []

section Entries

variable {path other : List String} {ino : Nat} {node : FileNode} {e : Entry} {name : String}

theorem entryOf_ino (ino : Nat) (node : FileNode) : (entryOf ino node).ino = ino := by
  unfold entryOf
  split <;> rfl

theorem entryOf_directory (kind : node.is_directory_ = true) : entryOf ino node = .directory ino :=
  if_pos kind

theorem entryOf_file (kind : node.is_directory_ = false) :
    entryOf ino node = .file ino node.data_ := by
  rw [entryOf, kind]
  rfl

theorem files_of_walk (leads : s.nameTree.walk 1 path = some ino)
    (found : s.findInode ino = some node) : s.files path = some (entryOf ino node) := by
  rw [files, leads, Option.bind_some, found, Option.map_some]

theorem files_eq_some (here : s.files path = some e) :
    ∃ node, s.nameTree.walk 1 path = some e.ino ∧ s.findInode e.ino = some node ∧
      e = entryOf e.ino node := by
  rw [files, Option.bind_eq_some_iff] at here
  obtain ⟨ino, leads, here⟩ := here
  obtain ⟨node, found, rfl⟩ := Option.map_eq_some_iff.mp here
  rw [entryOf_ino]
  exact ⟨node, leads, found, rfl⟩

theorem Sound.walk_found (sound : s.Sound) (leads : s.nameTree.walk 1 path = some ino) :
    ∃ node, s.findInode ino = some node := by
  obtain ⟨value, held⟩ := Option.isSome_iff_exists.mp (sound.tree.walk_present leads)
  obtain ⟨node, found, -⟩ := nameTree_node_eq_some held
  exact ⟨node, found⟩

theorem Sound.files_eq_none (sound : s.Sound) :
    s.files path = none ↔ s.nameTree.walk 1 path = none := by
  rw [files, Option.bind_eq_none_iff, Option.eq_none_iff_forall_ne_some]
  constructor
  · intro nothing ino leads
    obtain ⟨node, found⟩ := sound.walk_found leads
    have missing := nothing ino leads
    rw [found] at missing
    cases missing
  · intro nowhere ino leads
    exact absurd leads (nowhere ino)

theorem Sound.exists_path (sound : s.Sound) (found : s.findInode ino = some node) :
    ∃ path, s.nameTree.walk 1 path = some ino ∧ s.files path = some (entryOf ino node) := by
  obtain ⟨path, leads⟩ := sound.tree.exists_walk (by rw [nameTree_node found]; rfl)
  exact ⟨path, leads, files_of_walk leads found⟩

theorem Sound.directory_path (sound : s.Sound) (found : s.findDirectory ino = some node) :
    ∃ path, s.nameTree.walk 1 path = some ino ∧ s.files path = some (.directory ino) := by
  obtain ⟨held, kind⟩ := findDirectory_eq_some.mp found
  obtain ⟨path, leads, here⟩ := sound.exists_path held
  rw [entryOf_directory kind] at here
  exact ⟨path, leads, here⟩

theorem notDirectory_of_none (missing : s.findDirectory ino = none) :
    s.files.NotDirectory ino := by
  intro path here
  obtain ⟨node, -, found, same⟩ := files_eq_some here
  have kind : node.is_directory_ = true := by
    by_contra file
    rw [entryOf_file (Bool.eq_false_iff.mpr file)] at same
    cases same
  have directory : s.findDirectory ino = some node := findDirectory_eq_some.mpr ⟨found, kind⟩
  rw [missing] at directory
  cases directory

theorem unused_of_none (missing : s.findInode ino = none) : s.files.Unused ino := by
  rintro path e here rfl
  obtain ⟨node, -, found, -⟩ := files_eq_some here
  rw [missing] at found
  cases found

/-- What stands behind a name. -/
theorem walk_child (leads : s.nameTree.walk 1 path = some ino) (found : s.findInode ino = some node)
    (name : String) : s.nameTree.walk 1 (path ++ [name]) = node.children_.lookup name := by
  rw [NameTree.walk_snoc, leads]
  exact entry_of_findInode found name

/-- A directory has no file under the names that it does not list. -/
theorem Sound.files_child_none (sound : s.Sound) (leads : s.nameTree.walk 1 path = some ino)
    (found : s.findInode ino = some node) (name : String) :
    s.files (path ++ [name]) = none ↔ name ∉ node.children_ := by
  rw [sound.files_eq_none, walk_child leads found, AList.lookup_eq_none]

theorem Sound.names_eq (sound : s.Sound) (leads : s.nameTree.walk 1 path = some ino)
    (found : s.findInode ino = some node) :
    s.files.names path = {name | name ∈ node.children_} := by
  ext name
  rw [Files.names, Set.mem_ofPred_eq, Set.mem_ofPred_eq, Ne, sound.files_eq_none,
    walk_child leads found, ← AList.lookup_isSome, ← Option.ne_none_iff_isSome]

theorem ncard_children (node : FileNode) :
    {name | name ∈ node.children_}.ncard = node.children_.entries.length := by
  have keys : {name | name ∈ node.children_} = ↑node.children_.keys.toFinset := by
    ext name
    simp only [Set.mem_ofPred_eq, List.coe_toFinset, AList.mem_keys]
  rw [keys, Set.ncard_coe_finset, List.toFinset_card_of_nodup (AList.keys_nodup _), AList.keys,
    List.keys, List.length_map]

/-- The attributes that the path shows are those of the node. -/
theorem Sound.attr_eq (sound : s.Sound) (dataless : s.Dataless)
    (leads : s.nameTree.walk 1 path = some ino) (found : s.findInode ino = some node) :
    s.files.attr path (entryOf ino node) = stat ino node := by
  cases kind : node.is_directory_ with
  | true =>
      rw [entryOf_directory kind]
      have empty := dataless ino node found kind
      have links := ncard_children node
      rw [← sound.names_eq leads found] at links
      simp only [Files.attr, stat, mode, nlink, kind, ↓reduceIte, empty, List.length_nil, links]
  | false =>
      rw [entryOf_file kind]
      simp only [Files.attr, stat, mode, nlink, kind, Bool.false_eq_true, ↓reduceIte]

theorem Sound.shaped (sound : s.Sound) : s.files.Shaped where
  top := by
    obtain ⟨node, found, same⟩ := nameTree_node_eq_some sound.tree.top
    have here := files_of_walk (NameTree.walk_nil (t := s.nameTree) 1) found
    rwa [entryOf_directory (congrArg Prod.fst same)] at here
  inside := by
    intro path name here
    rw [Ne, sound.files_eq_none, NameTree.walk_snoc, Option.bind_eq_none_iff] at here
    push Not at here
    obtain ⟨ino, leads, held⟩ := here
    obtain ⟨child, held⟩ := Option.ne_none_iff_exists'.mp held
    obtain ⟨up, known⟩ := sound.tree.entry_parent held
    obtain ⟨node, found, same⟩ := nameTree_node_eq_some known
    refine ⟨ino, ?_⟩
    rw [files_of_walk leads found, entryOf_directory (congrArg Prod.fst same)]
  single := by
    intro path other e e' here there same
    obtain ⟨node, leads, -, -⟩ := files_eq_some here
    obtain ⟨node', leads', -, -⟩ := files_eq_some there
    rw [← same] at leads'
    exact sound.tree.walk_inj leads leads'

end Entries

section Changes

variable {t : Server} {path : List String} {parent ino : Nat} {name : String} {pn node : FileNode}
  {placement : Placement} {is_directory : Bool}

theorem files_init (files dirs : Nat) : (init files dirs).files = Files.root := by
  funext path
  rw [Server.files, nameTree_init, Files.root]
  cases path with
  | nil =>
      rw [NameTree.walk_nil, Option.bind_some, findInode_init, if_pos rfl, Option.map_some,
        if_pos rfl]
      rfl
  | cons name path =>
      rw [if_neg (List.cons_ne_nil _ _)]
      rfl

theorem files_congr (same : ∀ x, t.findInode x = s.findInode x) : t.files = s.files := by
  have tree : t.nameTree = s.nameTree := nameTree_congr fun x => congrArg _ (same x)
  funext path
  rw [Server.files, Server.files, tree]
  exact congrArg _ (funext fun x => congrArg _ (same x))

/-- The new node stands at one path, and nothing else moves or changes. -/
theorem Sound.files_added (sound : s.Sound) (found : s.findDirectory parent = some pn)
    (unused : name ∉ pn.children_) (leads : s.nameTree.walk 1 path = some parent) :
    (s.added placement parent is_directory name).files =
      Function.update s.files (path ++ [name]) (some (entryOf (s.nextInode is_directory)
        { is_directory_ := is_directory, parent_ino_ := parent })) := by
  have free := sound.toNumbered.nextInode_free is_directory
  have held := (findDirectory_eq_some.mp found).1
  have away : s.nameTree.node (s.nextInode is_directory) = none := congrArg (Option.map _) free
  have nameless : s.nameTree.entry parent name = none :=
    (entry_of_findInode held name).trans (AList.lookup_eq_none.mpr unused)
  have other : s.nextInode is_directory ≠ parent := by
    intro same
    rw [same, held] at free
    cases free
  funext q
  rw [Server.files, sound.nameTree_added found, sound.tree.walk_add away nameless leads]
  by_cases here : q = path ++ [name]
  · rw [if_pos here, here, Function.update_self, Option.bind_some,
      sound.toNumbered.findInode_added found, if_neg other, if_pos rfl, Option.map_some]
  · rw [if_neg here, Function.update_of_ne here, Server.files]
    cases toward : s.nameTree.walk 1 q with
    | none => rfl
    | some i =>
        obtain ⟨node, present⟩ := sound.walk_found toward
        have old : i ≠ s.nextInode is_directory := by
          rintro rfl
          rw [free] at present
          cases present
        rw [Option.bind_some, Option.bind_some, sound.toNumbered.findInode_added found]
        by_cases same : i = parent
        · rw [if_pos same, same, held]
          rfl
        · rw [if_neg same, if_neg old]

/-- What stood at one path is gone, and nothing else moves or changes. -/
theorem Sound.files_removed (sound : s.Sound) {child : Nat}
    (found : s.findDirectory parent = some pn) (listed : pn.children_.lookup name = some child)
    (leaf : ∀ name, s.entry child name = none) (leads : s.nameTree.walk 1 path = some parent) :
    (s.removed parent name child).files = Function.update s.files (path ++ [name]) none := by
  have held := (findDirectory_eq_some.mp found).1
  have named : s.entry parent name = some child := (entry_of_findInode held name).trans listed
  have other := entry_ne named leaf
  have place : s.nameTree.walk 1 (path ++ [name]) = some child :=
    (walk_child leads held name).trans listed
  funext q
  rw [Server.files, nameTree_removed other held leaf, sound.tree.walk_remove named leaf leads]
  by_cases here : q = path ++ [name]
  · rw [if_pos here, here, Function.update_self, Option.bind_none]
  · rw [if_neg here, Function.update_of_ne here, Server.files]
    cases toward : s.nameTree.walk 1 q with
    | none => rfl
    | some i =>
        have kept : i ≠ child := by
          rintro rfl
          exact here (sound.tree.walk_inj toward place)
        rw [Option.bind_some, Option.bind_some, findInode_removed other held]
        by_cases same : i = parent
        · rw [if_pos same, same, held]
          rfl
        · rw [if_neg same, if_neg kept]

theorem Sound.files_forgotten (sound : s.Sound) {child : Nat}
    (found : s.findDirectory parent = some pn) (listed : pn.children_.lookup name = some child)
    (leaf : ∀ name, s.entry child name = none) (leads : s.nameTree.walk 1 path = some parent) :
    (s.forgetInode child).files = Function.update s.files (path ++ [name]) none :=
  (files_congr (sound.forgetInode_eq found listed leaf)).trans
    (sound.files_removed found listed leaf leads)

theorem Sound.files_filled (sound : s.Sound) (leads : s.nameTree.walk 1 path = some ino)
    (found : s.findInode ino = some node) (file : node.is_directory_ = false) (data : List UInt8) :
    (s.filled ino data).files = Function.update s.files path (some (.file ino data)) := by
  funext q
  rw [Server.files, nameTree_filled]
  by_cases here : q = path
  · rw [here, Function.update_self, leads, Option.bind_some, findInode_filled, if_pos rfl, found,
      Option.map_some, Option.map_some]
    exact congrArg some (@entryOf_file ino { node with data_ := data } file)
  · rw [Function.update_of_ne here, Server.files]
    cases toward : s.nameTree.walk 1 q with
    | none => rfl
    | some i =>
        have apart : i ≠ ino := by
          rintro rfl
          exact here (sound.tree.walk_inj toward leads)
        rw [Option.bind_some, Option.bind_some, findInode_filled, if_neg apart]

end Changes

section Bytes

variable {next : Server} {r : Reply}

theorem Dataless.inherits (dataless : s.Dataless) (inherits : s.Inherits next) : next.Dataless := by
  intro ino node found kind
  obtain ⟨old, before, same, data⟩ := inherits ino node found
  rw [← data]
  exact dataless ino old before (same.trans kind)

theorem Dataless.added (dataless : s.Dataless) (numbered : s.Numbered) {placement : Placement}
    {parent : Nat} {is_directory : Bool} {name : String} {pn : FileNode}
    (directory : s.findDirectory parent = some pn) :
    (s.added placement parent is_directory name).Dataless := by
  intro x node found kind
  rcases numbered.added_origin directory x node found with ⟨-, -, empty⟩ | ⟨old, before, same, data⟩
  · exact empty
  · rw [← data]
    exact dataless x old before (same.trans kind)

theorem Dataless.filled (dataless : s.Dataless) {ino : Nat} {node : FileNode}
    (found : s.findInode ino = some node) (file : node.is_directory_ = false) (data : List UInt8) :
    (s.filled ino data).Dataless := by
  intro x other present kind
  rw [findInode_filled] at present
  by_cases here : x = ino
  · rw [if_pos here, found, Option.map_some, Option.some.injEq] at present
    subst present
    rw [file] at kind
    cases kind
  · rw [if_neg here] at present
    exact dataless x other present kind

theorem Dataless.case (dataless : s.Dataless) (numbered : s.Numbered) {req : Request}
    (exit : Case s req next r) : next.Dataless := by
  cases exit with
  | created placement parent name mode pn directory unused =>
      exact dataless.added numbered directory
  | made placement parent name mode pn directory unused => exact dataless.added numbered directory
  | unlinked parent name pn child directory listed => exact dataless.inherits inherits_removed
  | dropped parent name pn cn child directory listed node empty =>
      exact dataless.inherits inherits_forgetInode
  | written ino buf off node resized data found kind grown copied =>
      exact dataless.filled found kind data
  | truncated ino attr to_set node data found kind sized positive resized =>
      exact dataless.filled found kind data
  | _ => exact dataless

end Bytes

end Server

end Myfs

end Getrafty
