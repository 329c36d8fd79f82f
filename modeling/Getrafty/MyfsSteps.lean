import Getrafty.Myfs

set_option autoImplicit false

namespace Getrafty

namespace Myfs

open Words (addSize)

namespace Server

variable {s : Server} {fuse : Libfuse} {ino : Nat}

section Nodes

theorem findInode_update (change : FileNode → FileNode) (x : Nat) :
    (s.update ino change).findInode x =
      if x = ino then (s.findInode ino).map change else s.findInode x := by
  unfold update
  cases found : s.findInode ino with
  | none =>
      by_cases here : x = ino
      · rw [if_pos here, here, found, Option.map_none]
      · rw [if_neg here]
  | some node =>
      by_cases here : x = ino
      · rw [if_pos here, here, Option.map_some]
        exact AList.lookup_insert _
      · rw [if_neg here]
        exact AList.lookup_insert_ne here

theorem findInode_insert (node : FileNode) (x : Nat) :
    ({ s with inode_map_ := s.inode_map_.insert ino node } : Server).findInode x =
      if x = ino then some node else s.findInode x := by
  by_cases here : x = ino
  · rw [if_pos here, here]
    exact AList.lookup_insert _
  · rw [if_neg here]
    exact AList.lookup_insert_ne here

theorem findInode_erase (x : Nat) :
    ({ s with inode_map_ := s.inode_map_.erase ino } : Server).findInode x =
      if x = ino then none else s.findInode x := by
  by_cases here : x = ino
  · rw [if_pos here, here]
    exact AList.lookup_erase _ _
  · rw [if_neg here]
    exact AList.lookup_erase_ne here

theorem findDirectory_eq_some {node : FileNode} :
    s.findDirectory ino = some node ↔ s.findInode ino = some node ∧ node.is_directory_ = true :=
  Option.filter_eq_some_iff

theorem update_counters (change : FileNode → FileNode) :
    (s.update ino change).next_file_inode_ = s.next_file_inode_ ∧
      (s.update ino change).next_dir_inode_ = s.next_dir_inode_ := by
  unfold update
  cases s.findInode ino with
  | none => exact ⟨rfl, rfl⟩
  | some node => exact ⟨rfl, rfl⟩

variable {name other : String} {child : Nat} {node : FileNode} {placement : Placement}

theorem addChild_lookup_self :
    (addChild placement name child node).children_.lookup name = some child :=
  (AList.perm_lookup (placement.perm _)).trans (AList.lookup_insert _)

theorem addChild_lookup_ne (different : other ≠ name) :
    (addChild placement name child node).children_.lookup other =
      node.children_.lookup other :=
  (AList.perm_lookup (placement.perm _)).trans (AList.lookup_insert_ne different)

theorem eraseChild_lookup :
    (eraseChild name node).children_.lookup other =
      if other = name then none else node.children_.lookup other := by
  by_cases same : other = name
  · rw [if_pos same, same]
    exact AList.lookup_erase _ _
  · rw [if_neg same]
    exact AList.lookup_erase_ne same

end Nodes

section Outcomes

/-- The number that `allocateInode` gives out next. -/
def nextInode (s : Server) (is_directory : Bool) : Nat :=
  if is_directory then s.next_dir_inode_ else s.next_file_inode_

/-- The server with one node more. -/
def added (s : Server) (placement : Placement) (parent : Nat) (is_directory : Bool)
    (name : String) : Server :=
  let node : FileNode := { is_directory_ := is_directory, parent_ino_ := parent }
  let counted := if is_directory then { s with next_dir_inode_ := s.next_dir_inode_ + 2 }
    else { s with next_file_inode_ := s.next_file_inode_ + 2 }
  let inserted : Server :=
    { counted with inode_map_ := s.inode_map_.insert (s.nextInode is_directory) node }
  inserted.update parent (addChild placement name (s.nextInode is_directory))

/-- The server with one node less. -/
def removed (s : Server) (parent : Nat) (name : String) (child : Nat) : Server :=
  ({ s with inode_map_ := s.inode_map_.erase child } : Server).update parent (eraseChild name)

/-- The server with other contents in one file. -/
def filled (s : Server) (ino : Nat) (data : List UInt8) : Server :=
  s.update ino fun node => { node with data_ := data }

theorem allocateInode_eq (placement : Placement) {parent : Nat} {pn : FileNode}
    (found : s.findDirectory parent = some pn) (is_directory : Bool) (name : String) :
    s.allocateInode placement parent is_directory name =
      some (s.nextInode is_directory, s.added placement parent is_directory name) := by
  have present : (s.findDirectory parent).isSome = true := by rw [found]; rfl
  cases is_directory with
  | false => exact if_pos present
  | true => exact if_pos present

theorem allocateInode_none (placement : Placement) {parent : Nat}
    (missing : s.findDirectory parent = none) (is_directory : Bool) (name : String) :
    s.allocateInode placement parent is_directory name = none := by
  have absent : ¬ (s.findDirectory parent).isSome = true := by rw [missing]; decide
  cases is_directory with
  | false => exact if_neg absent
  | true => exact if_neg absent

theorem allocateInode_ino {placement : Placement} {parent : Nat} {is_directory : Bool}
    {name : String} {given : Nat} {next : Server}
    (allocated : s.allocateInode placement parent is_directory name = some (given, next)) :
    given = s.nextInode is_directory := by
  cases found : s.findDirectory parent with
  | none =>
      rw [allocateInode_none placement found] at allocated
      cases allocated
  | some pn =>
      rw [allocateInode_eq placement found] at allocated
      exact (Prod.mk.inj (Option.some.inj allocated)).1.symm

/-- What a request can do, by its handler and the exit it takes. -/
inductive Case (s : Server) : Request → Server → Reply → Prop
  | refused (req : Request) (err : Int) : err ≠ 0 → Case s req s (.err err)
  | found (parent : Nat) (name : String) (pn cn : FileNode) (child : Nat) :
      s.findDirectory parent = some pn → pn.children_.lookup name = some child →
      s.findInode child = some cn →
      Case s (.lookup parent name) s (.entry {
        ino := child
        attr := { st_mode := mode cn, st_nlink := nlink cn, st_size := cn.data_.length } })
  | created (placement : Placement) (parent : Nat) (name : String) (mode : Nat) (pn : FileNode) :
      s.findDirectory parent = some pn → name ∉ pn.children_ →
      Case s (.create placement parent name mode) (s.added placement parent false name) (.create {
        ino := s.nextInode false
        attr := { st_mode := S_IFREG ||| (mode &&& 0o777), st_nlink := 1, st_size := 0 } })
  | made (placement : Placement) (parent : Nat) (name : String) (mode : Nat) (pn : FileNode) :
      s.findDirectory parent = some pn → name ∉ pn.children_ →
      Case s (.mkdir placement parent name mode) (s.added placement parent true name) (.entry {
        ino := s.nextInode true
        attr := { st_mode := S_IFDIR ||| (mode &&& 0o777), st_nlink := 2, st_size := 0 } })
  | unlinked (parent : Nat) (name : String) (pn : FileNode) (child : Nat) :
      s.findDirectory parent = some pn → pn.children_.lookup name = some child →
      Case s (.unlink parent name) (s.removed parent name child) (.err 0)
  | dropped (parent : Nat) (name : String) (pn cn : FileNode) (child : Nat) :
      s.findDirectory parent = some pn → pn.children_.lookup name = some child →
      s.findDirectory child = some cn → cn.children_.entries = [] →
      Case s (.rmdir parent name) (s.forgetInode child) (.err 0)
  | opened (ino : Nat) (node : FileNode) :
      s.findInode ino = some node → node.is_directory_ = false → Case s (.open_ ino) s .open_
  | listed (ino size : Nat) (off : Int) (node : FileNode) (buf : DirBuf) :
      s.findDirectory ino = some node → Case s (.readdir ino size off) s (.dirbuf buf)
  | written (ino : Nat) (buf : List UInt8) (off : Int) (node : FileNode)
      (resized data : List UInt8) :
      s.findInode ino = some node → node.is_directory_ = false →
      (if node.data_.length < addSize (toSize off) buf.length then
        resize node.data_ (addSize (toSize off) buf.length) else some node.data_) = some resized →
      memcpy resized off buf = some data →
      Case s (.write ino buf off) (s.filled ino data) (.write buf.length)
  | counted (stat : Statvfs) : Case s .statfs s (.statfs stat)
  | described (ino : Nat) (node : FileNode) :
      s.findInode ino = some node → Case s (.getattr ino) s (.attr (stat ino node) 1)
  | loaded (ino size : Nat) (off : Int) (node : FileNode) (data : List UInt8) :
      s.findInode ino = some node → node.is_directory_ = false →
      s.read ino size off = s.reply (.buf data) →
      Case s (.read ino size off) s (.buf data)
  | truncated (ino : Nat) (attr : SetAttr) (to_set : Nat) (node : FileNode) (data : List UInt8) :
      s.findInode ino = some node → node.is_directory_ = false →
      to_set &&& FUSE_SET_ATTR_SIZE ≠ 0 → 0 ≤ attr.st_size →
      resize node.data_ attr.st_size.toNat = some data →
      Case s (.setattr ino attr to_set) (s.filled ino data)
        (.attr (stat ino { node with data_ := data }) 1)
  | kept (ino : Nat) (attr : SetAttr) (to_set : Nat) (node : FileNode) :
      s.findInode ino = some node → to_set &&& FUSE_SET_ATTR_SIZE = 0 →
      Case s (.setattr ino attr to_set) s (.attr (stat ino node) 1)

variable {next : Server} {replies : List Reply}

theorem reply_eq {r : Reply} (result : s.reply r = some (next, replies)) :
    next = s ∧ replies = [r] := by
  rw [reply, Option.some.injEq, Prod.mk.injEq] at result
  exact ⟨result.1.symm, result.2.symm⟩

/-- An exit of a handler that leaves the server alone. -/
theorem Case.unchanged {req : Request} {r : Reply} (result : s.reply r = some (next, replies))
    (exit : Case s req s r) : ∃ r, replies = [r] ∧ Case s req next r := by
  obtain ⟨rfl, rfl⟩ := reply_eq result
  exact ⟨r, rfl, exit⟩

theorem lookup_cases {parent : Nat} {name : String}
    (result : s.lookup parent name = some (next, replies)) :
    ∃ r, replies = [r] ∧ Case s (.lookup parent name) next r := by
  unfold lookup at result
  cases directory : s.findDirectory parent with
  | none =>
      simp only [directory] at result
      exact Case.unchanged result (.refused _ _ (by decide))
  | some pn =>
      simp only [directory] at result
      cases entry : pn.children_.lookup name with
      | none =>
          simp only [entry] at result
          exact Case.unchanged result (.refused _ _ (by decide))
      | some child =>
          simp only [entry] at result
          cases node : s.findInode child with
          | none =>
              simp only [node] at result
              cases result
          | some cn =>
              simp only [node] at result
              exact Case.unchanged result (.found parent name pn cn child directory entry node)

theorem create_cases {placement : Placement} {parent : Nat} {name : String} {mode : Nat}
    (result : s.create placement parent name mode = some (next, replies)) :
    ∃ r, replies = [r] ∧ Case s (.create placement parent name mode) next r := by
  unfold create at result
  cases directory : s.findDirectory parent with
  | none =>
      simp only [directory] at result
      exact Case.unchanged result (.refused _ _ (by decide))
  | some pn =>
      simp only [directory] at result
      by_cases taken : name ∈ pn.children_
      · rw [if_pos taken] at result
        exact Case.unchanged result (.refused _ _ (by decide))
      · rw [if_neg taken, allocateInode_eq placement directory, Option.bind_some] at result
        obtain ⟨rfl, rfl⟩ := reply_eq result
        exact ⟨_, rfl, .created placement parent name mode pn directory taken⟩

theorem mkdir_cases {placement : Placement} {parent : Nat} {name : String} {mode : Nat}
    (result : s.mkdir placement parent name mode = some (next, replies)) :
    ∃ r, replies = [r] ∧ Case s (.mkdir placement parent name mode) next r := by
  unfold mkdir at result
  cases directory : s.findDirectory parent with
  | none =>
      simp only [directory] at result
      exact Case.unchanged result (.refused _ _ (by decide))
  | some pn =>
      simp only [directory] at result
      by_cases taken : name ∈ pn.children_
      · rw [if_pos taken] at result
        exact Case.unchanged result (.refused _ _ (by decide))
      · rw [if_neg taken, allocateInode_eq placement directory, Option.bind_some] at result
        obtain ⟨rfl, rfl⟩ := reply_eq result
        exact ⟨_, rfl, .made placement parent name mode pn directory taken⟩

theorem unlink_cases {parent : Nat} {name : String}
    (result : s.unlink parent name = some (next, replies)) :
    ∃ r, replies = [r] ∧ Case s (.unlink parent name) next r := by
  unfold unlink at result
  cases directory : s.findDirectory parent with
  | none =>
      simp only [directory] at result
      exact Case.unchanged result (.refused _ _ (by decide))
  | some pn =>
      simp only [directory] at result
      cases entry : pn.children_.lookup name with
      | none =>
          simp only [entry] at result
          exact Case.unchanged result (.refused _ _ (by decide))
      | some child =>
          simp only [entry] at result
          obtain ⟨rfl, rfl⟩ := reply_eq result
          exact ⟨_, rfl, .unlinked parent name pn child directory entry⟩

theorem rmdir_cases {parent : Nat} {name : String}
    (result : s.rmdir parent name = some (next, replies)) :
    ∃ r, replies = [r] ∧ Case s (.rmdir parent name) next r := by
  unfold rmdir at result
  cases directory : s.findDirectory parent with
  | none =>
      simp only [directory] at result
      exact Case.unchanged result (.refused _ _ (by decide))
  | some pn =>
      simp only [directory] at result
      cases entry : pn.children_.lookup name with
      | none =>
          simp only [entry] at result
          exact Case.unchanged result (.refused _ _ (by decide))
      | some child =>
          simp only [entry] at result
          cases node : s.findDirectory child with
          | none =>
              simp only [node] at result
              exact Case.unchanged result (.refused _ _ (by decide))
          | some cn =>
              simp only [node] at result
              by_cases full : cn.children_.entries ≠ []
              · rw [if_pos full] at result
                exact Case.unchanged result (.refused _ _ (by decide))
              · rw [if_neg full] at result
                obtain ⟨rfl, rfl⟩ := reply_eq result
                exact ⟨_, rfl, .dropped parent name pn cn child directory entry node
                  (not_ne_iff.mp full)⟩

theorem open_cases (result : s.open_ ino = some (next, replies)) :
    ∃ r, replies = [r] ∧ Case s (.open_ ino) next r := by
  unfold open_ at result
  cases found : s.findInode ino with
  | none =>
      simp only [found] at result
      exact Case.unchanged result (.refused _ _ (by decide))
  | some node =>
      simp only [found] at result
      cases kind : node.is_directory_ with
      | true =>
          rw [if_pos kind] at result
          exact Case.unchanged result (.refused _ _ (by decide))
      | false =>
          rw [if_neg (by rw [kind]; decide)] at result
          exact Case.unchanged result (.opened ino node found kind)

theorem readdir_cases {size : Nat} {off : Int}
    (result : s.readdir fuse ino size off = some (next, replies)) :
    ∃ r, replies = [r] ∧ Case s (.readdir ino size off) next r := by
  unfold readdir at result
  cases directory : s.findDirectory ino with
  | none =>
      simp only [directory] at result
      exact Case.unchanged result (.refused _ _ (by decide))
  | some node =>
      simp only [directory] at result
      by_cases small : size ≤ max_size
      · rw [if_pos small, Option.bind_eq_some_iff] at result
        obtain ⟨buf, -, result⟩ := result
        exact Case.unchanged result (.listed ino size off node buf directory)
      · rw [if_neg small] at result
        cases result

theorem write_cases {buf : List UInt8} {off : Int}
    (result : s.write ino buf off = some (next, replies)) :
    ∃ r, replies = [r] ∧ Case s (.write ino buf off) next r := by
  unfold write at result
  cases found : s.findInode ino with
  | none =>
      simp only [found] at result
      exact Case.unchanged result (.refused _ _ (by decide))
  | some node =>
      simp only [found] at result
      cases kind : node.is_directory_ with
      | true =>
          rw [if_pos kind] at result
          exact Case.unchanged result (.refused _ _ (by decide))
      | false =>
          rw [if_neg (by rw [kind]; decide)] at result
          simp only [Option.bind_eq_some_iff] at result
          obtain ⟨data, ⟨resized, grown, copied⟩, result⟩ := result
          obtain ⟨rfl, rfl⟩ := reply_eq result
          exact ⟨_, rfl, .written ino buf off node resized data found kind grown copied⟩

theorem getattr_cases (result : s.getattr ino = some (next, replies)) :
    ∃ r, replies = [r] ∧ Case s (.getattr ino) next r := by
  unfold getattr at result
  cases found : s.findInode ino with
  | none =>
      simp only [found] at result
      exact Case.unchanged result (.refused _ _ (by decide))
  | some node =>
      simp only [found] at result
      exact Case.unchanged result (.described ino node found)

theorem read_cases {size : Nat} {off : Int} (result : s.read ino size off = some (next, replies)) :
    ∃ r, replies = [r] ∧ Case s (.read ino size off) next r := by
  have whole := result
  unfold read at result
  cases found : s.findInode ino with
  | none =>
      simp only [found] at result
      exact Case.unchanged result (.refused _ _ (by decide))
  | some node =>
      simp only [found] at result
      cases kind : node.is_directory_ with
      | true =>
          rw [if_pos kind] at result
          exact Case.unchanged result (.refused _ _ (by decide))
      | false =>
          have sent : ∀ data, s.reply (.buf data) = some (next, replies) →
              ∃ r, replies = [r] ∧ Case s (.read ino size off) next r := by
            intro data same
            exact Case.unchanged same (.loaded ino size off node data found kind
              (whole.trans same.symm))
          rw [if_neg (by rw [kind]; decide)] at result
          split at result
          · exact sent _ result
          · split at result
            · exact sent _ result
            · split at result
              · exact sent _ result
              · cases result

theorem setattr_cases {attr : SetAttr} {to_set : Nat}
    (result : s.setattr ino attr to_set = some (next, replies)) :
    ∃ r, replies = [r] ∧ Case s (.setattr ino attr to_set) next r := by
  unfold setattr at result
  cases found : s.findInode ino with
  | none =>
      simp only [found] at result
      exact Case.unchanged result (.refused _ _ (by decide))
  | some node =>
      simp only [found] at result
      by_cases sized : to_set &&& FUSE_SET_ATTR_SIZE ≠ 0
      · rw [if_pos sized] at result
        cases kind : node.is_directory_ with
        | true =>
            rw [if_pos kind] at result
            exact Case.unchanged result (.refused _ _ (by decide))
        | false =>
            rw [if_neg (by rw [kind]; decide)] at result
            by_cases negative : attr.st_size < 0
            · rw [if_pos negative] at result
              exact Case.unchanged result (.refused _ _ (by decide))
            · rw [if_neg negative, Option.bind_eq_some_iff] at result
              obtain ⟨data, resized, result⟩ := result
              obtain ⟨rfl, rfl⟩ := reply_eq result
              exact ⟨_, rfl, .truncated ino attr to_set node data found kind sized
                (Int.not_lt.mp negative) resized⟩
      · rw [if_neg sized] at result
        exact Case.unchanged result (.kept ino attr to_set node found (not_ne_iff.mp sized))

/-- Every handler that returns has sent one reply, and has done what the exit it took says. -/
theorem handle_cases {req : Request} (result : s.handle fuse req = some (next, replies)) :
    ∃ r, replies = [r] ∧ Case s req next r := by
  cases req with
  | lookup parent name => exact lookup_cases result
  | create placement parent name mode => exact create_cases result
  | unlink parent name => exact unlink_cases result
  | open_ ino => exact open_cases result
  | readdir ino size off => exact readdir_cases result
  | write ino buf off => exact write_cases result
  | statfs => exact Case.unchanged result (.counted _)
  | getattr ino => exact getattr_cases result
  | read ino size off => exact read_cases result
  | mkdir placement parent name mode => exact mkdir_cases result
  | rmdir parent name => exact rmdir_cases result
  | setattr ino attr to_set => exact setattr_cases result
  | getxattr => exact Case.unchanged result (.refused _ _ (by decide))

theorem step_eq_some {label : Request × List Reply} :
    step fuse s label = some next ↔ s.handle fuse label.1 = some (next, label.2) := by
  unfold step
  cases result : s.handle fuse label.1 with
  | none => simp only [reduceCtorEq]
  | some handled =>
      obtain ⟨after, sent⟩ := handled
      dsimp only
      by_cases same : sent = label.2
      · rw [if_pos same, same, Option.some.injEq, Option.some.injEq, Prod.mk.injEq]
        exact ⟨fun eq => ⟨eq, rfl⟩, fun eq => eq.1⟩
      · rw [if_neg same]
        refine iff_of_false nofun ?_
        intro eq
        exact same (Prod.mk.inj (Option.some.inj eq)).2

end Outcomes

end Server

end Myfs

end Getrafty
