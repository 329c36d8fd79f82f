import Getrafty.Errno
import Getrafty.Lib.Transition
import Getrafty.Lib.Words

set_option autoImplicit false

namespace Getrafty

namespace Myfs

open Words (addSize subSize)

def BLOCK_SIZE : Nat := 4096

def TOTAL_SPACE : Nat := 8 * 1024 * 1024

def NAME_MAX : Nat := 255

def S_IFDIR : Nat := 0o040000

def S_IFREG : Nat := 0o100000

def FUSE_SET_ATTR_MODE : Nat := 1 <<< 0

def FUSE_SET_ATTR_SIZE : Nat := 1 <<< 3

def INT_MAX : Nat := 2 ^ 31 - 1

/-- `std::vector<char>::max_size()`; a larger `resize` or `reserve` throws. -/
def max_size : Nat := 2 ^ 63 - 1

/-- What `fuse_add_direntry` returns: the padded size of an entry with that name. -/
structure Libfuse where
  direntSize : String → Nat
  positive : ∀ name, 0 < direntSize name

/-- A header of 24 bytes and the name, padded to a multiple of eight. -/
def Libfuse.aligned : Libfuse where
  direntSize := fun name => (24 + name.utf8ByteSize + 7) / 8 * 8
  positive := fun name => by omega

/-- The names of a directory, in the order in which `unordered_map` iterates over them. -/
abbrev Children : Type := AList fun _ : String => Nat

/-- Where a new name comes in that order, and what a rehash does to the others. -/
structure Placement where
  place : Children → Children
  perm : ∀ children, (place children).entries.Perm children.entries

/-- A new name comes first, and there is no rehash. -/
def Placement.front : Placement where
  place := id
  perm := fun _ => .refl _

structure FileNode where
  is_directory_ : Bool
  parent_ino_ : Nat
  data_ : List UInt8 := []
  children_ : Children := ∅
  deriving DecidableEq

/-- `Server`, and the counters of `allocateInode`. -/
structure Server where
  inode_map_ : AList fun _ : Nat => FileNode
  next_file_inode_ : Nat
  next_dir_inode_ : Nat
  deriving DecidableEq

/-- `struct stat`, as far as it is filled in. -/
structure Attr where
  st_ino : Nat := 0
  st_mode : Nat
  st_nlink : Nat
  st_size : Nat
  deriving DecidableEq

/-- The part of the `struct stat` in a request that `setattr` reads. -/
structure SetAttr where
  st_size : Int
  st_mode : Nat

/-- `fuse_entry_param`; the timeouts are in seconds. -/
structure EntryParam where
  ino : Nat
  attr : Attr
  attr_timeout : Nat := 1
  entry_timeout : Nat := 1
  deriving DecidableEq

structure Statvfs where
  f_bsize : Nat
  f_frsize : Nat
  f_blocks : Nat
  f_bfree : Nat
  f_bavail : Nat
  f_files : Nat
  f_ffree : Nat
  f_namemax : Nat
  deriving DecidableEq

/-- What `readdir` asks `fuse_add_direntry` to write. -/
structure Dirent where
  name : String
  st_ino : Nat
  st_mode : Nat
  off : Nat
  deriving DecidableEq

/-- A call of `fuse_add_direntry` at position `pos` of the buffer. -/
structure AddCall where
  pos : Nat
  entry : Dirent
  written : Bool
  deriving DecidableEq

/-- The buffer of `readdir`. -/
structure DirBuf where
  pos : Nat := 0
  calls : List AddCall := []
  deriving DecidableEq

/-- The calls of `fuse_reply_*`. -/
inductive Reply where
  | err (err : Int)
  | entry (e : EntryParam)
  | create (e : EntryParam)
  | open_
  | buf (data : List UInt8)
  | dirbuf (buf : DirBuf)
  | write (size : Nat)
  | statfs (stat : Statvfs)
  | attr (attr : Attr) (timeout : Nat)
  deriving DecidableEq

namespace Server

/-- The server and the replies it has sent when a handler returns; a null pointer, an access
outside a buffer, an overflow of `int` or an exception leaves none. -/
abbrev Handled : Type := Option (Server × List Reply)

def reply (s : Server) (r : Reply) : Handled := some (s, [r])

def findInode (s : Server) (ino : Nat) : Option FileNode := s.inode_map_.lookup ino

/-- The node, where `!node || !node->is_directory_` is false. -/
def findDirectory (s : Server) (ino : Nat) : Option FileNode :=
  (s.findInode ino).filter FileNode.is_directory_

/-- Changes a node where it stands, if the map still holds it. -/
def update (s : Server) (ino : Nat) (change : FileNode → FileNode) : Server :=
  match s.findInode ino with
  | none => s
  | some node => { s with inode_map_ := s.inode_map_.insert ino (change node) }

def addChild (placement : Placement) (name : String) (ino : Nat) (node : FileNode) : FileNode :=
  { node with children_ := placement.place (node.children_.insert name ino) }

def eraseChild (name : String) (node : FileNode) : FileNode :=
  { node with children_ := node.children_.erase name }

def allocateInode (s : Server) (placement : Placement) (parent : Nat) (is_directory : Bool)
    (name : String) : Option (Nat × Server) :=
  let ino := if is_directory then s.next_dir_inode_ else s.next_file_inode_
  let s := if is_directory then { s with next_dir_inode_ := s.next_dir_inode_ + 2 }
    else { s with next_file_inode_ := s.next_file_inode_ + 2 }
  if (s.findDirectory parent).isSome then
    let s := { s with inode_map_ :=
      s.inode_map_.insert ino { is_directory_ := is_directory, parent_ino_ := parent } }
    some (ino, s.update parent (addChild placement name ino))
  else
    none

/-- The loop over the children of the parent, by value. -/
def eraseByInode (ino : Nat) (node : FileNode) : FileNode :=
  match node.children_.entries.find? fun child => child.2 = ino with
  | none => node
  | some child => eraseChild child.1 node

def forgetInode (s : Server) (ino : Nat) : Server :=
  match s.findInode ino with
  | none => s
  | some node =>
      let s := if node.parent_ino_ ≠ 0 then s.update node.parent_ino_ (eraseByInode ino) else s
      { s with inode_map_ := s.inode_map_.erase ino }

/-- `node->is_directory_ ? 2 + node->children_.size() : 1` -/
def nlink (node : FileNode) : Nat :=
  if node.is_directory_ then 2 + node.children_.entries.length else 1

def mode (node : FileNode) : Nat :=
  if node.is_directory_ then S_IFDIR ||| 0o755 else S_IFREG ||| 0o644

def stat (ino : Nat) (node : FileNode) : Attr where
  st_ino := ino
  st_mode := mode node
  st_nlink := nlink node
  st_size := node.data_.length

def lookup (s : Server) (parent : Nat) (name : String) : Handled :=
  match s.findDirectory parent with
  | none => s.reply (.err ENOTDIR)
  | some parent_node =>
      match parent_node.children_.lookup name with
      | none => s.reply (.err ENOENT)
      | some child_ino =>
          match s.findInode child_ino with
          | none => none
          | some child_node =>
              s.reply (.entry {
                ino := child_ino
                attr := {
                  st_mode := mode child_node
                  st_nlink := nlink child_node
                  st_size := child_node.data_.length } })

def create (s : Server) (placement : Placement) (parent : Nat) (name : String) (mode : Nat) :
    Handled :=
  match s.findDirectory parent with
  | none => s.reply (.err ENOTDIR)
  | some parent_node =>
      if name ∈ parent_node.children_ then
        s.reply (.err EEXIST)
      else
        (s.allocateInode placement parent false name).bind fun (ino, s) =>
          s.reply (.create {
            ino
            attr := { st_mode := S_IFREG ||| (mode &&& 0o777), st_nlink := 1, st_size := 0 } })

def unlink (s : Server) (parent : Nat) (name : String) : Handled :=
  match s.findDirectory parent with
  | none => s.reply (.err ENOTDIR)
  | some parent_node =>
      match parent_node.children_.lookup name with
      | none => s.reply (.err ENOENT)
      | some file_ino =>
          let s := { s with inode_map_ := s.inode_map_.erase file_ino }
          (s.update parent (eraseChild name)).reply (.err 0)

def open_ (s : Server) (ino : Nat) : Handled :=
  match s.findInode ino with
  | none => s.reply (.err ENOENT)
  | some node => if node.is_directory_ then s.reply (.err EISDIR) else s.reply .open_

/-- `pos += fuse_add_direntry(req, buf.data() + pos, size - pos, ...)`, where the entry is
written only if it fits in the space it is given. -/
def addDirentry (fuse : Libfuse) (size : Nat) (buf : DirBuf) (entry : Dirent) : DirBuf where
  pos := buf.pos + fuse.direntSize entry.name
  calls := buf.calls ++
    [⟨buf.pos, entry, decide (fuse.direntSize entry.name ≤ subSize size buf.pos)⟩]

def childDirent (name : String) (child_ino : Nat) (child_node : FileNode) (current_offset : Nat) :
    Dirent where
  name := name
  st_ino := child_ino
  st_mode := if child_node.is_directory_ then S_IFDIR else S_IFREG
  off := current_offset + 1

/-- The loop of `readdir` over the children; `current_offset` is an `int`. -/
def readdirLoop (s : Server) (fuse : Libfuse) (size : Nat) (off : Int) :
    List ((_ : String) × Nat) → Nat → DirBuf → Option DirBuf
  | [], _, buf => some buf
  | ⟨name, child_ino⟩ :: rest, current_offset, buf =>
      if current_offset = INT_MAX then
        none
      else if off ≤ current_offset then
        match s.findInode child_ino with
        | none => none
        | some child_node =>
            let buf := addDirentry fuse size buf
              (childDirent name child_ino child_node current_offset)
            if size ≤ buf.pos then some buf
            else s.readdirLoop fuse size off rest (current_offset + 1) buf
      else
        s.readdirLoop fuse size off rest (current_offset + 1) buf

/-- The entries that `readdir` adds in front of the children. -/
def addDots (fuse : Libfuse) (size : Nat) (off : Int) (ino : Nat) (node : FileNode) : DirBuf :=
  let buf : DirBuf := {}
  let buf := if off = 0 then
    addDirentry fuse size buf
      { name := ".", st_ino := ino, st_mode := S_IFDIR ||| 0o755, off := 1 }
    else buf
  if off ≤ 1 then
    addDirentry fuse size buf
      { name := "..", st_ino := node.parent_ino_, st_mode := S_IFDIR ||| 0o755, off := 2 }
  else buf

def readdir (s : Server) (fuse : Libfuse) (ino size : Nat) (off : Int) : Handled :=
  match s.findDirectory ino with
  | none => s.reply (.err ENOTDIR)
  | some node =>
      if size ≤ max_size then
        (s.readdirLoop fuse size off node.children_.entries 2
          (addDots fuse size off ino node)).bind fun buf => s.reply (.dirbuf buf)
      else
        none

/-- `data.resize(size)` -/
def resize (data : List UInt8) (size : Nat) : Option (List UInt8) :=
  if size ≤ max_size then
    some (data.take size ++ List.replicate (size - data.length) 0)
  else
    none

/-- `static_cast<size_t>(off)` -/
def toSize (off : Int) : Nat := (off % (2 ^ 64 : Nat)).toNat

/-- `memcpy(data + off, buf, size)` -/
def memcpy (data : List UInt8) (off : Int) (buf : List UInt8) : Option (List UInt8) :=
  if buf = [] then
    some data
  else if 0 ≤ off ∧ off + buf.length ≤ data.length then
    some (data.take off.toNat ++ buf ++ data.drop (off.toNat + buf.length))
  else
    none

def write (s : Server) (ino : Nat) (buf : List UInt8) (off : Int) : Handled :=
  match s.findInode ino with
  | none => s.reply (.err ENOENT)
  | some node =>
      if node.is_directory_ then
        s.reply (.err EISDIR)
      else
        let write_end := addSize (toSize off) buf.length
        let resized := if node.data_.length < write_end then resize node.data_ write_end
          else some node.data_
        (resized.bind fun data => memcpy data off buf).bind fun data =>
          (s.update ino fun node => { node with data_ := data }).reply (.write buf.length)

def statfs (s : Server) : Handled :=
  let used_space := s.inode_map_.entries.foldl (fun used entry =>
    if entry.2.is_directory_ then used else addSize used entry.2.data_.length) 0
  let free_space := if used_space < TOTAL_SPACE then TOTAL_SPACE - used_space else 0
  s.reply (.statfs {
    f_bsize := BLOCK_SIZE
    f_frsize := BLOCK_SIZE
    f_blocks := TOTAL_SPACE / BLOCK_SIZE
    f_bfree := free_space / BLOCK_SIZE
    f_bavail := free_space / BLOCK_SIZE
    f_files := s.inode_map_.entries.length
    f_ffree := subSize (TOTAL_SPACE / BLOCK_SIZE) s.inode_map_.entries.length
    f_namemax := NAME_MAX })

def getattr (s : Server) (ino : Nat) : Handled :=
  match s.findInode ino with
  | none => s.reply (.err ENOENT)
  | some node => s.reply (.attr (stat ino node) 1)

def read (s : Server) (ino size : Nat) (off : Int) : Handled :=
  match s.findInode ino with
  | none => s.reply (.err ENOENT)
  | some node =>
      if node.is_directory_ then
        s.reply (.err EISDIR)
      else if (node.data_.length : Int) ≤ off then
        s.reply (.buf [])
      else
        let size := min size (subSize node.data_.length (toSize off))
        if size = 0 then
          s.reply (.buf [])
        else if 0 ≤ off then
          s.reply (.buf ((node.data_.drop off.toNat).take size))
        else
          none

def mkdir (s : Server) (placement : Placement) (parent : Nat) (name : String) (mode : Nat) :
    Handled :=
  match s.findDirectory parent with
  | none => s.reply (.err ENOTDIR)
  | some parent_node =>
      if name ∈ parent_node.children_ then
        s.reply (.err EEXIST)
      else
        (s.allocateInode placement parent true name).bind fun (ino, s) =>
          s.reply (.entry {
            ino
            attr := { st_mode := S_IFDIR ||| (mode &&& 0o777), st_nlink := 2, st_size := 0 } })

def rmdir (s : Server) (parent : Nat) (name : String) : Handled :=
  match s.findDirectory parent with
  | none => s.reply (.err ENOTDIR)
  | some parent_node =>
      match parent_node.children_.lookup name with
      | none => s.reply (.err ENOENT)
      | some child_ino =>
          match s.findDirectory child_ino with
          | none => s.reply (.err ENOTDIR)
          | some child_node =>
              if child_node.children_.entries ≠ [] then s.reply (.err ENOTEMPTY)
              else (s.forgetInode child_ino).reply (.err 0)

/-- The mode is written back to the request only. -/
def setattr (s : Server) (ino : Nat) (attr : SetAttr) (to_set : Nat) : Handled :=
  match s.findInode ino with
  | none => s.reply (.err ENOENT)
  | some node =>
      if to_set &&& FUSE_SET_ATTR_SIZE ≠ 0 then
        if node.is_directory_ then
          s.reply (.err EISDIR)
        else if attr.st_size < 0 then
          s.reply (.err EINVAL)
        else
          (resize node.data_ attr.st_size.toNat).bind fun data =>
            (s.update ino fun node => { node with data_ := data }).reply
              (.attr (stat ino { node with data_ := data }) 1)
      else
        s.reply (.attr (stat ino node) 1)

def getxattr (s : Server) : Handled := s.reply (.err ENOTSUP)

/-- The arguments of a request that its handler looks at. -/
inductive Request where
  | lookup (parent : Nat) (name : String)
  | create (placement : Placement) (parent : Nat) (name : String) (mode : Nat)
  | unlink (parent : Nat) (name : String)
  | open_ (ino : Nat)
  | readdir (ino size : Nat) (off : Int)
  | write (ino : Nat) (buf : List UInt8) (off : Int)
  | statfs
  | getattr (ino : Nat)
  | read (ino size : Nat) (off : Int)
  | mkdir (placement : Placement) (parent : Nat) (name : String) (mode : Nat)
  | rmdir (parent : Nat) (name : String)
  | setattr (ino : Nat) (attr : SetAttr) (to_set : Nat)
  | getxattr

def handle (s : Server) (fuse : Libfuse) : Request → Handled
  | .lookup parent name => s.lookup parent name
  | .create placement parent name mode => s.create placement parent name mode
  | .unlink parent name => s.unlink parent name
  | .open_ ino => s.open_ ino
  | .readdir ino size off => s.readdir fuse ino size off
  | .write ino buf off => s.write ino buf off
  | .statfs => s.statfs
  | .getattr ino => s.getattr ino
  | .read ino size off => s.read ino size off
  | .mkdir placement parent name mode => s.mkdir placement parent name mode
  | .rmdir parent name => s.rmdir parent name
  | .setattr ino attr to_set => s.setattr ino attr to_set
  | .getxattr => s.getxattr

/-- A server at its start; the counters are shared with the servers before it, which made
`files` files and `dirs` directories. -/
def init (files dirs : Nat) : Server where
  inode_map_ := AList.singleton 1 { is_directory_ := true, parent_ino_ := 1 }
  next_file_inode_ := 2 + 2 * files
  next_dir_inode_ := 3 + 2 * dirs

/-- One request, answered with these replies. -/
def step (fuse : Libfuse) (s : Server) (label : Request × List Reply) : Option Server :=
  match s.handle fuse label.1 with
  | none => none
  | some (next, replies) => if replies = label.2 then some next else none

def Run (fuse : Libfuse) (files dirs : Nat) (labels : List (Request × List Reply)) (s : Server) :
    Prop :=
  Transition.Exec (Transition.Of (step fuse)) (init files dirs) labels s

end Server

end Myfs

end Getrafty
