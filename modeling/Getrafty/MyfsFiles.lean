import Getrafty.Myfs

set_option autoImplicit false

namespace Getrafty

namespace Myfs

open Words (subSize)

/-- What stands at a path. -/
inductive Entry where
  | directory (ino : Nat)
  | file (ino : Nat) (data : List UInt8)
  deriving DecidableEq

def Entry.ino : Entry → Nat
  | .directory ino => ino
  | .file ino _ => ino

def Entry.size : Entry → Nat
  | .directory _ => 0
  | .file _ data => data.length

/-- A file system as its users see it: what stands at each path, and no order among the names of a
directory. -/
abbrev Files : Type := List String → Option Entry

namespace Files

/-- A root directory with nothing in it. -/
def root : Files := fun path => if path = [] then some (.directory 1) else none

def names (f : Files) (path : List String) : Set String := {name | f (path ++ [name]) ≠ none}

/-- Every path but the empty one continues the path of a directory, and an inode stands at one
path only. -/
structure Shaped (f : Files) : Prop where
  top : f [] = some (.directory 1)
  inside : ∀ path name, f (path ++ [name]) ≠ none → ∃ ino, f path = some (.directory ino)
  single : ∀ path other e e', f path = some e → f other = some e' → e.ino = e'.ino → path = other

/-- No inode of that number. -/
def Unused (f : Files) (ino : Nat) : Prop := ∀ path e, f path = some e → e.ino ≠ ino

def NotDirectory (f : Files) (ino : Nat) : Prop := ∀ path, f path ≠ some (.directory ino)

/-- A directory is linked from its parent, from itself and from what is in it. -/
noncomputable def attr (f : Files) (path : List String) : Entry → Attr
  | .directory ino =>
      { st_ino := ino, st_mode := S_IFDIR ||| 0o755, st_nlink := 2 + (f.names path).ncard,
        st_size := 0 }
  | .file ino data =>
      { st_ino := ino, st_mode := S_IFREG ||| 0o644, st_nlink := 1, st_size := data.length }

/-- A file after a write: the bytes come in place of what was there, behind zeros if the file was
shorter. -/
def overwritten (data : List UInt8) (off : Nat) (buf : List UInt8) : List UInt8 :=
  data.take off ++ List.replicate (off - data.length) 0 ++ buf ++ data.drop (off + buf.length)

def resized (data : List UInt8) (size : Nat) : List UInt8 :=
  data.take size ++ List.replicate (size - data.length) 0

/-- The entry for a name, which is `offset`th in its directory. -/
def dirent (f : Files) (path : List String) (name : String) (offset : Nat) : Option Dirent :=
  (f (path ++ [name])).map fun e =>
    { name
      st_ino := e.ino
      st_mode := match e with | .directory _ => S_IFDIR | .file _ _ => S_IFREG
      off := offset + 1 }

/-- The entries for these names in this order. -/
def dirents (f : Files) (path : List String) : List String → Nat → List Dirent
  | [], _ => []
  | name :: names, offset =>
      (f.dirent path name offset).toList ++ f.dirents path names (offset + 1)

/-- The entries for a directory and its parent. -/
def dots (off : Int) (ino parent : Nat) : List Dirent :=
  (if off = 0 then [{ name := ".", st_ino := ino, st_mode := S_IFDIR ||| 0o755, off := 1 }]
    else []) ++
  if off ≤ 1 then [{ name := "..", st_ino := parent, st_mode := S_IFDIR ||| 0o755, off := 2 }]
    else []

/-- Entries are added until the buffer is full. -/
def fill (fuse : Libfuse) (size : Nat) : List Dirent → DirBuf → DirBuf
  | [], buf => buf
  | entry :: entries, buf =>
      let buf := Server.addDirentry fuse size buf entry
      if size ≤ buf.pos then buf else fill fuse size entries buf

/-- What `readdir` replies for a directory whose names come in this order. -/
def page (f : Files) (fuse : Libfuse) (path : List String) (ino parent size : Nat) (off : Int)
    (names : List String) : DirBuf :=
  fill fuse size ((f.dirents path names 2).filter fun entry => off < entry.off)
    ((dots off ino parent).foldl (Server.addDirentry fuse size) {})

/-- What `statfs` replies for so many inodes and bytes. -/
def usage (inodes used : Nat) : Statvfs where
  f_bsize := BLOCK_SIZE
  f_frsize := BLOCK_SIZE
  f_blocks := TOTAL_SPACE / BLOCK_SIZE
  f_bfree := (TOTAL_SPACE - used % Words.sizeRange) / BLOCK_SIZE
  f_bavail := (TOTAL_SPACE - used % Words.sizeRange) / BLOCK_SIZE
  f_files := inodes
  f_ffree := subSize (TOTAL_SPACE / BLOCK_SIZE) inodes
  f_namemax := NAME_MAX

end Files

namespace Server.Request

/-- The inode that has to be a directory. -/
def directory : Request → Option Nat
  | .lookup parent _ | .create _ parent _ _ | .unlink parent _ | .mkdir _ parent _ _
  | .rmdir parent _ => some parent
  | .readdir ino _ _ => some ino
  | _ => none

/-- The inode that has to be there. -/
def inode : Request → Option Nat
  | .open_ ino | .write ino _ _ | .getattr ino | .read ino _ _ | .setattr ino _ _ => some ino
  | _ => none

/-- The inode that has to be a file. -/
def file : Request → Option Nat
  | .open_ ino | .write ino _ _ | .read ino _ _ => some ino
  | .setattr ino _ to_set => if to_set &&& FUSE_SET_ATTR_SIZE ≠ 0 then some ino else none
  | _ => none

/-- The name that has to be in a directory. -/
def oldName : Request → Option (Nat × String)
  | .lookup parent name | .unlink parent name | .rmdir parent name => some (parent, name)
  | _ => none

/-- The name that must not be in a directory yet. -/
def newName : Request → Option (Nat × String)
  | .create _ parent name _ | .mkdir _ parent name _ => some (parent, name)
  | _ => none

end Server.Request

open Files in
open Server (Request) in
/-- What a file system does with a request, and what it replies: a request changes what stands at
one path, and no other. -/
inductive Serves (fuse : Libfuse) (f : Files) : Request × List Reply → Files → Prop
  | notDirectory (req : Request) (ino : Nat) : req.directory = some ino → f.NotDirectory ino →
      Serves fuse f (req, [.err ENOTDIR]) f
  | noInode (req : Request) (ino : Nat) : req.inode = some ino → f.Unused ino →
      Serves fuse f (req, [.err ENOENT]) f
  | isDirectory (req : Request) (path : List String) (ino : Nat) :
      req.file = some ino → f path = some (.directory ino) → Serves fuse f (req, [.err EISDIR]) f
  | noName (req : Request) (path : List String) (ino : Nat) (name : String) :
      req.oldName = some (ino, name) → f path = some (.directory ino) →
      f (path ++ [name]) = none → Serves fuse f (req, [.err ENOENT]) f
  | taken (req : Request) (path : List String) (ino : Nat) (name : String) :
      req.newName = some (ino, name) → f path = some (.directory ino) →
      f (path ++ [name]) ≠ none → Serves fuse f (req, [.err EEXIST]) f
  | found (path : List String) (parent : Nat) (name : String) (e : Entry) :
      f path = some (.directory parent) → f (path ++ [name]) = some e →
      Serves fuse f (.lookup parent name, [.entry {
        ino := e.ino, attr := { f.attr (path ++ [name]) e with st_ino := 0 } }]) f
  | created (placement : Placement) (path : List String) (parent : Nat) (name : String)
      (mode ino : Nat) :
      f path = some (.directory parent) → f (path ++ [name]) = none → f.Unused ino →
      Serves fuse f (.create placement parent name mode, [.create {
          ino, attr := { st_mode := S_IFREG ||| (mode &&& 0o777), st_nlink := 1, st_size := 0 } }])
        (Function.update f (path ++ [name]) (some (.file ino [])))
  | made (placement : Placement) (path : List String) (parent : Nat) (name : String)
      (mode ino : Nat) :
      f path = some (.directory parent) → f (path ++ [name]) = none → f.Unused ino →
      Serves fuse f (.mkdir placement parent name mode, [.entry {
          ino, attr := { st_mode := S_IFDIR ||| (mode &&& 0o777), st_nlink := 2, st_size := 0 } }])
        (Function.update f (path ++ [name]) (some (.directory ino)))
  | unlinked (path : List String) (parent : Nat) (name : String) (ino : Nat) (data : List UInt8) :
      f path = some (.directory parent) → f (path ++ [name]) = some (.file ino data) →
      Serves fuse f (.unlink parent name, [.err 0]) (Function.update f (path ++ [name]) none)
  | notEmpty (path : List String) (parent : Nat) (name : String) (ino : Nat) :
      f path = some (.directory parent) → f (path ++ [name]) = some (.directory ino) →
      f.names (path ++ [name]) ≠ ∅ → Serves fuse f (.rmdir parent name, [.err ENOTEMPTY]) f
  | noDirectory (path : List String) (parent : Nat) (name : String) (ino : Nat)
      (data : List UInt8) :
      f path = some (.directory parent) → f (path ++ [name]) = some (.file ino data) →
      Serves fuse f (.rmdir parent name, [.err ENOTDIR]) f
  | dropped (path : List String) (parent : Nat) (name : String) (ino : Nat) :
      f path = some (.directory parent) → f (path ++ [name]) = some (.directory ino) →
      f.names (path ++ [name]) = ∅ →
      Serves fuse f (.rmdir parent name, [.err 0]) (Function.update f (path ++ [name]) none)
  | opened (path : List String) (ino : Nat) (data : List UInt8) :
      f path = some (.file ino data) → Serves fuse f (.open_ ino, [.open_]) f
  | listed (path : List String) (ino parent size : Nat) (off : Int) (names : List String) :
      f path = some (.directory ino) → f path.dropLast = some (.directory parent) →
      names.Nodup → (∀ name, name ∈ names ↔ name ∈ f.names path) →
      Serves fuse f (.readdir ino size off, [.dirbuf (f.page fuse path ino parent size off names)])
      f
  | written (path : List String) (ino off : Nat) (buf data : List UInt8) :
      f path = some (.file ino data) →
      Serves fuse f (.write ino buf off, [.write buf.length])
        (Function.update f path (some (.file ino (overwritten data off buf))))
  | counted (paths : Finset (List String)) : (∀ path, path ∈ paths ↔ f path ≠ none) →
      Serves fuse f (.statfs, [.statfs (usage paths.card
        (∑ path ∈ paths, ((f path).map Entry.size).getD 0))]) f
  | described (path : List String) (e : Entry) : f path = some e →
      Serves fuse f (.getattr e.ino, [.attr (f.attr path e) 1]) f
  | loaded (path : List String) (ino size off : Nat) (data : List UInt8) :
      f path = some (.file ino data) →
      Serves fuse f (.read ino size off, [.buf ((data.drop off).take size)]) f
  | negative (path : List String) (ino : Nat) (data : List UInt8) (attr : SetAttr) (to_set : Nat) :
      f path = some (.file ino data) → to_set &&& FUSE_SET_ATTR_SIZE ≠ 0 → attr.st_size < 0 →
      Serves fuse f (.setattr ino attr to_set, [.err EINVAL]) f
  | truncated (path : List String) (ino size : Nat) (data : List UInt8) (mode to_set : Nat) :
      f path = some (.file ino data) → to_set &&& FUSE_SET_ATTR_SIZE ≠ 0 →
      Serves fuse f (.setattr ino ⟨size, mode⟩ to_set,
          [.attr (f.attr path (.file ino (resized data size))) 1])
        (Function.update f path (some (.file ino (resized data size))))
  | kept (path : List String) (e : Entry) (attr : SetAttr) (to_set : Nat) :
      f path = some e → to_set &&& FUSE_SET_ATTR_SIZE = 0 →
      Serves fuse f (.setattr e.ino attr to_set, [.attr (f.attr path e) 1]) f
  | unsupported : Serves fuse f (.getxattr, [.err ENOTSUP]) f

end Myfs

end Getrafty
