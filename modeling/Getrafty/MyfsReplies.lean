import Getrafty.MyfsReaddir
import Getrafty.MyfsContents
import Getrafty.MyfsStatfs

set_option autoImplicit false

namespace Getrafty

namespace Myfs

open Transition (Exec Of Guarded guardedStep)
open Words (addSize subSize)

namespace Server

variable {s next : Server} {fuse : Libfuse} {size : Nat} {off : Int}

section Endings

variable {children : List ((_ : String) × Nat)} {current_offset : Nat}

/-- Where `readdir` comes to the end of its loop before its `int` does. -/
def Ends (fuse : Libfuse) (size : Nat) (off : Int) (children : List ((_ : String) × Nat)) : Prop :=
  2 + children.length ≤ INT_MAX ∨
    (children.take (INT_MAX - 2)).drop (skipped off) ≠ [] ∧
      size ≤ dotsWidth fuse off + width fuse ((children.take (INT_MAX - 2)).drop (skipped off))

end Endings

section Lengths

/-- No file is longer than a vector can be. -/
def Small (s : Server) : Prop :=
  ∀ ino node, s.findInode ino = some node → node.data_.length ≤ max_size

variable {ino : Nat} {data resized buf : List UInt8}

theorem resize_length (result : resize data size = some resized) :
    resized.length = size ∧ size ≤ max_size := by
  obtain ⟨small, rfl⟩ := resize_some result
  refine ⟨?_, small⟩
  rw [List.length_append, List.length_take, List.length_replicate]
  omega

theorem memcpy_length (result : memcpy resized off buf = some data) :
    data.length = resized.length := by
  unfold memcpy at result
  by_cases empty : buf = []
  · rw [if_pos empty, Option.some.injEq] at result
    rw [result]
  · rw [if_neg empty] at result
    obtain ⟨⟨positive, inside⟩, same⟩ := Option.ite_none_right_eq_some.mp result
    rw [Option.some.injEq] at same
    rw [← same, List.length_append, List.length_append, List.length_take, List.length_drop]
    omega

theorem Small.inherits (small : s.Small) (inherits : s.Inherits next) : next.Small := by
  intro ino node found
  obtain ⟨old, before, -, same⟩ := inherits ino node found
  rw [← same]
  exact small ino old before

theorem Small.filled (small : s.Small) (fits : data.length ≤ max_size) :
    (s.filled ino data).Small := by
  intro x node found
  rw [findInode_filled] at found
  by_cases here : x = ino
  · rw [if_pos here] at found
    obtain ⟨old, -, rfl⟩ := Option.map_eq_some_iff.mp found
    exact fits
  · rw [if_neg here] at found
    exact small x node found

theorem Small.added (small : s.Small) (numbered : s.Numbered) {placement : Placement} {parent : Nat}
    {is_directory : Bool} {name : String} {pn : FileNode}
    (directory : s.findDirectory parent = some pn) :
    (s.added placement parent is_directory name).Small := by
  intro x node found
  rcases numbered.added_origin directory x node found with ⟨-, -, empty⟩ | ⟨old, before, -, same⟩
  · rw [empty]
    exact Nat.zero_le _
  · rw [← same]
    exact small x old before

theorem Small.case (small : s.Small) (numbered : s.Numbered) {req : Request} {r : Reply}
    (exit : Case s req next r) : next.Small := by
  cases exit with
  | created placement parent name mode pn directory unused => exact small.added numbered directory
  | made placement parent name mode pn directory unused => exact small.added numbered directory
  | unlinked parent name pn child directory listed => exact small.inherits inherits_removed
  | dropped parent name pn cn child directory listed node empty =>
      exact small.inherits inherits_forgetInode
  | written ino buf off node resized data found kind grown copied =>
      apply small.filled
      rw [memcpy_length copied]
      split at grown
      · obtain ⟨length, fits⟩ := resize_length grown
        rw [length]
        exact fits
      · obtain rfl := Option.some.inj grown
        exact small ino node found
  | truncated ino attr to_set node data found kind sized positive resized =>
      apply small.filled
      obtain ⟨length, fits⟩ := resize_length resized
      rw [length]
      exact fits
  | _ => exact small

end Lengths

section Served

variable {ino : Nat} {node : FileNode}

/-- What the handlers rely on: offsets in files are not negative and leave room for what is written,
and a directory is not too long to be listed. -/
def Request.Served (s : Server) (fuse : Libfuse) : Request → Prop
  | .readdir ino size off => ∀ node, s.findDirectory ino = some node →
      size ≤ max_size ∧ Ends fuse size off node.children_.entries
  | .write ino buf off => ∀ node, s.findInode ino = some node → node.is_directory_ = false →
      0 ≤ off ∧ off + buf.length < 2 ^ 63
  | .read ino size off => ∀ node, s.findInode ino = some node → node.is_directory_ = false →
      0 ≤ off ∨ size = 0
  | _ => True

end Served

section Frames

/-- A reply that tells of an error. -/
def failed : Reply → Bool
  | .err err => err ≠ 0
  | _ => false

/-- The inode that a request makes, removes or fills. -/
def Request.target (s next : Server) : Request → Option Nat
  | .create _ parent name _ => next.entry parent name
  | .mkdir _ parent name _ => next.entry parent name
  | .unlink parent name => s.entry parent name
  | .rmdir parent name => s.entry parent name
  | .write ino _ _ => some ino
  | .setattr ino _ _ => some ino
  | _ => none

/-- The directory and the name in it that a request enters or erases. -/
def Request.place : Request → Option (Nat × String)
  | .create _ parent name _ => some (parent, name)
  | .mkdir _ parent name _ => some (parent, name)
  | .unlink parent name => some (parent, name)
  | .rmdir parent name => some (parent, name)
  | _ => none

/-- Nothing differs but the target and one name in one directory. -/
structure Framed (s next : Server) (target : Option Nat) (place : Option (Nat × String)) :
    Prop where
  others : ∀ ino, target ≠ some ino → place.map Prod.fst ≠ some ino →
    next.findInode ino = s.findInode ino
  parent : ∀ dir name, place = some (dir, name) →
    ∃ node children, s.findInode dir = some node ∧
      next.findInode dir = some { node with children_ := children } ∧
      ∀ other, other ≠ name → children.lookup other = node.children_.lookup other

variable {parent child : Nat} {name : String} {pn : FileNode}

end Frames

section Runs

variable {files dirs : Nat} {labels : List (Request × List Reply)}

/-- The handler of a request sends one reply; it changes nothing if that is an error, and else only
what the request names. -/
def Answers (s : Server) (fuse : Libfuse) (req : Request) : Prop :=
  ∃ next r, s.handle fuse req = some (next, [r]) ∧ (failed r = true → next = s) ∧
    (failed r = false → s.Framed next (req.target s next) req.place)

end Runs

end Server

end Myfs

end Getrafty
