import Getrafty.Lib.FileHistory
import Getrafty.MyfsNumbers

set_option autoImplicit false

namespace Getrafty

namespace Myfs

open FileHistory (FileEvent byteAt contents slice)
open Transition (Exec Of Guarded guardedStep)
open Words (addSize addSize_eq subSize subSize_eq)

namespace Server

variable {s : Server} {fuse : Libfuse}

/-- What a request and its reply say about the contents of files: a file begins with its creation,
and refused requests leave no trace. -/
def record (histories : Nat → List FileEvent) : Request × List Reply → Nat → List FileEvent
  | (.create _ _ _ _, [.create e]) => Function.update histories e.ino []
  | (.write ino buf off, [.write _]) =>
      Function.update histories ino (.write off.toNat buf :: histories ino)
  | (.setattr ino attr to_set, [.attr _ _]) =>
      if to_set &&& FUSE_SET_ATTR_SIZE ≠ 0 then
        Function.update histories ino (.resize attr.st_size.toNat :: histories ino)
      else
        histories
  | _ => histories

/-- What has been done to each file, the latest first. -/
def histories (labels : List (Request × List Reply)) : Nat → List FileEvent :=
  labels.foldl record fun _ => []

/-- The kernel writes at least one byte, at positions that `off_t` can tell. -/
def FileArgs (_ : Server) : Request × List Reply → Prop
  | (.write _ buf off, _) => buf ≠ [] ∧ 0 ≤ off ∧ off + buf.length < 2 ^ 63
  | _ => True

instance (s : Server) : DecidablePred s.FileArgs :=
  fun label => match label with
    | (.write _ _ _, _) => inferInstanceAs (Decidable (_ ∧ _ ∧ _))
    | (.lookup _ _, _) | (.create _ _ _ _, _) | (.unlink _ _, _) | (.open_ _, _)
    | (.readdir _ _ _, _) | (.statfs, _) | (.getattr _, _) | (.read _ _ _, _) | (.mkdir _ _ _ _, _)
    | (.rmdir _ _, _) | (.setattr _ _ _, _) | (.getxattr, _) => isTrue trivial

section Bytes

variable {data : List UInt8} {history : List FileEvent}

theorem toSize_eq {off : Int} (positive : 0 ≤ off) (small : off < 2 ^ 64) :
    toSize off = off.toNat := by
  unfold toSize
  rw [Int.emod_eq_of_lt positive (by exact_mod_cast small)]

theorem resize_eq {size : Nat} (small : size ≤ max_size) :
    resize (contents history) size = some (contents (.resize size :: history)) := by
  rw [resize, if_pos small, FileHistory.contents_resize]

theorem resize_some {size : Nat} {resized : List UInt8}
    (result : resize data size = some resized) :
    size ≤ max_size ∧ resized = data.take size ++ List.replicate (size - data.length) 0 := by
  unfold resize at result
  by_cases small : size ≤ max_size
  · rw [if_pos small, Option.some.injEq] at result
    exact ⟨small, result.symm⟩
  · rw [if_neg small] at result
    cases result

/-- The vector after the `resize` that a write may need. -/
theorem write_grown {buf : List UInt8} {off : Int} (positive : 0 ≤ off)
    (small : off + buf.length < 2 ^ 63) :
    (if data.length < addSize (toSize off) buf.length then
      resize data (addSize (toSize off) buf.length) else some data) =
    some (if data.length < off.toNat + buf.length then
      data.take (off.toNat + buf.length) ++
        List.replicate (off.toNat + buf.length - data.length) 0
      else data) := by
  have fits : off.toNat + buf.length < 2 ^ 63 := by omega
  have place : addSize (toSize off) buf.length = off.toNat + buf.length := by
    rw [toSize_eq positive (by omega)]
    exact addSize_eq (fits.trans (by decide))
  rw [place]
  by_cases longer : data.length < off.toNat + buf.length
  · have room : off.toNat + buf.length ≤ max_size := Nat.le_sub_one_of_lt fits
    rw [if_pos longer, if_pos longer, resize, if_pos room]
  · rw [if_neg longer, if_neg longer]

theorem memcpy_eq {buf resized : List UInt8} {off : Int} (nonempty : buf ≠ []) (positive : 0 ≤ off)
    (room : off.toNat + buf.length ≤ resized.length) :
    memcpy resized off buf =
      some (resized.take off.toNat ++ buf ++ resized.drop (off.toNat + buf.length)) := by
  rw [memcpy, if_neg nonempty, if_pos ⟨positive, by omega⟩]

/-- A write of the kernel goes through, and writes what it should. -/
theorem write_bytes {buf : List UInt8} {off : Int} (nonempty : buf ≠ []) (positive : 0 ≤ off)
    (small : off + buf.length < 2 ^ 63) :
    ∃ resized,
      (if (contents history).length < addSize (toSize off) buf.length then
        resize (contents history) (addSize (toSize off) buf.length)
        else some (contents history)) = some resized ∧
      memcpy resized off buf = some (contents (.write off.toNat buf :: history)) := by
  refine ⟨_, write_grown positive small, ?_⟩
  rw [FileHistory.contents_write off.toNat buf _ rfl]
  apply memcpy_eq nonempty positive
  split
  · rw [List.length_append, List.length_take, List.length_replicate]
    omega
  · omega

end Bytes

section Invariant

variable {files dirs : Nat} {labels : List (Request × List Reply)}

/-- Every file holds what its history says. -/
structure Refines (labels : List (Request × List Reply)) (s : Server) : Prop where
  numbered : s.Numbered
  data : ∀ ino node, s.findInode ino = some node → node.is_directory_ = false →
    node.data_ = contents (histories labels ino) ∧ node.data_.length ≤ max_size

theorem histories_snoc (label : Request × List Reply) :
    histories (labels ++ [label]) = record (histories labels) label := by
  rw [histories, List.foldl_append]
  rfl

theorem refines_init : (init files dirs).Refines [] := by
  refine ⟨numbered_init, fun ino node found file => ?_⟩
  obtain ⟨-, rfl⟩ := init_only found
  cases file

/-- Nothing is recorded, and files are inherited. -/
theorem Refines.inherit {t : Server} (refines : s.Refines labels) (numbered : t.Numbered)
    {label : Request × List Reply} (silent : record (histories labels) label = histories labels)
    (origin : ∀ ino node, t.findInode ino = some node → node.is_directory_ = false →
      ∃ old, s.findInode ino = some old ∧ old.is_directory_ = node.is_directory_ ∧
        old.data_ = node.data_) : t.Refines (labels ++ [label]) := by
  refine ⟨numbered, fun ino node found file => ?_⟩
  obtain ⟨old, before, kind, same⟩ := origin ino node found file
  rw [histories_snoc, silent, ← same]
  exact refines.data ino old before (kind.trans file)

/-- One file gets other contents, and its history says so. -/
theorem Refines.fill (refines : s.Refines labels) {ino : Nat} {label : Request × List Reply}
    {event : FileEvent} (noted : record (histories labels) label =
      Function.update (histories labels) ino (event :: histories labels ino))
    (small : FileHistory.length (event :: histories labels ino) ≤ max_size) :
    (s.filled ino (contents (event :: histories labels ino))).Refines (labels ++ [label]) := by
  refine ⟨refines.numbered.filled, fun x node found file => ?_⟩
  rw [histories_snoc, noted]
  rw [findInode_filled] at found
  by_cases here : x = ino
  · rw [if_pos here] at found
    obtain ⟨old, -, rfl⟩ := Option.map_eq_some_iff.mp found
    rw [here, Function.update_self]
    exact ⟨rfl, FileHistory.contents_length.trans_le small⟩
  · rw [if_neg here] at found
    rw [Function.update_of_ne here]
    exact refines.data x node found file

theorem Refines.step (refines : s.Refines labels) {label : Request × List Reply} {next : Server}
    (kernel : s.FileArgs label) (taken : step fuse s label = some next) :
    next.Refines (labels ++ [label]) := by
  obtain ⟨req, replies⟩ := label
  obtain ⟨r, rfl, exit⟩ := handle_cases (step_eq_some.mp taken)
  have numbered := refines.numbered.case exit
  have same : ∀ ino node, s.findInode ino = some node → node.is_directory_ = false →
      ∃ old, s.findInode ino = some old ∧ old.is_directory_ = node.is_directory_ ∧
        old.data_ = node.data_ := fun ino node found _ => ⟨node, found, rfl, rfl⟩
  cases exit with
  | refused req err nonzero =>
      apply refines.inherit numbered _ same
      cases req <;> rfl
  | created placement parent name mode pn directory unused =>
      refine ⟨numbered, fun ino node found file => ?_⟩
      have begun : record (histories labels) (.create placement parent name mode, [.create {
          ino := s.nextInode false
          attr := { st_mode := S_IFREG ||| (mode &&& 0o777), st_nlink := 1, st_size := 0 } }]) =
          Function.update (histories labels) (s.nextInode false) [] := rfl
      rw [histories_snoc, begun]
      rcases refines.numbered.added_origin directory ino node found with
        ⟨new, -, empty⟩ | ⟨old, before, kind, alike⟩
      · rw [new, Function.update_self, empty]
        exact ⟨rfl, Nat.zero_le _⟩
      · have other : ino ≠ s.nextInode false := by
          rintro rfl
          rw [refines.numbered.nextInode_free] at before
          cases before
        rw [Function.update_of_ne other, ← alike]
        exact refines.data ino old before (kind.trans file)
  | made placement parent name mode pn directory unused =>
      apply refines.inherit numbered rfl
      intro ino node found file
      rcases refines.numbered.added_origin directory ino node found with
        ⟨-, dir, -⟩ | inherited
      · rw [file] at dir
        cases dir
      · exact inherited
  | unlinked parent name pn child directory listed =>
      exact refines.inherit numbered rfl fun ino node found _ => inherits_removed ino node found
  | dropped parent name pn cn child directory listed node empty =>
      exact refines.inherit numbered rfl fun ino node found _ => inherits_forgetInode ino node found
  | written ino buf off node resized data found kind grown copied =>
      obtain ⟨nonempty, positive, small⟩ : buf ≠ [] ∧ 0 ≤ off ∧ off + buf.length < 2 ^ 63 := kernel
      obtain ⟨held, bounded⟩ := refines.data ino node found kind
      obtain ⟨expected, grows, copies⟩ :=
        @write_bytes (histories labels ino) buf off nonempty positive small
      rw [held] at grown
      obtain rfl : expected = resized := Option.some.inj (grows.symm.trans grown)
      obtain rfl := Option.some.inj (copies.symm.trans copied)
      apply refines.fill rfl
      rw [held, FileHistory.contents_length] at bounded
      have ends : off.toNat + buf.length ≤ max_size := Nat.le_sub_one_of_lt (by omega)
      exact max_le bounded ends
  | truncated ino attr to_set node data found kind sized positive resized =>
      obtain ⟨held, -⟩ := refines.data ino node found kind
      obtain ⟨small, rfl⟩ := resize_some resized
      rw [held, ← FileHistory.contents_resize]
      exact refines.fill (if_pos sized) small
  | kept ino attr to_set node found unsized =>
      exact refines.inherit numbered (if_neg (not_not_intro unsized)) same
  | _ => exact refines.inherit numbered rfl same

theorem refines_of_run
    (run : Exec (Guarded FileArgs (Of (Server.step fuse))) (init files dirs) labels s) :
    s.Refines labels :=
  run.history Refines refines_init fun _ _ _ _ refines taken => refines.step taken.1 taken.2

theorem read_bytes {ino size : Nat} {off : Int} {node : FileNode}
    (found : s.findInode ino = some node) (file : node.is_directory_ = false)
    (bounded : node.data_.length ≤ max_size) (positive : 0 ≤ off) (small : off + size < 2 ^ 63) :
    s.read ino size off = some (s, [.buf ((node.data_.drop off.toNat).take size)]) := by
  have other_kind : ¬ node.is_directory_ = true := by rw [file]; decide
  simp only [read, found, if_neg other_kind]
  by_cases past : (node.data_.length : Int) ≤ off
  · rw [if_pos past, List.drop_eq_nil_of_le (by omega), List.take_nil]
    rfl
  · have fits : node.data_.length < Words.sizeRange := lt_of_le_of_lt bounded (by decide)
    have left : subSize node.data_.length (toSize off) = node.data_.length - off.toNat := by
      rw [toSize_eq positive (by omega)]
      exact subSize_eq (by omega) fits
    rw [if_neg past, left]
    by_cases nothing : min size (node.data_.length - off.toNat) = 0
    · have asked : size = 0 := by omega
      rw [if_pos nothing, asked, List.take_zero]
      rfl
    · rw [if_neg nothing, if_pos positive, ← List.length_drop, ← List.take_eq_take_min]
      rfl

/-- Reads and attributes of a file tell what its history says, and writes and truncations go
through and leave other files alone. -/
theorem contents_refine
    (run : Exec (Guarded FileArgs (Of (Server.step fuse))) (init files dirs) labels s)
    {ino : Nat} {node : FileNode} (found : s.findInode ino = some node)
    (file : node.is_directory_ = false) :
    (∀ (size : Nat) (off : Int), 0 ≤ off → off + size < 2 ^ 63 →
      s.read ino size off = some (s, [.buf (slice (histories labels ino) off.toNat
        (min (off.toNat + size) (FileHistory.length (histories labels ino))))])) ∧
    (∃ attr, s.getattr ino = some (s, [.attr attr 1]) ∧
      attr.st_size = FileHistory.length (histories labels ino)) ∧
    (∀ (buf : List UInt8) (off : Int), buf ≠ [] → 0 ≤ off → off + buf.length < 2 ^ 63 →
      ∃ next, s.write ino buf off = some (next, [.write buf.length]) ∧
        ∀ other, other ≠ ino → next.findInode other = s.findInode other) ∧
    ∀ (attr : SetAttr) (to_set : Nat), to_set &&& FUSE_SET_ATTR_SIZE ≠ 0 →
      0 ≤ attr.st_size → attr.st_size < 2 ^ 63 →
      ∃ next after, s.setattr ino attr to_set = some (next, [.attr after 1]) ∧
        after.st_size = attr.st_size.toNat ∧
          ∀ other, other ≠ ino → next.findInode other = s.findInode other := by
  obtain ⟨held, bounded⟩ := (refines_of_run run).data ino node found file
  have other_kind : ¬ node.is_directory_ = true := by rw [file]; decide
  have frame : ∀ data other, other ≠ ino →
      (s.filled ino data).findInode other = s.findInode other := by
    intro data other different
    rw [findInode_filled, if_neg different]
  refine ⟨?_, ?_, ?_, ?_⟩
  · intro size off positive small
    rw [read_bytes found file bounded positive small, held, ← FileHistory.contents_slice _ _
      (min_le_right _ _), List.take_eq_take_min, List.length_drop, FileHistory.contents_length]
    congr 5
    omega
  · refine ⟨stat ino node, ?_, ?_⟩
    · rw [getattr, found]
      rfl
    · show node.data_.length = _
      rw [held, FileHistory.contents_length]
  · intro buf off nonempty positive small
    obtain ⟨resized, grows, copies⟩ :=
      @write_bytes (histories labels ino) buf off nonempty positive small
    rw [← held] at grows
    refine ⟨s.filled ino (contents (.write off.toNat buf :: histories labels ino)), ?_, frame _⟩
    simp only [write, found, if_neg other_kind, grows, Option.bind_some, copies]
    rfl
  · intro attr to_set sized positive small
    have room : attr.st_size.toNat ≤ max_size := Nat.le_sub_one_of_lt (by omega)
    have resized : resize (contents (histories labels ino)) attr.st_size.toNat = _ :=
      resize_eq room
    rw [← held] at resized
    refine ⟨s.filled ino (contents (.resize attr.st_size.toNat :: histories labels ino)),
      stat ino { node with data_ := contents (.resize attr.st_size.toNat :: histories labels ino) },
      ?_, ?_, frame _⟩
    · simp only [setattr, found, if_pos sized, if_neg other_kind, if_neg (Int.not_lt.mpr positive),
        resized, Option.bind_some]
      rfl
    · exact FileHistory.contents_length

theorem contents_refine_example :
    ∃ labels s, Exec (Guarded FileArgs (Of (Server.step .aligned))) (init 0 0) labels s ∧
      histories labels 2 = [.resize 6, .resize 4, .write 3 [65, 66]] ∧
        s.read 2 10 0 = some (s, [.buf [0, 0, 0, 65, 0, 0]]) := by
  let labels : List (Request × List Reply) := [
    (.create .front 1 "f" 0o644, [.create { ino := 2, attr := {
      st_mode := S_IFREG ||| 0o644, st_nlink := 1, st_size := 0 } }]),
    (.write 2 [65, 66] 3, [.write 2]),
    (.setattr 2 ⟨4, 0⟩ FUSE_SET_ATTR_SIZE, [.attr {
      st_ino := 2, st_mode := S_IFREG ||| 0o644, st_nlink := 1, st_size := 4 } 1]),
    (.setattr 2 ⟨6, 0⟩ FUSE_SET_ATTR_SIZE, [.attr {
      st_ino := 2, st_mode := S_IFREG ||| 0o644, st_nlink := 1, st_size := 6 } 1])]
  have runs : (Transition.run (guardedStep (fun s l => decide (FileArgs s l))
      (Server.step .aligned)) (init 0 0) labels).isSome = true := by decide +kernel
  have kept := Transition.guarded_of_isSome runs
  have kind : (((Transition.run (guardedStep (fun s l => decide (FileArgs s l))
      (Server.step .aligned)) (init 0 0) labels).get runs).findInode 2).map
      FileNode.is_directory_ = some false := by
    clear kept
    revert runs
    decide +kernel
  obtain ⟨node, found, file⟩ := Option.map_eq_some_iff.mp kind
  have answer := (contents_refine kept found file).1 10 0 le_rfl (by decide)
  have history : histories labels 2 = [.resize 6, .resize 4, .write 3 [65, 66]] := by
    decide +kernel
  rw [history] at answer
  exact ⟨labels, _, kept, history, answer⟩

end Invariant

end Server

end Myfs

end Getrafty
