import Getrafty.MyfsTree

set_option autoImplicit false

namespace Getrafty

namespace Myfs

open Transition (Exec Of Guarded guardedStep)

namespace Server

variable {s next : Server} {fuse : Libfuse}

/-- A request that fails and changes nothing. -/
def Refused (s : Server) (next : Server) (replies : List Reply) : Prop :=
  next = s ∧ ∃ err, err ≠ 0 ∧ replies = [.err err]

/-- What `unlink` and `rmdir` together have to do for the tree: the one refuses directories, the
other everything else and what is not empty, and no inode is left without a name. -/
structure Protects (s : Server) (label : Request × List Reply) (next : Server) : Prop where
  unlink : ∀ parent name child, label.1 = .unlink parent name → s.entry parent name = some child →
    (s.findDirectory child).isSome → s.Refused next label.2
  rmdir : ∀ parent name child, label.1 = .rmdir parent name → s.entry parent name = some child →
    (∀ node, s.findDirectory child = some node → node.children_.entries ≠ []) →
      s.Refused next label.2
  reached : ∀ ino, (next.findInode ino).isSome → next.nameTree.Reaches 1 ino

section Steps

variable {parent child : Nat} {name : String} {label : Request × List Reply}

theorem Sound.reached (sound : s.Sound) {ino : Nat} (present : (s.findInode ino).isSome) :
    s.nameTree.Reaches 1 ino := by
  obtain ⟨node, found⟩ := Option.isSome_iff_exists.mp present
  apply sound.tree.reaches
  rw [nameTree_node found]
  rfl

/-- Only directories have names in them. -/
theorem Sound.findDirectory_of_entry (sound : s.Sound) (held : s.entry parent name = some child) :
    ∃ node, s.findDirectory parent = some node ∧ node.children_.lookup name = some child := by
  obtain ⟨node, found, listed⟩ := Option.bind_eq_some_iff.mp held
  cases kind : node.is_directory_ with
  | true => exact ⟨node, findDirectory_eq_some.mpr ⟨found, kind⟩, listed⟩
  | false =>
      rw [sound.tree_of.files parent node found kind, AList.lookup_empty] at listed
      cases listed

theorem reaches_root (empty : ∀ name, s.entry 1 name = none) {ino : Nat}
    (reached : s.nameTree.Reaches 1 ino) : ino = 1 := by
  induction reached with
  | root => rfl
  | @down i c k above held ih =>
      subst ih
      have listed : s.entry 1 k = some c := held
      rw [empty k] at listed
      cases listed

/-- `unlink` does not look at what it removes. -/
theorem Sound.unlink_eq (sound : s.Sound) (held : s.entry parent name = some child) :
    s.unlink parent name = some (s.removed parent name child, [.err 0]) := by
  obtain ⟨node, found, listed⟩ := sound.findDirectory_of_entry held
  unfold Server.unlink
  simp only [found, listed]
  rfl

theorem Sound.rmdir_refuses (sound : s.Sound) {replies : List Reply}
    (held : s.entry parent name = some child)
    (full : ∀ node, s.findDirectory child = some node → node.children_.entries ≠ [])
    (result : s.rmdir parent name = some (next, replies)) : s.Refused next replies := by
  obtain ⟨pn, directory, listed⟩ := sound.findDirectory_of_entry held
  unfold Server.rmdir at result
  simp only [directory, listed] at result
  cases node : s.findDirectory child with
  | none =>
      simp only [node] at result
      obtain ⟨rfl, rfl⟩ := reply_eq result
      exact ⟨rfl, ENOTDIR, by decide, rfl⟩
  | some cn =>
      simp only [node] at result
      rw [if_pos (full cn node)] at result
      obtain ⟨rfl, rfl⟩ := reply_eq result
      exact ⟨rfl, ENOTEMPTY, by decide, rfl⟩

theorem Sound.protects_iff (sound : s.Sound) (taken : Server.step fuse s label = some next) :
    s.Protects label next ↔ s.KernelVfs label := by
  obtain ⟨req, replies⟩ := label
  have handled := step_eq_some.mp taken
  constructor
  · intro protects
    cases req with
    | unlink parent name =>
        show (s.entry parent name).bind s.findDirectory = none
        rw [Option.bind_eq_none_iff]
        intro child held
        by_contra directory
        obtain ⟨-, err, nonzero, refused⟩ := protects.unlink parent name child rfl held
          (Option.isSome_iff_ne_none.mpr directory)
        have removed := (sound.unlink_eq held).symm.trans handled
        have sent : [Reply.err 0] = replies := (Prod.mk.inj (Option.some.inj removed)).2
        rw [show replies = _ from refused] at sent
        exact nonzero (Reply.err.inj (List.singleton_inj.mp sent)).symm
    | _ => trivial
  · intro kernel
    constructor
    case unlink =>
      intro parent name child asked held directory
      obtain rfl : req = .unlink parent name := asked
      have allowed : (s.entry parent name).bind s.findDirectory = none := kernel
      rw [held, Option.bind_some] at allowed
      rw [allowed] at directory
      cases directory
    case rmdir =>
      intro parent name child asked held full
      obtain rfl : req = .rmdir parent name := asked
      exact sound.rmdir_refuses held full handled
    case reached => exact fun ino => (sound.step kernel taken).reached

end Steps

section Runs

variable {files dirs : Nat} {labels : List (Request × List Reply)}

/-- Every request of a run protects the tree exactly as long as none unlinks a directory. -/
theorem run_protects_iff (run : Run fuse files dirs labels s) :
    (∀ front label back middle next, labels = front ++ label :: back →
      Run fuse files dirs front middle → step fuse middle label = some next →
        middle.Protects label next) ↔
      Exec (Guarded KernelVfs (Of (step fuse))) (init files dirs) labels s := by
  constructor
  · intro always
    induction run with
    | nil => exact .nil
    | @snoc labels state next label before taken ih =>
        have guarded := ih fun front other back middle last cut =>
          always front other (back ++ [label]) middle last (by rw [cut]; simp)
        have last := always labels label [] state next rfl before taken
        exact guarded.snoc ⟨((sound_of_run guarded).protects_iff taken).mp last, taken⟩
  · intro guarded front label back middle next cut before taken
    subst cut
    obtain ⟨state, after, front_guarded, ⟨kernel, -⟩, -⟩ := guarded.at
    obtain rfl := Exec.unique front_guarded.unguarded before
    exact ((sound_of_run front_guarded).protects_iff taken).mpr kernel

theorem run_protects_iff_example :
    ∃ (labels : List (Request × List Reply)) (s : Server), Run .aligned 0 0 labels s ∧
      labels.length = 3 ∧ ∀ front label back middle next, labels = front ++ label :: back →
        Run .aligned 0 0 front middle → step .aligned middle label = some next →
          middle.Protects label next := by
  let labels : List (Request × List Reply) := [
    (.mkdir .front 1 "a" 0o755, [.entry { ino := 3, attr := {
      st_mode := S_IFDIR ||| 0o755, st_nlink := 2, st_size := 0 } }]),
    (.create .front 3 "f" 0o644, [.create { ino := 2, attr := {
      st_mode := S_IFREG ||| 0o644, st_nlink := 1, st_size := 0 } }]),
    (.rmdir 1 "a", [.err ENOTEMPTY])]
  have runs : (Transition.run (guardedStep (fun s l => decide (KernelVfs s l))
      (step .aligned)) (init 0 0) labels).isSome = true := by decide +kernel
  have kept := Transition.guarded_of_isSome runs
  exact ⟨labels, _, kept.unguarded, rfl, (run_protects_iff kept.unguarded).mpr kept⟩

/-- A directory with a file in it. -/
def filledDirectory : List (Request × List Reply) := [
  (.mkdir .front 1 "a" 0o755, [.entry { ino := 3, attr := {
    st_mode := S_IFDIR ||| 0o755, st_nlink := 2, st_size := 0 } }]),
  (.create .front 3 "f" 0o644, [.create { ino := 2, attr := {
    st_mode := S_IFREG ||| 0o644, st_nlink := 1, st_size := 0 } }])]

def unlinkedDirectory : List (Request × List Reply) :=
  filledDirectory ++ [(.unlink 1 "a", [.err 0])]

/-- The file is still there, but no name leads to it. -/
theorem unlink_orphans :
    ∃ s, Run .aligned 0 0 unlinkedDirectory s ∧ (s.findInode 2).isSome ∧
      ¬ s.nameTree.Reaches 1 2 := by
  have runs : (Transition.run (step .aligned) (init 0 0) unlinkedDirectory).isSome = true := by
    decide +kernel
  have run := Transition.exec_of_isSome runs
  have present : (((Transition.run (step .aligned) (init 0 0) unlinkedDirectory).get runs).findInode
      2).isSome = true := by
    clear run
    revert runs
    decide +kernel
  have empty : ((((Transition.run (step .aligned) (init 0 0) unlinkedDirectory).get runs).findInode
      1).map fun node => node.children_.entries) = some [] := by
    clear run present
    revert runs
    decide +kernel
  refine ⟨_, run, present, ?_⟩
  obtain ⟨root, found, nameless⟩ := Option.map_eq_some_iff.mp empty
  have none_left : root.children_ = ∅ := AList.ext nameless
  intro reached
  have top := reaches_root (fun name => by
    rw [entry_of_findInode found, none_left, AList.lookup_empty]) reached
  exact absurd top (by decide)

theorem unlink_removes_directories :
    ¬ ∀ (fuse : Libfuse) (labels : List (Request × List Reply)) (s : Server),
      Run fuse 0 0 labels s → ∀ front label back middle next, labels = front ++ label :: back →
        Run fuse 0 0 front middle → step fuse middle label = some next →
          middle.Protects label next := by
  intro always
  obtain ⟨s, run, present, lost⟩ := unlink_orphans
  obtain ⟨middle, before, taken⟩ := Exec.before_last run
  exact lost ((always .aligned unlinkedDirectory s run filledDirectory _ [] middle s rfl before
    taken).reached 2 present)

end Runs

end Server

end Myfs

end Getrafty
