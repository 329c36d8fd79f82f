import Getrafty.MyfsTree

set_option autoImplicit false

namespace Getrafty

namespace Myfs

open Transition (Exec Of)

/-- The inode that a reply is about, and its attributes. -/
def Reply.report : Reply → Option (Nat × Attr)
  | .entry e => some (e.ino, e.attr)
  | .create e => some (e.ino, e.attr)
  | .attr stat _ => some (stat.st_ino, stat)
  | _ => none

/-- The same type and permissions, number of links and size. -/
structure Attr.Alike (x y : Attr) : Prop where
  mode : x.st_mode = y.st_mode
  nlink : x.st_nlink = y.st_nlink
  size : x.st_size = y.st_size

namespace Server

variable {s : Server} {fuse : Libfuse}

/-- Requests that are answered with an entry. -/
def Request.isEntry : Request → Bool
  | .lookup _ _ => true
  | .create _ _ _ _ => true
  | .mkdir _ _ _ _ => true
  | _ => false

/-- The permission bits that a request gives to its inode. -/
def Request.given : Request → Option Nat
  | .create _ _ _ mode => some (mode &&& 0o777)
  | .mkdir _ _ _ mode => some (mode &&& 0o777)
  | .setattr _ attr to_set =>
      if to_set &&& FUSE_SET_ATTR_MODE ≠ 0 then some (attr.st_mode &&& 0o777) else none
  | _ => none

/-- Requests for attributes that change none. -/
def Request.Keeps : Request → Prop
  | .lookup _ _ => True
  | .getattr _ => True
  | .setattr _ _ to_set => to_set &&& FUSE_SET_ATTR_MODE = 0 ∧ to_set &&& FUSE_SET_ATTR_SIZE = 0
  | _ => False

/-- The permission bits that every inode of that kind has. -/
def usual (is_directory : Bool) : Nat := if is_directory then 0o755 else 0o644

def typeBits (is_directory : Bool) : Nat := if is_directory then S_IFDIR else S_IFREG

/-- The inode that a request names. -/
def Request.about (s : Server) : Request → Option Nat
  | .lookup parent name => s.entry parent name
  | .create _ parent name _ => s.entry parent name
  | .mkdir _ parent name _ => s.entry parent name
  | .getattr ino => some ino
  | .setattr ino _ _ => some ino
  | _ => none

section Modes

variable {is_directory : Bool} {permissions : Nat}

theorem mode_eq (node : FileNode) :
    mode node = typeBits node.is_directory_ ||| usual node.is_directory_ := by
  unfold mode typeBits usual
  cases node.is_directory_ with
  | true => rfl
  | false => rfl

theorem usual_lt (is_directory : Bool) : usual is_directory < 512 := by
  cases is_directory <;> decide

theorem typeBits_or (small : permissions < 512) :
    typeBits is_directory ||| permissions = typeBits is_directory + permissions := by
  have split : typeBits is_directory = 2 ^ 9 * (typeBits is_directory / 512) := by
    cases is_directory <;> rfl
  rw [split]
  exact (Nat.two_pow_add_eq_or_of_lt small _).symm

theorem typeBits_or_and (small : permissions < 512) :
    (typeBits is_directory ||| permissions) &&& 0o777 = permissions := by
  rw [typeBits_or small, show 0o777 = 2 ^ 9 - 1 from rfl, Nat.and_two_pow_sub_one_eq_mod]
  cases is_directory with
  | true =>
      show (2 ^ 14 + permissions) % 2 ^ 9 = permissions
      omega
  | false =>
      show (2 ^ 15 + permissions) % 2 ^ 9 = permissions
      omega

end Modes

section Reports

/-- The mode in the reply to a request: the one given at the creation, else that of the node. -/
def Request.modeOf (req : Request) (node : FileNode) : Nat :=
  match req with
  | .create _ _ _ mode => typeBits node.is_directory_ ||| (mode &&& 0o777)
  | .mkdir _ _ _ mode => typeBits node.is_directory_ ||| (mode &&& 0o777)
  | _ => mode node

variable {req : Request} {next : Server} {r : Reply} {ino : Nat} {attr : Attr}

/-- The new node, under its number and under its name. -/
theorem Numbered.added_named (numbered : s.Numbered) (is_directory : Bool) (placement : Placement)
    {parent : Nat} (name : String) {pn : FileNode} (directory : s.findDirectory parent = some pn) :
    (s.added placement parent is_directory name).findInode (s.nextInode is_directory) =
        some { is_directory_ := is_directory, parent_ino_ := parent } ∧
      (s.added placement parent is_directory name).entry parent name =
        some (s.nextInode is_directory) := by
  have other : s.nextInode is_directory ≠ parent := by
    intro same
    have held := (findDirectory_eq_some.mp directory).1
    rw [← same, numbered.nextInode_free] at held
    cases held
  constructor
  · rw [numbered.findInode_added directory, if_neg other, if_pos rfl]
  · rw [entry, numbered.findInode_added directory, if_pos rfl, Option.bind_some]
    exact addChild_lookup_self

/-- What each of the five handlers says about an inode, compared with the node it leaves. -/
theorem Numbered.report_eq (numbered : s.Numbered) (exit : Case s req next r)
    (told : r.report = some (ino, attr)) :
    req.about next = some ino ∧ ∃ node, next.findInode ino = some node ∧ attr = {
      st_ino := if req.isEntry then 0 else ino
      st_mode := req.modeOf node
      st_nlink := nlink node
      st_size := node.data_.length } := by
  cases exit with
  | found parent name pn cn child directory listed node =>
      cases told
      have held := (findDirectory_eq_some.mp directory).1
      exact ⟨(entry_of_findInode held name).trans listed, cn, node, rfl⟩
  | created placement parent name mode pn directory unused =>
      cases told
      obtain ⟨new, named⟩ := numbered.added_named false placement name directory
      exact ⟨named, _, new, rfl⟩
  | made placement parent name mode pn directory unused =>
      cases told
      obtain ⟨new, named⟩ := numbered.added_named true placement name directory
      exact ⟨named, _, new, rfl⟩
  | described ino node found =>
      cases told
      exact ⟨rfl, node, found, rfl⟩
  | truncated ino attr to_set node data found kind sized positive resized =>
      cases told
      refine ⟨rfl, { node with data_ := data }, ?_, rfl⟩
      rw [stat, findInode_filled, if_pos rfl, found, Option.map_some]
  | kept ino attr to_set node found unsized =>
      cases told
      exact ⟨rfl, node, found, rfl⟩
  | _ => cases told

theorem Request.Keeps.unchanged (keeps : req.Keeps) (exit : Case s req next r) : next = s := by
  cases exit with
  | created placement parent name mode pn directory unused => exact keeps.elim
  | made placement parent name mode pn directory unused => exact keeps.elim
  | unlinked parent name pn child directory listed => exact keeps.elim
  | dropped parent name pn cn child directory listed node empty => exact keeps.elim
  | written ino buf off node resized data found kind grown copied => exact keeps.elim
  | truncated ino attr to_set node data found kind sized positive resized =>
      exact absurd keeps.2 sized
  | _ => rfl

theorem Request.Keeps.modeOf (keeps : req.Keeps) (node : FileNode) :
    req.modeOf node = mode node := by
  cases req with
  | create placement parent name mode => exact keeps.elim
  | mkdir placement parent name mode => exact keeps.elim
  | _ => rfl

theorem Request.modeOf_cases (req : Request) (node : FileNode) :
    req.modeOf node = mode node ∨ ∃ permissions, req.given = some permissions ∧
      req.modeOf node = typeBits node.is_directory_ ||| permissions := by
  cases req with
  | create placement parent name mode => exact Or.inr ⟨_, rfl, rfl⟩
  | mkdir placement parent name mode => exact Or.inr ⟨_, rfl, rfl⟩
  | _ => exact Or.inl rfl

/-- The node has the mode of the reply and the permissions given exactly if those given are the
usual ones. -/
theorem Request.modeOf_iff (req : Request) (node : FileNode) :
    (mode node = req.modeOf node ∧
      ∀ permissions, req.given = some permissions → mode node &&& 0o777 = permissions) ↔
    ∀ permissions, req.given = some permissions → permissions = usual node.is_directory_ := by
  constructor
  · rintro ⟨-, told⟩ permissions given
    rw [← told permissions given, mode_eq, typeBits_or_and (usual_lt _)]
  · intro same
    constructor
    · rcases req.modeOf_cases node with kept | ⟨permissions, given, put⟩
      · exact kept.symm
      · rw [put, same permissions given, mode_eq]
    · intro permissions given
      rw [same permissions given, mode_eq, typeBits_or_and (usual_lt _)]

end Reports

section Runs

variable {files dirs : Nat} {labels : List (Request × List Reply)}

theorem numbered_of_run (run : Run fuse files dirs labels s) : s.Numbered := by
  refine run.invariant Numbered numbered_init ?_
  intro state label next numbered taken
  obtain ⟨r, -, exit⟩ := handle_cases (step_eq_some.mp taken)
  exact numbered.case exit

/-- Two replies about an inode, where nothing happens in between, tell the same attributes and the
permissions that were given exactly if these are the usual ones; but the number inside of an entry
is always 0. -/
theorem attributes_agree_iff (run : Run fuse files dirs labels s) {first second : Request}
    {after last : Server} {a b : Reply} {ino again : Nat} {x y : Attr}
    (asked : s.handle fuse first = some (after, [a])) (told : a.report = some (ino, x))
    (keeps : second.Keeps) (same : second.about after = some ino)
    (asked_again : after.handle fuse second = some (last, [b]))
    (told_again : b.report = some (again, y)) :
    first.about after = some ino ∧ again = ino ∧
    ((x.Alike y ∧ ∀ permissions, first.given = some permissions →
        y.st_mode &&& 0o777 = permissions) ↔
      ∀ node, after.findInode ino = some node →
        ∀ permissions, first.given = some permissions →
          permissions = usual node.is_directory_) ∧
    (x.st_ino = if first.isEntry then 0 else ino) ∧
    (y.st_ino = if second.isEntry then 0 else ino) := by
  have numbered := numbered_of_run run
  obtain ⟨r, eq, exit⟩ := handle_cases asked
  obtain rfl := List.singleton_inj.mp eq
  obtain ⟨r, eq, exit_again⟩ := handle_cases asked_again
  obtain rfl := List.singleton_inj.mp eq
  obtain ⟨about, node, found, rfl⟩ := numbered.report_eq exit told
  obtain ⟨named, other, found_again, rfl⟩ :=
    (numbered.case exit).report_eq exit_again told_again
  obtain rfl := keeps.unchanged exit_again
  obtain rfl := Option.some.inj (named.symm.trans same)
  obtain rfl := Option.some.inj (found.symm.trans found_again)
  refine ⟨about, rfl, ?_, rfl, rfl⟩
  rw [keeps.modeOf]
  constructor
  · rintro ⟨alike, given⟩ node' held
    obtain rfl := Option.some.inj (found.symm.trans held)
    exact (first.modeOf_iff node).mp ⟨alike.mode.symm, given⟩
  · intro usually
    obtain ⟨mode_same, given⟩ := (first.modeOf_iff node).mpr (usually node found)
    exact ⟨⟨mode_same.symm, rfl, rfl⟩, given⟩

theorem attributes_agree_example :
    ∃ (after last : Server) (x y : Attr),
      (init 0 0).handle .aligned (.create .front 1 "a" 0o644) =
        some (after, [.create { ino := 2, attr := x }]) ∧
      after.handle .aligned (.lookup 1 "a") = some (last, [.entry { ino := 2, attr := y }]) ∧
      x.Alike y ∧ y.st_mode &&& 0o777 = 0o644 := by
  let attr : Attr := { st_mode := S_IFREG ||| 0o644, st_nlink := 1, st_size := 0 }
  let create : Request × List Reply :=
    (.create .front 1 "a" 0o644, [.create { ino := 2, attr := attr }])
  let lookup : Request × List Reply := (.lookup 1 "a", [.entry { ino := 2, attr := attr }])
  have runs : (Transition.run (step .aligned) (init 0 0) [create, lookup]).isSome = true := by
    decide +kernel
  obtain ⟨after, last, created, looked, -⟩ :=
    @Exec.at _ _ _ _ _ [create] [] lookup (Transition.exec_of_isSome runs)
  have asked := step_eq_some.mp (created.single rfl)
  have asked_again := step_eq_some.mp looked
  obtain ⟨r, eq, exit⟩ := handle_cases asked
  obtain rfl := List.singleton_inj.mp eq
  obtain ⟨about, node, found, -⟩ := numbered_init.report_eq exit rfl
  have usually : ∀ node, after.findInode 2 = some node →
      ∀ permissions, Request.given create.1 = some permissions →
        permissions = usual node.is_directory_ := by
    intro other held permissions given
    cases given
    cases kind : other.is_directory_ with
    | true =>
        have odd := ((numbered_init.case exit).dirs 2 other held kind).1
        exact absurd odd (by decide)
    | false => decide
  have keeps : Request.Keeps lookup.1 := trivial
  obtain ⟨-, -, agree, -⟩ := attributes_agree_iff .nil asked rfl keeps about asked_again rfl
  obtain ⟨alike, given⟩ := agree.mpr usually
  exact ⟨after, last, attr, attr, asked, asked_again, alike, given _ rfl⟩

/-- A file that is created for its owner alone is said to be open to everyone. -/
theorem create_mode_lost :
    ¬ ∀ (fuse : Libfuse) (labels : List (Request × List Reply)) (s : Server),
      Run fuse 0 0 labels s →
      ∀ (first second : Request) (after last : Server) (a b : Reply) (ino again : Nat) (x y : Attr),
        s.handle fuse first = some (after, [a]) → a.report = some (ino, x) →
        second.Keeps → second.about after = some ino →
        after.handle fuse second = some (last, [b]) → b.report = some (again, y) →
        again = ino ∧ x.Alike y := by
  intro always
  let create : Request × List Reply := (.create .front 1 "a" 0o600, [.create {
    ino := 2, attr := { st_mode := S_IFREG ||| 0o600, st_nlink := 1, st_size := 0 } }])
  let getattr : Request × List Reply := (.getattr 2, [.attr {
    st_ino := 2, st_mode := S_IFREG ||| 0o644, st_nlink := 1, st_size := 0 } 1])
  have runs : (Transition.run (step .aligned) (init 0 0) [create, getattr]).isSome = true := by
    decide +kernel
  obtain ⟨after, last, created, described, -⟩ :=
    @Exec.at _ _ _ _ _ [create] [] getattr (Transition.exec_of_isSome runs)
  obtain ⟨-, alike⟩ := always .aligned [] _ .nil create.1 getattr.1 after last _ _ 2 2 _ _
    (step_eq_some.mp (created.single rfl)) rfl trivial rfl (step_eq_some.mp described) rfl
  exact absurd alike.mode (by decide)

end Runs

end Server

end Myfs

end Getrafty
