import Getrafty.Lib.Cursor
import Getrafty.MyfsReaddir

set_option autoImplicit false

namespace Getrafty

namespace Myfs

open Transition (Exec Of Guarded guardedStep)

namespace Server

/-- How far a client has come with a directory. -/
inductive Phase where
  | idle
  | reading (off : Nat)
  | finished
  deriving DecidableEq

/-- A client that lists a directory page by page: the names that have been there since its first
page, and those it was given. -/
structure Enumeration where
  server : Server
  phase : Phase := .idle
  stable : List String := []
  returned : List String := []

/-- Any request of anyone, or a page for the client. -/
inductive Act where
  | request (req : Request) (replies : List Reply)
  | page (size : Nat)

/-- The names of the children, in their order. -/
def childNames (s : Server) (dir : Nat) : List String :=
  match s.findDirectory dir with
  | none => []
  | some node => node.children_.entries.map Sigma.fst

namespace Enumeration

variable {fuse : Libfuse} {dir size : Nat} {e next : Enumeration}

/-- A page from `off` on; the next one starts where its last entry says, and none follows an empty
one. -/
def page (e : Enumeration) (fuse : Libfuse) (dir size off : Nat) : Option Enumeration :=
  match e.server.readdir fuse dir size off with
  | some (server, [.dirbuf buf]) =>
      match buf.entries.getLast? with
      | some last => some { e with
          server
          phase := .reading last.off
          returned := e.returned ++ buf.entries.map Dirent.name }
      | none => if buf.pos = 0 then some { e with server, phase := .finished } else none
  | _ => none

def step (fuse : Libfuse) (dir : Nat) (e : Enumeration) : Act → Option Enumeration
  | .request req replies =>
      (Server.step fuse e.server (req, replies)).map fun server =>
        match e.phase with
        | .finished => { e with server }
        | _ => { e with server, stable := e.stable.filter (· ∈ server.childNames dir) }
  | .page size =>
      match e.phase with
      | .idle => { e with stable := e.server.childNames dir }.page fuse dir size 0
      | .reading off => e.page fuse dir size off
      | .finished => none

def start (files dirs : Nat) : Enumeration where
  server := init files dirs

/-- What the kernel promises: it unlinks no directories, and makes nothing under the names of the
directory itself and its parent. -/
def Promised (e : Enumeration) : Act → Prop
  | .request (.create _ _ name _) _ => name ≠ "." ∧ name ≠ ".."
  | .request (.mkdir _ _ name _) _ => name ≠ "." ∧ name ≠ ".."
  | .request req replies => e.server.KernelVfs (req, replies)
  | .page _ => True

instance (e : Enumeration) : DecidablePred e.Promised :=
  fun act => match act with
    | .request (.create _ _ _ _) _ | .request (.mkdir _ _ _ _) _ =>
        inferInstanceAs (Decidable (_ ∧ _))
    | .request (.unlink parent name) replies =>
        inferInstanceAs (Decidable (e.server.KernelVfs (.unlink parent name, replies)))
    | .request (.lookup _ _) _ | .request (.open_ _) _ | .request (.readdir _ _ _) _
    | .request (.write _ _ _) _ | .request .statfs _ | .request (.getattr _) _
    | .request (.read _ _ _) _ | .request (.rmdir _ _) _ | .request (.setattr _ _ _) _
    | .request .getxattr _ => isTrue trivial
    | .page _ => isTrue trivial

/-- Each entry fits in the buffer. -/
def Fits (fuse : Libfuse) (dir : Nat) (e : Enumeration) : Act → Prop
  | .request _ _ => True
  | .page size => ∀ name ∈ "." :: ".." :: e.server.childNames dir, fuse.direntSize name ≤ size

instance (fuse : Libfuse) (dir : Nat) (e : Enumeration) : DecidablePred (e.Fits fuse dir) :=
  fun act => match act with
    | .request _ _ => isTrue trivial
    | .page size => inferInstanceAs
        (Decidable (∀ name ∈ "." :: ".." :: e.server.childNames dir, fuse.direntSize name ≤ size))

/-- A request leaves what is still to be listed behind the place that the client has come to, and
what it was given in front; a page ends with the directory or exactly with the buffer. -/
def Tame (fuse : Libfuse) (dir : Nat) (e : Enumeration) : Act → Prop
  | .request req replies =>
      match e.phase with
      | .reading off => ∀ server, Server.step fuse e.server (req, replies) = some server →
          Cursor.Steady (e.server.childNames dir) (server.childNames dir) (off - 2) e.stable
            e.returned
      | _ => True
  | .page size =>
      size ≤ max_size ∧ ∀ node, e.server.findDirectory dir = some node →
        match e.phase with
        | .idle => ∃ n, Stops fuse size 0 node.children_.entries n
        | .reading off => ∃ n, Stops fuse size off node.children_.entries n
        | .finished => True

instance decidableStops (fuse : Libfuse) (size : Nat) (off : Int)
    (children : List ((_ : String) × Nat)) (n : Nat) : Decidable (Stops fuse size off children n) :=
  inferInstanceAs (Decidable (_ ∧ _))

instance decidableEnds (fuse : Libfuse) (size : Nat) (off : Int)
    (children : List ((_ : String) × Nat)) : Decidable (∃ n, Stops fuse size off children n) :=
  decidable_of_iff (∃ n, n < children.length + 1 ∧ Stops fuse size off children n) (by
    constructor
    · rintro ⟨n, -, stops⟩
      exact ⟨n, stops⟩
    · rintro ⟨n, stops⟩
      refine ⟨n, ?_, stops⟩
      obtain ⟨-, ⟨all, -⟩ | ⟨-, inside, -⟩⟩ := stops <;> omega)

instance (fuse : Libfuse) (dir : Nat) (e : Enumeration) : DecidablePred (e.Tame fuse dir) :=
  fun act => match act with
    | .request req replies =>
        match phase : e.phase with
        | .reading off => decidable_of_iff
            (∀ server ∈ Server.step fuse e.server (req, replies),
              Cursor.Steady (e.server.childNames dir) (server.childNames dir) (off - 2) e.stable
                e.returned) (by simp only [Tame, phase]; rfl)
        | .idle => isTrue (by simp only [Tame, phase])
        | .finished => isTrue (by simp only [Tame, phase])
    | .page size =>
        match phase : e.phase with
        | .idle => decidable_of_iff (size ≤ max_size ∧ ∀ node ∈ e.server.findDirectory dir,
            ∃ n, Stops fuse size 0 node.children_.entries n) (by simp only [Tame, phase]; rfl)
        | .reading off => decidable_of_iff (size ≤ max_size ∧ ∀ node ∈ e.server.findDirectory dir,
            ∃ n, Stops fuse size off node.children_.entries n) (by simp only [Tame, phase]; rfl)
        | .finished => decidable_of_iff (size ≤ max_size) (by simp [Tame, phase])

section Names

variable {s t : Server} {req : Request} {replies : List Reply} {r : Reply}

/-- No child goes by the names of the directory itself and its parent. -/
def Plain (s : Server) : Prop :=
  ∀ dir name child, s.entry dir name = some child → name ≠ "." ∧ name ≠ ".."

/-- The name that a request enters. -/
def entered : Request → Option String
  | .create _ _ name _ => some name
  | .mkdir _ _ name _ => some name
  | _ => none

theorem Promised.kernel (promised : e.Promised (.request req replies)) :
    e.server.KernelVfs (req, replies) := by
  cases req with
  | unlink parent name => exact promised
  | _ => trivial

theorem Promised.entered (promised : e.Promised (.request req replies)) {name : String}
    (names : entered req = some name) : name ≠ "." ∧ name ≠ ".." := by
  cases req with
  | create placement parent other mode =>
      cases names
      exact promised
  | mkdir placement parent other mode =>
      cases names
      exact promised
  | _ => cases names

theorem entry_added (sound : s.Sound) {placement : Placement} {parent : Nat} {is_directory : Bool}
    {new : String} {pn : FileNode} (directory : s.findDirectory parent = some pn) {dir child : Nat}
    {name : String}
    (held : (s.added placement parent is_directory new).entry dir name = some child) :
    s.entry dir name = some child ∨ some new = some name := by
  have added : (s.added placement parent is_directory new).entry dir name =
      if dir = parent ∧ name = new then some (s.nextInode is_directory) else s.entry dir name :=
    congrArg (fun tree : NameTree Nat String => tree.entry dir name)
      (sound.nameTree_added directory)
  rw [added] at held
  by_cases here : dir = parent ∧ name = new
  · exact Or.inr (congrArg some here.2.symm)
  · rw [if_neg here] at held
    exact Or.inl held

theorem entry_removed {parent child : Nat} {old : String} {pn : FileNode}
    (directory : s.findDirectory parent = some pn) (listed : pn.children_.lookup old = some child)
    (leaf : ∀ name, s.entry child name = none) {dir other : Nat} {name : String}
    (held : (s.removed parent old child).entry dir name = some other) :
    s.entry dir name = some other := by
  have found := (findDirectory_eq_some.mp directory).1
  have named : s.entry parent old = some child := (entry_of_findInode found old).trans listed
  have removed : (s.removed parent old child).entry dir name =
      if dir = parent ∧ name = old then none else s.entry dir name :=
    congrArg (fun tree : NameTree Nat String => tree.entry dir name)
      (nameTree_removed (entry_ne named leaf) found leaf)
  rw [removed] at held
  exact (Option.ite_none_left_eq_some.mp held).2

/-- A name that is there after a request was there before, or the request has entered it. -/
theorem entry_origin (sound : s.Sound) (kernel : s.KernelVfs (req, replies))
    (exit : Case s req t r) {dir child : Nat} {name : String}
    (held : t.entry dir name = some child) :
    s.entry dir name = some child ∨ entered req = some name := by
  cases exit with
  | created placement parent new mode pn directory unused => exact entry_added sound directory held
  | made placement parent new mode pn directory unused => exact entry_added sound directory held
  | unlinked parent old pn gone directory listed =>
      have found := (findDirectory_eq_some.mp directory).1
      have named : s.entry parent old = some gone := (entry_of_findInode found old).trans listed
      exact Or.inl (entry_removed directory listed (sound.leaf_of_kernel kernel named) held)
  | dropped parent old pn cn gone directory listed node empty =>
      have leaf := leaf_of_empty (findDirectory_eq_some.mp node).1 empty
      rw [entry, sound.forgetInode_eq directory listed leaf] at held
      exact Or.inl (entry_removed directory listed leaf held)
  | written ino buf off node resized data found kind grown copied =>
      have same : (s.filled ino data).entry dir name = s.entry dir name :=
        congrArg (fun tree : NameTree Nat String => tree.entry dir name) nameTree_filled
      exact Or.inl (same.symm.trans held)
  | truncated ino attr to_set node data found kind sized positive resized =>
      have same : (s.filled ino data).entry dir name = s.entry dir name :=
        congrArg (fun tree : NameTree Nat String => tree.entry dir name) nameTree_filled
      exact Or.inl (same.symm.trans held)
  | _ => exact Or.inl held

theorem Plain.step (plain : Plain e.server) (sound : e.server.Sound)
    (promised : e.Promised (.request req replies))
    (taken : Server.step fuse e.server (req, replies) = some t) : Plain t := by
  intro dir name child held
  obtain ⟨r, -, exit⟩ := handle_cases (step_eq_some.mp taken)
  rcases entry_origin sound promised.kernel exit held with before | new
  · exact plain dir name child before
  · exact promised.entered new

end Names

section Pages

variable {s : Server} {node : FileNode} {off n m : Nat}

theorem childNames_eq (found : s.findDirectory dir = some node) :
    s.childNames dir = node.children_.entries.map Sigma.fst := by
  simp only [childNames, found]

theorem childNames_nodup (s : Server) (dir : Nat) : (s.childNames dir).Nodup := by
  unfold childNames
  cases s.findDirectory dir with
  | none => exact List.nodup_nil
  | some node => exact node.children_.keys_nodup

theorem Plain.childNames (plain : Plain s) {name : String} (inside : name ∈ s.childNames dir) :
    name ≠ "." ∧ name ≠ ".." := by
  unfold Server.childNames at inside
  cases found : s.findDirectory dir with
  | none =>
      simp only [found] at inside
      exact absurd inside List.not_mem_nil
  | some node =>
      simp only [found] at inside
      obtain ⟨⟨other, child⟩, held, rfl⟩ := List.mem_map.mp inside
      apply plain dir other child
      rw [entry_of_findInode (findDirectory_eq_some.mp found).1]
      exact AList.mem_lookup_iff.mpr held

/-- The names in front of the children. -/
def dotNames (off : Nat) : List String := if off = 0 then [".", ".."] else []

theorem dots_names (starts : Starts off n) :
    (dots off dir node).map Dirent.name = dotNames off := by
  unfold dots dotNames
  rcases starts with ⟨first, -⟩ | later
  · obtain rfl : off = 0 := by omega
    rfl
  · rw [if_neg (by omega), if_neg (by omega), if_neg (by omega)]
    rfl

/-- What a well-formed page shows, and where the next one starts. -/
theorem page_shows (sound : s.Sound) (found : s.findDirectory dir = some node)
    (small : size ≤ max_size) (starts : Starts off n)
    (stops : Stops fuse size off node.children_.entries m) :
    ∃ buf, s.readdir fuse dir size off = some (s, [.dirbuf buf]) ∧
      buf.entries.map Dirent.name = dotNames off ++ ((s.childNames dir).take m).drop n ∧
      (buf.entries = [] → (s.childNames dir).drop n = []) ∧
      ∀ last, buf.entries.getLast? = some last → n ≤ m ∧ last.off = m + 2 := by
  have present := sound.children_present (findDirectory_eq_some.mp found).1
  obtain ⟨buf, listed, good, built⟩ := readdir_stops found present small stops
  have shown := built.entries_eq small good.fits
  rw [starts.skipped_eq] at shown
  have held : s.Present ((node.children_.entries.take m).drop n) :=
    fun child within => present child (List.mem_of_mem_take (List.mem_of_mem_drop within))
  have inside : m ≤ node.children_.entries.length ∧
      (n < m ∨ m = node.children_.entries.length) := by
    obtain ⟨-, ⟨all, -⟩ | ⟨beyond, inside, -⟩⟩ := stops
    · exact ⟨all.le, Or.inr all⟩
    · rw [starts.skipped_eq] at beyond
      exact ⟨inside, Or.inl beyond⟩
  refine ⟨buf, listed, ?_, ?_, ?_⟩
  · rw [shown, List.map_append, dots_names starts, held.names_eq, childNames_eq found,
      List.map_drop, List.map_take]
  · intro empty
    rw [empty] at shown
    have nameless : (s.childDirents ((node.children_.entries.take m).drop n) (2 + n)).map
        Dirent.name = ((node.children_.entries.take m).drop n).map Sigma.fst := held.names_eq
    rw [(List.append_eq_nil_iff.mp shown.symm).2] at nameless
    have short := List.drop_eq_nil_iff.mp (List.map_eq_nil_iff.mp nameless.symm)
    rw [List.length_take] at short
    rw [childNames_eq found, ← List.map_drop, List.map_eq_nil_iff, List.drop_eq_nil_iff]
    omega
  · intro last ends
    have order : n ≤ m := by
      by_contra beyond
      have children : (node.children_.entries.take m).drop n = [] := by
        apply List.drop_eq_nil_of_le
        rw [List.length_take]
        omega
      have later : (off : Int) = (n + 2 : Nat) := by
        rcases starts with ⟨-, first⟩ | later
        · omega
        · exact later
      have nothing : dots off dir node = [] := by
        unfold dots
        rw [if_neg (by omega), if_neg (by omega)]
        rfl
      rw [nothing, children] at shown
      rw [shown] at ends
      cases ends
    obtain ⟨front, whole⟩ := List.getLast?_eq_some_iff.mp ends
    exact ⟨order, page_last_off present starts order inside.1 (shown.symm.trans whole)⟩

end Pages

section Invariant

/-- Where the client is, it has been given everything it should have been, and nothing twice. -/
def Given (dir : Nat) (e : Enumeration) : Prop :=
  match e.phase with
  | .idle => e.returned = []
  | .reading off => ∃ n, off = n + 2 ∧ Cursor.Reads (e.server.childNames dir) n e.stable e.returned
  | .finished => e.returned.Nodup ∧ ∀ x ∈ e.stable, x ∈ e.returned

structure Inv (dir : Nat) (e : Enumeration) : Prop where
  sound : e.server.Sound
  plain : Plain e.server
  given : e.Given dir

theorem page_inv {off n m : Nat} {node : FileNode} (sound : e.server.Sound)
    (plain : Plain e.server) (found : e.server.findDirectory dir = some node)
    (small : size ≤ max_size) (starts : Starts off n)
    (stops : Stops fuse size off node.children_.entries m)
    (reads : Cursor.Reads (e.server.childNames dir) n e.stable (e.returned ++ dotNames off))
    (taken : e.page fuse dir size off = some next) : next.Inv dir := by
  obtain ⟨buf, listed, names, ended, onward⟩ := page_shows sound found small starts stops
  unfold page at taken
  simp only [listed] at taken
  cases ends : buf.entries.getLast? with
  | none =>
      have empty := List.getLast?_eq_none_iff.mp ends
      rw [empty, List.map_nil] at names
      have no_dots := (List.append_eq_nil_iff.mp names.symm).1
      rw [no_dots, List.append_nil] at reads
      simp only [ends] at taken
      obtain ⟨-, same⟩ := Option.ite_none_right_eq_some.mp taken
      obtain rfl := Option.some.inj same
      exact ⟨sound, plain, reads.once, reads.complete (ended empty)⟩
  | some last =>
      obtain ⟨order, off_eq⟩ := onward last ends
      simp only [ends, Option.some.injEq] at taken
      obtain rfl := taken
      refine ⟨sound, plain, m, off_eq, ?_⟩
      have further := reads.advance (childNames_nodup e.server dir) order
      rw [List.append_assoc, ← names] at further
      exact further

theorem Inv.request (inv : e.Inv dir) {req : Request} {replies : List Reply}
    (promised : e.Promised (.request req replies)) (tame : e.Tame fuse dir (.request req replies))
    (taken : e.step fuse dir (.request req replies) = some next) : next.Inv dir := by
  obtain ⟨server, asked, same⟩ := Option.map_eq_some_iff.mp taken
  have sound := inv.sound.step promised.kernel asked
  have plain := inv.plain.step inv.sound promised asked
  have given := inv.given
  unfold Given at given
  cases phase : e.phase with
  | idle =>
      simp only [phase] at same given
      obtain rfl := same
      refine ⟨sound, plain, ?_⟩
      rw [Given]
      exact given
  | reading off =>
      simp only [phase] at same given
      obtain rfl := same
      obtain ⟨n, rfl, reads⟩ := given
      refine ⟨sound, plain, ?_⟩
      rw [Given]
      dsimp only
      refine ⟨n, rfl, (reads.change_iff (childNames_nodup server dir)).mpr ?_⟩
      unfold Tame at tame
      simp only [phase] at tame
      exact tame server asked
  | finished =>
      simp only [phase] at same given
      obtain rfl := same
      refine ⟨sound, plain, ?_⟩
      rw [Given]
      dsimp only
      exact given

/-- A page that was given has a directory to be of. -/
theorem page_directory {off : Nat} (taken : e.page fuse dir size off = some next) :
    ∃ node, e.server.findDirectory dir = some node := by
  cases found : e.server.findDirectory dir with
  | some node => exact ⟨node, rfl⟩
  | none =>
      have refused : e.server.readdir fuse dir size off =
          some (e.server, [.err ENOTDIR]) := by
        unfold readdir
        rw [found]
        rfl
      unfold page at taken
      simp only [refused] at taken
      cases taken

theorem Inv.page (inv : e.Inv dir) (tame : e.Tame fuse dir (.page size))
    (taken : e.step fuse dir (.page size) = some next) : next.Inv dir := by
  obtain ⟨small, stops⟩ := tame
  have given := inv.given
  unfold Given at given
  unfold step at taken
  cases phase : e.phase with
  | idle =>
      simp only [phase] at taken given
      obtain ⟨node, found⟩ := page_directory taken
      have well := stops node found
      simp only [phase] at well
      obtain ⟨m, well⟩ := well
      refine page_inv
        (e := { server := e.server, stable := e.server.childNames dir, returned := e.returned })
        inv.sound inv.plain found small (Or.inl ⟨rfl, rfl⟩) well ?_ taken
      dsimp only
      rw [given, List.nil_append]
      apply Cursor.reads_start (by decide)
      intro name inside dotted
      have plain := inv.plain.childNames inside
      simp only [dotNames, if_true, List.mem_cons, List.not_mem_nil, or_false] at dotted
      rcases dotted with same | same
      · exact plain.1 same
      · exact plain.2 same
  | reading off =>
      simp only [phase] at taken given
      obtain ⟨n, rfl, reads⟩ := given
      obtain ⟨node, found⟩ := page_directory taken
      have well := stops node found
      simp only [phase] at well
      obtain ⟨m, well⟩ := well
      refine page_inv inv.sound inv.plain found small (Or.inr rfl) well ?_ taken
      rw [dotNames, if_neg (by omega), List.append_nil]
      exact reads
  | finished =>
      simp only [phase] at taken
      cases taken

end Invariant

section Runs

variable {files dirs : Nat} {acts : List Act}

theorem inv_start : (start files dirs).Inv dir := by
  refine ⟨sound_init, ?_, rfl⟩
  intro other name child held
  have none_there : (init files dirs).entry other name = none :=
    congrArg (fun tree : NameTree Nat String => tree.entry other name) nameTree_init
  cases none_there.symm.trans held

theorem inv_run
    (run : Exec (Guarded (fun e act => e.Promised act ∧ e.Tame fuse dir act)
      (Of (step fuse dir))) (start files dirs) acts e) : e.Inv dir := by
  refine run.invariant (Inv dir) inv_start ?_
  rintro state act next inv ⟨⟨promised, tame⟩, taken⟩
  cases act with
  | request req replies => exact inv.request promised tame taken
  | page size => exact inv.page tame taken

theorem Given.once (given : e.Given dir) : e.returned.Nodup := by
  unfold Given at given
  cases phase : e.phase with
  | idle =>
      simp only [phase] at given
      rw [given]
      exact List.nodup_nil
  | reading off =>
      simp only [phase] at given
      obtain ⟨n, -, reads⟩ := given
      exact reads.once
  | finished =>
      simp only [phase] at given
      exact given.1

/-- Where no request moves entries across the place that a client has come to and its pages are
well formed, it is given no name twice, and in the end each name that was there all the time. -/
theorem enumeration_complete
    (run : Exec (Guarded (fun e act => e.Promised act ∧ e.Tame fuse dir act)
      (Of (step fuse dir))) (start files dirs) acts e) :
    e.returned.Nodup ∧ (e.phase = .finished → ∀ x ∈ e.stable, e.returned.count x = 1) := by
  have given := (inv_run run).given
  refine ⟨given.once, fun phase x stays => ?_⟩
  have all : ∀ x ∈ e.stable, x ∈ e.returned := by
    unfold Given at given
    simp only [phase] at given
    exact given.2
  exact List.count_eq_one_of_mem given.once (all x stays)

/-- Two files, and one of them is unlinked before the client has come to it. -/
theorem enumeration_complete_example :
    ∃ (acts : List Act) (e : Enumeration),
      Exec (Guarded (fun e act => e.Promised act ∧ e.Tame .aligned 1 act)
        (Of (step .aligned 1))) (start 0 0) acts e ∧
      acts.length = 5 ∧ e.phase = .finished ∧ e.stable = ["b"] ∧ e.returned.count "b" = 1 := by
  let acts : List Act := [
    .request (.create .front 1 "a" 0o644) [.create { ino := 2, attr := {
      st_mode := S_IFREG ||| 0o644, st_nlink := 1, st_size := 0 } }],
    .request (.create .front 1 "b" 0o644) [.create { ino := 4, attr := {
      st_mode := S_IFREG ||| 0o644, st_nlink := 1, st_size := 0 } }],
    .page 96, .request (.unlink 1 "a") [.err 0], .page 96]
  have runs : (Transition.run (guardedStep
      (fun e act => decide (Promised e act ∧ Tame .aligned 1 e act)) (step .aligned 1))
      (start 0 0) acts).isSome = true := by decide +kernel
  have kept := Transition.guarded_of_isSome runs
  have complete := (enumeration_complete kept).2
  have ends : ((Transition.run (guardedStep
      (fun e act => decide (Promised e act ∧ Tame .aligned 1 e act)) (step .aligned 1))
      (start 0 0) acts).get runs).phase = .finished ∧ ((Transition.run (guardedStep
      (fun e act => decide (Promised e act ∧ Tame .aligned 1 e act)) (step .aligned 1))
      (start 0 0) acts).get runs).stable = ["b"] := by
    clear kept complete
    revert runs
    decide +kernel
  refine ⟨acts, _, kept, rfl, ends.1, ends.2, complete ends.1 "b" ?_⟩
  rw [ends.2]
  exact List.mem_singleton.mpr rfl

/-- A file that is unlinked after the client was given its name moves the next one past its
place. -/
theorem enumeration_skips :
    ¬ ∀ (fuse : Libfuse) (dir : Nat) (acts : List Act) (e : Enumeration),
      Exec (Guarded (fun e act => e.Promised act ∧ e.Fits fuse dir act) (Of (step fuse dir)))
        (start 0 0) acts e →
      e.returned.Nodup ∧ (e.phase = .finished → ∀ x ∈ e.stable, e.returned.count x = 1) := by
  intro always
  let acts : List Act := [
    .request (.create .front 1 "a" 0o644) [.create { ino := 2, attr := {
      st_mode := S_IFREG ||| 0o644, st_nlink := 1, st_size := 0 } }],
    .request (.create .front 1 "b" 0o644) [.create { ino := 4, attr := {
      st_mode := S_IFREG ||| 0o644, st_nlink := 1, st_size := 0 } }],
    .request (.create .front 1 "c" 0o644) [.create { ino := 6, attr := {
      st_mode := S_IFREG ||| 0o644, st_nlink := 1, st_size := 0 } }],
    .page 96, .request (.unlink 1 "c") [.err 0], .page 96, .page 96]
  have runs : (Transition.run (guardedStep
      (fun e act => decide (Promised e act ∧ Fits .aligned 1 e act)) (step .aligned 1))
      (start 0 0) acts).isSome = true := by decide +kernel
  have complete := (always .aligned 1 acts _ (Transition.guarded_of_isSome runs)).2
  revert complete runs
  decide +kernel

end Runs

end Enumeration

end Server

end Myfs

end Getrafty
