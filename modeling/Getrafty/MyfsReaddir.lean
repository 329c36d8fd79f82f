import Getrafty.MyfsTree

set_option autoImplicit false

namespace Getrafty

namespace Myfs

open Transition (Exec Of Guarded guardedStep)
open Words (subSize subSize_eq)

variable {fuse : Libfuse} {size : Nat}

section Layout

/-- The entries lie end to end from `first` to `last`. -/
def Laid (fuse : Libfuse) : Nat → List AddCall → Nat → Prop
  | first, [], last => first = last
  | first, call :: calls, last =>
      call.pos = first ∧ Laid fuse (first + fuse.direntSize call.entry.name) calls last

/-- A reply of whole entries that is not longer than was asked for, and no `size - pos` below
zero. -/
structure WellFormed (fuse : Libfuse) (size : Nat) (buf : DirBuf) : Prop where
  fits : buf.pos ≤ size
  whole : Laid fuse 0 (buf.calls.filter AddCall.written) buf.pos
  unwrapped : ∀ call ∈ buf.calls, call.pos ≤ size

/-- The entries that are written to the buffer. -/
def DirBuf.entries (buf : DirBuf) : List Dirent :=
  (buf.calls.filter AddCall.written).map AddCall.entry

/-- The room that entries take. -/
def room (fuse : Libfuse) (entries : List Dirent) : Nat :=
  (entries.map fun entry => fuse.direntSize entry.name).sum

/-- The buffer after all of these entries have been added. -/
def filledBuf (fuse : Libfuse) (size : Nat) (buf : DirBuf) (entries : List Dirent) : DirBuf :=
  entries.foldl (Server.addDirentry fuse size) buf

/-- What `addDirentry` makes of an empty buffer. -/
structure Built (fuse : Libfuse) (size : Nat) (buf : DirBuf) (entries : List Dirent) : Prop where
  laid : Laid fuse 0 buf.calls buf.pos
  added : buf.calls.map AddCall.entry = entries
  tested : ∀ call ∈ buf.calls,
    call.written = decide (fuse.direntSize call.entry.name ≤ subSize size call.pos)

theorem Laid.snoc {first last : Nat} {calls : List AddCall} {call : AddCall}
    (laid : Laid fuse first calls last) (next : call.pos = last) :
    Laid fuse first (calls ++ [call]) (last + fuse.direntSize call.entry.name) := by
  induction calls generalizing first with
  | nil =>
      have here : first = last := laid
      exact ⟨next.trans here.symm, congrArg (· + _) here⟩
  | cons front calls ih => exact ⟨laid.1, ih laid.2⟩

theorem Laid.length {first last : Nat} {calls : List AddCall} (laid : Laid fuse first calls last) :
    last = first + room fuse (calls.map AddCall.entry) := by
  induction calls generalizing first with
  | nil => exact laid.symm
  | cons call calls ih =>
      have rest := ih laid.2
      simp only [room, List.map_cons, List.sum_cons] at rest ⊢
      omega

theorem Laid.within {first last : Nat} {calls : List AddCall} (laid : Laid fuse first calls last) :
    ∀ call ∈ calls, call.pos + fuse.direntSize call.entry.name ≤ last := by
  induction calls generalizing first with
  | nil => exact fun call inside => nomatch inside
  | cons front calls ih =>
      intro call inside
      rcases List.mem_cons.mp inside with here | later
      · subst here
        rw [laid.1, laid.2.length]
        exact Nat.le_add_right _ _
      · exact ih laid.2 call later

theorem built_empty : Built fuse size {} [] := ⟨rfl, rfl, nofun⟩

theorem Built.add {buf : DirBuf} {entries : List Dirent} (built : Built fuse size buf entries)
    (entry : Dirent) :
    Built fuse size (Server.addDirentry fuse size buf entry) (entries ++ [entry]) where
  laid := @Laid.snoc fuse 0 buf.pos buf.calls ⟨buf.pos, entry, _⟩ built.laid rfl
  added := by
    rw [Server.addDirentry, List.map_append, built.added]
    rfl
  tested := by
    intro call inside
    rcases List.mem_append.mp inside with before | new
    · exact built.tested call before
    · obtain rfl := List.mem_singleton.mp new
      rfl

theorem Built.fill {buf : DirBuf} {before : List Dirent} (built : Built fuse size buf before)
    (entries : List Dirent) :
    Built fuse size (filledBuf fuse size buf entries) (before ++ entries) := by
  induction entries generalizing buf before with
  | nil =>
      rw [List.append_nil]
      exact built
  | cons entry entries ih =>
      have further := ih (built.add entry)
      rwa [List.append_assoc, List.singleton_append] at further

theorem Built.pos_eq {buf : DirBuf} {entries : List Dirent} (built : Built fuse size buf entries) :
    buf.pos = room fuse entries := by
  rw [built.laid.length, built.added, Nat.zero_add]

/-- A buffer that does not overflow has all its entries. -/
theorem Built.all_written {buf : DirBuf} {entries : List Dirent}
    (built : Built fuse size buf entries) (small : size ≤ max_size) (fits : buf.pos ≤ size) :
    buf.calls.filter AddCall.written = buf.calls := by
  rw [List.filter_eq_self]
  intro call inside
  have ends := built.laid.within call inside
  have left : subSize size call.pos = size - call.pos :=
    subSize_eq (by omega) (lt_of_le_of_lt small (by decide))
  rw [built.tested call inside, left, decide_eq_true_iff]
  omega

theorem Built.entries_eq {buf : DirBuf} {entries : List Dirent}
    (built : Built fuse size buf entries) (small : size ≤ max_size) (fits : buf.pos ≤ size) :
    buf.entries = entries := by
  rw [DirBuf.entries, built.all_written small fits, built.added]

/-- Nothing but the overflow of the buffer makes a reply ill-formed. -/
theorem Built.wellFormed_iff {buf : DirBuf} {entries : List Dirent}
    (built : Built fuse size buf entries) (small : size ≤ max_size) :
    WellFormed fuse size buf ↔ buf.pos ≤ size := by
  constructor
  · exact WellFormed.fits
  · intro fits
    refine ⟨fits, ?_, ?_⟩
    · rw [built.all_written small fits]
      exact built.laid
    · intro call inside
      have ends := built.laid.within call inside
      omega

end Layout

namespace Server

variable {s : Server}

section Loop

/-- The entries for the children, the first one at `current_offset`. -/
def childDirents (s : Server) : List ((_ : String) × Nat) → Nat → List Dirent
  | [], _ => []
  | ⟨name, child_ino⟩ :: rest, current_offset =>
      match s.findInode child_ino with
      | none => []
      | some child_node =>
          childDirent name child_ino child_node current_offset ::
            s.childDirents rest (current_offset + 1)

/-- The room that the entries of children take. -/
def width (fuse : Libfuse) (children : List ((_ : String) × Nat)) : Nat :=
  (children.map fun child => fuse.direntSize child.1).sum

def Present (s : Server) (children : List ((_ : String) × Nat)) : Prop :=
  ∀ child ∈ children, (s.findInode child.2).isSome

variable {children : List ((_ : String) × Nat)} {off : Int} {current_offset : Nat}

theorem childDirents_cons {name : String} {child_ino : Nat} {child_node : FileNode}
    (found : s.findInode child_ino = some child_node) :
    s.childDirents (⟨name, child_ino⟩ :: children) current_offset =
      childDirent name child_ino child_node current_offset ::
        s.childDirents children (current_offset + 1) := by
  simp only [childDirents, found]

theorem Present.tail {child : (_ : String) × Nat} (present : s.Present (child :: children)) :
    s.Present children := fun other inside => present other (List.mem_cons_of_mem _ inside)

theorem Present.room_eq (present : s.Present children) :
    room fuse (s.childDirents children current_offset) = width fuse children := by
  induction children generalizing current_offset with
  | nil => rfl
  | cons child children ih =>
      obtain ⟨name, child_ino⟩ := child
      obtain ⟨child_node, found⟩ := Option.isSome_iff_exists.mp (present _ List.mem_cons_self)
      have rest := @ih (current_offset + 1) present.tail
      rw [childDirents_cons found]
      simp only [room, width, List.map_cons, List.sum_cons] at rest ⊢
      rw [rest]
      rfl

theorem Present.names_eq (present : s.Present children) :
    (s.childDirents children current_offset).map Dirent.name = children.map Sigma.fst := by
  induction children generalizing current_offset with
  | nil => rfl
  | cons child children ih =>
      obtain ⟨name, child_ino⟩ := child
      obtain ⟨child_node, found⟩ := Option.isSome_iff_exists.mp (present _ List.mem_cons_self)
      rw [childDirents_cons found, List.map_cons, List.map_cons, ih present.tail]
      rfl

/-- Children in front of the offset are passed over. -/
theorem readdirLoop_skip (buf : DirBuf) (n : Nat) (before : current_offset + n ≤ off)
    (small : current_offset + n ≤ INT_MAX) (inside : n ≤ children.length) :
    s.readdirLoop fuse size off children current_offset buf =
      s.readdirLoop fuse size off (children.drop n) (current_offset + n) buf := by
  induction n generalizing children current_offset with
  | zero => rfl
  | succ n ih =>
      cases children with
      | nil => cases inside
      | cons child children =>
          obtain ⟨name, child_ino⟩ := child
          rw [List.length_cons] at inside
          rw [readdirLoop, if_neg (by omega), if_neg (by omega), List.drop_succ_cons,
            ih (by omega) (by omega) (by omega), Nat.add_assoc, Nat.add_comm 1]

theorem width_cons (child : (_ : String) × Nat) :
    width fuse (child :: children) = fuse.direntSize child.1 + width fuse children := by
  simp only [width, List.map_cons, List.sum_cons]

theorem width_zero (none : width fuse children = 0) : children = [] := by
  cases children with
  | nil => rfl
  | cons child children =>
      have positive := fuse.positive child.1
      rw [width_cons] at none
      omega

/-- The loop stops well behind `n` children: they are all, or fill the buffer exactly. -/
def LoopStops (fuse : Libfuse) (size pos current_offset : Nat)
    (children : List ((_ : String) × Nat)) (n : Nat) : Prop :=
  n ≤ children.length ∧ current_offset + n ≤ INT_MAX ∧
    (n = children.length ∧ pos + width fuse children ≤ size ∨
      0 < n ∧ pos + width fuse (children.take n) = size)

theorem loopStops_nil {pos : Nat} (small : current_offset ≤ INT_MAX) (fits : pos ≤ size) (n : Nat) :
    LoopStops fuse size pos current_offset [] n ↔ n = 0 := by
  unfold LoopStops
  rw [List.length_nil]
  constructor
  · intro stops
    exact Nat.le_zero.mp stops.1
  · rintro rfl
    exact ⟨le_rfl, small, Or.inl ⟨rfl, fits⟩⟩

theorem loopStops_last {pos : Nat} (child : (_ : String) × Nat) (small : current_offset < INT_MAX)
    (full : size ≤ pos + fuse.direntSize child.1) (n : Nat) :
    LoopStops fuse size pos current_offset (child :: children) n ↔
      pos + fuse.direntSize child.1 = size ∧ (n = 1 ∨ n = 1 + children.length ∧ children = []) := by
  unfold LoopStops
  rw [List.length_cons, width_cons]
  constructor
  · rintro ⟨inside, -, ⟨all, fits⟩ | ⟨some, exact⟩⟩
    · obtain rfl := width_zero (show width fuse children = 0 by omega)
      rw [List.length_nil] at all
      exact ⟨by omega, Or.inl (by omega)⟩
    · obtain ⟨k, rfl⟩ : ∃ k, n = k + 1 := ⟨n - 1, by omega⟩
      rw [List.take_succ_cons, width_cons] at exact
      have rest := width_zero (show width fuse (children.take k) = 0 by omega)
      rcases List.take_eq_nil_iff.mp rest with none | none
      · exact ⟨by omega, Or.inl (by omega)⟩
      · subst none
        rw [List.length_nil] at inside ⊢
        exact ⟨by omega, Or.inl (by omega)⟩
  · rintro ⟨exact, one | ⟨one, rfl⟩⟩
    · subst one
      refine ⟨by omega, by omega, Or.inr ⟨by omega, ?_⟩⟩
      rw [List.take_succ_cons, List.take_zero, width_cons]
      exact exact
    · subst one
      refine ⟨by omega, by simpa using small, Or.inl ⟨by omega, ?_⟩⟩
      have nothing : width fuse [] = 0 := rfl
      omega

theorem loopStops_cons {pos : Nat} (child : (_ : String) × Nat)
    (open_ : pos + fuse.direntSize child.1 < size) (n : Nat) :
    LoopStops fuse size pos current_offset (child :: children) n ↔ ∃ k, n = k + 1 ∧
      LoopStops fuse size (pos + fuse.direntSize child.1) (current_offset + 1) children k := by
  unfold LoopStops
  rw [List.length_cons, width_cons]
  constructor
  · rintro ⟨inside, below, stops⟩
    obtain ⟨k, rfl⟩ : ∃ k, n = k + 1 := by
      refine ⟨n - 1, ?_⟩
      rcases stops with ⟨all, -⟩ | ⟨some, -⟩ <;> omega
    refine ⟨k, rfl, by omega, by omega, ?_⟩
    rcases stops with ⟨all, fits⟩ | ⟨-, exact⟩
    · exact Or.inl ⟨by omega, by omega⟩
    · rw [List.take_succ_cons, width_cons] at exact
      right
      refine ⟨?_, by omega⟩
      by_contra none
      obtain rfl : k = 0 := by omega
      have nothing : width fuse (children.take 0) = 0 := rfl
      omega
  · rintro ⟨k, rfl, inside, below, stops⟩
    refine ⟨by omega, by omega, ?_⟩
    rcases stops with ⟨all, fits⟩ | ⟨-, exact⟩
    · exact Or.inl ⟨by omega, by omega⟩
    · right
      rw [List.take_succ_cons, width_cons]
      exact ⟨by omega, by omega⟩

/-- From the offset on, the loop ends well with the last child or where the buffer is just full. -/
theorem readdirLoop_add (present : s.Present children) (buf after : DirBuf)
    (asked : off ≤ current_offset) (small : current_offset ≤ INT_MAX) (fits : buf.pos ≤ size) :
    (s.readdirLoop fuse size off children current_offset buf = some after ∧ after.pos ≤ size) ↔
      ∃ n, LoopStops fuse size buf.pos current_offset children n ∧
        after = filledBuf fuse size buf (s.childDirents (children.take n) current_offset) := by
  induction children generalizing current_offset buf with
  | nil =>
      simp only [loopStops_nil small fits, exists_eq_left, readdirLoop, Option.some.injEq]
      constructor
      · rintro ⟨rfl, -⟩
        rfl
      · rintro rfl
        exact ⟨rfl, fits⟩
  | cons child children ih =>
      obtain ⟨name, child_ino⟩ := child
      obtain ⟨child_node, found⟩ := Option.isSome_iff_exists.mp (present _ List.mem_cons_self)
      rw [readdirLoop]
      by_cases last : current_offset = INT_MAX
      · rw [if_pos last]
        refine iff_of_false (fun ended => Option.some_ne_none after ended.1.symm) ?_
        rintro ⟨n, ⟨inside, below, stops⟩, -⟩
        rw [List.length_cons] at stops
        rcases stops with ⟨all, -⟩ | ⟨some, -⟩ <;> omega
      · rw [if_neg last, if_pos asked]
        simp only [found]
        have pos_eq : (addDirentry fuse size buf
            (childDirent name child_ino child_node current_offset)).pos =
              buf.pos + fuse.direntSize name := rfl
        have one : ∀ k, s.childDirents ((⟨name, child_ino⟩ :: children).take (k + 1))
            current_offset = childDirent name child_ino child_node current_offset ::
              s.childDirents (children.take k) (current_offset + 1) := by
          intro k
          rw [List.take_succ_cons, childDirents_cons found]
        by_cases full : size ≤ buf.pos + fuse.direntSize name
        · rw [pos_eq, if_pos full, Option.some.injEq]
          simp only [loopStops_last ⟨name, child_ino⟩ (show current_offset < INT_MAX by omega) full]
          constructor
          · rintro ⟨rfl, exact⟩
            refine ⟨1, ⟨le_antisymm exact full, Or.inl rfl⟩, ?_⟩
            rw [one 0]
            rfl
          · rintro ⟨n, ⟨exact, single⟩, rfl⟩
            have same : filledBuf fuse size buf (s.childDirents
                ((⟨name, child_ino⟩ :: children).take n) current_offset) =
                addDirentry fuse size buf
                  (childDirent name child_ino child_node current_offset) := by
              rcases single with rfl | ⟨rfl, rfl⟩
              · rw [one 0]
                rfl
              · rw [List.length_nil, one 0]
                rfl
            rw [same]
            exact ⟨rfl, exact.le⟩
        · rw [pos_eq, if_neg full]
          have behind : off ≤ (current_offset + 1 : Nat) := by omega
          have further := ih present.tail (addDirentry fuse size buf
            (childDirent name child_ino child_node current_offset)) behind (by omega)
            (Nat.le_of_not_le full)
          rw [further, pos_eq]
          simp only [loopStops_cons ⟨name, child_ino⟩ (Nat.lt_of_not_le full)]
          constructor
          · rintro ⟨k, stops, rfl⟩
            refine ⟨k + 1, ⟨k, rfl, stops⟩, ?_⟩
            rw [one k]
            rfl
          · rintro ⟨n, ⟨k, rfl, stops⟩, rfl⟩
            refine ⟨k, stops, ?_⟩
            rw [one k]
            rfl

/-- All children are in front of the offset, and there are too many for an `int`. -/
theorem readdirLoop_overflow (buf : DirBuf) (before : INT_MAX ≤ off)
    (small : current_offset ≤ INT_MAX) (many : INT_MAX < current_offset + children.length) :
    s.readdirLoop fuse size off children current_offset buf = none := by
  induction children generalizing current_offset with
  | nil =>
      rw [List.length_nil] at many
      omega
  | cons child children ih =>
      obtain ⟨name, child_ino⟩ := child
      rw [List.length_cons] at many
      rw [readdirLoop]
      by_cases last : current_offset = INT_MAX
      · rw [if_pos last]
      · rw [if_neg last, if_neg (by omega)]
        exact ih (by omega) (by omega)

/-- The loop only adds entries. -/
theorem readdirLoop_fills {buf after : DirBuf}
    (result : s.readdirLoop fuse size off children current_offset buf = some after) :
    ∃ entries, after = filledBuf fuse size buf entries := by
  induction children generalizing current_offset buf with
  | nil =>
      obtain rfl : buf = after := Option.some.inj result
      exact ⟨[], rfl⟩
  | cons child children ih =>
      obtain ⟨name, child_ino⟩ := child
      rw [readdirLoop] at result
      by_cases last : current_offset = INT_MAX
      · rw [if_pos last] at result
        cases result
      · rw [if_neg last] at result
        by_cases asked : off ≤ current_offset
        · rw [if_pos asked] at result
          cases found : s.findInode child_ino with
          | none =>
              simp only [found] at result
              cases result
          | some child_node =>
              simp only [found] at result
              by_cases full : size ≤ (addDirentry fuse size buf
                  (childDirent name child_ino child_node current_offset)).pos
              · rw [if_pos full, Option.some.injEq] at result
                exact ⟨[childDirent name child_ino child_node current_offset], result.symm⟩
              · rw [if_neg full] at result
                obtain ⟨entries, same⟩ := ih result
                exact ⟨childDirent name child_ino child_node current_offset :: entries, same⟩
        · rw [if_neg asked] at result
          exact ih result

end Loop

section Page

variable {ino : Nat} {node : FileNode} {off : Int} {children : List ((_ : String) × Nat)}

/-- The entries in front of the children. -/
def dots (off : Int) (ino : Nat) (node : FileNode) : List Dirent :=
  (if off = 0 then [{ name := ".", st_ino := ino, st_mode := S_IFDIR ||| 0o755, off := 1 }]
    else []) ++
  if off ≤ 1 then
    [{ name := "..", st_ino := node.parent_ino_, st_mode := S_IFDIR ||| 0o755, off := 2 }]
  else []

/-- The room that they take. -/
def dotsWidth (fuse : Libfuse) (off : Int) : Nat :=
  (if off = 0 then fuse.direntSize "." else 0) + if off ≤ 1 then fuse.direntSize ".." else 0

/-- The children that are passed over. -/
def skipped (off : Int) : Nat := (off - 2).toNat

theorem addDots_eq :
    addDots fuse size off ino node = filledBuf fuse size {} (dots off ino node) := by
  unfold addDots dots
  split <;> split <;> rfl

theorem room_dots : room fuse (dots off ino node) = dotsWidth fuse off := by
  unfold dots dotsWidth
  split <;> split <;> simp [room]

/-- A page that starts at `off` stops well behind `n` children: it ends with the last one, or
where the buffer is just full. -/
def Stops (fuse : Libfuse) (size : Nat) (off : Int) (children : List ((_ : String) × Nat))
    (n : Nat) : Prop :=
  n + 2 ≤ INT_MAX ∧
    (n = children.length ∧
        dotsWidth fuse off + width fuse (children.drop (skipped off)) ≤ size ∨
      skipped off < n ∧ n ≤ children.length ∧
        dotsWidth fuse off + width fuse ((children.take n).drop (skipped off)) = size)

theorem readdirLoop_page (present : s.Present children) (buf after : DirBuf)
    (begun : buf.pos = dotsWidth fuse off) (fits : buf.pos ≤ size) :
    (s.readdirLoop fuse size off children 2 buf = some after ∧ after.pos ≤ size) ↔
      ∃ n, Stops fuse size off children n ∧ after = filledBuf fuse size buf
        (s.childDirents ((children.take n).drop (skipped off)) (2 + skipped off)) := by
  have asked : off ≤ (2 + skipped off : Nat) := by
    unfold skipped
    omega
  by_cases many : INT_MAX < 2 + min (skipped off) children.length
  · have before : (INT_MAX : Int) ≤ off := by
      unfold skipped at many
      have bound : INT_MAX = 2 ^ 31 - 1 := rfl
      omega
    rw [readdirLoop_overflow buf before (by decide) (by omega)]
    refine iff_of_false nofun ?_
    rintro ⟨n, ⟨below, ⟨all, -⟩ | ⟨beyond, inside, -⟩⟩, -⟩ <;> omega
  · by_cases past : children.length < skipped off
    · have passed : s.readdirLoop fuse size off children 2 buf = some buf := by
        have before : (2 + children.length : Nat) ≤ off := by
          unfold skipped at past
          omega
        rw [readdirLoop_skip buf children.length (by exact_mod_cast before) (by omega) le_rfl,
          List.drop_length]
        rfl
      rw [passed, Option.some.injEq]
      have nothing : children.drop (skipped off) = [] := List.drop_eq_nil_of_le (by omega)
      constructor
      · rintro ⟨rfl, -⟩
        refine ⟨children.length, ⟨by omega, Or.inl ⟨rfl, ?_⟩⟩, ?_⟩
        · rw [nothing, ← begun]
          exact fits
        · rw [List.take_length, nothing]
          rfl
      · rintro ⟨n, ⟨-, ⟨rfl, -⟩ | ⟨beyond, inside, -⟩⟩, rfl⟩
        · rw [List.take_length, nothing]
          exact ⟨rfl, fits⟩
        · omega
    · have start : s.readdirLoop fuse size off children 2 buf =
          s.readdirLoop fuse size off (children.drop (skipped off)) (2 + skipped off) buf := by
        by_cases first : skipped off = 0
        · rw [first]
          rfl
        · apply readdirLoop_skip buf (skipped off) _ (by omega) (by omega)
          unfold skipped at first ⊢
          omega
      have rest : s.Present (children.drop (skipped off)) :=
        fun child inside => present child (List.mem_of_mem_drop inside)
      rw [start, readdirLoop_add rest buf after asked (by omega) fits]
      unfold LoopStops Stops
      rw [List.length_drop, begun]
      constructor
      · rintro ⟨k, ⟨inside, below, stops⟩, rfl⟩
        refine ⟨skipped off + k, ⟨by omega, ?_⟩, ?_⟩
        · rcases stops with ⟨all, small⟩ | ⟨some, exact⟩
          · exact Or.inl ⟨by omega, small⟩
          · refine Or.inr ⟨by omega, by omega, ?_⟩
            rw [List.drop_take, Nat.add_sub_cancel_left]
            exact exact
        · rw [List.drop_take, Nat.add_sub_cancel_left]
      · rintro ⟨n, ⟨below, stops⟩, rfl⟩
        refine ⟨n - skipped off, ⟨by omega, by omega, ?_⟩, ?_⟩
        · rcases stops with ⟨all, small⟩ | ⟨beyond, inside, exact⟩
          · exact Or.inl ⟨by omega, small⟩
          · refine Or.inr ⟨by omega, ?_⟩
            rw [List.drop_take] at exact
            exact exact
        · rw [List.drop_take]

theorem readdir_eq_some {buf : DirBuf} (found : s.findDirectory ino = some node) :
    s.readdir fuse ino size off = some (s, [.dirbuf buf]) ↔
      size ≤ max_size ∧ s.readdirLoop fuse size off node.children_.entries 2
        (addDots fuse size off ino node) = some buf := by
  simp only [readdir, found]
  by_cases small : size ≤ max_size
  · rw [if_pos small, Option.bind_eq_some_iff]
    constructor
    · rintro ⟨built, loop, sent⟩
      obtain ⟨-, same⟩ := reply_eq sent
      rw [List.singleton_inj, Reply.dirbuf.injEq] at same
      exact ⟨small, same ▸ loop⟩
    · rintro ⟨-, loop⟩
      exact ⟨buf, loop, rfl⟩
  · rw [if_neg small]
    exact iff_of_false nofun (fun both => small both.1)

/-- The pages that are well formed, and what is on them. -/
theorem readdir_page (found : s.findDirectory ino = some node)
    (present : s.Present node.children_.entries) (buf : DirBuf) :
    (s.readdir fuse ino size off = some (s, [.dirbuf buf]) ∧ WellFormed fuse size buf) ↔
      size ≤ max_size ∧ ∃ n, Stops fuse size off node.children_.entries n ∧
        buf = filledBuf fuse size {} (dots off ino node ++ s.childDirents
          ((node.children_.entries.take n).drop (skipped off)) (2 + skipped off)) := by
  rw [readdir_eq_some found, and_assoc]
  apply and_congr_right
  intro small
  have begun : (addDots fuse size off ino node).pos = dotsWidth fuse off := by
    rw [addDots_eq, (built_empty.fill (dots off ino node)).pos_eq, List.nil_append, room_dots]
  have wide : ∀ entries, filledBuf fuse size (addDots fuse size off ino node) entries =
      filledBuf fuse size {} (dots off ino node ++ entries) := by
    intro entries
    rw [addDots_eq, filledBuf, filledBuf, filledBuf, List.foldl_append]
  have judged : (s.readdirLoop fuse size off node.children_.entries 2
      (addDots fuse size off ino node) = some buf ∧ WellFormed fuse size buf) ↔
      (s.readdirLoop fuse size off node.children_.entries 2
        (addDots fuse size off ino node) = some buf ∧ buf.pos ≤ size) := by
    apply and_congr_right
    intro loop
    obtain ⟨entries, rfl⟩ := readdirLoop_fills loop
    rw [wide]
    exact (built_empty.fill _).wellFormed_iff small
  rw [judged]
  by_cases fits : (addDots fuse size off ino node).pos ≤ size
  · rw [readdirLoop_page present _ buf begun fits]
    simp only [wide]
  · refine iff_of_false ?_ ?_
    · rintro ⟨loop, ends⟩
      obtain ⟨entries, rfl⟩ := readdirLoop_fills loop
      rw [wide, (built_empty.fill _).pos_eq, List.nil_append, room, List.map_append,
        List.sum_append] at ends
      have front : room fuse (dots off ino node) = dotsWidth fuse off := room_dots
      rw [room] at front
      omega
    · rintro ⟨n, ⟨-, ⟨-, room⟩ | ⟨-, -, room⟩⟩, -⟩ <;> omega

end Page

section Paging

/-- Reading on from the offset of the last entry of each page, until an empty one. -/
inductive Paged (s : Server) (fuse : Libfuse) (ino size : Nat) : Int → List Dirent → Prop
  | done {off : Int} {buf : DirBuf} :
      s.readdir fuse ino size off = some (s, [.dirbuf buf]) → WellFormed fuse size buf →
      buf.pos = 0 → Paged s fuse ino size off []
  | page {off : Int} {buf : DirBuf} {front rest : List Dirent} {last : Dirent} :
      s.readdir fuse ino size off = some (s, [.dirbuf buf]) → WellFormed fuse size buf →
      buf.entries = front ++ [last] → Paged s fuse ino size last.off rest →
      Paged s fuse ino size off (front ++ last :: rest)

/-- The children can be cut into pages that fill the buffer exactly, but for the last one; on the
first page there are `p` bytes in front of them. -/
inductive Cuts (fuse : Libfuse) (size : Nat) : Nat → List ((_ : String) × Nat) → Prop
  | last {p : Nat} {children : List ((_ : String) × Nat)} :
      p + width fuse children ≤ size → Cuts fuse size p children
  | page {p : Nat} {front back : List ((_ : String) × Nat)} :
      front ≠ [] → p + width fuse front = size → Cuts fuse size 0 back →
      Cuts fuse size p (front ++ back)

/-- A page starts behind `n` children. -/
def Starts (off : Int) (n : Nat) : Prop := off = 0 ∧ n = 0 ∨ off = (n + 2 : Nat)

variable {ino : Nat} {node : FileNode} {off : Int} {children : List ((_ : String) × Nat)} {n : Nat}

theorem Starts.skipped_eq (starts : Starts off n) : skipped off = n := by
  unfold skipped
  rcases starts with ⟨rfl, rfl⟩ | rfl
  · rfl
  · omega

theorem dotsWidth_later : dotsWidth fuse (n + 2 : Nat) = 0 := by
  unfold dotsWidth
  rw [if_neg (by omega), if_neg (by omega)]

theorem drop_split {m : Nat} (order : n ≤ m) :
    children.drop n = (children.take m).drop n ++ children.drop m := by
  have rest : children.drop m = (children.drop n).drop (m - n) := by
    rw [List.drop_drop]
    congr 1
    omega
  rw [List.drop_take, rest, List.take_append_drop]

theorem childDirents_last (present : s.Present children) (some_child : children ≠ [])
    (current_offset : Nat) :
    (s.childDirents children current_offset).getLast?.map Dirent.off =
      some (current_offset + children.length) := by
  induction children generalizing current_offset with
  | nil => exact absurd rfl some_child
  | cons child children ih =>
      obtain ⟨name, child_ino⟩ := child
      obtain ⟨child_node, found⟩ := Option.isSome_iff_exists.mp (present _ List.mem_cons_self)
      rw [childDirents_cons found]
      cases children with
      | nil => rfl
      | cons second children =>
          have rest := ih present.tail nofun (current_offset + 1)
          obtain ⟨last, ends, off_eq⟩ := Option.map_eq_some_iff.mp rest
          rw [List.getLast?_cons, ends, Option.getD_some, Option.map_some, off_eq]
          simp only [List.length_cons]
          congr 1
          omega

/-- The offset that a page hands to the next one. -/
theorem page_last_off (present : s.Present children) (starts : Starts off n) {m : Nat}
    (order : n ≤ m) (inside : m ≤ children.length) {front : List Dirent} {last : Dirent}
    (ends : dots off ino node ++ s.childDirents ((children.take m).drop n) (2 + n) =
      front ++ [last]) : last.off = m + 2 := by
  have final := congrArg List.getLast? ends
  rw [List.getLast?_concat] at final
  by_cases none : n = m
  · have nothing : (children.take m).drop n = [] := by
      apply List.drop_eq_nil_of_le
      rw [List.length_take]
      omega
    rw [nothing] at final
    rcases starts with ⟨rfl, rfl⟩ | rfl
    · have parent : dots 0 ino node ++ s.childDirents [] (2 + 0) = [
          { name := ".", st_ino := ino, st_mode := S_IFDIR ||| 0o755, off := 1 },
          { name := "..", st_ino := node.parent_ino_, st_mode := S_IFDIR ||| 0o755, off := 2 }] :=
        rfl
      rw [parent] at final
      obtain rfl := Option.some.inj final
      rw [← none]
      rfl
    · have empty : dots (n + 2 : Nat) ino node ++ s.childDirents [] (2 + n) = [] := by
        unfold dots
        rw [if_neg (by omega), if_neg (by omega)]
        rfl
      rw [empty] at final
      cases final
  · have some_child : (children.take m).drop n ≠ [] := by
      intro nothing
      have short := List.drop_eq_nil_iff.mp nothing
      rw [List.length_take] at short
      omega
    have held : s.Present ((children.take m).drop n) :=
      fun child within => present child (List.mem_of_mem_take (List.mem_of_mem_drop within))
    obtain ⟨other, found, off_eq⟩ :=
      Option.map_eq_some_iff.mp (childDirents_last held some_child (2 + n))
    rw [List.getLast?_append, found, Option.some_or, Option.some.injEq] at final
    rw [← final, off_eq, List.length_drop, List.length_take]
    omega

theorem paged_cuts (found : s.findDirectory ino = some node)
    (present : s.Present node.children_.entries) {entries : List Dirent}
    (paged : Paged s fuse ino size off entries) :
    ∀ n ≤ node.children_.entries.length, Starts off n →
      size ≤ max_size ∧ node.children_.entries.length + 2 ≤ INT_MAX ∧
        Cuts fuse size (dotsWidth fuse off) (node.children_.entries.drop n) := by
  induction paged with
  | @done off buf listed good empty =>
      intro n inside starts
      obtain ⟨small, m, ⟨below, stops⟩, same⟩ := (readdir_page found present buf).mp ⟨listed, good⟩
      rw [starts.skipped_eq] at stops same
      rcases stops with ⟨rfl, fits⟩ | ⟨order, within, exact⟩
      · exact ⟨small, below, .last fits⟩
      · have held : s.Present ((node.children_.entries.take m).drop n) :=
          fun child inside => present child (List.mem_of_mem_take (List.mem_of_mem_drop inside))
        have total := ((built_empty : Built fuse size {} []).fill (dots off ino node ++
          s.childDirents ((node.children_.entries.take m).drop n) (2 + n))).pos_eq
        rw [← same, empty, List.nil_append, room, List.map_append, List.sum_append] at total
        have nothing : room fuse (s.childDirents ((node.children_.entries.take m).drop n)
            (2 + n)) = 0 := by
          rw [room]
          omega
        rw [held.room_eq] at nothing
        have short := List.drop_eq_nil_iff.mp (width_zero nothing)
        rw [List.length_take] at short
        omega
  | @page off buf front rest last listed good ends _ ih =>
      intro n inside starts
      obtain ⟨small, m, ⟨below, stops⟩, same⟩ := (readdir_page found present buf).mp ⟨listed, good⟩
      rw [starts.skipped_eq] at stops same
      rcases stops with ⟨rfl, fits⟩ | ⟨order, within, exact⟩
      · exact ⟨small, below, .last fits⟩
      · have built := (built_empty : Built fuse size {} []).fill (dots off ino node ++
          s.childDirents ((node.children_.entries.take m).drop n) (2 + n))
        rw [← same] at built
        rw [built.entries_eq small good.fits, List.nil_append] at ends
        have next := page_last_off present starts order.le within ends
        rw [next] at ih
        obtain ⟨-, total, cuts⟩ := ih m within (Or.inr rfl)
        rw [dotsWidth_later] at cuts
        refine ⟨small, total, ?_⟩
        rw [drop_split order.le]
        refine .page ?_ exact cuts
        intro nothing
        have short := List.drop_eq_nil_iff.mp nothing
        rw [List.length_take] at short
        omega

theorem readdir_stops (found : s.findDirectory ino = some node)
    (present : s.Present node.children_.entries) (small : size ≤ max_size) {m : Nat}
    (stops : Stops fuse size off node.children_.entries m) :
    ∃ buf, s.readdir fuse ino size off = some (s, [.dirbuf buf]) ∧ WellFormed fuse size buf ∧
      Built fuse size buf (dots off ino node ++ s.childDirents
        ((node.children_.entries.take m).drop (skipped off)) (2 + skipped off)) := by
  obtain ⟨listed, good⟩ := (readdir_page found present _).mpr ⟨small, m, stops, rfl⟩
  have built := (built_empty : Built fuse size {} []).fill (dots off ino node ++
    s.childDirents ((node.children_.entries.take m).drop (skipped off)) (2 + skipped off))
  exact ⟨_, listed, good, built⟩

/-- Behind the last child there is an empty page. -/
theorem paged_end (found : s.findDirectory ino = some node)
    (present : s.Present node.children_.entries) (small : size ≤ max_size)
    (total : node.children_.entries.length + 2 ≤ INT_MAX)
    (starts : Starts off node.children_.entries.length) (later : dotsWidth fuse off = 0) :
    Paged s fuse ino size off [] := by
  have nothing : node.children_.entries.drop (skipped off) = [] := by
    rw [starts.skipped_eq]
    exact List.drop_length
  have stops : Stops fuse size off node.children_.entries node.children_.entries.length := by
    refine ⟨total, Or.inl ⟨rfl, ?_⟩⟩
    rw [nothing, later]
    exact Nat.zero_le size
  obtain ⟨buf, listed, good, built⟩ := readdir_stops found present small stops
  refine .done listed good ?_
  rw [built.pos_eq, List.take_length, nothing, room, List.map_append, List.sum_append]
  have front : room fuse (dots off ino node) = dotsWidth fuse off := room_dots
  rw [room] at front
  rw [front, later]
  rfl

/-- One page up to child `m`, and the pages behind it. -/
theorem paged_page (found : s.findDirectory ino = some node)
    (present : s.Present node.children_.entries) (small : size ≤ max_size) {m : Nat}
    (starts : Starts off n) (order : n ≤ m) (inside : m ≤ node.children_.entries.length)
    (stops : Stops fuse size off node.children_.entries m)
    (onward : ∃ entries, Paged s fuse ino size (m + 2 : Nat) entries ∧
      entries.map Dirent.name = (node.children_.entries.drop m).map Sigma.fst) :
    ∃ entries, Paged s fuse ino size off entries ∧
      entries.map Dirent.name = (dots off ino node).map Dirent.name ++
        (node.children_.entries.drop n).map Sigma.fst := by
  obtain ⟨buf, listed, good, built⟩ := readdir_stops found present small stops
  rw [starts.skipped_eq] at built
  have held : s.Present ((node.children_.entries.take m).drop n) :=
    fun child within => present child (List.mem_of_mem_take (List.mem_of_mem_drop within))
  obtain ⟨rest, paged, names⟩ := onward
  have whole : ((dots off ino node ++ s.childDirents ((node.children_.entries.take m).drop n)
      (2 + n)) ++ rest).map Dirent.name = (dots off ino node).map Dirent.name ++
        (node.children_.entries.drop n).map Sigma.fst := by
    rw [List.map_append, List.map_append, held.names_eq, names, List.append_assoc,
      ← List.map_append, ← drop_split order]
  rcases List.eq_nil_or_concat (dots off ino node ++
      s.childDirents ((node.children_.entries.take m).drop n) (2 + n)) with
    nothing | ⟨front, last, ends⟩
  · -- an empty page, which is the last one
    rw [nothing] at built
    have empty : buf.pos = 0 := built.pos_eq
    refine ⟨[], .done listed good empty, ?_⟩
    obtain ⟨no_dots, no_children⟩ := List.append_eq_nil_iff.mp nothing
    have no_names : (s.childDirents ((node.children_.entries.take m).drop n) (2 + n)).map
        Dirent.name = ((node.children_.entries.take m).drop n).map Sigma.fst := held.names_eq
    rw [no_children] at no_names
    have short := List.drop_eq_nil_iff.mp (List.map_eq_nil_iff.mp no_names.symm)
    rw [List.length_take] at short
    obtain ⟨-, ⟨all, -⟩ | ⟨beyond, -⟩⟩ := stops
    · have last : n = node.children_.entries.length := by omega
      rw [no_dots, last, List.drop_length]
      rfl
    · rw [starts.skipped_eq] at beyond
      omega
  · rw [List.concat_eq_append] at ends
    have next := page_last_off present starts order inside ends
    rw [ends] at built whole
    refine ⟨front ++ last :: rest, .page listed good (built.entries_eq small good.fits) ?_, ?_⟩
    · rw [next]
      exact paged
    · rw [← whole, List.append_assoc, List.singleton_append]

theorem cuts_paged (found : s.findDirectory ino = some node)
    (present : s.Present node.children_.entries) (small : size ≤ max_size)
    (total : node.children_.entries.length + 2 ≤ INT_MAX) {p : Nat}
    {rest : List ((_ : String) × Nat)} (cuts : Cuts fuse size p rest) :
    ∀ off n, n ≤ node.children_.entries.length → Starts off n → p = dotsWidth fuse off →
      rest = node.children_.entries.drop n →
      ∃ entries, Paged s fuse ino size off entries ∧
        entries.map Dirent.name = (dots off ino node).map Dirent.name ++
          (node.children_.entries.drop n).map Sigma.fst := by
  induction cuts with
  | @last p children fits =>
      intro off n inside starts begun same
      subst begun same
      have stops : Stops fuse size off node.children_.entries node.children_.entries.length := by
        refine ⟨total, Or.inl ⟨rfl, ?_⟩⟩
        rw [starts.skipped_eq]
        exact fits
      apply paged_page found present small starts inside le_rfl stops
      refine ⟨[], paged_end found present small total (Or.inr rfl) dotsWidth_later, ?_⟩
      rw [List.drop_length]
      rfl
  | @page p front back some_child exact _ ih =>
      intro off n inside starts begun same
      subst begun
      have longer : 0 < front.length := List.length_pos_iff.mpr some_child
      have total_length := congrArg List.length same
      rw [List.length_append, List.length_drop] at total_length
      have front_eq : (node.children_.entries.take (n + front.length)).drop n = front := by
        rw [List.drop_take, Nat.add_sub_cancel_left, ← same, List.take_left]
      have back_eq : back = node.children_.entries.drop (n + front.length) := by
        rw [← List.drop_drop, ← same, List.drop_left]
      have stops : Stops fuse size off node.children_.entries (n + front.length) := by
        refine ⟨by omega, Or.inr ⟨?_, by omega, ?_⟩⟩
        · rw [starts.skipped_eq]
          omega
        · rw [starts.skipped_eq, front_eq]
          exact exact
      apply paged_page found present small starts (by omega) (by omega) stops
      obtain ⟨entries, paged, names⟩ :=
        ih _ (n + front.length) (by omega) (Or.inr rfl) dotsWidth_later.symm back_eq
      refine ⟨entries, paged, ?_⟩
      rw [names]
      unfold dots
      rw [if_neg (by omega), if_neg (by omega)]
      rfl

end Paging

section Runs

variable {files dirs : Nat} {labels : List (Request × List Reply)}

/-- A reply is well formed exactly when its page ends with the directory or exactly with the
buffer, and paging lists the directory exactly when all its pages do. -/
theorem readdir_wellFormed_iff
    (run : Exec (Guarded KernelVfs (Of (Server.step fuse))) (init files dirs) labels s)
    {ino : Nat} {node : FileNode} (found : s.findDirectory ino = some node) (size : Nat) :
    (∀ off, (∃ buf, s.readdir fuse ino size off = some (s, [.dirbuf buf]) ∧
        WellFormed fuse size buf) ↔
      size ≤ max_size ∧ ∃ n, Stops fuse size off node.children_.entries n) ∧
    ((∃ entries, Paged s fuse ino size 0 entries ∧
        entries.map Dirent.name = "." :: ".." :: node.children_.entries.map Sigma.fst) ↔
      size ≤ max_size ∧ node.children_.entries.length + 2 ≤ INT_MAX ∧
        Cuts fuse size (fuse.direntSize "." + fuse.direntSize "..") node.children_.entries) := by
  have present : s.Present node.children_.entries :=
    (sound_of_run run).children_present (findDirectory_eq_some.mp found).1
  constructor
  · intro off
    constructor
    · rintro ⟨buf, reply⟩
      obtain ⟨small, n, stops, -⟩ := (readdir_page found present buf).mp reply
      exact ⟨small, n, stops⟩
    · rintro ⟨small, n, stops⟩
      obtain ⟨buf, listed, good, -⟩ := readdir_stops found present small stops
      exact ⟨buf, listed, good⟩
  · have begun : dotsWidth fuse 0 = fuse.direntSize "." + fuse.direntSize ".." := rfl
    rw [← begun]
    constructor
    · rintro ⟨entries, paged, -⟩
      exact paged_cuts found present paged 0 (Nat.zero_le _) (Or.inl ⟨rfl, rfl⟩)
    · rintro ⟨small, total, cuts⟩
      obtain ⟨entries, paged, names⟩ := cuts_paged found present small total cuts 0 0
        (Nat.zero_le _) (Or.inl ⟨rfl, rfl⟩) rfl List.drop_zero.symm
      exact ⟨entries, paged, names⟩

/-- A file in the root directory, and room for the page that lists it. -/
theorem readdir_wellFormed_example :
    ∃ labels s, Exec (Guarded KernelVfs (Of (Server.step .aligned))) (init 0 0) labels s ∧
      labels.length = 1 ∧ ∃ entries, Paged s .aligned 1 96 0 entries ∧
        entries.map Dirent.name = [".", "..", "a"] := by
  let labels : List (Request × List Reply) := [
    (.create .front 1 "a" 0o644, [.create { ino := 2, attr := {
      st_mode := S_IFREG ||| 0o644, st_nlink := 1, st_size := 0 } }])]
  have runs : (Transition.run (guardedStep (fun s l => decide (KernelVfs s l))
      (Server.step .aligned)) (init 0 0) labels).isSome = true := by decide +kernel
  have kept := Transition.guarded_of_isSome runs
  have listed : ((((Transition.run (guardedStep (fun s l => decide (KernelVfs s l))
      (Server.step .aligned)) (init 0 0) labels).get runs).findDirectory 1).map
      fun node => node.children_.entries) = some [⟨"a", 2⟩] := by
    clear kept
    revert runs
    decide +kernel
  obtain ⟨node, found, names⟩ := Option.map_eq_some_iff.mp listed
  have paged := (readdir_wellFormed_iff kept found 96).2
  rw [names] at paged
  refine ⟨labels, _, kept, rfl, paged.mpr ⟨by decide, by decide, .last (by decide)⟩⟩

/-- With less room, the reply is longer than the buffer. -/
theorem readdir_overflows :
    ¬ ∀ (fuse : Libfuse) (labels : List (Request × List Reply)) (s : Server),
      Exec (Guarded KernelVfs (Of (Server.step fuse))) (init 0 0) labels s →
      ∀ ino node size off, s.findDirectory ino = some node →
        ∃ buf, s.readdir fuse ino size off = some (s, [.dirbuf buf]) ∧
          WellFormed fuse size buf := by
  intro always
  let labels : List (Request × List Reply) := [
    (.create .front 1 "a" 0o644, [.create { ino := 2, attr := {
      st_mode := S_IFREG ||| 0o644, st_nlink := 1, st_size := 0 } }])]
  have runs : (Transition.run (guardedStep (fun s l => decide (KernelVfs s l))
      (Server.step .aligned)) (init 0 0) labels).isSome = true := by decide +kernel
  have listed : ((((Transition.run (guardedStep (fun s l => decide (KernelVfs s l))
      (Server.step .aligned)) (init 0 0) labels).get runs).findDirectory 1).isSome) = true := by
    revert runs
    decide +kernel
  obtain ⟨node, found⟩ := Option.isSome_iff_exists.mp listed
  obtain ⟨buf, replied, good⟩ :=
    always .aligned labels _ (Transition.guarded_of_isSome runs) 1 node 80 0 found
  have long : ((((Transition.run (guardedStep (fun s l => decide (KernelVfs s l))
      (Server.step .aligned)) (init 0 0) labels).get runs).readdir .aligned 1 80 0).bind
        fun handled => handled.2.head?).map (fun
          | .dirbuf buf => buf.pos
          | _ => 0) = some 96 := by
    clear replied found listed
    revert runs
    decide +kernel
  rw [replied] at long
  have overflow : buf.pos = 96 := Option.some.inj long
  have fits := good.fits
  omega

end Runs

end Server

end Myfs

end Getrafty
